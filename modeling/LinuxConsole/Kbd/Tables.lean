import Mathlib.Data.Finset.Card
import Mathlib.Data.Fintype.Card
import Mathlib.Logic.Function.Basic
import LinuxConsole.Lib.Run

/-!
# The keyboard maps and the accents

`KDSKBENT` of `do_kdsk_ioctl` stores an entry of a keyboard map, makes the map when there is none,
and removes a map; `KDSKBDIACR` replaces the table of accents.

A map that was allocated is told by a mark in its entry 0.  `dynamic` is what the mark should say:
whether the map came from `kmalloc`.

Two calls change something and then fail.  A map is made for an entry `K_SAK` that the caller may
not store, and the size of the table of accents is stored before the accents are copied.
**`keyboard_tables_iff`** says that these are all, and that `keymap_count` is the number of the
allocated maps as long as the mark of every map that is removed tells the truth; where entry 0
cannot be assigned it always does, `marked_run`.
-/

namespace LinuxConsole.Input

open Lib (run Along along_congr run_invariant)

/-! ### The constants of the keyboard maps -/

/-- `U`. -/
def keyU (x : BitVec 16) : BitVec 16 := x ^^^ 0xf000

/-- `KTYP` and `KVAL`. -/
def keyTyp (x : BitVec 16) : Nat := (x >>> 8).toNat
def keyVal (x : BitVec 16) : Nat := (x &&& 0xff).toNat

/-- The keysyms of type `KT_SPEC` that the calls know. -/
def kHole : BitVec 16 := 0x200
def kSak : BitVec 16 := 0x20f
def kAllocated : BitVec 16 := 0x27e
def kNosuchmap : BitVec 16 := 0x27f

/-- `max_vals`. -/
def maxVals : List Nat := [255, 255, 19, 19, 5, 255, 3, 8, 255, 25, 7, 255, 7, 255]

/-- `MAX_NR_OF_USER_KEYMAPS` and `MAX_DIACR`. -/
def maxNrOfUserKeymaps : Nat := 256
def maxDiacr : Nat := 256

/-! ### The tables -/

/-- A keyboard map.  `dynamic` is whether it came from `kmalloc`; the code looks at entry 0. -/
structure KeyMap where
  dynamic : Bool
  entry : Nat → BitVec 16

/-- `struct kbdiacr`: the accent, the letter and what they make. -/
abbrev Kbdiacr : Type := BitVec 8 × BitVec 8 × BitVec 8

/-- `key_maps`, `keymap_count`, `accent_table` and `accent_table_size`. -/
structure KeyTables where
  keyMaps : Fin 256 → Option KeyMap
  keymapCount : BitVec 32
  accentTable : Nat → Kbdiacr
  accentTableSize : Nat

/-- `struct kbentry`. -/
structure Kbentry where
  table : Fin 256
  index : Fin 256
  value : BitVec 16

/-- What the two calls return. -/
inductive TableRet
  | ok
  | efault
  | eperm
  | einval
  | enomem
  deriving DecidableEq

/-- The calls, with what the caller is and has: `KDSKBENT` with the entry that `copy_from_user`
gets, and `KDSKBDIACR` with the count that `get_user` gets, whether the accents can be copied and
what the copy leaves in the table. -/
inductive TableCall
  | kdskbent (entry : Option Kbentry) (perm unicode mem capResource capAdmin : Bool)
  | kdskbdiacr (ct : Option (BitVec 32)) (perm copied : Bool) (accents : Nat → Kbdiacr)

/-- A map as it is allocated. -/
def newMap : KeyMap := ⟨true, fun j => if j = 0 then keyU kAllocated else keyU kHole⟩

/-- The keysym has a type and a value that exist, or no type on a keyboard in Unicode mode. -/
def keysymValid (unicode : Bool) (v : BitVec 16) : Bool :=
  if keyTyp v < maxVals.length then decide (keyVal v ≤ maxVals.getD (keyTyp v) 0) else unicode

namespace KeyTables

variable (t : KeyTables)

/-- `key_maps[s] = m`. -/
def setMap (s : Fin 256) (m : Option KeyMap) : KeyTables :=
  { t with keyMaps := Function.update t.keyMaps s m }

/-- The part of `KDSKBENT` that removes the map `s`. -/
def disallocate (s : Fin 256) : KeyTables :=
  match t.keyMaps s with
  | none => t
  | some m =>
    if s = 0 then t
    else if m.entry 0 = keyU kAllocated then
      { t.setMap s none with keymapCount := t.keymapCount - 1 }
    else t.setMap s none

/-- The end of `KDSKBENT`: the entry is stored in the map `m` of the table `s`. -/
def storeEntry (s i : Fin 256) (v : BitVec 16) (capAdmin : Bool) (m : KeyMap) :
    TableRet × KeyTables :=
  let ov := keyU (m.entry i)
  if v = ov then (.ok, t)
  else if (ov = kSak ∨ v = kSak) ∧ !capAdmin then (.eperm, t)
  else (.ok, t.setMap s (some { m with entry := Function.update m.entry i (keyU v) }))

/-- `KDSKBENT` with an entry for a map, which is made if it is not there. -/
def assign (s i : Fin 256) (v : BitVec 16) (mem capResource capAdmin : Bool) :
    TableRet × KeyTables :=
  match t.keyMaps s with
  | some m => t.storeEntry s i v capAdmin m
  | none =>
    if t.keymapCount.toNat ≥ maxNrOfUserKeymaps ∧ !capResource then (.eperm, t)
    else if !mem then (.enomem, t)
    else
      let t := { t.setMap s (some newMap) with keymapCount := t.keymapCount + 1 }
      t.storeEntry s i v capAdmin newMap

/-- `KDSKBENT`.  `zero` is whether entry 0 can be assigned: it can on m68k and powerpc. -/
def kdskbent (zero : Bool) (entry : Option Kbentry) (perm unicode mem capResource capAdmin : Bool) :
    TableRet × KeyTables :=
  match entry with
  | none => (.efault, t)
  | some e =>
    if !perm then (.eperm, t)
    else if e.index = 0 ∧ e.value = kNosuchmap then (.ok, t.disallocate e.table)
    else if !keysymValid unicode e.value then (.einval, t)
    else if !zero ∧ e.index = 0 then (.ok, t)
    else t.assign e.table e.index e.value mem capResource capAdmin

/-- `KDSKBDIACR`. -/
def kdskbdiacr (ct : Option (BitVec 32)) (perm copied : Bool) (accents : Nat → Kbdiacr) :
    TableRet × KeyTables :=
  if !perm then (.eperm, t)
  else
    match ct with
    | none => (.efault, t)
    | some ct =>
      if ct.toNat ≥ maxDiacr then (.einval, t)
      else
        let t := { t with accentTableSize := ct.toNat }
        let t := { t with accentTable := fun n => if n < ct.toNat then accents n else t.accentTable n }
        if copied then (.ok, t) else (.efault, t)

/-- A call with what it returns. -/
def call (zero : Bool) : TableCall → TableRet × KeyTables
  | .kdskbent entry perm unicode mem capResource capAdmin =>
    t.kdskbent zero entry perm unicode mem capResource capAdmin
  | .kdskbdiacr ct perm copied accents => t.kdskbdiacr ct perm copied accents

/-- The tables after a call. -/
def step (zero : Bool) (t : KeyTables) (c : TableCall) : KeyTables := (t.call zero c).2

/-! ### What the calls should do -/

/-- The maps, the counter and the accents in use are the same. -/
structure Same (t t' : KeyTables) : Prop where
  maps : t'.keyMaps = t.keyMaps
  count : t'.keymapCount = t.keymapCount
  size : t'.accentTableSize = t.accentTableSize
  accents : ∀ n < t.accentTableSize, t'.accentTable n = t.accentTable n

/-- A call that returns an error changes nothing. -/
def Atomic (zero : Bool) (c : TableCall) : Prop :=
  (t.call zero c).1 ≠ .ok → t.Same (t.step zero c)

/-- The tables whose maps are allocated. -/
def dynamicMaps : Finset (Fin 256) :=
  Finset.univ.filter fun s => (t.keyMaps s).any KeyMap.dynamic = true

/-- `keymap_count` is the number of the allocated maps. -/
def Counted : Prop := t.keymapCount.toNat = t.dynamicMaps.card

/-- The entry is `K_SAK`, for a map that is to be made, and the caller may not store it. -/
def MakesMapInVain (zero : Bool) (entry : Option Kbentry)
    (perm mem capResource capAdmin : Bool) : Prop :=
  ∃ e, entry = some e ∧ perm = true ∧ e.value = kSak ∧ (e.index ≠ 0 ∨ zero = true) ∧
    t.keyMaps e.table = none ∧ (t.keymapCount.toNat < maxNrOfUserKeymaps ∨ capResource = true) ∧
      mem = true ∧ capAdmin = false

/-- What a call needs to change nothing when it fails: no map is made in vain, and accents that
cannot be copied are as many as there are and leave them alone. -/
def FailsClean (zero : Bool) : TableCall → Prop
  | .kdskbent entry perm _ mem capResource capAdmin =>
    ¬ t.MakesMapInVain zero entry perm mem capResource capAdmin
  | .kdskbdiacr ct perm copied accents =>
    ∀ n : BitVec 32, ct = some n → perm = true → n.toNat < maxDiacr → copied = false →
      n.toNat = t.accentTableSize ∧ ∀ i < t.accentTableSize, accents i = t.accentTable i

/-- The mark of a map that is removed says whether it is allocated. -/
def MarkTrue : TableCall → Prop
  | .kdskbent entry perm _ _ _ _ =>
    ∀ e m, entry = some e → perm = true → e.index = 0 → e.value = kNosuchmap → e.table ≠ 0 →
      t.keyMaps e.table = some m → (m.entry 0 = keyU kAllocated ↔ m.dynamic = true)
  | .kdskbdiacr .. => True

/-- The mark of every map says whether it is allocated. -/
def Marked : Prop :=
  ∀ s m, t.keyMaps s = some m → (m.entry 0 = keyU kAllocated ↔ m.dynamic = true)

variable {t}

theorem Same.refl (t : KeyTables) : t.Same t := ⟨rfl, rfl, rfl, fun _ _ => rfl⟩

/-! ### Errors -/

theorem eperm_ne_ok : TableRet.eperm ≠ TableRet.ok := by decide

theorem efault_ne_ok : TableRet.efault ≠ TableRet.ok := by decide

theorem storeEntry_same {s i : Fin 256} {v : BitVec 16} {capAdmin : Bool} {m : KeyMap}
    (herr : (t.storeEntry s i v capAdmin m).1 ≠ .ok) : (t.storeEntry s i v capAdmin m).2 = t := by
  rw [storeEntry] at herr ⊢
  split at herr
  · exact absurd rfl herr
  · next hne =>
    rw [if_neg hne]
    split at herr
    · next hsak => rw [if_pos hsak]
    · exact absurd rfl herr

theorem newMap_entry (i : Fin 256) : keyU (newMap.entry i) ≠ kSak := by
  rw [newMap]
  dsimp only
  split
  · decide
  · decide

theorem storeEntry_newMap {s i : Fin 256} {v : BitVec 16} {capAdmin : Bool} :
    (t.storeEntry s i v capAdmin newMap).1 ≠ .ok ↔ v = kSak ∧ capAdmin = false := by
  have hsak := newMap_entry i
  rw [storeEntry]
  split
  · next heq =>
    refine ⟨fun h => absurd rfl h, ?_⟩
    rintro ⟨hv, -⟩
    exact absurd (heq.symm.trans hv) hsak
  · split
    · next hfail =>
      refine ⟨fun _ => ⟨hfail.1.resolve_left hsak, ?_⟩, fun _ => ?_⟩
      · simpa using hfail.2
      · exact eperm_ne_ok
    · next hstore =>
      refine ⟨fun h => absurd rfl h, ?_⟩
      rintro ⟨hv, hcap⟩
      exact absurd ⟨Or.inr hv, by rw [hcap]; rfl⟩ hstore

/-- The state in which a new map is in the slot `s`. -/
def grown (t : KeyTables) (s : Fin 256) : KeyTables :=
  { t.setMap s (some newMap) with keymapCount := t.keymapCount + 1 }

/-- **All that assigning an entry can do**: nothing, or it stores it in the map that is there, or it
makes a map and stores it there. -/
theorem assign_cases (s i : Fin 256) (v : BitVec 16) (mem capResource capAdmin : Bool) :
    (t.assign s i v mem capResource capAdmin).2 = t ∨
      (∃ m, t.keyMaps s = some m ∧
        t.assign s i v mem capResource capAdmin = t.storeEntry s i v capAdmin m) ∨
      t.keyMaps s = none ∧ (t.keymapCount.toNat < maxNrOfUserKeymaps ∨ capResource = true) ∧
        mem = true ∧
        t.assign s i v mem capResource capAdmin = (t.grown s).storeEntry s i v capAdmin newMap := by
  rw [assign]
  cases hmap : t.keyMaps s with
  | some m => exact Or.inr (Or.inl ⟨m, rfl, rfl⟩)
  | none =>
    dsimp only
    split
    · exact Or.inl rfl
    · next hlimit =>
      split
      · exact Or.inl rfl
      · next hmem =>
        refine Or.inr (Or.inr ⟨rfl, ?_, by simpa using hmem, rfl⟩)
        by_contra hno
        rw [not_or, Nat.not_lt, Bool.not_eq_true] at hno
        exact hlimit ⟨hno.1, by rw [hno.2]; rfl⟩

/-- **All that `KDSKBENT` can do**: nothing, or it removes a map, or it assigns an entry. -/
theorem kdskbent_cases (zero : Bool) (entry : Option Kbentry)
    (perm unicode mem capResource capAdmin : Bool) :
    (t.kdskbent zero entry perm unicode mem capResource capAdmin).2 = t ∨
      ∃ e, entry = some e ∧ perm = true ∧
        (e.index = 0 ∧ e.value = kNosuchmap ∧
            t.kdskbent zero entry perm unicode mem capResource capAdmin =
              (.ok, t.disallocate e.table) ∨
          (e.index ≠ 0 ∨ zero = true) ∧
            t.kdskbent zero entry perm unicode mem capResource capAdmin =
              t.assign e.table e.index e.value mem capResource capAdmin) := by
  rw [kdskbent.eq_def]
  cases entry with
  | none => exact Or.inl rfl
  | some e =>
    dsimp only
    split
    · exact Or.inl rfl
    · next hperm =>
      rw [Bool.not_eq_true, Bool.not_eq_false'] at hperm
      split
      · next hfree => exact Or.inr ⟨e, rfl, hperm, Or.inl ⟨hfree.1, hfree.2, rfl⟩⟩
      · split
        · exact Or.inl rfl
        · split
          · exact Or.inl rfl
          · next hzero =>
            refine Or.inr ⟨e, rfl, hperm, Or.inr ⟨?_, rfl⟩⟩
            by_contra hno
            rw [not_or, not_not, Bool.not_eq_true] at hno
            exact hzero ⟨by rw [hno.2]; rfl, hno.1⟩

theorem kdskbent_inVain {zero : Bool} {entry : Option Kbentry}
    {perm mem capResource capAdmin : Bool} (unicode : Bool)
    (h : t.MakesMapInVain zero entry perm mem capResource capAdmin) :
    ∃ s, t.keyMaps s = none ∧
      t.kdskbent zero entry perm unicode mem capResource capAdmin = (.eperm, t.grown s) := by
  obtain ⟨e, rfl, rfl, hv, hindex, hmap, hroom, rfl, rfl⟩ := h
  have hvalid : keysymValid unicode e.value = true := by
    rw [hv]
    cases unicode with
    | false => decide
    | true => decide
  have hnosuch : ¬ (e.index = 0 ∧ e.value = kNosuchmap) := by
    rintro ⟨-, heq⟩
    exact absurd (hv.symm.trans heq) (by decide)
  have hassigns : ¬ ((!zero) = true ∧ e.index = 0) := by
    rintro ⟨hz, hi⟩
    rcases hindex with h | h
    · exact h hi
    · rw [h] at hz
      cases hz
  have hlimit : ¬ (t.keymapCount.toNat ≥ maxNrOfUserKeymaps ∧ (!capResource) = true) := by
    rintro ⟨hge, hcap⟩
    rcases hroom with h | h
    · exact absurd h (Nat.not_lt.mpr hge)
    · rw [h] at hcap
      cases hcap
  have herr := (storeEntry_newMap (t := t.grown e.table) (s := e.table) (i := e.index)).mpr
    ⟨hv, rfl⟩
  have hne : e.value ≠ keyU (newMap.entry e.index) := by
    intro heq
    exact newMap_entry e.index (heq.symm.trans hv)
  refine ⟨e.table, hmap, ?_⟩
  rw [kdskbent, if_neg (by decide), if_neg hnosuch, hvalid, if_neg (by decide), if_neg hassigns,
    assign, hmap]
  dsimp only
  rw [if_neg hlimit, if_neg (by decide), storeEntry, if_neg hne, if_pos ⟨Or.inr hv, rfl⟩]
  rfl

/-- **When `KDSKBENT` fails it has changed nothing** unless it has made a map for an entry that the
caller may not store. -/
theorem kdskbent_atomic_iff (zero : Bool) (entry : Option Kbentry)
    (perm unicode mem capResource capAdmin : Bool) :
    t.Atomic zero (.kdskbent entry perm unicode mem capResource capAdmin) ↔
      ¬ t.MakesMapInVain zero entry perm mem capResource capAdmin := by
  constructor
  · intro hatomic hvain
    obtain ⟨s, hmap, hcall⟩ := kdskbent_inVain unicode hvain
    rw [Atomic, step, call, hcall] at hatomic
    have hslot := congrFun (hatomic eperm_ne_ok).maps s
    rw [hmap, grown, setMap] at hslot
    dsimp only at hslot
    rw [Function.update_self] at hslot
    cases hslot
  · intro hclean
    rw [Atomic, step, call]
    rcases kdskbent_cases (t := t) zero entry perm unicode mem capResource capAdmin with
      hsame | ⟨e, rfl, rfl, ⟨-, -, hcall⟩ | ⟨hindex, hcall⟩⟩
    · rw [hsame]
      exact fun _ => Same.refl t
    · rw [hcall]
      exact fun herr => absurd rfl herr
    · rw [hcall]
      rcases assign_cases (t := t) e.table e.index e.value mem capResource capAdmin with
        hsame | ⟨m, -, hstore⟩ | ⟨hmap, hroom, hmem, hstore⟩
      · rw [hsame]
        exact fun _ => Same.refl t
      · rw [hstore]
        intro herr
        rw [storeEntry_same herr]
        exact Same.refl t
      · rw [hstore]
        intro herr
        obtain ⟨hv, hcap⟩ := storeEntry_newMap.mp herr
        exact absurd ⟨e, rfl, rfl, hv, hindex, hmap, hroom, hmem, hcap⟩ hclean

/-- **When `KDSKBDIACR` fails it has changed nothing** unless the copy failed. -/
theorem kdskbdiacr_atomic_iff (zero : Bool) (ct : Option (BitVec 32)) (perm copied : Bool)
    (accents : Nat → Kbdiacr) :
    t.Atomic zero (.kdskbdiacr ct perm copied accents) ↔
      t.FailsClean zero (.kdskbdiacr ct perm copied accents) := by
  rw [Atomic, step, call, kdskbdiacr.eq_def, FailsClean]
  cases perm with
  | false =>
    refine ⟨fun _ n _ hp => ?_, fun _ _ => Same.refl t⟩
    cases hp
  | true =>
    rw [Bool.not_true, if_neg Bool.false_ne_true]
    cases ct with
    | none =>
      refine ⟨fun _ n hn => ?_, fun _ _ => Same.refl t⟩
      cases hn
    | some ct =>
      dsimp only
      by_cases hlarge : ct.toNat ≥ maxDiacr
      · rw [if_pos hlarge]
        refine ⟨fun _ n hn _ hlt => ?_, fun _ _ => Same.refl t⟩
        obtain rfl := Option.some.inj hn
        exact absurd hlarge (Nat.not_le.mpr hlt)
      rw [if_neg hlarge]
      cases copied with
      | true =>
        rw [if_pos rfl]
        refine ⟨fun _ n _ _ _ hc => ?_, fun _ herr => absurd rfl herr⟩
        cases hc
      | false =>
        rw [if_neg Bool.false_ne_true]
        constructor
        · intro hatomic n hn _ _ _
          obtain rfl := Option.some.inj hn
          have hsame := hatomic efault_ne_ok
          have hsize : ct.toNat = t.accentTableSize := hsame.size
          refine ⟨hsize, fun i hi => ?_⟩
          have hacc := hsame.accents i hi
          dsimp only at hacc
          rwa [if_pos (by omega)] at hacc
        · intro hclean _
          obtain ⟨hsize, hacc⟩ := hclean ct rfl rfl (Nat.not_le.mp hlarge) rfl
          refine ⟨rfl, rfl, hsize, fun n hn => ?_⟩
          dsimp only
          split
          · exact hacc n hn
          · rfl

theorem tableCall_atomic_iff (zero : Bool) (c : TableCall) :
    t.Atomic zero c ↔ t.FailsClean zero c := by
  cases c with
  | kdskbent entry perm unicode mem capResource capAdmin =>
    exact kdskbent_atomic_iff zero entry perm unicode mem capResource capAdmin
  | kdskbdiacr ct perm copied accents => exact kdskbdiacr_atomic_iff zero ct perm copied accents

/-! ### The counter -/

theorem one_toNat : (1 : BitVec 32).toNat = 1 := rfl

theorem mem_dynamicMaps {s : Fin 256} :
    s ∈ t.dynamicMaps ↔ ∃ m, t.keyMaps s = some m ∧ m.dynamic = true := by
  rw [dynamicMaps, Finset.mem_filter, Option.any_eq_true]
  exact ⟨fun h => h.2, fun h => ⟨Finset.mem_univ s, h⟩⟩

theorem dynamicMaps_setMap_none (s : Fin 256) :
    (t.setMap s none).dynamicMaps = t.dynamicMaps.erase s := by
  ext r
  rw [Finset.mem_erase, mem_dynamicMaps, mem_dynamicMaps, setMap]
  dsimp only
  rw [Function.update_apply]
  by_cases hr : r = s
  · rw [if_pos hr]
    simp [hr]
  · rw [if_neg hr]
    exact ⟨fun h => ⟨hr, h⟩, fun h => h.2⟩

theorem dynamicMaps_setMap_some (s : Fin 256) {m : KeyMap} (hm : m.dynamic = true) :
    (t.setMap s (some m)).dynamicMaps = insert s t.dynamicMaps := by
  ext r
  rw [Finset.mem_insert, mem_dynamicMaps, mem_dynamicMaps, setMap]
  dsimp only
  rw [Function.update_apply]
  by_cases hr : r = s
  · rw [if_pos hr]
    exact ⟨fun _ => Or.inl hr, fun _ => ⟨m, rfl, hm⟩⟩
  · rw [if_neg hr]
    exact ⟨Or.inr, fun h => h.resolve_left hr⟩

theorem storeEntry_counted {s : Fin 256} (i : Fin 256) (v : BitVec 16) (capAdmin : Bool)
    {m : KeyMap} (hm : t.keyMaps s = some m) :
    (t.storeEntry s i v capAdmin m).2.dynamicMaps = t.dynamicMaps ∧
      (t.storeEntry s i v capAdmin m).2.keymapCount = t.keymapCount := by
  rw [storeEntry]
  split
  · exact ⟨rfl, rfl⟩
  · split
    · exact ⟨rfl, rfl⟩
    · refine ⟨?_, rfl⟩
      ext r
      rw [mem_dynamicMaps, mem_dynamicMaps, setMap]
      dsimp only
      rw [Function.update_apply]
      by_cases hr : r = s
      · subst hr
        rw [if_pos rfl, hm]
        simp
      · rw [if_neg hr]

theorem grown_counted (h : t.Counted) {s : Fin 256} (hs : t.keyMaps s = none) :
    (t.grown s).Counted := by
  have hnot : s ∉ t.dynamicMaps := by
    rw [mem_dynamicMaps, hs]
    rintro ⟨m, hm, -⟩
    cases hm
  have hcard : t.dynamicMaps.card < 256 := by
    have hproper : t.dynamicMaps ⊂ Finset.univ := by
      rw [Finset.ssubset_univ_iff]
      intro hall
      rw [hall] at hnot
      exact hnot (Finset.mem_univ s)
    have hlt := Finset.card_lt_card hproper
    rwa [Finset.card_univ, Fintype.card_fin] at hlt
  have hmaps : (t.grown s).dynamicMaps = insert s t.dynamicMaps :=
    dynamicMaps_setMap_some (t := t) s (m := newMap) rfl
  rw [Counted] at h ⊢
  rw [hmaps, Finset.card_insert_of_notMem hnot, ← h, grown]
  dsimp only
  rw [BitVec.toNat_add, one_toNat]
  omega

/-- **A map is removed**: the counter stays right exactly if the mark is. -/
theorem disallocate_counted_iff (h : t.Counted) (s : Fin 256) :
    (t.disallocate s).Counted ↔ ∀ m, s ≠ 0 → t.keyMaps s = some m →
      (m.entry 0 = keyU kAllocated ↔ m.dynamic = true) := by
  have hcount : t.keymapCount.toNat = t.dynamicMaps.card := h
  have hlt := t.keymapCount.isLt
  rw [disallocate]
  cases hmap : t.keyMaps s with
  | none =>
    refine ⟨fun _ m _ hm => ?_, fun _ => h⟩
    cases hm
  | some m =>
    dsimp only
    by_cases hzero : s = 0
    · rw [if_pos hzero]
      exact ⟨fun _ m' hne => absurd hzero hne, fun _ => h⟩
    rw [if_neg hzero]
    have hcard : (t.dynamicMaps.erase s).card = t.dynamicMaps.card - 1 ∧ 0 < t.dynamicMaps.card ∧
          m.dynamic = true ∨
        (t.dynamicMaps.erase s).card = t.dynamicMaps.card ∧ m.dynamic = false := by
      cases hdyn : m.dynamic with
      | true =>
        have hmem : s ∈ t.dynamicMaps := mem_dynamicMaps.mpr ⟨m, hmap, hdyn⟩
        exact Or.inl ⟨Finset.card_erase_of_mem hmem, Finset.card_pos.mpr ⟨s, hmem⟩, rfl⟩
      | false =>
        have hnot : s ∉ t.dynamicMaps := by
          rw [mem_dynamicMaps, hmap]
          rintro ⟨m', hm', hdyn'⟩
          obtain rfl := Option.some.inj hm'
          rw [hdyn] at hdyn'
          cases hdyn'
        exact Or.inr ⟨by rw [Finset.erase_eq_of_notMem hnot], rfl⟩
    have hthis : (∀ m', s ≠ 0 → some m = some m' →
        (m'.entry 0 = keyU kAllocated ↔ m'.dynamic = true)) ↔
          (m.entry 0 = keyU kAllocated ↔ m.dynamic = true) := by
      constructor
      · exact fun hall => hall m hzero rfl
      · intro hmark m' _ hm'
        obtain rfl := Option.some.inj hm'
        exact hmark
    rw [hthis]
    by_cases hmark : m.entry 0 = keyU kAllocated
    · have hdown : Counted { t.setMap s none with keymapCount := t.keymapCount - 1 } ↔
          (t.keymapCount - 1).toNat = (t.dynamicMaps.erase s).card := by
        rw [← dynamicMaps_setMap_none]
        rfl
      rw [if_pos hmark, hdown, BitVec.toNat_sub, one_toNat]
      rcases hcard with ⟨hc, hpos, hdyn⟩ | ⟨hc, hdyn⟩
      · refine ⟨fun _ => ⟨fun _ => hdyn, fun _ => hmark⟩, fun _ => ?_⟩
        rw [hc]
        omega
      · rw [hc, hdyn]
        refine ⟨fun heq => absurd heq (by omega), fun hiff => ?_⟩
        exact absurd (hiff.mp hmark) Bool.false_ne_true
    · have hkeep : (t.setMap s none).Counted ↔
          t.keymapCount.toNat = (t.dynamicMaps.erase s).card := by
        rw [← dynamicMaps_setMap_none]
        rfl
      rw [if_neg hmark, hkeep]
      rcases hcard with ⟨hc, hpos, hdyn⟩ | ⟨hc, hdyn⟩
      · refine ⟨fun heq => absurd heq (by omega), fun hiff => ?_⟩
        exact absurd (hiff.mpr hdyn) hmark
      · rw [hc, hdyn]
        exact ⟨fun _ => ⟨fun hm => absurd hm hmark, fun hf => absurd hf Bool.false_ne_true⟩,
          fun _ => hcount⟩

theorem Counted.storeEntry (h : t.Counted) {s : Fin 256} {m : KeyMap} (hm : t.keyMaps s = some m)
    (i : Fin 256) (v : BitVec 16) (capAdmin : Bool) :
    (t.storeEntry s i v capAdmin m).2.Counted := by
  obtain ⟨hmaps, hcount⟩ := storeEntry_counted i v capAdmin hm
  rw [Counted, hmaps, hcount]
  exact h

theorem grown_slot (t : KeyTables) (s : Fin 256) : (t.grown s).keyMaps s = some newMap := by
  rw [grown, setMap]
  exact Function.update_self ..

theorem Counted.assign (h : t.Counted) (s i : Fin 256) (v : BitVec 16)
    (mem capResource capAdmin : Bool) : (t.assign s i v mem capResource capAdmin).2.Counted := by
  rcases assign_cases (t := t) s i v mem capResource capAdmin with
    hsame | ⟨m, hm, hstore⟩ | ⟨hnone, -, -, hstore⟩
  · rw [hsame]
    exact h
  · rw [hstore]
    exact h.storeEntry hm i v capAdmin
  · rw [hstore]
    exact (grown_counted h hnone).storeEntry (grown_slot t s) i v capAdmin

/-- **The counter stays right in a call** exactly if the mark of a map that is removed is. -/
theorem step_counted_iff (h : t.Counted) (zero : Bool) (c : TableCall) :
    (t.step zero c).Counted ↔ t.MarkTrue c := by
  rw [step, call.eq_def]
  cases c with
  | kdskbdiacr ct perm copied accents =>
    refine ⟨fun _ => trivial, fun _ => ?_⟩
    dsimp only
    rw [kdskbdiacr.eq_def]
    cases perm with
    | false => exact h
    | true =>
      cases ct with
      | none => exact h
      | some ct =>
        dsimp only
        rw [Bool.not_true, if_neg Bool.false_ne_true]
        split
        · exact h
        · split <;> exact h
  | kdskbent entry perm unicode mem capResource capAdmin =>
    dsimp only
    rw [MarkTrue]
    by_cases hfree : ∃ e, entry = some e ∧ perm = true ∧ e.index = 0 ∧ e.value = kNosuchmap
    · obtain ⟨e, rfl, rfl, hindex, hvalue⟩ := hfree
      have hcall : t.kdskbent zero (some e) true unicode mem capResource capAdmin =
          (.ok, t.disallocate e.table) := by
        rw [kdskbent, Bool.not_true, if_neg Bool.false_ne_true, if_pos ⟨hindex, hvalue⟩]
      rw [hcall, disallocate_counted_iff h]
      constructor
      · intro hmark e' m he _ _ _ hne hm
        obtain rfl := Option.some.inj he
        exact hmark m hne hm
      · exact fun hmark m hne hm => hmark e m rfl rfl hindex hvalue hne hm
    · refine ⟨fun _ e m he hp hi hv => absurd ⟨e, he, hp, hi, hv⟩ hfree, fun _ => ?_⟩
      rcases kdskbent_cases (t := t) zero entry perm unicode mem capResource capAdmin with
        hsame | ⟨e, he, hp, ⟨hi, hv, -⟩ | ⟨-, hcall⟩⟩
      · rw [hsame]
        exact h
      · exact absurd ⟨e, he, hp, hi, hv⟩ hfree
      · rw [hcall]
        exact h.assign e.table e.index e.value mem capResource capAdmin

/-! ### The marks -/

theorem Marked.setMap (h : t.Marked) (s : Fin 256) {x : Option KeyMap}
    (hx : ∀ m, x = some m → (m.entry 0 = keyU kAllocated ↔ m.dynamic = true)) :
    (t.setMap s x).Marked := by
  intro r m hm
  rw [KeyTables.setMap] at hm
  dsimp only at hm
  rw [Function.update_apply] at hm
  split at hm
  · exact hx m hm
  · exact h r m hm

theorem Marked.storeEntry (h : t.Marked) {s i : Fin 256} (hi : i ≠ 0) {m : KeyMap}
    (hm : m.entry 0 = keyU kAllocated ↔ m.dynamic = true) (v : BitVec 16) (capAdmin : Bool) :
    (t.storeEntry s i v capAdmin m).2.Marked := by
  rw [KeyTables.storeEntry]
  split
  · exact h
  · split
    · exact h
    · refine h.setMap s ?_
      intro m' hm'
      obtain rfl := Option.some.inj hm'
      have hne : (0 : Nat) ≠ (i : Nat) := fun h0 => hi (Fin.ext h0.symm)
      dsimp only
      rw [Function.update_of_ne hne]
      exact hm

theorem Marked.grown (h : t.Marked) (s : Fin 256) : (t.grown s).Marked := by
  refine h.setMap s ?_
  intro m hm
  obtain rfl := Option.some.inj hm
  exact ⟨fun _ => rfl, fun _ => rfl⟩

/-- **Where entry 0 cannot be assigned a call keeps the marks.** -/
theorem Marked.step (h : t.Marked) (c : TableCall) : (t.step false c).Marked := by
  rw [KeyTables.step, call.eq_def]
  cases c with
  | kdskbdiacr ct perm copied accents =>
    dsimp only
    rw [kdskbdiacr.eq_def]
    split
    · exact h
    · cases ct with
      | none => exact h
      | some ct =>
        dsimp only
        split
        · exact h
        · split <;> exact h
  | kdskbent entry perm unicode mem capResource capAdmin =>
    rcases kdskbent_cases (t := t) false entry perm unicode mem capResource capAdmin with
      hsame | ⟨e, -, -, ⟨-, -, hcall⟩ | ⟨hindex, hcall⟩⟩
    · dsimp only
      rw [hsame]
      exact h
    · dsimp only
      rw [hcall, disallocate]
      cases t.keyMaps e.table with
      | none => exact h
      | some m =>
        have hremoved : (t.setMap e.table none).Marked := h.setMap _ fun _ hm => by cases hm
        dsimp only
        split
        · exact h
        · split
          · exact hremoved
          · exact hremoved
    · have hi : e.index ≠ 0 := hindex.resolve_right Bool.false_ne_true
      dsimp only
      rw [hcall]
      rcases assign_cases (t := t) e.table e.index e.value mem capResource capAdmin with
        hsame | ⟨m, hm, hstore⟩ | ⟨-, -, -, hstore⟩
      · rw [hsame]
        exact h
      · rw [hstore]
        exact h.storeEntry hi (h e.table m hm) e.value capAdmin
      · rw [hstore]
        exact (h.grown e.table).storeEntry hi
          (h.grown e.table e.table newMap (grown_slot t e.table)) e.value capAdmin

/-- **Where entry 0 cannot be assigned the marks and the counter stay right** along every run. -/
theorem marked_run (h : t.Counted) (hmark : t.Marked) (cs : List TableCall) :
    (run (KeyTables.step false) t cs).Counted ∧ (run (KeyTables.step false) t cs).Marked := by
  refine run_invariant (I := fun t : KeyTables => t.Counted ∧ t.Marked) (fun t c h => ?_) ⟨h, hmark⟩ cs
  refine ⟨(step_counted_iff h.1 false c).mpr ?_, h.2.step c⟩
  rw [MarkTrue.eq_def]
  cases c with
  | kdskbent entry perm unicode mem capResource capAdmin =>
    exact fun e m _ _ _ _ _ hm => h.2 e.table m hm
  | kdskbdiacr ct perm copied accents => trivial

end KeyTables

open KeyTables

/-- **The calls on the keyboard tables.**  In every state a call that returns an error changes
nothing if and only if it makes no map in vain and does not fail at copying accents that are more,
fewer or others than there are.  And from every state in which the counter is right it is right all
along a run if and only if the mark of every map that the run removes tells the truth. -/
theorem keyboard_tables_iff (zero : Bool) :
    (∀ (t : KeyTables) (c : TableCall), t.Atomic zero c ↔ t.FailsClean zero c) ∧
      ∀ t : KeyTables, t.Counted → ∀ cs : List TableCall,
        Along (step zero) (fun t c => (t.step zero c).Counted) t cs ↔
          Along (step zero) (fun t c => t.MarkTrue c) t cs :=
  ⟨fun _ c => tableCall_atomic_iff zero c, fun t h _ =>
    along_congr (I := fun t => t.Counted) (s := t) (fun _ _ _ hc => hc)
      (fun _ c h => step_counted_iff h zero c) h⟩

/-- Tables with the plain map and no accents. -/
def plainTables : KeyTables where
  keyMaps s := if s = 0 then some ⟨false, fun _ => keyU kHole⟩ else none
  keymapCount := 0
  accentTable _ := (0, 0, 0)
  accentTableSize := 0

theorem plainTables_counted : plainTables.Counted := by
  rw [Counted]
  decide +kernel

/-- A map is made and removed. -/
theorem keyboard_tables_plain :
    let cs : List TableCall :=
      [.kdskbent (some ⟨1, 30, 0x61⟩) true false true false false,
        .kdskbent (some ⟨1, 0, kNosuchmap⟩) true false true false false]
    Along (step false) (fun t c => (t.step false c).Counted) plainTables cs ↔
      Along (step false) (fun t c => t.MarkTrue c) plainTables cs :=
  (keyboard_tables_iff false).2 plainTables plainTables_counted
    [.kdskbent (some ⟨1, 30, 0x61⟩) true false true false false,
      .kdskbent (some ⟨1, 0, kNosuchmap⟩) true false true false false]

/-- **Errors that leave something behind.**  A caller without `CAP_SYS_ADMIN` binds `K_SAK` in a map
that does not exist: `-EPERM`, and the map is there and counted.  Three accents that cannot be
copied: `-EFAULT`, and the table has three accents. -/
theorem keyboard_tables_torn :
    let sak : TableCall := .kdskbent (some ⟨1, 30, kSak⟩) true false true false false
    let accents : TableCall := .kdskbdiacr (some 3) true false fun _ => (0, 0, 0)
    (plainTables.call false sak).1 = .eperm ∧
      ((plainTables.step false sak).keyMaps 1).isSome = true ∧
      (plainTables.step false sak).keymapCount = 1 ∧ ¬ plainTables.Atomic false sak ∧
      (plainTables.call false accents).1 = .efault ∧
      (plainTables.step false accents).accentTableSize = 3 ∧
      ¬ plainTables.Atomic false accents := by
  have hrun :
      let sak : TableCall := .kdskbent (some ⟨1, 30, kSak⟩) true false true false false
      let accents : TableCall := .kdskbdiacr (some 3) true false fun _ => (0, 0, 0)
      (plainTables.call false sak).1 = .eperm ∧
        ((plainTables.step false sak).keyMaps 1).isSome = true ∧
        (plainTables.step false sak).keymapCount = 1 ∧
        (plainTables.call false accents).1 = .efault ∧
        (plainTables.step false accents).accentTableSize = 3 := by
    decide +kernel
  obtain ⟨hperm, hmap, hcount, hfault, hsize⟩ := hrun
  refine ⟨hperm, hmap, hcount, fun hatomic => ?_, hfault, hsize, fun hatomic => ?_⟩
  · have hsame := (hatomic (by rw [hperm]; exact eperm_ne_ok)).count
    rw [hcount] at hsame
    exact absurd hsame (by decide)
  · have hsame := (hatomic (by rw [hfault]; exact efault_ne_ok)).size
    rw [hsize] at hsame
    exact absurd hsame (by decide)

end LinuxConsole.Input

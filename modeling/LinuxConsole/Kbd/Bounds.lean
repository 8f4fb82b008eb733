import LinuxConsole.Kbd.Shift

/-!
# Where the key maps are read

`kbd_keycode` reads a map at the code of the key, and `compute_shiftstate` reads the
plain map at every key that is down; `Machine.reads` lists the indices of one step.
A map has `NR_KEYS` entries, and the codes of events go beyond: they are set in
`key_down` first, the lookup gives up at `keycode > NR_KEYS`, and `compute_shiftstate`
never does.  `Machine.op_agree` says that the list is complete: with other maps that
agree with these at its indices the step does the same.

**`reads_inBounds_iff`** says when all reads of a run are in bounds: `NR_KEYS` itself is
never looked up, and no key from `NR_KEYS` on is down when `compute_shiftstate` runs.
`clear_of_codes` is the invariant of the bitmap for keyboards with codes below
`NR_KEYS` only.
-/

namespace LinuxConsole.Input

open Switch (Pools)
open Lib (Along)

/-- Where `compute_shiftstate` reads `key_maps[0]`. -/
def heldKeys (keyDown : Nat → Bool) : List Nat := (List.range keyBits).filter keyDown

theorem mem_heldKeys {keyDown : Nat → Bool} {i : Nat} :
    i ∈ heldKeys keyDown ↔ i < keyBits ∧ keyDown i = true := by
  rw [heldKeys, List.mem_filter, List.mem_range]

namespace Xlate

variable (e : Env) (keyDown : Nat → Bool) (x : Xlate)

/-- Where the handler has the maps read: `k_spec` calls `fn_null`. -/
def handlerReads (type value down : Nat) : List Nat :=
  if x.callsNull type value down then heldKeys keyDown else []

/-- Where `kbd_keycode` reads the maps from the lookup on. -/
def lookupReads (keycode down : Nat) : List Nat :=
  match keyMap e x.shiftFinal with
  | none => heldKeys keyDown
  | some m =>
    if keycode > e.nrKeys then []
    else
      let keysym := m keycode
      let type := keysym >>> 8 - 0xf0
      keycode ::
        if keysym >>> 8 < 0xf0 then []
        else if x.rawMode ∧ type ≠ ktSpec ∧ type ≠ ktShift then []
        else
          let tv := x.typeAndValue e keysym keycode
          -- CapsLock reads the key in a second map.
          (if type = ktLetter ∧ x.con.getKbdLed vcCapslock = true ∧
              (keyMap e (x.shiftFinal ^^^ 1 <<< kgShift)).isSome then [keycode] else []) ++
            x.handlerReads keyDown tv.1 tv.2 down

/-- Where `kbd_keycode` reads the maps. -/
def keyReads (keycode down : Nat) : List Nat :=
  if x.takenBySysrq e keycode down then []
  else if down = 2 ∧ !x.con.getKbdMode vcRepeat then []
  else x.lookupReads e (setKey keyDown keycode down) keycode down

/-- The key is looked up in a map. -/
def looksUp : Fate → Bool
  | .char | .filtered | .handled _ _ => true
  | _ => false

theorem lookupFate_looksUp {keycode : Nat} (h : looksUp (x.lookupFate e keycode) = true) :
    keycode ≤ e.nrKeys := by
  rw [lookupFate] at h
  split at h
  · exact absurd h Bool.false_ne_true
  · split_ifs at h with hbig
    · exact absurd h Bool.false_ne_true
    all_goals omega

theorem mem_lookupReads (keycode down i : Nat) :
    i ∈ x.lookupReads e keyDown keycode down ↔
      (looksUp (x.lookupFate e keycode) = true ∧ i = keycode) ∨
        (x.recomputes down (x.lookupFate e keycode) = true ∧ i ∈ heldKeys keyDown) := by
  rw [lookupReads, lookupFate]
  cases hmap : keyMap e x.shiftFinal with
  | none => exact ⟨fun h => .inr ⟨rfl, h⟩, fun h =>
    h.elim (fun h => absurd h.1 Bool.false_ne_true) fun h => h.2⟩
  | some m =>
    dsimp only
    split_ifs with hbig hsym hraw hcaps
    · simp [looksUp, recomputes]
    · simp [looksUp, recomputes]
    · simp [looksUp, recomputes]
    · rw [handlerReads]
      split_ifs with hnull <;> simp [looksUp, recomputes, hnull]
    · rw [handlerReads]
      split_ifs with hnull <;> simp [looksUp, recomputes, hnull]

theorem mem_keyReads (keycode down i : Nat) :
    i ∈ x.keyReads e keyDown keycode down ↔
      (looksUp (x.fate e keycode down) = true ∧ i = keycode) ∨
        (x.recomputes down (x.fate e keycode down) = true ∧
          i ∈ heldKeys (setKey keyDown keycode down)) := by
  rw [keyReads, fate]
  split_ifs
  · simp [looksUp, recomputes]
  · simp [looksUp, recomputes]
  · exact x.mem_lookupReads e _ keycode down i

end Xlate

variable {N : Nat}

/-- **Where one step reads the maps.** -/
def Machine.reads (e : Env) (m : Machine N) : ModeOp N → List Nat
  | .event _ (.raw _) => []
  | .event v (.key keycode value) => (m.xlate v).keyReads e m.keyDown keycode value
  | .event v (.work goes) =>
    if goes ∧ (m.seat v).wantVc ≠ (m.seat v).fgConsole then heldKeys m.keyDown else []
  | .kdskbmode _ _ mode => if mode = .xlate ∨ mode = .unicode then heldKeys m.keyDown else []
  | .setKbd _ _ _ => []
  | .activate _ _ => []
  | .reldisp _ _ => heldKeys m.keyDown

/-! ### Nothing else is read -/

/-- Other maps in place of those there are. -/
def Env.withMaps (e : Env) (plain : Nat → Nat) (maps : Nat → Option (Nat → Nat)) : Env :=
  { e with plainMap := plain, keyMaps := maps }

/-- The other maps are there where the maps are, and agree with them at the indices
of `I`. -/
structure AgreeAt (e : Env) (plain : Nat → Nat) (maps : Nat → Option (Nat → Nat))
    (I : Nat → Prop) : Prop where
  plain : ∀ i, I i → plain i = e.plainMap i
  maps : ∀ j, Option.Rel (fun m m' => ∀ i, I i → m' i = m i) (e.keyMaps j) (maps j)

section

variable {e : Env} {plain : Nat → Nat} {maps : Nat → Option (Nat → Nat)} {I : Nat → Prop}
variable {keyDown : Nat → Bool}

theorem AgreeAt.keyMap (h : AgreeAt e plain maps I) (j : Nat) :
    Option.Rel (fun m m' => ∀ i, I i → m' i = m i) (Xlate.keyMap e j)
      (Xlate.keyMap (e.withMaps plain maps) j) := by
  rw [Xlate.keyMap, Xlate.keyMap]
  split_ifs
  · exact .some h.plain
  · exact h.maps j

theorem AgreeAt.keyMap_isNone (h : AgreeAt e plain maps I) (j : Nat) :
    (Xlate.keyMap (e.withMaps plain maps) j).isNone = (Xlate.keyMap e j).isNone := by
  have hrel := h.keyMap j
  generalize Xlate.keyMap e j = a at hrel ⊢
  generalize Xlate.keyMap (e.withMaps plain maps) j = b at hrel ⊢
  cases hrel <;> rfl

/-- **`compute_shiftstate` reads the plain map at the keys that are down only.** -/
theorem shiftstateOf_agree (h : ∀ i ∈ heldKeys keyDown, plain i = e.plainMap i) :
    shiftstateOf plain keyDown = shiftstateOf e.plainMap keyDown := by
  have hcount : heldCount plain keyDown = heldCount e.plainMap keyDown := by
    funext w
    rw [heldCount, heldCount, heldBelow, heldBelow]
    refine congrArg Finset.card (Finset.filter_congr fun k hk => ?_)
    rw [Finset.mem_range] at hk
    cases hdown : keyDown k with
    | false =>
      rw [holds, holds, hdown, Bool.false_and, Bool.false_and]
      exact iff_of_false (fun h => Bool.false_ne_true h.1) fun h => Bool.false_ne_true h.1
    | true =>
      have hsym := h k (mem_heldKeys.mpr ⟨hk, hdown⟩)
      rw [holds, holds, isShiftKey, isShiftKey, shiftOf, shiftOf, hsym]
  have hread := shiftstateOf_reads plain keyDown
  rw [hcount] at hread
  exact hread.unique (shiftstateOf_reads e.plainMap keyDown)

theorem computeShiftstate_agree (h : AgreeAt e plain maps I) (m : Mods)
    (hreads : ∀ i ∈ heldKeys keyDown, I i) :
    m.computeShiftstate (e.withMaps plain maps).plainMap keyDown =
      m.computeShiftstate e.plainMap keyDown := by
  rw [Mods.computeShiftstate, Mods.computeShiftstate, Env.withMaps,
    shiftstateOf_agree fun i hi => h.plain i (hreads i hi)]

namespace Xlate

variable (x : Xlate)

theorem kHandler_agree (h : AgreeAt e plain maps I) (type value down : Nat)
    (hreads : ∀ i ∈ x.handlerReads keyDown type value down, I i) :
    x.kHandler (e.withMaps plain maps) keyDown type value (!decide (down ≠ 0)) =
      x.kHandler e keyDown type value (!decide (down ≠ 0)) := by
  rw [kHandler.eq_def, kHandler.eq_def]
  split
  · rfl
  · rfl
  · rw [kSpec, kSpec]
    by_cases hup : (!decide (down ≠ 0)) = true
    · rw [if_pos hup, if_pos hup]
    rw [if_neg hup, if_neg hup]
    by_cases hbig : value ≥ 20
    · rw [if_pos hbig, if_pos hbig]
    rw [if_neg hbig, if_neg hbig]
    by_cases hraw : x.rawMode = true ∧ value ≠ 15
    · rw [if_pos hraw, if_pos hraw]
    rw [if_neg hraw, if_neg hraw]
    by_cases hnull : value = 0
    · have hcalls : x.callsNull ktSpec value down = true := by
        have hcooked : x.rawMode = false := by
          by_contra hc
          exact hraw ⟨by simpa using hc, by omega⟩
        rw [callsNull, hcooked]
        simpa [hnull] using hup
      rw [handlerReads, show x.callsNull 2 value down = true from hcalls, if_pos rfl] at hreads
      rw [hnull, fnHandler, fnHandler, fnNull, fnNull, computeShiftstate_agree h x.mods hreads]
    · rw [fnHandler.eq_def, fnHandler.eq_def]
      split <;> first | exact absurd rfl hnull | rfl
  · rfl
  · rfl
  · rfl
  · rfl
  · rfl
  · rfl
  · rfl
  · rfl
  · rw [kSlock, kSlock]
    simp only [h.keyMap_isNone]
  · rfl
  · rfl

theorem typeAndValue_agree (h : AgreeAt e plain maps I) (keysym : Nat) {keycode : Nat}
    (hk : I keycode) :
    x.typeAndValue (e.withMaps plain maps) keysym keycode = x.typeAndValue e keysym keycode := by
  have hrel := h.keyMap (x.shiftFinal ^^^ 1 <<< kgShift)
  rw [typeAndValue, typeAndValue]
  generalize keyMap e (x.shiftFinal ^^^ 1 <<< kgShift) = a at hrel ⊢
  generalize keyMap (e.withMaps plain maps) (x.shiftFinal ^^^ 1 <<< kgShift) = b at hrel ⊢
  cases hrel with
  | none => rfl
  | some hm =>
    dsimp only
    rw [hm keycode hk]

theorem lookupKey_agree (h : AgreeAt e plain maps I) (keycode down : Nat)
    (hreads : ∀ i ∈ x.lookupReads e keyDown keycode down, I i) :
    x.lookupKey (e.withMaps plain maps) keyDown keycode (decide (down ≠ 0)) x.rawMode =
      x.lookupKey e keyDown keycode (decide (down ≠ 0)) x.rawMode := by
  have hrel := h.keyMap x.shiftFinal
  rw [lookupReads] at hreads
  rw [lookupKey, lookupKey]
  generalize keyMap e x.shiftFinal = a at hrel hreads ⊢
  generalize keyMap (e.withMaps plain maps) x.shiftFinal = b at hrel ⊢
  cases hrel with
  | none =>
    dsimp only at hreads ⊢
    rw [computeShiftstate_agree h x.mods hreads]
  | @some m m' hm =>
    dsimp only at hreads ⊢
    rw [show (e.withMaps plain maps).nrKeys = e.nrKeys from rfl]
    by_cases hbig : keycode > e.nrKeys
    · rw [if_pos hbig, if_pos hbig]
    rw [if_neg hbig] at hreads
    have hk : I keycode := hreads keycode List.mem_cons_self
    rw [if_neg hbig, if_neg hbig, hm keycode hk, x.typeAndValue_agree h _ hk]
    by_cases hsym : m keycode >>> 8 < 0xf0
    · rw [if_pos hsym, if_pos hsym]
    rw [if_neg hsym, if_neg hsym]
    by_cases hraw : x.rawMode = true ∧ m keycode >>> 8 - 0xf0 ≠ ktSpec ∧
        m keycode >>> 8 - 0xf0 ≠ ktShift
    · rw [if_pos hraw, if_pos hraw]
    rw [if_neg hsym, if_neg hraw] at hreads
    rw [if_neg hraw, if_neg hraw, handleKey, handleKey, x.kHandler_agree h _ _ down fun i hi =>
      hreads i (List.mem_cons_of_mem _ (List.mem_append_right _ hi))]

theorem lookupReads_congr {x y : Xlate} (h : SameKbd x y) (keycode down : Nat) :
    y.lookupReads e keyDown keycode down = x.lookupReads e keyDown keycode down := by
  rw [lookupReads, lookupReads, h.shiftFinal, h.rawMode, h.getKbdLed]
  simp only [h.typeAndValue e, handlerReads, callsNull, h.rawMode]
  rfl

theorem translateKey_agree (h : AgreeAt e plain maps I) (keycode down : Nat)
    (hrep : x.mods.rep = decide (down = 2))
    (hreads : ¬ (down = 2 ∧ !x.con.getKbdMode vcRepeat) →
      ∀ i ∈ x.lookupReads e (setKey keyDown keycode down) keycode down, I i) :
    x.translateKey (e.withMaps plain maps) keyDown keycode down =
      x.translateKey e keyDown keycode down := by
  obtain ⟨y, hy⟩ : ∃ y, y = if x.con.kbd.kbdmode = .mediumraw
      then x.onCon (·.putMediumraw keycode (upFlag down)) else x := ⟨_, rfl⟩
  obtain ⟨hsame, hmods⟩ : SameKbd x y ∧ y.mods = x.mods := hy ▸ x.sameKbd_mediumraw keycode down
  rw [translateKey, translateKey, ← hy, hmods, hrep, hsame.getKbdMode, ← hsame.rawMode]
  by_cases hdrop : down = 2 ∧ !x.con.getKbdMode vcRepeat
  · rw [if_pos (by simpa using hdrop), if_pos (by simpa using hdrop)]
  · rw [if_neg (by simpa using hdrop), if_neg (by simpa using hdrop)]
    have hlook := hreads hdrop
    rw [← lookupReads_congr hsame] at hlook
    rw [y.lookupKey_agree h keycode down hlook]

/-- **A key event reads the maps at the indices listed and nowhere else.** -/
theorem kbdKeycode_agree (h : AgreeAt e plain maps I) (keycode down : Nat) (hwRaw : Bool)
    (hreads : ∀ i ∈ x.keyReads e keyDown keycode down, I i) :
    x.kbdKeycode (e.withMaps plain maps) keyDown keycode down hwRaw =
      x.kbdKeycode e keyDown keycode down hwRaw := by
  obtain ⟨x₁, hx₁⟩ : ∃ y, y = (x.noteRepeat keycode down).putRaw keycode down hwRaw := ⟨_, rfl⟩
  have hsame : SameKbd x x₁ := hx₁ ▸ SameKbd.putRaw x keycode down hwRaw
  have hflags : x₁.mods = (x.noteRepeat keycode down).mods :=
    hx₁ ▸ x.putRaw_flags keycode down hwRaw
  have hrep : x₁.mods.rep = decide (down = 2) := by rw [hflags, noteRepeat]
  rw [kbdKeycode, kbdKeycode, ← hx₁]
  dsimp only
  rw [show (e.withMaps plain maps).magicSysrq = e.magicSysrq from rfl,
    show (e.withMaps plain maps).handleSysrq = e.handleSysrq from rfl]
  by_cases hpress : e.magicSysrq ∧ keycode = keySysrq ∧
      (x₁.mods.sysrqDown ∨ (down = 1 ∧ x₁.mods.sysrqAlt))
  · rw [if_pos hpress, if_pos hpress]
  by_cases hhandled : e.magicSysrq ∧ x₁.mods.sysrqDown ∧ down ≠ 0 ∧ !x₁.mods.rep
  · rw [if_neg hpress, if_neg hpress, if_pos hhandled, if_pos hhandled]
  rw [if_neg hpress, if_neg hpress, if_neg hhandled, if_neg hhandled]
  refine x₁.translateKey_agree h keycode down hrep fun hdrop => ?_
  rw [keyReads, x.not_takenBySysrq e hflags hpress hhandled, if_neg Bool.false_ne_true,
    if_neg (by rwa [← hsame.getKbdMode])] at hreads
  rw [lookupReads_congr hsame]
  exact hreads

end Xlate

theorem Machine.recompute_agree {N : Nat} (h : AgreeAt e plain maps I) (m : Machine N)
    (hreads : ∀ i ∈ heldKeys m.keyDown, I i) :
    m.recompute (e.withMaps plain maps) = m.recompute e := by
  rw [recompute, recompute, computeShiftstate_agree h m.mods hreads]

/-- **One step reads the maps at `reads` and nowhere else**: with other maps that agree
there it does the same. -/
theorem Machine.op_agree {N : Nat} (P : Pools N) {m : Machine N} {o : ModeOp N}
    (h : AgreeAt e plain maps fun i => i ∈ m.reads e o) :
    m.op P (e.withMaps plain maps) o = m.op P e o := by
  cases o with
  | event v ev =>
    cases ev with
    | raw data => rfl
    | key keycode value =>
      rw [op, op, step, step]
      dsimp only
      rw [key, key, (m.xlate v).kbdKeycode_agree h keycode value (m.seat v).hwRaw fun _ hi => hi]
    | work goes =>
      rw [op, op, step, step]
      dsimp only
      rw [reads] at h
      rw [work, work]
      by_cases hgoes : goes = true ∧ (m.seat v).wantVc ≠ (m.seat v).fgConsole
      · rw [if_pos hgoes] at h
        rw [if_pos hgoes, if_pos hgoes, computeShiftstate_agree h m.mods fun _ hi => hi]
      · rw [if_neg hgoes, if_neg hgoes]
  | kdskbmode v i mode =>
    rw [op, op, kdskbmode, kdskbmode]
    rw [reads] at h
    by_cases hmode : mode = .xlate ∨ mode = .unicode
    · rw [if_pos hmode] at h
      rw [if_pos hmode, if_pos hmode]
      exact recompute_agree h _ fun _ hi => hi
    · rw [if_neg hmode, if_neg hmode]
  | setKbd v i kbd => rfl
  | activate v i => rfl
  | reldisp v i =>
    rw [op, op, completeChange, completeChange]
    exact recompute_agree h _ fun _ hi => hi

end

/-- Every index of the step is below `NR_KEYS`. -/
def ReadsInBounds (e : Env) (m : Machine N) (o : ModeOp N) : Prop :=
  ∀ i ∈ m.reads e o, i < e.nrKeys

/-- No key from `NR_KEYS` on is down. -/
def NoneAbove (e : Env) (keyDown : Nat → Bool) : Prop :=
  ∀ k, e.nrKeys ≤ k → k < keyBits → keyDown k = false

/-- **`NR_KEYS` is not looked up, and no key from `NR_KEYS` on is down when
`compute_shiftstate` runs.** -/
def ClearStep (e : Env) (m : Machine N) : ModeOp N → Prop
  | .event _ (.raw _) => True
  | .event v (.key keycode value) =>
    let f := (m.xlate v).fate e keycode value
    (Xlate.looksUp f = true → keycode ≠ e.nrKeys) ∧
      ((m.xlate v).recomputes value f = true →
        NoneAbove e (Xlate.setKey m.keyDown keycode value))
  | .event v (.work goes) =>
    goes = true → (m.seat v).wantVc ≠ (m.seat v).fgConsole → NoneAbove e m.keyDown
  | .kdskbmode _ _ mode => mode = .xlate ∨ mode = .unicode → NoneAbove e m.keyDown
  | .setKbd _ _ _ => True
  | .activate _ _ => True
  | .reldisp _ _ => NoneAbove e m.keyDown

theorem noneAbove_iff (e : Env) (keyDown : Nat → Bool) :
    NoneAbove e keyDown ↔ ∀ i ∈ heldKeys keyDown, i < e.nrKeys := by
  constructor
  · intro h i hi
    rw [mem_heldKeys] at hi
    by_contra hbig
    rw [h i (by omega) hi.1] at hi
    exact Bool.false_ne_true hi.2
  · intro h k hbig hk
    by_contra hdown
    have hlt := h k (mem_heldKeys.mpr ⟨hk, by simpa using hdown⟩)
    omega

theorem fate_looksUp {e : Env} {x : Xlate} {keycode down : Nat}
    (h : Xlate.looksUp (x.fate e keycode down) = true) : keycode ≤ e.nrKeys := by
  rw [Xlate.fate] at h
  split_ifs at h
  · exact absurd h Bool.false_ne_true
  · exact absurd h Bool.false_ne_true
  · exact x.lookupFate_looksUp e h

/-- **One step.** -/
theorem readsInBounds_iff (e : Env) (m : Machine N) (o : ModeOp N) :
    ReadsInBounds e m o ↔ ClearStep e m o := by
  cases o with
  | event v ev =>
    cases ev with
    | raw data => exact ⟨fun _ => trivial, fun _ _ h => absurd h List.not_mem_nil⟩
    | key keycode value =>
      rw [ReadsInBounds, Machine.reads, ClearStep, noneAbove_iff]
      simp only [Xlate.mem_keyReads]
      constructor
      · intro h
        refine ⟨fun hlook => ?_, fun hrec i hi => h i (.inr ⟨hrec, hi⟩)⟩
        exact (h keycode (.inl ⟨hlook, rfl⟩)).ne
      · rintro ⟨hlook, hrec⟩ i (⟨hup, rfl⟩ | ⟨hcalls, hi⟩)
        · have hle := fate_looksUp hup
          have hne := hlook hup
          omega
        · exact hrec hcalls i hi
    | work goes =>
      rw [ReadsInBounds, Machine.reads, ClearStep, noneAbove_iff]
      split_ifs with hgoes
      · exact ⟨fun h _ _ => h, fun h => h hgoes.1 hgoes.2⟩
      · exact ⟨fun _ h1 h2 => absurd ⟨h1, h2⟩ hgoes, fun _ _ h => absurd h List.not_mem_nil⟩
  | kdskbmode v i mode =>
    rw [ReadsInBounds, Machine.reads, ClearStep, noneAbove_iff]
    split_ifs with hmode
    · exact ⟨fun h _ => h, fun h => h hmode⟩
    · exact ⟨fun _ h => absurd h hmode, fun _ _ h => absurd h List.not_mem_nil⟩
  | setKbd v i kbd => exact ⟨fun _ => trivial, fun _ _ h => absurd h List.not_mem_nil⟩
  | activate v i => exact ⟨fun _ => trivial, fun _ _ h => absurd h List.not_mem_nil⟩
  | reldisp v i =>
    rw [ReadsInBounds, Machine.reads, ClearStep, noneAbove_iff]

/-- **All reads of a run are in bounds exactly if every step of it is clear.** -/
theorem reads_inBounds_iff (P : Pools N) (e : Env) (m : Machine N) (ops : List (ModeOp N)) :
    Along (Machine.op P e) (ReadsInBounds e) m ops ↔ Along (Machine.op P e) (ClearStep e) m ops :=
  Lib.along_congr (I := fun _ => True) (fun _ _ _ _ => trivial)
    (fun m o _ => readsInBounds_iff e m o) trivial

/-! ### Keyboards with codes below `NR_KEYS` -/

/-- The code of an event is the index of an entry. -/
def CodeBelow (e : Env) : ModeOp N → Prop
  | .event _ (.key keycode _) => keycode < e.nrKeys
  | _ => True

theorem noneAbove_setKey {e : Env} {keyDown : Nat → Bool} (h : NoneAbove e keyDown) {keycode : Nat}
    (hk : keycode < e.nrKeys) (down : Nat) : NoneAbove e (Xlate.setKey keyDown keycode down) := by
  intro k hbig hbits
  rw [Xlate.setKey, Function.update_of_ne (by omega)]
  exact h k hbig hbits

theorem noneAbove_op (P : Pools N) (e : Env) {m : Machine N} (h : NoneAbove e m.keyDown)
    {o : ModeOp N} (ho : CodeBelow e o) : NoneAbove e (m.op P e o).keyDown := by
  cases o with
  | event v ev =>
    cases ev with
    | raw data =>
      rw [Machine.op, Machine.step]
      dsimp only
      split_ifs
      · exact h
      · exact h
    | key keycode value =>
      rw [show (m.op P e (.event v (.key keycode value))).keyDown = _ from
        (m.key_fate P e v keycode value).1]
      split_ifs
      · exact h
      · exact noneAbove_setKey h ho value
    | work goes =>
      rw [show (m.op P e (.event v (.work goes))).keyDown = _ from (m.work_globals e v goes).1]
      exact h
  | kdskbmode v i mode =>
    rw [Machine.op, (m.kdskbmode_globals e v i mode).1]
    exact h
  | setKbd v i kbd => exact h
  | activate v i => exact h
  | reldisp v i =>
    rw [Machine.op, (m.completeChange_globals e v i).1]
    exact h

theorem clearStep_of_code (e : Env) {m : Machine N} (h : NoneAbove e m.keyDown) {o : ModeOp N}
    (ho : CodeBelow e o) : ClearStep e m o := by
  cases o with
  | event v ev =>
    cases ev with
    | raw data => trivial
    | key keycode value =>
      exact ⟨fun _ => Nat.ne_of_lt ho, fun _ => noneAbove_setKey h ho value⟩
    | work goes => exact fun _ _ => h
  | kdskbmode v i mode => exact fun _ => h
  | setKbd v i kbd => trivial
  | activate v i => trivial
  | reldisp v i => exact h

/-- **Codes below `NR_KEYS` keep all reads in bounds**, from any state in which no key
from `NR_KEYS` on is down. -/
theorem clear_of_codes (P : Pools N) (e : Env) {m : Machine N} (h : NoneAbove e m.keyDown)
    {ops : List (ModeOp N)} (hops : ∀ o ∈ ops, CodeBelow e o) :
    Along (Machine.op P e) (ClearStep e) m ops := by
  have htrue : Along (Machine.op P e) (fun _ _ => True) m ops := Lib.along_true ops
  exact Along.imp (I := fun m => NoneAbove e m.keyDown) (fun m o hm ho => noneAbove_op P e hm ho.1)
    (fun m o hm ho => clearStep_of_code e hm ho.1) h ((Lib.along_and_mem hops).mpr htrue)

/-- The key of code `NR_KEYS`. -/
def nrKeysPressed (v : Fin N) : List (ModeOp N) := [.event v (.key 255 1)]

/-- A key above `NR_KEYS` pressed, and the mode set. -/
def aboveAndMode (v : Fin N) : List (ModeOp N) := [.event v (.key 352 1), .kdskbmode v 0 .xlate]

/-- **The code `NR_KEYS` is read behind the map, and a key above it, once down, by the
next change of mode.** -/
theorem reads_outOfBounds :
    letterKeys.nrKeys = 255 ∧
      ¬ Along (Machine.op twoPools letterKeys) (ReadsInBounds letterKeys) twoSeats
          (nrKeysPressed 0) ∧
        ¬ Along (Machine.op twoPools letterKeys) (ReadsInBounds letterKeys) twoSeats
          (aboveAndMode 0) := by
  refine ⟨rfl, fun h => ?_, fun h => ?_⟩
  · exact absurd (h.1 255 (by decide +kernel)) (by decide)
  · exact absurd (h.2.1 352 (by decide +kernel)) (by decide)

end LinuxConsole.Input

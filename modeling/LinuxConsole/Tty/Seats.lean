import Mathlib.Data.Finset.Card
import Mathlib.Data.Finset.Filter
import Mathlib.Data.Finset.Range
import LinuxConsole.Tty.Struct

/-!
# The memory of the terminals

`Seats`: every `tty_struct` has its place in the table of its driver, but for those that are being
made, and `refcount` is the number of places taken.  `Blocks`: every `termios` block is in a table,
but for those that are being made, and a struct points to those of its own line.  With them `install`
and `releaseSide` do not fault, and they keep both (`install_run`, `releaseSide_run`).
-/

namespace LinuxConsole.Tty

/-! ### Running code -/

theorem load_run {k : Kernel} {t : Nat} {tty : TtyStruct} (h : k.tty t = some tty) :
    (load t).run k = some (tty, k) := by
  change (k.tty t).map _ = _
  rw [h]
  rfl

theorem deref_run {k : Kernel} {p : Option Nat} {t : Nat} (h : p = some t) :
    (deref p).run k = some (t, k) := by
  subst h
  rfl

theorem store_run {k : Kernel} {t : Nat} {tty : TtyStruct} (h : k.tty t = some tty)
    (f : TtyStruct → TtyStruct) : (store t f).run k = some (⟨⟩, k.put t (some (f tty))) := by
  change (k.tty t).map _ = _
  rw [h]
  rfl

theorem freeTtyStruct_run {k : Kernel} {t : Nat} {tty : TtyStruct} (h : k.tty t = some tty) :
    (freeTtyStruct t).run k = some (⟨⟩, k.put t none) := by
  change (k.tty t).map _ = _
  rw [h]
  rfl

theorem kfree_run {k : Kernel} {b : Nat} (h : k.blocks b = true) :
    (kfree (some b)).run k =
      some (⟨⟩, { k with blocks := Function.update k.blocks b false }) := if_pos h

theorem modify_run (k : Kernel) (f : Kernel → Kernel) :
    (modify f : K PUnit).run k = some (⟨⟩, f k) := rfl

theorem get_run (k : Kernel) : (get : K Kernel).run k = some (k, k) := rfl

theorem bind_run {α β : Type} {m : K α} {f : α → K β} {k k' : Kernel} {a : α}
    (h : m.run k = some (a, k')) : (m >>= f).run k = (f a).run k' := by
  rw [StateT.run_bind, h]
  rfl

@[simp] theorem put_tty_self (k : Kernel) (t : Nat) (tty : Option TtyStruct) :
    (k.put t tty).tty t = tty := Function.update_self ..

theorem put_tty_of_ne {t x : Nat} (hx : x ≠ t) (k : Kernel) (tty : Option TtyStruct) :
    (k.put t tty).tty x = k.tty x := Function.update_of_ne hx ..

theorem put_tty_apply (k : Kernel) (t x : Nat) (tty : Option TtyStruct) :
    (k.put t tty).tty x = if x = t then tty else k.tty x := Function.update_apply ..

@[simp] theorem setFile_tty (k : Kernel) (filp : Nat) (t : Option Nat) :
    (k.setFile filp t).tty = k.tty := rfl

@[simp] theorem setReleasing_tty (k : Kernel) (releasing : List Nat) :
    (k.setReleasing releasing).tty = k.tty := rfl

/-! ### Places -/

/-- How many lines of a driver are taken. -/
def occupied (ttys : Nat × Nat → Option Nat) (d num : Nat) : Nat :=
  ((Finset.range num).filter fun i => (ttys (d, i)).isSome).card

theorem occupied_congr {ttys ttys' : Nat × Nat → Option Nat} {d num : Nat}
    (h : ∀ i, ttys (d, i) = ttys' (d, i)) : occupied ttys d num = occupied ttys' d num := by
  rw [occupied, occupied]
  simp only [h]

theorem occupied_take {ttys : Nat × Nat → Option Nat} {d i num t : Nat} (hi : i < num)
    (hnone : ttys (d, i) = none) :
    occupied (Function.update ttys (d, i) (some t)) d num = occupied ttys d num + 1 := by
  rw [occupied, occupied, ← Finset.card_insert_of_notMem (a := i)]
  · congr 1
    ext j
    rw [Finset.mem_insert, Finset.mem_filter, Finset.mem_filter, Finset.mem_range]
    by_cases hj : j = i
    · subst hj
      simp [hi]
    · rw [Function.update_of_ne (by simpa using hj)]
      simp [hj]
  · rw [Finset.mem_filter, hnone]
    simp

theorem occupied_leave {ttys : Nat × Nat → Option Nat} {d i num t : Nat} (hi : i < num)
    (hsome : ttys (d, i) = some t) :
    occupied (Function.update ttys (d, i) none) d num + 1 = occupied ttys d num := by
  have hback : Function.update (Function.update ttys (d, i) none) (d, i) (some t) = ttys := by
    rw [Function.update_idem, ← hsome, Function.update_eq_self]
  rw [← occupied_take (t := t) hi (Function.update_self ..), hback]

/-- **Every struct has its place**, but for those of the list. -/
structure Seats (S : Drivers) (k : Kernel) (spare : List Nat) : Prop where
  nodup : spare.Nodup
  unseated : ∀ {t}, t ∈ spare → (k.tty t).isSome ∧ ∀ slot, k.ttys slot ≠ some t
  seat : ∀ {slot t}, k.ttys slot = some t →
    ∃ tty, k.tty t = some tty ∧ (tty.driver, tty.index) = slot
  seated : ∀ {t tty}, k.tty t = some tty → t ∉ spare →
    k.ttys (tty.driver, tty.index) = some t
  inRange : ∀ {slot t}, k.ttys slot = some t → slot.1 < S.total ∧ slot.2 < (S.drv slot.1).num
  fresh : ∀ {t}, k.nextTty ≤ t → k.tty t = none
  refcount : ∀ d, k.refcount d = occupied k.ttys d (S.drv d).num

/-- **Every block has its place**, but for those of the list, and the structs that are not spare
point to the blocks of their line. -/
structure Blocks (k : Kernel) (spareTty spare : List Nat) : Prop where
  nodup : spare.Nodup
  blocks : ∀ b, k.blocks b = true ↔ (∃ slot, k.termios slot = some b) ∨ b ∈ spare
  unplaced : ∀ {b}, b ∈ spare → ∀ slot, k.termios slot ≠ some b
  inj : ∀ {slot slot' b}, k.termios slot = some b → k.termios slot' = some b → slot = slot'
  fresh : ∀ {b}, k.nextBlock ≤ b → k.blocks b = false
  termios : ∀ {t tty}, k.tty t = some tty → t ∉ spareTty → ∀ locked,
    (tty.termios locked).isSome ∧ tty.termios locked = k.termios (locked, tty.driver, tty.index)

variable {S : Drivers} {k : Kernel} {T B : List Nat}

/-- A struct is seated once. -/
theorem Seats.slot_inj (h : Seats S k T) {slot slot' : Nat × Nat} {t : Nat}
    (hs : k.ttys slot = some t) (hs' : k.ttys slot' = some t) : slot = slot' := by
  obtain ⟨tty, htty, rfl⟩ := h.seat hs
  obtain ⟨tty', htty', rfl⟩ := h.seat hs'
  rw [htty] at htty'
  cases htty'
  rfl

/-- A store that leaves the struct in its place. -/
theorem Seats.store {t : Nat} {tty tty' : TtyStruct} (h : Seats S k T) (htty : k.tty t = some tty)
    (hline : tty'.driver = tty.driver ∧ tty'.index = tty.index) :
    Seats S (k.put t (some tty')) T where
  nodup := h.nodup
  unseated := by
    intro x hx
    obtain ⟨hsome, hslots⟩ := h.unseated hx
    rw [put_tty_apply]
    split_ifs
    · exact ⟨rfl, hslots⟩
    · exact ⟨hsome, hslots⟩
  seat := by
    intro slot x hslot
    obtain ⟨y, hy, hdi⟩ := h.seat hslot
    rw [put_tty_apply]
    split_ifs with hx
    · rw [hx, htty] at hy
      cases hy
      exact ⟨tty', rfl, by rw [hline.1, hline.2, hdi]⟩
    · exact ⟨y, hy, hdi⟩
  seated := by
    intro x y hy hx
    rw [put_tty_apply] at hy
    split_ifs at hy with hxt
    · cases hy
      rw [hline.1, hline.2]
      subst hxt
      exact h.seated htty hx
    · exact h.seated hy hx
  inRange := h.inRange
  fresh := by
    intro x hx
    rw [put_tty_of_ne]
    · exact h.fresh hx
    · rintro rfl
      rw [h.fresh hx] at htty
      cases htty
  refcount := h.refcount

theorem Blocks.store {t : Nat} {tty tty' : TtyStruct} (h : Blocks k T B) (htty : k.tty t = some tty)
    (hline : tty'.driver = tty.driver ∧ tty'.index = tty.index) (htermios : tty'.termios = tty.termios) :
    Blocks (k.put t (some tty')) T B where
  nodup := h.nodup
  blocks := h.blocks
  unplaced := h.unplaced
  inj := h.inj
  fresh := h.fresh
  termios := by
    intro x y hy hx locked
    rw [put_tty_apply] at hy
    split_ifs at hy with hxt
    · cases hy
      subst hxt
      rw [htermios, hline.1, hline.2]
      exact h.termios htty hx locked
    · exact h.termios hy hx locked

theorem Blocks.perm {B' : List Nat} (h : Blocks k T B) (hperm : B.Perm B') : Blocks k T B' where
  nodup := hperm.nodup_iff.mp h.nodup
  blocks := fun b => (h.blocks b).trans (or_congr_right hperm.mem_iff)
  unplaced := fun hb => h.unplaced (hperm.mem_iff.mpr hb)
  inj := h.inj
  fresh := h.fresh
  termios := h.termios

/-! ### Making -/

theorem allocTtyStruct_run (ok : Bool) (d idx : Nat) (k : Kernel) :
    (allocTtyStruct ok d idx).run k = if ok then
      some (some k.nextTty, {
        k.put k.nextTty (some ⟨d, idx, 0, false, none, fun _ => none, []⟩) with
        nextTty := k.nextTty + 1 })
    else some (none, k) := rfl

theorem Seats.alloc (h : Seats S k T) (tty : TtyStruct) :
    Seats S { k.put k.nextTty (some tty) with nextTty := k.nextTty + 1 } (k.nextTty :: T) where
  nodup := List.nodup_cons.mpr ⟨fun hmem => by
    have hsome := (h.unseated hmem).1
    rw [h.fresh le_rfl] at hsome
    exact Bool.noConfusion hsome, h.nodup⟩
  unseated := by
    intro t ht
    rcases List.mem_cons.mp ht with rfl | ht
    · refine ⟨by simp, fun slot hslot => ?_⟩
      obtain ⟨tty', htty', _⟩ := h.seat hslot
      rw [h.fresh le_rfl] at htty'
      cases htty'
    · refine ⟨?_, (h.unseated ht).2⟩
      dsimp only
      rw [put_tty_apply]
      split_ifs
      · rfl
      · exact (h.unseated ht).1
  seat := by
    intro slot t hslot
    obtain ⟨tty', htty', hdi⟩ := h.seat hslot
    have hne : t ≠ k.nextTty := by
      rintro rfl
      rw [h.fresh le_rfl] at htty'
      cases htty'
    exact ⟨tty', (Function.update_of_ne hne ..).trans htty', hdi⟩
  seated := by
    intro t tty' htty' ht
    rw [List.mem_cons, not_or] at ht
    dsimp only at htty'
    rw [put_tty_of_ne ht.1] at htty'
    exact h.seated htty' ht.2
  inRange := h.inRange
  fresh := by
    intro t ht
    dsimp only at ht ⊢
    rw [put_tty_of_ne (by omega)]
    exact h.fresh (by omega)
  refcount := h.refcount

theorem Blocks.alloc (h : Blocks k T B) (tty : TtyStruct) :
    Blocks { k.put k.nextTty (some tty) with nextTty := k.nextTty + 1 } (k.nextTty :: T) B where
  nodup := h.nodup
  blocks := h.blocks
  unplaced := h.unplaced
  inj := h.inj
  fresh := h.fresh
  termios := by
    intro t tty' htty' ht
    rw [List.mem_cons, not_or] at ht
    dsimp only at htty'
    rw [put_tty_of_ne ht.1] at htty'
    exact h.termios htty' ht.2

theorem Blocks.kmalloc (h : Blocks k T B) :
    Blocks { k with
      blocks := Function.update k.blocks k.nextBlock true
      nextBlock := k.nextBlock + 1 } T (k.nextBlock :: B) where
  nodup := List.nodup_cons.mpr ⟨fun hmem => by
    have hused := (h.blocks _).mpr (.inr hmem)
    rw [h.fresh le_rfl] at hused
    exact Bool.noConfusion hused, h.nodup⟩
  blocks := by
    intro b
    dsimp only
    rw [Function.update_apply, List.mem_cons]
    split_ifs with hb
    · exact ⟨fun _ => .inr (.inl hb), fun _ => rfl⟩
    · rw [h.blocks, or_iff_right hb]
  unplaced := by
    intro b hb slot hslot
    rcases List.mem_cons.mp hb with rfl | hb
    · have hused := (h.blocks _).mpr (.inl ⟨slot, hslot⟩)
      rw [h.fresh le_rfl] at hused
      exact Bool.noConfusion hused
    · exact h.unplaced hb slot hslot
  inj := h.inj
  fresh := by
    intro b hb
    dsimp only at hb ⊢
    rw [Function.update_of_ne (by omega)]
    exact h.fresh (by omega)
  termios := h.termios

/-- `kmalloc` of what a slot lacks. -/
theorem mallocUnless_run (ok : Bool) (slot : Bool × Nat × Nat) (k : Kernel) :
    (mallocUnless ok slot).run k =
      if (k.termios slot).isSome then some (some none, k)
      else if ok then
        some (some (some k.nextBlock), { k with
          blocks := Function.update k.blocks k.nextBlock true
          nextBlock := k.nextBlock + 1 })
      else some (none, k) := rfl

/-! ### Freeing what is spare -/

theorem Seats.free_spare {t : Nat} (h : Seats S k (t :: T)) :
    Seats S (k.put t none) T where
  nodup := (List.nodup_cons.mp h.nodup).2
  unseated := by
    intro t' ht'
    have hne : t' ≠ t := by
      rintro rfl
      exact (List.nodup_cons.mp h.nodup).1 ht'
    obtain ⟨hsome, hslots⟩ := h.unseated (List.mem_cons_of_mem _ ht')
    refine ⟨?_, hslots⟩
    rwa [put_tty_of_ne hne]
  seat := by
    intro slot t' hslot
    have hne : t' ≠ t := by
      rintro rfl
      exact (h.unseated List.mem_cons_self).2 slot hslot
    obtain ⟨tty, htty, hdi⟩ := h.seat hslot
    exact ⟨tty, (Function.update_of_ne hne ..).trans htty, hdi⟩
  seated := by
    intro t' tty htty ht'
    rw [put_tty_apply] at htty
    split_ifs at htty with hne
    exact h.seated htty fun hmem => ht' ((List.mem_cons.mp hmem).resolve_left hne)
  inRange := h.inRange
  fresh := by
    intro t' ht'
    rw [put_tty_apply]
    split_ifs
    · rfl
    · exact h.fresh ht'
  refcount := h.refcount

theorem Blocks.free_tty {t : Nat} (h : Blocks k (t :: T) B) :
    Blocks (k.put t none) T B where
  nodup := h.nodup
  blocks := h.blocks
  unplaced := h.unplaced
  inj := h.inj
  fresh := h.fresh
  termios := by
    intro t' tty htty ht'
    rw [put_tty_apply] at htty
    split_ifs at htty with hne
    exact h.termios htty fun hmem => ht' ((List.mem_cons.mp hmem).resolve_left hne)

theorem Blocks.kfree_spare {b : Nat} (h : Blocks k T (b :: B)) :
    Blocks { k with blocks := Function.update k.blocks b false } T B where
  nodup := (List.nodup_cons.mp h.nodup).2
  blocks := by
    intro b'
    dsimp only
    rw [Function.update_apply]
    split_ifs with hb
    · subst hb
      constructor
      · exact fun hfalse => hfalse.elim
      · rintro (⟨slot, hslot⟩ | hmem)
        · exact absurd hslot (h.unplaced List.mem_cons_self slot)
        · exact absurd hmem (List.nodup_cons.mp h.nodup).1
    · rw [h.blocks, List.mem_cons, or_iff_right hb]
  unplaced := fun hb => h.unplaced (List.mem_cons_of_mem _ hb)
  inj := h.inj
  fresh := by
    intro b' hb'
    dsimp only
    rw [Function.update_apply]
    split_ifs
    · rfl
    · exact h.fresh hb'
  termios := h.termios

/-! ### Installing -/

/-- A struct that is spare takes a free place. -/
theorem Seats.take {d idx t : Nat} {tty : TtyStruct} (h : Seats S k (t :: T))
    (hd : d < S.total) (hidx : idx < (S.drv d).num) (hfree : k.ttys (d, idx) = none)
    (htty : k.tty t = some tty) (tty' : TtyStruct) (hline : tty'.driver = d ∧ tty'.index = idx) :
    Seats S { k with
      ttys := Function.update k.ttys (d, idx) (some t)
      tty := Function.update k.tty t (some tty')
      refcount := Function.update k.refcount d (k.refcount d + 1) } T where
  nodup := (List.nodup_cons.mp h.nodup).2
  unseated := by
    intro t' ht'
    have hne : t' ≠ t := by
      rintro rfl
      exact (List.nodup_cons.mp h.nodup).1 ht'
    obtain ⟨hsome, hslots⟩ := h.unseated (List.mem_cons_of_mem _ ht')
    dsimp only
    rw [Function.update_of_ne hne]
    refine ⟨hsome, fun slot => ?_⟩
    rw [Function.update_apply]
    split_ifs
    · exact fun heq => hne (Option.some.inj heq).symm
    · exact hslots slot
  seat := by
    intro slot t' hslot
    dsimp only at hslot ⊢
    rw [Function.update_apply] at hslot
    split_ifs at hslot with heq
    · cases hslot
      exact ⟨tty', Function.update_self .., by rw [hline.1, hline.2, heq]⟩
    · have hne : t' ≠ t := by
        rintro rfl
        exact (h.unseated List.mem_cons_self).2 slot hslot
      obtain ⟨other, hother, hdi⟩ := h.seat hslot
      exact ⟨other, (Function.update_of_ne hne ..).trans hother, hdi⟩
  seated := by
    intro t' other htty' ht'
    dsimp only at htty' ⊢
    rw [Function.update_apply] at htty'
    split_ifs at htty' with heq
    · cases htty'
      rw [hline.1, hline.2, Function.update_self, heq]
    · have hold := h.seated htty' fun hmem => ht' ((List.mem_cons.mp hmem).resolve_left heq)
      rw [Function.update_of_ne, hold]
      rintro hslot
      rw [hslot, hfree] at hold
      cases hold
  inRange := by
    intro slot t' hslot
    dsimp only at hslot
    rw [Function.update_apply] at hslot
    split_ifs at hslot with heq
    · rw [heq]
      exact ⟨hd, hidx⟩
    · exact h.inRange hslot
  fresh := by
    intro t' ht'
    have hold := h.fresh ht'
    dsimp only
    rw [Function.update_of_ne, hold]
    rintro rfl
    rw [htty] at hold
    cases hold
  refcount := by
    intro d'
    dsimp only
    rw [Function.update_apply]
    split_ifs with heq
    · subst heq
      rw [occupied_take hidx hfree, h.refcount]
      push_cast
      rfl
    · rw [h.refcount, occupied_congr]
      intro i
      rw [Function.update_of_ne]
      exact fun hslot => heq (Prod.mk.inj hslot).1

theorem fill_self {termios : Bool × Nat × Nat → Option Nat} {slot : Bool × Nat × Nat}
    {b : Option Nat} (hb : (termios slot).isSome ∨ b.isSome) : (fill termios slot b slot).isSome := by
  rw [fill]
  split_ifs with hsome
  · exact hsome
  · rw [Function.update_self]
    exact hb.resolve_left hsome

theorem fill_of_ne {termios : Bool × Nat × Nat → Option Nat} {slot slot' : Bool × Nat × Nat}
    (b : Option Nat) (hne : slot' ≠ slot) : fill termios slot b slot' = termios slot' := by
  rw [fill]
  split_ifs
  · rfl
  · rw [Function.update_of_ne hne]

/-- A block that is spare takes its slot. -/
theorem Blocks.place {slot : Bool × Nat × Nat} {b : Option Nat} (h : Blocks k T (b.toList ++ B))
    (hb : b.isSome ↔ k.termios slot = none) :
    Blocks { k with termios := fill k.termios slot b } T B := by
  by_cases hsome : (k.termios slot).isSome
  · have hnone : b = none := by
      rw [← Option.not_isSome_iff_eq_none, hb, ← Option.not_isSome_iff_eq_none, not_not]
      exact hsome
    subst hnone
    rw [fill, if_pos hsome]
    exact h
  · rw [Option.not_isSome_iff_eq_none] at hsome
    obtain ⟨b, rfl⟩ := Option.isSome_iff_exists.mp (hb.mpr hsome)
    rw [Option.toList_some, List.singleton_append] at h
    rw [fill, hsome, if_neg (by decide)]
    exact
    { nodup := (List.nodup_cons.mp h.nodup).2
      blocks := by
        intro b'
        rw [h.blocks, List.mem_cons]
        constructor
        · rintro (⟨slot', hslot'⟩ | rfl | hmem)
          · refine .inl ⟨slot', (Function.update_of_ne ?_ ..).trans hslot'⟩
            rintro rfl
            rw [hsome] at hslot'
            cases hslot'
          · exact .inl ⟨slot, Function.update_self ..⟩
          · exact .inr hmem
        · rintro (⟨slot', hslot'⟩ | hmem)
          · dsimp only at hslot'
            rw [Function.update_apply] at hslot'
            split_ifs at hslot'
            · exact .inr (.inl (Option.some.inj hslot').symm)
            · exact .inl ⟨slot', hslot'⟩
          · exact .inr (.inr hmem)
      unplaced := by
        intro b' hb' slot'
        dsimp only
        rw [Function.update_apply]
        split_ifs
        · intro heq
          cases heq
          exact (List.nodup_cons.mp h.nodup).1 hb'
        · exact h.unplaced (List.mem_cons_of_mem _ hb') slot'
      inj := by
        intro slot₁ slot₂ b' h₁ h₂
        dsimp only at h₁ h₂
        rw [Function.update_apply] at h₁ h₂
        split_ifs at h₁ with heq₁ <;> split_ifs at h₂ with heq₂
        · rw [heq₁, heq₂]
        · cases h₁
          exact absurd h₂ (h.unplaced List.mem_cons_self slot₂)
        · cases h₂
          exact absurd h₁ (h.unplaced List.mem_cons_self slot₁)
        · exact h.inj h₁ h₂
      fresh := h.fresh
      termios := by
        intro t tty htty ht locked
        have hold := h.termios htty ht locked
        dsimp only
        rw [Function.update_of_ne]
        · exact hold
        · rintro rfl
          rw [hold.2, hsome] at hold
          exact Bool.noConfusion hold.1 }

/-- A struct points to the blocks of its line. -/
theorem Blocks.take {t : Nat} {tty : TtyStruct} (h : Blocks k (t :: T) B)
    (htty : ∀ locked, (tty.termios locked).isSome ∧
      tty.termios locked = k.termios (locked, tty.driver, tty.index)) :
    Blocks (k.put t (some tty)) T B where
  nodup := h.nodup
  blocks := h.blocks
  unplaced := h.unplaced
  inj := h.inj
  fresh := h.fresh
  termios := by
    intro t' tty' htty' ht'
    rw [put_tty_apply] at htty'
    split_ifs at htty' with hne
    · cases htty'
      exact htty
    · exact h.termios htty' fun hmem => ht' ((List.mem_cons.mp hmem).resolve_left hne)

/-- Only the tables and the structs matter to the blocks. -/
theorem Blocks.congr {k' : Kernel} (h : Blocks k T B) (hblocks : k'.blocks = k.blocks)
    (hnext : k'.nextBlock = k.nextBlock) (htermios : k'.termios = k.termios)
    (htty : k'.tty = k.tty) : Blocks k' T B where
  nodup := h.nodup
  blocks := by rw [hblocks, htermios]; exact h.blocks
  unplaced := by rw [htermios]; exact h.unplaced
  inj := by rw [htermios]; exact h.inj
  fresh := by rw [hblocks, hnext]; exact h.fresh
  termios := by rw [htermios, htty]; exact h.termios

/-- The tables of `termios` when the blocks of a line are there. -/
def filled (termios : Bool × Nat × Nat → Option Nat) (d idx : Nat) (tp ltp : Option Nat) :
    Bool × Nat × Nat → Option Nat :=
  fill (fill termios (false, d, idx) tp) (true, d, idx) ltp

/-- The state that `install` leaves. -/
def Kernel.installed (k : Kernel) (d idx t : Nat) (tp ltp : Option Nat) (tty : TtyStruct) :
    Kernel :=
  { k with
    ttys := Function.update k.ttys (d, idx) (some t)
    termios := filled k.termios d idx tp ltp
    tty := Function.update k.tty t
      (some { tty with termios := fun locked => filled k.termios d idx tp ltp (locked, d, idx) })
    refcount := Function.update k.refcount d (k.refcount d + 1) }

theorem install_run {d idx t : Nat} {tp ltp : Option Nat} {tty : TtyStruct}
    (htty : k.tty t = some tty) :
    (install d idx t tp ltp).run k = some (⟨⟩, k.installed d idx t tp ltp tty) := by
  rw [install, bind_run (modify_run ..), bind_run (modify_run ..), bind_run (modify_run ..),
    bind_run (get_run _), bind_run (store_run (by exact htty) _)]
  rfl

/-- **`install` keeps the memory in order.** -/
theorem Seats.installed {d idx t : Nat} {tp ltp : Option Nat} {tty : TtyStruct}
    (h : Seats S k (t :: T)) (hd : d < S.total) (hidx : idx < (S.drv d).num)
    (hfree : k.ttys (d, idx) = none) (htty : k.tty t = some tty)
    (hline : tty.driver = d ∧ tty.index = idx) : Seats S (k.installed d idx t tp ltp tty) T := by
  have htake := h.take hd hidx hfree htty
    { tty with termios := fun locked => filled k.termios d idx tp ltp (locked, d, idx) } hline
  exact ⟨htake.nodup, htake.unseated, htake.seat, htake.seated, htake.inRange, htake.fresh,
    htake.refcount⟩

theorem Blocks.installed {d idx t : Nat} {tp ltp : Option Nat} {tty : TtyStruct}
    (h : Blocks k (t :: T) (tp.toList ++ (ltp.toList ++ B)))
    (htp : tp.isSome ↔ k.termios (false, d, idx) = none)
    (hltp : ltp.isSome ↔ k.termios (true, d, idx) = none)
    (hline : tty.driver = d ∧ tty.index = idx) :
    Blocks (k.installed d idx t tp ltp tty) T B := by
  have hne : ((true, d, idx) : Bool × Nat × Nat) ≠ (false, d, idx) := by simp
  have hfirst := h.place htp
  have hltp' : ltp.isSome ↔ fill k.termios (false, d, idx) tp (true, d, idx) = none := by
    rw [hltp, fill_of_ne _ hne]
  have hboth := hfirst.place hltp'
  have hsome : ∀ locked, (filled k.termios d idx tp ltp (locked, d, idx)).isSome := by
    have hor {slot : Bool × Nat × Nat} {b : Option Nat} (hb : b.isSome ↔ k.termios slot = none) :
        (k.termios slot).isSome ∨ b.isSome := by
      rw [hb, ← Option.not_isSome_iff_eq_none]
      exact Classical.em _
    intro locked
    rw [filled]
    cases locked with
    | true =>
      refine fill_self ?_
      rw [fill_of_ne _ hne]
      exact hor hltp
    | false =>
      rw [fill_of_ne _ hne.symm]
      exact fill_self (hor htp)
  refine (hboth.take (t := t) fun locked => ?_).congr rfl rfl rfl rfl
  rw [hline.1, hline.2]
  exact ⟨hsome locked, rfl⟩

/-! ### Releasing -/

/-- A struct leaves its place and is freed. -/
theorem Seats.leave {t : Nat} {tty : TtyStruct} (h : Seats S k T) (htty : k.tty t = some tty)
    (ht : t ∉ T) : Seats S { k with
      ttys := Function.update k.ttys (tty.driver, tty.index) none
      tty := Function.update k.tty t none
      refcount := Function.update k.refcount tty.driver (k.refcount tty.driver - 1) } T where
  nodup := h.nodup
  unseated := by
    intro t' ht'
    obtain ⟨hsome, hslots⟩ := h.unseated ht'
    have hne : t' ≠ t := by
      rintro rfl
      exact ht ht'
    dsimp only
    rw [Function.update_of_ne hne]
    refine ⟨hsome, fun slot => ?_⟩
    rw [Function.update_apply]
    split_ifs
    · exact Option.some_ne_none _ ∘ Eq.symm
    · exact hslots slot
  seat := by
    intro slot t' hslot
    dsimp only at hslot ⊢
    rw [Function.update_apply] at hslot
    split_ifs at hslot with heq
    obtain ⟨other, hother, hdi⟩ := h.seat hslot
    refine ⟨other, (Function.update_of_ne ?_ ..).trans hother, hdi⟩
    rintro rfl
    exact heq (h.slot_inj hslot (h.seated htty ht))
  seated := by
    intro t' other hother ht'
    dsimp only at hother ⊢
    rw [Function.update_apply] at hother
    split_ifs at hother with heq
    have hold := h.seated hother ht'
    rw [Function.update_of_ne, hold]
    intro hslot
    rw [hslot, h.seated htty ht] at hold
    exact heq (Option.some.inj hold).symm
  inRange := by
    intro slot t' hslot
    dsimp only at hslot
    rw [Function.update_apply] at hslot
    split_ifs at hslot
    exact h.inRange hslot
  fresh := by
    intro t' ht'
    dsimp only
    rw [Function.update_apply]
    split_ifs
    · rfl
    · exact h.fresh ht'
  refcount := by
    intro d'
    dsimp only
    have hseat := h.seated htty ht
    rw [Function.update_apply]
    split_ifs with heq
    · subst heq
      rw [h.refcount, ← occupied_leave (h.inRange hseat).2 hseat]
      push_cast
      omega
    · rw [h.refcount, occupied_congr]
      intro i
      rw [Function.update_of_ne]
      exact fun hslot => heq (Prod.mk.inj hslot).1

theorem Blocks.weaken (h : Blocks k T B) (t : Nat) : Blocks k (t :: T) B :=
  ⟨h.nodup, h.blocks, h.unplaced, h.inj, h.fresh,
    fun htty ht => h.termios htty fun hmem => ht (List.mem_cons_of_mem t hmem)⟩

/-- A block leaves its slot and is freed. -/
theorem Blocks.drop {b : Nat} (h : Blocks k T B) (slot : Bool × Nat × Nat)
    (hslot : k.termios slot = some b)
    (hunused : ∀ {t tty}, k.tty t = some tty → t ∉ T → (tty.driver, tty.index) ≠ slot.2) :
    Blocks { k with
      termios := Function.update k.termios slot none
      blocks := Function.update k.blocks b false } T B where
  nodup := h.nodup
  blocks := by
    intro b'
    dsimp only
    rw [Function.update_apply]
    split_ifs with heq
    · subst heq
      refine ⟨fun hfalse => hfalse.elim, ?_⟩
      rintro (⟨slot', hslot'⟩ | hmem)
      · rw [Function.update_apply] at hslot'
        split_ifs at hslot' with heq
        exact absurd (h.inj hslot' hslot) heq
      · exact absurd hslot (h.unplaced hmem slot)
    · rw [h.blocks]
      refine or_congr_left ⟨?_, ?_⟩
      · rintro ⟨slot', hslot'⟩
        refine ⟨slot', (Function.update_of_ne ?_ ..).trans hslot'⟩
        rintro rfl
        rw [hslot] at hslot'
        exact heq (Option.some.inj hslot').symm
      · rintro ⟨slot', hslot'⟩
        rw [Function.update_apply] at hslot'
        split_ifs at hslot'
        exact ⟨slot', hslot'⟩
  unplaced := by
    intro b' hb' slot'
    dsimp only
    rw [Function.update_apply]
    split_ifs
    · exact Option.some_ne_none _ ∘ Eq.symm
    · exact h.unplaced hb' slot'
  inj := by
    intro slot₁ slot₂ b' h₁ h₂
    dsimp only at h₁ h₂
    rw [Function.update_apply] at h₁ h₂
    split_ifs at h₁
    split_ifs at h₂
    exact h.inj h₁ h₂
  fresh := by
    intro b' hb'
    dsimp only
    rw [Function.update_apply]
    split_ifs
    · rfl
    · exact h.fresh hb'
  termios := by
    intro t tty htty ht locked
    dsimp only
    rw [Function.update_of_ne]
    · exact h.termios htty ht locked
    · intro heq
      exact hunused htty ht (congrArg Prod.snd heq)

/-- `kfree` of one of the blocks of a struct. -/
def freed (blocks : Nat → Bool) : Option Nat → Nat → Bool
  | none => blocks
  | some b => Function.update blocks b false

/-- The state that `releaseSide` leaves. -/
def Kernel.released (S : Drivers) (k : Kernel) (t : Nat) (tty : TtyStruct) : Kernel :=
  { k with
    ttys := Function.update k.ttys (tty.driver, tty.index) none
    termios :=
      if (S.drv tty.driver).resetTermios then
        Function.update (Function.update k.termios (false, tty.driver, tty.index) none)
          (true, tty.driver, tty.index) none
      else k.termios
    blocks :=
      if (S.drv tty.driver).resetTermios then
        freed (freed k.blocks (tty.termios false)) (tty.termios true)
      else k.blocks
    refcount := Function.update k.refcount tty.driver (k.refcount tty.driver - 1)
    tty := Function.update k.tty t none }

/-- The two blocks of a struct. -/
theorem Blocks.both {t : Nat} {tty : TtyStruct} (h : Blocks k T B) (htty : k.tty t = some tty)
    (ht : t ∉ T) : ∃ b b', tty.termios false = some b ∧ tty.termios true = some b' ∧ b' ≠ b ∧
      k.termios (false, tty.driver, tty.index) = some b ∧
      k.termios (true, tty.driver, tty.index) = some b' ∧ k.blocks b = true ∧
      k.blocks b' = true := by
  obtain ⟨hsome, htable⟩ := h.termios htty ht false
  obtain ⟨hsome', htable'⟩ := h.termios htty ht true
  obtain ⟨b, hb⟩ := Option.isSome_iff_exists.mp hsome
  obtain ⟨b', hb'⟩ := Option.isSome_iff_exists.mp hsome'
  rw [hb] at htable
  rw [hb'] at htable'
  refine ⟨b, b', hb, hb', ?_, htable.symm, htable'.symm, (h.blocks b).mpr (.inl ⟨_, htable.symm⟩),
    (h.blocks b').mpr (.inl ⟨_, htable'.symm⟩)⟩
  rintro rfl
  exact Bool.false_ne_true (congrArg Prod.fst (h.inj htable.symm htable'.symm))

/-- **`releaseSide` does not fault.** -/
theorem releaseSide_run {t : Nat} {tty : TtyStruct} (h : Blocks k T B)
    (htty : k.tty t = some tty) (ht : t ∉ T) :
    (releaseSide S t tty.index).run k = some (⟨⟩, k.released S t tty) := by
  obtain ⟨b, b', hb, hb', hne, _, _, hblock, hblock'⟩ := h.both htty ht
  rw [releaseSide, bind_run (load_run htty), bind_run (modify_run ..), Kernel.released]
  by_cases hreset : (S.drv tty.driver).resetTermios
  · rw [if_pos hreset, if_pos hreset, if_pos hreset, bind_run (modify_run ..), hb,
      bind_run (kfree_run (by exact hblock)), bind_run (modify_run ..), hb',
      bind_run (kfree_run (by
        dsimp only
        rw [Function.update_of_ne hne]
        exact hblock')), bind_run (modify_run ..)]
    exact freeTtyStruct_run htty
  · rw [if_neg hreset, if_neg hreset, if_neg hreset, bind_run (modify_run ..)]
    exact freeTtyStruct_run htty

/-- **It keeps the memory in order.** -/
theorem Seats.released {t : Nat} {tty : TtyStruct} (h : Seats S k T) (htty : k.tty t = some tty)
    (ht : t ∉ T) : Seats S (k.released S t tty) T := by
  have hleave := h.leave htty ht
  exact ⟨hleave.nodup, hleave.unseated, hleave.seat, hleave.seated, hleave.inRange, hleave.fresh,
    hleave.refcount⟩

theorem Blocks.released {t : Nat} {tty : TtyStruct} (hs : Seats S k T) (h : Blocks k T B)
    (htty : k.tty t = some tty) (ht : t ∉ T) : Blocks (k.released S t tty) T B := by
  obtain ⟨b, b', hb, hb', hne, hslot, hslot', _, _⟩ := h.both htty ht
  have hunused : ∀ {t' : Nat} {other : TtyStruct}, k.tty t' = some other → t' ∉ t :: T →
      (other.driver, other.index) ≠ (tty.driver, tty.index) := by
    intro t' other hother hmem heq
    rw [List.mem_cons, not_or] at hmem
    have hseat := hs.seated hother hmem.2
    rw [heq, hs.seated htty ht] at hseat
    exact hmem.1 (Option.some.inj hseat).symm
  have hweak := h.weaken t
  rw [Kernel.released]
  by_cases hreset : (S.drv tty.driver).resetTermios
  · rw [if_pos hreset, if_pos hreset, hb, hb']
    have hfirst := hweak.drop _ hslot fun h₁ h₂ => hunused h₁ h₂
    have hsecond : Function.update k.termios (false, tty.driver, tty.index) none
        (true, tty.driver, tty.index) = some b' := by
      rw [Function.update_of_ne (by simp)]
      exact hslot'
    have hboth := hfirst.drop (true, tty.driver, tty.index) hsecond fun h₁ h₂ => hunused h₁ h₂
    exact hboth.free_tty.congr rfl rfl rfl rfl
  · rw [if_neg hreset, if_neg hreset]
    exact hweak.free_tty.congr rfl rfl rfl rfl

end LinuxConsole.Tty

import LinuxConsole.Xinput.Configure
import Mathlib.Tactic.IntervalCases

/-!
# The map of the buttons

At last `tunFinishUnasigned` gives every button of the device that has no X button the
first one that is not in use.  It looks in a map of `safe` bytes, six more than there
are places in the table of the buttons.  In use are 0, at most 4 and 5 for a wheel, and
what the other places of the table hold, so one is always found below `safe`
(`Filled.free_lt`).  X buttons from `safe` on are not in the map, and none of them is
given.

**`buttons_complete`**: whatever the table holds before, every button without an X
button gets one of its own, and nothing outside the map is touched.
-/

namespace LinuxConsole.Xinput

open Lib Tables

variable {H : Headers} (caps : Capabilities) (tun : Tun)

/-- Some relative valuator turns into the buttons 4 and 5. -/
def Tun.wheel (tun : Tun) : Bool :=
  (List.range tun.nofRvaluators.toNat).any fun i : Nat =>
    tun.mouseWheelHack (.rel (tun.firstRvaluator + i))

/-- The button at a place of the table is there, and has no X button. -/
def Tun.Open (i : Nat) : Prop :=
  caps.key (i + tun.firstLbutton) = true ∧ tun.lbutToXbut i = buttonUnassigned

/-- **The map of the buttons is complete**: each open place has got a positive X button that no
other place has and that the wheel does not need, the other places are as they were, and
all places of `bmap` that have been touched are below `safe`. -/
structure Completed (b : Buttons) : Prop where
  given : ∀ i < tun.nofLbuttons, tun.Open caps i → 0 < b.trans i
  apart : ∀ i < tun.nofLbuttons, tun.Open caps i → ∀ i' < tun.nofLbuttons, i' ≠ i →
    b.trans i' ≠ b.trans i
  wheel : ∀ i < tun.nofLbuttons, tun.Open caps i → tun.wheel = true →
    b.trans i ≠ 4 ∧ b.trans i ≠ 5
  kept : ∀ i, ¬(i < tun.nofLbuttons ∧ tun.Open caps i) → b.trans i = tun.lbutToXbut i
  touched : ∀ j ∈ b.touched, j < tun.safe

/-! ### The map -/

/-- What `bmap` says: 0 is in use, what the table holds below `safe` is, and with a wheel 4 and
5 are; and nothing else is. -/
structure Marks (b : Buttons) : Prop where
  zero : b.bmap 0 = true
  table : ∀ i < tun.nofLbuttons, 0 < b.trans i → b.trans i < (tun.safe : Int) →
    b.bmap (b.trans i).toNat = true
  wheel : tun.wheel = true → b.bmap 4 = true ∧ b.bmap 5 = true
  covered : ∀ j, b.bmap j = true → j = 0 ∨ j = 4 ∨ j = 5 ∨
    ∃ i < tun.nofLbuttons, 0 < b.trans i ∧ b.trans i = (j : Int)
  touched : ∀ j ∈ b.touched, j < tun.safe

theorem mark_bmap (b : Buttons) (j x : Nat) :
    (b.mark j).bmap x = true ↔ x = j ∨ b.bmap x = true := by
  change Function.update b.bmap j true x = true ↔ _
  rw [Function.update_apply]
  split_ifs with h
  · simp [h]
  · simp [h]

theorem mark_touched {b : Buttons} {n : Nat} (h : ∀ x ∈ b.touched, x < n) {j : Nat} (hj : j < n) :
    ∀ x ∈ (b.mark j).touched, x < n := by
  intro x hx
  rcases List.mem_append.mp hx with hx | hx
  · exact h x hx
  · rwa [List.mem_singleton.mp hx]

/-- The loop over the table, for its first `n` places. -/
def Tun.usedTable (n : Nat) : Buttons :=
  (List.range n).foldl
    (fun b i => if 0 < b.trans i ∧ b.trans i < (tun.safe : Int) then b.mark (b.trans i).toNat else b)
    ((⟨tun.lbutToXbut, fun _ => false, []⟩ : Buttons).mark 0)

theorem usedTable_trans (n : Nat) : (tun.usedTable n).trans = tun.lbutToXbut := by
  induction n with
  | zero => rfl
  | succ n ih =>
    rw [Tun.usedTable, List.range_succ, List.foldl_append, ← Tun.usedTable, List.foldl_cons,
      List.foldl_nil]
    split_ifs
    · exact ih
    · exact ih

theorem usedTable_succ (n : Nat) : tun.usedTable (n + 1) =
    if 0 < tun.lbutToXbut n ∧ tun.lbutToXbut n < (tun.safe : Int) then
      (tun.usedTable n).mark (tun.lbutToXbut n).toNat
    else tun.usedTable n := by
  rw [Tun.usedTable, List.range_succ, List.foldl_append, ← Tun.usedTable, List.foldl_cons,
    List.foldl_nil, usedTable_trans]

theorem usedTable_bmap (n j : Nat) : (tun.usedTable n).bmap j = true ↔
    j = 0 ∨ ∃ i < n, 0 < tun.lbutToXbut i ∧ tun.lbutToXbut i < (tun.safe : Int) ∧
      tun.lbutToXbut i = (j : Int) := by
  induction n with
  | zero =>
    rw [Tun.usedTable, List.range_zero, List.foldl_nil, mark_bmap]
    simp
  | succ n ih =>
    rw [usedTable_succ]
    split_ifs with hn
    · rw [mark_bmap, ih]
      constructor
      · rintro (rfl | rfl | ⟨i, hi, h⟩)
        · exact Or.inr ⟨n, Nat.lt_succ_self n, hn.1, hn.2, by omega⟩
        · exact Or.inl rfl
        · exact Or.inr ⟨i, by omega, h⟩
      · rintro (rfl | ⟨i, hi, h⟩)
        · exact Or.inr (Or.inl rfl)
        · by_cases hin : i = n
          · subst hin
            exact Or.inl (by omega)
          · exact Or.inr (Or.inr ⟨i, by omega, h⟩)
    · rw [ih]
      constructor
      · rintro (rfl | ⟨i, hi, h⟩)
        · exact Or.inl rfl
        · exact Or.inr ⟨i, by omega, h⟩
      · rintro (rfl | ⟨i, hi, h⟩)
        · exact Or.inl rfl
        · have hin : i ≠ n := by
            rintro rfl
            exact hn ⟨h.1, h.2.1⟩
          exact Or.inr ⟨i, by omega, h⟩

theorem usedTable_touched (n : Nat) : ∀ j ∈ (tun.usedTable n).touched, j < tun.safe := by
  induction n with
  | zero =>
    intro j hj
    obtain rfl : j = 0 := by simpa [Tun.usedTable, Buttons.mark] using hj
    rw [Tun.safe]
    omega
  | succ n ih =>
    rw [usedTable_succ]
    split_ifs with hn
    · exact mark_touched ih (by omega)
    · exact ih

/-- The loop over the relative valuators, for the first `n`. -/
def Tun.usedWheel (n : Nat) (b : Buttons) : Buttons :=
  (List.range n).foldl
    (fun b (i : Nat) =>
      if tun.mouseWheelHack (.rel (tun.firstRvaluator + i)) then (b.mark 4).mark 5 else b) b

theorem usedWheel_succ (n : Nat) (b : Buttons) : tun.usedWheel (n + 1) b =
    if tun.mouseWheelHack (.rel (tun.firstRvaluator + n)) then ((tun.usedWheel n b).mark 4).mark 5
    else tun.usedWheel n b := by
  rw [Tun.usedWheel, List.range_succ, List.foldl_append, ← Tun.usedWheel, List.foldl_cons,
    List.foldl_nil]

theorem usedWheel_trans (n : Nat) (b : Buttons) : (tun.usedWheel n b).trans = b.trans := by
  induction n with
  | zero => rfl
  | succ n ih =>
    rw [usedWheel_succ]
    split_ifs
    · exact ih
    · exact ih

theorem usedWheel_bmap (n j : Nat) (b : Buttons) : (tun.usedWheel n b).bmap j = true ↔
    b.bmap j = true ∨
      ((j = 4 ∨ j = 5) ∧ ∃ i < n, tun.mouseWheelHack (.rel (tun.firstRvaluator + i)) = true) := by
  induction n with
  | zero => simp [Tun.usedWheel]
  | succ n ih =>
    rw [usedWheel_succ]
    split_ifs with hn
    · rw [mark_bmap, mark_bmap, ih]
      constructor
      · rintro (rfl | rfl | h | ⟨hj, i, hi, h⟩)
        · exact Or.inr ⟨Or.inr rfl, n, Nat.lt_succ_self n, hn⟩
        · exact Or.inr ⟨Or.inl rfl, n, Nat.lt_succ_self n, hn⟩
        · exact Or.inl h
        · exact Or.inr ⟨hj, i, by omega, h⟩
      · rintro (h | ⟨rfl | rfl, -⟩)
        · exact Or.inr (Or.inr (Or.inl h))
        · exact Or.inr (Or.inl rfl)
        · exact Or.inl rfl
    · rw [ih]
      refine or_congr_right (and_congr_right fun _ => ?_)
      constructor
      · rintro ⟨i, hi, h⟩
        exact ⟨i, by omega, h⟩
      · rintro ⟨i, hi, h⟩
        have hin : i ≠ n := by
          rintro rfl
          exact hn h
        exact ⟨i, by omega, h⟩

theorem usedWheel_touched (n : Nat) {b : Buttons} (h : ∀ j ∈ b.touched, j < tun.safe) :
    ∀ j ∈ (tun.usedWheel n b).touched, j < tun.safe := by
  have hsix : 6 ≤ tun.safe := Nat.le_add_left 6 _
  induction n with
  | zero => exact h
  | succ n ih =>
    rw [usedWheel_succ]
    split_ifs
    · exact mark_touched (mark_touched ih (by omega)) (by omega)
    · exact ih

/-- **What is in use before.** -/
theorem used_marks : Marks tun tun.used := by
  have hbmap : ∀ j, tun.used.bmap j = true ↔ _ := fun j =>
    (usedWheel_bmap tun tun.nofRvaluators.toNat j _).trans
      (or_congr_left (usedTable_bmap tun tun.nofLbuttons j))
  have htrans : tun.used.trans = tun.lbutToXbut :=
    (usedWheel_trans tun tun.nofRvaluators.toNat _).trans (usedTable_trans tun _)
  constructor
  · exact (hbmap 0).mpr (Or.inl (Or.inl rfl))
  · intro i hi hpos hlt
    rw [htrans] at hpos hlt ⊢
    exact (hbmap _).mpr (Or.inl (Or.inr ⟨i, hi, hpos, hlt, by omega⟩))
  · intro hwheel
    obtain ⟨i, hi, hhack⟩ := List.any_eq_true.mp hwheel
    have hany : ∃ i < tun.nofRvaluators.toNat,
        tun.mouseWheelHack (.rel (tun.firstRvaluator + i)) = true :=
      ⟨i, List.mem_range.mp hi, hhack⟩
    exact ⟨(hbmap 4).mpr (Or.inr ⟨Or.inl rfl, hany⟩), (hbmap 5).mpr (Or.inr ⟨Or.inr rfl, hany⟩)⟩
  · intro j hj
    rw [htrans]
    rcases (hbmap j).mp hj with (hzero | ⟨i, hi, hpos, -, heq⟩) | ⟨hfour | hfive, -⟩
    · exact Or.inl hzero
    · exact Or.inr (Or.inr (Or.inr ⟨i, hi, hpos, heq⟩))
    · exact Or.inr (Or.inl hfour)
    · exact Or.inr (Or.inr (Or.inl hfive))
  · exact usedWheel_touched tun tun.nofRvaluators.toNat (usedTable_touched tun _)

/-! ### The loop -/

/-- **The invariant**: the map says what is in use, and of the first `k` places those that were
open are complete. -/
structure Filled (k : Nat) (b : Buttons) : Prop extends Marks tun b where
  given : ∀ i < k, tun.Open caps i → 0 < b.trans i
  apart : ∀ i < k, tun.Open caps i → ∀ i' < tun.nofLbuttons, i' ≠ i → b.trans i' ≠ b.trans i
  unwheeled : ∀ i < k, tun.Open caps i → tun.wheel = true → b.trans i ≠ 4 ∧ b.trans i ≠ 5
  kept : ∀ i, ¬(i < k ∧ tun.Open caps i) → b.trans i = tun.lbutToXbut i

variable {caps tun} {b : Buttons} {k : Nat}

/-- **An X button is free** below `safe`. -/
theorem Filled.free_lt (h : Filled caps tun k b) (hk : k < tun.nofLbuttons)
    (hopen : tun.Open caps k) : firstFree (fun j => !b.bmap j) tun.safe < tun.safe := by
  have hnone : b.trans k = buttonUnassigned := by
    rw [h.kept k fun hlt => lt_irrefl k hlt.1]
    exact hopen.2
  apply firstFree_lt
    (0 :: 4 :: 5 :: ((List.range tun.nofLbuttons).erase k).map fun i => (b.trans i).toNat)
  · have hmem : k ∈ List.range tun.nofLbuttons := List.mem_range.mpr hk
    simp only [List.length_cons, List.length_map, List.length_erase_of_mem hmem,
      List.length_range, Tun.safe]
    omega
  · intro j _ hused
    have hj : b.bmap j = true := by simpa using hused
    simp only [List.mem_cons, List.mem_map]
    rcases h.covered j hj with hj | hj | hj | ⟨i, hi, hpos, heq⟩
    · exact Or.inl hj
    · exact Or.inr (Or.inl hj)
    · exact Or.inr (Or.inr (Or.inl hj))
    · have hne : i ≠ k := by
        rintro rfl
        rw [hnone, buttonUnassigned] at hpos
        omega
      refine Or.inr (Or.inr (Or.inr ⟨i, ?_, by omega⟩))
      exact (List.mem_erase_of_ne hne).mpr (List.mem_range.mpr hi)

theorem Filled.skip (h : Filled caps tun k b) (hopen : ¬tun.Open caps k) :
    Filled caps tun (k + 1) b where
  toMarks := h.toMarks
  given := fun i hi ho => h.given i (by
    rcases Nat.lt_succ_iff_lt_or_eq.mp hi with hi | rfl
    · exact hi
    · exact absurd ho hopen) ho
  apart := fun i hi ho => h.apart i (by
    rcases Nat.lt_succ_iff_lt_or_eq.mp hi with hi | rfl
    · exact hi
    · exact absurd ho hopen) ho
  unwheeled := fun i hi ho => h.unwheeled i (by
    rcases Nat.lt_succ_iff_lt_or_eq.mp hi with hi | rfl
    · exact hi
    · exact absurd ho hopen) ho
  kept := fun i hi => h.kept i fun hlt => hi ⟨by omega, hlt.2⟩

/-- A button gets the X button `j`, and the places of the map up to it have been looked at. -/
def Buttons.give (tun : Tun) (b : Buttons) (i j : Nat) : Buttons :=
  ({ b with
    trans := Function.update b.trans i (short j)
    touched := b.touched ++ List.range (Nat.min (j + 1) tun.safe) } : Buttons).mark j

theorem give_trans (b : Buttons) (i : Nat) {j : Nat} (hj : j < 2 ^ 15) (i' : Nat) :
    (b.give tun i j).trans i' = if i' = i then (j : Int) else b.trans i' := by
  rw [show (b.give tun i j).trans i' = Function.update b.trans i (short j) i' from rfl,
    short_natCast hj, Function.update_apply]

theorem give_bmap (b : Buttons) (i j x : Nat) :
    (b.give tun i j).bmap x = true ↔ x = j ∨ b.bmap x = true := mark_bmap _ j x

theorem give_touched (h : ∀ x ∈ b.touched, x < tun.safe) (i : Nat) {j : Nat} (hj : j < tun.safe) :
    ∀ x ∈ (b.give tun i j).touched, x < tun.safe := by
  refine mark_touched (fun x hx => ?_) hj
  rcases List.mem_append.mp hx with hx | hx
  · exact h x hx
  · exact (List.mem_range.mp hx).trans_le (Nat.min_le_right _ _)

theorem finish_open {j : Nat} (hkey : caps.key (k + tun.firstLbutton) = true)
    (hnone : b.trans k = buttonUnassigned)
    (hj : j = firstFree (fun j => !b.bmap j) tun.safe) :
    b.finish caps tun k = b.give tun k j := by
  rw [Buttons.finish, if_pos ⟨hkey, hnone⟩, hj]
  rfl

/-- **The map stays right** when a button without an X button gets one. -/
theorem Marks.give (h : Marks tun b) (hk : k < tun.nofLbuttons)
    (hnone : b.trans k = buttonUnassigned) {j : Nat} (hpos : 0 < j) (hlt : j < tun.safe)
    (hsmall : j < 2 ^ 15) : Marks tun (b.give tun k j) where
  zero := (give_bmap b k j 0).mpr (Or.inr h.zero)
  table := by
    intro i hi hposi hlti
    rw [give_bmap]
    rw [give_trans b k hsmall] at hposi hlti ⊢
    split_ifs at hposi hlti ⊢
    · exact Or.inl (Int.toNat_natCast j)
    · exact Or.inr (h.table i hi hposi hlti)
  wheel := by
    intro hwheel
    obtain ⟨hfour, hfive⟩ := h.wheel hwheel
    exact ⟨(give_bmap b k j 4).mpr (Or.inr hfour), (give_bmap b k j 5).mpr (Or.inr hfive)⟩
  covered := by
    intro x hx
    rcases (give_bmap b k j x).mp hx with rfl | hx
    · refine Or.inr (Or.inr (Or.inr ⟨k, hk, ?_⟩))
      rw [give_trans b k hsmall, if_pos rfl]
      omega
    · rcases h.covered x hx with hx | hx | hx | ⟨i, hi, hposi, heq⟩
      · exact Or.inl hx
      · exact Or.inr (Or.inl hx)
      · exact Or.inr (Or.inr (Or.inl hx))
      · have hik : i ≠ k := by
          rintro rfl
          rw [hnone, buttonUnassigned] at hposi
          omega
        refine Or.inr (Or.inr (Or.inr ⟨i, hi, ?_⟩))
        rw [give_trans b k hsmall, if_neg hik]
        exact ⟨hposi, heq⟩
  touched := give_touched h.touched k hlt

/-- **An open place gets an X button.** -/
theorem Filled.give (h : Filled caps tun k b) (hsafe : tun.safe < 2 ^ 15)
    (hk : k < tun.nofLbuttons) (hopen : tun.Open caps k) :
    Filled caps tun (k + 1) (b.finish caps tun k) := by
  have hnone : b.trans k = buttonUnassigned := by
    rw [h.kept k fun hlt => lt_irrefl k hlt.1]
    exact hopen.2
  obtain ⟨j, hj⟩ : ∃ j, j = firstFree (fun j => !b.bmap j) tun.safe := ⟨_, rfl⟩
  have hlt : j < tun.safe := hj ▸ h.free_lt hk hopen
  have hfree : ¬b.bmap j = true := by
    have hfound := free_firstFree (h.free_lt hk hopen)
    rw [hj]
    simpa using hfound
  have hpos : 0 < j := by
    rcases Nat.eq_zero_or_pos j with rfl | hpos
    · exact absurd h.zero hfree
    · exact hpos
  have htrans := @give_trans tun b k j (hlt.trans hsafe)
  -- nothing in the table is the new button
  have hnew : ∀ i < tun.nofLbuttons, b.trans i ≠ j := by
    intro i hi heq
    have hmarked := h.table i hi (by omega) (by omega)
    rw [heq, Int.toNat_natCast] at hmarked
    exact hfree hmarked
  rw [finish_open hopen.1 hnone hj]
  constructor
  · exact h.toMarks.give hk hnone hpos hlt (hlt.trans hsafe)
  · intro i hi ho
    rw [htrans]
    split_ifs with hik
    · omega
    · exact h.given i (by omega) ho
  · intro i hi ho i' hi' hne
    rw [htrans, htrans]
    split_ifs with hik' hik hik
    · omega
    · exact (hnew i (by omega)).symm
    · exact hnew i' hi'
    · exact h.apart i (by omega) ho i' hi' hne
  · intro i hi ho hwheel
    rw [htrans]
    split_ifs with hik
    · obtain ⟨hfour, hfive⟩ := h.wheel hwheel
      constructor
      · intro heq
        obtain rfl : j = 4 := by omega
        exact hfree hfour
      · intro heq
        obtain rfl : j = 5 := by omega
        exact hfree hfive
    · exact h.unwheeled i (by omega) ho hwheel
  · intro i hi
    have hik : i ≠ k := by
      rintro rfl
      exact hi ⟨Nat.lt_succ_self i, hopen⟩
    rw [htrans, if_neg hik]
    exact h.kept i fun hlti => hi ⟨by omega, hlti.2⟩

/-- **One round** of the loop. -/
theorem Filled.step (h : Filled caps tun k b) (hsafe : tun.safe < 2 ^ 15)
    (hk : k < tun.nofLbuttons) : Filled caps tun (k + 1) (b.finish caps tun k) := by
  by_cases hopen : tun.Open caps k
  · exact h.give hsafe hk hopen
  · have hnot : ¬(caps.key (k + tun.firstLbutton) = true ∧ b.trans k = buttonUnassigned) := by
      rintro ⟨hkey, hnone⟩
      rw [h.kept k fun hlt => lt_irrefl k hlt.1] at hnone
      exact hopen ⟨hkey, hnone⟩
    rw [Buttons.finish, if_neg hnot]
    exact h.skip hopen

theorem Filled.run (hsafe : tun.safe < 2 ^ 15) (n : Nat) (hn : n ≤ tun.nofLbuttons) :
    Filled caps tun n
      ((List.range n).foldl (Buttons.finish caps tun) tun.used) := by
  induction n with
  | zero =>
    refine ⟨used_marks tun, fun i hi => absurd hi (Nat.not_lt_zero i),
      fun i hi => absurd hi (Nat.not_lt_zero i), fun i hi => absurd hi (Nat.not_lt_zero i),
      fun i _ => ?_⟩
    exact congrFun ((usedWheel_trans tun tun.nofRvaluators.toNat _).trans (usedTable_trans tun _)) i
  | succ n ih =>
    rw [List.range_succ, List.foldl_append]
    exact (ih (by omega)).step hsafe (by omega)

/-- **The buttons of a device** whose table is not too long are complete. -/
theorem finishButtons_completed (hsafe : tun.safe < 2 ^ 15) :
    Completed caps tun (tun.finishButtons caps) := by
  rw [Tun.finishButtons]
  split_ifs with hzero
  · have hno : ∀ i, ¬i < tun.nofLbuttons := by
      rw [hzero]
      exact Nat.not_lt_zero
    exact ⟨fun i hi => absurd hi (hno i), fun i hi => absurd hi (hno i),
      fun i hi => absurd hi (hno i), fun _ _ => rfl, by simp⟩
  · have h := @Filled.run caps _ hsafe tun.nofLbuttons le_rfl
    exact ⟨h.given, h.apart, h.unwheeled, h.kept, h.touched⟩

/-! ### Any device -/

/-- What two records say of the buttons. -/
structure SameButtons (a c : Tun) : Prop where
  places : a.nofLbuttons = c.nofLbuttons
  first : a.firstLbutton = c.firstLbutton
  table : a.lbutToXbut = c.lbutToXbut
  wheel : a.wheel = c.wheel

theorem SameButtons.completed {a c : Tun} (h : SameButtons a c) {b : Buttons}
    (hb : Completed caps a b) : Completed caps c b := by
  have hopen : ∀ i, c.Open caps i ↔ a.Open caps i := fun i => by
    rw [Tun.Open, Tun.Open, h.first, h.table]
  constructor
  · intro i hi ho
    exact hb.given i (h.places ▸ hi) ((hopen i).mp ho)
  · intro i hi ho i' hi'
    exact hb.apart i (h.places ▸ hi) ((hopen i).mp ho) i' (h.places ▸ hi')
  · intro i hi ho hw
    exact hb.wheel i (h.places ▸ hi) ((hopen i).mp ho) (h.wheel ▸ hw)
  · intro i hi
    rw [← h.table]
    exact hb.kept i fun ⟨hlt, ho⟩ => hi ⟨h.places ▸ hlt, (hopen i).mpr ho⟩
  · intro j hj
    have hlt := hb.touched j hj
    rwa [Tun.safe, h.places] at hlt

theorem finishValuators_sameButtons {unset : Unset} (l : List Valuator) : ∀ tun : Tun,
    SameButtons (l.foldl (Tun.finishValuator caps unset) tun) tun := by
  induction l with
  | nil => exact fun tun => ⟨rfl, rfl, rfl, rfl⟩
  | cons v l ih =>
    intro tun
    have hone : SameButtons (tun.finishValuator caps unset v) tun := by
      rw [Tun.finishValuator]
      split_ifs
      · simp only [Tun.link, Tun.forceXValuators]
        split_ifs <;> exact ⟨rfl, rfl, rfl, rfl⟩
      · exact ⟨rfl, rfl, rfl, rfl⟩
    have hrest := ih (tun.finishValuator caps unset v)
    exact ⟨hrest.places.trans hone.places, hrest.first.trans hone.first,
      hrest.table.trans hone.table, hrest.wheel.trans hone.wheel⟩

theorem record_safe (H : Headers) (caps : Capabilities) (query : Nat → Option AbsInfo)
    (unset : Unset) : (record H caps query unset).tun.safe < 2 ^ 15 := by
  have hsmall := H.buttons_small
  have hparts : (record H caps query unset).buttonPart = _ := (initButtons_parts _).1
  have hnof : (record H caps query unset).nofLbuttons ≤ H.keyMax := by
    change (record H caps query unset).buttonPart.2.1 ≤ _
    rw [hparts]
    split_ifs with hfound
    · have hne : (List.range H.keyMax).filter (fun i : Nat =>
          caps.key i && decide (H.btnMisc ≤ i)) ≠ [] := by
        intro hnil
        rw [scanButtons, scan_eq_foldl, hnil] at hfound
        exact hfound.2 rfl
      rw [scanButtons, scan_eq_foldl]
      obtain ⟨lo, -, -, hlowest⟩ :=
        @foldl_found_lowest takeLast _ ⟨-1, -1, 0⟩ rfl found_sorted hne
      obtain ⟨hi, hhi, -, hhighest⟩ :=
        @foldl_found_highest _ ⟨-1, -1, 0⟩ found_sorted hne
      rw [hlowest, hhighest]
      have hlt := lt_of_mem_found hhi
      dsimp only
      omega
    · rw [initValuators_parts.2.2.2]
      exact Int.natCast_nonneg _
  have hplaces : (record H caps query unset).tun.nofLbuttons =
    (record H caps query unset).nofLbuttons.toNat := rfl
  rw [Tun.safe, hplaces]
  omega

/-- A device whose table of buttons and whose wheel have been set somehow. -/
def assigned (H : Headers) (caps : Capabilities) (query : Nat → Option AbsInfo) (unset : Unset)
    (trans : Nat → Int) (hack : Valuator → Bool) : Tun :=
  { (record H caps query unset).tun with lbutToXbut := trans, mouseWheelHack := hack }

/-- **Every button gets an X button of its own**, whatever the device, what is found in memory,
the buttons that have one already and the wheel. -/
theorem buttons_complete (H : Headers) (caps : Capabilities) (query : Nat → Option AbsInfo)
    (unset : Unset) (trans : Nat → Int) (hack : Valuator → Bool) :
    Completed caps (assigned H caps query unset trans hack)
        (((assigned H caps query unset trans hack).finishValuators caps unset).finishButtons caps) ∧
      (tunFinishUnasigned caps unset (assigned H caps query unset trans hack)).lbutToXbut =
        (((assigned H caps query unset trans hack).finishValuators caps unset).finishButtons
          caps).trans := by
  have hsame := @finishValuators_sameButtons caps unset
    (assigned H caps query unset trans hack).entries (assigned H caps query unset trans hack)
  refine ⟨hsame.completed (finishButtons_completed ?_), rfl⟩
  have hsafe : (assigned H caps query unset trans hack).safe < 2 ^ 15 :=
    record_safe H caps query unset
  rwa [Tun.safe, hsame.places, ← Tun.safe]

end LinuxConsole.Xinput

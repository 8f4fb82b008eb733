import Mathlib.Order.Interval.Set.Basic
import Mathlib.Order.ConditionallyCompleteLattice.Basic
import Mathlib.Order.SymmDiff
import Mathlib.Data.Set.SymmDiff
import Mathlib.Data.Set.Image
import Mathlib.Logic.Function.Basic

/-!
# Flipping what lies in a set

`flipOn f A m` applies `f` to the values of `m` in the set `A`.  If `f` is an involution, flipping
twice flips the **symmetric difference**, `flipOn_flipOn`.  So what has been flipped is known from
the sets alone, however many steps have been made; for intervals that share an end the symmetric
difference is the interval between the other two, `Ico_symmDiff_Ico` and its companions.

`stride p A` are the places of the numbers of `A` when they lie two apart from `p` on.
-/

namespace LinuxConsole.Lib

open scoped symmDiff

variable {ι α : Type*}

open Classical in
/-- `m` with `f` applied in `A`. -/
noncomputable def flipOn (f : α → α) (A : Set ι) (m : ι → α) : ι → α := fun i =>
  if i ∈ A then f (m i) else m i

theorem flipOn_of_mem {f : α → α} {A : Set ι} {i : ι} (h : i ∈ A) (m : ι → α) :
    flipOn f A m i = f (m i) := if_pos h

theorem flipOn_of_notMem {f : α → α} {A : Set ι} {i : ι} (h : i ∉ A) (m : ι → α) :
    flipOn f A m i = m i := if_neg h

@[simp] theorem flipOn_empty (f : α → α) (m : ι → α) : flipOn f ∅ m = m := by
  funext i
  exact flipOn_of_notMem (Set.notMem_empty i) m

/-- **Flipping twice flips the symmetric difference.** -/
theorem flipOn_flipOn {f : α → α} (hf : Function.Involutive f) (A B : Set ι) (m : ι → α) :
    flipOn f A (flipOn f B m) = flipOn f (A ∆ B) m := by
  funext i
  by_cases hA : i ∈ A
  · by_cases hB : i ∈ B
    · have hboth : i ∉ A ∆ B := by
        rw [Set.mem_symmDiff]
        exact fun h => h.elim (fun h => h.2 hB) fun h => h.2 hA
      rw [flipOn_of_mem hA, flipOn_of_mem hB, flipOn_of_notMem hboth, hf]
    · rw [flipOn_of_mem hA, flipOn_of_notMem hB, flipOn_of_mem (Set.mem_symmDiff.mpr (.inl ⟨hA, hB⟩))]
  · by_cases hB : i ∈ B
    · rw [flipOn_of_notMem hA, flipOn_of_mem hB, flipOn_of_mem (Set.mem_symmDiff.mpr (.inr ⟨hB, hA⟩))]
    · have hnone : i ∉ A ∆ B := by
        rw [Set.mem_symmDiff]
        exact fun h => h.elim (fun h => hA h.1) fun h => hB h.1
      rw [flipOn_of_notMem hA, flipOn_of_notMem hB, flipOn_of_notMem hnone]

/-! ### Intervals -/

variable [LinearOrder ι] {a b c : ι}

/-- Two intervals end to end. -/
theorem Ico_symmDiff_Ico (hab : a ≤ b) (hbc : b ≤ c) : Set.Ico a b ∆ Set.Ico b c = Set.Ico a c := by
  ext i
  rw [Set.mem_symmDiff, Set.mem_Ico, Set.mem_Ico, Set.mem_Ico]
  constructor
  · rintro (⟨⟨ha, hb⟩, -⟩ | ⟨⟨hb, hc⟩, -⟩)
    · exact ⟨ha, hb.trans_le hbc⟩
    · exact ⟨hab.trans hb, hc⟩
  · rintro ⟨ha, hc⟩
    rcases lt_or_ge i b with hb | hb
    · exact .inl ⟨⟨ha, hb⟩, fun h => absurd hb (not_lt.mpr h.1)⟩
    · exact .inr ⟨⟨hb, hc⟩, fun h => absurd h.2 (not_lt.mpr hb)⟩

/-- An interval and its beginning. -/
theorem Ico_symmDiff_left (hab : a ≤ b) (hbc : b ≤ c) :
    Set.Ico a b ∆ Set.Ico a c = Set.Ico b c := by
  rw [← Ico_symmDiff_Ico hab hbc, symmDiff_symmDiff_cancel_left]

theorem Ico_symmDiff_right (hab : a ≤ b) (hbc : b ≤ c) :
    Set.Ico b c ∆ Set.Ico a c = Set.Ico a b := by
  rw [← Ico_symmDiff_Ico hab hbc, symmDiff_comm (Set.Ico a b), symmDiff_symmDiff_cancel_left]

/-! ### Places -/

/-- The numbers of `A`, two apart from `p` on. -/
def stride (p : Nat) (A : Set Nat) : Set Nat := (fun i => p + 2 * i) '' A

theorem stride_symmDiff (p : Nat) (A B : Set Nat) : stride p (A ∆ B) = stride p A ∆ stride p B :=
  Set.image_symmDiff (fun i j (h : p + 2 * i = p + 2 * j) => by omega) A B

@[simp] theorem stride_empty (p : Nat) : stride p ∅ = ∅ := Set.image_empty _

theorem mem_stride {p b : Nat} {A : Set Nat} :
    b ∈ stride p A ↔ p ≤ b ∧ (b - p) % 2 = 0 ∧ (b - p) / 2 ∈ A := by
  constructor
  · rintro ⟨i, hi, rfl⟩
    dsimp only
    refine ⟨by omega, by omega, ?_⟩
    rwa [show (p + 2 * i - p) / 2 = i by omega]
  · rintro ⟨hp, heven, hA⟩
    exact ⟨(b - p) / 2, hA, by dsimp only; omega⟩

end LinuxConsole.Lib

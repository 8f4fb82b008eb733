import Mathlib.Data.Finset.Card
import Mathlib.Data.Finset.Filter
import Mathlib.Logic.Function.Basic

/-!
# Reference counts

Cells hold pointers to objects, and every object carries a count of the cells
that hold it.  `Balanced cells ptr refs` says that the books are right: the
record `refs p` of an object is the number of its holders, and an object that
nobody holds has no record at all, which is to say that it has been released.

The only move is to point a cell somewhere else.  `Balanced.retarget` says what
has to be done to the records then: one reference more for the new object, one
less for the old one, and the record dropped with the last reference.
-/

namespace LinuxConsole.Lib

variable {L P : Type*} [DecidableEq P]

/-- How many of the cells hold `p`. -/
def holders (cells : Finset L) (ptr : L → Option P) (p : P) : Nat :=
  (cells.filter fun c => ptr c = some p).card

/-- The record of an object with so many holders. -/
def tally : Nat → Option Nat
  | 0 => none
  | n + 1 => some (n + 1)

@[simp] theorem tally_zero : tally 0 = none := rfl

@[simp] theorem tally_succ (n : Nat) : tally (n + 1) = some (n + 1) := rfl

@[simp] theorem tally_getD (n : Nat) : (tally n).getD 0 = n := by
  cases n <;> rfl

@[simp] theorem tally_eq_none {n : Nat} : tally n = none ↔ n = 0 := by
  cases n <;> simp

theorem tally_eq_some {n m : Nat} : tally n = some m ↔ n = m ∧ 0 < m := by
  cases n with
  | zero => simp; omega
  | succ n => simp; omega

/-- The records agree with the cells. -/
def Balanced (cells : Finset L) (ptr : L → Option P) (refs : P → Option Nat) : Prop :=
  ∀ p, refs p = tally (holders cells ptr p)

/-- One reference more. -/
def addRef (refs : P → Option Nat) : Option P → P → Option Nat
  | none => refs
  | some q => Function.update refs q (some ((refs q).getD 0 + 1))

/-- One reference less, and the record dropped with the last one. -/
def dropRef (refs : P → Option Nat) : Option P → P → Option Nat
  | none => refs
  | some q => Function.update refs q (tally ((refs q).getD 0 - 1))

theorem addRef_getD (refs : P → Option Nat) (v : Option P) (p : P) :
    (addRef refs v p).getD 0 = (refs p).getD 0 + if v = some p then 1 else 0 := by
  cases v with
  | none => simp [addRef]
  | some q =>
    by_cases h : p = q
    · subst h; simp [addRef]
    · simp [addRef, h, Ne.symm h]

variable {cells : Finset L} {ptr : L → Option P} {refs : P → Option Nat} {c : L} {p : P}

theorem holders_pos (hc : c ∈ cells) (h : ptr c = some p) : 0 < holders cells ptr p :=
  Finset.card_pos.mpr ⟨c, Finset.mem_filter.mpr ⟨hc, h⟩⟩

theorem exists_holder (h : 0 < holders cells ptr p) : ∃ c ∈ cells, ptr c = some p := by
  obtain ⟨c, hc⟩ := Finset.card_pos.mp h
  exact ⟨c, Finset.mem_filter.mp hc⟩

/-- With two references there is a holder besides any given cell. -/
theorem exists_other_holder (c : L) (h : 1 < holders cells ptr p) :
    ∃ b ∈ cells, b ≠ c ∧ ptr b = some p := by
  obtain ⟨b, hb, hne⟩ := Finset.exists_mem_ne h c
  exact ⟨b, (Finset.mem_filter.mp hb).1, hne, (Finset.mem_filter.mp hb).2⟩

private theorem filter_eq_filter_away (f g : L → Option P)
    (h : ∀ b ∈ cells, f b = some p ↔ g b = some p) :
    holders cells f p = holders cells g p := by
  unfold holders
  rw [Finset.filter_congr h]

/-- A held object has a record, and the record is positive. -/
theorem Balanced.recorded (hb : Balanced cells ptr refs) (hc : c ∈ cells) (h : ptr c = some p) :
    ∃ n, refs p = some (n + 1) := by
  have hpos := holders_pos hc h
  obtain ⟨n, hn⟩ := Nat.exists_eq_succ_of_ne_zero (Nat.pos_iff_ne_zero.mp hpos)
  exact ⟨n, by rw [hb p, hn]; rfl⟩

theorem Balanced.count (hb : Balanced cells ptr refs) {n : Nat} (h : refs p = some n) :
    holders cells ptr p = n ∧ 0 < n :=
  tally_eq_some.mp ((hb p).symm.trans h)

variable [DecidableEq L]

/-- The holders of `p` after a cell has been pointed somewhere else. -/
theorem holders_update (ptr : L → Option P) (p : P) (hc : c ∈ cells) (v : Option P) :
    holders cells (Function.update ptr c v) p + (if ptr c = some p then 1 else 0) =
      holders cells ptr p + (if v = some p then 1 else 0) := by
  have split : ∀ f : L → Option P, holders cells f p =
      holders (cells.erase c) f p + if f c = some p then 1 else 0 := by
    intro f
    unfold holders
    conv_lhs => rw [← Finset.insert_erase hc]
    rw [Finset.filter_insert]
    split_ifs with h
    · rw [Finset.card_insert_of_notMem (by simp)]
    · rfl
  have away : holders (cells.erase c) (Function.update ptr c v) p =
      holders (cells.erase c) ptr p := by
    refine filter_eq_filter_away _ _ fun b hb => ?_
    rw [Function.update_of_ne (Finset.ne_of_mem_erase hb)]
  rw [split (Function.update ptr c v), split ptr, away, Function.update_self]
  omega

/-- **Balanced books stay balanced** when a cell is pointed somewhere else and
the two records are brought up to date. -/
theorem Balanced.retarget (hb : Balanced cells ptr refs) (hc : c ∈ cells) (v : Option P) :
    Balanced cells (Function.update ptr c v) (dropRef (addRef refs v) (ptr c)) := by
  intro p
  have hp := holders_update ptr p hc v
  have hadd : (addRef refs v p).getD 0 =
      holders cells ptr p + if v = some p then 1 else 0 := by
    rw [addRef_getD, hb p, tally_getD]
  by_cases hold : ptr c = some p
  · rw [hold, dropRef, Function.update_self, hadd]
    rw [if_pos hold] at hp
    congr 1
    omega
  · rw [if_neg hold] at hp
    have hdrop : dropRef (addRef refs v) (ptr c) p = addRef refs v p := by
      cases hq : ptr c with
      | none => rfl
      | some q =>
        have hne : p ≠ q := by rintro rfl; exact hold hq
        rw [dropRef, Function.update_of_ne hne]
    rw [hdrop]
    by_cases hv : v = some p
    · rw [if_pos hv, Nat.add_zero] at hp
      rw [hp, hv, addRef, Function.update_self, hb p, tally_getD, tally_succ]
    · rw [if_neg hv] at hp
      have hsame : addRef refs v p = refs p := by
        cases v with
        | none => rfl
        | some q =>
          have hne : p ≠ q := by rintro rfl; exact hv rfl
          rw [addRef, Function.update_of_ne hne]
      rw [hsame, hb p]
      congr 1
      omega

end LinuxConsole.Lib

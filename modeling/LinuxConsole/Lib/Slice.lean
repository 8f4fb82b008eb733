import Mathlib.Data.List.Range
import Mathlib.Logic.Function.Basic
import Mathlib.Tactic.Common

/-!
# Slices of a sequence

`slice f a n` lists the `n` values of a sequence from `a` on, and `splice f a bs` is the sequence
with `bs` written over the values from `a` on.  **Slices that meet are one slice**, `slice_append`,
and **pieces spliced in one behind the other are spliced in at once**, `splice_append`: this is what
makes a transfer in rounds the same as one in a single piece.  `slice_splice` reads back what has
been written.

`RowWalk` visits the places of a grid in order.  It counts the columns and asks for a new address
only at the start of a row; `RowWalk.step_at` says that it is then at the next place.
-/

namespace LinuxConsole.Lib

variable {α : Type*} (f : Nat → α)

/-! ### Slices -/

/-- The `n` values of `f` from `a` on. -/
def slice (a n : Nat) : List α := (List.range' a n).map f

@[simp] theorem length_slice (a n : Nat) : (slice f a n).length = n := by
  rw [slice, List.length_map, List.length_range']

@[simp] theorem slice_zero (a : Nat) : slice f a 0 = [] := rfl

theorem slice_succ (a n : Nat) : slice f a (n + 1) = f a :: slice f (a + 1) n := rfl

/-- **Slices that meet are one slice.** -/
theorem slice_append (a n k : Nat) : slice f a n ++ slice f (a + n) k = slice f a (n + k) := by
  have h := @List.range'_append a n k 1
  rw [Nat.one_mul] at h
  rw [slice, slice, slice, ← List.map_append, h]

theorem drop_slice (a n k : Nat) : (slice f a n).drop k = slice f (a + k) (n - k) := by
  rw [slice, slice, ← List.map_drop, List.drop_range', Nat.mul_one]

theorem take_slice (a n k : Nat) : (slice f a n).take k = slice f a (min k n) := by
  rcases Nat.le_total k n with hk | hk
  · have hsplit : slice f a k ++ slice f (a + k) (n - k) = slice f a n := by
      rw [slice_append, Nat.add_sub_cancel' hk]
    rw [← hsplit, List.take_left' (length_slice f a k), Nat.min_eq_left hk]
  · rw [List.take_of_length_le (by rw [length_slice]; exact hk), Nat.min_eq_right hk]

theorem slice_slice (a : Nat) {n j k : Nat} (h : j + k ≤ n) :
    ((slice f a n).drop j).take k = slice f (a + j) k := by
  rw [drop_slice, take_slice, Nat.min_eq_left (by omega)]

variable {f} in
theorem slice_congr {g : Nat → α} {a b n : Nat} (h : ∀ i < n, f (a + i) = g (b + i)) :
    slice f a n = slice g b n := by
  induction n generalizing a b with
  | zero => rfl
  | succ n ih =>
    have hhead : f a = g b := h 0 (Nat.succ_pos n)
    have htail : slice f (a + 1) n = slice g (b + 1) n := ih fun i hi => by
      have hi' := h (i + 1) (by omega)
      rwa [show a + (i + 1) = a + 1 + i by omega, show b + (i + 1) = b + 1 + i by omega] at hi'
    rw [slice_succ, slice_succ, hhead, htail]

/-! ### Splices -/

/-- `f` with `bs` in place of its values from `a` on. -/
def splice (a : Nat) (bs : List α) : Nat → α := fun j => if a ≤ j then (bs[j - a]?).getD (f j) else f j

theorem splice_of_lt {a j : Nat} (bs : List α) (h : j < a) : splice f a bs j = f j :=
  if_neg (by omega)

theorem splice_of_ge {a j : Nat} (bs : List α) (h : a + bs.length ≤ j) : splice f a bs j = f j := by
  rw [splice, if_pos (by omega), List.getElem?_eq_none (by omega)]
  rfl

theorem splice_inside {a j : Nat} (bs : List α) (h : a ≤ j) :
    splice f a bs j = (bs[j - a]?).getD (f j) := if_pos h

@[simp] theorem splice_nil (a : Nat) : splice f a [] = f := by
  funext j
  rw [splice, List.getElem?_nil]
  exact ite_self _

/-- **Pieces spliced in one behind the other are spliced in at once.** -/
theorem splice_append (a : Nat) (bs cs : List α) :
    splice (splice f a bs) (a + bs.length) cs = splice f a (bs ++ cs) := by
  funext j
  by_cases hbs : j < a + bs.length
  · rw [splice_of_lt _ _ hbs]
    by_cases ha : a ≤ j
    · rw [splice_inside _ _ ha, splice_inside _ _ ha, List.getElem?_append_left (by omega)]
    · rw [splice_of_lt _ _ (by omega), splice_of_lt _ _ (by omega)]
  · rw [splice_inside _ _ (by omega), splice_of_ge _ _ (by omega), splice_inside _ _ (by omega),
      List.getElem?_append_right (by omega), Nat.sub_sub]

@[simp] theorem splice_singleton (a : Nat) (b : α) : splice f a [b] = Function.update f a b := by
  funext j
  by_cases hj : j = a
  · rw [hj, Function.update_self, splice_inside _ _ (Nat.le_refl a), Nat.sub_self]
    rfl
  · rw [Function.update_of_ne hj]
    rcases Nat.lt_or_ge j a with hlt | hge
    · exact splice_of_lt _ _ hlt
    · exact splice_of_ge _ _ (show a + 1 ≤ j by omega)

/-- A splice, one value at a time. -/
theorem splice_cons (a : Nat) (b : α) (bs : List α) :
    splice f a (b :: bs) = splice (Function.update f a b) (a + 1) bs := by
  rw [← splice_singleton]
  exact (splice_append f a [b] bs).symm

variable {f} in
theorem splice_congr {g : Nat → α} {j : Nat} (h : f j = g j) (a : Nat) (bs : List α) :
    splice f a bs j = splice g a bs j := by rw [splice, splice, h]

/-- What has been spliced in is read back. -/
theorem slice_splice (a : Nat) (bs : List α) : slice (splice f a bs) a bs.length = bs := by
  induction bs generalizing f a with
  | nil => rfl
  | cons b bs ih =>
    have hfirst : splice f a (b :: bs) a = b := by
      rw [splice_inside _ _ (Nat.le_refl a), Nat.sub_self]
      rfl
    rw [List.length_cons, slice_succ, hfirst, splice_cons, ih]

/-! ### Walking through a grid -/

/-- A place of the grid: its address, its column, and the number of the place the next row begins
with. -/
structure RowWalk where
  addr : Nat
  col : Nat
  next : Nat
  deriving DecidableEq

namespace RowWalk

variable (place : Nat → Nat) (cols width : Nat)

/-- The walk when it is at place `q`, for rows of `cols` places with the addresses `place`. -/
def start (q : Nat) : RowWalk := ⟨place q, q % cols, q + (cols - q % cols)⟩

/-- The next place: `width` further on, or at the start of the next row. -/
def step (w : RowWalk) : RowWalk :=
  if w.col + 1 = cols then ⟨place w.next, 0, w.next + cols⟩
  else ⟨w.addr + width, w.col + 1, w.next⟩

variable {place cols width}

theorem mod_succ (hcols : 0 < cols) (q : Nat) :
    (q + 1) % cols = if q % cols + 1 = cols then 0 else q % cols + 1 := by
  have hlt := Nat.mod_lt q hcols
  rw [← Nat.mod_add_mod]
  split
  case isTrue hend => rw [hend, Nat.mod_self]
  case isFalse hin => exact Nat.mod_eq_of_lt (by omega)

/-- **A step leads to the next place**, if places in one row lie side by side. -/
theorem step_start (hcols : 0 < cols)
    (hrow : ∀ q, q % cols + 1 ≠ cols → place (q + 1) = place q + width) (q : Nat) :
    (start place cols q).step place cols width = start place cols (q + 1) := by
  have hlt := Nat.mod_lt q hcols
  have hmod := mod_succ hcols q
  rw [step, start, start, hmod]
  by_cases hend : q % cols + 1 = cols
  · have hnext : q + (cols - q % cols) = q + 1 := by omega
    simp only [if_pos hend, hnext, Nat.sub_zero]
  · simp only [if_neg hend, hrow q hend, RowWalk.mk.injEq, true_and]
    omega

end RowWalk

end LinuxConsole.Lib

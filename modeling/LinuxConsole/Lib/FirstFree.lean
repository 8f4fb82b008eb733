import Mathlib.Data.List.Nodup
import Mathlib.Data.List.Perm.Subperm
import Mathlib.Data.List.Range

/-!
# The first free place

`firstFree free n` is the first of the places below `n` that is free, and `n` if none is:
the loop that breaks at the first free place leaves its counter there.
**`firstFree_lt`** is the pigeonhole principle for it: a place is found if a list of less
than `n` numbers has all the places that are taken.
-/

namespace LinuxConsole.Lib

/-- `for (j = 0; j < n; j++) if (free[j]) break;` -/
def firstFree (free : Nat → Bool) (n : Nat) : Nat := ((List.range n).find? free).getD n

variable {free : Nat → Bool} {n : Nat}

/-- What is found is free. -/
theorem free_firstFree (h : firstFree free n < n) : free (firstFree free n) = true := by
  rw [firstFree] at h ⊢
  cases hfind : (List.range n).find? free with
  | none =>
    rw [hfind] at h
    exact absurd h (lt_irrefl n)
  | some j => exact List.find?_some hfind

/-- **Pigeonhole**: there is a free place if few enough are taken. -/
theorem firstFree_lt (taken : List Nat) (hlen : taken.length < n)
    (h : ∀ j < n, free j = false → j ∈ taken) : firstFree free n < n := by
  rw [firstFree]
  cases hfind : (List.range n).find? free with
  | some j => exact List.mem_range.mp (List.mem_of_find?_eq_some hfind)
  | none =>
    have hall : List.range n ⊆ taken := by
      intro j hj
      have hnot : ¬free j = true := List.find?_eq_none.mp hfind j hj
      exact h j (List.mem_range.mp hj) (Bool.eq_false_iff.mpr hnot)
    have hcount := (List.nodup_range.subperm hall).length_le
    rw [List.length_range] at hcount
    omega

end LinuxConsole.Lib

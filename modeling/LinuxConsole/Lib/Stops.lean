import Mathlib.Data.List.Basic
import Mathlib.Order.Iterate

/-!
# Going from stop to stop

Places are counted by their distance from a margin, and some of them are stops.  `nextBelow` goes to
the next stop on the way to the margin, or to the margin if there is none.

`iterate_nextBelow` says where **`n` steps** lead: to the `n`-th of the stops on the way.  Two numbers
of steps lead to the same place only at the margin, `iterate_nextBelow_eq_iff`.
-/

namespace LinuxConsole.Lib

variable (stop : Nat → Bool) {t : Nat}

/-- The stops on the way from `t` to the margin, in their order. -/
def below (t : Nat) : List Nat := (List.range t).reverse.filter stop

/-- **The next stop**, or the margin. -/
def nextBelow (t : Nat) : Nat := (below stop t).head?.getD 0

/-- The stops short of the margin. -/
def short (t : Nat) : Nat := ((below stop t).filter (0 < ·)).length

@[simp] theorem below_zero : below stop 0 = [] := rfl

theorem below_succ (t : Nat) :
    below stop (t + 1) = if stop t then t :: below stop t else below stop t := by
  rw [below, List.range_succ, List.reverse_append, List.reverse_singleton, List.singleton_append,
    List.filter_cons]
  rfl

@[simp] theorem nextBelow_zero : nextBelow stop 0 = 0 := rfl

theorem nextBelow_succ (t : Nat) :
    nextBelow stop (t + 1) = if stop t then t else nextBelow stop t := by
  rw [nextBelow, below_succ]
  split
  · rfl
  · rfl

theorem nextBelow_le (t : Nat) : nextBelow stop t ≤ t := by
  induction t with
  | zero => exact Nat.le_refl 0
  | succ t ih =>
    rw [nextBelow_succ]
    split
    · exact Nat.le_succ t
    · exact Nat.le_succ_of_le ih

theorem nextBelow_lt (h : 0 < t) : nextBelow stop t < t := by
  obtain ⟨t, rfl⟩ := Nat.exists_eq_add_of_lt h
  rw [Nat.zero_add, nextBelow_succ]
  split
  · exact Nat.lt_succ_self t
  · exact Nat.lt_succ_of_le (nextBelow_le stop t)

theorem below_nextBelow (t : Nat) : below stop (nextBelow stop t) = (below stop t).tail := by
  induction t with
  | zero => rfl
  | succ t ih =>
    rw [nextBelow_succ, below_succ]
    split
    · rfl
    · exact ih

/-- **Step after step** leads to the stops in their order. -/
theorem iterate_nextBelow (n : Nat) : ∀ t,
    (nextBelow stop)^[n + 1] t = (below stop t)[n]?.getD 0 := by
  induction n with
  | zero =>
    intro t
    rw [← List.head?_eq_getElem?]
    rfl
  | succ n ih =>
    intro t
    rw [Function.iterate_succ_apply, ih, below_nextBelow, List.getElem?_tail]

theorem getD_below_eq_zero_iff (n : Nat) : ∀ t,
    (below stop t)[n]?.getD 0 = 0 ↔ short stop t ≤ n := by
  intro t
  rw [short]
  induction t generalizing n with
  | zero => exact iff_of_true rfl (Nat.zero_le n)
  | succ t ih =>
    rw [below_succ]
    split
    case isFalse => exact ih n
    case isTrue =>
      cases t with
      | zero =>
        rw [below_zero]
        refine iff_of_true ?_ (Nat.zero_le n)
        cases n with
        | zero => rfl
        | succ n => rfl
      | succ t =>
        rw [List.filter_cons_of_pos (by simp), List.length_cons]
        cases n with
        | zero => exact iff_of_false (Nat.succ_ne_zero t) (Nat.not_succ_le_zero _)
        | succ n =>
          rw [List.getElem?_cons_succ, ih n]
          exact (Nat.succ_le_succ_iff).symm

theorem iterate_nextBelow_eq_zero_iff (n t : Nat) :
    (nextBelow stop)^[n] t = 0 ↔ t = 0 ∨ short stop t < n := by
  cases n with
  | zero => exact ⟨.inl, fun h => h.resolve_right (Nat.not_lt_zero _)⟩
  | succ n =>
    rw [iterate_nextBelow, getD_below_eq_zero_iff, Nat.lt_succ_iff]
    refine ⟨.inr, fun h => h.elim (fun h0 => ?_) id⟩
    rw [h0]
    exact Nat.zero_le n

/-- **Different numbers of steps** lead to the same place only at the margin. -/
theorem iterate_nextBelow_eq_iff (a b t : Nat) :
    (nextBelow stop)^[a] t = (nextBelow stop)^[b] t ↔
      a = b ∨ t = 0 ∨ (short stop t < a ∧ short stop t < b) := by
  have hlt (a b : Nat) (hab : a < b) (heq : (nextBelow stop)^[a] t = (nextBelow stop)^[b] t) :
      (nextBelow stop)^[a] t = 0 := by
    by_contra hne
    have hstep : (nextBelow stop)^[a + 1] t < (nextBelow stop)^[a] t := by
      rw [Function.iterate_succ_apply']
      exact nextBelow_lt stop (Nat.pos_of_ne_zero hne)
    have hrest : (nextBelow stop)^[b] t ≤ (nextBelow stop)^[a + 1] t :=
      Function.antitone_iterate_of_le_id (nextBelow_le stop) hab t
    omega
  constructor
  · intro heq
    rcases Nat.lt_trichotomy a b with hab | rfl | hab
    · have ha := (iterate_nextBelow_eq_zero_iff stop a t).mp (hlt a b hab heq)
      exact .inr (ha.imp_right fun h => ⟨h, h.trans hab⟩)
    · exact .inl rfl
    · have hb := (iterate_nextBelow_eq_zero_iff stop b t).mp (hlt b a hab heq.symm)
      exact .inr (hb.imp_right fun h => ⟨h.trans hab, h⟩)
  · rintro (rfl | h)
    · rfl
    · have ha := (iterate_nextBelow_eq_zero_iff stop a t).mpr (h.imp_right And.left)
      have hb := (iterate_nextBelow_eq_zero_iff stop b t).mpr (h.imp_right And.right)
      rw [ha, hb]

/-- The stops on the way to a margin above, by their places. -/
theorem map_below (m : Nat) (h : t ≤ m) : (below (fun k => stop (m - k)) t).map (m - ·) =
    (List.range' (m - t + 1) t).filter stop := by
  have hplaces : (List.range t).reverse.map (m - ·) = List.range' (m - t + 1) t := by
    induction t with
    | zero => rfl
    | succ t ih =>
      rw [List.range_succ, List.reverse_append, List.reverse_singleton, List.singleton_append,
        List.map_cons, ih (by omega), List.range'_succ]
      congr 2
      · omega
      · omega
  rw [← hplaces, List.filter_map]
  rfl

end LinuxConsole.Lib

import Mathlib.Data.List.Basic

/-!
# An array with gaps

`(List.range N).filterMap f` are the entries of a partial array `f` in order,
with its gaps squeezed out.  An entry stays at its own place exactly when
nothing before it is missing; otherwise everything behind the gap moves down.
-/

namespace LinuxConsole.Lib

variable {α : Type*} {f : Nat → Option α}

theorem filterMap_range_succ (f : Nat → Option α) (N : Nat) :
    (List.range (N + 1)).filterMap f = (List.range N).filterMap f ++ (f N).toList := by
  rw [List.range_succ, List.filterMap_append]
  cases h : f N <;> simp [h]

theorem length_filterMap_range_le (f : Nat → Option α) (N : Nat) :
    ((List.range N).filterMap f).length ≤ N := by
  have h := List.length_filterMap_le f (List.range N)
  rwa [List.length_range] at h

theorem ne_none_of_length {N : Nat} (h : ((List.range N).filterMap f).length = N) :
    ∀ m < N, f m ≠ none := by
  induction N with
  | zero => intro m hm; omega
  | succ N ih =>
    rw [filterMap_range_succ, List.length_append] at h
    have hN := length_filterMap_range_le f N
    cases hf : f N with
    | none =>
      rw [hf] at h
      simp only [Option.toList_none, List.length_nil] at h
      omega
    | some a =>
      rw [hf] at h
      simp only [Option.toList_some, List.length_cons, List.length_nil] at h
      intro m hm
      rcases Nat.lt_succ_iff_lt_or_eq.mp hm with hm | rfl
      · exact ih (by omega) m hm
      · rw [hf]; exact Option.some_ne_none a

/-- What stands at place `n` comes from place `n` or from behind it, and from
place `n` only if nothing before it was missing. -/
theorem origin {N n : Nat} {a : α} (h : ((List.range N).filterMap f)[n]? = some a) :
    ∃ b, n ≤ b ∧ b < N ∧ f b = some a ∧ (b = n → ∀ m < n, f m ≠ none) := by
  induction N with
  | zero => simp at h
  | succ N ih =>
    rw [filterMap_range_succ] at h
    by_cases hn : n < ((List.range N).filterMap f).length
    · rw [List.getElem?_append_left hn] at h
      obtain ⟨b, hnb, hb, hf, hall⟩ := ih h
      exact ⟨b, hnb, by omega, hf, hall⟩
    · rw [List.getElem?_append_right (by omega)] at h
      have hle := length_filterMap_range_le f N
      cases hf : f N with
      | none => rw [hf] at h; simp at h
      | some x =>
        rw [hf, Option.toList_some] at h
        obtain ⟨hzero, hx⟩ : n - ((List.range N).filterMap f).length = 0 ∧ x = a := by
          rw [List.getElem?_singleton] at h
          split at h
          · exact ⟨‹_›, Option.some.inj h⟩
          · cases h
        refine ⟨N, by omega, by omega, by rw [hf, hx], ?_⟩
        intro hN
        subst hN
        exact ne_none_of_length (by omega)

theorem stays {N n : Nat} (hn : n < N) (h : ∀ m ≤ n, f m ≠ none) :
    ((List.range N).filterMap f)[n]? = f n := by
  induction N with
  | zero => omega
  | succ N ih =>
    have full : ∀ M ≤ n, ((List.range M).filterMap f).length = M := by
      intro M
      induction M with
      | zero => intro _; rfl
      | succ M ihM =>
        intro hM
        obtain ⟨a, ha⟩ := Option.ne_none_iff_exists'.mp (h M (by omega))
        rw [filterMap_range_succ, List.length_append, ihM (by omega), ha]
        rfl
    obtain ⟨a, ha⟩ := Option.ne_none_iff_exists'.mp (h n (Nat.le_refl n))
    rw [filterMap_range_succ]
    rcases Nat.lt_succ_iff_lt_or_eq.mp hn with hlt | rfl
    · have hstay := ih hlt
      rw [ha] at hstay ⊢
      have hlen := (List.getElem?_eq_some_iff.mp hstay).1
      rw [List.getElem?_append_left hlen, hstay]
    · have hlen := full n (Nat.le_refl n)
      rw [List.getElem?_append_right (by omega), hlen, ha]
      simp

theorem filterMap_range_mul (f : Nat → Option α) (b : Nat) (a : Nat) :
    (List.range (a * b)).filterMap f =
      (List.range a).flatMap fun i => (List.range b).filterMap fun j => f (i * b + j) := by
  induction a with
  | zero => simp
  | succ a ih =>
    rw [List.range_succ, List.flatMap_append, ← ih, Nat.succ_mul, List.range_add,
      List.filterMap_append, List.filterMap_map]
    simp

end LinuxConsole.Lib

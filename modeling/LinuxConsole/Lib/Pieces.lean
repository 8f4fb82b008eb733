import Mathlib.Data.List.Basic

/-!
# Two concatenations compared piece by piece

If the pieces of one concatenation are never shorter than those of the other,
the two concatenations are equal only when all their pieces are.
-/

namespace LinuxConsole.Lib

variable {α β : Type*} {f g : α → List β}

theorem length_flatMap_le {as : List α} (hle : ∀ a ∈ as, (g a).length ≤ (f a).length) :
    (as.flatMap g).length ≤ (as.flatMap f).length := by
  induction as with
  | nil => exact Nat.le_refl _
  | cons a as ih =>
    have ha := hle a List.mem_cons_self
    have has := ih fun b hb => hle b (List.mem_cons_of_mem _ hb)
    simp only [List.flatMap_cons, List.length_append]
    omega

/-- **Equal concatenations have equal pieces**, if no piece of the first is
shorter than its counterpart. -/
theorem pieces_eq {as : List α} (hle : ∀ a ∈ as, (g a).length ≤ (f a).length)
    (h : as.flatMap f = as.flatMap g) : ∀ a ∈ as, f a = g a := by
  induction as with
  | nil => intro a ha; cases ha
  | cons b as ih =>
    have hb := hle b List.mem_cons_self
    have has := length_flatMap_le fun a ha => hle a (List.mem_cons_of_mem _ ha)
    rw [List.flatMap_cons, List.flatMap_cons] at h
    have hlen := congrArg List.length h
    simp only [List.length_append] at hlen
    obtain ⟨h1, h2⟩ := List.append_inj h (by omega)
    intro a ha
    rcases List.mem_cons.mp ha with rfl | ha
    · exact h1
    · exact ih (fun c hc => hle c (List.mem_cons_of_mem _ hc)) h2 a ha

end LinuxConsole.Lib

import Mathlib.Data.List.Basic

/-!
# Lists that alternate

`Alternates a b l` says that `l` is `a, b, a, b, …`, as long as it is.

A switch that is off at first and reports each of its changes makes such a list.
**`Reported.flip`**: the reports go on alternating, and the switch is on exactly if its last
report says so.
-/

namespace LinuxConsole.Lib

variable {α : Type*}

/-- `l` is `a, b, a, b, …`. -/
def Alternates (a b : α) : List α → Prop
  | [] => True
  | x :: l => x = a ∧ Alternates b a l

variable {a b : α}

@[simp] theorem alternates_nil : Alternates a b [] := trivial

@[simp] theorem alternates_cons (x : α) (l : List α) :
    Alternates a b (x :: l) ↔ x = a ∧ Alternates b a l := Iff.rfl

theorem Alternates.eq_or_eq {l : List α} (h : Alternates a b l) {x : α} (hx : x ∈ l) :
    x = a ∨ x = b := by
  induction l generalizing a b with
  | nil => simp at hx
  | cons y l ih =>
    rcases List.mem_cons.mp hx with rfl | hx
    · exact Or.inl h.1
    · exact (ih h.2 hx).symm

theorem Alternates.concat [DecidableEq α] (hab : a ≠ b) {l : List α} (h : Alternates a b l) :
    Alternates a b (l ++ [if l.getLast? = some a then b else a]) := by
  induction l generalizing a b with
  | nil => simp
  | cons x l ih =>
    obtain ⟨rfl, hrest⟩ := h
    have hlast : (if (x :: l).getLast? = some x then b else x) =
        if l.getLast? = some b then x else b := by
      cases l with
      | nil => simp
      | cons y l =>
        rw [List.getLast?_cons_cons]
        obtain ⟨z, hz⟩ := Option.isSome_iff_exists.mp
          (List.getLast?_isSome.mpr (List.cons_ne_nil y l))
        rcases hrest.eq_or_eq (List.mem_of_getLast? hz) with rfl | rfl
        · simp [hz, hab.symm]
        · simp [hz, hab]
    rw [hlast]
    exact ⟨rfl, ih hab.symm hrest⟩

/-- The reports of a switch that was off at first. -/
structure Reported (on off : α) (state : Bool) (l : List α) : Prop where
  alternates : Alternates on off l
  last : state = true ↔ l.getLast? = some on

theorem reported_nil (on off : α) : Reported on off false [] :=
  ⟨trivial, by simp⟩

/-- **A change of the switch, reported.** -/
theorem Reported.flip {on off : α} (hne : on ≠ off) {state : Bool} {l : List α}
    (h : Reported on off state l) :
    Reported on off (!state) (l ++ [if state then off else on]) := by
  classical
  have hnext : (if state then off else on) = if l.getLast? = some on then off else on :=
    if_congr h.last rfl rfl
  constructor
  · rw [hnext]
    exact h.alternates.concat hne
  · cases state with
    | false => simp
    | true => simp [hne.symm]

end LinuxConsole.Lib

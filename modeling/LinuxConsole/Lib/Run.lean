import Mathlib.Data.List.Induction
import Mathlib.Order.Basic

/-!
# Runs of a deterministic system

A system here is a step function `step : σ → α → σ`: a state, an action, the
state after it.  `run` folds it over a list of actions.

`Along step P s as` says that `P` holds of every state and action met on the
way.  It is what a condition on the steps of a run means, and it is also what a
safety statement about the steps means, so the two are compared by the same
lemmas: `Along.invariant` carries an invariant to the end of a run whose steps
meet a condition, and `along_congr` turns an equivalence proved for one step
under an invariant into an equivalence about whole runs.
-/

namespace LinuxConsole.Lib

variable {σ α : Type*}

/-- The state a run ends in. -/
def run (step : σ → α → σ) (s : σ) (as : List α) : σ := as.foldl step s

@[simp] theorem run_nil (step : σ → α → σ) (s : σ) : run step s [] = s := rfl

@[simp] theorem run_cons (step : σ → α → σ) (s : σ) (a : α) (as : List α) :
    run step s (a :: as) = run step (step s a) as := rfl

theorem run_append (step : σ → α → σ) (s : σ) (as bs : List α) :
    run step s (as ++ bs) = run step (run step s as) bs := List.foldl_append

/-- `P` holds of every state of the run together with the action taken there. -/
def Along (step : σ → α → σ) (P : σ → α → Prop) : σ → List α → Prop
  | _, [] => True
  | s, a :: as => P s a ∧ Along step P (step s a) as

instance decidableAlong (step : σ → α → σ) (P : σ → α → Prop) [∀ s a, Decidable (P s a)] :
    ∀ (as : List α) (s : σ), Decidable (Along step P s as)
  | [], _ => .isTrue trivial
  | a :: as, s => @instDecidableAnd _ _ _ (decidableAlong step P as (step s a))

variable {step : σ → α → σ} {P Q : σ → α → Prop} {I : σ → Prop}

@[simp] theorem along_nil (s : σ) : Along step P s [] := trivial

@[simp] theorem along_cons (s : σ) (a : α) (as : List α) :
    Along step P s (a :: as) ↔ P s a ∧ Along step P (step s a) as := Iff.rfl

theorem along_true {s : σ} (as : List α) : Along step (fun _ _ => True) s as := by
  induction as generalizing s with
  | nil => trivial
  | cons a as ih => exact ⟨trivial, ih⟩

theorem along_and_mem {A : α → Prop} {s : σ} {as : List α} (has : ∀ a ∈ as, A a) :
    Along step (fun s a => A a ∧ P s a) s as ↔ Along step P s as := by
  induction as generalizing s with
  | nil => exact Iff.rfl
  | cons a as ih =>
    have ih' := ih (s := step s a) fun b hb => has b (List.mem_cons_of_mem a hb)
    rw [along_cons, along_cons, ih', and_assoc]
    exact and_iff_right (has a List.mem_cons_self)

theorem along_append (s : σ) (as bs : List α) :
    Along step P s (as ++ bs) ↔ Along step P s as ∧ Along step P (run step s as) bs := by
  induction as generalizing s with
  | nil => simp
  | cons a as ih => simp [ih, and_assoc]

theorem along_map {τ : Type*} {f : τ → σ} {step' : τ → α → τ}
    (hf : ∀ t a, f (step' t a) = step (f t) a) (t : τ) (as : List α) :
    Along step' (fun t a => P (f t) a) t as ↔ Along step P (f t) as := by
  induction as generalizing t with
  | nil => exact Iff.rfl
  | cons a as ih => rw [along_cons, along_cons, ih, hf]

/-- **An invariant holds at the end of every run whose steps meet the
condition.** -/
theorem Along.invariant (hstep : ∀ s a, I s → P s a → I (step s a)) :
    ∀ {s : σ} {as : List α}, I s → Along step P s as → I (run step s as) := by
  intro s as
  induction as generalizing s with
  | nil => intro h _; exact h
  | cons a as ih => intro h hp; exact ih (hstep s a h hp.1) hp.2

theorem run_invariant (hstep : ∀ s a, I s → I (step s a)) {s : σ} (h : I s) (as : List α) :
    I (run step s as) := by
  induction as generalizing s with
  | nil => exact h
  | cons a as ih => exact ih (hstep s a h)

theorem Along.imp (hstep : ∀ s a, I s → P s a → I (step s a))
    (himp : ∀ s a, I s → P s a → Q s a) :
    ∀ {s : σ} {as : List α}, I s → Along step P s as → Along step Q s as := by
  intro s as
  induction as generalizing s with
  | nil => intro _ _; trivial
  | cons a as ih => intro h hp; exact ⟨himp s a h hp.1, ih (hstep s a h hp.1) hp.2⟩

/-- **One step's equivalence is the runs' equivalence.**  If under an invariant
`P` and `Q` agree step by step and `P` keeps the invariant, they agree along
every run. -/
theorem along_congr (hstep : ∀ s a, I s → P s a → I (step s a))
    (hiff : ∀ s a, I s → (P s a ↔ Q s a)) :
    ∀ {s : σ} {as : List α}, I s → (Along step P s as ↔ Along step Q s as) := by
  intro s as
  induction as generalizing s with
  | nil => intro _; exact Iff.rfl
  | cons a as ih =>
    intro h
    constructor
    · rintro ⟨hp, hr⟩
      exact ⟨(hiff s a h).mp hp, (ih (hstep s a h hp)).mp hr⟩
    · rintro ⟨hq, hr⟩
      have hp := (hiff s a h).mpr hq
      exact ⟨hp, (ih (hstep s a h hp)).mpr hr⟩

/-- **A property that every step decides anew.**  If a step leaves `G` true exactly when `G` was
true before it and `P` holds of the step, then a run leaves `G` true exactly when `G` was true
before it and `P` holds along it. -/
theorem run_iff_along {G : σ → Prop} (hstep : ∀ s a, I s → I (step s a))
    (hiff : ∀ s a, I s → (G (step s a) ↔ G s ∧ P s a)) :
    ∀ {s : σ} (as : List α), I s → (G (run step s as) ↔ G s ∧ Along step P s as) := by
  intro s as
  induction as generalizing s with
  | nil => simp
  | cons a as ih =>
    intro h
    rw [run_cons, along_cons, ih (hstep s a h), hiff s a h, and_assoc]

/-- **What a flag remembers.**  If a step leaves a flag set only by setting it or by keeping it, a
flag that is set at the end of a run and was not at its start has been set by one step of the run
and kept by all later ones. -/
theorem Along.remembers {G : σ → Prop} {Sets Keeps : σ → α → Prop}
    (hstep : ∀ s a, I s → P s a → I (step s a))
    (hflag : ∀ s a, I s → P s a → G (step s a) → Sets s a ∨ (G s ∧ Keeps s a)) {s : σ}
    (hs : I s) (hclear : ¬G s) (as : List α) (hp : Along step P s as) (hset : G (run step s as)) :
    ∃ pre a post, as = pre ++ a :: post ∧ Sets (run step s pre) a ∧
      Along step Keeps (step (run step s pre) a) post := by
  induction as using List.reverseRecOn with
  | nil => exact absurd hset hclear
  | append_singleton as a ih =>
    rw [along_append] at hp
    have hi : I (run step s as) := hp.1.invariant hstep hs
    rw [run_append] at hset
    rcases hflag _ a hi hp.2.1 hset with hnow | ⟨hbefore, hkeeps⟩
    · exact ⟨as, a, [], rfl, hnow, trivial⟩
    · obtain ⟨pre, b, post, rfl, hsets, hrest⟩ := ih hp.1 hbefore
      refine ⟨pre, b, post ++ [a], by simp, hsets, ?_⟩
      rw [along_append]
      rw [run_append] at hkeeps
      exact ⟨hrest, hkeeps, trivial⟩

theorem Along.observe {β : Type*} {f : σ → β} :
    ∀ {s : σ} {as : List α}, Along step (fun s a => f (step s a) = f s) s as →
      f (run step s as) = f s := by
  intro s as
  induction as generalizing s with
  | nil => intro _; rfl
  | cons a as ih => intro h; exact (ih h.2).trans h.1

/-- **An observation that can only grow** is unchanged by a run exactly if no step of the run
changes it. -/
theorem observe_eq_iff {β : Type*} [PartialOrder β] {f : σ → β}
    (hstep : ∀ s a, I s → I (step s a)) (hmono : ∀ s a, I s → f s ≤ f (step s a)) :
    ∀ {s : σ}, I s → ∀ as : List α,
      (f (run step s as) = f s ↔ Along step (fun s a => f (step s a) = f s) s as) := by
  have hrun : ∀ (as : List α) (s : σ), I s → f s ≤ f (run step s as) := by
    intro as
    induction as with
    | nil => exact fun s _ => le_refl _
    | cons a as ih => exact fun s h => (hmono s a h).trans (ih _ (hstep s a h))
  intro s h as
  induction as generalizing s with
  | nil => exact ⟨fun _ => trivial, fun _ => rfl⟩
  | cons a as ih =>
    constructor
    · intro heq
      have hrest := hrun as _ (hstep s a h)
      have hfirst : f (step s a) = f s := le_antisymm (hrest.trans heq.le) (hmono s a h)
      exact ⟨hfirst, (ih (hstep s a h)).mp (heq.trans hfirst.symm)⟩
    · exact fun hp => hp.observe

end LinuxConsole.Lib

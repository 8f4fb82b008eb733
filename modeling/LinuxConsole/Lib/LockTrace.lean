import Mathlib.Data.List.Basic

/-!
# The trace of a lock

A path through a program takes and gives back one lock, and leaves a list of
events.  `Disciplined` says that the path treats the lock as one that is not
recursive: it never takes it while it holds it, and gives it back as often as it
takes it.  `lockAfter` follows the lock along the path and is how a trace put
together from pieces is judged (`lockAfter_append`); the two agree
(`disciplined_iff`).
-/

namespace LinuxConsole.Lib

inductive LockEvent
  | acquire
  | release
  deriving DecidableEq

/-- No event takes the lock when the events before it have taken it more often
than they gave it back, and all of them together give it back as often as they
take it. -/
def Disciplined (t : List LockEvent) : Prop :=
  (∀ p q, t = p ++ .acquire :: q → p.count .acquire = p.count .release) ∧
    t.count .acquire = t.count .release

/-- Whether the lock is held after the events, `none` when it was taken while
held or given back while free. -/
def lockAfter (held : Bool) : List LockEvent → Option Bool
  | [] => some held
  | .acquire :: t => if held then none else lockAfter true t
  | .release :: t => if held then lockAfter false t else none

@[simp] theorem lockAfter_nil (b : Bool) : lockAfter b [] = some b := rfl

@[simp] theorem lockAfter_acquire (t : List LockEvent) :
    lockAfter false (.acquire :: t) = lockAfter true t := rfl

@[simp] theorem lockAfter_reacquire (t : List LockEvent) :
    lockAfter true (.acquire :: t) = none := rfl

@[simp] theorem lockAfter_release (t : List LockEvent) :
    lockAfter true (.release :: t) = lockAfter false t := rfl

theorem lockAfter_append (b : Bool) (s t : List LockEvent) :
    lockAfter b (s ++ t) = (lockAfter b s).bind (fun c => lockAfter c t) := by
  induction s generalizing b with
  | nil => rfl
  | cons e s ih =>
    cases e <;> cases b <;> simp [lockAfter, ih]

/-- What `Disciplined` says of the rest of a path that holds the lock as `b`
says. -/
private def DisciplinedFrom (b : Bool) (t : List LockEvent) : Prop :=
  (∀ p q, t = p ++ .acquire :: q → p.count .acquire + b.toNat = p.count .release) ∧
    t.count .acquire + b.toNat = t.count .release

private theorem disciplinedFrom_acquire {b : Bool} {t : List LockEvent} :
    DisciplinedFrom b (.acquire :: t) ↔ b = false ∧ DisciplinedFrom true t := by
  constructor
  · rintro ⟨hp, hc⟩
    have hb : b = false := by
      have := hp [] t rfl
      cases b <;> simp_all
    subst hb
    refine ⟨rfl, ?_, by simpa using hc⟩
    intro p q hpq
    have := hp (.acquire :: p) q (by rw [hpq, List.cons_append])
    simpa using this
  · rintro ⟨rfl, hp, hc⟩
    refine ⟨?_, by simpa using hc⟩
    intro p q hpq
    cases p with
    | nil => rfl
    | cons e p =>
      obtain ⟨rfl, ht⟩ := List.cons.inj hpq
      simpa using hp p q ht

private theorem disciplinedFrom_release {b : Bool} {t : List LockEvent} :
    DisciplinedFrom b (.release :: t) ↔ b = true ∧ DisciplinedFrom false t := by
  constructor
  · rintro ⟨hp, hc⟩
    have hb : b = true := by
      -- With the lock free, one more release can never be made up for.
      by_contra hb
      obtain rfl : b = false := by simpa using hb
      by_cases hm : LockEvent.acquire ∈ t
      · obtain ⟨as, bs, hab, has⟩ := List.eq_append_cons_of_mem hm
        have := hp (.release :: as) bs (by rw [hab, List.cons_append])
        simp [List.count_eq_zero_of_not_mem has] at this
      · simp [List.count_eq_zero_of_not_mem hm] at hc
    subst hb
    refine ⟨rfl, ?_, by simpa using hc⟩
    intro p q hpq
    have := hp (.release :: p) q (by rw [hpq, List.cons_append])
    simpa using this
  · rintro ⟨rfl, hp, hc⟩
    refine ⟨?_, by simpa using hc⟩
    intro p q hpq
    cases p with
    | nil => cases hpq
    | cons e p =>
      obtain ⟨rfl, ht⟩ := List.cons.inj hpq
      simpa using hp p q ht

private theorem disciplinedFrom_iff (b : Bool) (t : List LockEvent) :
    DisciplinedFrom b t ↔ lockAfter b t = some false := by
  induction t generalizing b with
  | nil => cases b <;> simp [DisciplinedFrom]
  | cons e t ih =>
    cases e with
    | acquire => rw [disciplinedFrom_acquire, ih]; cases b <;> simp [lockAfter]
    | release => rw [disciplinedFrom_release, ih]; cases b <;> simp [lockAfter]

/-- **A path is disciplined when following the lock along it ends with the lock
free.** -/
theorem disciplined_iff (t : List LockEvent) : Disciplined t ↔ lockAfter false t = some false := by
  rw [← disciplinedFrom_iff]
  simp [Disciplined, DisciplinedFrom]

instance (t : List LockEvent) : Decidable (Disciplined t) :=
  decidable_of_iff _ (disciplined_iff t).symm

end LinuxConsole.Lib

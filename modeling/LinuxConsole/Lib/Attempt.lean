import Mathlib.Tactic.Common

/-!
# Programs that may stop half way

A program in `ExceptT ε (StateM σ)` changes a state and either returns or stops.  A plan says
the same in other terms: `KeepsTo A B e m w plan` is **the simulation of a plan** by a program,
from each state that `A` relates to `w`.  Where the plan goes on the program returns, in a state
that `B` relates to what the plan has come to, and where the plan stops the program stops with
`e`.  The rules follow the ways in which such programs are put together.
-/

namespace LinuxConsole.Lib

variable {ε σ α β ω ω' : Type}

/-- What follows a program that returns. -/
theorem run_bind_ok {m : ExceptT ε (StateM σ) α} (f : α → ExceptT ε (StateM σ) β) {s s' : σ}
    {a : α} (h : m.run s = (.ok a, s')) : (m >>= f).run s = (f a).run s' := by
  simp only [ExceptT.run, bind, ExceptT.bind, ExceptT.mk, StateT.bind] at h ⊢
  rw [h]
  rfl

/-- Nothing follows one that stops. -/
theorem run_bind_error {m : ExceptT ε (StateM σ) α} (f : α → ExceptT ε (StateM σ) β) {s s' : σ}
    {e : ε} (h : m.run s = (.error e, s')) : (m >>= f).run s = (.error e, s') := by
  simp only [ExceptT.run, bind, ExceptT.bind, ExceptT.mk, StateT.bind] at h ⊢
  rw [h]
  rfl

/-- What a program has come to, where the plan goes on or stops. -/
def Reaches (B : σ → ω → Prop) (e : ε) (run : Except ε α × σ) : Except ω' ω → Prop
  | .ok w => ∃ a s, run = (.ok a, s) ∧ B s w
  | .error _ => ∃ s, run = (.error e, s)

/-- **A program keeps to a plan.** -/
def KeepsTo (A B : σ → ω → Prop) (e : ε) (m : ExceptT ε (StateM σ) α) (w : ω)
    (plan : Except ω' ω) : Prop :=
  ∀ s, A s w → Reaches B e (m.run s) plan

variable {A B C : σ → ω → Prop} {e : ε} {w : ω}

theorem keepsTo_pure (a : α) :
    KeepsTo A A e (pure a : ExceptT ε (StateM σ) α) w (.ok w : Except ω' ω) :=
  fun s hs => ⟨a, s, rfl, hs⟩

theorem keepsTo_bind {m : ExceptT ε (StateM σ) α} {f : α → ExceptT ε (StateM σ) β}
    {plan : Except ω' ω} {g : ω → Except ω' ω} (hm : KeepsTo A B e m w plan)
    (hf : ∀ a w', plan = .ok w' → KeepsTo B C e (f a) w' (g w')) :
    KeepsTo A C e (m >>= f) w (plan >>= g) := by
  intro s hs
  have hrun := hm s hs
  cases plan with
  | error stop =>
    obtain ⟨s', hrun⟩ := hrun
    exact ⟨s', run_bind_error f hrun⟩
  | ok w' =>
    obtain ⟨a, s', hrun, hs'⟩ := hrun
    have hrest := hf a w' rfl s' hs'
    rw [← run_bind_ok f hrun] at hrest
    exact hrest

theorem keepsTo_modify {f : σ → σ} {m : ExceptT ε (StateM σ) α} {w' : ω} {plan : Except ω' ω}
    (h : ∀ s, A s w → B (f s) w') (hm : KeepsTo B C e m w' plan) :
    KeepsTo A C e ((modify f : ExceptT ε (StateM σ) PUnit) >>= fun _ => m) w plan := by
  intro s hs
  have hrest := hm (f s) (h s hs)
  rw [← run_bind_ok (fun _ => m) (show (modify f : ExceptT ε (StateM σ) PUnit).run s =
    (.ok ⟨⟩, f s) from rfl)] at hrest
  exact hrest

theorem KeepsTo.modify {m : ExceptT ε (StateM σ) α} {plan : Except ω' ω} {f : σ → σ}
    (hm : KeepsTo A B e m w plan) (h : ∀ s w', B s w' → C (f s) w') :
    KeepsTo A C e (m >>= fun _ => (modify f : ExceptT ε (StateM σ) PUnit)) w plan := by
  intro s hs
  have hrun := hm s hs
  cases plan with
  | error stop =>
    obtain ⟨s', hrun⟩ := hrun
    exact ⟨s', run_bind_error _ hrun⟩
  | ok w' =>
    obtain ⟨a, s', hrun, hs'⟩ := hrun
    exact ⟨⟨⟩, f s', run_bind_ok _ hrun, h s' w' hs'⟩

theorem KeepsTo.then {m : ExceptT ε (StateM σ) α} {plan : Except ω' ω} {f : ω → ω}
    (hm : KeepsTo A B e m w plan) (h : ∀ s w', B s w' → C s (f w')) :
    KeepsTo A C e m w (plan >>= fun w' => .ok (f w')) := by
  intro s hs
  have hrun := hm s hs
  cases plan with
  | error stop => exact hrun
  | ok w' =>
    obtain ⟨a, s', hrun, hs'⟩ := hrun
    exact ⟨a, s', hrun, h s' w' hs'⟩

end LinuxConsole.Lib

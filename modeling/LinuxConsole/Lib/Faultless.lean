import Mathlib.Tactic.Common

/-!
# Programs that must not fault

A program in `StateT σ Option` changes a state and returns, or faults: it follows a pointer to what
is not there.  `Meets P m Q`: from every state with `P` the program `m` **does not fault**, and what
it returns and the state it leaves meet `Q`.  The rules follow the ways in which such programs are
put together; `exists_run` is the rule for a list of them that keep an invariant.

`Retains I m` says less: **where `m` does not fault**, it keeps `I`.
-/

namespace LinuxConsole.Lib

variable {σ α β : Type} {P P' : σ → Prop} {Q R : α → σ → Prop} {T : β → σ → Prop}

/-- **What a program returns and leaves**, if it does not fault. -/
def Meets (P : σ → Prop) (m : StateT σ Option α) (Q : α → σ → Prop) : Prop :=
  ∀ s, P s → ∃ a s', m.run s = some (a, s') ∧ Q a s'

theorem Meets.run {m : StateT σ Option α} (h : Meets P m Q) {s : σ} (hs : P s) :
    ∃ a s', m.run s = some (a, s') ∧ Q a s' := h s hs

theorem Meets.imp {m : StateT σ Option α} (h : Meets P m Q) (hP : ∀ s, P' s → P s)
    (hQ : ∀ a s, Q a s → R a s) : Meets P' m R := by
  intro s hs
  obtain ⟨a, s', hrun, hq⟩ := h s (hP s hs)
  exact ⟨a, s', hrun, hQ a s' hq⟩

theorem Meets.mono {m : StateT σ Option α} (h : Meets P m Q) (hQ : ∀ a s, Q a s → R a s) :
    Meets P m R := h.imp (fun _ hs => hs) hQ

theorem meets_pure (a : α) (h : ∀ s, P s → Q a s) : Meets P (pure a : StateT σ Option α) Q :=
  fun s hs => ⟨a, s, rfl, h s hs⟩

theorem meets_bind {m : StateT σ Option α} {f : α → StateT σ Option β} (hm : Meets P m R)
    (hf : ∀ a, Meets (R a) (f a) T) : Meets P (m >>= f) T := by
  intro s hs
  obtain ⟨a, s', hrun, hr⟩ := hm s hs
  obtain ⟨b, s'', hrun', ht⟩ := hf a s' hr
  refine ⟨b, s'', ?_, ht⟩
  rw [StateT.run_bind, hrun]
  exact hrun'

theorem meets_modify {f : σ → σ} {Q : PUnit → σ → Prop} (h : ∀ s, P s → Q ⟨⟩ (f s)) :
    Meets P (modify f : StateT σ Option PUnit) Q := fun s hs => ⟨⟨⟩, f s, rfl, h s hs⟩

theorem meets_ite {c : Prop} [Decidable c] {m n : StateT σ Option α} (hm : c → Meets P m Q)
    (hn : ¬c → Meets P n Q) : Meets P (if c then m else n) Q := by
  split_ifs with h
  · exact hm h
  · exact hn h

/-- **A run of programs that keep an invariant** does not fault and keeps it. -/
theorem exists_run {γ : Type} {step : γ → StateT σ Option PUnit} {I : σ → Prop}
    (hstep : ∀ c, Meets I (step c) fun _ => I) (cs : List γ) {s : σ} (hs : I s) :
    ∃ s', (cs.forM step).run s = some (⟨⟩, s') ∧ I s' := by
  induction cs generalizing s with
  | nil => exact ⟨s, rfl, hs⟩
  | cons c cs ih =>
    obtain ⟨_, s', hrun, hs'⟩ := hstep c s hs
    obtain ⟨s'', hrun', hs''⟩ := ih hs'
    refine ⟨s'', ?_, hs''⟩
    change (step c >>= fun _ => cs.forM step).run s = _
    rw [StateT.run_bind, hrun]
    exact hrun'

/-! ### Where they do not fault -/

section Retains

variable {I : σ → Prop}

/-- A program that keeps `I`, if it does not fault. -/
structure Retains (I : σ → Prop) (m : StateT σ Option α) : Prop where
  of_run : ∀ s a s', I s → m.run s = some (a, s') → I s'

/-- A program that only reads. -/
theorem retains_read {m : StateT σ Option α} (h : ∀ s, m.run s = (m.run s).map fun p => (p.1, s)) :
    Retains I m := by
  refine ⟨fun s a s' hs hrun => ?_⟩
  rw [h, Option.map_eq_some_iff] at hrun
  obtain ⟨p, _, hp⟩ := hrun
  cases hp
  exact hs

theorem retains_pure (a : α) : Retains I (pure a : StateT σ Option α) := retains_read fun _ => rfl

theorem retains_get : Retains I (get : StateT σ Option σ) := retains_read fun _ => rfl

theorem retains_modify {f : σ → σ} (h : ∀ s, I s → I (f s)) :
    Retains I (modify f : StateT σ Option PUnit) := by
  refine ⟨fun s a s' hs hrun => ?_⟩
  cases hrun
  exact h s hs

theorem retains_bind {m : StateT σ Option α} {f : α → StateT σ Option β} (hm : Retains I m)
    (hf : ∀ a, Retains I (f a)) : Retains I (m >>= f) := by
  refine ⟨fun s b s' hs hrun => ?_⟩
  rw [StateT.run_bind] at hrun
  obtain ⟨⟨a, s''⟩, hrun₁, hrun₂⟩ := Option.bind_eq_some_iff.mp hrun
  exact (hf a).of_run s'' b s' (hm.of_run s a s'' hs hrun₁) hrun₂

theorem retains_ite {c : Prop} [Decidable c] {m n : StateT σ Option α} (hm : Retains I m)
    (hn : Retains I n) : Retains I (if c then m else n) := by
  split_ifs
  · exact hm
  · exact hn

theorem retains_run {γ : Type} {step : γ → StateT σ Option PUnit} (h : ∀ c, Retains I (step c))
    (cs : List γ) : Retains I (cs.forM step) := by
  induction cs with
  | nil => exact retains_pure _
  | cons c cs ih => exact retains_bind (h c) fun _ => ih

end Retains

end LinuxConsole.Lib

import LinuxConsole.Lib.Run

/-!
# Views of a run

What one party sees of a system that others act on too.  `view` is what it sees
of a state and `own` says which actions are its own.

Two properties of single steps make what it sees a function of its own actions:
its own actions take equal views to equal views (`Congruent`), and no action of
another is seen.  The first is a property of the system; the second is asked of
the actions that a run meets.  **`view_run_filter`** says that such a run looks
like the run of the party's own actions alone, and `view_run_congr` that two such
runs look the same when these are the same.
-/

namespace LinuxConsole.Lib

variable {σ α β : Type*}

/-- Own actions take equal views to equal views. -/
def Congruent (step : σ → α → σ) (view : σ → β) (own : α → Prop) : Prop :=
  ∀ s t a, own a → view s = view t → view (step s a) = view (step t a)

variable {step : σ → α → σ} {view : σ → β} {own : α → Prop} [DecidablePred own]
  {P : σ → α → Prop}

/-- **A run whose foreign actions are not seen looks like the run of the own
actions alone.** -/
theorem view_run_filter (hown : Congruent step view own)
    (hother : ∀ s a, ¬ own a → P s a → view (step s a) = view s) :
    ∀ {s t : σ} {as : List α}, view s = view t → Along step (fun s a => ¬ own a → P s a) s as →
      view (run step s as) = view (run step t (as.filter own)) := by
  intro s t as
  induction as generalizing s t with
  | nil => intro hst _; exact hst
  | cons a as ih =>
    rintro hst ⟨ha, hrest⟩
    by_cases hoa : own a
    · rw [List.filter_cons_of_pos (by simpa using hoa)]
      exact ih (hown s t a hoa hst) hrest
    · rw [List.filter_cons_of_neg (by simpa using hoa)]
      exact ih ((hother s a hoa (ha hoa)).trans hst) hrest

/-- **Two runs with the same own actions look the same.** -/
theorem view_run_congr (hown : Congruent step view own)
    (hother : ∀ s a, ¬ own a → P s a → view (step s a) = view s) {s t : σ} {as bs : List α}
    (hst : view s = view t) (hsame : as.filter own = bs.filter own)
    (has : Along step (fun s a => ¬ own a → P s a) s as)
    (hbs : Along step (fun s a => ¬ own a → P s a) t bs) :
    view (run step s as) = view (run step t bs) := by
  have hleft := view_run_filter hown hother (rfl : view s = view s) has
  have hright := view_run_filter hown hother hst.symm hbs
  rw [hleft, hsame, ← hright]

end LinuxConsole.Lib

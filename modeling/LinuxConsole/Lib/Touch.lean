/-!
# Computations that read through pointers

`Touch ρ σ α` is a computation on a state `σ` that records the pointers it reads through, of type
`ρ`.  It goes no further when it has read through a pointer that leads nowhere.

`Only good x s` says that everything `x` reads through, started in `s`, is good.  Each way of putting
computations together has a rule for it; **`only_each`** is the one for a loop.
-/

namespace LinuxConsole.Lib

/-- A computation with the pointers that it reads through. -/
def Touch (ρ σ α : Type) : Type := σ → List ρ × Option (α × σ)

namespace Touch

variable {ρ σ α β ι : Type}

/-- Nothing is read. -/
def ret (a : α) : Touch ρ σ α := fun s => ([], some (a, s))

/-- One computation and then another. -/
def andThen (x : Touch ρ σ α) (f : α → Touch ρ σ β) : Touch ρ σ β := fun s =>
  match (x s).2 with
  | none => ((x s).1, none)
  | some r => ((x s).1 ++ (f r.1 r.2).1, (f r.1 r.2).2)

instance : Monad (Touch ρ σ) where
  pure := ret
  bind := andThen

/-- The state. -/
def look : Touch ρ σ σ := fun s => ([], some (s, s))

/-- Change the state. -/
def change (f : σ → σ) : Touch ρ σ Unit := fun s => ([], some ((), f s))

/-- Read through a pointer. -/
def touch (p : ρ) : Touch ρ σ Unit := fun s => ([p], some ((), s))

/-- Read through a pointer that leads nowhere. -/
def fault (p : ρ) : Touch ρ σ α := fun _ => ([p], none)

/-- A computation that is made only if the condition holds. -/
def guarded (c : Prop) [Decidable c] (x : Touch ρ σ Unit) : Touch ρ σ Unit := if c then x else ret ()

/-- A loop over a list. -/
def each (f : ι → Touch ρ σ Unit) : List ι → Touch ρ σ Unit
  | [] => pure ()
  | i :: is => do
    f i
    each f is

/-- All that the computation reads through is good. -/
def Only (good : ρ → Prop) (x : Touch ρ σ α) (s : σ) : Prop := ∀ p ∈ (x s).1, good p

variable {good : ρ → Prop} {s : σ}

@[simp] theorem only_pure (a : α) : Only good (pure a : Touch ρ σ α) s ↔ True := by
  constructor
  · exact fun _ => trivial
  · intro _ p hp
    cases hp

/-- **The rule for one computation and then another.** -/
theorem only_bind (x : Touch ρ σ α) (f : α → Touch ρ σ β) :
    Only good (x >>= f) s ↔
      Only good x s ∧ ∀ a s', (x s).2 = some (a, s') → Only good (f a) s' := by
  have hbind : (x >>= f) s = andThen x f s := rfl
  rw [Only, hbind, andThen.eq_def]
  cases hx : (x s).2 with
  | none =>
    refine ⟨fun h => ⟨h, fun a s' ha => ?_⟩, fun h => h.1⟩
    cases ha
  | some r =>
    constructor
    · intro h
      refine ⟨fun p hp => h p (List.mem_append_left _ hp), fun a s' ha p hp => ?_⟩
      obtain rfl := Option.some.inj ha
      exact h p (List.mem_append_right _ hp)
    · rintro ⟨hfirst, hrest⟩ p hp
      rcases List.mem_append.mp hp with hp | hp
      · exact hfirst p hp
      · exact hrest r.1 r.2 rfl p hp

@[simp] theorem only_look_bind (f : σ → Touch ρ σ β) :
    Only good (look >>= f) s ↔ Only good (f s) s := by
  rw [only_bind]
  constructor
  · exact fun h => h.2 s s rfl
  · intro h
    refine ⟨fun p hp => absurd hp List.not_mem_nil, fun a s' ha => ?_⟩
    obtain ⟨rfl, rfl⟩ := Prod.mk.inj (Option.some.inj ha)
    exact h

@[simp] theorem only_change (g : σ → σ) : Only good (change g : Touch ρ σ Unit) s ↔ True := by
  constructor
  · exact fun _ => trivial
  · intro _ p hp
    cases hp

@[simp] theorem only_change_bind (g : σ → σ) (f : Unit → Touch ρ σ β) :
    Only good (change g >>= f) s ↔ Only good (f ()) (g s) := by
  rw [only_bind]
  constructor
  · exact fun h => h.2 () (g s) rfl
  · intro h
    refine ⟨fun p hp => absurd hp List.not_mem_nil, fun a s' ha => ?_⟩
    obtain ⟨-, rfl⟩ := Prod.mk.inj (Option.some.inj ha)
    exact h

@[simp] theorem only_touch (p : ρ) : Only good (touch p : Touch ρ σ Unit) s ↔ good p := by
  constructor
  · exact fun h => h p (List.mem_singleton.mpr rfl)
  · intro h q hq
    rw [List.mem_singleton.mp hq]
    exact h

@[simp] theorem only_touch_bind (p : ρ) (f : Unit → Touch ρ σ β) :
    Only good (touch p >>= f) s ↔ good p ∧ Only good (f ()) s := by
  rw [only_bind, only_touch]
  constructor
  · exact fun h => ⟨h.1, h.2 () s rfl⟩
  · rintro ⟨hp, hf⟩
    refine ⟨hp, fun a s' ha => ?_⟩
    obtain ⟨-, rfl⟩ := Prod.mk.inj (Option.some.inj ha)
    exact hf

@[simp] theorem only_fault (p : ρ) : Only good (fault p : Touch ρ σ α) s ↔ good p := by
  constructor
  · exact fun h => h p (List.mem_singleton.mpr rfl)
  · intro h q hq
    rw [List.mem_singleton.mp hq]
    exact h

theorem only_guarded (c : Prop) [Decidable c] (x : Touch ρ σ Unit) :
    Only good (guarded c x) s ↔ (c → Only good x s) := by
  rw [guarded]
  split
  · next hc => exact ⟨fun h _ => h, fun h => h hc⟩
  · next hc => exact ⟨fun _ hyes => absurd hyes hc, fun _ => (only_pure ()).mpr trivial⟩

/-- The computation reads through nothing. -/
def Silent (x : Touch ρ σ α) : Prop := ∀ s, (x s).1 = []

theorem Silent.only {x : Touch ρ σ α} (h : Silent x) : Only good x s := by
  intro p hp
  rw [h s] at hp
  cases hp

theorem silent_pure (a : α) : Silent (pure a : Touch ρ σ α) := fun _ => rfl

theorem silent_look : Silent (look : Touch ρ σ σ) := fun _ => rfl

theorem silent_change (f : σ → σ) : Silent (change f : Touch ρ σ Unit) := fun _ => rfl

theorem Silent.bind {x : Touch ρ σ α} {f : α → Touch ρ σ β} (hx : Silent x)
    (hf : ∀ a, Silent (f a)) : Silent (x >>= f) := by
  intro s
  have hbind : (x >>= f) s = andThen x f s := rfl
  rw [hbind, andThen.eq_def]
  cases (x s).2 with
  | none => exact hx s
  | some r =>
    dsimp only
    rw [hx s, hf r.1 r.2]
    rfl

theorem Silent.guarded {x : Touch ρ σ Unit} (hx : Silent x) (c : Prop) [Decidable c] :
    Silent (guarded c x) := by
  rw [Touch.guarded]
  split
  · exact hx
  · exact silent_pure ()

/-- What follows a computation that reads through nothing. -/
theorem Silent.only_bind {x : Touch ρ σ α} (h : Silent x) (f : α → Touch ρ σ β)
    (hf : ∀ a s', Only good (f a) s') : Only good (x >>= f) s :=
  (Touch.only_bind x f).mpr ⟨h.only, fun a s' _ => hf a s'⟩

/-- What is followed by a computation that reads through nothing. -/
theorem only_bind_silent (x : Touch ρ σ α) {f : α → Touch ρ σ β} (hf : ∀ a, Silent (f a)) :
    Only good (x >>= f) s ↔ Only good x s :=
  (only_bind x f).trans (and_iff_left fun a _ _ => (hf a).only)

/-- **The rule for a loop**: what one round needs does not depend on the rounds before it, and a
round that has what it needs comes to its end. -/
theorem only_each {I : σ → Prop} {Q : ι → Prop} (f : ι → Touch ρ σ Unit)
    (hround : ∀ i s, I s → (Only good (f i) s ↔ Q i))
    (hkeeps : ∀ i s, I s → Q i → ∃ s', (f i s).2 = some ((), s') ∧ I s') :
    ∀ (is : List ι) {s : σ}, I s → (Only good (each f is) s ↔ ∀ i ∈ is, Q i) := by
  intro is
  induction is with
  | nil =>
    intro s _
    rw [each, only_pure, true_iff]
    exact fun i hi => absurd hi List.not_mem_nil
  | cons i is ih =>
    intro s hs
    rw [each, only_bind, hround i s hs, List.forall_mem_cons]
    refine and_congr_right fun hi => ?_
    obtain ⟨s', hs', hI⟩ := hkeeps i s hs hi
    rw [← ih hI]
    constructor
    · exact fun h => h () s' hs'
    · intro h a t ht
      obtain ⟨-, rfl⟩ := Prod.mk.inj (Option.some.inj (hs'.symm.trans ht))
      exact h

end Touch

end LinuxConsole.Lib

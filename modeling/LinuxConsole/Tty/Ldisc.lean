import Mathlib.Data.List.Count
import Mathlib.Logic.Function.Basic
import LinuxConsole.Lib.Run

/-!
# Line disciplines

Who calls the discipline of a line takes a reference to it, and `tty_set_ldisc` waits until there
is none before it puts another in its place.  The steps here are what the code does under
`tty_ldisc_lock` or between two of its sleeps; any number of callers and of `tty_set_ldisc` follow
each other in any order.

A reference keeps the discipline as long as no two `tty_set_ldisc` are at work on one line, and
there is nothing that keeps them apart (`references_keep_discipline`).
-/

namespace LinuxConsole.Ldisc

open Lib

/-! ### The state -/

/-- An entry of `tty_ldiscs`; `defined` is `LDISC_FLAG_DEFINED`. -/
structure Entry where
  defined : Bool
  refcount : Nat

/-- The discipline of a line, `tty->ldisc`; `enabled` is `TTY_LDISC`. -/
structure Line where
  num : Nat
  refcount : Nat
  enabled : Bool

/-- What a `tty_set_ldisc` does next. -/
inductive Stage where
  | get (ldisc : Nat) (again : Bool)
  | copy (ldisc : Nat)
  | lock (ldisc old : Nat)
  | giveBack (ldisc : Nat)
  | wait (ldisc : Nat)
  | assign (ldisc old : Nat)
  | opening (ldisc old : Nat)
  | drop (ldisc old : Nat)
  | reassign (old : Nat)
  | reopening (old : Nat)
  | dropOld (old : Nat)
  | assignTty (old : Nat)
  | openingTty (old : Nat)
  | putOld (old : Nat)
  | enable

/-- The table, the lines and the calls of `tty_set_ldisc` under way, with the line of each;
`holders` are the references, with the line and the discipline they were taken of. -/
structure Ldiscs where
  table : Nat → Entry
  line : Nat → Line
  setter : Nat → Option (Nat × Stage)
  holders : List (Nat × Nat)
  crashed : Bool

def nTty : Nat := 0
def nrLdiscs : Nat := 16

/-! ### The table -/

/-- `tty_ldisc_get`; `ok` is `try_module_get`. -/
def ttyLdiscGet (table : Nat → Entry) (disc : Nat) (ok : Bool) : Option (Nat → Entry) :=
  if disc < nrLdiscs ∧ (table disc).defined ∧ ok then
    some (Function.update table disc
      { table disc with refcount := (table disc).refcount + 1 })
  else none

/-- `tty_ldisc_put`; `none` where it is a `BUG`. -/
def ttyLdiscPut (table : Nat → Entry) (disc : Nat) : Option (Nat → Entry) :=
  if disc < nrLdiscs ∧ (table disc).refcount ≠ 0 then
    some (Function.update table disc
      { table disc with refcount := (table disc).refcount - 1 })
  else none

/-- `tty_register_ldisc`. -/
def ttyRegisterLdisc (table : Nat → Entry) (disc : Nat) (newLdisc : Bool) : Nat → Entry :=
  if nrLdiscs ≤ disc then table
  else if newLdisc then Function.update table disc ⟨true, 0⟩
  else if (table disc).refcount ≠ 0 then table
  else Function.update table disc { table disc with defined := false }

/-- `tty_ldisc_assign`. -/
def ttyLdiscAssign (line : Line) (num : Nat) : Line := { line with num := num, refcount := 0 }

/-! ### `tty_set_ldisc` -/

/-- The label `restart`. -/
def restart (line : Line) (ldisc : Nat) : Option Stage :=
  if line.num = ldisc then none else some (.get ldisc false)

/-- **One stage**: the table, the line and what comes next, `none` at the end.  `ok` says that the
module is there, that the discipline opens or that no signal is pending.  The whole is `none` where
the kernel crashes: a `BUG`, a null pointer or the `panic`. -/
def advance (table : Nat → Entry) (line : Line) (ok : Bool) :
    Stage → Option ((Nat → Entry) × Line × Option Stage)
  | .get ldisc again =>
    match ttyLdiscGet table ldisc ok with
    | some table => some (table, line, some (.copy ldisc))
    | none => some (table, line, if again then none else some (.get ldisc true))
  | .copy ldisc => some (table, line, some (.lock ldisc line.num))
  | .lock ldisc old =>
    if line.refcount ≠ 0 then some (table, line, some (.giveBack ldisc))
    else some (table, { line with enabled := false }, some (.assign ldisc old))
  | .giveBack ldisc => (ttyLdiscPut table ldisc).map fun table => (table, line, some (.wait ldisc))
  | .wait ldisc =>
    if !ok then some (table, line, none)
    else if line.refcount ≠ 0 then some (table, line, some (.wait ldisc))
    else some (table, line, restart line ldisc)
  | .assign ldisc old => some (table, ttyLdiscAssign line ldisc, some (.opening ldisc old))
  | .opening ldisc old =>
    some (table, line, some (if ok then .putOld old else .drop ldisc old))
  | .drop ldisc old =>
    (ttyLdiscPut table ldisc).map fun table => (table, line, some (.reassign old))
  | .reassign old =>
    (ttyLdiscGet table old ok).map fun table =>
      (table, ttyLdiscAssign line old, some (.reopening old))
  | .reopening old => some (table, line, some (if ok then .putOld old else .dropOld old))
  | .dropOld old => (ttyLdiscPut table old).map fun table => (table, line, some (.assignTty old))
  | .assignTty old =>
    (ttyLdiscGet table nTty ok).map fun table =>
      (table, ttyLdiscAssign line nTty, some (.openingTty old))
  | .openingTty old => if ok then some (table, line, some (.putOld old)) else none
  | .putOld old => (ttyLdiscPut table old).map fun table => (table, line, some .enable)
  | .enable => some (table, { line with enabled := true }, none)

/-! ### Steps -/

/-- A reference is taken or given back, `tty_set_ldisc` is called or goes on, a discipline is
registered or taken away. -/
inductive Act where
  | ref (t : Nat)
  | deref (t num : Nat)
  | set (p t ldisc : Nat)
  | go (p : Nat) (ok : Bool)
  | register (disc : Nat) (newLdisc : Bool)

/-- `tty_ldisc_ref`, or one try of `tty_ldisc_ref_wait`. -/
def ttyLdiscRef (s : Ldiscs) (t : Nat) : Ldiscs :=
  if (s.line t).enabled then
    { s with
      line := Function.update s.line t
        { s.line t with refcount := (s.line t).refcount + 1 }
      holders := (t, (s.line t).num) :: s.holders }
  else s

/-- `tty_ldisc_deref`, of a reference that was taken. -/
def ttyLdiscDeref (s : Ldiscs) (t num : Nat) : Ldiscs :=
  if (t, num) ∈ s.holders then
    { s with
      line := Function.update s.line t
        { s.line t with refcount := (s.line t).refcount - 1 }
      holders := s.holders.erase (t, num) }
  else s

/-- A process calls `tty_set_ldisc`. -/
def ttySetLdisc (s : Ldiscs) (p t ldisc : Nat) : Ldiscs :=
  if s.setter p = none ∧ ldisc < nrLdiscs then
    let next := (restart (s.line t) ldisc).map fun stage => (t, stage)
    { s with setter := Function.update s.setter p next }
  else s

/-- It goes on. -/
def goOn (s : Ldiscs) (p : Nat) (ok : Bool) : Ldiscs :=
  match s.setter p with
  | none => s
  | some (t, stage) =>
    match advance s.table (s.line t) ok stage with
    | none => { s with crashed := true }
    | some (table, line, next) =>
      { s with
        table := table
        line := Function.update s.line t line
        setter := Function.update s.setter p (next.map fun stage => (t, stage)) }

/-- One step; there is none after a crash. -/
def step (s : Ldiscs) (act : Act) : Ldiscs :=
  if s.crashed then s
  else match act with
  | .ref t => ttyLdiscRef s t
  | .deref t num => ttyLdiscDeref s t num
  | .set p t ldisc => ttySetLdisc s p t ldisc
  | .go p ok => goOn s p ok
  | .register disc newLdisc => { s with table := ttyRegisterLdisc s.table disc newLdisc }

/-! ### References -/

/-- The discipline is being changed: nobody is to have a reference. -/
def Stage.changing : Stage → Bool
  | .get .. | .copy .. | .lock .. | .giveBack .. | .wait .. => false
  | _ => true

/-- A line that a stage leaves alone, or that has neither references nor the flag. -/
def Fits (line : Line) (stage : Stage) : Prop :=
  stage.changing = true → line.enabled = false ∧ line.refcount = 0

/-- **What a stage does to the line**: it leaves the count as it is, and the discipline too unless
the count is 0. -/
theorem advance_spec {table table' : Nat → Entry} {line line' : Line} {ok : Bool} {stage : Stage}
    {next : Option Stage} (hfits : Fits line stage)
    (h : advance table line ok stage = some (table', line', next)) :
    (∀ stage', next = some stage' → Fits line' stage') ∧ line'.refcount = line.refcount ∧
      (line.refcount ≠ 0 → line'.num = line.num) := by
  have hsame (hline : line' = line)
      (hnext : ∀ stage', next = some stage' → stage'.changing = true → stage.changing = true) :
      (∀ stage', next = some stage' → Fits line' stage') ∧ line'.refcount = line.refcount ∧
        (line.refcount ≠ 0 → line'.num = line.num) := by
    subst hline
    exact ⟨fun stage' hstage' hchanging => hfits (hnext stage' hstage' hchanging), rfl,
      fun _ => rfl⟩
  have hassign {num : Nat} (hchanging : stage.changing = true)
      (hline : line' = ttyLdiscAssign line num) :
      (∀ stage', next = some stage' → Fits line' stage') ∧ line'.refcount = line.refcount ∧
        (line.refcount ≠ 0 → line'.num = line.num) := by
    obtain ⟨henabled, hzero⟩ := hfits hchanging
    subst hline
    exact ⟨fun _ _ _ => ⟨henabled, rfl⟩, hzero.symm, fun hne => absurd hzero hne⟩
  cases stage with
  | get ldisc again =>
    rw [advance] at h
    cases hget : ttyLdiscGet table ldisc ok with
    | some table₁ =>
      rw [hget] at h
      cases h
      exact hsame rfl fun stage' hstage' hchanging => by cases hstage'; cases hchanging
    | none =>
      rw [hget] at h
      cases h
      refine hsame rfl fun stage' hstage' hchanging => ?_
      split_ifs at hstage'
      cases hstage'
      cases hchanging
  | copy ldisc =>
    cases h
    exact hsame rfl fun stage' hstage' hchanging => by cases hstage'; cases hchanging
  | lock ldisc old =>
    rw [advance] at h
    split_ifs at h with hne
    · cases h
      exact hsame rfl fun stage' hstage' hchanging => by cases hstage'; cases hchanging
    · rw [not_not] at hne
      cases h
      exact ⟨fun _ _ _ => ⟨rfl, hne⟩, rfl, fun _ => rfl⟩
  | wait ldisc =>
    rw [advance] at h
    split_ifs at h with hok hne
    · cases h
      exact hsame rfl fun stage' hstage' _ => by cases hstage'
    · cases h
      exact hsame rfl fun stage' hstage' hchanging => by cases hstage'; cases hchanging
    · cases h
      refine hsame rfl fun stage' hstage' hchanging => ?_
      rw [restart] at hstage'
      split_ifs at hstage'
      cases hstage'
      cases hchanging
  | giveBack ldisc =>
    obtain ⟨_, _, heq⟩ := Option.map_eq_some_iff.mp h
    cases heq
    exact hsame rfl fun stage' hstage' hchanging => by cases hstage'; cases hchanging
  | assign ldisc old =>
    cases h
    exact hassign rfl rfl
  | opening ldisc old =>
    cases h
    exact hsame rfl fun _ _ _ => rfl
  | drop ldisc old =>
    obtain ⟨_, _, heq⟩ := Option.map_eq_some_iff.mp h
    cases heq
    exact hsame rfl fun _ _ _ => rfl
  | reassign old =>
    obtain ⟨_, _, heq⟩ := Option.map_eq_some_iff.mp h
    cases heq
    exact hassign rfl rfl
  | reopening old =>
    cases h
    exact hsame rfl fun _ _ _ => rfl
  | dropOld old =>
    obtain ⟨_, _, heq⟩ := Option.map_eq_some_iff.mp h
    cases heq
    exact hsame rfl fun _ _ _ => rfl
  | assignTty old =>
    obtain ⟨_, _, heq⟩ := Option.map_eq_some_iff.mp h
    cases heq
    exact hassign rfl rfl
  | openingTty old =>
    rw [advance] at h
    split_ifs at h
    cases h
    exact hsame rfl fun _ _ _ => rfl
  | putOld old =>
    obtain ⟨_, _, heq⟩ := Option.map_eq_some_iff.mp h
    cases heq
    exact hsame rfl fun _ _ _ => rfl
  | enable =>
    cases h
    exact ⟨fun stage' hstage' => (by cases hstage'), rfl, fun _ => rfl⟩

/-- **References and counts agree**, and the lines that are being changed have none. -/
structure Held (s : Ldiscs) : Prop where
  count : ∀ t, (s.line t).refcount = s.holders.countP fun h => h.1 = t
  num : ∀ h ∈ s.holders, (s.line h.1).num = h.2
  fits : ∀ {p t stage}, s.setter p = some (t, stage) → Fits (s.line t) stage
  alone : ∀ {p q t stage stage'}, s.setter p = some (t, stage) → s.setter q = some (t, stage') →
    p = q

/-- Nobody else is at work on the line when `tty_set_ldisc` is called. -/
def Alone (s : Ldiscs) : Act → Prop
  | .set _ t _ => ∀ p stage, s.setter p ≠ some (t, stage)
  | _ => True

variable {s : Ldiscs}

theorem Held.ref (h : Held s) (t : Nat) : Held (ttyLdiscRef s t) := by
  rw [ttyLdiscRef]
  split_ifs with henabled
  · refine ⟨fun x => ?_, fun r hr => ?_, fun {p x stage} hset hchanging => ?_, h.alone⟩
    · dsimp only
      rw [Function.update_apply, List.countP_cons, ← h.count]
      by_cases hx : x = t
      · simp [hx]
      · simp [hx, Ne.symm hx]
    · dsimp only
      rw [Function.update_apply]
      rcases List.mem_cons.mp hr with rfl | hr
      · rw [if_pos rfl]
      · split_ifs with hx
        · rw [← hx]
          exact h.num r hr
        · exact h.num r hr
    · obtain ⟨hflag, hzero⟩ := h.fits hset hchanging
      have hx : x ≠ t := by
        rintro rfl
        exact Bool.false_ne_true (hflag.symm.trans henabled)
      dsimp only
      rw [Function.update_of_ne hx]
      exact ⟨hflag, hzero⟩
  · exact h

theorem Held.deref (h : Held s) (t num : Nat) : Held (ttyLdiscDeref s t num) := by
  rw [ttyLdiscDeref]
  split_ifs with hmem
  · refine ⟨fun x => ?_, fun r hr => ?_, fun {p x stage} hset hchanging => ?_, h.alone⟩
    · dsimp only
      rw [Function.update_apply, List.countP_erase, ← h.count]
      by_cases hx : x = t
      · simp [hx, hmem]
      · simp [hx, Ne.symm hx]
    · have hold := h.num r (List.mem_of_mem_erase hr)
      dsimp only
      rw [Function.update_apply]
      split_ifs with hx
      · rw [← hx]
        exact hold
      · exact hold
    · obtain ⟨hflag, hzero⟩ := h.fits hset hchanging
      dsimp only
      rw [Function.update_apply]
      split_ifs with hx
      · subst hx
        exact ⟨hflag, by rw [hzero]⟩
      · exact ⟨hflag, hzero⟩
  · exact h

theorem Held.set (h : Held s) {p t ldisc : Nat} (halone : Alone s (.set p t ldisc)) :
    Held (ttySetLdisc s p t ldisc) := by
  rw [ttySetLdisc]
  split_ifs with hfree
  · have hnew {q x : Nat} {stage : Stage} (hset : Function.update s.setter p
        ((restart (s.line t) ldisc).map fun stage => (t, stage)) q = some (x, stage)) :
        q = p ∧ x = t ∧ stage.changing = false ∨ q ≠ p ∧ s.setter q = some (x, stage) := by
      rw [Function.update_apply] at hset
      split_ifs at hset with hq
      · obtain ⟨stage', hstage', heq⟩ := Option.map_eq_some_iff.mp hset
        cases heq
        rw [restart] at hstage'
        split_ifs at hstage'
        cases hstage'
        exact .inl ⟨hq, rfl, rfl⟩
      · exact .inr ⟨hq, hset⟩
    refine ⟨h.count, h.num, fun hset => ?_, fun hset hset' => ?_⟩
    · rcases hnew hset with ⟨_, rfl, hstage⟩ | ⟨_, hold⟩
      · exact fun hchanging => absurd (hstage.symm.trans hchanging) Bool.false_ne_true
      · exact h.fits hold
    · rcases hnew hset with ⟨rfl, rfl, _⟩ | ⟨_, hold⟩
      · rcases hnew hset' with ⟨rfl, _⟩ | ⟨_, hold'⟩
        · rfl
        · exact absurd hold' (halone _ _)
      · rcases hnew hset' with ⟨_, rfl, _⟩ | ⟨_, hold'⟩
        · exact absurd hold (halone _ _)
        · exact h.alone hold hold'
  · exact h

theorem goOn_crash {p t : Nat} {ok : Bool} {stage : Stage} (hset : s.setter p = some (t, stage))
    (h : advance s.table (s.line t) ok stage = none) :
    goOn s p ok = { s with crashed := true } := by
  rw [goOn, hset]
  dsimp only
  rw [h]

theorem goOn_next {p t : Nat} {ok : Bool} {stage : Stage} {table : Nat → Entry} {line : Line}
    {next : Option Stage} (hset : s.setter p = some (t, stage))
    (h : advance s.table (s.line t) ok stage = some (table, line, next)) :
    goOn s p ok = { s with
      table := table
      line := Function.update s.line t line
      setter := Function.update s.setter p (next.map fun stage => (t, stage)) } := by
  rw [goOn, hset]
  dsimp only
  rw [h]

theorem Held.go (h : Held s) (p : Nat) (ok : Bool) : Held (goOn s p ok) := by
  cases hset : s.setter p with
  | none =>
    rw [goOn, hset]
    exact h
  | some work =>
    obtain ⟨t, stage⟩ := work
    cases hadvance : advance s.table (s.line t) ok stage with
    | none =>
      rw [goOn_crash hset hadvance]
      exact ⟨h.count, h.num, h.fits, h.alone⟩
    | some result =>
      obtain ⟨table, line, next⟩ := result
      obtain ⟨hnext, hcount, hnum⟩ := advance_spec (h.fits hset) hadvance
      rw [goOn_next hset hadvance]
      have hwork {q x : Nat} {stage' : Stage} (hset' : Function.update s.setter p
          (next.map fun stage => (t, stage)) q = some (x, stage')) :
          q = p ∧ x = t ∧ next = some stage' ∨ q ≠ p ∧ x ≠ t ∧ s.setter q = some (x, stage') := by
        rw [Function.update_apply] at hset'
        split_ifs at hset' with hq
        · obtain ⟨_, hstage', heq⟩ := Option.map_eq_some_iff.mp hset'
          cases heq
          exact .inl ⟨hq, rfl, hstage'⟩
        · refine .inr ⟨hq, ?_, hset'⟩
          rintro rfl
          exact hq (h.alone hset' hset)
      refine ⟨fun x => ?_, fun r hr => ?_, fun {q x stage'} hset' => ?_, fun hset₁ hset₂ => ?_⟩
      · dsimp only
        rw [Function.update_apply, ← h.count]
        split_ifs with hx
        · rw [hx, hcount]
        · rfl
      · have hold := h.num r hr
        dsimp only
        rw [Function.update_apply]
        split_ifs with hx
        · rw [← hold, hx]
          refine hnum fun hzero => ?_
          rw [h.count, List.countP_eq_zero] at hzero
          exact hzero r hr (decide_eq_true hx)
        · exact hold
      · dsimp only
        rcases hwork hset' with ⟨_, rfl, hstage'⟩ | ⟨_, hx, hold⟩
        · rw [Function.update_self]
          exact hnext _ hstage'
        · rw [Function.update_of_ne hx]
          exact h.fits hold
      · rcases hwork hset₁ with ⟨rfl, rfl, _⟩ | ⟨_, hx, hold⟩
        · rcases hwork hset₂ with ⟨rfl, _⟩ | ⟨_, hx, _⟩
          · rfl
          · exact absurd rfl hx
        · rcases hwork hset₂ with ⟨_, rfl, _⟩ | ⟨_, _, hold'⟩
          · exact absurd rfl hx
          · exact h.alone hold hold'

/-- **A step keeps the references**, if no `tty_set_ldisc` meets another. -/
theorem Held.step (h : Held s) {act : Act} (halone : Alone s act) : Held (step s act) := by
  unfold Ldisc.step
  split_ifs
  · exact h
  · cases act with
    | ref t => exact h.ref t
    | deref t num => exact h.deref t num
    | set p t ldisc => exact h.set halone
    | go p ok => exact h.go p ok
    | register disc newLdisc => exact ⟨h.count, h.num, h.fits, h.alone⟩

/-- No reference has been taken and no `tty_set_ldisc` is under way. -/
def Fresh (s : Ldiscs) : Prop :=
  s.holders = [] ∧ (∀ t, (s.line t).refcount = 0) ∧ ∀ p, s.setter p = none

theorem Fresh.held (h : Fresh s) : Held s := by
  obtain ⟨hholders, hcount, hset⟩ := h
  refine ⟨fun t => ?_, fun r hr => ?_, fun {p _ _} hwork => ?_, fun {p _ _ _ _} hwork => ?_⟩
  · rw [hcount, hholders]
    rfl
  · rw [hholders] at hr
    exact absurd hr List.not_mem_nil
  · rw [hset] at hwork
    cases hwork
  · rw [hset] at hwork
    cases hwork

/-- Two `tty_set_ldisc` on one line, each past the wait before the other has changed it. -/
def overlapping : List Act :=
  [.set 0 0 1, .set 1 0 2, .go 0 true, .go 1 true, .go 0 true, .go 1 true, .go 0 true, .go 1 true,
    .go 0 true, .go 0 true, .go 0 true, .go 0 true, .ref 0, .go 1 true]

/-- Three disciplines, and lines that all have the first. -/
def threeLdiscs : Ldiscs where
  table := fun disc => ⟨decide (disc < 3), 1⟩
  line := fun _ => ⟨nTty, 0, true⟩
  setter := fun _ => none
  holders := []
  crashed := false

/-- **A reference keeps the discipline** and is counted as long as no two `tty_set_ldisc` are at
work on one line; where two are, a discipline can be changed under a reference. -/
theorem references_keep_discipline :
    (∀ s acts, Fresh s → Along step Alone s acts →
      (∀ h ∈ (run step s acts).holders, ((run step s acts).line h.1).num = h.2) ∧
      ∀ t, ((run step s acts).line t).refcount =
        (run step s acts).holders.countP fun h => h.1 = t) ∧
    ∃ s acts, Fresh s ∧
      ∃ h ∈ (run step s acts).holders, ((run step s acts).line h.1).num ≠ h.2 := by
  constructor
  · intro s acts hfresh halone
    have hheld : Held (run step s acts) :=
      halone.invariant (fun _ _ h => h.step) hfresh.held
    exact ⟨hheld.num, hheld.count⟩
  · exact ⟨threeLdiscs, overlapping, ⟨rfl, fun _ => rfl, fun _ => rfl⟩, (0, 1), by decide,
      by decide⟩

/-- A reference is taken, `tty_set_ldisc` waits for it and changes the discipline when it is given
back, and then another is taken. -/
def waits : List Act :=
  [.ref 0, .set 0 0 1, .go 0 true, .go 0 true, .go 0 true, .go 0 true, .go 0 true, .deref 0 0,
    .go 0 true, .go 0 true, .go 0 true, .go 0 true, .go 0 true, .go 0 true, .go 0 true,
    .go 0 true, .ref 0]

theorem references_keep_discipline_waits :
    (run step threeLdiscs waits).holders = [(0, 1)] ∧
      ((run step threeLdiscs waits).line 0).num = 1 ∧
      ((run step threeLdiscs waits).line 0).refcount = 1 := by
  have hholders : (run step threeLdiscs waits).holders = [(0, 1)] := by decide
  obtain ⟨hnum, hcount⟩ := references_keep_discipline.1 threeLdiscs waits
    ⟨rfl, fun _ => rfl, fun _ => rfl⟩
    ⟨trivial, fun _ _ hset => (nomatch hset), trivial, trivial, trivial, trivial, trivial, trivial,
      trivial, trivial, trivial, trivial, trivial, trivial, trivial, trivial, trivial, trivial⟩
  refine ⟨hholders, hnum (0, 1) (by rw [hholders]; exact List.mem_singleton_self _), ?_⟩
  rw [hcount, hholders]
  rfl

end LinuxConsole.Ldisc

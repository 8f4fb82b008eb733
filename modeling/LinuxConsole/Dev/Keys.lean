import LinuxConsole.Dev.Event
import LinuxConsole.Lib.Alternating

/-!
# Presses and releases

A key event is dropped if it does not change the state of the key, so whatever a driver
reports, the handles see presses and releases in turn; a repeated key, the value 2, passes
without a change.  The timer repeats the key that it remembers as long as that key is held.

**`runKeys_reported`**: for every sequence of key events and expiries of the timer, in any
order, the presses and releases of each code alternate and begin with a press, `dev->key` has
the codes whose last one was a press, every receiver sees them all, and what the timer repeats
is held.
-/

namespace LinuxConsole.Dev

open Lib

/-! ### Runs -/

/-- The values of a key event. -/
inductive KeyValue where
  | release
  | press
  | autorepeat
  deriving DecidableEq, Repr

def KeyValue.toInt : KeyValue → Int
  | .release => 0
  | .press => 1
  | .autorepeat => 2

/-- What happens to a device: the driver reports a key, or the timer runs out. -/
inductive KeyAct where
  | key (code : Nat) (value : KeyValue)
  | expire

variable (L : Limits)

/-- A timer that is not pending does not run out. -/
def keyStep (dev : InputDev) : KeyAct → Option InputDev
  | .key code value => inputEvent L dev code value.toInt .key
  | .expire =>
    if dev.timer.isSome then inputRepeatKey L { dev with timer := none } else some dev

def runKeys (dev : InputDev) (acts : List KeyAct) : Option InputDev := acts.foldlM (keyStep L) dev

/-- A device without a pressed key, before any event is delivered. -/
def InputDev.fresh (dev : InputDev) : InputDev :=
  { dev with key := fun _ => false, delivered := [] }

/-- The events that the handles got. -/
def InputDev.log (dev : InputDev) : List Event := dev.delivered.map Prod.fst

/-- The events that one handle got. -/
def InputDev.inbox (dev : InputDev) (handle : Nat) : List Event :=
  (dev.delivered.filter fun d => handle ∈ d.2).map Prod.fst

def Event.IsStroke (code : Nat) (e : Event) : Prop := e.type = .key ∧ e.code = code ∧ e.value ≠ 2

instance (code : Nat) (e : Event) : Decidable (e.IsStroke code) :=
  inferInstanceAs (Decidable (e.type = .key ∧ e.code = code ∧ e.value ≠ 2))

/-- The presses and releases of a code, without repeats. -/
def strokes (code : Nat) (log : List Event) : List Int :=
  (log.filter fun e => e.IsStroke code).map Event.value

/-! ### What a step delivers -/

/-- The handles get `es`, and they stay the ones that get events. -/
structure Hands (dev dev' : InputDev) (es : List Event) : Prop where
  receivers : dev'.receivers = dev.receivers
  delivered : dev'.delivered = dev.delivered ++ es.map fun e => (e, dev.receivers)

/-- No key changes and there is no press or release in `es`. -/
structure Quiet (dev dev' : InputDev) (es : List Event) : Prop where
  key : dev'.key = dev.key
  repeats : ∀ e ∈ es, e.type = .key → e.value = 2

/-- A key changes and `es` reports it. -/
def Changes (dev dev' : InputDev) (es : List Event) : Prop :=
  ∃ code, dev'.key = Function.update dev.key code (!dev.key code) ∧
    es = [⟨.key, code, if dev.key code then 0 else 1⟩]

variable {L} {dev dev' dev'' : InputDev} {es es' : List Event}

theorem Hands.refl (dev : InputDev) : Hands dev dev [] := ⟨rfl, by simp⟩

theorem Hands.trans (h : Hands dev dev' es) (h' : Hands dev' dev'' es') :
    Hands dev dev'' (es ++ es') := by
  constructor
  · rw [h'.receivers, h.receivers]
  · rw [h'.delivered, h.delivered, h.receivers, List.map_append, List.append_assoc]

theorem Hands.log (h : Hands dev dev' es) : dev'.log = dev.log ++ es := by
  have hfst : List.map (Prod.fst ∘ fun e => (e, dev.receivers)) es = es := List.map_id es
  rw [InputDev.log, h.delivered, List.map_append, List.map_map, hfst]
  rfl

theorem Quiet.refl (dev : InputDev) : Quiet dev dev [] := ⟨rfl, by simp⟩

theorem Quiet.trans (h : Quiet dev dev' es) (h' : Quiet dev' dev'' es') :
    Quiet dev dev'' (es ++ es') := by
  constructor
  · rw [h'.key, h.key]
  · intro e he
    rcases List.mem_append.mp he with he | he
    · exact h.repeats e he
    · exact h'.repeats e he

/-- An event that is delivered from a device that differs from `dev` in nothing that matters
here. -/
theorem hands_deliver (dev' : InputDev) (e : Event) (hreceivers : dev'.receivers = dev.receivers)
    (hdelivered : dev'.delivered = dev.delivered) : Hands dev (dev'.deliver e) [e] := by
  constructor
  · exact hreceivers
  · rw [InputDev.deliver, hdelivered, hreceivers]
    rfl

theorem startRepeat_eq (dev : InputDev) (code : Nat) (value : Int) : ∃ repeatKey timer,
    dev.startRepeat code value = { dev with repeatKey := repeatKey, timer := timer } := by
  rw [InputDev.startRepeat]
  split
  · exact ⟨_, _, rfl⟩
  · exact ⟨_, _, rfl⟩

/-- **A repeated key** is dropped or passes. -/
theorem inputEvent_autorepeat (L : Limits) (dev : InputDev) (code : Nat) :
    ∃ dev' es, inputEvent L dev code 2 .key = some dev' ∧ Hands dev dev' es ∧ Quiet dev dev' es ∧
      ∀ e ∈ es, e.code = code := by
  rw [inputEvent]
  split
  · exact ⟨dev, [], rfl, .refl dev, .refl dev, by simp⟩
  · rw [switchOn, keyEvent]
    split
    · exact ⟨dev, [], rfl, .refl dev, .refl dev, by simp⟩
    · exact ⟨_, _, rfl, hands_deliver dev _ rfl rfl, ⟨rfl, by simp⟩, by simp⟩

/-- **A press or a release** is dropped if the key is so already. -/
theorem inputEvent_stroke (L : Limits) (dev : InputDev) (code : Nat) (pressed : Bool) :
    ∃ dev' es, inputEvent L dev code (if pressed then 1 else 0) .key = some dev' ∧
      Hands dev dev' es ∧ (Quiet dev dev' es ∨ Changes dev dev' es) := by
  rw [inputEvent]
  split
  · exact ⟨dev, [], rfl, .refl dev, Or.inl (.refl dev)⟩
  · rw [switchOn, keyEvent]
    have hvalue : (if pressed then 1 else 0 : Int) ≠ 2 := by
      cases pressed <;> decide
    by_cases hguard : code > L.keyMax ∨ !dev.keybit code ∨
        same (dev.key code) (if pressed then 1 else 0)
    · rw [if_pos hguard]
      exact ⟨dev, [], rfl, .refl dev, Or.inl (.refl dev)⟩
    · have hkey : dev.key code = !pressed := by
        cases pressed <;> cases hbit : dev.key code <;> simp_all [same]
      obtain ⟨repeatKey, timer, hstart⟩ := startRepeat_eq
        { dev with key := Function.update dev.key code (!dev.key code) } code
        (if pressed then 1 else 0)
      rw [if_neg hguard, if_neg hvalue]
      dsimp only
      rw [hstart]
      refine ⟨_, _, rfl, hands_deliver _ _ rfl rfl, Or.inr ⟨code, rfl, ?_⟩⟩
      rw [hkey]
      cases pressed <;> rfl

theorem inputSync_hands (L : Limits) (dev : InputDev) :
    ∃ dev' es, inputSync L dev = some dev' ∧ Hands dev dev' es ∧ dev'.key = dev.key ∧
      ∀ e ∈ es, e.type ≠ .key := by
  rw [inputSync, inputEvent]
  split
  · exact ⟨dev, [], rfl, .refl dev, rfl, by simp⟩
  · cases hsync : dev.sync with
    | true =>
      rw [switchOn, synEvent]
      simp only [hsync]
      exact ⟨dev, [], rfl, .refl dev, rfl, by simp⟩
    | false =>
      rw [switchOn, synEvent]
      simp only [hsync]
      exact ⟨_, _, rfl, hands_deliver { dev with sync := true } _ rfl rfl, rfl, by simp⟩

/-- **The timer** repeats a key that is held. -/
theorem inputRepeatKey_hands (L : Limits) (dev : InputDev) :
    ∃ dev' es, inputRepeatKey L dev = some dev' ∧ Hands dev dev' es ∧ Quiet dev dev' es ∧
      ∀ e ∈ es, e.type = .key → e.value = 2 ∧ dev.key e.code = true := by
  rw [inputRepeatKey]
  cases hkey : dev.key dev.repeatKey with
  | false => exact ⟨dev, [], rfl, .refl dev, .refl dev, by simp⟩
  | true =>
    obtain ⟨dev₁, es₁, hevent, hhands₁, hquiet₁, hcode⟩ :=
      inputEvent_autorepeat L dev dev.repeatKey
    obtain ⟨dev₂, es₂, hsync, hhands₂, hkey₂, htype⟩ := inputSync_hands L dev₁
    have hquiet₂ : Quiet dev₁ dev₂ es₂ := ⟨hkey₂, fun e he h => absurd h (htype e he)⟩
    have hhands := hhands₁.trans hhands₂
    have hquiet := hquiet₁.trans hquiet₂
    have hrepeats : ∀ e ∈ es₁ ++ es₂, e.type = .key → e.value = 2 ∧ dev.key e.code = true := by
      intro e he hkeyType
      refine ⟨hquiet.repeats e he hkeyType, ?_⟩
      rcases List.mem_append.mp he with he | he
      · rw [hcode e he, hkey]
      · exact absurd hkeyType (htype e he)
    simp only [Bool.not_true, Bool.false_eq_true, if_false, hevent, hsync, Option.bind_eq_bind,
      Option.bind_some]
    split
    · exact ⟨_, _, rfl, ⟨hhands.receivers, hhands.delivered⟩, ⟨hquiet.key, hquiet.repeats⟩,
        hrepeats⟩
    · exact ⟨_, _, rfl, hhands, hquiet, hrepeats⟩

/-- **What a step does.** -/
theorem keyStep_hands (L : Limits) (dev : InputDev) (act : KeyAct) :
    ∃ dev' es, keyStep L dev act = some dev' ∧ Hands dev dev' es ∧
      (Quiet dev dev' es ∨ Changes dev dev' es) ∧
      (act = .expire → ∀ e ∈ es, e.type = .key → e.value = 2 ∧ dev.key e.code = true) := by
  cases act with
  | key code value =>
    cases value with
    | release =>
      obtain ⟨dev', es, hstep, hhands, hkeys⟩ := inputEvent_stroke L dev code false
      exact ⟨dev', es, hstep, hhands, hkeys, KeyAct.noConfusion⟩
    | press =>
      obtain ⟨dev', es, hstep, hhands, hkeys⟩ := inputEvent_stroke L dev code true
      exact ⟨dev', es, hstep, hhands, hkeys, KeyAct.noConfusion⟩
    | autorepeat =>
      obtain ⟨dev', es, hstep, hhands, hquiet, -⟩ := inputEvent_autorepeat L dev code
      exact ⟨dev', es, hstep, hhands, Or.inl hquiet, KeyAct.noConfusion⟩
  | expire =>
    rw [keyStep]
    split
    · obtain ⟨dev', es, hstep, hhands, hquiet, hrepeats⟩ :=
        inputRepeatKey_hands L { dev with timer := none }
      exact ⟨dev', es, hstep, ⟨hhands.receivers, hhands.delivered⟩,
        Or.inl ⟨hquiet.key, hquiet.repeats⟩, fun _ => hrepeats⟩
    · exact ⟨dev, [], rfl, .refl dev, Or.inl (.refl dev), fun _ => by simp⟩

/-! ### Strokes -/

theorem strokes_append (code : Nat) (log es : List Event) :
    strokes code (log ++ es) = strokes code log ++ strokes code es := by
  rw [strokes, strokes, strokes, List.filter_append, List.map_append]

theorem Quiet.strokes_eq_nil (h : Quiet dev dev' es) (code : Nat) : strokes code es = [] := by
  rw [strokes, List.map_eq_nil_iff, List.filter_eq_nil_iff]
  intro e he hstroke
  obtain ⟨htype, -, hvalue⟩ := of_decide_eq_true hstroke
  exact hvalue (h.repeats e he htype)

theorem strokes_singleton (code changed : Nat) (pressed : Bool) :
    strokes code [⟨.key, changed, if pressed then 0 else 1⟩] =
      if code = changed then [if pressed then 0 else 1] else [] := by
  by_cases h : code = changed
  · subst h
    cases pressed <;> simp [strokes, Event.IsStroke]
  · have h' : ¬changed = code := fun heq => h heq.symm
    simp [strokes, Event.IsStroke, h, h']

/-- **The invariant**: every event went to the receivers, and the strokes of each code are the
reports of its key. -/
structure Alternating (handles : List Nat) (dev : InputDev) : Prop where
  receivers : dev.receivers = handles
  delivered : ∀ d ∈ dev.delivered, d.2 = handles
  reported : ∀ code, Reported 1 0 (dev.key code) (strokes code dev.log)

theorem alternating_fresh (dev : InputDev) : Alternating dev.receivers dev.fresh :=
  ⟨rfl, by simp [InputDev.fresh], fun _ => reported_nil 1 0⟩

theorem Alternating.step {handles : List Nat} (h : Alternating handles dev)
    (hhands : Hands dev dev' es) (hkeys : Quiet dev dev' es ∨ Changes dev dev' es) :
    Alternating handles dev' := by
  constructor
  · rw [hhands.receivers, h.receivers]
  · intro d hd
    rw [hhands.delivered, List.mem_append] at hd
    rcases hd with hd | hd
    · exact h.delivered d hd
    · obtain ⟨e, -, rfl⟩ := List.mem_map.mp hd
      exact h.receivers
  · intro code
    rw [hhands.log, strokes_append]
    rcases hkeys with hquiet | ⟨changed, hkey, rfl⟩
    · rw [hquiet.strokes_eq_nil, hquiet.key, List.append_nil]
      exact h.reported code
    · rw [strokes_singleton, hkey]
      by_cases hcode : code = changed
      · subst hcode
        rw [if_pos rfl, Function.update_self]
        exact (h.reported code).flip (by decide)
      · rw [if_neg hcode, Function.update_of_ne hcode, List.append_nil]
        exact h.reported code

theorem Alternating.run {handles : List Nat} (h : Alternating handles dev)
    (acts : List KeyAct) : ∃ dev', runKeys L dev acts = some dev' ∧ Alternating handles dev' := by
  induction acts generalizing dev with
  | nil => exact ⟨dev, rfl, h⟩
  | cons act acts ih =>
    obtain ⟨next, es, hstep, hhands, hkeys, -⟩ := keyStep_hands L dev act
    obtain ⟨dev', hrun, hdev'⟩ := ih (h.step hhands hkeys)
    refine ⟨dev', ?_, hdev'⟩
    rw [runKeys, List.foldlM_cons, hstep]
    exact hrun

theorem Alternating.inbox {handles : List Nat} (h : Alternating handles dev) {handle : Nat}
    (hmem : handle ∈ handles) : dev.inbox handle = dev.log := by
  rw [InputDev.inbox, InputDev.log, List.filter_eq_self.mpr]
  intro d hd
  rw [h.delivered d hd]
  exact decide_eq_true hmem

/-- **Key events alternate.** -/
theorem runKeys_reported (L : Limits) (dev : InputDev) (acts : List KeyAct) :
    ∃ dev', runKeys L dev.fresh acts = some dev' ∧
      (∀ code, Alternates 1 0 (strokes code dev'.log) ∧
        (dev'.key code = true ↔ (strokes code dev'.log).getLast? = some 1)) ∧
      (∀ handle ∈ dev.receivers, dev'.inbox handle = dev'.log) ∧
      ∀ pre post, acts = pre ++ .expire :: post → ∃ before after es,
        runKeys L dev.fresh pre = some before ∧ keyStep L before .expire = some after ∧
        after.log = before.log ++ es ∧
        ∀ e ∈ es, e.type = .key → e.value = 2 ∧ before.key e.code = true := by
  obtain ⟨dev', hrun, hdev'⟩ := (alternating_fresh dev).run acts
  refine ⟨dev', hrun, fun code => ?_, fun handle hmem => hdev'.inbox hmem, ?_⟩
  · exact ⟨(hdev'.reported code).alternates, (hdev'.reported code).last⟩
  · intro pre post _
    obtain ⟨before, hbefore, -⟩ := (alternating_fresh dev).run pre
    obtain ⟨after, es, hstep, hhands, -, hrepeats⟩ := keyStep_hands L before .expire
    exact ⟨before, after, es, hbefore, hstep, hhands.log, hrepeats rfl⟩

end LinuxConsole.Dev

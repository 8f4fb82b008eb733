import Mathlib.Algebra.Group.Int.Defs
import Mathlib.Algebra.Group.Nat.Defs
import Mathlib.Tactic.Common

/-!
# Numbers of an input device

What the driver for X takes from the headers of Linux, and the marks of its tables for
what is not mapped.
-/

namespace LinuxConsole.Xinput

/-- A valuator by its code among the absolute or the relative ones. -/
inductive Valuator
  | abs (i : Int)
  | rel (i : Int)
  deriving DecidableEq

/-- The numbers of the headers, which are small. -/
structure Headers where
  absMax : Nat
  relMax : Nat
  btnMisc : Nat
  keyMax : Nat
  valuators_small : absMax + relMax < 2 ^ 15
  buttons_small : keyMax + 6 < 2 ^ 15

/-- `TUN_VALUATOR_UNASSIGNED` and `TUN_VALUATOR_DISABLED`. -/
def valuatorUnassigned : Int := -1
def valuatorDisabled : Int := -2

/-- `TUN_BUTTON_UNASSIGNED` and `TUN_BUTTON_PROXIMITY`. -/
def buttonUnassigned : Int := -1
def buttonProximity : Int := -2

def relX : Int := 0x00
def relY : Int := 0x01
def relWheel : Int := 0x08
def absX : Int := 0x00
def absY : Int := 0x01
def absZ : Int := 0x02
def absRx : Int := 0x03
def absRy : Int := 0x04
def absRz : Int := 0x05
def absPressure : Int := 0x18
def absTiltX : Int := 0x1a
def absTiltY : Int := 0x1b
def btnLeft : Int := 0x110
def btnRight : Int := 0x111
def btnMiddle : Int := 0x112
def btnToolPen : Int := 0x140
def btnTouch : Int := 0x14a
def btnStylus : Int := 0x14b

/-- A number in a `short int`. -/
def short (n : Int) : Int := (BitVec.ofInt 16 n).toInt

theorem short_natCast {n : Nat} (h : n < 2 ^ 15) : short n = n := by
  rw [short, BitVec.toInt_ofInt]
  apply Int.bmod_eq_of_le <;> omega

end LinuxConsole.Xinput

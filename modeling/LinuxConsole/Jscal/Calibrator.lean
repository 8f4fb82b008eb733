import LinuxConsole.Lib.Decimal
import LinuxConsole.Jscal.Scripts
import Mathlib.Data.Fintype.Pi

/-!
# The calibration program

`jscal` as far as it prints and sets the mappings and the corrections of a joystick.  The
arguments of `-u` and `-s` are numbers between commas.  `jscal` reads each with `sscanf`,
whose result it ignores: a variable keeps its value where there is no number.  After that it
goes to the next comma with `strstr`; a pointer to a comma is here the text behind it, and
`none` if there is none.

The counts of the axes and of the buttons go through a `char`, which is signed.

`System` is what `jscal` takes from elsewhere: the constants of the input layer, and what
`sscanf` makes of a number that no `int` holds.  An `ioctl` succeeds or fails as `ok` says;
the driver stores what it is given.
-/

namespace LinuxConsole.Jscal

open Lib

/-- A number that `w` bits with a sign hold. -/
def Fits (w : Nat) (n : Int) : Prop := -2 ^ (w - 1) ≤ n ∧ n < 2 ^ (w - 1)

instance (w : Nat) (n : Int) : Decidable (Fits w n) :=
  inferInstanceAs (Decidable (_ ∧ _))

/-- The headers and the C library. -/
structure System where
  absMax : Nat
  btnMisc : Nat
  keyMax : Nat
  convert : Int → Int
  absMax_lt : absMax < 127
  btnMisc_pos : 0 < btnMisc
  keyMax_lt : keyMax < 2 ^ 16
  convert_eq : ∀ n, Fits 32 n → convert n = n
  convert_fits : ∀ n, Fits 32 (convert n)

/-- `MAX_CORR`. -/
def maxCorr : Int := 1

/-- `corr_coef_num`. -/
def corrCoefNum : List Nat := [0, 4]

def comma : Char := Char.ofNat 44

def blank : Char := Char.ofNat 32

/-! ### The joystick -/

/-- `struct js_corr`. -/
structure Corr where
  coef : Fin 8 → BitVec 32
  prec : BitVec 16
  type : BitVec 16
  deriving DecidableEq

/-- A static one. -/
def Corr.zero : Corr := ⟨fun _ => 0, 0, 0⟩

variable (S : System)

/-- What the driver keeps for a joystick. -/
@[ext] structure Joystick where
  axmap : List (BitVec 8)
  corr : List Corr
  btnmap : List (BitVec 16)
  corr_length : corr.length = axmap.length
  axes_le : axmap.length ≤ S.absMax + 1
  buttons_lt : btnmap.length < 256
  deriving DecidableEq

variable {S}

/-- The first `n` elements of an array that starts with a list. -/
def firsts {α : Type} (n : Nat) (z : α) (l : List α) : List α :=
  (List.range n).map fun i => l.getD i z

@[simp] theorem length_firsts {α : Type} (n : Nat) (z : α) (l : List α) :
    (firsts n z l).length = n := by
  rw [firsts, List.length_map, List.length_range]

namespace Joystick

variable (d : Joystick S)

/-- `JSIOCSAXMAP`. -/
def setAxmap (m : List (BitVec 8)) : Joystick S :=
  { d with
    axmap := firsts d.axmap.length 0 m
    corr_length := by rw [length_firsts, d.corr_length]
    axes_le := by rw [length_firsts]; exact d.axes_le }

/-- `JSIOCSCORR`. -/
def setCorr (cs : List Corr) : Joystick S :=
  { d with
    corr := firsts d.axmap.length .zero cs
    corr_length := length_firsts _ _ _ }

/-- `JSIOCSBTNMAP`. -/
def setBtnmap (m : List (BitVec 16)) : Joystick S :=
  { d with
    btnmap := firsts d.btnmap.length 0 m
    buttons_lt := by rw [length_firsts]; exact d.buttons_lt }

end Joystick

/-- A count in a `char`. -/
def signedChar (n : Nat) : Int := (BitVec.ofNat 8 n).toInt

/-- `JSIOCGAXES`, no more than `ABS_MAX + 1`. -/
def Joystick.axes (d : Joystick S) : Int := min (signedChar d.axmap.length) (S.absMax + 1)

/-- `JSIOCGBUTTONS`. -/
def Joystick.buttons (d : Joystick S) : Int := signedChar d.btnmap.length

/-! ### Errors -/

inductive Call
  | axes | buttons | getAxmap | setAxmap | getBtnmap | setBtnmap | getCorr | setCorr
  deriving DecidableEq

/-- Why `jscal` exits. -/
inductive Error
  | failed (c : Call)
  | noMappings
  | mappingAxes (axes given : Int)
  | axisMissing (i : Nat)
  | axisInvalid (i : Nat)
  | mappingButtons (buttons given : Int)
  | buttonMissing (i : Nat)
  | buttonAbove (i : Nat)
  | buttonBelow (i : Nat)
  | noAxes
  | correctionAxes (axes given : Int)
  | typeMissing (i : Nat)
  | typeUnknown (i : Nat)
  | precisionMissing (i : Nat)
  | coefficientMissing (j i : Nat)
  | tooMany
  deriving DecidableEq

/-- What a call that fails was for; `JSIOCGBTNMAP` may fail. -/
def Call.purpose : Call → String
  | .axes => "getting axes"
  | .buttons => "getting buttons"
  | .getAxmap => "getting axis map"
  | .setAxmap => "setting axis map"
  | .getBtnmap => ""
  | .setBtnmap => "setting button map"
  | .getCorr => "getting correction"
  | .setCorr => "setting correction"

/-- The text that is printed. -/
def Error.message (S : System) : Error → String
  | .failed c => s!"jscal: error {c.purpose}"
  | .noMappings => "jscal: missing argument for --set-mappings"
  | .mappingAxes axes given =>
    s!"jscal: joystick has {axes} axes and not {given} as specified on command line"
  | .axisMissing i => s!"jscal: missing mapping for axis {i}"
  | .axisInvalid i => s!"jscal: invalid axis mapping for axis {i} (max is {S.absMax + 1})"
  | .mappingButtons buttons given =>
    s!"jscal: joystick has {buttons} buttons and not {given} as specified on command line"
  | .buttonMissing i => s!"jscal: missing mapping for button {i}"
  | .buttonAbove i => s!"jscal: invalid button mapping for button {i} (max is {S.keyMax})"
  | .buttonBelow i => s!"jscal: invalid button mapping for button {i} (min is {S.btnMisc})"
  | .noAxes => "jscal: missing number of axes"
  | .correctionAxes axes given =>
    s!"jscal: joystick has different number of axes ({axes}) than specified in command line " ++
      s!"({given})"
  | .typeMissing i => s!"jscal: missing correction type for axis {i}"
  | .typeUnknown i => s!"jscal: unknown correction type for axis {i}"
  | .precisionMissing i => s!"jscal: missing precision for axis {i}"
  | .coefficientMissing j i => s!"jscal: missing coefficient {j} for axis {i}"
  | .tooMany => "jscal: too many values"

/-- What stops `jscal`: an error, or an access to memory that is not its own. -/
inductive Stop
  | exit (e : Error)
  | fault
  deriving DecidableEq

/-- How `jscal` ends and what the joystick is then. -/
inductive Outcome (S : System)
  | done (d : Joystick S)
  | exit (e : Error) (d : Joystick S)
  | fault (d : Joystick S)
  deriving DecidableEq

def Stop.outcome (d : Joystick S) : Stop → Outcome S
  | .exit e => .exit e d
  | .fault => .fault d

/-! ### Printing -/

/-- Every number behind a comma. -/
def commaText (ns : List Int) : Text := ns.flatMap fun n => comma :: showInt n

/-- `print_mappings`. -/
def printMappings (ok : Call → Bool) (d : Joystick S) (devicename : Text) : Except Stop Text :=
  if !ok .axes then .error (.exit (.failed .axes))
  else if !ok .buttons then .error (.exit (.failed .buttons))
  else if !ok .getAxmap then .error (.exit (.failed .getAxmap))
  else
    let axes := signedChar d.axmap.length
    let buttons := if ok .getBtnmap then d.buttons else 0
    .ok ("jscal -u ".toList ++ showInt axes ++
      commaText ((d.axmap.take axes.toNat).map fun c => (c.toNat : Int)) ++
      commaText [buttons] ++
      commaText ((d.btnmap.take buttons.toNat).map fun c => (c.toNat : Int)) ++
      blank :: (devicename ++ [newline]))

/-- The numbers of a correction. -/
def Corr.values (c : Corr) (k : Nat) : List Int :=
  c.type.toNat :: c.prec.toInt :: ((List.ofFn c.coef).take k).map BitVec.toInt

/-- The corrections as `print_settings` prints them. -/
def corrText : List Corr → Except Stop Text
  | [] => .ok []
  | c :: cs =>
    match corrCoefNum[c.type.toNat]? with
    | none => .error .fault
    | some k => (corrText cs).map fun t => commaText (c.values k) ++ t

/-- `print_settings`. -/
def printSettings (ok : Call → Bool) (d : Joystick S) (devicename : Text) : Except Stop Text :=
  if !ok .axes then .error (.exit (.failed .axes))
  else if !ok .buttons then .error (.exit (.failed .buttons))
  else if !ok .getCorr then .error (.exit (.failed .getCorr))
  else
    let axes := signedChar d.axmap.length
    (corrText (d.corr.take axes.toNat)).map fun t =>
      "jscal -s ".toList ++ showInt axes ++ t ++ blank :: (devicename ++ [newline])

/-! ### Reading numbers -/

/-- `sscanf(p, "%d", &x)` where `x` was `old`. -/
def System.scan (S : System) (old : Int) (p : Text) : Int :=
  ((scanInt p).map S.convert).getD old

/-- `strstr(p, ",")`, then `++p`. -/
abbrev next (p : Text) : Option Text := nextField comma p

/-- The loop that reads `n` codes, from the `i`-th on. -/
def System.readMap (S : System) (missing : Nat → Error) (check : Nat → Int → Option Error) :
    Nat → Nat → Int → Option Text → Except Stop (List Int × Option Text)
  | 0, _, _, p => .ok ([], p)
  | _ + 1, i, _, none => .error (.exit (missing i))
  | n + 1, i, old, some p =>
    match check i (S.scan old p) with
    | some e => .error (.exit e)
    | none =>
      (S.readMap missing check n (i + 1) (S.scan old p) (next p)).map fun r =>
        (S.scan old p :: r.1, r.2)

/-! ### Setting the mappings -/

def System.checkAxis (S : System) (i : Nat) (axisMapping : Int) : Option Error :=
  if axisMapping > S.absMax + 1 then some (.axisInvalid i) else none

def System.checkButton (S : System) (i : Nat) (btnMapping : Int) : Option Error :=
  if btnMapping > S.keyMax then some (.buttonAbove i)
  else if btnMapping < S.btnMisc then some (.buttonBelow i)
  else none

/-- What an argument of `-u` asks for; `buttons` is `btns_on_cl`. -/
structure Mappings where
  axmap : List (BitVec 8)
  buttons : Int
  btnmap : List (BitVec 16)
  deriving DecidableEq

/-- The second half of the argument.  Its start is not checked. -/
def System.parseButtons (S : System) (buttons : Int) : Option Text → Except Stop (Int × List Int)
  | none => .error .fault
  | some p =>
    if S.scan 0 p ≠ buttons ∧ S.scan 0 p ≠ 0 then
      .error (.exit (.mappingButtons buttons (S.scan 0 p)))
    else
      match S.readMap .buttonMissing S.checkButton (S.scan 0 p).toNat 0 0 (next p) with
      | .error e => .error e
      | .ok (_, some _) => .error (.exit .tooMany)
      | .ok (bs, none) => .ok (S.scan 0 p, bs)

/-- `set_mappings` up to its first call that changes the joystick. -/
def System.parseMappings (S : System) (axes buttons : Int) (p : Text) : Except Stop Mappings :=
  if S.scan 0 p ≠ axes then .error (.exit (.mappingAxes axes (S.scan 0 p)))
  else
    match S.readMap .axisMissing S.checkAxis axes.toNat 0 0 (next p) with
    | .error e => .error e
    | .ok (ms, p) =>
      (S.parseButtons buttons p).map fun r =>
        ⟨ms.map (BitVec.ofInt 8), r.1, r.2.map (BitVec.ofInt 16)⟩

/-- `axmes[axmap2[i]] = i`, in an array of `ABS_MAX + 1` elements. -/
def System.axmes (S : System) (table : Nat → Option Nat) :
    Nat → List (BitVec 8) → Option (Nat → Option Nat)
  | _, [] => some table
  | i, c :: cs =>
    if c.toNat ≤ S.absMax then S.axmes (Function.update table c.toNat (some i)) (i + 1) cs
    else none

/-- `ax[i] = axmes[axmap[i]]`, unless an element is read that has not been set or does not
exist. -/
def System.lookupAxes (S : System) (table : Nat → Option Nat) :
    List (BitVec 8) → Option (List Nat)
  | [] => some []
  | c :: cs =>
    if c.toNat ≤ S.absMax then
      (table c.toNat).bind fun j => (S.lookupAxes table cs).map (j :: ·)
    else none

/-- `ax`: where the axes of the map `new` are in the map `old`. -/
def System.remap (S : System) (old new : List (BitVec 8)) : Option (List Nat) :=
  (S.axmes (fun _ => none) 0 old).bind fun table => S.lookupAxes table new

/-- `corr_tmp`. -/
def moveCorr (cs : List Corr) (ax : List Nat) : List Corr := ax.map fun j => cs.getD j .zero

/-- `correct_axes` where `axmap2` is `old`, and what follows it. -/
def correctAxes (ok : Call → Bool) (old : List (BitVec 8)) (m : Mappings) (d : Joystick S) :
    Outcome S :=
  match S.remap old d.axmap with
  | none => .fault d
  | some ax =>
    if !ok .getCorr then .exit (.failed .getCorr) d
    else if !ok .setCorr then .exit (.failed .setCorr) d
    else
      let d' := d.setCorr (moveCorr d.corr ax)
      if m.buttons ≠ 0 then
        if !ok .setBtnmap then .exit (.failed .setBtnmap) d' else .done (d'.setBtnmap m.btnmap)
      else .done d'

/-- `set_mappings` from its first call that changes the joystick on. -/
def applyMappings (ok : Call → Bool) (d : Joystick S) (m : Mappings) : Outcome S :=
  if !ok .getAxmap then .exit (.failed .getAxmap) d
  else if !ok .setAxmap then .exit (.failed .setAxmap) d
  else correctAxes ok d.axmap m (d.setAxmap m.axmap)

/-- `set_mappings`. -/
def setMappings (ok : Call → Bool) (d : Joystick S) (p : Option Text) : Outcome S :=
  if !ok .axes then .exit (.failed .axes) d
  else if !ok .buttons then .exit (.failed .buttons) d
  else
    match p with
    | none => .exit .noMappings d
    | some p =>
      match S.parseMappings d.axes d.buttons p with
      | .error e => e.outcome d
      | .ok m => applyMappings ok d m

/-! ### Setting the corrections -/

/-- The loop that reads the coefficients of axis `i`, from the `j`-th on, into a static
array. -/
def System.readCoefs (S : System) (i : Nat) :
    Nat → Nat → Option Text → Except Stop (List Int × Option Text)
  | 0, _, p => .ok ([], p)
  | _ + 1, j, none => .error (.exit (.coefficientMissing j i))
  | n + 1, j, some p =>
    (S.readCoefs i n (j + 1) (next p)).map fun r => (S.scan 0 p :: r.1, r.2)

/-- The correction that the numbers make. -/
def Corr.ofValues (type prec : Int) (coefs : List Int) : Corr :=
  ⟨fun j => BitVec.ofInt 32 (coefs.getD j 0), BitVec.ofInt 16 prec, BitVec.ofInt 16 type⟩

/-- The loop over the axes, from the `i`-th on, where `t` holds the number read last. -/
def System.readCorr (S : System) :
    Nat → Nat → Int → Option Text → Except Stop (List Corr × Option Text)
  | 0, _, _, p => .ok ([], p)
  | _ + 1, i, _, none => .error (.exit (.typeMissing i))
  | n + 1, i, t, some p =>
    let type := S.scan t p
    if type > maxCorr then .error (.exit (.typeUnknown i))
    else
      match next p with
      | none => .error (.exit (.precisionMissing i))
      | some p =>
        let prec := S.scan type p
        -- A negative type is a large index.
        match corrCoefNum[(BitVec.ofInt 16 type).toNat]? with
        | none => .error .fault
        | some k =>
          match S.readCoefs i k 0 (next p) with
          | .error e => .error e
          | .ok (coefs, p) =>
            (S.readCorr n (i + 1) prec p).map fun r => (.ofValues type prec coefs :: r.1, r.2)

/-- `set_correction` up to its call. -/
def System.parseCorrection (S : System) (axes : Int) (p : Text) : Except Stop (List Corr) :=
  if S.scan 0 p ≠ axes then .error (.exit (.correctionAxes axes (S.scan 0 p)))
  else
    match S.readCorr axes.toNat 0 (S.scan 0 p) (next p) with
    | .error e => .error e
    | .ok (_, some _) => .error (.exit .tooMany)
    | .ok (cs, none) => .ok cs

/-- `set_correction`. -/
def setCorrection (ok : Call → Bool) (d : Joystick S) (p : Option Text) : Outcome S :=
  if !ok .axes then .exit (.failed .axes) d
  else
    match p with
    | none => .exit .noAxes d
    | some p =>
      match S.parseCorrection d.axes p with
      | .error e => e.outcome d
      | .ok cs => if !ok .setCorr then .exit (.failed .setCorr) d else .done (d.setCorr cs)

/-- A command line that the shell has split at its blanks, for the two actions that set
something. -/
def jscal (ok : Call → Bool) (d : Joystick S) (line : Text) : Option (Outcome S) :=
  match line.splitOn blank with
  | _ :: option :: parameter :: _ =>
    if option = "-u".toList then some (setMappings ok d (some parameter))
    else if option = "-s".toList then some (setCorrection ok d (some parameter))
    else none
  | _ => none

end LinuxConsole.Jscal

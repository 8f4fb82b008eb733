import LinuxConsole.Lib.Records

/-!
# Storing and restoring calibrations

The awk scripts `extract` and `filter` and what `jscal-store` and `jscal-restore` do
with them.  The state file has a section for every joystick: lines such as
`NAME="..."` that say which joystick it is, then the commands that calibrate it.

Both scripts keep the fields of the current section in the variables `seckernel`,
`secname`, `secserial`, `secvendor` and `secproduct`, here one function from keys,
and the ones that are asked for come from the command line.

`Awk` is what the scripts leave to awk: it compares two values as numbers if both
look like numbers, and it reads the escapes in an assignment on the command line.
A state file that does not exist is as an empty one, and `echo` writes its argument
as it is.
-/

namespace LinuxConsole.Jscal

open Lib

abbrev Text := List Char

def newline : Char := Char.ofNat 10

/-- The field separator. -/
def quote : Char := Char.ofNat 34

def backslash : Char := Char.ofNat 92

/-! ### Fields -/

/-- The fields of a section. -/
inductive Key
  | kernel | name | serial | vendor | product
  deriving DecidableEq

/-- What a line with the field starts with, for the scripts. -/
def Key.pattern : Key → Text
  | .kernel => "DEVICE=".toList
  | .name => "NAME=".toList
  | .serial => "SERIAL=".toList
  | .vendor => "VENDOR=".toList
  | .product => "PRODUCT".toList

/-- What is written before its value. -/
def Key.label : Key → Text
  | .kernel => "DEVICE=".toList
  | .name => "NAME=".toList
  | .serial => "SERIAL=".toList
  | .vendor => "VENDOR=".toList
  | .product => "PRODUCT=".toList

/-- The fields in the order in which they are written. -/
def Key.all : List Key := [.kernel, .name, .serial, .vendor, .product]

/-- A value for every field, empty if there is none. -/
abbrev Values := Key → Text

def noValues : Values := fun _ => []

def fieldLine (k : Key) (x : Text) : Text := k.label ++ quote :: (x ++ [quote])

/-- The lines that `filter` prints for the fields. -/
def header (v : Values) : List Text :=
  (Key.all.filter fun k => !(v k).isEmpty).map fun k => fieldLine k (v k)

/-- The rules for the fields. -/
def readLine (l : Text) (v : Values) : Values :=
  fun k => if k.pattern.isPrefixOf l then field quote 1 l else v k

/-- `/^js/`. -/
def isCommand (l : Text) : Bool := "js".toList.isPrefixOf l

/-! ### The awk scripts -/

/-- The numbers of awk and its assignments on the command line. -/
structure Awk (ν : Type) where
  number : Text → Option ν
  assigned : Text → Text
  number_nil : number [] = none
  assigned_plain : ∀ x, backslash ∉ x → assigned x = x

variable {ν : Type} [DecidableEq ν] (a : Awk ν) (q : Values)

/-- `==` of two values from the input. -/
def Awk.same (x y : Text) : Bool :=
  match a.number x, a.number y with
  | some m, some n => m = n
  | _, _ => x = y

/-- The section matches what is asked for. -/
def Awk.selects (v : Values) : Bool := Key.all.all fun k => (q k).isEmpty || a.same (v k) (q k)

/-- `extract` from a line on: the lines printed and the exit status. -/
def extractFrom : Values → List Text → List Text × Nat
  | _, [] => ([], 0)
  | v, l :: ls =>
    let v := readLine l v
    if (isCommand l || l.isEmpty) && a.selects q v then
      if isCommand l then
        let r := extractFrom v ls
        (l :: r.1, r.2)
      else ([], 0)
    else extractFrom v ls

/-- `extract`. -/
def extract (t : Text) : List Text × Nat := extractFrom a q noValues (records newline t)

/-- `filter` from a line on; `output` is `secoutput`. -/
def filterFrom : Values → Bool → List Text → List Text
  | _, _, [] => []
  | v, output, l :: ls =>
    let v := readLine l v
    if isCommand l || l.isEmpty then
      if a.selects q v then filterFrom v output ls
      else
        (if output then [] else header v) ++
          l :: (if l.isEmpty then filterFrom noValues false ls else filterFrom v true ls)
    else filterFrom v output ls

/-- `filter`. -/
def filter (t : Text) : Text :=
  unlines newline (filterFrom a q noValues false (records newline t))

/-! ### The shell scripts -/

/-- What the scripts are asked for a joystick: its fields, but for that of the
device, or the device alone if it has neither a name nor a vendor. -/
def query (d : Values) : Values :=
  if (d .name).isEmpty && (d .vendor).isEmpty then
    fun k => if k = .kernel then a.assigned (d .kernel) else []
  else fun k => if k = .kernel then [] else a.assigned (d k)

/-- The fields that `jscal-store` writes. -/
def storedFields (d : Values) : List (Key × Text) :=
  (if (d .name).isEmpty && (d .vendor).isEmpty then [(.kernel, d .kernel)] else []) ++
    ([Key.name, .serial, .vendor, .product].filter fun k => !(d k).isEmpty).map fun k => (k, d k)

/-- The section that `jscal-store` writes. -/
def newSection (d : Values) (cs : List Text) : List Text :=
  (storedFields d).map (fun f => fieldLine f.1 f.2) ++ cs

/-- `jscal-store` of the joystick `d` with the commands `cs`. -/
def store (d : Values) (cs : List Text) (t : Text) : Text :=
  let kept := filter a (query a d) t
  (if kept.all (· = newline) then kept else kept ++ [newline]) ++ unlines newline (newSection d cs)

/-- `jscal-restore`: the commands that it carries out, and the exit status of
`extract`. -/
def restore (d : Values) (t : Text) : List Text × Nat := extract a (query a d) t

end LinuxConsole.Jscal

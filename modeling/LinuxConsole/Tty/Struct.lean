import Mathlib.Logic.Function.Basic
import LinuxConsole.Lib.Faultless

/-!
# Opening and closing terminals

`init_dev` makes the `tty_struct` of a line at its first open, for a pseudo terminal those of both
sides, and `release_mem` frees them after the last close.  The structs and the `termios` blocks are
memory here: what follows a pointer to memory that has been freed faults.

The steps are the stretches in which `tty_sem` and the big kernel lock keep others out.  A close
that is the last one waits for the handlers of pending work between its two steps, `release_dev` up
to the closing flags and `final_close`.  The tables of devpts are left out.
-/

namespace LinuxConsole.Tty

/-! ### Drivers -/

/-- The subtype of a driver of pseudo terminals. -/
inductive PtySide where
  | master
  | slave
  deriving DecidableEq, Repr

/-- `tty_driver`, as it is registered; `pty` is its type and subtype. -/
structure Driver where
  pty : Option PtySide
  other : Option Nat
  num : Nat
  owner : Nat
  resetTermios : Bool

/-- **The drivers of a kernel**, none with `TTY_DRIVER_DEVPTS_MEM`.  The two of a pseudo terminal
name each other, have as many lines and belong to one module. -/
structure Drivers where
  total : Nat
  drv : Nat → Driver
  other_lt : ∀ {d d'}, d < total → (drv d).other = some d' → d' < total
  other_other : ∀ {d d'}, (drv d).other = some d' → (drv d').other = some d
  other_none : ∀ {d}, (drv d).other = none ↔ (drv d).pty = none
  master_slave : ∀ {d d'}, (drv d).other = some d' →
    ((drv d).pty = some .master ↔ (drv d').pty = some .slave)
  num_other : ∀ {d d'}, (drv d).other = some d' → (drv d').num = (drv d).num
  owner_other : ∀ {d d'}, (drv d).other = some d' → (drv d').owner = (drv d).owner

/-- A serial driver that keeps its `termios` blocks, and the two sides of a pseudo terminal. -/
def serialAndPty : Drivers where
  total := 3
  drv
    | 0 => ⟨none, none, 64, 0, false⟩
    | 1 => ⟨some .master, some 2, 256, 1, true⟩
    | 2 => ⟨some .slave, some 1, 256, 1, true⟩
    | _ => ⟨none, none, 0, 0, true⟩
  other_lt := by
    rintro (_ | _ | _ | d) d' - ⟨⟩ <;> decide
  other_other := by
    rintro (_ | _ | _ | d) d' ⟨⟩ <;> rfl
  other_none := by
    rintro (_ | _ | _ | d) <;> simp
  master_slave := by
    rintro (_ | _ | _ | d) d' ⟨⟩ <;> decide
  num_other := by
    rintro (_ | _ | _ | d) d' ⟨⟩ <;> rfl
  owner_other := by
    rintro (_ | _ | _ | d) d' ⟨⟩ <;> rfl

/-! ### The state -/

/-- `tty_struct`; `termios` is for `true` the pointer `termios_locked`. -/
structure TtyStruct where
  driver : Nat
  index : Nat
  count : Int
  closing : Bool
  link : Option Nat
  termios : Bool → Option Nat
  ttyFiles : List Nat

/-- The memory and the tables of the drivers.  `ttys` and `termios` are indexed by the driver and
the line, the latter first by whether it is the table of the locked ones. -/
@[ext]
structure Kernel where
  tty : Nat → Option TtyStruct
  nextTty : Nat
  blocks : Nat → Bool
  nextBlock : Nat
  ttys : Nat × Nat → Option Nat
  termios : Bool × Nat × Nat → Option Nat
  refcount : Nat → Int
  modules : Nat → Int
  privateData : Nat → Option Nat
  releasing : List Nat

/-- Nothing has been opened yet. -/
def Kernel.boot : Kernel where
  tty := fun _ => none
  nextTty := 0
  blocks := fun _ => false
  nextBlock := 0
  ttys := fun _ => none
  termios := fun _ => none
  refcount := fun _ => 0
  modules := fun _ => 0
  privateData := fun _ => none
  releasing := []

/-- The memory of a struct, the pointer of a file and the closes under way. -/
def Kernel.put (k : Kernel) (t : Nat) (tty : Option TtyStruct) : Kernel :=
  { k with tty := Function.update k.tty t tty }

def Kernel.setFile (k : Kernel) (filp : Nat) (t : Option Nat) : Kernel :=
  { k with privateData := Function.update k.privateData filp t }

def Kernel.setReleasing (k : Kernel) (releasing : List Nat) : Kernel :=
  { k with releasing := releasing }

/-- Code that may fault. -/
abbrev K := StateT Kernel Option

/-- The struct that a pointer leads to. -/
def load (t : Nat) : K TtyStruct := fun k => (k.tty t).map fun tty => (tty, k)

/-- A pointer that is followed. -/
def deref (p : Option Nat) : K Nat := fun k => p.map fun t => (t, k)

def store (t : Nat) (f : TtyStruct → TtyStruct) : K Unit := fun k =>
  (k.tty t).map fun tty => (⟨⟩, k.put t (some (f tty)))

/-- A store through a pointer that is made under a condition. -/
def storeIf (b : Bool) (p : Option Nat) (f : TtyStruct → TtyStruct) : K Unit :=
  if b then do store (← deref p) f else pure ⟨⟩

def freeTtyStruct (t : Nat) : K Unit := fun k =>
  (k.tty t).map fun _ => (⟨⟩, k.put t none)

/-- `kfree` of a `termios` block or of a null pointer. -/
def kfree : Option Nat → K Unit
  | none => pure ⟨⟩
  | some b => fun k =>
    if k.blocks b then some (⟨⟩, { k with blocks := Function.update k.blocks b false }) else none

/-! ### The memory of a first open -/

/-- What a first open meets: the module, the six allocations and the two line disciplines. -/
structure Outcome where
  moduleGet : Bool
  tty : Bool
  tp : Bool
  ltp : Bool
  oTty : Bool
  oTp : Bool
  oLtp : Bool
  ldiscOpen : Option Int
  oLdiscOpen : Option Int

def EIO : Int := -5
def ENOMEM : Int := -12
def ENODEV : Int := -19

/-- `alloc_tty_struct` and `initialize_tty_struct`. -/
def allocTtyStruct (ok : Bool) (d idx : Nat) : K (Option Nat) := fun k =>
  if ok then
    let tty : TtyStruct := ⟨d, idx, 0, false, none, fun _ => none, []⟩
    some (some k.nextTty, { k.put k.nextTty (some tty) with nextTty := k.nextTty + 1 })
  else some (none, k)

/-- `kmalloc` of a `termios` where the slot has none; `none` if that fails. -/
def mallocUnless (ok : Bool) (slot : Bool × Nat × Nat) : K (Option (Option Nat)) := fun k =>
  if (k.termios slot).isSome then some (some none, k)
  else if ok then
    some (some (some k.nextBlock),
      { k with blocks := Function.update k.blocks k.nextBlock true, nextBlock := k.nextBlock + 1 })
  else some (none, k)

def modulePut (owner : Nat) : K Unit :=
  modify fun k => { k with modules := Function.update k.modules owner (k.modules owner - 1) }

variable (S : Drivers)

/-- `fail_no_mem`. -/
def failNoMem (d : Nat) : K (Except Int Nat) := do
  modulePut (S.drv d).owner
  return .error ENOMEM

/-- `free_mem_out`. -/
def freeMemOut (d t : Nat) (tp ltp oTty oTp : Option Nat) : K (Except Int Nat) := do
  kfree oTp
  match oTty with
  | none => pure ⟨⟩
  | some o => freeTtyStruct o
  kfree ltp
  kfree tp
  freeTtyStruct t
  failNoMem S d

/-- A block goes where a slot has none. -/
def fill (termios : Bool × Nat × Nat → Option Nat) (slot : Bool × Nat × Nat) (b : Option Nat) :
    Bool × Nat × Nat → Option Nat :=
  if (termios slot).isSome then termios else Function.update termios slot b

/-- A struct is put in the tables of its driver. -/
def install (d idx t : Nat) (tp ltp : Option Nat) : K Unit := do
  modify fun k => { k with ttys := Function.update k.ttys (d, idx) (some t) }
  modify fun k => { k with termios := fill k.termios (false, d, idx) tp }
  modify fun k => { k with termios := fill k.termios (true, d, idx) ltp }
  let k ← get
  store t fun tty => { tty with termios := fun locked => k.termios (locked, d, idx) }
  modify fun k => { k with refcount := Function.update k.refcount d (k.refcount d + 1) }

/-! ### `release_mem` -/

/-- What `release_mem` does with either of the two structs. -/
def releaseSide (t idx : Nat) : K Unit := do
  let tty ← load t
  modify fun k => { k with ttys := Function.update k.ttys (tty.driver, idx) none }
  if (S.drv tty.driver).resetTermios then
    modify fun k =>
      { k with termios := Function.update k.termios (false, tty.driver, idx) none }
    kfree (tty.termios false)
    modify fun k =>
      { k with termios := Function.update k.termios (true, tty.driver, idx) none }
    kfree (tty.termios true)
  modify fun k =>
    { k with refcount := Function.update k.refcount tty.driver (k.refcount tty.driver - 1) }
  freeTtyStruct t

/-- `release_mem`. -/
def releaseMem (t idx : Nat) : K Unit := do
  let tty ← load t
  match tty.link with
  | none => pure ⟨⟩
  | some o => releaseSide S o idx
  releaseSide S t idx
  modulePut (S.drv tty.driver).owner

/-! ### `init_dev` -/

/-- The line disciplines are opened, or the slot is cleared again. -/
def openLdiscs (t : Nat) (oTty : Option Nat) (idx : Nat) (o : Outcome) : K (Except Int Nat) :=
  match o.ldiscOpen with
  | some e => do
    releaseMem S t idx
    return .error e
  | none =>
    match oTty, o.oLdiscOpen with
    | some _, some e => do
      releaseMem S t idx
      return .error e
    | _, _ => return .ok t

/-- The other side of a pseudo terminal, and then the struct itself, are allocated and installed. -/
def installPty (d idx t : Nat) (tp ltp : Option Nat) (o : Outcome) : K (Except Int Nat) := do
  let d' ← deref (S.drv d).other
  let some oTty ← allocTtyStruct o.oTty d' idx | freeMemOut S d t tp ltp none none
  let some oTp ← mallocUnless o.oTp (false, d', idx) | freeMemOut S d t tp ltp (some oTty) none
  let some oLtp ← mallocUnless o.oLtp (true, d', idx) | freeMemOut S d t tp ltp (some oTty) oTp
  install d' idx oTty oTp oLtp
  storeIf (decide ((S.drv d).pty = some .master)) (some oTty) fun tty =>
    { tty with count := tty.count + 1 }
  store t fun tty => { tty with link := some oTty }
  store oTty fun tty => { tty with link := some t }
  install d idx t tp ltp
  store t fun tty => { tty with count := tty.count + 1 }
  openLdiscs S t (some oTty) idx o

/-- The first open of a line. -/
def firstOpen (d idx : Nat) (o : Outcome) : K (Except Int Nat) := do
  if !o.moduleGet then return .error ENODEV
  let owner := (S.drv d).owner
  modify fun k => { k with modules := Function.update k.modules owner (k.modules owner + 1) }
  let some t ← allocTtyStruct o.tty d idx | failNoMem S d
  let some tp ← mallocUnless o.tp (false, d, idx) | freeMemOut S d t none none none none
  let some ltp ← mallocUnless o.ltp (true, d, idx) | freeMemOut S d t tp none none none
  if (S.drv d).pty.isSome then installPty S d idx t tp ltp o
  else
    install d idx t tp ltp
    store t fun tty => { tty with count := tty.count + 1 }
    openLdiscs S t none idx o

/-- The label `fast_track`. -/
def fastTrack (d t : Nat) : K (Except Int Nat) := do
  let tty ← load t
  if tty.closing then return .error EIO
  if (S.drv d).pty = some .master then
    if tty.count ≠ 0 then return .error EIO
    let o ← deref tty.link
    store o fun oTty => { oTty with count := oTty.count + 1 }
  store t fun tty => { tty with count := tty.count + 1, driver := d }
  return .ok t

/-- `init_dev`. -/
def initDev (d idx : Nat) (o : Outcome) : K (Except Int Nat) := do
  match (← get).ttys (d, idx) with
  | some t => fastTrack S d t
  | none => firstOpen S d idx o

/-- `tty_open` of a line, up to the open routine of the driver. -/
def ttyOpen (d idx filp : Nat) (o : Outcome) : K Unit := do
  match ← initDev S d idx o with
  | .error _ => return
  | .ok t =>
    modify (·.setFile filp (some t))
    store t fun tty => { tty with ttyFiles := filp :: tty.ttyFiles }

/-! ### `release_dev` -/

/-- The checks of `TTY_PARANOIA_CHECK`. -/
def paranoid (t : Nat) (tty : TtyStruct) : K Bool := do
  let k ← get
  let d := tty.driver
  let idx := tty.index
  if (S.drv d).num ≤ idx then return true
  if k.ttys (d, idx) ≠ some t then return true
  if tty.termios false ≠ k.termios (false, d, idx) then return true
  if tty.termios true ≠ k.termios (true, d, idx) then return true
  match (S.drv d).other with
  | none => return false
  | some d' =>
    if tty.link ≠ k.ttys (d', idx) then return true
    let oTty ← load (← deref tty.link)
    if oTty.termios false ≠ k.termios (false, d', idx) then return true
    if oTty.termios true ≠ k.termios (true, d', idx) then return true
    return decide (oTty.link ≠ some t)

/-- `--count`, which is not to become negative. -/
def countDown (count : Int) : Int := if count - 1 < 0 then 0 else count - 1

/-- The other side has no file that keeps it open. -/
def oTtyClosing (ptyMaster : Bool) : Option Nat → K Bool
  | none => return false
  | some o => return decide ((← load o).count ≤ if ptyMaster then 1 else 0)

/-- `release_dev` up to the closing flags; the last close goes on in `finalClose`. -/
def releaseDev (filp : Nat) : K Unit := do
  match (← get).privateData filp with
  | none => return
  | some t =>
    let tty ← load t
    if ← paranoid S t tty then return
    let ptyMaster := decide ((S.drv tty.driver).pty = some .master)
    let ttyClosing := decide (tty.count ≤ 1)
    let oClosing ← oTtyClosing ptyMaster tty.link
    storeIf ptyMaster tty.link fun oTty => { oTty with count := countDown oTty.count }
    store t fun tty =>
      { tty with count := countDown tty.count, ttyFiles := tty.ttyFiles.erase filp }
    modify (·.setFile filp none)
    storeIf ttyClosing (some t) fun tty => { tty with closing := true }
    storeIf oClosing tty.link fun oTty => { oTty with closing := true }
    modify fun k => k.setReleasing
      (if ttyClosing && (tty.link.isNone || oClosing) then t :: k.releasing else k.releasing)

/-- The rest of the last close. -/
def finalClose (t : Nat) : K Unit := do
  let tty ← load t
  modify fun k => k.setReleasing (k.releasing.erase t)
  releaseMem S t tty.index

/-! ### Steps -/

/-- `check_tty_count`: the number of files where it is not the count, and 0 where it is. -/
def checkTtyCount (k : Kernel) (tty : TtyStruct) : Int :=
  let held : Bool := (S.drv tty.driver).pty = some .slave ∧
    (tty.link.bind k.tty).any fun link => link.count ≠ 0
  let count : Int := tty.ttyFiles.length + if held then 1 else 0
  if tty.count ≠ count then count else 0

/-- A file is opened on a line or closed, or a last close goes on. -/
inductive Act where
  | open (d idx filp : Nat) (o : Outcome)
  | close (filp : Nat)
  | final (t : Nat)

/-- One step.  A file that is opened is a new one and its line exists; only a last close that is
waiting goes on. -/
def step : Act → K Unit
  | .open d idx filp o => do
    let k ← get
    if d < S.total ∧ idx < (S.drv d).num ∧ k.privateData filp = none then ttyOpen S d idx filp o
  | .close filp => releaseDev S filp
  | .final t => do
    if t ∈ (← get).releasing then finalClose S t

end LinuxConsole.Tty

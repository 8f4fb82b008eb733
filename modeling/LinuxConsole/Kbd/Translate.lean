import LinuxConsole.Switch.Step

/-!
# From key events to characters

The translator of `keyboard.c`: `kbd_event` and `kbd_keycode`, the handlers of
the key types, and the special functions as far as they put characters in the
queue of a tty or change what later keys mean.

The modifiers, the dead key, the number assembled on the pad and the bitmap of
pressed keys are globals (`Mods` and `keyDown`); locks, LED flags and modes
belong to the console.  A handler that asks for another console does so by a
`Request`; the console itself is brought to the front by `vt_callback`.

The flip buffer of a tty is the list of what `tty_insert_flip_char` is called
with, each character with whether its flag is `TTY_BREAK`.  `npadch` is an `int`
and wraps around.
-/

namespace LinuxConsole.Input

open Switch (KbdMode)

/-! ### State -/

/-- `struct kbd_struct`, less the two fields that only the LEDs depend on. -/
structure KbdStruct where
  lockstate : Nat
  slockstate : Nat
  ledflagstate : Nat
  kbdmode : KbdMode
  modeflags : Nat

/-- The flags of `ledflagstate` and `modeflags`. -/
def vcScrollock : Nat := 0
def vcNumlock : Nat := 1
def vcCapslock : Nat := 2
def vcApplic : Nat := 0
def vcCkmode : Nat := 1
def vcRepeat : Nat := 2
def vcCrlf : Nat := 3
def vcMeta : Nat := 4

/-- What the translator uses of a `struct tty_struct`. -/
structure Tty where
  stopped : Bool
  flowStopped : Bool
  flip : List (UInt8 × Bool)

/-- What the translator uses of a `struct vc_data`. -/
structure Console where
  kbd : KbdStruct
  vcTty : Option Tty

/-- The globals of `keyboard.c` but the bitmap of the keys. -/
structure Mods where
  shiftDown : Nat → UInt8
  shiftState : Nat
  deadKeyNext : Bool
  npadch : BitVec 32
  diacr : UInt8
  rep : Bool
  sysrqDown : Bool
  sysrqAlt : Bool

/-- The tables and the configuration.  `keyMaps` are the maps but the plain one,
which is always there. -/
structure Env where
  plainMap : Nat → Nat
  keyMaps : Nat → Option (Nat → Nat)
  accentTable : List (UInt8 × UInt8 × UInt8)
  funcTable : Nat → Option (List UInt8)
  nrKeys : Nat
  magicSysrq : Bool
  handleSysrq : Nat → Console → Console

/-- A request for another console: one by its number, the last one, the previous
and the next. -/
inductive Request
  | console (n : Nat)
  | last
  | dec
  | inc
  deriving DecidableEq

/-- What a handler works on. -/
structure Xlate where
  mods : Mods
  con : Console
  request : Option Request

/-! ### Flags -/

namespace Console

variable (c : Console)

def getKbdMode (flag : Nat) : Bool := c.kbd.modeflags.testBit flag

def getKbdLed (flag : Nat) : Bool := c.kbd.ledflagstate.testBit flag

/-- `set_kbd_led`, `clr_kbd_led`, `chg_kbd_led`, `chg_kbd_lock` and
`chg_kbd_slock`. -/
def setKbdLed (flag : Nat) : Console :=
  { c with kbd.ledflagstate := c.kbd.ledflagstate ||| 1 <<< flag }

def clrKbdLed (flag : Nat) : Console :=
  { c with kbd.ledflagstate := (c.kbd.ledflagstate ||| 1 <<< flag) ^^^ 1 <<< flag }

def chgKbdLed (flag : Nat) : Console :=
  { c with kbd.ledflagstate := c.kbd.ledflagstate ^^^ 1 <<< flag }

def chgKbdLock (flag : Nat) : Console :=
  { c with kbd.lockstate := (c.kbd.lockstate ^^^ 1 <<< flag) % 256 }

def chgKbdSlock (flag : Nat) : Console :=
  { c with kbd.slockstate := (c.kbd.slockstate ^^^ 1 <<< flag) % 256 }

/-! ### The queue -/

/-- `tty_insert_flip_char`, if there is a tty. -/
def insertFlipChar (ch : Nat) (brk : Bool) : Console :=
  { c with vcTty := c.vcTty.map fun t => { t with flip := t.flip ++ [(UInt8.ofNat ch, brk)] } }

/-- `put_queue`. -/
def putQueue (ch : Nat) : Console := c.insertFlipChar ch false

/-- `puts_queue`. -/
def putsQueue (cp : List UInt8) : Console :=
  (cp.takeWhile (· ≠ 0)).foldl (fun c ch => c.putQueue ch.toNat) c

/-- `applkey`. -/
def applkey (key : Nat) (mode : Bool) : Console :=
  c.putsQueue [0x1b, if mode then 0x4f else 0x5b, UInt8.ofNat key, 0]

/-- `to_utf8`. -/
def toUtf8 (ch : Nat) : Console :=
  if ch < 0x80 then c.putQueue ch
  else if ch < 0x800 then (c.putQueue (0xc0 ||| ch >>> 6)).putQueue (0x80 ||| (ch &&& 0x3f))
  else
    ((c.putQueue (0xe0 ||| ch >>> 12)).putQueue (0x80 ||| (ch >>> 6 &&& 0x3f))).putQueue
      (0x80 ||| (ch &&& 0x3f))

end Console

/-! ### Modifiers -/

/-- `KTYP(U(sym))` and `KVAL(sym)` of a keysym. -/
def ktyp (sym : Nat) : Nat := (sym ^^^ 0xf000) >>> 8
def kval (sym : Nat) : Nat := sym &&& 0xff

/-- The key types. -/
def ktLatin : Nat := 0
def ktSpec : Nat := 2
def ktShift : Nat := 7
def ktLetter : Nat := 11
def ktSlock : Nat := 12

/-- `KG_SHIFT` and `KG_CAPSSHIFT`. -/
def kgShift : Nat := 0
def kgCapsshift : Nat := 8

/-- The number of bits of `key_down`. -/
def keyBits : Nat := 512

/-- The plain map makes the key a modifier. -/
def isShiftKey (plainMap : Nat → Nat) (k : Nat) : Bool :=
  ktyp (plainMap k) = ktShift ∨ ktyp (plainMap k) = ktSlock

/-- The modifier of such a key. -/
def shiftOf (plainMap : Nat → Nat) (k : Nat) : Nat :=
  if kval (plainMap k) = kgCapsshift then kgShift else kval (plainMap k)

/-- The loop of `compute_shiftstate` over the bits of `key_down`. -/
def shiftstateOf (plainMap : Nat → Nat) (keyDown : Nat → Bool) : (Nat → UInt8) × Nat :=
  (List.range keyBits).foldl
    (fun s k =>
      if keyDown k && isShiftKey plainMap k then
        (Function.update s.1 (shiftOf plainMap k) (s.1 (shiftOf plainMap k) + 1),
          s.2 ||| 1 <<< shiftOf plainMap k)
      else s)
    (fun _ => 0, 0)

/-- `compute_shiftstate`. -/
def Mods.computeShiftstate (m : Mods) (plainMap : Nat → Nat) (keyDown : Nat → Bool) : Mods :=
  { m with shiftDown := (shiftstateOf plainMap keyDown).1
           shiftState := (shiftstateOf plainMap keyDown).2 }

namespace Xlate

variable (e : Env) (keyDown : Nat → Bool) (x : Xlate)

/-- Change the foreground console. -/
def onCon (f : Console → Console) : Xlate := { x with con := f x.con }

/-! ### Dead keys -/

/-- `handle_diacr`. -/
def handleDiacr (ch : UInt8) : UInt8 × Xlate :=
  let d := x.mods.diacr
  let x := { x with mods.diacr := 0 }
  match e.accentTable.find? fun a => a.1 = d ∧ a.2.1 = ch with
  | some a => (a.2.2, x)
  | none => if ch = 0x20 ∨ ch = d then (d, x) else (ch, x.onCon (·.putQueue d.toNat))

/-! ### Special functions -/

def fnEnter : Xlate :=
  let x :=
    if x.mods.diacr ≠ 0 then { x.onCon (·.putQueue x.mods.diacr.toNat) with mods.diacr := 0 }
    else x
  let x := x.onCon (·.putQueue 13)
  if x.con.getKbdMode vcCrlf then x.onCon (·.putQueue 10) else x

def fnCapsToggle : Xlate := if x.mods.rep then x else x.onCon (·.chgKbdLed vcCapslock)

def fnCapsOn : Xlate := if x.mods.rep then x else x.onCon (·.setKbdLed vcCapslock)

def fnBareNum : Xlate := if x.mods.rep then x else x.onCon (·.chgKbdLed vcNumlock)

def fnNum : Xlate :=
  if x.con.getKbdMode vcApplic then x.onCon (·.applkey 0x50 true) else x.fnBareNum

/-- `fn_hold`, with `stop_tty` and `start_tty` and their `vt_stop` and
`vt_start`. -/
def fnHold : Xlate :=
  match x.con.vcTty with
  | none => x
  | some tty =>
    if x.mods.rep then x
    else if tty.stopped then
      if tty.flowStopped then x
      else x.onCon fun c =>
        { c with vcTty := some { tty with stopped := false } }.clrKbdLed vcScrollock
    else x.onCon fun c =>
      { c with vcTty := some { tty with stopped := true } }.setKbdLed vcScrollock

def fnSendIntr : Xlate := x.onCon (·.insertFlipChar 0 true)

def fnCompose : Xlate := { x with mods.deadKeyNext := true }

/-- `fn_SAK`, with `reset_vc`. -/
def fnSAK : Xlate := x.onCon fun c => { c with kbd.kbdmode := .xlate }

def fnNull : Xlate := { x with mods := x.mods.computeShiftstate e.plainMap keyDown }

def ask (r : Request) : Xlate := { x with request := some r }

/-- `fn_handler[value]`; the members that are not named neither queue anything
nor change what keys mean. -/
def fnHandler (value : Nat) : Xlate :=
  match value with
  | 0 => x.fnNull e keyDown
  | 1 => x.fnEnter
  | 5 => x.fnSendIntr
  | 6 => x.ask .last
  | 7 => x.fnCapsToggle
  | 8 => x.fnNum
  | 9 => x.fnHold
  | 13 => x.fnCapsOn
  | 14 => x.fnCompose
  | 15 => x.fnSAK
  | 16 => x.ask .dec
  | 17 => x.ask .inc
  | 19 => x.fnBareNum
  | _ => x

/-! ### Key handlers -/

/-- The keyboard is in a raw mode. -/
def rawMode : Bool := x.con.kbd.kbdmode = .raw ∨ x.con.kbd.kbdmode = .mediumraw

def kSpec (value : Nat) (up : Bool) : Xlate :=
  if up then x
  else if value ≥ 20 then x
  else if x.rawMode ∧ value ≠ 15 then x
  else x.fnHandler e keyDown value

def kSelf (value : Nat) (up : Bool) : Xlate :=
  if up then x
  else
    let r := if x.mods.diacr ≠ 0 then x.handleDiacr e (UInt8.ofNat value)
      else (UInt8.ofNat value, x)
    if r.2.mods.deadKeyNext then { r.2 with mods.deadKeyNext := false, mods.diacr := r.1 }
    else r.2.onCon (·.putQueue r.1.toNat)

def kDead2 (value : Nat) (up : Bool) : Xlate :=
  if up then x
  else
    let r := if x.mods.diacr ≠ 0 then x.handleDiacr e (UInt8.ofNat value)
      else (UInt8.ofNat value, x)
    { r.2 with mods.diacr := r.1 }

/-- `ret_diacr`: grave, acute, circumflex, tilde, diaeresis, cedilla. -/
def retDiacr : List Nat := [0x60, 0x27, 0x5e, 0x7e, 0x22, 0x2c]

def kDead (value : Nat) (up : Bool) : Xlate := x.kDead2 e (retDiacr.getD value 0) up

def kCons (value : Nat) (up : Bool) : Xlate := if up then x else x.ask (.console value)

def kFn (value : Nat) (up : Bool) : Xlate :=
  if up then x
  else
    match e.funcTable value with
    | some s => x.onCon (·.putsQueue s)
    | none => x

/-- `cur_chars`: B, D, C, A. -/
def curChars : List Nat := [0x42, 0x44, 0x43, 0x41]

def kCur (value : Nat) (up : Bool) : Xlate :=
  if up then x
  else x.onCon fun c => c.applkey (curChars.getD value 0) (c.getKbdMode vcCkmode)

/-- `pad_chars`: the digits, plus, minus, star, slash, enter, comma, period,
question mark, parentheses and hash. -/
def padChars : List Nat :=
  [0x30, 0x31, 0x32, 0x33, 0x34, 0x35, 0x36, 0x37, 0x38, 0x39, 0x2b, 0x2d, 0x2a, 0x2f, 0x0d,
    0x2c, 0x2e, 0x3f, 0x28, 0x29, 0x23]

/-- `app_map`: the letters p to y, then l, S, R, Q, M, n, n, m, P, Q, S. -/
def appMap : List Nat :=
  [0x70, 0x71, 0x72, 0x73, 0x74, 0x75, 0x76, 0x77, 0x78, 0x79, 0x6c, 0x53, 0x52, 0x51, 0x4d,
    0x6e, 0x6e, 0x6d, 0x50, 0x51, 0x53]

/-- The keys of the pad with NumLock off: the function string or the cursor key
that stands for each. -/
def padAsFunction (value : Nat) : Option Nat :=
  match value with
  | 15 | 16 => some 22
  | 0 => some 21
  | 1 => some 23
  | 3 => some 25
  | 7 => some 20
  | 9 => some 24
  | _ => none

def padAsCursor (value : Nat) : Option Nat :=
  match value with
  | 2 => some 0
  | 4 => some 1
  | 6 => some 2
  | 8 => some 3
  | _ => none

def kPad (value : Nat) (up : Bool) : Xlate :=
  let char :=
    let x := x.onCon (·.putQueue (padChars.getD value 0))
    if value = 14 ∧ x.con.getKbdMode vcCrlf then x.onCon (·.putQueue 10) else x
  if up then x
  else if x.con.getKbdMode vcApplic ∧ x.mods.shiftDown kgShift = 0 then
    x.onCon (·.applkey (appMap.getD value 0) true)
  else if x.con.getKbdLed vcNumlock then char
  else
    match padAsFunction value, padAsCursor value with
    | some f, _ => x.kFn e f false
    | none, some d => x.kCur d false
    | none, none =>
      if value = 5 then x.onCon fun c => c.applkey 0x47 (c.getKbdMode vcApplic) else char

/-- What a release of a modifier does with the number assembled on the pad. -/
def flushPad (oldState : Nat) (up : Bool) : Xlate :=
  if up ∧ x.mods.shiftState ≠ oldState ∧ x.mods.npadch ≠ -1 then
    { x.onCon (fun c =>
        if c.kbd.kbdmode = .unicode then c.toUtf8 (x.mods.npadch.toNat &&& 0xffff)
        else c.putQueue (x.mods.npadch.toNat &&& 0xff)) with mods.npadch := -1 }
  else x

/-- The count and the state of one modifier. -/
def countShift (value : Nat) (up : Bool) : Xlate :=
  let n := x.mods.shiftDown value
  let n := if up then if n ≠ 0 then n - 1 else n else n + 1
  { x with
    mods.shiftDown := Function.update x.mods.shiftDown value n
    mods.shiftState :=
      if n ≠ 0 then x.mods.shiftState ||| 1 <<< value
      else (x.mods.shiftState ||| 1 <<< value) ^^^ 1 <<< value }

def kShift (value : Nat) (up : Bool) : Xlate :=
  if x.mods.rep then x
  else if value = kgCapsshift then
    let x := if up then x else x.onCon (·.clrKbdLed vcCapslock)
    (x.countShift kgShift up).flushPad x.mods.shiftState up
  else (x.countShift value up).flushPad x.mods.shiftState up

def kMeta (value : Nat) (up : Bool) : Xlate :=
  if up then x
  else if x.con.getKbdMode vcMeta then x.onCon fun c => (c.putQueue 0x1b).putQueue value
  else x.onCon (·.putQueue (value ||| 0x80))

def kAscii (value : Nat) (up : Bool) : Xlate :=
  if up then x
  else
    let base : Nat := if value < 10 then 10 else 16
    let value : Nat := if value < 10 then value else value - 10
    { x with mods.npadch :=
        if x.mods.npadch = -1 then BitVec.ofNat 32 value
        else x.mods.npadch * BitVec.ofNat 32 base + BitVec.ofNat 32 value }

def kLock (value : Nat) (up : Bool) : Xlate :=
  if up ∨ x.mods.rep then x else x.onCon (·.chgKbdLock value)

/-- `key_maps[i]`. -/
def keyMap (i : Nat) : Option (Nat → Nat) := if i = 0 then some e.plainMap else e.keyMaps i

def kSlock (value : Nat) (up : Bool) : Xlate :=
  let x := x.kShift value up
  if up ∨ x.mods.rep then x
  else
    x.onCon fun c =>
      let c := c.chgKbdSlock value
      if (keyMap e (c.kbd.lockstate ^^^ c.kbd.slockstate)).isNone then
        { c with kbd.slockstate := 0 }.chgKbdSlock value
      else c

/-- `k_handler[type]`. -/
def kHandler (type value : Nat) (up : Bool) : Xlate :=
  match type with
  | 0 => x.kSelf e value up
  | 1 => x.kFn e value up
  | 2 => x.kSpec e keyDown value up
  | 3 => x.kPad e value up
  | 4 => x.kDead e value up
  | 5 => x.kCons value up
  | 6 => x.kCur value up
  | 7 => x.kShift value up
  | 8 => x.kMeta value up
  | 9 => x.kAscii value up
  | 10 => x.kLock value up
  | 12 => x.kSlock e value up
  | 13 => x.kDead2 e value up
  | _ => x

end Xlate

end LinuxConsole.Input

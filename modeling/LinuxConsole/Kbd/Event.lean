import LinuxConsole.Kbd.Translate

/-!
# Key events of several keyboards

`kbd_event` on a machine with several VTs, each with a keyboard of its own and
its consoles in the slots of its pool.  The keys that are down and the modifiers
are one for all of them (`Machine`).

A handler that asks for a console sets `want_vc`; a VT whose `want_vc` is not in
the foreground has it brought there by `vt_callback`, which may run at any time
and ends, when it gets as far as `switch_screen`, in `compute_shiftstate`.
-/

namespace LinuxConsole.Input

open Switch (KbdMode Pools)

/-! ### Raw codes -/

/-- `x86_keycodes`. -/
def x86Keycodes : List Nat :=
  [0, 1, 2, 3, 4, 5, 6, 7, 8, 9, 10, 11, 12, 13, 14, 15,
   16, 17, 18, 19, 20, 21, 22, 23, 24, 25, 26, 27, 28, 29, 30, 31,
   32, 33, 34, 35, 36, 37, 38, 39, 40, 41, 42, 43, 44, 45, 46, 47,
   48, 49, 50, 51, 52, 53, 54, 55, 56, 57, 58, 59, 60, 61, 62, 63,
   64, 65, 66, 67, 68, 69, 70, 71, 72, 73, 74, 75, 76, 77, 78, 79,
   80, 81, 82, 83, 84, 118, 86, 87, 88, 115, 120, 119, 121, 112, 123, 92,
   284, 285, 309, 298, 312, 91, 327, 328, 329, 331, 333, 335, 336, 337, 338, 339,
   367, 288, 302, 304, 350, 89, 334, 326, 267, 126, 268, 269, 125, 347, 348, 349,
   360, 261, 262, 263, 268, 376, 100, 101, 321, 316, 373, 286, 289, 102, 351, 355,
   103, 104, 105, 275, 287, 279, 306, 106, 274, 107, 294, 364, 358, 363, 362, 361,
   291, 108, 381, 281, 290, 272, 292, 305, 280, 99, 112, 257, 258, 359, 113, 114,
   264, 117, 271, 374, 379, 265, 266, 93, 94, 95, 85, 259, 375, 260, 90, 116,
   377, 109, 111, 277, 278, 282, 283, 295, 296, 297, 299, 300, 301, 293, 303, 307,
   308, 310, 313, 314, 315, 317, 318, 319, 320, 357, 322, 323, 324, 325, 276, 330,
   332, 340, 365, 342, 343, 344, 345, 346, 356, 270, 341, 368, 369, 370, 371, 372]

/-- The key codes that the source names. -/
def keyLeftalt : Nat := 56
def keySysrq : Nat := 99
def keyRightalt : Nat := 100
def keyPause : Nat := 119
def keyHanguel : Nat := 122
def keyHanja : Nat := 123

/-- `emulate_raw`; `upFlag` is 0 or 0x80. -/
def Console.emulateRaw (c : Console) (sysrqAlt : Bool) (keycode upFlag : Nat) : Console :=
  let code := x86Keycodes.getD keycode 0
  if code = 0 then c
  else if keycode = keyPause then
    ((c.putQueue 0xe1).putQueue (0x1d ||| upFlag)).putQueue (0x45 ||| upFlag)
  else if keycode = keyHanguel then if upFlag = 0 then c.putQueue 0xf1 else c
  else if keycode = keyHanja then if upFlag = 0 then c.putQueue 0xf2 else c
  else if keycode = keySysrq ∧ sysrqAlt then c.putQueue (0x54 ||| upFlag)
  else
    let c := if code &&& 0x100 ≠ 0 then c.putQueue 0xe0 else c
    let c := c.putQueue ((code &&& 0x7f) ||| upFlag)
    if keycode = keySysrq then (c.putQueue 0xe0).putQueue (0x37 ||| upFlag) else c

/-- `kbd_rawcode`. -/
def Console.kbdRawcode (c : Console) (data : Nat) : Console :=
  if c.kbd.kbdmode = .raw then c.putQueue data else c

/-- The codes of extended medium raw mode. -/
def Console.putMediumraw (c : Console) (keycode upFlag : Nat) : Console :=
  if keycode < 128 then c.putQueue (keycode ||| upFlag)
  else ((c.putQueue upFlag).putQueue (keycode >>> 7 ||| 0x80)).putQueue (keycode ||| 0x80)

/-! ### Key codes -/

namespace Xlate

variable (e : Env) (keyDown : Nat → Bool) (x : Xlate)

/-- `(shift_state | slockstate) ^ lockstate`. -/
def shiftFinal : Nat := (x.mods.shiftState ||| x.con.kbd.slockstate) ^^^ x.con.kbd.lockstate

/-- The type and value of the key, CapsLock being applied to a letter. -/
def typeAndValue (keysym : Nat) (keycode : Nat) : Nat × Nat :=
  if keysym >>> 8 - 0xf0 = ktLetter then
    if x.con.getKbdLed vcCapslock then
      match keyMap e (x.shiftFinal ^^^ 1 <<< kgShift) with
      | some m => (ktLatin, kval (m keycode))
      | none => (ktLatin, kval keysym)
    else (ktLatin, kval keysym)
  else (keysym >>> 8 - 0xf0, kval keysym)

/-- `(*k_handler[type])(...)` and the slock state after it. -/
def handleKey (type value : Nat) (up : Bool) : Xlate :=
  let x := x.kHandler e keyDown type value up
  if type ≠ ktSlock then x.onCon fun c => { c with kbd.slockstate := 0 } else x

/-- `kbd_keycode` from the lookup of the key map on. -/
def lookupKey (keycode : Nat) (down : Bool) (rawMode : Bool) : Xlate :=
  match keyMap e x.shiftFinal with
  | none =>
    { x with mods := x.mods.computeShiftstate e.plainMap keyDown }.onCon fun c =>
      { c with kbd.slockstate := 0 }
  | some m =>
    if keycode > e.nrKeys then x
    else
      let keysym := m keycode
      if keysym >>> 8 < 0xf0 then
        if down ∧ !rawMode then x.onCon (·.toUtf8 keysym) else x
      else
        let type := keysym >>> 8 - 0xf0
        if rawMode ∧ type ≠ ktSpec ∧ type ≠ ktShift then x
        else
          let tv := x.typeAndValue e keysym keycode
          x.handleKey e keyDown tv.1 tv.2 (!down)

/-- `rep` and `sysrq_alt` as `kbd_keycode` sets them first. -/
def noteRepeat (keycode down : Nat) : Xlate :=
  { x with
    mods.sysrqAlt :=
      if keycode = keyLeftalt ∨ keycode = keyRightalt then decide (down ≠ 0) else x.mods.sysrqAlt
    mods.rep := decide (down = 2) }

/-- The bit of `key_down`. -/
def setKey (keycode down : Nat) : Nat → Bool := Function.update keyDown keycode (decide (down ≠ 0))

/-- `!down << 7`. -/
def upFlag (down : Nat) : Nat := if down = 0 then 0x80 else 0

/-- The codes that a keyboard in a raw mode gives. -/
def putRaw (keycode down : Nat) (hwRaw : Bool) : Xlate :=
  if x.con.kbd.kbdmode = .raw ∧ !hwRaw then
    x.onCon (·.emulateRaw x.mods.sysrqAlt keycode (upFlag down))
  else x

/-- `kbd_keycode` after the SysRq hack. -/
def translateKey (keycode down : Nat) : (Nat → Bool) × Xlate :=
  let rawMode := x.rawMode
  let x :=
    if x.con.kbd.kbdmode = .mediumraw then x.onCon (·.putMediumraw keycode (upFlag down)) else x
  let keyDown := setKey keyDown keycode down
  -- `vt_chars_in_buffer` is 0, so that a repeat is dropped only where the mode is off.
  if x.mods.rep ∧ !x.con.getKbdMode vcRepeat then (keyDown, x)
  else (keyDown, x.lookupKey e keyDown keycode (decide (down ≠ 0)) rawMode)

/-- `kbd_keycode`, on a keyboard with `HW_RAW` or without. -/
def kbdKeycode (keycode down : Nat) (hwRaw : Bool) : (Nat → Bool) × Xlate :=
  let x := (x.noteRepeat keycode down).putRaw keycode down hwRaw
  if e.magicSysrq ∧ keycode = keySysrq ∧ (x.mods.sysrqDown ∨ (down = 1 ∧ x.mods.sysrqAlt)) then
    (keyDown, { x with mods.sysrqDown := decide (down ≠ 0) })
  else if e.magicSysrq ∧ x.mods.sysrqDown ∧ down ≠ 0 ∧ !x.mods.rep then
    (keyDown, x.onCon (e.handleSysrq keycode))
  else x.translateKey e keyDown keycode down

end Xlate

/-! ### Seats -/

/-- A VT and its consoles; `slots` says which slots of its pool are in use. -/
structure Seat where
  fgConsole : Nat
  lastConsole : Nat
  wantVc : Nat
  slots : Nat → Bool
  con : Nat → Console
  hwRaw : Bool

/-- The consoles of the seat by slot. -/
def Seat.cons (s : Seat) (i : Nat) : Option Nat := if s.slots i then some i else none

/-- The state. -/
structure Machine (N : Nat) where
  keyDown : Nat → Bool
  mods : Mods
  seat : Fin N → Seat

/-- What happens on a seat: an event of type `EV_MSC`, one of type `EV_KEY`, or
`vt_callback`; `goes` is whether it gets as far as `switch_screen`. -/
inductive Event
  | raw (data : Nat)
  | key (keycode value : Nat)
  | work (goes : Bool)

namespace Machine

variable {N : Nat} (P : Pools N) (e : Env) (m : Machine N)

def updSeat (v : Fin N) (f : Seat → Seat) : Machine N :=
  { m with seat := Function.update m.seat v (f (m.seat v)) }

/-- `set_console(find_vc(n))`, if there is such a console. -/
def setConsole (n : Nat) : Machine N :=
  match Switch.Kernel.poolOf P n with
  | some w =>
    if (m.seat w).slots (n - P.firstVc w) then
      m.updSeat w fun s => { s with wantVc := n - P.firstVc w }
    else m
  | none => m

/-- What a request comes to on the VT `v`. -/
def serve (v : Fin N) : Option Request → Machine N
  | none => m
  | some (.console n) => m.setConsole P (n + P.firstVc v)
  | some .last => m.updSeat v fun s => { s with wantVc := s.lastConsole }
  | some .dec =>
    m.updSeat v fun s =>
      match Switch.Kernel.scanCons s.cons s.fgConsole (-1) (-1) (P.vcCount v - 1)
          (P.vcCount v + 1) (s.fgConsole - 1) with
      | some i => { s with wantVc := i }
      | none => s
  | some .inc =>
    m.updSeat v fun s =>
      match Switch.Kernel.scanCons s.cons s.fgConsole 1 (P.vcCount v) 0
          (P.vcCount v + 1) (s.fgConsole + 1) with
      | some i => { s with wantVc := i }
      | none => s

/-- Change the foreground console of the VT `v`. -/
def onForeground (v : Fin N) (f : Console → Console) : Machine N :=
  m.updSeat v fun s =>
    { s with con := Function.update s.con s.fgConsole (f (s.con s.fgConsole)) }

/-- What `kbd_keycode` starts from on the VT `v`. -/
def xlate (v : Fin N) : Xlate := ⟨m.mods, (m.seat v).con (m.seat v).fgConsole, none⟩

/-- `kbd_keycode` on the VT `v`. -/
def key (v : Fin N) (keycode value : Nat) : Machine N :=
  let r := (m.xlate v).kbdKeycode e m.keyDown keycode value (m.seat v).hwRaw
  ({ m with keyDown := r.1, mods := r.2.mods }.onForeground v fun _ => r.2.con).serve P v
    r.2.request

/-- `vt_callback` as far as `switch_screen`. -/
def work (v : Fin N) (goes : Bool) : Machine N :=
  if goes ∧ (m.seat v).wantVc ≠ (m.seat v).fgConsole then
    { m with mods := m.mods.computeShiftstate e.plainMap m.keyDown }.updSeat v fun s =>
      { s with fgConsole := s.wantVc, lastConsole := s.fgConsole }
  else m

/-- One event on a seat. -/
def step (m : Machine N) (a : Fin N × Event) : Machine N :=
  match a.2 with
  | .raw data => if (m.seat a.1).hwRaw then m.onForeground a.1 (·.kbdRawcode data) else m
  | .key keycode value => m.key P e a.1 keycode value
  | .work goes => m.work e a.1 goes

/-- The characters queued to the ttys of the consoles of a VT. -/
def queued (v : Fin N) (i : Nat) : Option (List (UInt8 × Bool)) :=
  (((m.seat v).con i).vcTty).map Tty.flip

end Machine

end LinuxConsole.Input

import LinuxConsole.Kbd.Binding
import LinuxConsole.Kbd.Keycode
import LinuxConsole.Lib.Touch
import LinuxConsole.Switch.Disallocate

/-!
# Consoles, keyboards and beepers that may be absent

The slots of a pool may be empty, a VT need not have a keyboard or a beeper, and a pointer may be
left when what it points to has gone.  Here are the ioctls and key handlers that read through such
pointers, as computations that record them: `VT_RESIZE`, `VT_RESIZEX`, the two keycode ioctls,
`KDKBDREP`, the beeps with the timer that ends them, and the special keys.

Some of them check and some do not.  **`absent_objects_iff`** says for each what has to be there.
-/

namespace LinuxConsole.Switch

open Lib (Touch)

/-- What is read through: a console, a handle, or a null pointer. -/
inductive Ptr
  | console (p : Nat)
  | handle (h : Nat)
  | null
  deriving DecidableEq

/-- What the functions look at in a `struct input_dev`: the table of keycodes, and what it can do
besides. -/
structure KeyDev extends Input.KeyDev (Nat → Nat) where
  evRep : Bool
  evSnd : Bool
  sndTone : Bool
  sndBell : Bool
  delay : Int
  period : Int
  regs : Bool

/-- The events that the functions send to a device. -/
inductive InputEvent
  | repDelay (value : Int)
  | repPeriod (value : Int)
  | tone (hz : Nat)
  | bell (value : Nat)

/-- The consoles, the handles and the devices behind them.  `beepIn` is in how many ticks the timer
`beep` of a VT expires, if it is pending; `shownRegs` counts what `show_regs` has printed. -/
structure Devices (N : Nat) where
  kernel : Kernel N
  seats : Input.Seats N
  dev : Nat → KeyDev
  scanLines : Nat → Nat
  fontHeight : Nat → Nat
  events : List (Nat × InputEvent)
  beepIn : Fin N → Option Nat
  shownRegs : Nat

/-- Computations on the devices. -/
abbrev Dev (N : Nat) (α : Type) : Type := Touch Ptr (Devices N) α

namespace Dev

variable {N : Nat}

/-- Read through a pointer to a console that may be null. -/
def console (p : Option Nat) : Dev N Unit :=
  match p with
  | some p => Touch.touch (.console p)
  | none => Touch.fault .null

/-- Read through a pointer to a handle that may be null, down to the device. -/
def handle (h : Option Nat) : Dev N (Nat × KeyDev) :=
  match h with
  | some h => do
    Touch.touch (.handle h)
    let m ← Touch.look
    pure (h, m.dev h)
  | none => Touch.fault .null

/-- `vc->display_fg`. -/
def displayFg (vc : Nat) : Dev N (Fin N) := do
  console (some vc)
  let m ← Touch.look
  pure (m.kernel.con vc).displayFg

/-- `input_event`. -/
def inputEvent (h : Nat) (e : InputEvent) : Dev N Unit :=
  Touch.change fun m => { m with events := m.events ++ [(h, e)] }

/-- Change the device of a handle. -/
def updDev (h : Nat) (f : KeyDev → KeyDev) : Dev N Unit :=
  Touch.change fun m => { m with dev := Function.update m.dev h (f (m.dev h)) }

/-! ### Resizing -/

/-- `vc_resize`, as far as it looks for the console; the return value is not used here. -/
def vcResize (vc : Option Nat) : Dev N Unit :=
  match vc with
  | none => pure ()
  | some p => console (some p)

/-- `VT_RESIZE`; `sizes` are `v_rows` and `v_cols`, if they can be read. -/
def vtResize (P : Pools N) (vc : Nat) (perm : Bool) (sizes : Option (Nat × Nat)) : Dev N VtRet :=
  if !perm then pure .eperm
  else if sizes = none then pure .efault
  else do
    let v ← displayFg vc
    let m ← Touch.look
    Touch.each (fun i => vcResize ((m.kernel.vt v).vcCons i)) (List.range (P.vcCount v))
    pure .ok

/-- `struct vt_consize`. -/
structure VtConsize where
  vRows : Nat
  vCols : Nat
  vVlin : Nat
  vClin : Nat
  vVcol : Nat
  vCcol : Nat

/-- The parameters of `VT_RESIZEX` add up; `vlin` is the number of scan lines after the default. -/
def VtConsize.addsUp (c : VtConsize) (vlin : Nat) : Bool :=
  !(c.vClin ≠ 0 ∧ c.vRows ≠ 0 ∧ c.vRows ≠ vlin / c.vClin) &&
    !(c.vVcol ≠ 0 ∧ c.vCcol ≠ 0 ∧ c.vCols ≠ 0 ∧ c.vCols ≠ c.vVcol / c.vCcol) && c.vClin ≤ 32

/-- `vlin ? vlin : vc->vc_scan_lines`. -/
def VtConsize.scanLines (c : VtConsize) (default : Nat) : Nat :=
  if c.vVlin ≠ 0 then c.vVlin else default

/-- One round of the loop of `VT_RESIZEX`. -/
def resizexAt (vlin clin : Nat) (tmp : Option Nat) : Dev N Unit := do
  Touch.guarded (vlin ≠ 0) do
    console tmp
    Touch.change fun m => { m with scanLines := Function.update m.scanLines (tmp.getD 0) vlin }
  Touch.guarded (clin ≠ 0) do
    console tmp
    Touch.change fun m => { m with fontHeight := Function.update m.fontHeight (tmp.getD 0) clin }
  vcResize tmp

/-- `VT_RESIZEX`; `size` is the user's structure, if the memory is accessible. -/
def vtResizex (P : Pools N) (vc : Nat) (perm : Bool) (size : Option VtConsize) : Dev N VtRet :=
  if !perm then pure .eperm
  else
    match size with
    | none => pure .efault
    | some c => do
      let v ← displayFg vc
      let m ← Touch.look
      let vlin := c.scanLines (m.scanLines vc)
      if !c.addsUp vlin then pure .einval
      else do
        Touch.each (fun i => resizexAt vlin c.vClin ((m.kernel.vt v).vcCons i))
          (List.range (P.vcCount v))
        pure .ok

/-! ### Keycodes and the repeat rate -/

/-- `getkeycode`; a handle has a device. -/
def getkeycode (h : Option Nat) (scancode : Nat) : Dev N Int := do
  let (_, dev) ← handle h
  pure (Input.getkeycode Input.plainKeycodes (some dev.toKeyDev) scancode)

/-- `setkeycode`. -/
def setkeycode (h : Option Nat) (scancode keycode : Nat) : Dev N Int := do
  let (h, dev) ← handle h
  let r := Input.setkeycode Input.plainKeycodes (some dev.toKeyDev) scancode keycode
  updDev h fun dev => { dev with toKeyDev := r.2.getD dev.toKeyDev }
  pure r.1

/-- `KDGETKEYCODE` of `do_kbkeycode_ioctl`; `user` is the scancode, if it can be read. -/
def kdgetkeycode (vc : Nat) (user : Option Nat) (writable : Bool) : Dev N Int :=
  match user with
  | none => pure (-14)
  | some scancode => do
    let v ← displayFg vc
    let m ← Touch.look
    let kc ← getkeycode (m.seats.keyboard v) scancode
    if kc ≥ 0 then pure (if writable then 0 else -14) else pure kc

/-- `KDSETKEYCODE` of `do_kbkeycode_ioctl`; `user` is the scancode and the keycode. -/
def kdsetkeycode (vc : Nat) (user : Option (Nat × Nat)) (perm : Bool) : Dev N Int :=
  match user with
  | none => pure (-14)
  | some (scancode, keycode) =>
    if !perm then pure (-1)
    else do
      let v ← displayFg vc
      let m ← Touch.look
      setkeycode (m.seats.keyboard v) scancode keycode

/-- `kbd_rate`: the delay and the period that it leaves in `rep`. -/
def kbdRate (h : Option Nat) (delay period : Int) : Dev N (Int × Int) := do
  let (h, dev) ← handle h
  if dev.evRep then do
    Touch.guarded (delay > 0) do
      inputEvent h (.repDelay delay)
      updDev h fun dev => { dev with delay := delay }
    Touch.guarded (period > 0) do
      inputEvent h (.repPeriod period)
      updDev h fun dev => { dev with period := period }
    let m ← Touch.look
    pure ((m.dev h).delay, (m.dev h).period)
  else pure (0, 0)

/-- `KDKBDREP`; `user` is the `kbd_repeat`, if it can be read. -/
def kdkbdrep (vc : Nat) (cap : Bool) (user : Option (Int × Int)) (writable : Bool) : Dev N Int :=
  if !cap then pure (-1)
  else
    match user with
    | none => pure (-14)
    | some (delay, period) => do
      let v ← displayFg vc
      let m ← Touch.look
      let _ ← kbdRate (m.seats.keyboard v) delay period
      pure (if writable then 0 else -14)

/-! ### Beeps -/

/-- The events for a device that can beep: a tone of `hz`, and the bell switched to `bell`. -/
def sendSound (h : Nat) (dev : KeyDev) (hz bell : Nat) : Dev N Unit :=
  Touch.guarded dev.evSnd do
    Touch.guarded dev.sndTone (inputEvent h (.tone hz))
    Touch.guarded dev.sndBell (inputEvent h (.bell bell))

/-- `kd_nosound`. -/
def kdNosound (h : Option Nat) : Dev N Unit := do
  let (h, dev) ← handle h
  sendSound h dev 0 0

/-- Set the timer `beep` of a VT, or take it out. -/
def setTimer (v : Fin N) (ticks : Option Nat) : Dev N Unit :=
  Touch.change fun m => { m with beepIn := Function.update m.beepIn v ticks }

/-- `kd_mksound`. -/
def kdMksound (h : Option Nat) (hz ticks : Nat) : Dev N Unit :=
  match h with
  | none => pure ()
  | some p => do
    let (p, dev) ← handle (some p)
    let m ← Touch.look
    match m.seats.private_ p with
    | none => pure ()
    | some v => do
      setTimer v none
      if hz ≠ 0 then do
        sendSound p dev hz 1
        Touch.guarded (ticks ≠ 0) (setTimer v (some ticks))
      else kdNosound (some p)

/-- The beeper of the VT sounds. -/
def sound (vc hz ticks : Nat) : Dev N Unit := do
  let v ← displayFg vc
  let m ← Touch.look
  kdMksound (m.seats.beeper v) hz ticks

/-- `CLOCK_TICK_RATE`. -/
def clockTickRate : Nat := 1193180

/-- `KIOCSOUND`. -/
def kiocsound (vc : Nat) (perm : Bool) (arg : Nat) : Dev N VtRet :=
  if !perm then pure .eperm
  else do
    sound vc (if arg ≠ 0 then clockTickRate / arg else arg) 0
    pure .ok

/-- `KDMKTONE`. -/
def kdmktone (vc : Nat) (perm : Bool) (arg : Nat) : Dev N VtRet :=
  if !perm then pure .eperm
  else do
    let ticks := HZ * (arg >>> 16 &&& 0xffff) / 1000
    let count := if ticks ≠ 0 then arg &&& 0xffff else 0
    sound vc (if count ≠ 0 then clockTickRate / count else count) ticks
    pure .ok

/-- The timer `beep` of the VT `v` expires, if it is pending. -/
def beepTimer (v : Fin N) : Dev N Unit := do
  let m ← Touch.look
  Touch.guarded (m.beepIn v).isSome do
    setTimer v none
    kdNosound (m.seats.beep v)

/-! ### The special keys -/

/-- `fn_show_ptregs`. -/
def fnShowPtregs (vc : Nat) : Dev N Unit := do
  let v ← displayFg vc
  let m ← Touch.look
  let (_, dev) ← handle (m.seats.keyboard v)
  Touch.guarded dev.regs (Touch.change fun m => { m with shownRegs := m.shownRegs + 1 })

/-- `set_console`. -/
def setConsole (v : Fin N) (p : Option Nat) : Dev N Unit := do
  console p
  Touch.change fun m => { m with kernel := m.kernel.setConsole v p }

/-- `fn_lastcons`. -/
def fnLastcons (vc : Nat) : Dev N Unit := do
  let v ← displayFg vc
  let m ← Touch.look
  setConsole v (some (m.kernel.vt v).lastConsole)

/-- `fn_dec_console` and `fn_inc_console`, with the parameters of `Kernel.fnScan`. -/
def fnScan (P : Pools N) (vc : Nat) (d : Int) (edge back : Fin N → Int) : Dev N Unit := do
  let v ← displayFg vc
  let m ← Touch.look
  console (some (m.kernel.vt v).fgConsole)
  let j : Int := (m.kernel.con (m.kernel.vt v).fgConsole).vcNum - P.firstVc v
  match Kernel.scanCons (m.kernel.vt v).vcCons j d (edge v) (back v) (P.vcCount v + 1) (j + d) with
  | some p => setConsole v (some p)
  | none => pure ()

/-- `k_spec` with the members of `fn_handler`.  Those that are not named read through no pointer but
the one to their own console; 0, 3, 4, 12, 14 and 18 not even through that. -/
def kSpec (P : Pools N) (vc value : Nat) (up : Bool) : Dev N Unit :=
  if up then pure ()
  else if value ≥ 20 then pure ()
  else do
    console (some vc)
    let m ← Touch.look
    if m.kernel.rawMode vc ∧ value ≠ 15 then pure ()
    else
      match value with
      | 2 => fnShowPtregs vc
      | 6 => fnLastcons vc
      | 15 => do
        console (some vc)
        Touch.change fun m => { m with kernel := m.kernel.resetVc vc }
      | 16 => fnScan P vc (-1) (fun _ => -1) (fun v => P.vcCount v - 1)
      | 17 => fnScan P vc 1 (fun v => P.vcCount v) (fun _ => 0)
      | _ => console (some vc)

end Dev

/-- The calls: the ioctls with the console they are made on, the bell, a timer that expires, and a
special key that goes to the foreground console of a VT. -/
inductive DeviceCall (N : Nat)
  | vtResize (vc : Nat) (perm : Bool) (sizes : Option (Nat × Nat))
  | vtResizex (vc : Nat) (perm : Bool) (size : Option Dev.VtConsize)
  | kdgetkeycode (vc : Nat) (user : Option Nat) (writable : Bool)
  | kdsetkeycode (vc : Nat) (user : Option (Nat × Nat)) (perm : Bool)
  | kdkbdrep (vc : Nat) (cap : Bool) (user : Option (Int × Int)) (writable : Bool)
  | kiocsound (vc : Nat) (perm : Bool) (arg : Nat)
  | kdmktone (vc : Nat) (perm : Bool) (arg : Nat)
  | bell (vc pitch duration : Nat)
  | beepTimer (v : Fin N)
  | key (v : Fin N) (value : Nat) (up : Bool)

namespace Devices

variable {N : Nat} (P : Pools N) (m : Devices N)

/-- What a call reads through. -/
def reads : DeviceCall N → List Ptr
  | .vtResize vc perm sizes => (Dev.vtResize P vc perm sizes m).1
  | .vtResizex vc perm size => (Dev.vtResizex P vc perm size m).1
  | .kdgetkeycode vc user writable => (Dev.kdgetkeycode vc user writable m).1
  | .kdsetkeycode vc user perm => (Dev.kdsetkeycode vc user perm m).1
  | .kdkbdrep vc cap user writable => (Dev.kdkbdrep vc cap user writable m).1
  | .kiocsound vc perm arg => (Dev.kiocsound vc perm arg m).1
  | .kdmktone vc perm arg => (Dev.kdmktone vc perm arg m).1
  | .bell vc pitch duration => (Dev.sound vc pitch duration m).1
  | .beepTimer v => (Dev.beepTimer v m).1
  | .key v value up => (Dev.kSpec P (m.kernel.vt v).fgConsole value up m).1

/-- The console a call is made on, if it is made on one: it is allocated. -/
def subject : DeviceCall N → Option Nat
  | .vtResize vc _ _ | .vtResizex vc _ _ | .kdgetkeycode vc _ _ | .kdsetkeycode vc _ _
  | .kdkbdrep vc _ _ _ | .kiocsound vc _ _ | .kdmktone vc _ _ | .bell vc _ _ => some vc
  | .beepTimer _ => none
  | .key v _ _ => some (m.kernel.vt v).fgConsole

/-- The pointer leads to an allocated console or a connected handle. -/
def Leads : Ptr → Prop
  | .console p => m.kernel.live p
  | .handle h => h ∈ m.seats.handles
  | .null => False

/-- The VT has a keyboard, and it is connected. -/
def HasKeyboard (v : Fin N) : Prop := ∃ h, m.seats.keyboard v = some h ∧ h ∈ m.seats.handles

/-- The beeper of the VT, if it has one, is connected. -/
def BeeperConnected (v : Fin N) : Prop := ∀ h, m.seats.beeper v = some h → h ∈ m.seats.handles

/-- What has to be there for a call. -/
def Present : DeviceCall N → Prop
  | .vtResize .. => True
  | .vtResizex vc perm size =>
    ∀ c : Dev.VtConsize, size = some c → perm = true →
      c.addsUp (c.scanLines (m.scanLines vc)) = true →
      (c.scanLines (m.scanLines vc) ≠ 0 ∨ c.vClin ≠ 0) →
      ∀ i < P.vcCount (m.kernel.con vc).displayFg,
        (m.kernel.vt (m.kernel.con vc).displayFg).vcCons i ≠ none
  | .kdgetkeycode vc user _ => user ≠ none → m.HasKeyboard (m.kernel.con vc).displayFg
  | .kdsetkeycode vc user perm =>
    user ≠ none → perm = true → m.HasKeyboard (m.kernel.con vc).displayFg
  | .kdkbdrep vc cap user _ =>
    cap = true → user ≠ none → m.HasKeyboard (m.kernel.con vc).displayFg
  | .kiocsound vc perm _ => perm = true → m.BeeperConnected (m.kernel.con vc).displayFg
  | .kdmktone vc perm _ => perm = true → m.BeeperConnected (m.kernel.con vc).displayFg
  | .bell vc _ _ => m.BeeperConnected (m.kernel.con vc).displayFg
  | .beepTimer v => (m.beepIn v).isSome → ∃ h, m.seats.beep v = some h ∧ h ∈ m.seats.handles
  | .key v value up =>
    up = false → m.kernel.rawMode (m.kernel.vt v).fgConsole = false →
      (value = 2 → m.HasKeyboard v) ∧ (value = 6 → m.kernel.live (m.kernel.vt v).lastConsole)

end Devices

/-! ### What each function reads through -/

namespace Dev

open Lib.Touch

variable {N : Nat} {good : Ptr → Prop} {m : Devices N}

@[simp] theorem only_console (p : Option Nat) :
    Only good (console p) m ↔ (∀ q, p = some q → good (.console q)) ∧ (p = none → good .null) := by
  rw [console.eq_def]
  cases p with
  | none => simp
  | some q => simp

theorem only_console_bind {β : Type} (p : Nat) (f : Unit → Dev N β) :
    Only good (console (some p) >>= f) m ↔ good (.console p) ∧ Only good (f ()) m :=
  only_touch_bind (Ptr.console p) f

@[simp] theorem only_displayFg_bind {β : Type} (vc : Nat) (f : Fin N → Dev N β) :
    Only good (displayFg vc >>= f) m ↔
      good (.console vc) ∧ Only good (f (m.kernel.con vc).displayFg) m := by
  have hassoc : (displayFg vc >>= f) m =
      (console (some vc) >>= fun _ => look >>= fun m => f (m.kernel.con vc).displayFg) m := rfl
  rw [Only, hassoc]
  exact (only_console_bind vc _).trans (and_congr_right fun _ => only_look_bind _)

theorem only_handle_bind {β : Type} (h : Option Nat) (f : Nat × KeyDev → Dev N β) :
    Only good (handle h >>= f) m ↔
      (∀ p, h = some p → good (.handle p) ∧ Only good (f (p, m.dev p)) m) ∧
        (h = none → good .null) := by
  cases h with
  | none =>
    refine ⟨fun hall => ⟨fun p hp => (by cases hp), fun _ => ?_⟩, fun hall q hq => ?_⟩
    · exact hall .null (List.mem_singleton.mpr rfl)
    rw [List.mem_singleton.mp hq]
    exact hall.2 rfl
  | some p =>
    have hassoc : (handle (some p) >>= f) m =
        (touch (.handle p) >>= fun _ => look >>= fun m => f (p, m.dev p)) m := rfl
    rw [Only, hassoc]
    refine (only_touch_bind (Ptr.handle p) _).trans ?_
    rw [only_look_bind]
    constructor
    · intro hall
      refine ⟨fun q hq => ?_, fun hnone => by cases hnone⟩
      obtain rfl := Option.some.inj hq
      exact hall
    · exact fun hall => hall.1 p rfl

/-- A handle and what follows it without reading through anything. -/
theorem only_handle_silent {β : Type} (h : Option Nat) {f : Nat × KeyDev → Dev N β}
    (hf : ∀ r, Silent (f r)) :
    Only good (handle h >>= f) m ↔
      (∀ p, h = some p → good (.handle p)) ∧ (h = none → good .null) := by
  rw [only_handle_bind]
  refine and_congr_left fun _ => forall_congr' fun p => forall_congr' fun _ => ?_
  exact and_iff_left (hf _).only

theorem silent_inputEvent (h : Nat) (e : InputEvent) : Silent (inputEvent (N := N) h e) :=
  silent_change _

theorem silent_updDev (h : Nat) (f : KeyDev → KeyDev) : Silent (updDev (N := N) h f) :=
  silent_change _

theorem silent_sendSound (h : Nat) (dev : KeyDev) (hz bell : Nat) :
    Silent (sendSound (N := N) h dev hz bell) :=
  (((silent_inputEvent h _).guarded _).bind fun _ => (silent_inputEvent h _).guarded _).guarded _

@[simp] theorem only_vcResize (p : Option Nat) :
    Only good (vcResize p) m ↔ ∀ q, p = some q → good (.console q) := by
  rw [vcResize.eq_def]
  cases p with
  | none => simp
  | some q => simp

theorem only_getkeycode (h : Option Nat) (scancode : Nat) :
    Only good (getkeycode h scancode) m ↔
      (∀ p, h = some p → good (.handle p)) ∧ (h = none → good .null) := by
  rw [getkeycode]
  exact only_handle_silent h fun r => silent_pure _

theorem only_setkeycode (h : Option Nat) (scancode keycode : Nat) :
    Only good (setkeycode h scancode keycode) m ↔
      (∀ p, h = some p → good (.handle p)) ∧ (h = none → good .null) := by
  rw [setkeycode]
  exact only_handle_silent h fun r => (silent_updDev _ _).bind fun _ => silent_pure _

theorem only_kbdRate (h : Option Nat) (delay period : Int) :
    Only good (kbdRate h delay period) m ↔
      (∀ p, h = some p → good (.handle p)) ∧ (h = none → good .null) := by
  rw [kbdRate]
  refine only_handle_silent h fun r => ?_
  have hset (e : InputEvent) (f : KeyDev → KeyDev) :
      Silent (inputEvent (N := N) r.1 e >>= fun _ => updDev r.1 f) :=
    (silent_inputEvent _ _).bind fun _ => silent_updDev _ _
  dsimp only
  split
  · refine ((hset _ _).guarded _).bind fun _ => ((hset _ _).guarded _).bind fun _ => ?_
    exact silent_look.bind fun _ => silent_pure _
  · exact silent_pure _

theorem only_kdNosound (h : Option Nat) :
    Only good (kdNosound h) m ↔
      (∀ p, h = some p → good (.handle p)) ∧ (h = none → good .null) := by
  rw [kdNosound]
  exact only_handle_silent h fun r => silent_sendSound _ _ _ _

theorem only_kdMksound (h : Option Nat) (hz ticks : Nat) :
    Only good (kdMksound h hz ticks) m ↔ ∀ p, h = some p → good (.handle p) := by
  rw [kdMksound.eq_def]
  cases h with
  | none => simp
  | some p =>
    dsimp only
    rw [only_handle_bind]
    constructor
    · exact fun hall q hq => (hall.1 q hq).1
    · intro hall
      refine ⟨fun q hq => ⟨hall q hq, ?_⟩, fun hnone => by cases hnone⟩
      obtain rfl := Option.some.inj hq
      dsimp only
      rw [only_look_bind]
      split
      · simp
      · refine (silent_change _).only_bind _ fun _ m' => ?_
        split
        · exact ((silent_sendSound _ _ _ _).bind fun _ => (silent_change _).guarded _).only
        · exact (only_kdNosound _).mpr ⟨hall, fun hnone => by cases hnone⟩

theorem only_sound (vc hz ticks : Nat) :
    Only good (sound vc hz ticks) m ↔ good (.console vc) ∧
      ∀ p, m.seats.beeper (m.kernel.con vc).displayFg = some p → good (.handle p) := by
  rw [sound, only_displayFg_bind, only_look_bind, only_kdMksound]

theorem only_fnShowPtregs (vc : Nat) :
    Only good (fnShowPtregs vc) m ↔ good (.console vc) ∧
      (∀ p, m.seats.keyboard (m.kernel.con vc).displayFg = some p → good (.handle p)) ∧
        (m.seats.keyboard (m.kernel.con vc).displayFg = none → good .null) := by
  rw [fnShowPtregs, only_displayFg_bind, only_look_bind]
  refine and_congr_right fun _ => only_handle_silent _ fun r => ?_
  exact (silent_change _).guarded _

theorem only_setConsole (v : Fin N) (p : Nat) :
    Only good (setConsole v (some p)) m ↔ good (.console p) := by
  rw [setConsole, only_console_bind, only_change, and_true]

/-! ### The loops over a pool -/

variable {P : Pools N}

theorem vcResize_ends (p : Option Nat) (m : Devices N) :
    ∃ m', (vcResize p m).2 = some ((), m') := by
  cases p with
  | none => exact ⟨m, rfl⟩
  | some q => exact ⟨m, rfl⟩

/-- `VT_RESIZE` gives `vc_resize` every slot, and that looks whether there is a console in it. -/
theorem only_vtResize (h : Consistent P m.kernel) {vc : Nat} (hvc : m.kernel.live vc)
    (perm : Bool) (sizes : Option (Nat × Nat)) : Only m.Leads (vtResize P vc perm sizes) m := by
  rw [vtResize]
  split
  · exact (only_pure _).mpr trivial
  split
  · exact (only_pure _).mpr trivial
  refine (only_displayFg_bind vc _).mpr ⟨hvc, (only_look_bind _).mpr ?_⟩
  refine (only_bind _ _).mpr ⟨?_, fun _ _ _ => (only_pure _).mpr trivial⟩
  refine (only_each (I := fun _ => True) (Q := fun _ => True) _ (fun i s _ => ?_)
    (fun i s _ _ => ?_) _ trivial).mpr fun i _ => trivial
  · refine iff_true_intro ((only_vcResize _).mpr fun q hq => ?_)
    exact (h.slot _ i q hq).1
  · exact (vcResize_ends _ s).imp fun s' hs' => ⟨hs', trivial⟩

/-- A round of `VT_RESIZEX` on a console reads through the pointer to it. -/
theorem only_resizexAt_some (vlin clin q : Nat) :
    Only good (resizexAt vlin clin (some q)) m ↔ good (.console q) := by
  have hset (f : Devices N → Devices N) (m : Devices N) :
      Only good (console (some q) >>= fun _ => change f) m ↔ good (.console q) := by
    rw [only_console_bind, only_change, and_true]
  constructor
  · intro hall
    refine hall _ ?_
    rw [resizexAt, guarded, guarded]
    split <;> split <;> simp [bind, andThen, console, touch, change, vcResize, ret]
  · intro hq
    rw [resizexAt]
    have hguarded (c : Prop) [Decidable c] (f : Devices N → Devices N) (m : Devices N) :
        Only good (guarded c (console (some q) >>= fun _ => change f)) m :=
      (only_guarded _ _).mpr fun _ => (hset f m).mpr hq
    refine (only_bind _ _).mpr ⟨hguarded _ _ _, fun _ m' _ => ?_⟩
    refine (only_bind _ _).mpr ⟨hguarded _ _ _, fun _ m' _ => ?_⟩
    refine (only_vcResize _).mpr fun q' hq' => ?_
    obtain rfl := Option.some.inj hq'
    exact hq

/-- A round of `VT_RESIZEX` on an empty slot reads through the null pointer to set something. -/
theorem only_resizexAt_none (vlin clin : Nat) :
    Only good (resizexAt vlin clin none) m ↔ (vlin ≠ 0 ∨ clin ≠ 0 → good .null) := by
  by_cases hvlin : vlin = 0
  · by_cases hclin : clin = 0
    · subst hvlin hclin
      refine ⟨fun _ hne => ?_, fun _ q hq => ?_⟩
      · rcases hne with hne | hne
        · exact absurd rfl hne
        · exact absurd rfl hne
      · cases hq
    · have hfault : resizexAt (N := N) vlin clin none m = ([.null], none) := by
        rw [resizexAt, hvlin, guarded, guarded, if_neg (by simp), if_pos hclin]
        rfl
      rw [Only, hfault]
      simp [hclin]
  · have hfault : resizexAt (N := N) vlin clin none m = ([.null], none) := by
      rw [resizexAt, guarded, if_pos hvlin]
      rfl
    rw [Only, hfault]
    simp [hvlin]

theorem resizexAt_ends {vlin clin : Nat} {p : Option Nat}
    (hp : vlin ≠ 0 ∨ clin ≠ 0 → p ≠ none) (m : Devices N) :
    ∃ m', (resizexAt vlin clin p m).2 = some ((), m') := by
  cases p with
  | some q =>
    rw [resizexAt, guarded, guarded]
    split <;> split <;> exact ⟨_, rfl⟩
  | none =>
    have hvlin : vlin = 0 := by_contra fun h => hp (.inl h) rfl
    have hclin : clin = 0 := by_contra fun h => hp (.inr h) rfl
    subst hvlin hclin
    exact ⟨m, rfl⟩

/-- `VT_RESIZEX` does not look whether there is a console in a slot. -/
theorem only_vtResizex (h : Consistent P m.kernel) {vc : Nat} (hvc : m.kernel.live vc)
    (perm : Bool) (size : Option VtConsize) :
    Only m.Leads (vtResizex P vc perm size) m ↔ m.Present P (.vtResizex vc perm size) := by
  rw [vtResizex.eq_def]
  cases perm with
  | false =>
    refine iff_of_true ((only_pure _).mpr trivial) ?_
    intro c _ hno
    cases hno
  | true =>
  cases size with
  | none =>
    refine iff_of_true ((only_pure _).mpr trivial) ?_
    intro c hc
    cases hc
  | some c =>
    rw [if_neg (by decide), only_displayFg_bind, only_look_bind]
    set v := (m.kernel.con vc).displayFg with hv
    dsimp only
    set vlin := c.scanLines (m.scanLines vc) with hvlin
    have hpresent : m.Present P (.vtResizex vc true (some c)) ↔
        (c.addsUp vlin = true → (vlin ≠ 0 ∨ c.vClin ≠ 0) →
          ∀ i < P.vcCount v, (m.kernel.vt v).vcCons i ≠ none) := by
      refine ⟨fun hall => hall c rfl rfl, fun hall c' hc' _ => ?_⟩
      obtain rfl := Option.some.inj hc'
      exact hall
    rw [hpresent, and_iff_right (show m.Leads (.console vc) from hvc)]
    cases hadds : c.addsUp vlin with
    | false => simp
    | true =>
      rw [if_neg (by decide), only_bind]
      rw [and_iff_left fun _ _ _ => (only_pure _).mpr trivial]
      rw [only_each (I := fun _ => True)
        (Q := fun i => vlin ≠ 0 ∨ c.vClin ≠ 0 → (m.kernel.vt v).vcCons i ≠ none) _
        (fun i s _ => ?_) (fun i s _ hi => ?_) _ trivial]
      · simp only [List.mem_range, forall_true_left]
        exact ⟨fun hall hne i hi => hall i hi hne, fun hall i hi hne => hall hne i hi⟩
      · cases hslot : (m.kernel.vt v).vcCons i with
        | some q =>
          rw [only_resizexAt_some]
          exact iff_of_true (h.slot v i q hslot).1 fun _ hnone => by cases hnone
        | none =>
          rw [only_resizexAt_none]
          exact forall_congr' fun _ => ⟨fun hno => hno.elim, fun hne => absurd rfl hne⟩
      · exact (resizexAt_ends hi s).imp fun s' hs' => ⟨hs', trivial⟩

/-! ### What the ioctls read through -/

/-- A pointer to a handle that may be null leads somewhere if and only if there is a handle and it
is connected. -/
theorem leads_handle (h : Option Nat) :
    ((∀ p, h = some p → m.Leads (.handle p)) ∧ (h = none → m.Leads .null)) ↔
      ∃ p, h = some p ∧ p ∈ m.seats.handles := by
  cases h with
  | none => exact ⟨fun hall => (hall.2 rfl).elim, fun ⟨p, hp, _⟩ => by cases hp⟩
  | some p =>
    constructor
    · exact fun hall => ⟨p, rfl, hall.1 p rfl⟩
    · rintro ⟨q, hq, hin⟩
      refine ⟨fun r hr => ?_, fun hno => by cases hno⟩
      obtain rfl := Option.some.inj hr
      obtain rfl := Option.some.inj hq
      exact hin

/-- What is done with the keyboard of a VT without looking whether there is one. -/
theorem only_keyboard_bind {β : Type} {vc : Nat} (hvc : m.kernel.live vc)
    {f : Option Nat → Dev N β}
    (hf : ∀ h, Only m.Leads (f h) m ↔
      (∀ p, h = some p → m.Leads (.handle p)) ∧ (h = none → m.Leads .null)) :
    Only m.Leads (displayFg vc >>= fun v => look >>= fun m => f (m.seats.keyboard v)) m ↔
      m.HasKeyboard (m.kernel.con vc).displayFg := by
  rw [only_displayFg_bind, only_look_bind, hf, leads_handle]
  exact and_iff_right hvc

theorem only_kdgetkeycode {vc : Nat} (hvc : m.kernel.live vc) (user : Option Nat)
    (writable : Bool) :
    Only m.Leads (kdgetkeycode vc user writable) m ↔
      m.Present P (.kdgetkeycode vc user writable) := by
  cases user with
  | none => exact iff_of_true ((only_pure _).mpr trivial) fun hno => absurd rfl hno
  | some scancode =>
    have hneeds : m.Present P (.kdgetkeycode vc (some scancode) writable) ↔
        m.HasKeyboard (m.kernel.con vc).displayFg :=
      ⟨fun hall => hall (Option.some_ne_none _), fun hall _ => hall⟩
    rw [hneeds]
    refine only_keyboard_bind (f := fun h => do
      let kc ← getkeycode h scancode
      if kc ≥ 0 then pure (if writable then 0 else -14) else pure kc) hvc fun h => ?_
    refine (only_bind_silent _ fun kc => ?_).trans (only_getkeycode h scancode)
    split
    · exact silent_pure _
    · exact silent_pure _

theorem only_kdsetkeycode {vc : Nat} (hvc : m.kernel.live vc) (user : Option (Nat × Nat))
    (perm : Bool) :
    Only m.Leads (kdsetkeycode vc user perm) m ↔ m.Present P (.kdsetkeycode vc user perm) := by
  cases user with
  | none => exact iff_of_true ((only_pure _).mpr trivial) fun hno => absurd rfl hno
  | some pair =>
    cases perm with
    | false =>
      refine iff_of_true ((only_pure _).mpr trivial) fun _ hno => ?_
      cases hno
    | true =>
      have hneeds : m.Present P (.kdsetkeycode vc (some pair) true) ↔
          m.HasKeyboard (m.kernel.con vc).displayFg :=
        ⟨fun hall => hall (Option.some_ne_none _) rfl, fun hall _ _ => hall⟩
      rw [hneeds]
      exact only_keyboard_bind hvc fun h => only_setkeycode h pair.1 pair.2

theorem only_kdkbdrep {vc : Nat} (hvc : m.kernel.live vc) (cap : Bool)
    (user : Option (Int × Int)) (writable : Bool) :
    Only m.Leads (kdkbdrep vc cap user writable) m ↔
      m.Present P (.kdkbdrep vc cap user writable) := by
  cases cap with
  | false =>
    refine iff_of_true ((only_pure _).mpr trivial) fun hno => ?_
    cases hno
  | true =>
    cases user with
    | none => exact iff_of_true ((only_pure _).mpr trivial) fun _ hno => absurd rfl hno
    | some rate =>
      have hneeds : m.Present P (.kdkbdrep vc true (some rate) writable) ↔
          m.HasKeyboard (m.kernel.con vc).displayFg :=
        ⟨fun hall => hall rfl (Option.some_ne_none _), fun hall _ _ => hall⟩
      rw [hneeds]
      refine only_keyboard_bind (f := fun h => do
        let _ ← kbdRate h rate.1 rate.2
        pure (if writable then 0 else -14)) hvc fun h => ?_
      exact (only_bind_silent _ fun _ => silent_pure _).trans (only_kbdRate h rate.1 rate.2)

theorem only_beep {vc : Nat} (hvc : m.kernel.live vc) (perm : Bool) (hz ticks : Nat) :
    Only m.Leads
        (if !perm then pure VtRet.eperm else sound vc hz ticks >>= fun _ => pure VtRet.ok) m ↔
      (perm = true → m.BeeperConnected (m.kernel.con vc).displayFg) := by
  cases perm with
  | false =>
    refine iff_of_true ((only_pure _).mpr trivial) fun hno => ?_
    cases hno
  | true =>
    rw [if_neg (by decide), only_bind_silent _ fun _ => silent_pure _, only_sound]
    exact ⟨fun hall _ => hall.2, fun hall => ⟨hvc, hall rfl⟩⟩

theorem only_kiocsound {vc : Nat} (hvc : m.kernel.live vc) (perm : Bool) (arg : Nat) :
    Only m.Leads (kiocsound vc perm arg) m ↔ m.Present P (.kiocsound vc perm arg) :=
  only_beep hvc perm _ 0

theorem only_kdmktone {vc : Nat} (hvc : m.kernel.live vc) (perm : Bool) (arg : Nat) :
    Only m.Leads (kdmktone vc perm arg) m ↔ m.Present P (.kdmktone vc perm arg) :=
  only_beep hvc perm _ _

/-- The timer reads through the handle that it was set on. -/
theorem only_beepTimer (v : Fin N) :
    Only m.Leads (beepTimer v) m ↔ m.Present P (.beepTimer v) := by
  rw [beepTimer, only_look_bind, only_guarded]
  refine forall_congr' fun _ => ?_
  rw [setTimer, only_change_bind, only_kdNosound]
  exact leads_handle (m.seats.beep v)

/-! ### The special keys -/

/-- The console that `fn_dec_console` or `fn_inc_console` finds is allocated. -/
theorem only_fnScan (h : Consistent P m.kernel) {vc : Nat} (hvc : m.kernel.live vc)
    (hfg : m.kernel.live (m.kernel.vt (m.kernel.con vc).displayFg).fgConsole) (d : Int)
    (edge back : Fin N → Int) : Only m.Leads (fnScan P vc d edge back) m := by
  rw [fnScan, only_displayFg_bind, only_look_bind, only_console_bind]
  refine ⟨hvc, hfg, ?_⟩
  dsimp only
  split
  · next p hp =>
    obtain ⟨i, hi⟩ := Kernel.scanCons_slot hp
    exact (only_setConsole _ p).mpr (h.slot _ i p hi).1
  · exact (only_pure _).mpr trivial

theorem only_kSpec (h : Consistent P m.kernel) (v : Fin N)
    (hfg : m.kernel.live (m.kernel.vt v).fgConsole) (value : Nat) (up : Bool) :
    Only m.Leads (kSpec P (m.kernel.vt v).fgConsole value up) m ↔
      m.Present P (.key v value up) := by
  set vc := (m.kernel.vt v).fgConsole with hvc
  have hv : (m.kernel.con vc).displayFg = v := (h.fg v).2
  rw [kSpec.eq_def]
  cases up with
  | true =>
    refine iff_of_true ((only_pure _).mpr trivial) ?_
    intro hno
    cases hno
  | false =>
    have hraw : m.Present P (.key v value false) ↔
        (¬(m.kernel.rawMode vc = true) → (value = 2 → m.HasKeyboard v) ∧
          (value = 6 → m.kernel.live (m.kernel.vt v).lastConsole)) := by
      rw [Bool.not_eq_true]
      exact ⟨fun hall => hall rfl, fun hall _ => hall⟩
    rw [if_neg (by decide), hraw]
    by_cases hvalue : value ≥ 20
    · rw [if_pos hvalue]
      refine iff_of_true ((only_pure _).mpr trivial) fun _ => ⟨?_, ?_⟩
      · omega
      · omega
    rw [if_neg hvalue, only_console_bind, only_look_bind,
      and_iff_right (show m.Leads (.console vc) from hfg)]
    by_cases hskip : m.kernel.rawMode vc = true ∧ value ≠ 15
    · rw [if_pos hskip]
      exact iff_of_true ((only_pure _).mpr trivial) fun hno => absurd hskip.1 hno
    rw [if_neg hskip]
    have hcooked (hne : value ≠ 15) : ¬m.kernel.rawMode vc = true :=
      fun hraw => hskip ⟨hraw, hne⟩
    have hfg' : m.kernel.live (m.kernel.vt (m.kernel.con vc).displayFg).fgConsole := by
      rw [hv]
      exact hfg
    split
    · -- fn_show_ptregs
      rw [only_fnShowPtregs, hv, leads_handle, and_iff_right (show m.Leads (.console vc) from hfg)]
      exact ⟨fun hall _ => ⟨fun _ => hall, fun hno => absurd hno (by decide)⟩,
        fun hall => (hall (hcooked (by decide))).1 rfl⟩
    · -- fn_lastcons
      rw [fnLastcons, only_displayFg_bind, only_look_bind, hv, only_setConsole,
        and_iff_right (show m.Leads (.console vc) from hfg)]
      exact ⟨fun hall _ => ⟨fun hno => absurd hno (by decide), fun _ => hall⟩,
        fun hall => (hall (hcooked (by decide))).2 rfl⟩
    · -- fn_SAK
      refine iff_of_true ?_ fun _ =>
        ⟨fun hno => absurd hno (by decide), fun hno => absurd hno (by decide)⟩
      exact (only_console_bind vc _).mpr ⟨hfg, (only_change _).mpr trivial⟩
    · -- fn_dec_console
      exact iff_of_true (only_fnScan h hfg hfg' _ _ _)
        fun _ => ⟨fun hno => absurd hno (by decide), fun hno => absurd hno (by decide)⟩
    · -- fn_inc_console
      exact iff_of_true (only_fnScan h hfg hfg' _ _ _)
        fun _ => ⟨fun hno => absurd hno (by decide), fun hno => absurd hno (by decide)⟩
    · next hptregs hlastcons _ _ _ =>
      refine iff_of_true ((only_touch _).mpr hfg) fun _ => ⟨fun hno => ?_, fun hno => ?_⟩
      · exact absurd hno hptregs
      · exact absurd hno hlastcons

end Dev

namespace Devices

variable {N : Nat} {P : Pools N} {m : Devices N}

/-- **What has to be there**: on pools that fit together and for a call on an allocated console,
every pointer that is read through leads to an allocated console or to a connected handle if and
only if what the call needs is present.

`VT_RESIZE` and the ways from one console to the next check each slot, and `kd_mksound` looks for a
beeper.  `VT_RESIZEX` does not check the slots, and the keycode ioctls, `KDKBDREP` and
`fn_show_ptregs` do not look whether there is a keyboard. -/
theorem absent_objects_iff (h : Consistent P m.kernel) (call : DeviceCall N)
    (hsub : ∀ vc, m.subject call = some vc → m.kernel.live vc) :
    (∀ q ∈ m.reads P call, m.Leads q) ↔ m.Present P call := by
  cases call with
  | vtResize vc perm sizes =>
    exact iff_of_true (Dev.only_vtResize h (hsub vc rfl) perm sizes) trivial
  | vtResizex vc perm size => exact Dev.only_vtResizex h (hsub vc rfl) perm size
  | kdgetkeycode vc user writable => exact Dev.only_kdgetkeycode (hsub vc rfl) user writable
  | kdsetkeycode vc user perm => exact Dev.only_kdsetkeycode (hsub vc rfl) user perm
  | kdkbdrep vc cap user writable => exact Dev.only_kdkbdrep (hsub vc rfl) cap user writable
  | kiocsound vc perm arg => exact Dev.only_kiocsound (hsub vc rfl) perm arg
  | kdmktone vc perm arg => exact Dev.only_kdmktone (hsub vc rfl) perm arg
  | bell vc pitch duration =>
    exact (Dev.only_sound vc pitch duration).trans (and_iff_right (hsub vc rfl))
  | beepTimer v => exact Dev.only_beepTimer v
  | key v value up => exact Dev.only_kSpec h v (hsub _ rfl) value up

/-- A device that does nothing. -/
def idleDev : KeyDev where
  keycodesize := 0
  keycodemax := 0
  keycode _ := 0
  keybit _ := false
  evRep := false
  evSnd := false
  sndTone := false
  sndBell := false
  delay := 0
  period := 0
  regs := false

/-- One VT with its first console, before a keyboard or a beeper is found. -/
def bareVt : Devices 1 where
  kernel := .boot onePool
  seats := ⟨[], fun _ => ⟨false, false, none⟩, fun _ => none, 0, fun _ => none, fun _ => none,
    fun _ => none, some (Fin.last 0)⟩
  dev _ := idleDev
  scanLines _ := 400
  fontHeight _ := 16
  events := []
  beepIn _ := none
  shownRegs := 0

theorem absent_objects_bareVt :
    (∀ q ∈ bareVt.reads onePool (.bell 0 750 25), bareVt.Leads q) ↔
      bareVt.Present onePool (.bell 0 750 25) := by
  refine absent_objects_iff (boot_consistent onePool) _ fun vc hvc => ?_
  obtain rfl := Option.some.inj hvc
  decide

/-- Without a keyboard, `KDGETKEYCODE` and `fn_show_ptregs` read through the null pointer, and
`VT_RESIZEX` does so at the first empty slot. -/
theorem absent_objects_read :
    ¬ (∀ q ∈ bareVt.reads onePool (.kdgetkeycode 0 (some 30) true), bareVt.Leads q) ∧
      ¬ (∀ q ∈ bareVt.reads onePool (.key 0 2 false), bareVt.Leads q) ∧
        ¬ (∀ q ∈ bareVt.reads onePool (.vtResizex 0 true (some ⟨25, 80, 400, 16, 0, 0⟩)),
          bareVt.Leads q) := by
  have hnull (call : DeviceCall 1) (hin : Ptr.null ∈ bareVt.reads onePool call) :
      ¬ ∀ q ∈ bareVt.reads onePool call, bareVt.Leads q := fun hall => hall .null hin
  exact ⟨hnull _ (by decide), hnull _ (by decide), hnull _ (by decide +kernel)⟩

end Devices

end LinuxConsole.Switch

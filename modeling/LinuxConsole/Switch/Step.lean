import LinuxConsole.Switch.Kernel

/-!
# Switching consoles

The paths that ask for a switch, the ones that carry it out, and the other
operations on VTs that take `console_sem`: `vt_callback`, the two halves of a
switch, the keyboard handlers, the write path as far as it leaves the console,
and the ioctls.

`Op` lists the operations and `step` runs one of them.  Whatever an operation
finds outside the model is an argument of it: the caller's permissions, the
value copied from user space, whether `kmalloc` succeeds.  Keyboard events and
timers schedule the work of a VT too, so `vt_callback` may run at any time.
-/

namespace LinuxConsole.Switch

/-- What `vt_ioctl` returns here. -/
inductive VtRet
  | ok
  | eperm
  | efault
  | einval
  | enxio
  | ebusy
  | num (n : Nat)
  deriving DecidableEq

/-- The symbols of the keyboard map that are of type `KT_CONS` or `KT_SPEC`. -/
inductive Keysym
  | cons (value : Nat)
  | spec (value : Nat)
  deriving DecidableEq

/-- A `struct vt_mode` copied from user space. -/
structure UserVtMode where
  mode : Int
  waitv : Int
  relsig : Int
  acqsig : Int
  frsig : Int

/-- The commands of `vt_ioctl` with their arguments. -/
inductive Ioctl
  | kdSetmode (arg : Nat)
  | vtSetmode (tmp : Option UserVtMode) (pid : Int)
  | vtGetmode
  | vtActivate (arg : Nat) (mem : Bool)
  | vtReldisp (arg : Nat) (mem : Bool)
  | vtDisallocate (arg : Nat)
  | vtResize (sizes : Option (Nat × Nat))
  | vtLockswitch
  | vtUnlockswitch

namespace Kernel

variable {N : Nat} (P : Pools N) (k : Kernel N)

/-! ### The two halves of a switch -/

/-- `switch_screen`, less the drawing. -/
def switchScreen (new old : Nat) : Kernel N :=
  if old ≠ new then k.updVt (k.con new).displayFg fun t => { t with fgConsole := new } else k

/-- `if (vc_mode == KD_TEXT) unblank_vt(vt); else do_blank_screen(vt, 1)`. -/
def blankForMode (p : Nat) : Kernel N :=
  let v := (k.con p).displayFg
  if (k.con p).vcMode = .text then k.unblankVt v else k.doBlankScreen v true

/-- The first half of `complete_change_console`: the pointers of the VT, and the
blanking when the screen goes from text to graphics or back. -/
def bringToFront (new old : Nat) : Kernel N :=
  let k := k.updVt (k.con new).displayFg fun t => { t with lastConsole := old }
  let oldVcMode := (k.con old).vcMode
  let k := k.switchScreen new old
  if oldVcMode ≠ (k.con new).vcMode then
    (k.acquireConsoleSem.blankForMode new).releaseConsoleSem
  else k

/-- The process that controls the console is asked for with the acquire signal
and is not there. -/
def acqsigFails (new : Nat) : Prop :=
  (k.con new).vtMode.mode = .process ∧
    k.killProc (k.con new).vtPid (k.con new).vtMode.acqsig = false

instance (new : Nat) : Decidable (k.acqsigFails new) := inferInstanceAs (Decidable (_ ∧ _))

/-- The second half of `complete_change_console`: the acquire signal. -/
def sendAcqsig (new : Nat) (oldVcMode : KdMode) : Kernel N :=
  if k.acqsigFails new then
    let k := k.resetVc new
    if oldVcMode ≠ (k.con new).vcMode then k.blankForMode new else k
  else k

/-- `complete_change_console`. -/
def completeChangeConsole (new old : Nat) : Kernel N :=
  (k.bringToFront new old).sendAcqsig new (k.con old).vcMode

/-- `change_console` from `if (old_vc->vc_mode == KD_GRAPHICS)` on. -/
def changeConsoleAuto (new old : Nat) : Kernel N :=
  if (k.con old).vcMode = .graphics then k else k.completeChangeConsole new old

/-- `old_vc->vt_newvt = new_vc->vc_num`, the release signal having been sent. -/
def awaitRelease (new old : Nat) : Kernel N :=
  let k := k.updVt (k.con old).displayFg fun t => { t with releasedTo := some new }
  k.updCon old fun c => { c with vtNewvt := (k.con new).vcNum }

/-- `change_console`. -/
def changeConsole (new old : Nat) : Kernel N :=
  let c := k.con old
  if c.vtMode.mode = .process then
    if k.killProc c.vtPid c.vtMode.relsig then k.awaitRelease new old
    else (k.resetVc old).changeConsoleAuto new old
  else k.changeConsoleAuto new old

/-- What `vt_callback` does about `want_vc`. -/
def switchToWanted (v : Fin N) : Kernel N :=
  let t := k.vt v
  if t.wantVc ≠ t.fgConsole ∧ t.vtDontSwitch = false then
    (k.hand v (some t.wantVc)).changeConsole t.wantVc t.fgConsole
  else k

/-- What `vt_callback` does besides switching. -/
def lateWork (v : Fin N) : Kernel N :=
  let mode := k.fgMode v
  let s := k.screen
  let s :=
    if s.doPokeBlankedConsole then
      { s with doPokeBlankedConsole := false }.pokeBlankedConsole v mode
    else s
  let s :=
    if (s.blank v).scrollbackDelta ≠ 0 then s.upd v fun b => { b with scrollbackDelta := 0 } else s
  let s :=
    if (s.blank v).blankTimerExpired then
      (s.doBlankScreen v mode false).upd v fun b => { b with blankTimerExpired := false }
    else s
  { k with screen := s }

/-- `vt_callback`. -/
def vtCallback (v : Fin N) : Kernel N :=
  if (k.con (k.vt v).wantVc).vcTty = none then k
  else ((k.acquireConsoleSem.switchToWanted v).lateWork v).releaseConsoleSem

/-- `blank_screen_t`; `keventd` is `keventd_up()`. -/
def blankScreenT (v : Fin N) (keventd : Bool) : Kernel N :=
  if keventd then k.updBlank v fun b => { b with blankTimerExpired := true } else k

/-! ### The keyboard -/

/-- `k_cons`. -/
def kCons (vc value : Nat) (up : Bool) : Kernel N :=
  let v := (k.con vc).displayFg
  let tmp := findVc P k (value + P.firstVc v)
  if up ∨ tmp = none then k else k.setConsole v tmp

/-- `fn_lastcons`. -/
def fnLastcons (vc : Nat) : Kernel N :=
  let v := (k.con vc).displayFg
  k.setConsole v (some (k.vt v).lastConsole)

/-- The loop `for (i = j + d; i != j; i += d) { if (i == edge) i = back; ... }` of
`fn_dec_console` and `fn_inc_console`, at most `n` rounds of it: the console in
the first slot that is not empty. -/
def scanCons (cons : Nat → Option Nat) (j d edge back : Int) : Nat → Int → Option Nat
  | 0, _ => none
  | n + 1, i =>
    if i = j then none
    else
      let i := if i = edge then back else i
      match cons i.toNat with
      | some p => some p
      | none => scanCons cons j d edge back n (i + d)

/-- `fn_dec_console` and `fn_inc_console`: the step, the index at which the scan
goes round and where it goes on. -/
def fnScan (vc : Nat) (d : Int) (edge back : Fin N → Int) : Kernel N :=
  let v := (k.con vc).displayFg
  let j : Int := (k.con (k.vt v).fgConsole).vcNum - P.firstVc v
  match scanCons (k.vt v).vcCons j d (edge v) (back v) (P.vcCount v + 1) (j + d) with
  | some p => k.setConsole v (some p)
  | none => k

def fnDecConsole (vc : Nat) : Kernel N :=
  fnScan P k vc (-1) (fun _ => -1) (fun v => P.vcCount v - 1)

def fnIncConsole (vc : Nat) : Kernel N := fnScan P k vc 1 (fun v => P.vcCount v) (fun _ => 0)

/-- The keyboard is in a raw mode. -/
def rawMode (vc : Nat) : Bool := (k.con vc).kbdMode = .raw ∨ (k.con vc).kbdMode = .mediumraw

/-- `k_spec`, with the members of `fn_handler` that switch or reset a
console: 6, 15, 16 and 17 of the 20. -/
def kSpec (vc value : Nat) (up : Bool) : Kernel N :=
  if up then k
  else if value ≥ 20 then k
  else if k.rawMode vc ∧ value ≠ 15 then k
  else
    match value with
    | 6 => k.fnLastcons vc
    | 15 => k.resetVc vc
    | 16 => k.fnDecConsole P vc
    | 17 => k.fnIncConsole P vc
    | _ => k

/-- A key event, from the dispatch of `kbd_keycode` to the end of
`kbd_event`. -/
def kbdEvent (v : Fin N) (sym : Keysym) (up : Bool) : Kernel N :=
  let vc := (k.vt v).fgConsole
  let k :=
    match sym with
    | .cons value => if k.rawMode vc then k else k.kCons P vc value up
    | .spec value => k.kSpec P vc value up
  { k with screen.doPokeBlankedConsole := true }

/-! ### Writing -/

/-- `setterm_command`, as far as it leaves the console. -/
def settermCommand (vc par0 par1 : Nat) : Kernel N :=
  let v := (k.con vc).displayFg
  match par0 with
  | 9 =>
    (k.updBlank v fun b =>
      { b with blankInterval := (if par1 < 60 then par1 else 60) * 60 * HZ }).pokeBlankedConsole v
  | 12 => k.setConsole v (findVc P k par1)
  | 13 => k.pokeBlankedConsole v
  | 14 =>
    k.updBlank v fun b => { b with offInterval := (if par1 < 60 then par1 else 60) * 60 * HZ }
  | 15 => k.setConsole v (some (k.vt v).lastConsole)
  | _ => k

/-- The commands that the bytes of a write hold, to the release of the semaphore
after the loop. -/
def emulate (vc : Nat) : List (Nat × Nat) → Kernel N → Kernel N
  | [], k => k.releaseConsoleSem
  | (par0, par1) :: cmds, k =>
    let k := k.settermCommand P vc par0 par1
    if k.oops then k else emulate vc cmds k

/-- `do_con_write`. -/
def doConWrite (irq : Bool) (vc : Option Nat) (cmds : List (Nat × Nat)) : Kernel N :=
  if irq then k
  else
    let k := k.acquireConsoleSem
    match vc with
    | none => k.releaseConsoleSem
    | some vc => emulate P vc cmds k.releaseConsoleSem.acquireConsoleSem

/-- `vt_flush_chars`, less the cursor. -/
def vtFlushChars (irq : Bool) : Kernel N :=
  if irq then k else k.acquireConsoleSem.releaseConsoleSem

/-- `vt_write`. -/
def vtWrite (irq : Bool) (vc : Option Nat) (cmds : List (Nat × Nat)) : Kernel N :=
  let k := k.doConWrite P irq vc cmds
  if k.oops then k else k.vtFlushChars irq

/-! ### The ioctls -/

/-- `KDSETMODE` with the mode that the argument names. -/
def kdSetmodeTo (vc : Nat) (mode : KdMode) : VtRet × Kernel N :=
  if (k.con vc).vcMode = mode then (.ok, k)
  else
    let k := k.updCon vc fun c => { c with vcMode := mode }
    if k.isVisible vc then (.ok, (k.acquireConsoleSem.blankForMode vc).releaseConsoleSem)
    else (.ok, k)

/-- `KDSETMODE`; 0, 2 and 3 are `KD_TEXT`, `KD_TEXT0` and `KD_TEXT1`. -/
def kdSetmode (vc : Nat) (perm : Bool) (arg : Nat) : VtRet × Kernel N :=
  if !perm then (.eperm, k)
  else
    match arg with
    | 1 => k.kdSetmodeTo vc .graphics
    | 0 | 2 | 3 => k.kdSetmodeTo vc .text
    | _ => (.einval, k)

/-- `VT_SETMODE` with a mode that exists. -/
def vtSetmodeTo (vc : Nat) (mode : SwitchMode) (tmp : UserVtMode) (pid : Int) : Kernel N :=
  k.acquireConsoleSem.updCon vc (fun c =>
    { c with vtMode := ⟨mode, tmp.waitv, tmp.relsig, tmp.acqsig, 0⟩
             vtPid := pid
             vtNewvt := -1 }) |>.releaseConsoleSem

/-- `VT_SETMODE`; 0 and 1 are `VT_AUTO` and `VT_PROCESS`. -/
def vtSetmode (vc : Nat) (perm : Bool) (tmp : Option UserVtMode) (pid : Int) : VtRet × Kernel N :=
  if !perm then (.eperm, k)
  else
    match tmp with
    | none => (.efault, k)
    | some tmp =>
      if tmp.mode = 0 then (.ok, k.vtSetmodeTo vc .auto tmp pid)
      else if tmp.mode = 1 then (.ok, k.vtSetmodeTo vc .process tmp pid)
      else (.einval, k)

/-- `VT_ACTIVATE`. -/
def vtActivate (vc : Nat) (perm : Bool) (arg : Nat) (mem : Bool) : VtRet × Kernel N :=
  if !perm then (.eperm, k)
  else if arg = 0 ∨ arg > maxNrConsoles then (.enxio, k)
  else
    let found :=
      match findVc P k (arg - 1) with
      | some q => (some q, k)
      | none =>
        let r := vcAllocate P k.acquireConsoleSem mem (arg - 1)
        (r.1, r.2.releaseConsoleSem)
    match found with
    | (none, k) => (.num (arg - 1), k)
    | (some q, k) =>
      if (k.con q).displayFg ≠ (k.con vc).displayFg then (.enxio, k)
      else (.ok, k.setConsole (k.con vc).displayFg (some q))

/-- `vc->vt_newvt = -1`. -/
def clearNewvt (vc : Nat) : Kernel N := k.updCon vc fun c => { c with vtNewvt := -1 }

/-- `VT_RELDISP` of a console that is to be left, with an argument that is not
0. -/
def releaseDisplay (vc : Nat) (mem : Bool) : VtRet × Kernel N :=
  let n := (k.con vc).vtNewvt.toNat
  let k := k.acquireConsoleSem
  let found :=
    match findVc P k n with
    | some q => (some q, k)
    | none => vcAllocate P k mem n
  match found with
  | (none, k) => (.num n, (k.clearNewvt vc).releaseConsoleSem)
  | (some q, k) =>
    let k := k.clearNewvt vc
    (.ok, (k.completeChangeConsole q (k.vt (k.con vc).displayFg).fgConsole).releaseConsoleSem)

/-- `VT_RELDISP`; 2 is `VT_ACKACQ`. -/
def vtReldisp (vc : Nat) (perm : Bool) (arg : Nat) (mem : Bool) : VtRet × Kernel N :=
  if !perm then (.eperm, k)
  else if (k.con vc).vtMode.mode ≠ .process then (.einval, k)
  else if 0 ≤ (k.con vc).vtNewvt then
    if arg = 0 then (.ok, k.clearNewvt vc) else k.releaseDisplay P vc mem
  else if arg ≠ 2 then (.einval, k)
  else (.ok, k)

/-- `VT_BUSY(tmp)`.  The macro's `IS_VISIBLE` tests the variable `vc` of
`vt_ioctl`, the console the call is made on, not its own argument. -/
def vtBusy (vc tmp : Nat) : Bool :=
  (match (k.con tmp).vcTty with
    | some count => decide (count ≠ 0)
    | none => false) || decide (k.isVisible vc) || decide (k.selCons = some tmp)

/-- One round of the loop of `VT_DISALLOCATE` over all consoles. -/
def disallocateUnused (vc : Nat) (k : Kernel N) (i : Nat) : Kernel N :=
  match findVc P k (i + P.firstVc (k.con vc).displayFg) with
  | some tmp => if k.vtBusy vc tmp then k else k.vcDisallocate P tmp
  | none => k

/-- `VT_DISALLOCATE`. -/
def vtDisallocate (vc : Nat) (arg : Nat) : VtRet × Kernel N :=
  if arg > maxNrConsoles then (.enxio, k)
  else if arg = 0 then
    (.ok, ((List.range' 1 (P.vcCount (k.con vc).displayFg - 1)).foldl (disallocateUnused P vc)
      k.acquireConsoleSem).releaseConsoleSem)
  else
    match findVc P k (arg - 1) with
    | none => (.ebusy, k)
    | some tmp =>
      if k.vtBusy vc tmp then (.ebusy, k)
      else (.ok, (k.acquireConsoleSem.vcDisallocate P tmp).releaseConsoleSem)

/-- `VT_RESIZE`, less the resizing: one critical section for every slot. -/
def vtResize (vc : Nat) (perm : Bool) (sizes : Option (Nat × Nat)) : VtRet × Kernel N :=
  if !perm then (.eperm, k)
  else if sizes = none then (.efault, k)
  else
    (.ok, (List.range (P.vcCount (k.con vc).displayFg)).foldl
      (fun k _ => k.acquireConsoleSem.releaseConsoleSem) k)

/-- `VT_LOCKSWITCH` and `VT_UNLOCKSWITCH`. -/
def setDontSwitch (vc : Nat) (cap : Bool) (b : Bool) : VtRet × Kernel N :=
  if !cap then (.eperm, k)
  else (.ok, k.updVt (k.con vc).displayFg fun t => { t with vtDontSwitch := b })

/-- `vt_ioctl` on the console `vc`; `cap` is `capable(CAP_SYS_TTY_CONFIG)`. -/
def vtIoctl (vc : Nat) (perm cap : Bool) : Ioctl → VtRet × Kernel N
  | .kdSetmode arg => k.kdSetmode vc perm arg
  | .vtSetmode tmp pid => k.vtSetmode vc perm tmp pid
  | .vtGetmode => (.ok, k.acquireConsoleSem.releaseConsoleSem)
  | .vtActivate arg mem => k.vtActivate P vc perm arg mem
  | .vtReldisp arg mem => k.vtReldisp P vc perm arg mem
  | .vtDisallocate arg => k.vtDisallocate P vc arg
  | .vtResize sizes => k.vtResize P vc perm sizes
  | .vtLockswitch => k.setDontSwitch vc cap true
  | .vtUnlockswitch => k.setDontSwitch vc cap false

/-! ### Ttys, the selection and the vcs device -/

/-- `vt_open` when `tty->count` is 1: nobody had the tty `n` open. -/
def vtOpenFirst (n : Nat) (mem : Bool) : Kernel N :=
  match vcAllocate P k.acquireConsoleSem mem n with
  | (none, k) => k.releaseConsoleSem
  | (some p, k) => (k.updCon p fun c => { c with vcTty := some 1 }).releaseConsoleSem

/-- The tty layer counts one more user of the tty. -/
def countUser (vc : Nat) : Kernel N :=
  k.updCon vc fun c => { c with vcTty := c.vcTty.map (· + 1) }

/-- `vt_open` of the tty `n`, and the tty layer's count.  `vt_open` returns the index, which
`tty_open` takes for an error if it is not 0: a first open of such a tty is released again, and
the tty stays open only if another open has come in between. -/
def vtOpen (n : Nat) (mem : Bool) : Kernel N :=
  match findVc P k n with
  | some q => if (k.con q).vcTty.isSome then k.countUser q else k.vtOpenFirst P n mem
  | none => k.vtOpenFirst P n mem

/-- `vt_close`, and the tty layer's count. -/
def vtClose (vc : Nat) : Kernel N :=
  k.acquireConsoleSem.updCon vc (fun c =>
    { c with vcTty := if c.vcTty = some 1 then none else c.vcTty.map (· - 1) }) |>.releaseConsoleSem

/-- `TIOCL_SETSEL` with a selection to set. -/
def setSelection (vc : Nat) : Kernel N :=
  let v := (k.con vc).displayFg
  let k := k.acquireConsoleSem.pokeBlankedConsole v
  { k with selCons := some (k.vt v).fgConsole }.releaseConsoleSem

/-- `vcs_open` of the file `f`. -/
def vcsOpen (f minor : Nat) : Kernel N :=
  match findVc P k (minor &&& 127) with
  | none => k
  | some p => { k with vcs := Function.update k.vcs f (some p) }

end Kernel

/-- The operations.  `ttyOpen` is an open after which the tty stays open. -/
inductive Op (N : Nat)
  | write (irq : Bool) (vc : Option Nat) (cmds : List (Nat × Nat))
  | key (v : Fin N) (sym : Keysym) (up : Bool)
  | scroll (v : Fin N) (lines : Int)
  | work (v : Fin N)
  | blankTimer (v : Fin N) (keventd : Bool)
  | ioctl (vc : Nat) (perm cap : Bool) (cmd : Ioctl)
  | ttyOpen (n : Nat) (mem : Bool)
  | ttyClose (vc : Nat)
  | resetVc (vc : Nat)
  | setSelection (vc : Nat)
  | vcsOpen (f minor : Nat)
  | vcsClose (f : Nat)
  | processes (killProc : Int → Int → Bool)

/-- The console an operation is made on, if it is made through a tty. -/
def Op.tty {N : Nat} : Op N → Option Nat
  | .write _ vc _ => vc
  | .ioctl vc _ _ _ | .ttyClose vc | .resetVc vc | .setSelection vc => some vc
  | _ => none

namespace Kernel

variable {N : Nat} (P : Pools N) (k : Kernel N)

/-- Run an operation. -/
def exec : Op N → Kernel N
  | .write irq vc cmds => k.vtWrite P irq vc cmds
  | .key v sym up => k.kbdEvent P v sym up
  | .scroll v lines => k.updBlank v fun b => { b with scrollbackDelta := b.scrollbackDelta + lines }
  | .work v => k.vtCallback v
  | .blankTimer v keventd => k.blankScreenT v keventd
  | .ioctl vc perm cap cmd => (k.vtIoctl P vc perm cap cmd).2
  | .ttyOpen n mem => k.vtOpen P n mem
  | .ttyClose vc => k.vtClose vc
  | .resetVc vc => k.resetVc vc
  | .setSelection vc => k.setSelection vc
  | .vcsOpen f minor => k.vcsOpen P f minor
  | .vcsClose f => { k with vcs := Function.update k.vcs f none }
  | .processes killProc => { k with killProc := killProc }

/-- The state in which a path begins. -/
def fresh : Kernel N := { k with sem := [], handed := [], oops := false }

/-- One operation.  The console behind an open tty is allocated. -/
def step (op : Op N) : Kernel N :=
  if ∀ vc ∈ op.tty, k.live vc then k.fresh.exec P op else k.fresh

/-- The machine with one display after `VT_ACTIVATE` of a second console, which is allocated. -/
def activated : Kernel 1 := (boot onePool).step onePool (.ioctl 0 true true (.vtActivate 2 true))

end Kernel

end LinuxConsole.Switch

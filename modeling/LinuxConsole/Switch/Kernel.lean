import Mathlib.Data.List.FinRange
import LinuxConsole.Lib.LockTrace
import LinuxConsole.Vc.Data

/-!
# Virtual terminals and their consoles

What console switching works on: the `struct vt_struct` of every mapped VT, the
`struct vc_data` behind every pointer, and the globals of `vt.c`.

A pointer is a number and is never given out twice.  `live` says which blocks
are allocated; `kfree` leaves the contents of a block as they are, so that a
read through a pointer to a freed console reads what the console last held.
`fg_console`, `last_console` and `want_vc` are set when a VT is mapped, and
`set_console` reads through its argument before it stores it, so none of the
three is null.

`sem`, `handed` and `oops` record what the running path does: the events of
`console_sem`, the pointers given to `set_console` and `change_console` with the
VT they are requested on, and whether it read through a null pointer.
`releasedTo` is not a field of the source either: it remembers the console of
the latest request for which the release signal was sent.
-/

namespace LinuxConsole.Switch

open Lib (LockEvent)

/-- `MAX_NR_CONSOLES`, `MIN_NR_CONSOLES` and `MAX_NR_USER_CONSOLES`. -/
def maxNrConsoles : Nat := 63
def minNrConsoles : Nat := 1
def maxNrUserConsoles : Nat := 16

/-- The pools of console numbers, `first_vc` and `vc_count` of each mapped VT.
`vt_map_display` gives every VT a range of its own. -/
structure Pools (N : Nat) where
  firstVc : Fin N → Nat
  vcCount : Fin N → Nat
  count_pos : ∀ v, 0 < vcCount v
  count_le : ∀ v, vcCount v ≤ maxNrUserConsoles
  apart : ∀ v w n, firstVc v ≤ n → n < firstVc v + vcCount v →
    firstVc w ≤ n → n < firstVc w + vcCount w → v = w

/-- The number is one of the pool of `v`. -/
def Pools.Has {N : Nat} (P : Pools N) (v : Fin N) (n : Nat) : Prop :=
  P.firstVc v ≤ n ∧ n < P.firstVc v + P.vcCount v

instance {N : Nat} (P : Pools N) (v : Fin N) (n : Nat) : Decidable (P.Has v n) :=
  inferInstanceAs (Decidable (_ ∧ _))

/-- `VT_AUTO` and `VT_PROCESS`. -/
inductive SwitchMode
  | auto
  | process
  deriving DecidableEq

/-- `struct vt_mode`. -/
structure VtMode where
  mode : SwitchMode
  waitv : Int
  relsig : Int
  acqsig : Int
  frsig : Int
  deriving DecidableEq

/-- The values of `kbdmode`. -/
inductive KbdMode
  | xlate
  | mediumraw
  | raw
  | unicode
  deriving DecidableEq

/-- The fields of `struct vc_data` that switching reads or writes.  `vcTty` is
the count of the tty that `vc_tty` points to. -/
structure VcData (N : Nat) where
  vcNum : Nat
  displayFg : Fin N
  vcMode : KdMode
  kbdMode : KbdMode
  vcTty : Option Nat
  vtMode : VtMode
  vtPid : Int
  vtNewvt : Int

/-- The fields of `struct vt_struct` about its consoles. -/
structure Vt where
  fgConsole : Nat
  lastConsole : Nat
  wantVc : Nat
  vtDontSwitch : Bool
  vcCons : Nat → Option Nat
  releasedTo : Option Nat

/-- The fields of `struct vt_struct` about blanking and scrolling back. -/
structure Blanking where
  scrollbackDelta : Int
  vtBlanked : Bool
  blankInterval : Nat
  offInterval : Nat
  blankState : BlankState
  blankTimerExpired : Bool
  deriving DecidableEq

/-- What blanking works on.  `blankHook` is the answer of
`console_blank_hook`. -/
structure Screen (N : Nat) where
  blank : Fin N → Blanking
  doPokeBlankedConsole : Bool
  ignorePoke : Bool
  blankHook : Bool

/-- The state.  `killProc pid sig` is whether `kill_proc` finds the process and
returns 0; `vcs` is the `private_data` of the open files of `/dev/vcs*`. -/
structure Kernel (N : Nat) where
  con : Nat → VcData N
  live : Nat → Bool
  next : Nat
  vt : Fin N → Vt
  screen : Screen N
  selCons : Option Nat
  vcs : Nat → Option Nat
  killProc : Int → Int → Bool
  sem : List LockEvent
  handed : List (Fin N × Option Nat)
  oops : Bool

/-! ### Blanking

The mode that the three functions are given is that of the foreground console,
`vt->fg_console->vc_mode`. -/

namespace Screen

variable {N : Nat} (s : Screen N)

/-- Change the blanking of the VT `v`. -/
def upd (v : Fin N) (f : Blanking → Blanking) : Screen N :=
  { s with blank := Function.update s.blank v (f (s.blank v)) }

/-- `do_blank_screen`. -/
def doBlankScreen (v : Fin N) (mode : KdMode) (enteringGfx : Bool) : Screen N :=
  s.upd v fun b =>
    if b.vtBlanked then
      if b.blankState = .vesaWait then { b with blankState := .off } else b
    else if b.blankState ≠ .normalWait then b
    else
      let b := { b with blankState := .off }
      if enteringGfx then { b with vtBlanked := true }
      else if mode ≠ .text then { b with vtBlanked := true }
      else
        let b := { b with blankTimerExpired := false, vtBlanked := true }
        if s.blankHook then b
        else if b.offInterval ≠ 0 then { b with blankState := .vesaWait } else b

/-- `unblank_vt`. -/
def unblankVt (v : Fin N) (mode : KdMode) : Screen N :=
  let s := { s with ignorePoke := false }
  if !(s.blank v).vtBlanked then s
  else if mode ≠ .text then s
  else s.upd v fun b =>
    { b with blankState := if b.blankInterval ≠ 0 then .normalWait else b.blankState
             vtBlanked := false }

/-- `poke_blanked_console`. -/
def pokeBlankedConsole (v : Fin N) (mode : KdMode) : Screen N :=
  let s := s.upd v fun b => { b with blankTimerExpired := false }
  if s.ignorePoke ∨ mode = .graphics then s
  else if (s.blank v).vtBlanked then s.unblankVt v mode
  else if (s.blank v).blankInterval ≠ 0 then
    s.upd v fun b => { b with blankState := .normalWait }
  else s

end Screen

namespace Kernel

variable {N : Nat} (P : Pools N) (k : Kernel N)

/-! ### Access -/

/-- Change the console at `p`. -/
def updCon (p : Nat) (f : VcData N → VcData N) : Kernel N :=
  { k with con := Function.update k.con p (f (k.con p)) }

/-- Change the VT `v`. -/
def updVt (v : Fin N) (f : Vt → Vt) : Kernel N :=
  { k with vt := Function.update k.vt v (f (k.vt v)) }

/-- `vt->fg_console->vc_mode`. -/
def fgMode (v : Fin N) : KdMode := (k.con (k.vt v).fgConsole).vcMode

/-- `IS_VISIBLE`. -/
def isVisible (p : Nat) : Prop := p = (k.vt (k.con p).displayFg).fgConsole

instance (p : Nat) : Decidable (k.isVisible p) := inferInstanceAs (Decidable (_ = _))

def acquireConsoleSem : Kernel N := { k with sem := k.sem ++ [.acquire] }

def releaseConsoleSem : Kernel N := { k with sem := k.sem ++ [.release] }

/-- Record a pointer given to `set_console` or `change_console` for the VT
`v`. -/
def hand (v : Fin N) (p : Option Nat) : Kernel N := { k with handed := k.handed ++ [(v, p)] }

/-! ### The screen -/

def doBlankScreen (v : Fin N) (enteringGfx : Bool) : Kernel N :=
  { k with screen := k.screen.doBlankScreen v (k.fgMode v) enteringGfx }

def unblankVt (v : Fin N) : Kernel N := { k with screen := k.screen.unblankVt v (k.fgMode v) }

def pokeBlankedConsole (v : Fin N) : Kernel N :=
  { k with screen := k.screen.pokeBlankedConsole v (k.fgMode v) }

/-- Change the blanking of the VT `v`. -/
def updBlank (v : Fin N) (f : Blanking → Blanking) : Kernel N :=
  { k with screen := k.screen.upd v f }

/-! ### Consoles -/

/-- The search through `vt_list` for the pool of a number. -/
def poolOf (n : Nat) : Option (Fin N) := (List.finRange N).find? fun v => P.Has v n

/-- `find_vc`. -/
def findVc (n : Nat) : Option Nat :=
  match poolOf P n with
  | some v => (k.vt v).vcCons (n - P.firstVc v)
  | none => none

/-- `reset_vc`, less the palette. -/
def resetVc (p : Nat) : Kernel N :=
  k.updCon p fun c =>
    { c with vcMode := .text
             kbdMode := .xlate
             vtMode := ⟨.auto, 0, 0, 0, 0⟩
             vtPid := -1
             vtNewvt := -1 }

/-- A console after the `memset` of `vc_allocate`. -/
def zeroed (v : Fin N) (n : Nat) : VcData N where
  vcNum := n
  displayFg := v
  vcMode := .text
  kbdMode := .xlate
  vcTty := none
  vtMode := ⟨.auto, 0, 0, 0, 0⟩
  vtPid := 0
  vtNewvt := 0

/-- What `vc_allocate` does when it has found the pool and the memory. -/
def install (v : Fin N) (n : Nat) : Kernel N :=
  let p := k.next
  let k := { k with next := p + 1
                    live := Function.update k.live p true
                    con := Function.update k.con p (zeroed v n) }
  let k := k.updVt v fun t =>
    { t with vcCons := Function.update t.vcCons (n - P.firstVc v) (some p) }
  let k :=
    if P.firstVc v = n then
      k.updVt v fun t => { t with wantVc := p, fgConsole := p, lastConsole := p }
    else k
  k.resetVc p

/-- `vc_allocate`; `mem` is whether both `kmalloc`s succeed. -/
def vcAllocate (mem : Bool) (n : Nat) : Option Nat × Kernel N :=
  if n ≥ maxNrConsoles then (none, k)
  else
    match poolOf P n with
    | none => (none, k)
    | some v => if mem then (some k.next, install P k v n) else (none, k)

/-- `vc_disallocate`. -/
def vcDisallocate (p : Nat) : Kernel N :=
  let c := k.con p
  if c.vcNum > minNrConsoles then
    let k := k.updVt c.displayFg fun t =>
      { t with vcCons := Function.update t.vcCons (c.vcNum - P.firstVc c.displayFg) none }
    { k with live := Function.update k.live p false }
  else k

/-- `set_console`, for a request made on the VT `v`. -/
def setConsole (v : Fin N) (p : Option Nat) : Kernel N :=
  let k := k.hand v p
  match p with
  | none => { k with oops := true }
  | some p => k.updVt (k.con p).displayFg fun t => { t with wantVc := p }

/-- A console as `vc_allocate` leaves it. -/
def newVc (v : Fin N) (n : Nat) : VcData N := { zeroed v n with vtPid := -1, vtNewvt := -1 }

/-- The state when `vt_map_display` has mapped every VT: each has its first
console and no other. -/
def boot (P : Pools (N + 1)) : Kernel (N + 1) where
  con p := newVc (Fin.ofNat (N + 1) p) (P.firstVc (Fin.ofNat (N + 1) p))
  live p := p < N + 1
  next := N + 1
  vt v :=
    { fgConsole := v
      lastConsole := v
      wantVc := v
      vtDontSwitch := false
      vcCons := fun i => if i = 0 then some v else none
      releasedTo := none }
  screen :=
    { blank := fun _ =>
        { scrollbackDelta := 0
          vtBlanked := false
          blankInterval := 10 * 60 * HZ
          offInterval := 0
          blankState := .normalWait
          blankTimerExpired := false }
      doPokeBlankedConsole := false
      ignorePoke := false
      blankHook := false }
  selCons := none
  vcs := fun _ => none
  killProc := fun _ _ => false
  sem := []
  handed := []
  oops := false

end Kernel

/-- The pools of a machine with one display, as `vgacon` and `dummycon` map it. -/
def onePool : Pools 1 where
  firstVc _ := 0
  vcCount _ := maxNrUserConsoles
  count_pos _ := by decide
  count_le _ := Nat.le_refl _
  apart v w _ _ _ _ _ := Subsingleton.elim v w

end LinuxConsole.Switch

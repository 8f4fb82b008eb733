import LinuxConsole.Vga.Card

/-!
# The consoles of a VGA display

The consoles of `vga_vt` and the functions of `vt.c` and `vt_ioctl.c` that move
their text between the video memory and their buffers: `set_origin`,
`save_screen`, `update_screen`, `do_blank_screen`, `unblank_vt`,
`poke_blanked_console`, `switch_screen`, `complete_change_console`, `KDSETMODE`
and `vc_resize`.

A write is the list of what the emulator does to the screen (`Paint`): to store,
rewrite or move cells, to scroll a region, to move the cursor, to choose what
blank cells are.  Places are distances in bytes from the start of the screen.
The emulator stays on the screen, and a `Paint` that does not is not carried out.

The cursor is the one that the hardware draws.  `hide_cursor` and `set_cursor`
then leave the text alone and are left out, as are the timers and the palette.
-/

namespace LinuxConsole.Vga

open Lib

/-! ### State -/

/-- What is used of a `struct vc_data`. -/
structure Vc where
  geo : Geom
  x : Nat
  y : Nat
  pos : Nat
  eraseChar : Cell
  mode : KdMode

/-- The console with its screen at `origin`. -/
def Vc.at (c : Vc) (origin : Nat) : Vc :=
  { c with
    geo := { c.geo with origin := origin, scrEnd := origin + c.geo.screenbufSize }
    pos := origin + c.geo.sizeRow * c.y + 2 * c.x }

/-- The memory, the card and what is used of `vga_vt`. -/
structure Machine (ι : Type) where
  mem : Nat → Cell
  card : Globals
  vc : ι → Vc
  fg : ι
  blanked : Bool
  blankState : BlankState
  blankInterval : Nat
  offInterval : Nat
  blankMode : Nat
  ignorePoke : Bool

/-- `VESA_POWERDOWN`. -/
def vesaPowerdown : Nat := 3

namespace Machine

variable {ι : Type} [DecidableEq ι] (k : Card) (m : Machine ι)

/-- The foreground console. -/
def fgVc : Vc := m.vc m.fg

def setVc (i : ι) (c : Vc) : Machine ι := { m with vc := Function.update m.vc i c }

/-! ### Origin and screen -/

/-- `set_origin`. -/
def setOrigin (i : ι) : Machine ι :=
  let origin := if i = m.fg then vgaconSetOrigin k m.card m.blanked else none
  m.setVc i ((m.vc i).at (origin.getD (m.vc i).geo.screenbuf))

/-- `save_screen`. -/
def saveScreen (i : ι) : Machine ι :=
  { m with mem := vgaconSaveScreen k m.card m.mem (m.vc i).geo }

/-- `con_switch`, after which nothing has to be redrawn. -/
def conSwitch (i : ι) : Machine ι :=
  { m with mem := vgaconSwitch k m.card m.mem (m.vc i).geo }

/-- `update_screen`. -/
def updateScreen (i : ι) : Machine ι := (m.setOrigin k i).conSwitch k i

/-! ### Blanking -/

/-- `powerdown_screen`. -/
def powerdownScreen : Machine ι :=
  if m.blankMode = vesaPowerdown then m else { m with card := vgaconVesaBlank k m.card }

/-- `con_blank` of the foreground console and the origin after it. -/
def conBlank (modeSwitch : Bool) : Machine ι × Bool :=
  let r := vgaconBlank k m.card m.blanked modeSwitch m.mem m.fgVc.geo
  ({ { m with card := r.1, mem := r.2.1 }.setVc m.fg
      { m.fgVc with geo := { m.fgVc.geo with origin := r.2.2.1 } } with blanked := true },
    r.2.2.2)

/-- `do_blank_screen` of a screen that enters graphics. -/
def enterGraphics : Machine ι := (((m.saveScreen k m.fg).conBlank k true).1).setOrigin k m.fg

/-- `do_blank_screen` of a text screen. -/
def blankText : Machine ι :=
  let r := (m.saveScreen k m.fg).conBlank k false
  if r.2 then r.1.setOrigin k m.fg else r.1

/-- The end of `do_blank_screen`; `hook` says whether `console_blank_hook` takes
over. -/
def armVesa (hook : Bool) : Machine ι :=
  if hook then m
  else
    { m with
      blankState := if m.offInterval ≠ 0 then .vesaWait else m.blankState
      card := if m.blankMode ≠ 0 then vgaconVesaBlank k m.card else m.card }

/-- `do_blank_screen(vt, entering_gfx)`. -/
def doBlankScreen (enteringGfx hook : Bool) : Machine ι :=
  if m.blanked then
    if m.blankState = .vesaWait then { m with blankState := .off }.powerdownScreen k else m
  else if m.blankState ≠ .normalWait then m
  else
    let m := { m with blankState := .off }
    if enteringGfx then m.enterGraphics k
    else if m.fgVc.mode ≠ .text then { m with blanked := true }
    else (m.blankText k).armVesa k hook

/-- `unblank_vt` up to `con_blank`. -/
def lit : Machine ι :=
  { m with
    blankState := if m.blankInterval ≠ 0 then .normalWait else m.blankState
    blanked := false
    card := (vgaconUnblank m.card).1 }

/-- `unblank_vt`. -/
def unblankVt : Machine ι :=
  let m := { m with ignorePoke := false }
  if !m.blanked then m
  else if m.fgVc.mode ≠ .text then m
  else if (vgaconUnblank m.card).2 then m.lit.updateScreen k m.fg
  else m.lit

/-- `poke_blanked_console`. -/
def pokeBlankedConsole : Machine ι :=
  if m.ignorePoke ∨ m.fgVc.mode = .graphics then m
  else if m.blanked then m.unblankVt k
  else if m.blankInterval ≠ 0 then { m with blankState := .normalWait }
  else m

/-! ### Switching -/

/-- `switch_screen(new_vc, old_vc)`, with the foreground console for `old_vc`. -/
def switchScreen (j : ι) : Machine ι :=
  if m.fg = j then m
  else
    let old := m.fg
    let m := ({ m with fg := j }.saveScreen k old).setOrigin k old
    (m.setOrigin k j).conSwitch k j

/-- The screen is blanked or unblanked where the mode says so. -/
def followMode : Machine ι :=
  if m.fgVc.mode = .text then m.unblankVt k else m.doBlankScreen k true false

/-- `complete_change_console` up to the signal to the new owner. -/
def completeChangeConsole (j : ι) : Machine ι :=
  let oldMode := m.fgVc.mode
  let m := m.switchScreen k j
  if oldMode ≠ m.fgVc.mode then m.followMode k else m

/-- `change_console` of a console in `VT_AUTO` mode, which is not left in graphics,
or what the owner's `VT_RELDISP` does. -/
def changeConsole (j : ι) (auto : Bool) : Machine ι :=
  if auto ∧ m.fgVc.mode = .graphics then m else m.completeChangeConsole k j

/-- `KDSETMODE`. -/
def kdSetMode (i : ι) (mode : KdMode) : Machine ι :=
  if (m.vc i).mode = mode then m
  else
    let m := m.setVc i { m.vc i with mode := mode }
    if i = m.fg then m.followMode k else m

/-- `reset_vc`, as far as the mode goes. -/
def resetVc (i : ι) : Machine ι := m.setVc i { m.vc i with mode := .text }

end Machine

/-! ### Writes -/

/-- What the emulator does to a screen. -/
inductive Paint
  | rewrite (dst n : Nat) (f : Cell → Cell)
  | move (dst src n : Nat)
  | scroll (dir : ScrollDir) (t b nr : Nat)
  | goto (x y : Nat)
  | eraseChar (c : Cell)

/-- The lines that `scroll_region_up` and `scroll_region_down` settle on. -/
def scrollLines (t b nr : Nat) : Nat := if t + nr ≥ b then b - t - 1 else nr

/-- What `scroll_region_up` and `scroll_region_down` do to the memory. -/
def moveRegion (mem : Nat → Cell) (geo : Geom) (eraseChar : Cell) (dir : ScrollDir)
    (t b nr : Nat) : Nat → Cell :=
  match dir with
  | .up =>
    fillFrom
      (copyTo mem (geo.origin + geo.sizeRow * t) (geo.origin + geo.sizeRow * (t + nr))
        ((b - t - nr) * geo.sizeRow))
      (geo.origin + (geo.sizeRow * t + 2 * ((b - t - nr) * geo.cols))) eraseChar
      (geo.sizeRow * nr)
  | .down =>
    fillFrom
      (copyTo mem (geo.origin + (geo.sizeRow * t + 2 * (geo.cols * nr)))
        (geo.origin + geo.sizeRow * t) ((b - t - nr) * geo.sizeRow))
      (geo.origin + geo.sizeRow * t) eraseChar (2 * (geo.cols * nr))

/-- There is something to scroll. -/
def Scrolls (geo : Geom) (t b nr : Nat) : Prop :=
  b ≤ geo.rows ∧ t < b ∧ 1 ≤ scrollLines t b nr

instance (geo : Geom) (t b nr : Nat) : Decidable (Scrolls geo t b nr) :=
  inferInstanceAs (Decidable (_ ∧ _))

/-- A `Paint` by the software alone. -/
def softPaint (mem : Nat → Cell) (c : Vc) : Paint → (Nat → Cell) × Vc
  | .rewrite dst n f =>
    if dst + n ≤ c.geo.screenbufSize then (mapFrom mem (c.geo.origin + dst) n f, c) else (mem, c)
  | .move dst src n =>
    if dst + n ≤ c.geo.screenbufSize ∧ src + n ≤ c.geo.screenbufSize then
      (copyTo mem (c.geo.origin + dst) (c.geo.origin + src) n, c)
    else (mem, c)
  | .scroll dir t b nr =>
    if Scrolls c.geo t b nr then
      (moveRegion mem c.geo c.eraseChar dir t b (scrollLines t b nr), c)
    else (mem, c)
  | .goto x y =>
    if x < c.geo.cols ∧ y < c.geo.rows then
      (mem, { c with x := x, y := y, pos := c.geo.origin + y * c.geo.sizeRow + 2 * x })
    else (mem, c)
  | .eraseChar e => (mem, { c with eraseChar := e })

namespace Machine

variable {ι : Type} [DecidableEq ι] (k : Card) (m : Machine ι)

/-- What the driver is given of a console. -/
def scrollOf (i : ι) : Scroll := ⟨m.mem, (m.vc i).geo, (m.vc i).pos, (m.vc i).eraseChar⟩

/-- The scroll by the driver, where it does one. -/
def hardScroll (i : ι) : Paint → Option Scrolled
  | .scroll dir t b nr =>
    if Scrolls (m.vc i).geo t b nr ∧ i = m.fg then
      vgaconScrollRegion k m.card (m.scrollOf i) t b dir (scrollLines t b nr)
    else none
  | _ => none

/-- One `Paint` on a console. -/
def paint (i : ι) (p : Paint) : Machine ι :=
  match m.hardScroll k i p with
  | some r =>
    { m with mem := r.mem }.setVc i
      { m.vc i with
        geo := { (m.vc i).geo with origin := r.origin, scrEnd := r.scrEnd }
        pos := r.pos }
  | none =>
    let r := softPaint m.mem (m.vc i) p
    { m with mem := r.1 }.setVc i r.2

/-- A write. -/
def write (i : ι) (ps : List Paint) : Machine ι := ps.foldl (fun m p => m.paint k i p) m

end Machine

/-! ### Steps -/

/-- What happens to the display.  `blank` is a blanking by the timer or, if
`tiocl` is set, by `TIOCL_BLANKSCREEN`; `timing` changes the blanking times and
mode; `user` is a process that writes to the video memory, which it does while
the console in front is in graphics. -/
inductive Op (ι : Type)
  | write (i : ι) (ps : List Paint)
  | change (j : ι) (auto : Bool)
  | blank (tiocl hook : Bool)
  | unblank
  | poke
  | kdSetMode (i : ι) (mode : KdMode)
  | reset (i : ι)
  | timing (blankInterval offInterval blankMode : Nat)
  | user (f : Nat → Cell)

namespace Machine

variable {ι : Type} [DecidableEq ι] (k : Card)

/-- One step. -/
def step (m : Machine ι) : Op ι → Machine ι
  | .write i ps => m.write k i ps
  | .change j auto => m.changeConsole k j auto
  | .blank tiocl hook =>
    { m with ignorePoke := m.ignorePoke || tiocl }.doBlankScreen k false hook
  | .unblank => m.unblankVt k
  | .poke => m.pokeBlankedConsole k
  | .kdSetMode i mode => m.kdSetMode k i mode
  | .reset i => m.resetVc i
  | .timing blankInterval offInterval blankMode =>
    { m with blankInterval := blankInterval, offInterval := offInterval, blankMode := blankMode }
  | .user f =>
    if m.fgVc.mode = .graphics then
      { m with mem := fun a => if k.vramBase ≤ a ∧ a < k.vramEnd then f a else m.mem a }
    else m

/-! ### Resizing -/

variable (m : Machine ι)

/-- The loop of `vc_resize`: the rows from `ol` on, as long as they are before
`vc_scr_end`, to `nl` and on, and the address behind the last. -/
def copyRows (oldRow newRow scrEnd : Nat) (eraseChar : Cell) :
    Nat → Nat → Nat → (Nat → Cell) → (Nat → Cell) × Nat
  | 0, _, nl, mem => (mem, nl)
  | fuel + 1, ol, nl, mem =>
    if ol < scrEnd then
      let rlth := min oldRow newRow
      let mem := copyTo mem nl ol rlth
      let mem := if newRow - rlth ≠ 0 then fillFrom mem (nl + rlth) eraseChar (newRow - rlth)
        else mem
      copyRows oldRow newRow scrEnd eraseChar fuel (ol + oldRow) (nl + newRow) mem
    else (mem, nl)

/-- The screen of geometry `old` in the new buffer: the rows that fit, counted
from the bottom, and blank rows below them. -/
def copyScreen (mem : Nat → Cell) (old new : Geom) (buf : Nat) (eraseChar : Cell) : Nat → Cell :=
  let ol := old.origin + (if new.rows < old.rows then (old.rows - new.rows) * old.sizeRow else 0)
  let r := copyRows old.sizeRow new.sizeRow old.scrEnd eraseChar (old.scrEnd - ol) ol buf mem
  let nlend := buf + new.screenbufSize
  if nlend > r.2 then fillFrom r.1 r.2 eraseChar (nlend - r.2) else r.1

/-- The geometry with a new size. -/
def resized (geo : Geom) (cols rows : Nat) : Geom :=
  { geo with cols := cols, rows := rows, sizeRow := 2 * cols, screenbufSize := 2 * cols * rows }

/-- The console with a new size and the screen in a new buffer. -/
def withBuffer (i : ι) (cols rows buf : Nat) (eraseChar : Cell) : Machine ι :=
  let c := m.vc i
  let geo := resized c.geo cols rows
  { m with mem := copyScreen m.mem c.geo geo buf eraseChar }.setVc i
    { c with geo := { geo with screenbuf := buf }, eraseChar := eraseChar }

/-- `vc_resize` once the new buffer is there; `eraseChar` is the blank cell that
`update_attr` chooses. -/
def resizeTo (i : ι) (cols rows buf : Nat) (eraseChar : Cell) : Machine ι :=
  let x := (m.vc i).x
  let y := (m.vc i).y
  let m := (m.withBuffer i cols rows buf eraseChar).setOrigin k i
  let m := m.paint k i (.goto (min x (cols - 1)) (min y (rows - 1)))
  if i = m.fg then m.updateScreen k i else m

/-- `vc_resize(vc, cols, lines)`, with `newscreen` the buffer that `kmalloc` gives.
The driver has no `con_resize`. -/
def vcResize (i : ι) (cols lines : Nat) (newscreen : Option Nat) (eraseChar : Cell) : Machine ι :=
  if cols > 32767 ∨ lines > 32767 then m
  else
    let newCols := if cols ≠ 0 then cols else (m.vc i).geo.cols
    let newRows := if lines ≠ 0 then lines else (m.vc i).geo.rows
    if newCols = (m.vc i).geo.cols ∧ newRows = (m.vc i).geo.rows then m
    else
      match newscreen with
      | none => m
      | some buf => m.resizeTo k i newCols newRows buf eraseChar

end Machine

end LinuxConsole.Vga

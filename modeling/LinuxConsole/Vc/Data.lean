import LinuxConsole.Map.Pagedir

/-!
# The state of one console

`Con` is a `struct vc_data` together with what the emulator reaches through it:
the screen memory, the fields of its `struct vt_struct`, the user's translation
table, and what it sends out.
The fields of the C structure are grouped by what they are about, so that a
step that touches one group leaves the others alone by definition.

Addresses are natural numbers and a cell is the sixteen bits at an even
distance from the start of its buffer.  C arrays are total functions; the
accesses that fall outside the array's bound, and the screen accesses that fall
outside `[vc_origin, vc_scr_end)`, are recorded in `faults`.  What leaves the
console is recorded too: bytes queued to the tty in `queue`, calls of the
drawing hooks in `draws`, requests to the rest of the kernel in `requests`.
-/

namespace LinuxConsole

/-- A screen cell: the attribute in the high byte, the glyph in the low one. -/
abbrev Cell := BitVec 16

/-- `NPAR`, the size of `vc_par`. -/
def NPAR : Nat := 16

/-- The number of words of `vc_tab_stop`. -/
def tabWords : Nat := 8

/-- `HZ`, the ticks in a second. -/
def HZ : Nat := 1000

/-- An `int` from the bits of an `unsigned int` computation. -/
def s32 (n : Int) : Int := (BitVec.ofInt 32 n).toInt

/-- An `unsigned int` from the bits of an `int` computation. -/
def u32 (n : Int) : Nat := (BitVec.ofInt 32 n).toNat

/-- The two values of `vc_mode`. -/
inductive KdMode
  | text
  | graphics
  deriving DecidableEq

/-- `enum { ESinit, ESesc, ... }`, the states of the emulator. -/
inductive EsState
  | init
  | esc | acs | scf | gzd4 | g1d4 | g2d4 | g3d4 | g1d6 | g2d6 | g3d6 | docs
  | csi | csiGetpars | csiGotpars | csiSpace | csiExclam | csiDquote | csiDollar | csiAnd
  | csiSquote | csiStar | csiPlus
  | osc | palette
  | funckey | ignore
  deriving DecidableEq

/-- Size and placement of the screen. -/
structure Geom where
  cols : Nat
  rows : Nat
  sizeRow : Nat
  origin : Nat
  scrEnd : Nat
  screenbuf : Nat
  screenbufSize : Nat
  deriving DecidableEq

/-- Cursor position, cursor address and the pending wrap. -/
structure Cursor where
  x : Nat
  y : Nat
  pos : Nat
  needWrap : Bool
  deriving DecidableEq

/-- The scrolling region `[top, bottom)`. -/
structure Margins where
  top : Nat
  bottom : Nat
  deriving DecidableEq

/-- The escape sequence parser. -/
structure Parser where
  state : EsState
  npar : Nat
  par : Nat → Nat
  priv1 : Bool
  priv2 : Bool
  priv3 : Bool
  priv4 : Bool

/-- The UTF-8 decoder. -/
structure Utf where
  utf : Bool
  utfCount : Nat
  utfChar : Nat
  deriving DecidableEq

/-- Mode flags. -/
structure Modes where
  vcMode : KdMode
  dispCtrl : Bool
  toggleMeta : Bool
  decscnm : Bool
  decom : Bool
  decawm : Bool
  dectcem : Bool
  irm : Bool
  decckm : Bool
  decsclm : Bool
  decarm : Bool
  decnkm : Bool
  kam : Bool
  crm : Bool
  lnm : Bool
  c8bit : Bool
  shift : Bool
  decscl : Nat
  reportMouse : Nat
  deriving DecidableEq

/-- Attributes and colours. -/
structure Rendition where
  attr : BitVec 8
  defColor : BitVec 8
  color : BitVec 8
  ulcolor : BitVec 8
  halfcolor : BitVec 8
  intensity : Nat
  underline : Bool
  blink : Bool
  reverse : Bool
  videoEraseChar : Cell
  canDoColor : Bool
  hiFontMask : Cell
  complementMask : Cell
  sComplementMask : Cell
  cursorType : BitVec 32
  deriving DecidableEq

/-- Designated character sets and the table in use, `vc_translate`. -/
structure Charsets where
  charset : Bool
  g0 : CharMap
  g1 : CharMap
  g2 : CharMap
  g3 : CharMap
  gs : CharMap
  translate : CharMap
  deriving DecidableEq

/-- What `vte_decsc` saves. -/
structure Saved where
  x : Nat
  y : Nat
  intensity : Nat
  underline : Bool
  blink : Bool
  reverse : Bool
  charset : Bool
  color : BitVec 8
  g0 : CharMap
  g1 : CharMap
  g2 : CharMap
  g3 : CharMap
  deriving DecidableEq

/-- `struct kbd_struct`, the keyboard state of the console. -/
structure KbdTable where
  lockstate : Nat
  slockstate : Nat
  ledmode : Nat
  ledflagstate : Nat
  defaultLedflagstate : Nat
  kbdmode : Nat
  modeflags : BitVec 5
  deriving DecidableEq

/-- The bits of `modeflags`. -/
def vcApplic : Nat := 0
def vcCkmode : Nat := 1
def vcRepeat : Nat := 2
def vcCrlf : Nat := 3
def vcMeta : Nat := 4

/-- The states `blank_off`, `blank_normal_wait` and `blank_vesa_wait`. -/
inductive BlankState
  | off
  | normalWait
  | vesaWait
  deriving DecidableEq

/-- The fields of the console's `struct vt_struct`.  `visible` is `IS_VISIBLE`;
`fgMode` is the mode of the foreground console when that is another one. -/
structure Display where
  visible : Bool
  fgMode : KdMode
  blanked : Bool
  blankState : BlankState
  blankInterval : Nat
  offInterval : Nat
  blankTimerExpired : Bool
  ignorePoke : Bool
  cursorOriginal : Option Cell
  kmalloced : Bool
  deriving DecidableEq

/-- `SM_UP` and `SM_DOWN`. -/
inductive ScrollDir
  | up
  | down
  deriving DecidableEq

/-- A call of a drawing hook of the display driver.  A hook that blanks cells does it with the
`vc_video_erase_char` it is called with. -/
inductive Draw
  | putc (ch : Cell) (y x : Nat)
  | putcs (chars : List Cell) (y x : Nat)
  | clear (sy sx height width : Nat) (erase : Cell)
  | scrollRegion (t b : Nat) (dir : ScrollDir) (n : Nat) (erase : Cell)
  | bmove (sy sx dy dx height width : Nat)
  | cursorErase
  | cursorDraw
  | updateRegion (start : Nat) (chars : List Cell)
  | setPalette
  deriving DecidableEq

/-- What the emulator asks of the rest of the kernel. -/
inductive Request
  | setConsole (n : Nat)
  | setLastConsole
  | mksound (pitch duration : Nat)
  | setLeds
  | setLedState (led : Nat)
  | clearSelection
  deriving DecidableEq

/-- An access outside the bound of what is accessed. -/
inductive Fault
  | cell (addr count : Nat)
  | vcPar (i : Nat)
  | vcPalette (i : Nat)
  | colorTable (i : Nat)
  | vcTabStop (i : Nat)
  deriving DecidableEq

/-- A console. -/
structure Con where
  geo : Geom
  cur : Cursor
  mar : Margins
  mem : Nat → Cell
  ps : Parser
  dec : Utf
  modes : Modes
  rend : Rendition
  chars : Charsets
  saved : Saved
  tabStop : Nat → BitVec 32
  paletteMap : Nat → BitVec 8
  bellPitch : Nat
  bellDuration : Nat
  kbd : KbdTable
  vt : Display
  uni : Option UniPagedir
  userMap : Nat → Nat
  queue : List Nat
  draws : List Draw
  requests : List Request
  faults : List Fault

/-- What a scroll done by the driver leaves: it may move the screen window
instead of the cells. -/
structure Scrolled where
  mem : Nat → Cell
  origin : Nat
  scrEnd : Nat
  pos : Nat

/-- The hooks of `struct consw` that can change a console.  `conScrollRegion`
is `none` when the hook returns 0, `conSetOrigin` when there is no hook or it
returns 0.  `conSwitch` and `conBlank` may rewrite the screen memory;
`conSwitch` also reports the colour ability and whether to redraw.  A hook is
given the console without the records of what has left it, `Con.seen`. -/
structure Driver where
  conScrollRegion : Con → Nat → Nat → ScrollDir → Nat → Option Scrolled
  conSetOrigin : Con → Option Nat
  conSwitch : Con → (Nat → Cell) × Bool × Bool
  conBlank : Con → (Nat → Cell) × Bool
  conResize : Con → Nat → Nat → Int
  conBuildAttr : Option (Con → BitVec 8 → Nat → Bool → Bool → Bool → BitVec 8)
  conInvertRegion : Option (Con → Cell → Cell)

namespace Con

/-- What a driver sees of a console. -/
def seen (s : Con) : Con := { s with queue := [], draws := [], requests := [], faults := [] }

/-- Record `f` unless the access is within its bound. -/
def check (s : Con) (ok : Bool) (f : Fault) : Con :=
  { s with faults := if ok then s.faults else f :: s.faults }

/-- The range of `n` cells from `a` lies in `[vc_origin, vc_scr_end)`. -/
def inScreen (s : Con) (a n : Nat) : Bool :=
  n == 0 || (decide (s.geo.origin ≤ a) && decide (a + 2 * n ≤ s.geo.scrEnd))

def draw (s : Con) (ds : List Draw) : Con := { s with draws := s.draws ++ ds }

def request (s : Con) (r : Request) : Con := { s with requests := s.requests ++ [r] }

/-- The record of the call `con_scroll_region(vc, t, b, dir, n)`. -/
def scrollCall (s : Con) (t b : Nat) (dir : ScrollDir) (n : Nat) : List Draw :=
  if s.vt.visible then [.scrollRegion t b dir n s.rend.videoEraseChar] else []

/-- `puts_queue`. -/
def putsQueue (s : Con) (cp : List Nat) : Con := { s with queue := s.queue ++ cp }

/-- `scr_writew(v, a)`. -/
def scrWritew (s : Con) (v : Cell) (a : Nat) : Con :=
  { s.check (s.inScreen a 1) (.cell a 1) with mem := Function.update s.mem a v }

/-- Every one of the `n` cells from `a` replaced by `f` of itself. -/
def mapCells (s : Con) (a n : Nat) (f : Cell → Cell) : Con :=
  { s.check (s.inScreen a n) (.cell a n) with
    mem := fun b => if a ≤ b ∧ b < a + 2 * n ∧ (b - a) % 2 = 0 then f (s.mem b) else s.mem b }

/-- `scr_memsetw(a, c, 2 * n)`. -/
def scrMemsetw (s : Con) (a : Nat) (c : Cell) (n : Nat) : Con := s.mapCells a n (fun _ => c)

/-- `scr_memmovew(d, a, 2 * n)`: both ranges are checked, and the source is
read before the target is written. -/
def scrMemmovew (s : Con) (d a n : Nat) : Con :=
  { (s.check (s.inScreen a n) (.cell a n)).check (s.inScreen d n) (.cell d n) with
    mem := fun b => if d ≤ b ∧ b < d + 2 * n ∧ (b - d) % 2 = 0 then s.mem (a + (b - d))
      else s.mem b }

/-- The console after a scroll by the driver. -/
def scrolled (s : Con) (r : Scrolled) : Con :=
  { s with mem := r.mem
           geo.origin := r.origin
           geo.scrEnd := r.scrEnd
           cur.pos := r.pos }

/-- The `n` cells from `a`. -/
def cells (s : Con) (a n : Nat) : List Cell := (List.range n).map (fun i => s.mem (a + 2 * i))

end Con

end LinuxConsole

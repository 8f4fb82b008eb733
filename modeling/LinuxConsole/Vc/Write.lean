import LinuxConsole.Vte.Emulation

/-!
# Writing to a console

`do_con_write`, `vt_console_print`, `vc_resize` and the initialisation of a
console, from `vt.c`.

`do_con_write` takes each byte in two stages.  `translateByte` is the first:
the guard on the parser state, the UTF-8 decoder and the translation table,
ending in a pair of the character `c` and its translation `tc`, or in nothing
when the byte only moves the decoder.  `writeByte` is the second: the glyph is
looked up and stored, or the character is handed to the emulator.  The cells
drawn so far are batched in `draw_x`, `draw_from` and `draw_to`, and `FLUSH`
hands them to the driver.

A write whose tty is stopped half way is a write of the bytes before that.
-/

namespace LinuxConsole

variable (d : Driver)

/-! ### Translation -/

/-- The decoder's reading of a byte above `0x7f`: the decoder after it, and the
code point when the sequence is complete. -/
def decodeByte (u : Utf) (c : Nat) : Utf × Option Nat :=
  if 0 < u.utfCount ∧ c &&& 0xc0 = 0x80 then
    let ch := (u.utfChar <<< 6) ||| (c &&& 0x3f)
    let u := { u with utfChar := ch, utfCount := u.utfCount - 1 }
    (u, if u.utfCount = 0 then some ch else none)
  else if c &&& 0xe0 = 0xc0 then ({ u with utfCount := 1, utfChar := c &&& 0x1f }, none)
  else if c &&& 0xf0 = 0xe0 then ({ u with utfCount := 2, utfChar := c &&& 0x0f }, none)
  else if c &&& 0xf8 = 0xf0 then ({ u with utfCount := 3, utfChar := c &&& 0x07 }, none)
  else if c &&& 0xfc = 0xf8 then ({ u with utfCount := 4, utfChar := c &&& 0x03 }, none)
  else if c &&& 0xfe = 0xfc then ({ u with utfCount := 5, utfChar := c &&& 0x01 }, none)
  else ({ u with utfCount := 0 }, none)

/-- The first stage: the character `c` and its translation `tc`.  The guard is
the one of the source, `!vc->vc_state`. -/
def translateByte (s : Con) (c : Nat) : Con × Option (Nat × Nat) :=
  if s.ps.state = .init then (s, some (c, c))
  else if s.dec.utf then
    if c > 0x7f then
      let (u, ch) := decodeByte s.dec c
      ({ s with dec := u }, ch.map (fun ch => (ch, ch)))
    else ({ s with dec.utfCount := 0 }, some (c, c))
  else
    (s, some (c, translations s.userMap s.chars.translate
      (if s.modes.toggleMeta then c ||| 0x80 else c)))

/-- `CTRL_ACTION` and `CTRL_ALWAYS`. -/
def ctrlAction : BitVec 32 := 0x0d00ff81
def ctrlAlways : BitVec 32 := 0x0800f501

/-- Whether a glyph may be shown for the character. -/
def glyphOk (s : Con) (c tc : Nat) : Bool :=
  tc != 0
    && (decide (32 ≤ c)
      || (!s.dec.utf && !(if s.modes.dispCtrl then ctrlAlways else ctrlAction).getLsbD c))
    && (c != 127 || s.modes.dispCtrl) && c != 128 + 27

/-- The glyph found for `tc`, with the fallback to U+FFFD and then to `c`. -/
def shownGlyph (uni : Option UniPagedir) (c tc : Nat) : Int :=
  let g := convUniToPc uni tc
  if g = -4 then
    let g := convUniToPc uni 0xfffd
    if g = -4 then c else g
  else if g = -3 then c
  else g

/-- `charmask`. -/
def charmask (himask : Cell) : Nat := if himask ≠ 0 then 0x1ff else 0xff

/-- The cell stored for glyph `g`. -/
def glyphCell (himask : Cell) (attr : BitVec 8) (g : Nat) : Cell :=
  let a : Cell := attr.setWidth 16 <<< 8
  if himask ≠ 0 then
    (a &&& ~~~himask) + (if g &&& 0x100 ≠ 0 then himask else 0) + BitVec.ofNat 16 (g &&& 0xff)
  else a + BitVec.ofNat 16 g

/-! ### `do_con_write` -/

/-- The cells stored and not yet drawn. -/
structure Batch where
  drawX : Option Nat
  drawFrom : Nat
  drawTo : Nat
  deriving DecidableEq

/-- `FLUSH`. -/
def flush (s : Con) (b : Batch) : Con × Batch :=
  match b.drawX with
  | none => (s, b)
  | some x =>
    (s.draw [.putcs (s.cells b.drawFrom ((b.drawTo - b.drawFrom) / 2)) s.cur.y x],
      { b with drawX := none })

/-- The cursor after a character has been stored. -/
def advance (s : Con) : Con :=
  if s.cur.x = s.geo.cols - 1 then { s with cur.needWrap := s.modes.decawm }
  else { s with cur := { s.cur with x := s.cur.x + 1, pos := s.cur.pos + 2 } }

/-- The wrap that is pending before a character. -/
def wrapPending (s : Con) : Con := if s.cur.needWrap then vteLf d (vteCr s) else s

/-- Room for a character in insert mode. -/
def insertPending (s : Con) : Con := if s.modes.irm then insertChar s 1 else s

/-- The batch after the cell at the cursor of `s` has been stored. -/
def Batch.extend (b : Batch) (s : Con) : Batch :=
  let b := if s.vt.visible && b.drawX.isNone then
    { b with drawX := some s.cur.x, drawFrom := s.cur.pos } else b
  { b with drawTo := s.cur.pos + 2 }

/-- Wrap, insertion and the cell of glyph `g`, with the cursor still on it. -/
def storeGlyph (himask : Cell) (g : Nat) (s : Con) : Con :=
  let s := insertPending (wrapPending d s)
  s.scrWritew (glyphCell himask s.rend.attr g) s.cur.pos

/-- A glyph goes to the screen. -/
def putGlyph (himask : Cell) (g : Nat) (s : Con) (b : Batch) : Con × Batch :=
  let (s, b) := if s.cur.needWrap || s.modes.irm then flush s b else (s, b)
  let s := storeGlyph d himask g s
  (advance s, b.extend s)

/-- One byte of a write. -/
def writeByte (himask : Cell) (w : Con × Batch) (c : Nat) : Con × Batch :=
  match translateByte w.1 c with
  | (s, none) => (s, w.2)
  | (s, some (c, tc)) =>
    if s.ps.state = .init ∧ glyphOk s c tc then
      let g := shownGlyph s.uni c tc
      if g < 0 ∨ g > charmask himask then (s, w.2)
      else putGlyph d himask g.toNat s w.2
    else
      let (s, b) := flush s w.2
      (terminalEmulation d s c, b)

/-- The loop of `do_con_write`. -/
def writeLoop (himask : Cell) (w : Con × Batch) (buf : List Nat) : Con × Batch :=
  buf.foldl (writeByte d himask) w

/-- `do_con_write(tty, buf, count)`. -/
def doConWrite (s : Con) (buf : List Nat) : Con :=
  let s := if s.vt.visible then hideCursor s else s
  let w := writeLoop d s.rend.hiFontMask (s, ⟨none, 0, 0⟩) buf
  (flush w.1 w.2).1

/-! ### `vt_console_print` -/

/-- The locals of `vt_console_print`: the column the next character goes to
and the characters stored since `vc_x` was brought up to date. -/
structure Printing where
  con : Con
  start : Nat
  myx : Nat
  cnt : Nat

/-- The characters stored so far are drawn. -/
def printDraw (p : Printing) : Con :=
  if p.con.vt.visible then
    p.con.draw [.putcs (p.con.cells p.start p.cnt) p.con.cur.y p.con.cur.x]
  else p.con

/-- The characters stored so far are drawn, and `vc_x` moves behind them. -/
def printFlush (p : Printing) : Con :=
  if 0 < p.cnt then
    let s := printDraw p
    let s := { s with cur.x := s.cur.x + p.cnt }
    if s.cur.needWrap then { s with cur.x := s.cur.x - 1 } else s
  else p.con

/-- The locals at the cursor. -/
def Printing.at (s : Con) : Printing := ⟨s, s.cur.pos, s.cur.x, 0⟩

/-- A character is stored. -/
def printCell (p : Printing) (c : Nat) : Printing :=
  let s := p.con
  let s := s.scrWritew ((s.rend.attr.setWidth 16 <<< 8) + BitVec.ofNat 16 c) s.cur.pos
  if p.myx = s.geo.cols - 1 then
    { p with con := { s with cur.needWrap := true }, cnt := p.cnt + 1 }
  else
    { p with con := { s with cur.pos := s.cur.pos + 2 }, myx := p.myx + 1, cnt := p.cnt + 1 }

/-- One character of a message. -/
def printByte (p : Printing) (c : Nat) : Printing :=
  if c = 10 ∨ c = 13 ∨ c = 8 ∨ p.con.cur.needWrap then
    let s := printFlush p
    if c = 8 then .at (vteBs s)
    else
      let s := if c ≠ 13 then vteLf d s else s
      let p := Printing.at (vteCr s)
      if c = 10 ∨ c = 13 then p else printCell p c
  else printCell p c

/-- What follows the loop: `vc_x` moves behind the last characters. -/
def printEnd (p : Printing) : Con :=
  if 0 < p.cnt then
    let s := printDraw p
    let s := { s with cur.x := s.cur.x + p.cnt }
    if s.cur.x = s.geo.cols then
      { s with cur.x := s.cur.x - 1, cur.needWrap := true }
    else s
  else p.con

/-- `vt_console_print(co, b, count)` on the console the message goes to, with
`oops` for `oops_in_progress`. -/
def vtConsolePrint (s : Con) (b : List Nat) (oops : Bool) : Con :=
  if s.modes.vcMode ≠ .text then s
  else
    let s := if s.vt.visible then hideCursor s else s
    let s := setCursor (printEnd (b.foldl (printByte d) (.at s)))
    if oops then s else pokeBlankedConsole d s

/-! ### `vc_resize` -/

/-- `VC_RESIZE_MAXCOL` and `VC_RESIZE_MAXROW`. -/
def vcResizeMaxcol : Nat := 32767
def vcResizeMaxrow : Nat := 32767

/-- `EINVAL` and `ENOMEM`. -/
def EINVAL : Int := 22
def ENOMEM : Int := 12

/-- `resize_screen`. -/
def resizeScreen (s : Con) (width height : Nat) : Int :=
  if s.vt.visible && s.modes.vcMode != .graphics then d.conResize s.seen width height else 0

/-- Record a fault unless `n` cells from `a` lie in the buffer `[lo, hi)`. -/
def Con.checkBuffer (s : Con) (lo hi a n : Nat) : Con :=
  s.check (n == 0 || (decide (lo ≤ a) && decide (a + 2 * n ≤ hi))) (.cell a n)

/-- `scr_memcpyw(t, a, 2 * n)` into the buffer `[lo, hi)`. -/
def Con.scrMemcpyw (s : Con) (lo hi t a n : Nat) : Con :=
  { s.checkBuffer lo hi t n with
    mem := fun b => if t ≤ b ∧ b < t + 2 * n ∧ (b - t) % 2 = 0 then s.mem (a + (b - t))
      else s.mem b }

/-- `scr_memsetw(t, c, 2 * n)` in the buffer `[lo, hi)`. -/
def Con.fillBuffer (s : Con) (lo hi t : Nat) (c : Cell) (n : Nat) : Con :=
  { s.checkBuffer lo hi t n with
    mem := fun b => if t ≤ b ∧ b < t + 2 * n ∧ (b - t) % 2 = 0 then c else s.mem b }

/-- The loop that copies the rows, from `ol` in the old buffer to `nl` in the
new one, as long as `ol` is below `vc_scr_end`. -/
def copyRows (lo hi oldRow newRow : Nat) : Nat → Nat → Nat → Con → Con × Nat
  | 0, _, nl, s => (s, nl)
  | fuel + 1, ol, nl, s =>
    if ol < s.geo.scrEnd then
      let rlth := min oldRow newRow
      let s := s.scrMemcpyw lo hi nl ol (rlth / 2)
      let s := if newRow - rlth ≠ 0 then
        s.fillBuffer lo hi (nl + rlth) s.rend.videoEraseChar ((newRow - rlth) / 2) else s
      copyRows lo hi oldRow newRow fuel (ol + oldRow) (nl + newRow) s
    else (s, nl)

/-- The fields of the new size. -/
def setSize (s : Con) (cols rows : Nat) : Con :=
  { s with geo := { s.geo with
      rows := rows, cols := cols, sizeRow := 2 * cols, screenbufSize := 2 * cols * rows } }

/-- The old screen in the new buffer `[buf, buf + ss)`: the rows that fit,
counted from the bottom, and blank rows below them. -/
def copyScreen (s : Con) (oldRows oldRow buf : Nat) : Con :=
  let ss := s.geo.screenbufSize
  let ol := s.geo.origin + (if s.geo.rows < oldRows then (oldRows - s.geo.rows) * oldRow else 0)
  let (s, nl) := copyRows buf (buf + ss) oldRow s.geo.sizeRow (s.geo.scrEnd - ol) ol buf s
  if buf + ss > nl then
    s.fillBuffer buf (buf + ss) nl s.rend.videoEraseChar ((buf + ss - nl) / 2)
  else s

/-- `vc_resize` once the new buffer is there and the hardware has followed. -/
def resizeTo (s : Con) (cols rows buf : Nat) : Con :=
  let oldRows := s.geo.rows
  let oldRow := s.geo.sizeRow
  let s := copyScreen (updateAttr d (setSize s cols rows)) oldRows oldRow buf
  let s := setOrigin d { s with geo.screenbuf := buf, vt.kmalloced := true }
  let s := { s with mar := ⟨0, s.geo.rows⟩ }
  let s := vteDecsc (gotoxy s s.cur.x s.cur.y)
  if s.vt.visible then updateScreen d s else s

/-- `vc_resize(vc, cols, lines)`, with `newscreen` the buffer `kmalloc` gives. -/
def vcResize (s : Con) (cols lines : Nat) (newscreen : Option Nat) : Con × Int :=
  if cols > vcResizeMaxcol ∨ lines > vcResizeMaxrow then (s, -EINVAL)
  else
    let newCols := if cols ≠ 0 then cols else s.geo.cols
    let newRows := if lines ≠ 0 then lines else s.geo.rows
    if newCols = s.geo.cols ∧ newRows = s.geo.rows then (s, 0)
    else
      match newscreen with
      | none => (s, -ENOMEM)
      | some buf =>
        let err := resizeScreen d s newCols newRows
        if err ≠ 0 then (s, err) else (resizeTo d s newCols newRows buf, 0)

/-! ### Initialisation -/

/-- What `con_init` decides about a new console. -/
structure ConInit where
  cols : Nat
  rows : Nat
  canDoColor : Bool
  hiFontMask : Cell
  complementMask : Cell

/-- The driver of `dummycon.c`: 80 by 25, and hooks that do nothing. -/
def dummyCon : Driver where
  conScrollRegion := fun _ _ _ _ _ => none
  conSetOrigin := fun _ => none
  conSwitch := fun s => (s.mem, s.rend.canDoColor, false)
  conBlank := fun s => (s.mem, false)
  conResize := fun _ _ _ => 0
  conBuildAttr := none
  conInvertRegion := none

def dummyConInit : ConInit := ⟨80, 25, true, 0, 0⟩

/-- The display of a console that is in front and has never been blanked. -/
def bootDisplay : Display where
  visible := true
  fgMode := .text
  blanked := false
  blankState := .off
  blankInterval := 10 * 60 * HZ
  offInterval := 0
  blankTimerExpired := false
  ignorePoke := false
  cursorOriginal := none
  kmalloced := false

/-- The console `vc_allocate` zeroes and `visual_init` sets up, with its buffer
at `screenbuf` in the memory `mem`, on display `vt`, with the maps `uni` and
`userMap`. -/
def visualInit (i : ConInit) (screenbuf : Nat) (mem : Nat → Cell) (vt : Display)
    (uni : Option UniPagedir) (userMap : Nat → Nat) : Con :=
  let mask := if i.complementMask = 0 then (if i.canDoColor then 0x7700#16 else 0x0800#16)
    else i.complementMask
  { geo :=
      { cols := i.cols, rows := i.rows, sizeRow := 2 * i.cols, origin := 0, scrEnd := 0
        screenbuf := screenbuf, screenbufSize := i.rows * (2 * i.cols) }
    cur := ⟨0, 0, 0, false⟩
    mar := ⟨0, 0⟩
    mem := mem
    ps :=
      { state := .init, npar := 0, par := fun _ => 0
        priv1 := false, priv2 := false, priv3 := false, priv4 := false }
    dec := ⟨false, 0, 0⟩
    modes :=
      { vcMode := .text, dispCtrl := false, toggleMeta := false, decscnm := false, decom := false
        decawm := false, dectcem := false, irm := false, decckm := false, decsclm := false
        decarm := false, decnkm := false, kam := false, crm := false, lnm := false
        c8bit := false, shift := false, decscl := 0, reportMouse := 0 }
    rend :=
      { attr := 0, defColor := 0, color := 0, ulcolor := 0, halfcolor := 0, intensity := 0
        underline := false, blink := false, reverse := false, videoEraseChar := 0
        canDoColor := i.canDoColor, hiFontMask := i.hiFontMask, complementMask := mask
        sComplementMask := mask, cursorType := 0 }
    chars :=
      { charset := false, g0 := .lat1, g1 := .lat1, g2 := .lat1, g3 := .lat1, gs := .lat1
        translate := .lat1 }
    saved :=
      { x := 0, y := 0, intensity := 0, underline := false, blink := false, reverse := false
        charset := false, color := 0, g0 := .lat1, g1 := .lat1, g2 := .lat1, g3 := .lat1 }
    tabStop := fun _ => 0
    paletteMap := fun _ => 0
    bellPitch := 0
    bellDuration := 0
    kbd :=
      { lockstate := 0, slockstate := 0, ledmode := 0, ledflagstate := 0
        defaultLedflagstate := 0, kbdmode := 0, modeflags := 0 }
    vt := vt
    uni := uni
    userMap := userMap
    queue := []
    draws := []
    requests := []
    faults := [] }

/-- `vc_init(vc, do_clear)`. -/
def vcInit (s : Con) (doClear : Bool) : Con :=
  let s := setOrigin d s
  let s := { s with cur.pos := s.geo.origin }
  let s := resetVc s
  let s := { s with rend := { s.rend with defColor := 0x07, ulcolor := 0x0f, halfcolor := 0x08 } }
  vteRis d s doClear

/-- The console on the dummy driver with its buffer at `0x1000`. -/
def bootCon : Con :=
  vcInit dummyCon (visualInit dummyConInit 0x1000 (fun _ => 0) bootDisplay none defaultUserMap) true

end LinuxConsole

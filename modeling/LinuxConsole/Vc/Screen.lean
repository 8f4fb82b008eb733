import LinuxConsole.Vc.Data

/-!
# The screen functions of `vt.c`

Cursor placement, scrolling, attributes, character insertion and deletion,
screen origin, redraw and unblanking, in the order of the source.  Functions
that call a hook of the display driver take the driver `d`.

The selection (`sel_cons`) lies on another console in these functions: nothing
the emulator does starts a selection, so `clear_selection` in `hide_cursor` and
`set_cursor` is not reached.
-/

namespace LinuxConsole

variable (d : Driver)

/-! ### Console cursor handling -/

/-- The cell `add_softcursor` shows in place of `orig`. -/
def softcursorCell (type : BitVec 32) (orig : Cell) : Cell :=
  let i := orig ||| ((type >>> 8).setWidth 16 &&& 0xff00#16)
  let i := i ^^^ (type.setWidth 16 &&& 0xff00#16)
  let i := if type &&& 0x20#32 ≠ 0 ∧ orig &&& 0x7000#16 = i &&& 0x7000#16
    then i ^^^ 0x7000#16 else i
  if type &&& 0x40#32 ≠ 0 ∧ i &&& 0x700#16 = (i &&& 0x7000#16) >>> 4
    then i ^^^ 0x0700#16 else i

def addSoftcursor (s : Con) : Con :=
  if s.rend.cursorType &&& 0x10#32 = 0 then s
  else if s.vt.cursorOriginal.isSome then s
  else
    let orig := s.mem s.cur.pos
    let i := softcursorCell s.rend.cursorType orig
    let s := { s with vt.cursorOriginal := some orig }
    let s := s.scrWritew i s.cur.pos
    if s.vt.visible then s.draw [.putc i s.cur.y s.cur.x] else s

def hideSoftcursor (s : Con) : Con :=
  match s.vt.cursorOriginal with
  | none => s
  | some orig =>
    let s := s.scrWritew orig s.cur.pos
    let s := if s.vt.visible then s.draw [.putc orig s.cur.y s.cur.x] else s
    { s with vt.cursorOriginal := none }

def hideCursor (s : Con) : Con := hideSoftcursor (s.draw [.cursorErase])

def setCursor (s : Con) : Con :=
  if !s.vt.visible || s.vt.blanked || s.modes.vcMode == .graphics then s
  else if s.modes.dectcem then
    let s := addSoftcursor s
    if s.rend.cursorType &&& 0x0f#32 ≠ 1 then s.draw [.cursorDraw] else s
  else hideCursor s

/-- The row `gotoxy` clamps `newY` to. -/
def clampY (s : Con) (newY : Int) : Int :=
  let minY : Int := if s.modes.decom then s.mar.top else 0
  let maxY : Int := if s.modes.decom then s.mar.bottom else s.geo.rows
  if newY < minY then minY else if newY ≥ maxY then maxY - 1 else newY

/-- The column `gotoxy` clamps `newX` to. -/
def clampX (s : Con) (newX : Int) : Int :=
  if newX < 0 then 0 else if newX ≥ s.geo.cols then s.geo.cols - 1 else newX

/-- `gotoxy`: the cursor goes to the nearest position inside the bounds. -/
def gotoxy (s : Con) (newX newY : Int) : Con :=
  let x := (clampX s newX).toNat
  let y := (clampY s newY).toNat
  { s with cur := ⟨x, y, s.geo.origin + y * s.geo.sizeRow + 2 * x, false⟩ }

/-- `gotoxay`: absolute moves, relative to the top margin in origin mode. -/
def gotoxay (s : Con) (newX newY : Int) : Con :=
  gotoxy s newX (if s.modes.decom then s32 (s.mar.top + newY) else newY)

/-! ### Palettes -/

def defaultRed : List (BitVec 8) :=
  [0x00, 0xaa, 0x00, 0xaa, 0x00, 0xaa, 0x00, 0xaa, 0x55, 0xff, 0x55, 0xff, 0x55, 0xff, 0x55, 0xff]

def defaultGrn : List (BitVec 8) :=
  [0x00, 0x00, 0xaa, 0x55, 0x00, 0x00, 0xaa, 0xaa, 0x55, 0x55, 0xff, 0xff, 0x55, 0x55, 0xff, 0xff]

def defaultBlu : List (BitVec 8) :=
  [0x00, 0x00, 0x00, 0x00, 0xaa, 0xaa, 0xaa, 0xaa, 0x55, 0x55, 0x55, 0x55, 0xff, 0xff, 0xff, 0xff]

def colorTable : List (BitVec 8) := [0, 4, 2, 6, 1, 5, 3, 7, 8, 12, 10, 14, 9, 13, 11, 15]

def setPalette (s : Con) : Con :=
  if s.vt.visible && s.modes.vcMode != .graphics then s.draw [.setPalette] else s

/-- The 48 bytes `reset_palette` writes. -/
def defaultPalette (k : Nat) : BitVec 8 :=
  if k % 3 = 0 then defaultRed.getD (k / 3) 0
  else if k % 3 = 1 then defaultGrn.getD (k / 3) 0
  else defaultBlu.getD (k / 3) 0

def resetPalette (s : Con) : Con :=
  setPalette { s with
    paletteMap := fun k => if k < 48 then defaultPalette k else s.paletteMap k }

/-! ### Scrolling -/

/-- The number of lines both scrolls settle on. -/
def scrollCount (t b : Nat) (nr : Int) : Int :=
  if b ≤ u32 (t + nr) then s32 ((b : Int) - t - 1) else nr

def scrollRegionUp (s : Con) (t b : Nat) (nr : Int) : Con :=
  let nr := scrollCount t b nr
  if s.geo.rows < b ∨ b ≤ t ∨ nr < 1 then s
  else
    let n := nr.toNat
    let s := { s with draws := s.draws ++ s.scrollCall t b .up n }
    match (if s.vt.visible then d.conScrollRegion s.seen t b .up n else none) with
    | some r => s.scrolled r
    | none =>
      let dst := s.geo.origin + s.geo.sizeRow * t
      let src := s.geo.origin + s.geo.sizeRow * (t + n)
      let s := s.scrMemmovew dst src ((b - t - n) * s.geo.sizeRow / 2)
      s.scrMemsetw (dst + 2 * ((b - t - n) * s.geo.cols)) s.rend.videoEraseChar
        (s.geo.sizeRow * n / 2)

def scrollRegionDown (s : Con) (t b : Nat) (nr : Int) : Con :=
  let nr := scrollCount t b nr
  if s.geo.rows < b ∨ b ≤ t ∨ nr < 1 then s
  else
    let n := nr.toNat
    let s := { s with draws := s.draws ++ s.scrollCall t b .down n }
    match (if s.vt.visible then d.conScrollRegion s.seen t b .down n else none) with
    | some r => s.scrolled r
    | none =>
      let src := s.geo.origin + s.geo.sizeRow * t
      let step := s.geo.cols * n
      let s := s.scrMemmovew (src + 2 * step) src ((b - t - n) * s.geo.sizeRow / 2)
      s.scrMemsetw src s.rend.videoEraseChar step

/-! ### Attributes -/

def defaultAttr (s : Con) : Con :=
  { s with rend := { s.rend with
      intensity := 1, underline := false, reverse := false, blink := false
      color := if s.rend.canDoColor then s.rend.defColor else s.rend.color } }

def buildAttr (s : Con) (color : BitVec 8) (intensity : Nat) (blink underline reverse : Bool) :
    BitVec 8 :=
  match d.conBuildAttr with
  | some f => f s.seen color intensity blink underline reverse
  | none =>
    if !s.rend.canDoColor then
      BitVec.ofNat 8 intensity ||| (if underline then 4 else 0) ||| (if reverse then 8 else 0)
        ||| (if blink then 0x80 else 0)
    else
      let a := s.rend.color
      let a := if underline then (a &&& 0xf0) ||| s.rend.ulcolor
        else if intensity = 0 then (a &&& 0xf0) ||| s.rend.halfcolor else a
      let a := if reverse then (a &&& 0x88) ||| (((a >>> 4) ||| (a <<< 4)) &&& 0x77) else a
      let a := if blink then a ^^^ 0x80 else a
      let a := if intensity = 2 then a ^^^ 0x08 else a
      if s.rend.hiFontMask = 0x100#16 then a <<< 1 else a

def updateAttr (s : Con) : Con :=
  { s with rend := { s.rend with
      attr := buildAttr d s s.rend.color s.rend.intensity s.rend.blink s.rend.underline
        (s.rend.reverse ^^ s.modes.decscnm)
      videoEraseChar :=
        ((buildAttr d s s.rend.color s.rend.intensity false false s.modes.decscnm).setWidth 16
          <<< 8) ||| 0x20#16 } }

def clearBufferAttributes (s : Con) : Con :=
  let mask := s.rend.hiFontMask ||| 0xff#16
  s.mapCells s.geo.origin (s.geo.screenbufSize / 2)
    (fun w => (w &&& mask) ||| (s.rend.videoEraseChar &&& ~~~mask))

/-! ### Characters and lines -/

/-- The loop of `insert_char`: the `k` cells from `q` move up by `nr`, the
last one first. -/
def insertLoop (q nr : Nat) : Nat → Con → Con
  | 0, s => s
  | k + 1, s => insertLoop q nr k (s.scrWritew (s.mem (q + 2 * k)) (q + 2 * (k + nr)))

def insertChar (s : Con) (nr : Nat) : Con :=
  let q := s.cur.pos
  let s := insertLoop q nr (s.geo.cols - nr - s.cur.x) s
  let s := s.scrMemsetw q s.rend.videoEraseChar nr
  let s := { s with cur.needWrap := false }
  if s.vt.visible then
    s.draw (.bmove s.cur.y s.cur.x s.cur.y (s.cur.x + nr) 1 (s.geo.cols - s.cur.x - nr) ::
      (List.range nr).reverse.map (fun i => .putc s.rend.videoEraseChar s.cur.y (s.cur.x + i)))
  else s

/-- The loop of `delete_char`: `k` cells move down by `nr` to `p` and on, the
first one first. -/
def deleteLoop (nr : Nat) : Nat → Nat → Con → Con
  | 0, _, s => s
  | k + 1, p, s => deleteLoop nr k (p + 2) (s.scrWritew (s.mem (p + 2 * nr)) p)

def deleteChar (s : Con) (nr : Nat) : Con :=
  let p := s.cur.pos
  let n := s.geo.cols - nr - s.cur.x
  let s := deleteLoop nr n p s
  let s := s.scrMemsetw (p + 2 * n) s.rend.videoEraseChar nr
  let s := { s with cur.needWrap := false }
  if s.vt.visible then
    s.draw (.bmove s.cur.y (s.cur.x + nr) s.cur.y s.cur.x 1 (s.geo.cols - s.cur.x - nr) ::
      (List.range nr).reverse.map
        (fun i => .putc s.rend.videoEraseChar s.cur.y (s.geo.cols - 1 - i)))
  else s

def insertLine (s : Con) (nr : Nat) : Con :=
  { scrollRegionDown d s s.cur.y s.mar.bottom nr with cur.needWrap := false }

def deleteLine (s : Con) (nr : Nat) : Con :=
  { scrollRegionUp d s s.cur.y s.mar.bottom nr with cur.needWrap := false }

/-! ### What is displayed -/

def setOrigin (s : Con) : Con :=
  let origin := (if s.vt.visible then d.conSetOrigin s.seen else none).getD s.geo.screenbuf
  { s with
    geo := { s.geo with origin := origin, scrEnd := origin + s.geo.screenbufSize }
    cur.pos := origin + s.geo.sizeRow * s.cur.y + 2 * s.cur.x }

/-- `clear_region`: clears the video memory, not the screen buffer. -/
def clearRegion (s : Con) (sx sy width height : Nat) : Con :=
  if s.vt.visible then s.draw [.clear sy sx height width s.rend.videoEraseChar] else s

/-- `do_update_region`, as the cells it hands to the driver. -/
def doUpdateRegion (s : Con) (start count : Nat) : Con :=
  s.draw [.updateRegion start (s.cells start count)]

def updateScreen (s : Con) : Con :=
  let oldWasColor := s.rend.canDoColor
  let s := setOrigin d (hideCursor s)
  let (mem, canDoColor, update) := d.conSwitch s.seen
  let s := setPalette { s with mem := mem, rend.canDoColor := canDoColor }
  let s := if oldWasColor ≠ canDoColor then clearBufferAttributes (updateAttr d s) else s
  let s := if update && s.modes.vcMode != .graphics then
    doUpdateRegion s s.geo.origin (s.geo.screenbufSize / 2) else s
  setCursor s

/-- The built-in inversion of a cell. -/
def invertCell (r : Rendition) (a : Cell) : Cell :=
  if !r.canDoColor then a ^^^ 0x0800#16
  else if r.hiFontMask = 0x100#16 then
    (a &&& 0x11ff#16) ||| ((a &&& 0xe000#16) >>> 4) ||| ((a &&& 0x0e00#16) <<< 4)
  else (a &&& 0x88ff#16) ||| ((a &&& 0x7000#16) >>> 4) ||| ((a &&& 0x0700#16) <<< 4)

/-- `invert_screen(vc, offset, count, 0)`. -/
def invertScreen (s : Con) (offset count : Nat) : Con :=
  let p := s.geo.origin + offset
  let n := count / 2
  let s := s.mapCells p n (match d.conInvertRegion with
    | some f => f s.seen
    | none => invertCell s.rend)
  if s.vt.visible then doUpdateRegion s p n else s

/-! ### Screen unblanking -/

/-- `unblank_vt(vc->display_fg)`.  When another console is in front it is that
one that is redrawn, and only the display's fields change here. -/
def unblankVt (s : Con) : Con :=
  let s := { s with vt.ignorePoke := false }
  if !s.vt.blanked then s
  else if (if s.vt.visible then s.modes.vcMode else s.vt.fgMode) != .text then s
  else
    let s := { s with vt.blanked := false
                      vt.blankState := if s.vt.blankInterval ≠ 0 then .normalWait
                        else s.vt.blankState }
    if s.vt.visible then
      let (mem, restore) := d.conBlank s.seen
      let s := { s with mem := mem }
      let s := if restore then updateScreen d s else s
      setCursor (setPalette s)
    else s

/-- `poke_blanked_console(vc->display_fg)`. -/
def pokeBlankedConsole (s : Con) : Con :=
  let s := { s with vt.blankTimerExpired := false }
  if s.vt.ignorePoke || (if s.vt.visible then s.modes.vcMode else s.vt.fgMode) == .graphics then s
  else if s.vt.blanked then unblankVt d s
  else if s.vt.blankInterval ≠ 0 then { s with vt.blankState := .normalWait }
  else s

/-- `reset_vc`, less the switching fields. -/
def resetVc (s : Con) : Con :=
  resetPalette { s with modes.vcMode := .text, kbd.kbdmode := 0 }

end LinuxConsole

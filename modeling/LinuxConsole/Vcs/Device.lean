import LinuxConsole.Lib.Slice
import LinuxConsole.Sel.Selection

/-!
# The screen devices

`vc_screen.c`: `vcs_read` and `vcs_write`, for the plain device and for the one with attributes
(`attr`).  Both transfer the bytes in rounds through `con_buf`, whose size is a parameter, and both
walk through the rows of the screen with the counters of `RowWalk`.

`vcs_write` redraws what it has written with `update_region`, which hides the cursor; a selection on
the console is then cleared, so writing is a step on the `Selection`.

The user's memory is a list of bytes that can be read, or a number of bytes that can be written.
No driver has `con_screen_pos`.
-/

namespace LinuxConsole

open Lib

/-- `ENXIO`. -/
def ENXIO : Int := 6

abbrev Byte := BitVec 8

/-- The size of the header of the device with attributes. -/
def HEADER_SIZE : Nat := 4

/-- The order of the bytes of a word, and whether a `char` has a sign. -/
structure Arch where
  bigEndian : Bool
  charSigned : Bool
  deriving DecidableEq

namespace Arch

/-- The bytes of a cell in memory. -/
def bytes (m : Arch) (w : Cell) : Byte × Byte :=
  if m.bigEndian then ((w >>> 8).setWidth 8, w.setWidth 8) else (w.setWidth 8, (w >>> 8).setWidth 8)

/-- The cell with the bytes `a` and `b` in memory. -/
def word (m : Arch) (a b : Byte) : Cell := if m.bigEndian then a ++ b else b ++ a

/-- `old` with its second byte replaced; the byte is a `char`. -/
def headCell (m : Arch) (c : Byte) (old : Cell) : Cell :=
  if m.bigEndian then (if m.charSigned then c.signExtend 16 else c.setWidth 16) ||| (old &&& 0xff00#16)
  else (c.setWidth 16 <<< 8) ||| (old &&& 0xff#16)

/-- `old` with its first byte replaced; the byte is an `unsigned char`. -/
def tailCell (m : Arch) (c : Byte) (old : Cell) : Cell :=
  if m.bigEndian then (old &&& 0xff#16) ||| (c.setWidth 16 <<< 8)
  else (old &&& 0xff00#16) ||| c.setWidth 16

end Arch

/-! ### Access to the screen -/

/-- `screen_pos`. -/
def screenPos (v : View) (s : Con) (wOffset : Nat) (viewed : Bool) : Nat :=
  screenpos v s (2 * wOffset) viewed

def getconsxy (s : Con) : Byte × Byte := (BitVec.ofNat 8 s.cur.x, BitVec.ofNat 8 s.cur.y)

/-- `putconsxy`, on a console that is not in front. -/
def putconsxy (s : Con) (x y : Byte) : Con := setCursor (gotoxy s x.toNat y.toNat)

def vcsScrReadw (s : Con) (org : Nat) : Cell :=
  if org = s.cur.pos then s.vt.cursorOriginal.getD (s.mem org) else s.mem org

def vcsScrWritew (s : Con) (val : Cell) (org : Nat) : Con :=
  let s := s.scrWritew val org
  if org = s.cur.pos then addSoftcursor { s with vt.cursorOriginal := none } else s

def vcsSize (g : Geom) (attr : Bool) : Nat :=
  let size := g.rows * g.cols
  if attr then 2 * size + HEADER_SIZE else size

/-! ### `vcs_read` -/

/-- The loop of the plain device over `n` cells. -/
def readChars (place : Nat → Nat) (s : Con) : Nat → RowWalk → List Byte
  | 0, _ => []
  | n + 1, w =>
    (vcsScrReadw s w.addr).setWidth 8 :: readChars place s n (w.step place s.geo.cols 2)

/-- The loop of the device with attributes over `n` cells. -/
def readWords (m : Arch) (place : Nat → Nat) (s : Con) : Nat → RowWalk → List Byte
  | 0, _ => []
  | n + 1, w =>
    let b := m.bytes (vcsScrReadw s w.addr)
    b.1 :: b.2 :: readWords m place s n (w.step place s.geo.cols 2)

/-- What a round has put into `con_buf`, where `con_buf_start` is, and `orig_count`. -/
structure ReadRound where
  conBuf : List Byte
  start : Nat
  origCount : Nat

/-- One round of `vcs_read` from `pos`. -/
def readRound (m : Arch) (bufSize : Nat) (attr : Bool) (v : View) (s : Con) (pos thisRound : Nat) :
    ReadRound :=
  let place := fun w => screenPos v s w s.vt.visible
  let walk := RowWalk.start place s.geo.cols
  if !attr then ⟨readChars place s thisRound (walk pos), 0, thisRound⟩
  else if pos < HEADER_SIZE then
    let header := [BitVec.ofNat 8 s.geo.rows, BitVec.ofNat 8 s.geo.cols, (getconsxy s).1,
      (getconsxy s).2]
    let total := thisRound + pos
    let this := if total > bufSize then bufSize else total
    let count := if total > bufSize then bufSize - pos else thisRound
    let rest := this - min HEADER_SIZE this
    ⟨header ++ readWords m place s ((rest + 1) / 2) (walk 0), pos, count⟩
  else
    let p := pos - HEADER_SIZE
    if pos % 2 = 1 then
      let this := if thisRound < bufSize then thisRound + 1 else thisRound
      let count := if thisRound < bufSize then thisRound else thisRound - 1
      ⟨readWords m place s ((this + 1) / 2) (walk (p / 2)), 1, count⟩
    else ⟨readWords m place s ((thisRound + 1) / 2) (walk (p / 2)), 0, thisRound⟩

/-- The bytes copied to the user, the counter `read`, whether the copy failed, and how far `con_buf`
has been written. -/
structure ReadState where
  data : List Byte
  read : Nat
  fault : Bool
  reach : Nat
  deriving DecidableEq

/-- The loop of `vcs_read`, where the user's memory has room for `room` bytes. -/
def vcsReadLoop (m : Arch) (bufSize : Nat) (attr : Bool) (v : View) (s : Con) :
    Nat → Nat → Nat → Nat → ReadState → Option ReadState
  | 0, _, _, _, _ => none
  | fuel + 1, pos, count, room, r =>
    if count = 0 then some r
    else
      let size := vcsSize s.geo attr
      if pos ≥ size then some r
      else
        let count := if count > size - pos then size - pos else count
        let thisRound := if count > bufSize then bufSize else count
        let round := readRound m bufSize attr v s pos thisRound
        let sent := (round.conBuf.drop round.start).take round.origCount
        let reach := max r.reach round.conBuf.length
        if room < round.origCount then
          some ⟨r.data ++ sent.take room, r.read + room, true, reach⟩
        else vcsReadLoop m bufSize attr v s fuel (pos + round.origCount) (count - round.origCount)
          (room - round.origCount) ⟨r.data ++ sent, r.read + round.origCount, r.fault, reach⟩

/-- What a call of `vcs_read` leaves: the result, the file position, the bytes in the user's memory,
and how far `con_buf` has been written. -/
structure VcsRead where
  ret : Int
  pos : Int
  data : List Byte
  reach : Nat
  deriving DecidableEq

/-- The end of `vcs_read` on a file at `pos`. -/
def ReadState.finish (r : ReadState) (pos : Int) : VcsRead :=
  ⟨if r.read ≠ 0 then r.read else if r.fault then -EFAULT else 0, pos + r.read, r.data, r.reach⟩

/-- `vcs_read`, on a file that has a console or none. -/
def vcsRead (m : Arch) (bufSize : Nat) (attr : Bool) (v : View) (vc : Option Con) (pos : Int)
    (count room : Nat) : Option VcsRead :=
  match vc with
  | none => some ⟨- ENXIO, pos, [], 0⟩
  | some s =>
    if pos < 0 then some ⟨-EINVAL, pos, [], 0⟩
    else (vcsReadLoop m bufSize attr v s (count + 1) pos.toNat count room ⟨[], 0, false, 0⟩).map
      (·.finish pos)

/-! ### Redrawing -/

variable (d : Nat → Driver)

/-- `hide_cursor` on console `k`. -/
def hideCursorOn (st : Selection) (k : Nat) : Selection :=
  (if st.selCons = some k then clearSelection d st else st).onCon k hideCursor

/-- `set_cursor` on console `k`. -/
def setCursorOn (st : Selection) (k : Nat) : Selection :=
  let s := st.cons k
  if !s.vt.visible || s.vt.blanked || s.modes.vcMode == .graphics then st
  else if s.modes.dectcem then
    (if st.selCons = some k then clearSelection d st else st).onCon k setCursor
  else hideCursorOn d st k

/-- `update_region` on console `k`. -/
def updateRegion (st : Selection) (k start count : Nat) : Selection :=
  if (st.cons k).vt.visible then
    setCursorOn d ((hideCursorOn d st k).onCon k fun s => doUpdateRegion s start count) k
  else st

/-! ### `vcs_write` -/

/-- The loop of the plain device. -/
def pushChars (place : Nat → Nat) : List Byte → RowWalk → Con → Con × Nat
  | [], w, s => (s, w.addr)
  | c :: cs, w, s =>
    pushChars place cs (w.step place s.geo.cols 2)
      (vcsScrWritew s ((vcsScrReadw s w.addr &&& 0xff00#16) ||| c.setWidth 16) w.addr)

/-- The loop of the device with attributes, and the byte behind it, whose cell `org` stays at. -/
def pushWords (m : Arch) (place : Nat → Nat) : List Byte → RowWalk → Con → Con × Nat
  | [], w, s => (s, w.addr)
  | [c], w, s => (vcsScrWritew s (m.tailCell c (vcsScrReadw s w.addr)) w.addr, w.addr)
  | a :: b :: cs, w, s =>
    pushWords m place cs (w.step place s.geo.cols 2) (vcsScrWritew s (m.word a b) w.addr)

/-- The cells of the device with attributes, from byte `p` behind the header on: a first byte that is
the second one of its cell has a branch of its own. -/
def pushCells (m : Arch) (place : Nat → Nat) (p : Nat) (bytes : List Byte) (s : Con) : Con × Nat :=
  let cols := s.geo.cols
  match bytes with
  | [] => (s, place (p / 2))
  | c :: cs =>
    if p % 2 = 1 then
      let org := place (p / 2)
      let s := vcsScrWritew s (m.headCell c (vcsScrReadw s org)) org
      let col := p / 2 % cols + 1
      let q := (p + 1) / 2
      pushWords m place cs
        (if col = cols then ⟨place q, 0, q + cols⟩ else ⟨org + 2, col, q + (cols - col)⟩) s
    else pushWords m place (c :: cs) (RowWalk.start place cols (p / 2)) s

/-- The column and the row in the header, when `bytes` have been put into it at `pos`. -/
def headerXy (pos : Nat) (bytes : List Byte) (s : Con) : Byte × Byte :=
  let header := splice (fun i => if i = 2 then (getconsxy s).1 else (getconsxy s).2) pos bytes
  (header 2, header 3)

/-- The header; only a console that is not in front takes the position of its cursor from there. -/
def pushHeader (pos : Nat) (bytes : List Byte) (s : Con) : Con :=
  if s.vt.visible then s else putconsxy s (headerXy pos bytes s).1 (headerXy pos bytes s).2

/-- The part of a round at `pos` that lies in the header. -/
def pushFirst (pos : Nat) (bytes : List Byte) (s : Con) : Con :=
  if pos < HEADER_SIZE then pushHeader pos (bytes.take (HEADER_SIZE - pos)) s else s

/-- What a round has made of the console, with `org0` and `org`. -/
structure Pushed where
  con : Con
  org0 : Option Nat
  org : Nat

/-- One round of `vcs_write` at `pos`, up to `update_region`. -/
def pushRound (m : Arch) (attr : Bool) (v : View) (s : Con) (pos : Nat) (bytes : List Byte) :
    Pushed :=
  let place := fun w => screenPos v s w s.vt.visible
  if !attr then
    let r := pushChars place bytes (RowWalk.start place s.geo.cols pos) s
    ⟨r.1, some (place pos), r.2⟩
  else
    let s := pushFirst pos bytes s
    let rest := bytes.drop (HEADER_SIZE - pos)
    let p := pos - HEADER_SIZE
    if rest = [] then ⟨s, none, 0⟩
    else
      let r := pushCells m place p rest s
      ⟨r.1, some (place (p / 2)), r.2⟩

/-- A round, and the region of `update_region`: its start and the number of its cells. -/
def writeRound (m : Arch) (attr : Bool) (k pos : Nat) (bytes : List Byte) (st : Selection) :
    Selection × List (Nat × Nat) :=
  let r := pushRound m attr (st.view k) (st.cons k) pos bytes
  let st := st.onCon k fun _ => r.con
  match r.org0 with
  | none => (st, [])
  | some org0 => (updateRegion d st k org0 ((r.org - org0) / 2), [(org0, (r.org - org0) / 2)])

/-- The consoles, the counter `written`, whether the loop was left with an error, and the regions. -/
structure WriteState where
  st : Selection
  written : Nat
  fault : Bool
  regions : List (Nat × Nat)

/-- The loop of `vcs_write`, where `buf` is what can be read of the user's memory. -/
def vcsWriteLoop (m : Arch) (bufSize : Nat) (attr : Bool) (k : Nat) :
    Nat → Nat → Nat → List Byte → WriteState → Option WriteState
  | 0, _, _, _, _ => none
  | fuel + 1, pos, count, buf, w =>
    if count = 0 then some w
    else
      let thisRound := if count > bufSize then bufSize else count
      let conBuf := buf.take thisRound
      if conBuf = [] then some (if w.written = 0 then { w with fault := true } else w)
      else
        let size := vcsSize (w.st.cons k).geo attr
        if pos ≥ size then some w
        else
          let bytes := conBuf.take (size - pos)
          let r := writeRound d m attr k pos bytes w.st
          vcsWriteLoop m bufSize attr k fuel (pos + bytes.length) (count - bytes.length)
            (buf.drop bytes.length)
            { w with st := r.1, written := w.written + bytes.length, regions := w.regions ++ r.2 }

/-- What a call of `vcs_write` leaves: the result, the file position, the consoles, and the regions
passed to `update_region`. -/
structure VcsWrite where
  ret : Int
  pos : Int
  st : Selection
  regions : List (Nat × Nat)

/-- The end of `vcs_write` on a file at `pos`. -/
def WriteState.finish (w : WriteState) (pos : Int) : VcsWrite :=
  if w.fault then ⟨-EFAULT, pos, w.st, w.regions⟩
  else ⟨w.written, pos + w.written, w.st, w.regions⟩

/-- `vcs_write` of `count` bytes, on a file that has console `k` or none. -/
def vcsWrite (m : Arch) (bufSize : Nat) (attr : Bool) (st : Selection) (vc : Option Nat) (pos : Int)
    (count : Nat) (buf : List Byte) : Option VcsWrite :=
  match vc with
  | none => some ⟨- ENXIO, pos, st, []⟩
  | some k =>
    let size := vcsSize (st.cons k).geo attr
    if pos < 0 ∨ pos > size then some ⟨-EINVAL, pos, st, []⟩
    else
      let count := if count > size - pos.toNat then size - pos.toNat else count
      (vcsWriteLoop d m bufSize attr k (count + 1) pos.toNat count buf ⟨st, 0, false, []⟩).map
        (·.finish pos)

end LinuxConsole

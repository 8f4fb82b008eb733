import LinuxConsole.Vc.Inversion
import LinuxConsole.Vc.Write

/-!
# The selection

`selection.c`: `set_selection` and what it calls, with `complement_pos` of `vt.c` and
`inverse_translate` of `consolemap.c`.  The variables the file keeps are the fields of `Selection`,
next to the consoles they are about; `poke_blanked_console` is there as far as it reaches the
selection: when it unblanks the display, the cursor comes back to the console in front, and a
selection on that console is cleared.

The offsets on `sel_cons` that are read, inverted or copied are recorded in `touched`, the scans for
the ends of words and of blanks in `scans`.

No driver has `con_screen_pos`, so the viewed cell of an offset lies at that offset from
`vc_visible_origin`.  The numbers behind the names of `sel_mode` are not part of the sources; a mode
is one of `SelMode`.
-/

namespace LinuxConsole

/-- `EFAULT`. -/
def EFAULT : Int := 14

/-- What `sel_mode` asks for: `TIOCL_SELCHAR` and so on; `TIOCL_SELMOUSEREPORT` comes with the
buttons. -/
inductive SelMode
  | char
  | word
  | line
  | pointer
  | clear
  | mouseReport (button : Nat)
  | other
  deriving DecidableEq

/-- `struct tiocl_selection`. -/
structure TioclSelection where
  xs : BitVec 16
  ys : BitVec 16
  xe : BitVec 16
  ye : BitVec 16
  selMode : SelMode
  deriving DecidableEq

/-- The pointer `complement_pos` has drawn: the console, the address and the cell that was there. -/
structure Pointer where
  con : Nat
  addr : Nat
  old : Cell

/-- A scan: where it begins, the offsets it looks at, and whether its loop has come to its end. -/
structure Scan where
  start : Nat
  visited : List Nat
  ended : Bool
  deriving DecidableEq

/-- The consoles, by number, and the variables of `selection.c` and `complement_pos`. -/
structure Selection where
  cons : Nat → Con
  visibleOrigin : Nat → Nat
  selCons : Option Nat
  selStart : Option Nat
  selEnd : Nat
  selBuffer : Option (List Nat)
  pointer : Option Pointer
  oldx : Nat
  oldy : Nat
  inwordLut : Nat → BitVec 32
  touched : List (Option Nat × Nat)
  scans : List Scan

variable (d : Nat → Driver)

namespace Selection

def view (st : Selection) (k : Nat) : View := ⟨st.visibleOrigin k, none⟩

def onCon (st : Selection) (k : Nat) (f : Con → Con) : Selection :=
  { st with cons := Function.update st.cons k (f (st.cons k)) }

def touch (st : Selection) (offsets : List Nat) : Selection :=
  { st with touched := st.touched ++ offsets.map (st.selCons, ·) }

@[simp] theorem onCon_self (st : Selection) (k : Nat) (f : Con → Con) :
    (st.onCon k f).cons k = f (st.cons k) := Function.update_self ..

theorem onCon_of_ne (st : Selection) {k j : Nat} (h : j ≠ k) (f : Con → Con) :
    (st.onCon k f).cons j = st.cons j := Function.update_of_ne h ..

theorem onCon_congr (st : Selection) {k : Nat} {f g : Con → Con} (h : f (st.cons k) = g (st.cons k)) :
    st.onCon k f = st.onCon k g := by
  rw [onCon, onCon, h]

theorem onCon_onCon (st : Selection) (k : Nat) (f g : Con → Con) :
    (st.onCon k f).onCon k g = st.onCon k fun s => g (f s) := by
  rw [onCon, onCon_self, onCon, Function.update_idem, onCon]

/-- What a step on one console leaves alone, it leaves alone on all. -/
theorem onCon_field {α : Type*} (st : Selection) (k : Nat) {f : Con → Con} {g : Con → α}
    (h : ∀ s, g (f s) = g s) (j : Nat) : g ((st.onCon k f).cons j) = g (st.cons j) := by
  by_cases hj : j = k
  · rw [hj, onCon_self, h]
  · rw [onCon_of_ne st hj]

@[simp] theorem selCons_onCon (st : Selection) (k : Nat) (f : Con → Con) :
    (st.onCon k f).selCons = st.selCons := rfl

@[simp] theorem selCons_touch (st : Selection) (offsets : List Nat) :
    (st.touch offsets).selCons = st.selCons := rfl

end Selection

/-! ### Reading the screen -/

/-- `inverse_translate`. -/
def inverseTranslate (s : Con) (glyph : Nat) : Nat :=
  if glyph ≥ maxGlyph then 0
  else match s.uni with
    | none => glyph % 256
    | some p =>
      match p.inverseTranslations s.chars.translate with
      | none => glyph % 256
      | some t => t glyph % 256

/-- `screen_glyph`. -/
def screenGlyph (v : View) (s : Con) (offset : Nat) : Nat :=
  let w := s.mem (screenpos v s offset true)
  (w &&& 0xff#16).toNat ||| (if w &&& s.rend.hiFontMask ≠ 0 then 0x100 else 0)

/-- `sel_pos`. -/
def selPos (st : Selection) (n : Nat) : Nat :=
  match st.selCons with
  | none => 0
  | some k => inverseTranslate (st.cons k) (screenGlyph (st.view k) (st.cons k) n)

def isspace (c : Nat) : Bool := c == 0x20

/-- `inword`, from the user's table. -/
def inword (lut : Nat → BitVec 32) (c : Nat) : Bool := (lut (c >>> 5)).getLsbD (c &&& 0x1f)

def atedge (p sizeRow : Nat) : Bool := p % sizeRow == 0 || (p + 2) % sizeRow == 0

/-! ### The highlight -/

/-- `highlight` on `sel_cons`. -/
def highlightSel (st : Selection) (start last : Nat) : Selection :=
  match st.selCons with
  | none => st
  | some k =>
    (st.onCon k fun s => highlight (d k) (st.view k) s start last).touch
      ((List.range ((last - start + 2) / 2)).map (start + 2 * ·))

/-- The first half of `complement_pos`: the cell under the pointer comes back. -/
def hidePointer (st : Selection) : Selection :=
  match st.pointer with
  | none => st
  | some p =>
    let st := st.onCon p.con fun s => s.scrWritew p.old p.addr
    match st.selCons with
    | none => st
    | some k =>
      st.onCon k fun s => if s.vt.visible then s.draw [.putc p.old st.oldy st.oldx] else s

/-- The second half: the pointer is drawn at `offset`. -/
def showPointer (st : Selection) (offset : Nat) : Selection :=
  match st.selCons with
  | none => st
  | some k =>
    let s := st.cons k
    let p := screenpos (st.view k) s offset true
    let old := s.mem p
    let new := old ^^^ s.rend.complementMask
    let st := (st.onCon k fun s => s.scrWritew new p).touch [offset]
    let st := { st with pointer := some ⟨k, p, old⟩ }
    if s.vt.visible then
      let oldx := offset / 2 % s.geo.cols
      let oldy := offset / 2 / s.geo.cols
      { st.onCon k fun s => s.draw [.putc new oldy oldx] with oldx := oldx, oldy := oldy }
    else st

/-- `highlight_pointer`, which is `complement_pos` on `sel_cons`. -/
def highlightPointer (st : Selection) (offset : Option Nat) : Selection :=
  let st := hidePointer st
  match offset with
  | none => { st with pointer := none }
  | some offset => showPointer st offset

/-- `clear_selection`. -/
def clearSelection (st : Selection) : Selection :=
  let st := highlightPointer st none
  match st.selStart with
  | none => st
  | some start => { highlightSel d st start st.selEnd with selStart := none }

/-! ### The ends of the selection -/

/-- The loop that looks for an end of a word.  It leaves at an offset where `stop` holds, keeping
the `last` one before it, or at the `edge` of the row. -/
def scanWord (stop edge : Nat → Bool) (next : Nat → Nat) : Nat → Nat → Nat → Nat × List Nat × Bool
  | 0, _, last => (last, [], false)
  | fuel + 1, p, last =>
    if stop p then (last, [p], true)
    else if edge p then (p, [p], true)
    else
      let r := scanWord stop edge next fuel (next p) p
      (r.1, p :: r.2.1, r.2.2)

/-- The loop over trailing blanks, and where it leaves. -/
def scanBlanks (blank edge : Nat → Bool) : Nat → Nat → Nat × List Nat × Bool
  | 0, p => (p, [], false)
  | fuel + 1, p =>
    if !blank p || edge p then (p, [p], true)
    else
      let r := scanBlanks blank edge fuel (p + 2)
      (r.1, p :: r.2.1, r.2.2)

/-- The condition on which a scan that began on a blank (`spc`), or not, leaves at `p`. -/
def wordStop (st : Selection) (spc : Bool) (p : Nat) : Bool :=
  if spc then !isspace (selPos st p) else !inword st.inwordLut (selPos st p)

/-- The scan to the left. -/
def scanLeft (st : Selection) (sizeRow ps : Nat) : Nat × List Nat × Bool :=
  scanWord (wordStop st (isspace (selPos st ps))) (fun p => p % sizeRow == 0) (· - 2) (ps / 2 + 1)
    ps ps

/-- The scan to the right. -/
def scanRight (st : Selection) (sizeRow pe : Nat) : Nat × List Nat × Bool :=
  scanWord (wordStop st (isspace (selPos st pe))) (fun p => (p + 2) % sizeRow == 0) (· + 2) sizeRow
    pe pe

/-- The ends of the selection before trailing blanks, by mode. -/
def selectEnds (st : Selection) (sizeRow ps pe : Nat) : SelMode → Selection × Option (Nat × Nat)
  | .char => (st, some (ps, pe))
  | .word =>
    let l := scanLeft st sizeRow ps
    let r := scanRight st sizeRow pe
    ({ st.touch (l.2.1 ++ r.2.1) with
        scans := st.scans ++ [⟨ps, l.2.1, l.2.2⟩, ⟨pe, r.2.1, r.2.2⟩] }, some (l.1, r.1))
  | .line => (st, some (ps - ps % sizeRow, pe + sizeRow - pe % sizeRow - 2))
  | _ => (st, none)

/-- Select to the end of the line if on trailing space. -/
def selectTrailing (st : Selection) (sizeRow start last : Nat) : Selection × Nat :=
  if last > start ∧ atedge last sizeRow = false then
    let st := st.touch [last]
    if isspace (selPos st last) then
      let r := scanBlanks (fun p => isspace (selPos st p)) (atedge · sizeRow) sizeRow (last + 2)
      ({ st.touch (r.2.1 ++ [r.1]) with scans := st.scans ++ [⟨last, r.2.1, r.2.2⟩] },
        if isspace (selPos st r.1) then r.1 else last)
    else (st, last)
  else (st, last)

/-- The highlight follows the ends of the selection. -/
def moveHighlight (st : Selection) (start last : Nat) : Selection :=
  match st.selStart with
  | none => highlightSel d st start last
  | some start0 =>
    if start = start0 then
      if last > st.selEnd then highlightSel d st (st.selEnd + 2) last
      else highlightSel d st (last + 2) st.selEnd
    else if last = st.selEnd then
      if start < start0 then highlightSel d st start (start0 - 2)
      else highlightSel d st start0 (start - 2)
    else highlightSel d (clearSelection d st) start last

/-! ### The text of the selection -/

/-- The buffer while it is filled: the bytes before `bp`, `obp`, and the end of the furthest byte
written. -/
structure Fill where
  buf : List Nat
  obp : Nat
  reach : Nat
  deriving DecidableEq

/-- The character `c` is stored, and behind the last cell of a row the blanks before it become a
carriage return. -/
def Fill.store (f : Fill) (c : Nat) (lastCell : Bool) : Fill :=
  let bp := f.buf.length + 1
  let f := { f with buf := f.buf ++ [c], obp := if isspace c then f.obp else bp
                    reach := max f.reach bp }
  if lastCell then
    if f.obp ≠ bp then ⟨f.buf.take f.obp ++ [13], f.obp + 1, max f.reach (f.obp + 1)⟩
    else { f with obp := bp }
  else f

/-- The loop that fills the buffer with the `n` cells from `start` on. -/
def fillBuffer (pos : Nat → Nat) (sizeRow start n : Nat) : Fill :=
  (List.range n).foldl
    (fun f k => f.store (pos (start + 2 * k)) ((start + 2 * k + 2) % sizeRow == 0)) ⟨[], 0, 0⟩

/-- The number of cells from `start` to `last`, which is also the size of the buffer. -/
def selLength (start last : Nat) : Nat := (last - start) / 2 + 1

/-! ### `set_selection` -/

/-- `limit`. -/
def limit (v u : BitVec 16) : BitVec 16 := if v > u then u else v

/-- A coordinate of the request on a console with `n` columns or rows. -/
def clampCoord (v : BitVec 16) (n : Nat) : Nat := (limit (v - 1) (BitVec.ofNat 16 n - 1)).toNat

/-- `mouse_report`; the string that is queued ends at its first null byte. -/
def mouseReport (s : Con) (butt mrx mry : Nat) : Con :=
  s.putsQueue ((27 :: chars "[M" ++
    [(32 + butt) % 256, (33 + mrx) % 256, (33 + mry) % 256]).takeWhile (· ≠ 0))

/-- `poke_blanked_console`, where `unblanks` says that the display was blanked. -/
def pokeSelection (st : Selection) (fg : Nat) (unblanks : Bool) : Selection :=
  if unblanks ∧ st.selCons = some fg then clearSelection d st else st

/-- The console in front becomes `sel_cons`. -/
def takeSelCons (st : Selection) (fg : Nat) : Selection :=
  if st.selCons ≠ some fg then { clearSelection d st with selCons := some fg } else st

/-- What follows when the ends of the selection are known. -/
def finishSelection (st : Selection) (sizeRow start last : Nat) (alloc : Bool) :
    Selection × Int :=
  if st.selStart = some start ∧ last = st.selEnd then (st, 0)
  else
    let st := { moveHighlight d st start last with selStart := some start, selEnd := last }
    if !alloc then (clearSelection d st, -ENOMEM)
    else
      let n := selLength start last
      let f := fillBuffer (selPos st) sizeRow start n
      ({ st.touch ((List.range n).map (start + 2 * ·)) with selBuffer := some f.buf }, 0)

/-- `set_selection` past the coordinates: `fg` is in front, `ps ≤ pe` are the offsets. -/
def selectRange (st : Selection) (fg sizeRow ps pe : Nat) (mode : SelMode) (alloc : Bool) :
    Selection × Int :=
  let st := takeSelCons d st fg
  if mode = .pointer then (highlightPointer st (some pe), 0)
  else match selectEnds st sizeRow ps pe mode with
    | (st, none) => (st, -EINVAL)
    | (st, some (start, last)) =>
      let r := selectTrailing (highlightPointer st none) sizeRow start last
      finishSelection d r.1 sizeRow start r.2 alloc

/-- `set_selection(sel, tty)` with `vc` the console of the tty and `fg` the one in front on its
display; `sel` is `none` if it cannot be read, `alloc` says whether `kmalloc` succeeds. -/
def setSelection (st : Selection) (vc fg : Nat) (sel : Option TioclSelection)
    (unblanks alloc : Bool) : Selection × Int :=
  let st := pokeSelection d st fg unblanks
  match sel with
  | none => (st, -EFAULT)
  | some sel =>
    let s := st.cons vc
    let xs := clampCoord sel.xs s.geo.cols
    let ys := clampCoord sel.ys s.geo.rows
    let xe := clampCoord sel.xe s.geo.cols
    let ye := clampCoord sel.ye s.geo.rows
    let ps := ys * s.geo.sizeRow + 2 * xs
    let pe := ye * s.geo.sizeRow + 2 * xe
    match sel.selMode with
    | .clear => (clearSelection d st, 0)
    | .mouseReport button =>
      if s.modes.reportMouse ≠ 0 then (st.onCon vc fun s => mouseReport s button xs ys, 0)
      else selectRange d st fg s.geo.sizeRow (min ps pe) (max ps pe) (.mouseReport button) alloc
    | mode => selectRange d st fg s.geo.sizeRow (min ps pe) (max ps pe) mode alloc

/-! ### At the start -/

/-- `inwordLut` before a program loads its own: digits, letters and the underscore. -/
def defaultLut (i : Nat) : BitVec 32 :=
  [0x00000000, 0x03ff0000, 0x87fffffe, 0x07fffffe, 0x00000000, 0x00000000, 0xff7fffff,
    0xff7fffff].getD i 0

/-- Nothing selected, on the consoles `cons`. -/
def bootSelection (cons : Nat → Con) (visibleOrigin : Nat → Nat) : Selection :=
  { cons := cons, visibleOrigin := visibleOrigin, selCons := none, selStart := none, selEnd := 0
    selBuffer := none, pointer := none, oldx := 0, oldy := 0, inwordLut := defaultLut
    touched := [], scans := [] }

end LinuxConsole

import LinuxConsole.Vc.Screen
import Mathlib.Tactic.Ring
import Mathlib.Tactic.Linarith

/-!
# The geometry invariant and the screen functions

`Sound d N F s` is the invariant of a console.  Its parts are the bounds on
size, cursor and margins, the bounds the parser keeps on its parameter count,
the array accesses (no fault beyond the list `F`, as long as the screen is no
wider than the tab stops) and the screen accesses.

The last part, the address of the cursor and the absence of faults on cells,
is under the hypothesis `Inert d` that `con_scroll_region` always returns 0: a
driver whose hook scrolls by itself puts the screen window where it likes.  The
other parts hold for every driver.

The predicate reads five fields of the console.  A step that leaves these five
alone keeps it by definition, and the proof is then the hypothesis itself.
-/

namespace LinuxConsole

/-! ### The invariant -/

/-- Whether a fault is about a cell of the screen. -/
def Fault.isCell : Fault → Bool
  | .cell _ _ => true
  | _ => false

/-- The driver's scroll hook always returns 0. -/
def Inert (d : Driver) : Prop := ∀ s t b dir n, d.conScrollRegion s t b dir n = none

/-- **The bounds of a console** of at most `N` columns. -/
structure InBounds (N : Nat) (g : Geom) (c : Cursor) (m : Margins) : Prop where
  cols_pos : 1 ≤ g.cols
  cols_le : g.cols ≤ N
  rows_lt : g.rows < 2 ^ 31
  sizeRow : g.sizeRow = 2 * g.cols
  bufSize : g.screenbufSize = g.rows * g.sizeRow
  x_lt : c.x < g.cols
  y_lt : c.y < g.rows
  top_lt : m.top < m.bottom
  bottom_le : m.bottom ≤ g.rows

/-- The bounds of the parser: `vc_npar` is an index of `vc_par`, and while a
palette sequence is read all its digits so far are below 16. -/
structure ParserOk (ps : Parser) : Prop where
  npar_lt : ps.npar < NPAR
  palette : ps.state = .palette → ps.npar < 7 ∧ ∀ j < ps.npar, ps.par j ≤ 15

/-- The cursor address and the end of the screen. -/
structure OnScreen (g : Geom) (c : Cursor) : Prop where
  pos : c.pos = g.origin + c.y * g.sizeRow + 2 * c.x
  scrEnd : g.scrEnd = g.origin + g.screenbufSize

/-- The faults on arrays and the faults on cells. -/
def arrayFaults (fs : List Fault) : List Fault := fs.filter (!·.isCell)
def cellFaults (fs : List Fault) : List Fault := fs.filter (·.isCell)

/-- The invariant on the five fields it reads. -/
structure SoundAt (d : Driver) (N : Nat) (F : List Fault) (g : Geom) (c : Cursor) (m : Margins)
    (ps : Parser) (fs : List Fault) : Prop where
  bounds : InBounds N g c m
  parser : ParserOk ps
  arrays : N ≤ 256 → arrayFaults fs = F
  screen : Inert d → OnScreen g c ∧ cellFaults fs = []

/-- **The geometry invariant.** -/
def Sound (d : Driver) (N : Nat) (F : List Fault) (s : Con) : Prop :=
  SoundAt d N F s.geo s.cur s.mar s.ps s.faults

variable {d : Driver} {N : Nat} {F : List Fault} {s : Con}

theorem Sound.ite {p : Prop} [Decidable p] {a b : Con} (ha : p → Sound d N F a)
    (hb : ¬ p → Sound d N F b) : Sound d N F (if p then a else b) := by
  split
  · next hp => exact ha hp
  · next hp => exact hb hp

theorem InBounds.x_lt_of {g : Geom} {c : Cursor} {m : Margins} (h : InBounds N g c m)
    (hN : N ≤ 256) : c.x < 256 :=
  Nat.lt_of_lt_of_le h.x_lt (Nat.le_trans h.cols_le hN)

/-! ### Rows -/

/-- A row of a grid ends inside the grid. -/
theorem row_fits {y rows : Nat} (w : Nat) (h : y < rows) : y * w + w ≤ rows * w := by
  calc y * w + w = (y + 1) * w := by ring
    _ ≤ rows * w := Nat.mul_le_mul_right w h

/-- **The row of the cursor lies on the screen.** -/
theorem Sound.row (h : Sound d N F s) (hd : Inert d) :
    s.geo.origin + 2 * s.cur.x ≤ s.cur.pos ∧
      s.cur.pos + 2 * (s.geo.cols - s.cur.x) ≤ s.geo.scrEnd := by
  have hr := row_fits s.geo.sizeRow h.bounds.y_lt
  have hp := (h.screen hd).1.pos
  have he := (h.screen hd).1.scrEnd
  have hw := h.bounds.sizeRow
  have hx := h.bounds.x_lt
  rw [h.bounds.bufSize] at he
  omega

/-- A range of cells is on the screen when its ends are. -/
theorem Con.inScreen_of {a n : Nat} (ha : s.geo.origin ≤ a) (hn : a + 2 * n ≤ s.geo.scrEnd) :
    s.inScreen a n = true := by
  simp [Con.inScreen, ha, hn]

/-! ### Accesses -/

theorem Sound.checkArray (h : Sound d N F s) {ok : Bool} {f : Fault}
    (hok : N ≤ 256 → ok = true) (hf : f.isCell = false) : Sound d N F (s.check ok f) := by
  refine ⟨h.bounds, h.parser, ?_, ?_⟩
  · intro hc
    have hok := hok hc
    subst hok
    exact h.arrays hc
  · intro hd
    refine ⟨(h.screen hd).1, ?_⟩
    have := (h.screen hd).2
    cases ok
    · simpa [Con.check, cellFaults, hf] using this
    · exact this

theorem Sound.checkCell (h : Sound d N F s) {ok : Bool} {f : Fault}
    (hok : Inert d → ok = true) (hf : f.isCell = true) : Sound d N F (s.check ok f) := by
  refine ⟨h.bounds, h.parser, ?_, ?_⟩
  · intro hc
    have := h.arrays hc
    cases ok
    · simpa [Con.check, arrayFaults, hf] using this
    · exact this
  · intro hd
    have hok := hok hd
    subst hok
    exact h.screen hd

theorem Sound.mapCells (h : Sound d N F s) {a n : Nat} (f : Cell → Cell)
    (ha : Inert d → s.inScreen a n = true) : Sound d N F (s.mapCells a n f) :=
  h.checkCell (f := .cell a n) ha rfl

theorem Sound.scrMemsetw (h : Sound d N F s) {a n : Nat} (c : Cell)
    (ha : Inert d → s.inScreen a n = true) : Sound d N F (s.scrMemsetw a c n) :=
  h.mapCells (fun _ => c) ha

theorem Sound.scrWritew (h : Sound d N F s) {a : Nat} (c : Cell)
    (ha : Inert d → s.inScreen a 1 = true) : Sound d N F (s.scrWritew c a) :=
  h.checkCell (f := .cell a 1) ha rfl

theorem Sound.scrMemmovew (h : Sound d N F s) {t a n : Nat} (ha : Inert d → s.inScreen a n = true)
    (ht : Inert d → s.inScreen t n = true) : Sound d N F (s.scrMemmovew t a n) :=
  (h.checkCell (f := .cell a n) ha rfl).checkCell (f := .cell t n) ht rfl

/-- The cell at the cursor is on the screen. -/
theorem Sound.atCursor (h : Sound d N F s) (hd : Inert d) : s.inScreen s.cur.pos 1 = true := by
  have hr := h.row hd
  have hx := h.bounds.x_lt
  exact Con.inScreen_of (by omega) (by omega)

/-! ### The cursor -/

/-- The cursor goes to a position inside the screen. -/
theorem Sound.moveTo (h : Sound d N F s) {x y pos : Nat} (w : Bool) (hx : x < s.geo.cols)
    (hy : y < s.geo.rows) (hp : Inert d → pos = s.geo.origin + y * s.geo.sizeRow + 2 * x) :
    Sound d N F { s with cur := ⟨x, y, pos, w⟩ } :=
  { h with
    bounds := { h.bounds with x_lt := hx, y_lt := hy }
    screen := fun hd => ⟨⟨hp hd, (h.screen hd).1.scrEnd⟩, (h.screen hd).2⟩ }

/-- The pending wrap is not part of the invariant. -/
theorem Sound.needWrap (h : Sound d N F s) (w : Bool) : Sound d N F { s with cur.needWrap := w } :=
  { h with
    bounds := { h.bounds with x_lt := h.bounds.x_lt, y_lt := h.bounds.y_lt }
    screen := fun hd => ⟨⟨(h.screen hd).1.pos, (h.screen hd).1.scrEnd⟩, (h.screen hd).2⟩ }

theorem Sound.addSoftcursor (h : Sound d N F s) : Sound d N F (addSoftcursor s) := by
  unfold LinuxConsole.addSoftcursor
  split
  · exact h
  split
  · exact h
  have hw := Sound.scrWritew (s := { s with vt.cursorOriginal := some (s.mem s.cur.pos) }) h
    (softcursorCell s.rend.cursorType (s.mem s.cur.pos)) h.atCursor
  dsimp only
  split <;> exact hw

theorem Sound.hideSoftcursor (h : Sound d N F s) : Sound d N F (hideSoftcursor s) := by
  unfold LinuxConsole.hideSoftcursor
  split
  · exact h
  · next orig _ =>
    have hw := h.scrWritew orig h.atCursor
    dsimp only
    split <;> exact hw

theorem Sound.hideCursor (h : Sound d N F s) : Sound d N F (hideCursor s) :=
  Sound.hideSoftcursor (s := s.draw [.cursorErase]) h

theorem Sound.setCursor (h : Sound d N F s) : Sound d N F (setCursor s) := by
  unfold LinuxConsole.setCursor
  split
  · exact h
  split
  · have ha := h.addSoftcursor
    dsimp only
    split <;> exact ha
  · exact h.hideCursor

theorem clampX_bounds (h : InBounds N s.geo s.cur s.mar) (x : Int) :
    0 ≤ clampX s x ∧ clampX s x < s.geo.cols := by
  have hc := h.cols_pos
  unfold clampX
  split
  · omega
  split <;> omega

theorem clampY_bounds (h : InBounds N s.geo s.cur s.mar) (y : Int) :
    0 ≤ clampY s y ∧ clampY s y < s.geo.rows := by
  have hy := h.y_lt
  have ht := h.top_lt
  have hb := h.bottom_le
  unfold clampY
  dsimp only
  cases s.modes.decom
  · simp only [Bool.false_eq_true, if_false]
    split
    · omega
    split <;> omega
  · simp only [if_true]
    split
    · omega
    split <;> omega

/-- **`gotoxy` restores the invariant from any arguments.** -/
theorem Sound.gotoxy (h : Sound d N F s) (x y : Int) : Sound d N F (gotoxy s x y) := by
  have hx := clampX_bounds h.bounds x
  have hy := clampY_bounds h.bounds y
  exact h.moveTo false (by omega) (by omega) (fun _ => rfl)

theorem Sound.gotoxay (h : Sound d N F s) (x y : Int) : Sound d N F (gotoxay s x y) := h.gotoxy _ _

/-! ### Palettes -/

theorem Sound.setPalette (h : Sound d N F s) : Sound d N F (setPalette s) := by
  unfold LinuxConsole.setPalette
  split <;> exact h

theorem Sound.resetPalette (h : Sound d N F s) : Sound d N F (resetPalette s) :=
  Sound.setPalette (s := { s with
    paletteMap := fun k => if k < 48 then defaultPalette k else s.paletteMap k }) h

/-! ### Scrolling -/

theorem s32_of_lt {n : Int} (h0 : 0 ≤ n) (h : n < 2 ^ 31) : s32 n = n := by
  unfold s32
  rw [BitVec.toInt_ofInt]
  exact Int.bmod_eq_of_le (by omega) (by omega)

theorem u32_of_lt {n : Int} (h0 : 0 ≤ n) (h : n < 2 ^ 32) : (u32 n : Int) = n := by
  unfold u32
  rw [BitVec.toNat_ofInt]
  have : n % (2 ^ 32 : Nat) = n := Int.emod_eq_of_lt h0 (by omega)
  rw [this]
  omega

/-- The lines scrolled are at most those of the region. -/
theorem scrollCount_le {t b : Nat} (nr : Int) (htb : t < b) (hb : b < 2 ^ 31) (h1 : 1 ≤ nr)
    (h2 : t + nr < 2 ^ 32) : t + scrollCount t b nr ≤ b := by
  unfold scrollCount
  have hu := u32_of_lt (n := t + nr) (by omega) h2
  split
  · rw [s32_of_lt (by omega) (by omega)]
    omega
  · omega

theorem scrollCount_pos {t b : Nat} (nr : Int) (htb : t < b) (hb : b < 2 ^ 31)
    (h : 1 ≤ scrollCount t b nr) (h2 : t + nr < 2 ^ 32) (h0 : 0 ≤ nr) : 1 ≤ nr := by
  unfold scrollCount at h
  have hu := u32_of_lt (n := t + nr) (by omega) h2
  split at h
  · rw [s32_of_lt (by omega) (by omega)] at h
    omega
  · exact h

/-- The rows that a scroll leaves the region and those that it does not. -/
theorem scrollCount_split {t b : Nat} (nr : Int) (htb : t < b) (hb : b < 2 ^ 31)
    (h : 1 ≤ scrollCount t b nr) (h0 : 0 ≤ nr) (h2 : t + nr < 2 ^ 32) :
    ∃ n m : Nat, scrollCount t b nr = n ∧ b = t + n + m := by
  have hpos := scrollCount_pos nr htb hb h h2 h0
  have hle := scrollCount_le nr htb hb hpos h2
  exact ⟨(scrollCount t b nr).toNat, b - t - (scrollCount t b nr).toNat, by omega, by omega⟩

/-- The rows `[t, t + k)` of the screen lie on it. -/
theorem Sound.rows (h : Sound d N F s) (hd : Inert d) {t k : Nat} (htk : t + k ≤ s.geo.rows) :
    s.inScreen (s.geo.origin + 2 * (s.geo.cols * t)) (k * s.geo.cols) = true := by
  have he := (h.screen hd).1.scrEnd
  have hw := h.bounds.sizeRow
  have hm : 2 * s.geo.cols * (t + k) ≤ s.geo.rows * s.geo.sizeRow := by
    rw [hw, Nat.mul_comm s.geo.rows]
    exact Nat.mul_le_mul_left _ htk
  have hs : 2 * s.geo.cols * (t + k) = 2 * (s.geo.cols * t) + 2 * (k * s.geo.cols) := by ring
  rw [h.bounds.bufSize] at he
  exact Con.inScreen_of (by omega) (by omega)

theorem Sound.scrolled (h : Sound d N F s) (hd : ¬ Inert d) (r : Scrolled) :
    Sound d N F (s.scrolled r) :=
  { bounds := { h.bounds with x_lt := h.bounds.x_lt, y_lt := h.bounds.y_lt }
    parser := h.parser
    arrays := h.arrays
    screen := fun hi => absurd hi hd }

/-- Without a scroll hook nothing is scrolled by the driver. -/
theorem Sound.hooked (h : Sound d N F s) {v : Bool} {t b : Nat} {dir : ScrollDir} {n : Nat}
    {c : Con} {r : Scrolled}
    (hr : (if v then d.conScrollRegion c t b dir n else none) = some r) :
    Sound d N F (s.scrolled r) := by
  refine h.scrolled (fun hd => ?_) r
  rw [hd, ite_self] at hr
  exact Option.some_ne_none r hr.symm

/-- The distance both scrolls move: `n` rows of a region of at least `n`. -/
theorem Sound.scrollRegionUp (h : Sound d N F s) {t b : Nat} (nr : Int) (h0 : 0 ≤ nr)
    (h2 : t + nr < 2 ^ 32) : Sound d N F (scrollRegionUp d s t b nr) := by
  have hrows := h.bounds.rows_lt
  have hw := h.bounds.sizeRow
  unfold LinuxConsole.scrollRegionUp
  dsimp only
  split
  · exact h
  next hg =>
  obtain ⟨n, m, hn, rfl⟩ := scrollCount_split (t := t) (b := b) nr (by omega) (by omega)
    (by omega) h0 h2
  simp only [hn, Int.toNat_natCast]
  split
  · next r hr => exact Sound.hooked (s := { s with draws := _ }) h hr
  · have hm : t + n + m - t - n = m := by omega
    have hcells : m * s.geo.sizeRow / 2 = m * s.geo.cols := by
      rw [hw, show m * (2 * s.geo.cols) = 2 * (m * s.geo.cols) by ring]
      omega
    have hfill : s.geo.sizeRow * n / 2 = n * s.geo.cols := by
      rw [hw, show 2 * s.geo.cols * n = 2 * (n * s.geo.cols) by ring]
      omega
    rw [hm, hcells]
    have hmove := h.scrMemmovew (t := s.geo.origin + s.geo.sizeRow * t)
      (a := s.geo.origin + s.geo.sizeRow * (t + n)) (n := m * s.geo.cols)
      (fun hd => by
        have := h.rows hd (t := t + n) (k := m) (by omega)
        rwa [← Nat.mul_assoc, ← hw] at this)
      (fun hd => by
        have := h.rows hd (t := t) (k := m) (by omega)
        rwa [← Nat.mul_assoc, ← hw] at this)
    refine hmove.scrMemsetw s.rend.videoEraseChar fun hd => ?_
    have := h.rows hd (t := t + m) (k := n) (by omega)
    rwa [show 2 * (s.geo.cols * (t + m)) = s.geo.sizeRow * t + 2 * (m * s.geo.cols) by
      rw [hw]; ring, ← Nat.add_assoc, ← hfill] at this

theorem Sound.scrollRegionDown (h : Sound d N F s) {t b : Nat} (nr : Int) (h0 : 0 ≤ nr)
    (h2 : t + nr < 2 ^ 32) : Sound d N F (scrollRegionDown d s t b nr) := by
  have hrows := h.bounds.rows_lt
  have hw := h.bounds.sizeRow
  unfold LinuxConsole.scrollRegionDown
  dsimp only
  split
  · exact h
  next hg =>
  obtain ⟨n, m, hn, rfl⟩ := scrollCount_split (t := t) (b := b) nr (by omega) (by omega)
    (by omega) h0 h2
  simp only [hn, Int.toNat_natCast]
  split
  · next r hr => exact Sound.hooked (s := { s with draws := _ }) h hr
  · have hm : t + n + m - t - n = m := by omega
    have hcells : m * s.geo.sizeRow / 2 = m * s.geo.cols := by
      rw [hw, show m * (2 * s.geo.cols) = 2 * (m * s.geo.cols) by ring]
      omega
    rw [hm, hcells]
    have hmove := h.scrMemmovew
      (t := s.geo.origin + s.geo.sizeRow * t + 2 * (s.geo.cols * n))
      (a := s.geo.origin + s.geo.sizeRow * t) (n := m * s.geo.cols)
      (fun hd => by
        have := h.rows hd (t := t) (k := m) (by omega)
        rwa [← Nat.mul_assoc, ← hw] at this)
      (fun hd => by
        have := h.rows hd (t := t + n) (k := m) (by omega)
        rwa [show 2 * (s.geo.cols * (t + n)) = s.geo.sizeRow * t + 2 * (s.geo.cols * n) by
          rw [hw]; ring, ← Nat.add_assoc] at this)
    refine hmove.scrMemsetw s.rend.videoEraseChar fun hd => ?_
    have := h.rows hd (t := t) (k := n) (by omega)
    rwa [← Nat.mul_assoc, ← hw, Nat.mul_comm n] at this

/-! ### Attributes -/

theorem Sound.updateAttr (h : Sound d N F s) : Sound d N F (updateAttr d s) := h

/-- The whole screen is on the screen. -/
theorem Sound.whole (h : Sound d N F s) (hd : Inert d) :
    s.inScreen s.geo.origin (s.geo.screenbufSize / 2) = true := by
  have he := (h.screen hd).1.scrEnd
  exact Con.inScreen_of (Nat.le_refl _) (by omega)

theorem Sound.clearBufferAttributes (h : Sound d N F s) : Sound d N F (clearBufferAttributes s) :=
  h.mapCells _ h.whole

/-! ### Characters and lines -/

theorem Sound.insertLoop {q k : Nat} (nr : Nat) (h : Sound d N F s)
    (hq : Inert d → s.geo.origin ≤ q ∧ q + 2 * (k + nr) ≤ s.geo.scrEnd) :
    Sound d N F (insertLoop q nr k s) ∧ (LinuxConsole.insertLoop q nr k s).geo = s.geo ∧
      (LinuxConsole.insertLoop q nr k s).cur = s.cur := by
  induction k generalizing s with
  | zero => exact ⟨h, rfl, rfl⟩
  | succ k ih =>
    have hw := h.scrWritew (a := q + 2 * (k + nr)) (s.mem (q + 2 * k)) fun hd =>
      Con.inScreen_of (by have := hq hd; omega) (by have := hq hd; omega)
    exact ih hw fun hd => ⟨(hq hd).1, by have := (hq hd).2; exact Nat.le_trans (by omega) this⟩

theorem Sound.insertChar (h : Sound d N F s) {nr : Nat} (hnr : nr ≤ s.geo.cols - s.cur.x) :
    Sound d N F (insertChar s nr) := by
  have hl := Sound.insertLoop (q := s.cur.pos) (k := s.geo.cols - nr - s.cur.x) nr h
    fun hd => by
      have := h.row hd
      omega
  have hs := hl.1.scrMemsetw (a := s.cur.pos) (n := nr)
    (LinuxConsole.insertLoop s.cur.pos nr (s.geo.cols - nr - s.cur.x) s).rend.videoEraseChar
    fun hd => by
      have := h.row hd
      have hx := h.bounds.x_lt
      refine Con.inScreen_of ?_ ?_
      · rw [hl.2.1]
        omega
      · rw [hl.2.1]
        omega
  unfold LinuxConsole.insertChar
  dsimp only
  split <;> exact hs.needWrap false

theorem Sound.deleteLoop {p k : Nat} (nr : Nat) (h : Sound d N F s)
    (hp : Inert d → s.geo.origin ≤ p ∧ p + 2 * (k + nr) ≤ s.geo.scrEnd) :
    Sound d N F (deleteLoop nr k p s) ∧ (LinuxConsole.deleteLoop nr k p s).geo = s.geo ∧
      (LinuxConsole.deleteLoop nr k p s).cur = s.cur := by
  induction k generalizing s p with
  | zero => exact ⟨h, rfl, rfl⟩
  | succ k ih =>
    have hw := h.scrWritew (a := p) (s.mem (p + 2 * nr)) fun hd =>
      Con.inScreen_of (by have := hp hd; omega) (by have := hp hd; omega)
    exact ih (p := p + 2) hw fun hd => by
      have := hp hd
      exact ⟨Nat.le_trans this.1 (by omega), Nat.le_trans (by omega) this.2⟩

theorem Sound.deleteChar (h : Sound d N F s) {nr : Nat} (hnr : nr ≤ s.geo.cols - s.cur.x) :
    Sound d N F (deleteChar s nr) := by
  have hl := Sound.deleteLoop (p := s.cur.pos) (k := s.geo.cols - nr - s.cur.x) nr h
    fun hd => by
      have := h.row hd
      omega
  have hs := hl.1.scrMemsetw (a := s.cur.pos + 2 * (s.geo.cols - nr - s.cur.x)) (n := nr)
    (LinuxConsole.deleteLoop nr (s.geo.cols - nr - s.cur.x) s.cur.pos s).rend.videoEraseChar
    fun hd => by
      have := h.row hd
      have hx := h.bounds.x_lt
      refine Con.inScreen_of ?_ ?_
      · rw [hl.2.1]
        omega
      · rw [hl.2.1]
        omega
  unfold LinuxConsole.deleteChar
  dsimp only
  split <;> exact hs.needWrap false

theorem Sound.insertLine (h : Sound d N F s) {nr : Nat} (hnr : nr ≤ s.geo.rows - s.cur.y) :
    Sound d N F (insertLine d s nr) := by
  have hrows := h.bounds.rows_lt
  have hy := h.bounds.y_lt
  exact (h.scrollRegionDown (t := s.cur.y) (b := s.mar.bottom) nr (by omega)
    (by omega)).needWrap false

theorem Sound.deleteLine (h : Sound d N F s) {nr : Nat} (hnr : nr ≤ s.geo.rows - s.cur.y) :
    Sound d N F (deleteLine d s nr) := by
  have hrows := h.bounds.rows_lt
  have hy := h.bounds.y_lt
  exact (h.scrollRegionUp (t := s.cur.y) (b := s.mar.bottom) nr (by omega)
    (by omega)).needWrap false

/-! ### What is displayed -/

theorem Sound.setOrigin (h : Sound d N F s) : Sound d N F (setOrigin d s) :=
  { bounds := { h.bounds with x_lt := h.bounds.x_lt, y_lt := h.bounds.y_lt }
    parser := h.parser
    arrays := h.arrays
    screen := fun hd => ⟨⟨by
      show _ + s.geo.sizeRow * s.cur.y + 2 * s.cur.x = _ + s.cur.y * s.geo.sizeRow + 2 * s.cur.x
      rw [Nat.mul_comm]; rfl, rfl⟩, (h.screen hd).2⟩ }

theorem Sound.clearRegion (h : Sound d N F s) (sx sy width height : Nat) :
    Sound d N F (clearRegion s sx sy width height) := by
  unfold LinuxConsole.clearRegion
  split <;> exact h

theorem Sound.redraw {p : Prop} [Decidable p] (h : Sound d N F s) (start count : Nat) :
    Sound d N F (if p then doUpdateRegion s start count else s) :=
  Sound.ite (fun _ => h) (fun _ => h)

theorem Sound.updateScreen (h : Sound d N F s) : Sound d N F (updateScreen d s) := by
  have ho := h.hideCursor.setOrigin
  unfold LinuxConsole.updateScreen
  generalize LinuxConsole.setOrigin d (LinuxConsole.hideCursor s) = s' at ho
  dsimp only
  have hp := Sound.setPalette (s := { s' with
    mem := (d.conSwitch s'.seen).1, rend.canDoColor := (d.conSwitch s'.seen).2.1 }) ho
  refine Sound.setCursor ?_
  refine Sound.redraw ?_ _ _
  exact Sound.ite (fun _ => hp.updateAttr.clearBufferAttributes) (fun _ => hp)

theorem Sound.invertScreen (h : Sound d N F s) :
    Sound d N F (invertScreen d s 0 s.geo.screenbufSize) := by
  rw [LinuxConsole.invertScreen]
  exact (h.mapCells _ h.whole).redraw (p := s.vt.visible = true) _ _

/-! ### Screen unblanking -/

theorem Sound.unblankVt (h : Sound d N F s) : Sound d N F (unblankVt d s) := by
  unfold LinuxConsole.unblankVt
  refine Sound.ite (fun _ => h) (fun _ => Sound.ite (fun _ => h) (fun _ => ?_))
  refine Sound.ite (fun _ => Sound.setCursor (Sound.setPalette ?_)) (fun _ => h)
  exact Sound.ite (fun _ => Sound.updateScreen h) (fun _ => h)

theorem Sound.pokeBlankedConsole (h : Sound d N F s) : Sound d N F (pokeBlankedConsole d s) := by
  unfold LinuxConsole.pokeBlankedConsole
  refine Sound.ite (fun _ => h) (fun _ => Sound.ite (fun _ => Sound.unblankVt h) (fun _ => ?_))
  exact Sound.ite (fun _ => h) (fun _ => h)

end LinuxConsole

import LinuxConsole.Vc.Handed
import Mathlib.Data.List.GetD

/-!
# The cells of a screen

The functions that write to the screen compute addresses.  Here they are described by rows and
columns: `Con.cellAt s y x` is the cell of the screen in row `y` and column `x`, `linear_lt` and its
kind translate ranges of addresses, and there is one lemma for each loop and each block move, up to
**the whole functions**: `cellAt_insertChar`, `cellAt_deleteChar`, `cellAt_scrollRegionUp` and
`cellAt_scrollRegionDown`.
-/

namespace LinuxConsole

variable {d : Driver} {N : Nat} {F : List Fault} {s : Con}

/-! ### Rows and columns -/

/-- The order of the cells in memory is that of their rows and columns. -/
theorem linear_lt {cols i j y e : Nat} (hj : j < cols) (he : e ≤ cols) :
    i * cols + j < y * cols + e ↔ i < y ∨ (i = y ∧ j < e) := by
  rcases Nat.lt_trichotomy i y with h | rfl | h
  · have hrow := row_fits cols h
    constructor
    · exact fun _ => .inl h
    · intro _
      omega
  · omega
  · have hrow := row_fits cols h
    omega

theorem linear_le {cols i j y x : Nat} (hj : j < cols) (hx : x ≤ cols) :
    y * cols + x ≤ i * cols + j ↔ y < i ∨ (y = i ∧ x ≤ j) := by
  rw [← Nat.not_lt, linear_lt hj hx]
  omega

theorem linear_row {cols i j y x n : Nat} (hj : j < cols) (hn : x + n ≤ cols) :
    (y * cols + x ≤ i * cols + j ∧ i * cols + j < y * cols + x + n) ↔
      i = y ∧ x ≤ j ∧ j < x + n := by
  rw [Nat.add_assoc, linear_lt hj hn, linear_le hj (by omega)]
  omega

/-! ### The cells of a console -/

/-- The cell of the screen in row `y` and column `x`. -/
def Con.cellAt (s : Con) (y x : Nat) : Cell := s.mem (s.geo.origin + y * s.geo.sizeRow + 2 * x)

/-- The size of the screen, the cursor on it and the margins. -/
structure Placed (s : Con) : Prop where
  bounds : InBounds s.geo.cols s.geo s.cur s.mar
  onScreen : OnScreen s.geo s.cur

theorem Sound.placed (h : Sound d N F s) (hd : Inert d) : Placed s where
  bounds := { h.bounds with cols_le := Nat.le_refl _ }
  onScreen := (h.screen hd).1

theorem cellAt_eq (hw : s.geo.sizeRow = 2 * s.geo.cols) (y x : Nat) :
    s.cellAt y x = s.mem (s.geo.origin + 2 * (y * s.geo.cols + x)) := by
  have haddr : s.geo.origin + y * s.geo.sizeRow + 2 * x =
      s.geo.origin + 2 * (y * s.geo.cols + x) := by
    rw [hw]
    ring
  rw [Con.cellAt, haddr]

theorem Placed.pos (h : Placed s) :
    s.cur.pos = s.geo.origin + 2 * (s.cur.y * s.geo.cols + s.cur.x) := by
  rw [h.onScreen.pos, h.bounds.sizeRow]
  ring

theorem Placed.scrEnd (h : Placed s) :
    s.geo.scrEnd = s.geo.origin + 2 * (s.geo.rows * s.geo.cols) := by
  rw [h.onScreen.scrEnd, h.bounds.bufSize, h.bounds.sizeRow]
  ring

theorem mem_mapCells (s : Con) (a n : Nat) (f : Cell → Cell) (b : Nat) :
    (s.mapCells a n f).mem b =
      if a ≤ b ∧ b < a + 2 * n ∧ (b - a) % 2 = 0 then f (s.mem b) else s.mem b := rfl

theorem mem_scrMemmovew (s : Con) (t a n b : Nat) : (s.scrMemmovew t a n).mem b =
    if t ≤ b ∧ b < t + 2 * n ∧ (b - t) % 2 = 0 then s.mem (a + (b - t)) else s.mem b := rfl

/-- The cells of a range, changed one by one. -/
theorem cellAt_mapCells (hw : s.geo.sizeRow = 2 * s.geo.cols) (k n : Nat) (f : Cell → Cell)
    (i j : Nat) : (s.mapCells (s.geo.origin + 2 * k) n f).cellAt i j =
      if k ≤ i * s.geo.cols + j ∧ i * s.geo.cols + j < k + n then f (s.cellAt i j)
      else s.cellAt i j := by
  have hcell : (s.mapCells (s.geo.origin + 2 * k) n f).cellAt i j =
      (s.mapCells (s.geo.origin + 2 * k) n f).mem (s.geo.origin + 2 * (i * s.geo.cols + j)) :=
    cellAt_eq (s := s.mapCells _ n f) hw i j
  rw [hcell, cellAt_eq hw, mem_mapCells]
  by_cases h : k ≤ i * s.geo.cols + j ∧ i * s.geo.cols + j < k + n
  · rw [if_pos (by omega), if_pos h]
  · rw [if_neg (by omega), if_neg h]

/-- The cells of a range, taken from another range. -/
theorem cellAt_scrMemmovew (hw : s.geo.sizeRow = 2 * s.geo.cols) (k m n : Nat) (i j : Nat) :
    (s.scrMemmovew (s.geo.origin + 2 * k) (s.geo.origin + 2 * m) n).cellAt i j =
      if k ≤ i * s.geo.cols + j ∧ i * s.geo.cols + j < k + n
      then s.mem (s.geo.origin + 2 * (m + (i * s.geo.cols + j - k))) else s.cellAt i j := by
  have hcell : (s.scrMemmovew (s.geo.origin + 2 * k) (s.geo.origin + 2 * m) n).cellAt i j =
      (s.scrMemmovew (s.geo.origin + 2 * k) (s.geo.origin + 2 * m) n).mem
        (s.geo.origin + 2 * (i * s.geo.cols + j)) :=
    cellAt_eq (s := s.scrMemmovew _ _ n) hw i j
  rw [hcell, cellAt_eq hw, mem_scrMemmovew]
  by_cases h : k ≤ i * s.geo.cols + j ∧ i * s.geo.cols + j < k + n
  · have haddr : s.geo.origin + 2 * m +
        (s.geo.origin + 2 * (i * s.geo.cols + j) - (s.geo.origin + 2 * k)) =
        s.geo.origin + 2 * (m + (i * s.geo.cols + j - k)) := by
      omega
    rw [if_pos (by omega), if_pos h]
    exact congrArg s.mem haddr
  · rw [if_neg (by omega), if_neg h]

theorem cellAt_scrWritew (hw : s.geo.sizeRow = 2 * s.geo.cols) (k : Nat) (v : Cell) (i j : Nat) :
    (s.scrWritew v (s.geo.origin + 2 * k)).cellAt i j =
      if i * s.geo.cols + j = k then v else s.cellAt i j := by
  have hcell : (s.scrWritew v (s.geo.origin + 2 * k)).cellAt i j =
      Function.update s.mem (s.geo.origin + 2 * k) v (s.geo.origin + 2 * (i * s.geo.cols + j)) :=
    cellAt_eq (s := s.scrWritew v _) hw i j
  rw [hcell, cellAt_eq hw, Function.update_apply]
  by_cases h : i * s.geo.cols + j = k
  · rw [if_pos (by omega), if_pos h]
  · rw [if_neg (by omega), if_neg h]

theorem mem_insertLoop (q nr : Nat) (k : Nat) : ∀ (s : Con) (a : Nat), (insertLoop q nr k s).mem a =
    if q + 2 * nr ≤ a ∧ a < q + 2 * (nr + k) ∧ (a - q) % 2 = 0 then s.mem (a - 2 * nr)
    else s.mem a := by
  induction k with
  | zero =>
    intro s a
    rw [if_neg (by omega)]
    rfl
  | succ k ih =>
    intro s a
    have hstep : (s.scrWritew (s.mem (q + 2 * k)) (q + 2 * (k + nr))).mem =
        Function.update s.mem (q + 2 * (k + nr)) (s.mem (q + 2 * k)) := rfl
    rw [insertLoop, ih, hstep]
    simp only [Function.update_apply]
    by_cases hlast : a = q + 2 * (k + nr)
    · have hback : a - 2 * nr = q + 2 * k := by omega
      rw [if_neg (by omega), if_pos hlast, if_pos (by omega), hback]
    · by_cases hin : q + 2 * nr ≤ a ∧ a < q + 2 * (nr + k) ∧ (a - q) % 2 = 0
      · rw [if_pos hin, if_neg (by omega), if_pos (by omega)]
      · rw [if_neg hin, if_neg hlast, if_neg (by omega)]

/-- The cells that `delete_char` moves down. -/
theorem mem_deleteLoop (nr : Nat) (k : Nat) : ∀ (p : Nat) (s : Con) (a : Nat),
    (deleteLoop nr k p s).mem a =
      if p ≤ a ∧ a < p + 2 * k ∧ (a - p) % 2 = 0 then s.mem (a + 2 * nr) else s.mem a := by
  induction k with
  | zero =>
    intro p s a
    rw [if_neg (by omega)]
    rfl
  | succ k ih =>
    intro p s a
    have hstep : (s.scrWritew (s.mem (p + 2 * nr)) p).mem =
        Function.update s.mem p (s.mem (p + 2 * nr)) := rfl
    rw [deleteLoop, ih, hstep]
    simp only [Function.update_apply]
    by_cases hfirst : a = p
    · rw [if_neg (by omega), if_pos hfirst, if_pos (by omega), hfirst]
    · by_cases hin : p + 2 ≤ a ∧ a < p + 2 + 2 * k ∧ (a - (p + 2)) % 2 = 0
      · rw [if_pos hin, if_neg (by omega), if_pos (by omega)]
      · rw [if_neg hin, if_neg hfirst, if_neg (by omega)]

theorem Placed.row (h : Placed s) :
    s.cur.pos - 2 * s.cur.x = s.geo.origin + 2 * (s.cur.y * s.geo.cols) := by
  rw [h.pos]
  omega

/-- The sizes of the screen belong together. -/
structure Geom.Sized (g : Geom) : Prop where
  row : g.sizeRow = 2 * g.cols
  buf : g.screenbufSize = g.rows * g.sizeRow

theorem Placed.sized (h : Placed s) : s.geo.Sized := ⟨h.bounds.sizeRow, h.bounds.bufSize⟩

theorem linear_lt_page {cols rows i j : Nat} (hi : i < rows) (hj : j < cols) :
    i * cols + j < rows * cols :=
  (linear_lt (e := 0) hj (Nat.zero_le _)).mpr (.inl hi)

/-! ### Insertion and deletion -/

/-- The loops of `insert_char` and `delete_char` touch the screen memory alone. -/
theorem insertLoop_eq (q nr k : Nat) : ∀ s : Con, ∃ mem fs,
    insertLoop q nr k s = { s with mem := mem, faults := fs } := by
  induction k with
  | zero => exact fun s => ⟨s.mem, s.faults, rfl⟩
  | succ k ih =>
    intro s
    obtain ⟨mem, fs, heq⟩ := ih (s.scrWritew (s.mem (q + 2 * k)) (q + 2 * (k + nr)))
    exact ⟨mem, fs, heq⟩

theorem deleteLoop_eq (nr k : Nat) : ∀ (p : Nat) (s : Con), ∃ mem fs,
    deleteLoop nr k p s = { s with mem := mem, faults := fs } := by
  induction k with
  | zero => exact fun p s => ⟨s.mem, s.faults, rfl⟩
  | succ k ih =>
    intro p s
    obtain ⟨mem, fs, heq⟩ := ih (p + 2) (s.scrWritew (s.mem (p + 2 * nr)) p)
    exact ⟨mem, fs, heq⟩

theorem insertChar_frame (s : Con) (nr : Nat) : (insertChar s nr).geo = s.geo ∧
    (insertChar s nr).cur = { s.cur with needWrap := false } ∧
    (insertChar s nr).mem = ((insertLoop s.cur.pos nr (s.geo.cols - nr - s.cur.x) s).scrMemsetw
      s.cur.pos s.rend.videoEraseChar nr).mem := by
  obtain ⟨mem, fs, hloop⟩ := insertLoop_eq s.cur.pos nr (s.geo.cols - nr - s.cur.x) s
  rw [insertChar, hloop]
  dsimp only
  split
  · exact ⟨rfl, rfl, rfl⟩
  · exact ⟨rfl, rfl, rfl⟩

theorem deleteChar_frame (s : Con) (nr : Nat) : (deleteChar s nr).geo = s.geo ∧
    (deleteChar s nr).cur = { s.cur with needWrap := false } ∧
    (deleteChar s nr).mem = ((deleteLoop nr (s.geo.cols - nr - s.cur.x) s.cur.pos s).scrMemsetw
      (s.cur.pos + 2 * (s.geo.cols - nr - s.cur.x)) s.rend.videoEraseChar nr).mem := by
  obtain ⟨mem, fs, hloop⟩ := deleteLoop_eq nr (s.geo.cols - nr - s.cur.x) s.cur.pos s
  rw [deleteChar, hloop]
  dsimp only
  split
  · exact ⟨rfl, rfl, rfl⟩
  · exact ⟨rfl, rfl, rfl⟩

/-- **`insert_char` in memory.** -/
theorem mem_insertChar {nr : Nat} (hx : s.cur.x < s.geo.cols) (hn : nr ≤ s.geo.cols - s.cur.x)
    (a : Nat) : (insertChar s nr).mem a =
      if s.cur.pos ≤ a ∧ a < s.cur.pos + 2 * (s.geo.cols - s.cur.x) ∧ (a - s.cur.pos) % 2 = 0 then
        if a < s.cur.pos + 2 * nr then s.rend.videoEraseChar else s.mem (a - 2 * nr)
      else s.mem a := by
  rw [(insertChar_frame s nr).2.2, Con.scrMemsetw, mem_mapCells, mem_insertLoop]
  by_cases hin : s.cur.pos ≤ a ∧ a < s.cur.pos + 2 * (s.geo.cols - s.cur.x) ∧
      (a - s.cur.pos) % 2 = 0
  · by_cases hgap : a < s.cur.pos + 2 * nr
    · rw [if_pos (by omega), if_pos hin, if_pos hgap]
    · rw [if_neg (by omega), if_pos (by omega), if_pos hin, if_neg hgap]
  · rw [if_neg (by omega), if_neg (by omega), if_neg hin]

/-- **`delete_char` in memory.** -/
theorem mem_deleteChar {nr : Nat} (hx : s.cur.x < s.geo.cols) (hn : nr ≤ s.geo.cols - s.cur.x)
    (a : Nat) : (deleteChar s nr).mem a =
      if s.cur.pos ≤ a ∧ a < s.cur.pos + 2 * (s.geo.cols - s.cur.x) ∧ (a - s.cur.pos) % 2 = 0 then
        if a + 2 * nr < s.cur.pos + 2 * (s.geo.cols - s.cur.x) then s.mem (a + 2 * nr)
        else s.rend.videoEraseChar
      else s.mem a := by
  rw [(deleteChar_frame s nr).2.2, Con.scrMemsetw, mem_mapCells, mem_deleteLoop]
  by_cases hin : s.cur.pos ≤ a ∧ a < s.cur.pos + 2 * (s.geo.cols - s.cur.x) ∧
      (a - s.cur.pos) % 2 = 0
  · by_cases hgap : a + 2 * nr < s.cur.pos + 2 * (s.geo.cols - s.cur.x)
    · rw [if_neg (by omega), if_pos (by omega), if_pos hin, if_pos hgap]
    · rw [if_pos (by omega), if_pos hin, if_neg hgap]
  · rw [if_neg (by omega), if_neg (by omega), if_neg hin]

/-- The address of a cell against that of the cursor. -/
theorem Placed.inRow (h : Placed s) {n i j : Nat} (hj : j < s.geo.cols)
    (hn : s.cur.x + n ≤ s.geo.cols) :
    (s.cur.pos ≤ s.geo.origin + 2 * (i * s.geo.cols + j) ∧
      s.geo.origin + 2 * (i * s.geo.cols + j) < s.cur.pos + 2 * n) ↔
      i = s.cur.y ∧ s.cur.x ≤ j ∧ j < s.cur.x + n := by
  rw [← linear_row hj hn, h.pos]
  omega

theorem cellAt_insertChar (h : Placed s) {nr i j : Nat} (hn : nr ≤ s.geo.cols - s.cur.x)
    (hj : j < s.geo.cols) : (insertChar s nr).cellAt i j =
      if i = s.cur.y ∧ s.cur.x ≤ j then
        if j < s.cur.x + nr then s.rend.videoEraseChar else s.cellAt i (j - nr)
      else s.cellAt i j := by
  have hw := h.bounds.sizeRow
  have hx := h.bounds.x_lt
  have hgeo := (insertChar_frame s nr).1
  have hrow := h.inRow (i := i) (n := s.geo.cols - s.cur.x) hj (by omega)
  have hplace : (insertChar s nr).cellAt i j =
      (insertChar s nr).mem (s.geo.origin + 2 * (i * s.geo.cols + j)) := by
    rw [← hgeo]
    exact cellAt_eq (by rw [hgeo]; exact hw) i j
  have hpos := h.pos
  rw [hplace, mem_insertChar hx hn, cellAt_eq hw, cellAt_eq hw]
  by_cases hin : i = s.cur.y ∧ s.cur.x ≤ j
  · obtain ⟨hlow, hhigh⟩ := hrow.mpr ⟨hin.1, hin.2, by omega⟩
    have hi : i * s.geo.cols = s.cur.y * s.geo.cols := by rw [hin.1]
    rw [if_pos (by omega), if_pos hin]
    by_cases hgap : j < s.cur.x + nr
    · rw [if_pos (by omega), if_pos hgap]
    · rw [if_neg (by omega), if_neg hgap]
      congr 1
      omega
  · rw [if_neg (fun hr => hin ⟨(hrow.mp ⟨hr.1, hr.2.1⟩).1, (hrow.mp ⟨hr.1, hr.2.1⟩).2.1⟩),
      if_neg hin]

theorem cellAt_deleteChar (h : Placed s) {nr i j : Nat} (hn : nr ≤ s.geo.cols - s.cur.x)
    (hj : j < s.geo.cols) : (deleteChar s nr).cellAt i j =
      if i = s.cur.y ∧ s.cur.x ≤ j then
        if j + nr < s.geo.cols then s.cellAt i (j + nr) else s.rend.videoEraseChar
      else s.cellAt i j := by
  have hw := h.bounds.sizeRow
  have hx := h.bounds.x_lt
  have hgeo := (deleteChar_frame s nr).1
  have hrow := h.inRow (i := i) (n := s.geo.cols - s.cur.x) hj (by omega)
  have hplace : (deleteChar s nr).cellAt i j =
      (deleteChar s nr).mem (s.geo.origin + 2 * (i * s.geo.cols + j)) := by
    rw [← hgeo]
    exact cellAt_eq (by rw [hgeo]; exact hw) i j
  have hpos := h.pos
  rw [hplace, mem_deleteChar hx hn, cellAt_eq hw, cellAt_eq hw]
  by_cases hin : i = s.cur.y ∧ s.cur.x ≤ j
  · obtain ⟨hlow, hhigh⟩ := hrow.mpr ⟨hin.1, hin.2, by omega⟩
    have hi : i * s.geo.cols = s.cur.y * s.geo.cols := by rw [hin.1]
    rw [if_pos (by omega), if_pos hin]
    by_cases hgap : j + nr < s.geo.cols
    · rw [if_pos (by omega), if_pos hgap]
      congr 1
      omega
    · rw [if_neg (by omega), if_neg hgap]
  · rw [if_neg (fun hr => hin ⟨(hrow.mp ⟨hr.1, hr.2.1⟩).1, (hrow.mp ⟨hr.1, hr.2.1⟩).2.1⟩),
      if_neg hin]

/-! ### Scrolling -/

theorem linear_rows {cols i j t m : Nat} (hj : j < cols) :
    (t * cols ≤ i * cols + j ∧ i * cols + j < t * cols + m * cols) ↔ t ≤ i ∧ i < t + m := by
  have hlow := linear_le (i := i) (y := t) hj (Nat.zero_le cols)
  have hhigh := linear_lt (i := i) (y := t + m) hj (Nat.zero_le cols)
  rw [Nat.add_mul] at hhigh
  omega

theorem cellAt_scrollUp (hw : s.geo.sizeRow = 2 * s.geo.cols) {t n m i j : Nat} (e : Cell)
    (hj : j < s.geo.cols) :
    ((s.scrMemmovew (s.geo.origin + 2 * (t * s.geo.cols))
      (s.geo.origin + 2 * ((t + n) * s.geo.cols)) (m * s.geo.cols)).scrMemsetw
        (s.geo.origin + 2 * ((t + m) * s.geo.cols)) e (n * s.geo.cols)).cellAt i j =
      if t + m ≤ i ∧ i < t + m + n then e
      else if t ≤ i ∧ i < t + m then s.cellAt (i + n) j else s.cellAt i j := by
  have hfill := cellAt_mapCells (s := s.scrMemmovew (s.geo.origin + 2 * (t * s.geo.cols))
    (s.geo.origin + 2 * ((t + n) * s.geo.cols)) (m * s.geo.cols)) hw ((t + m) * s.geo.cols)
    (n * s.geo.cols) (fun _ => e) i j
  refine hfill.trans (if_congr (linear_rows hj) rfl ?_)
  rw [cellAt_scrMemmovew hw]
  by_cases hin : t ≤ i ∧ i < t + m
  · have hrow := Nat.mul_le_mul_right s.geo.cols hin.1
    have hplace : (t + n) * s.geo.cols + (i * s.geo.cols + j - t * s.geo.cols) =
        (i + n) * s.geo.cols + j := by
      rw [Nat.add_mul, Nat.add_mul]
      omega
    rw [if_pos ((linear_rows hj).mpr hin), if_pos hin, cellAt_eq hw, hplace]
  · rw [if_neg fun h => hin ((linear_rows hj).mp h), if_neg hin]

theorem cellAt_scrollDown (hw : s.geo.sizeRow = 2 * s.geo.cols) {t n m i j : Nat} (e : Cell)
    (hj : j < s.geo.cols) :
    ((s.scrMemmovew (s.geo.origin + 2 * ((t + n) * s.geo.cols))
      (s.geo.origin + 2 * (t * s.geo.cols)) (m * s.geo.cols)).scrMemsetw
        (s.geo.origin + 2 * (t * s.geo.cols)) e (n * s.geo.cols)).cellAt i j =
      if t ≤ i ∧ i < t + n then e
      else if t + n ≤ i ∧ i < t + n + m then s.cellAt (i - n) j else s.cellAt i j := by
  have hfill := cellAt_mapCells (s := s.scrMemmovew (s.geo.origin + 2 * ((t + n) * s.geo.cols))
    (s.geo.origin + 2 * (t * s.geo.cols)) (m * s.geo.cols)) hw (t * s.geo.cols)
    (n * s.geo.cols) (fun _ => e) i j
  refine hfill.trans (if_congr (linear_rows hj) rfl ?_)
  rw [cellAt_scrMemmovew hw]
  by_cases hin : t + n ≤ i ∧ i < t + n + m
  · obtain ⟨q, rfl⟩ : ∃ q, i = q + n := ⟨i - n, by omega⟩
    have hrow := Nat.mul_le_mul_right s.geo.cols (show t ≤ q by omega)
    have hplace : t * s.geo.cols + ((q + n) * s.geo.cols + j - (t + n) * s.geo.cols) =
        (q + n - n) * s.geo.cols + j := by
      rw [Nat.add_mul, Nat.add_mul, Nat.add_sub_cancel]
      omega
    rw [if_pos ((linear_rows hj).mpr hin), if_pos hin, cellAt_eq hw, hplace]
  · rw [if_neg fun h => hin ((linear_rows hj).mp h), if_neg hin]

theorem scroll_sizes (hw : s.geo.sizeRow = 2 * s.geo.cols) (t n m : Nat) :
    (t + n + m - t - n) * s.geo.sizeRow / 2 = m * s.geo.cols ∧
      s.geo.sizeRow * n / 2 = n * s.geo.cols ∧
      s.geo.origin + s.geo.sizeRow * t = s.geo.origin + 2 * (t * s.geo.cols) := by
  have hm : t + n + m - t - n = m := by omega
  have hcells : m * (2 * s.geo.cols) = 2 * (m * s.geo.cols) := by ring
  have hfill : 2 * s.geo.cols * n = 2 * (n * s.geo.cols) := by ring
  have hline : 2 * s.geo.cols * t = 2 * (t * s.geo.cols) := by ring
  rw [hm, hw, hcells, hfill, hline]
  omega

/-- The lines scrolled: at most all but one of the region. -/
theorem scrollCount_eq {t b : Nat} {nr : Int} (htb : t < b) (hb : b < 2 ^ 31) (h0 : 0 ≤ nr)
    (h2 : t + nr < 2 ^ 32) : scrollCount t b nr = (min nr.toNat (b - t - 1) : Nat) := by
  have hu := u32_of_lt (n := t + nr) (by omega) h2
  rw [scrollCount]
  split
  · rw [s32_of_lt (by omega) (by omega)]
    omega
  · omega

theorem scrollCount_rows {t n m : Nat} {nr : Int} (hb : t + n + m < 2 ^ 31) (hm : 0 < m)
    (hn : 0 < n) (h0 : 0 ≤ nr) (h2 : t + nr < 2 ^ 32) (hcount : min nr.toNat (n + m - 1) = n) :
    scrollCount t (t + n + m) nr = n := by
  have hmin : min nr.toNat (t + n + m - t - 1) = n := by
    rw [← hcount]
    congr 1
    omega
  rw [scrollCount_eq (by omega) hb h0 h2, hmin]

/-- A region of one row, or none, is not scrolled. -/
theorem scrollRegionUp_none {t b : Nat} {nr : Int} (h : b ≤ t ∨ s.geo.rows < b) :
    scrollRegionUp d s t b nr = s := if_pos (by omega)

theorem scrollRegionDown_none {t b : Nat} {nr : Int} (h : b ≤ t ∨ s.geo.rows < b) :
    scrollRegionDown d s t b nr = s := if_pos (by omega)

/-- **The software path of a scroll up**, by rows. -/
theorem scrollRegionUp_eq (hd : Inert d) (h : Placed s) {t n m : Nat} {nr : Int} (h0 : 0 ≤ nr)
    (h2 : t + nr < 2 ^ 32) (hb : t + n + m ≤ s.geo.rows) (hm : 0 < m) (hn : 0 < n)
    (hcount : min nr.toNat (n + m - 1) = n) : scrollRegionUp d s t (t + n + m) nr =
      (Con.scrMemmovew { s with draws := s.draws ++ s.scrollCall t (t + n + m) .up n }
        (s.geo.origin + 2 * (t * s.geo.cols)) (s.geo.origin + 2 * ((t + n) * s.geo.cols))
        (m * s.geo.cols)).scrMemsetw (s.geo.origin + 2 * ((t + m) * s.geo.cols))
          s.rend.videoEraseChar (n * s.geo.cols) := by
  have hw := h.bounds.sizeRow
  have hrows := h.bounds.rows_lt
  have hnr := scrollCount_rows (by omega) hm hn h0 h2 hcount
  rw [scrollRegionUp, hnr, if_neg (by omega)]
  obtain ⟨hsize, hfill, hdst⟩ := scroll_sizes hw t n m
  have hsrc := (scroll_sizes hw (t + n) n m).2.2
  have hrest : t + n + m - t - n = m := by omega
  have hend : s.geo.origin + 2 * (t * s.geo.cols) + 2 * (m * s.geo.cols) =
      s.geo.origin + 2 * ((t + m) * s.geo.cols) := by ring
  simp only [Int.toNat_natCast, hd _ _ _ _ _, ite_self]
  show (Con.scrMemmovew _ (s.geo.origin + s.geo.sizeRow * t)
    (s.geo.origin + s.geo.sizeRow * (t + n)) ((t + n + m - t - n) * s.geo.sizeRow / 2)).scrMemsetw
      (s.geo.origin + s.geo.sizeRow * t + 2 * ((t + n + m - t - n) * s.geo.cols))
      s.rend.videoEraseChar (s.geo.sizeRow * n / 2) = _
  rw [hsize, hrest, hdst, hsrc, hend, hfill]

theorem scrollRegionDown_eq (hd : Inert d) (h : Placed s) {t n m : Nat} {nr : Int} (h0 : 0 ≤ nr)
    (h2 : t + nr < 2 ^ 32) (hb : t + n + m ≤ s.geo.rows) (hm : 0 < m) (hn : 0 < n)
    (hcount : min nr.toNat (n + m - 1) = n) : scrollRegionDown d s t (t + n + m) nr =
      (Con.scrMemmovew { s with draws := s.draws ++ s.scrollCall t (t + n + m) .down n }
        (s.geo.origin + 2 * ((t + n) * s.geo.cols)) (s.geo.origin + 2 * (t * s.geo.cols))
        (m * s.geo.cols)).scrMemsetw (s.geo.origin + 2 * (t * s.geo.cols))
          s.rend.videoEraseChar (n * s.geo.cols) := by
  have hw := h.bounds.sizeRow
  have hrows := h.bounds.rows_lt
  have hnr := scrollCount_rows (by omega) hm hn h0 h2 hcount
  rw [scrollRegionDown, hnr, if_neg (by omega)]
  obtain ⟨hsize, -, hsrc⟩ := scroll_sizes hw t n m
  have hdst : s.geo.origin + 2 * (t * s.geo.cols) + 2 * (s.geo.cols * n) =
      s.geo.origin + 2 * ((t + n) * s.geo.cols) := by ring
  have hfill : s.geo.cols * n = n * s.geo.cols := Nat.mul_comm _ _
  simp only [Int.toNat_natCast, hd _ _ _ _ _, ite_self]
  show (Con.scrMemmovew _ (s.geo.origin + s.geo.sizeRow * t + 2 * (s.geo.cols * n))
    (s.geo.origin + s.geo.sizeRow * t) ((t + n + m - t - n) * s.geo.sizeRow / 2)).scrMemsetw
      (s.geo.origin + s.geo.sizeRow * t) s.rend.videoEraseChar (s.geo.cols * n) = _
  rw [hsize, hsrc, hdst, hfill]

/-- Every scroll moves nothing or some of the rows of its region. -/
theorem scroll_cases {t b : Nat} (nr : Int) (htb : t < b) :
    min nr.toNat (b - t - 1) = 0 ∨
      ∃ n m, b = t + n + m ∧ 0 < n ∧ 0 < m ∧ min nr.toNat (n + m - 1) = n ∧
        min nr.toNat (b - t - 1) = n := by
  by_cases hzero : min nr.toNat (b - t - 1) = 0
  · exact .inl hzero
  · refine .inr ⟨min nr.toNat (b - t - 1), b - t - min nr.toNat (b - t - 1), ?_, ?_, ?_, ?_, rfl⟩
    · omega
    · omega
    · omega
    · congr 1
      omega

theorem scrollRegionUp_zero {t b : Nat} {nr : Int} (htb : t < b) (hb : b < 2 ^ 31) (h0 : 0 ≤ nr)
    (h2 : t + nr < 2 ^ 32) (hzero : min nr.toNat (b - t - 1) = 0) :
    scrollRegionUp d s t b nr = s := by
  have hnr := scrollCount_eq htb hb h0 h2
  rw [hzero] at hnr
  exact if_pos (by omega)

theorem scrollRegionDown_zero {t b : Nat} {nr : Int} (htb : t < b) (hb : b < 2 ^ 31) (h0 : 0 ≤ nr)
    (h2 : t + nr < 2 ^ 32) (hzero : min nr.toNat (b - t - 1) = 0) :
    scrollRegionDown d s t b nr = s := by
  have hnr := scrollCount_eq htb hb h0 h2
  rw [hzero] at hnr
  exact if_pos (by omega)

theorem cellAt_scrollRegionUp (hd : Inert d) (h : Placed s) {t b i j : Nat} {nr : Int}
    (h0 : 0 ≤ nr) (h2 : t + nr < 2 ^ 32) (htb : t < b) (hb : b ≤ s.geo.rows)
    (hj : j < s.geo.cols) : (scrollRegionUp d s t b nr).cellAt i j =
      if t ≤ i ∧ i < b then
        if i + min nr.toNat (b - t - 1) < b then s.cellAt (i + min nr.toNat (b - t - 1)) j
        else s.rend.videoEraseChar
      else s.cellAt i j := by
  have hw := h.bounds.sizeRow
  have hrows := h.bounds.rows_lt
  rcases scroll_cases nr htb with hzero | ⟨n, m, rfl, hn, hm, hcount, hmin⟩
  · rw [scrollRegionUp_zero htb (by omega) h0 h2 hzero, hzero, Nat.add_zero]
    split
    · next hin => rw [if_pos hin.2]
    · rfl
  · rw [hmin, scrollRegionUp_eq hd h h0 h2 hb hm hn hcount]
    have hdrawn := fun draws => @cellAt_scrollUp { s with draws := draws } hw t n m i j
      s.rend.videoEraseChar hj
    refine (hdrawn _).trans ?_
    show (if t + m ≤ i ∧ i < t + m + n then _ else if t ≤ i ∧ i < t + m then s.cellAt (i + n) j
      else s.cellAt i j) = _
    by_cases hleft : t + m ≤ i ∧ i < t + m + n
    · rw [if_pos hleft, if_pos (by omega), if_neg (by omega)]
    by_cases hmoved : t ≤ i ∧ i < t + m
    · rw [if_neg hleft, if_pos hmoved, if_pos (by omega), if_pos (by omega)]
    · rw [if_neg hleft, if_neg hmoved, if_neg (by omega)]

theorem cellAt_scrollRegionDown (hd : Inert d) (h : Placed s) {t b i j : Nat} {nr : Int}
    (h0 : 0 ≤ nr) (h2 : t + nr < 2 ^ 32) (htb : t < b) (hb : b ≤ s.geo.rows)
    (hj : j < s.geo.cols) : (scrollRegionDown d s t b nr).cellAt i j =
      if t ≤ i ∧ i < b then
        if t + min nr.toNat (b - t - 1) ≤ i then s.cellAt (i - min nr.toNat (b - t - 1)) j
        else s.rend.videoEraseChar
      else s.cellAt i j := by
  have hw := h.bounds.sizeRow
  have hrows := h.bounds.rows_lt
  rcases scroll_cases nr htb with hzero | ⟨n, m, rfl, hn, hm, hcount, hmin⟩
  · rw [scrollRegionDown_zero htb (by omega) h0 h2 hzero, hzero, Nat.add_zero, Nat.sub_zero]
    split
    · next hin => rw [if_pos hin.1]
    · rfl
  · rw [hmin, scrollRegionDown_eq hd h h0 h2 hb hm hn hcount]
    have hdrawn := fun draws => @cellAt_scrollDown { s with draws := draws } hw t n m i j
      s.rend.videoEraseChar hj
    refine (hdrawn _).trans ?_
    show (if t ≤ i ∧ i < t + n then _ else if t + n ≤ i ∧ i < t + n + m then s.cellAt (i - n) j
      else s.cellAt i j) = _
    by_cases hleft : t ≤ i ∧ i < t + n
    · rw [if_pos hleft, if_pos (by omega), if_neg (by omega)]
    by_cases hmoved : t + n ≤ i ∧ i < t + n + m
    · rw [if_neg hleft, if_pos hmoved, if_pos (by omega), if_pos (by omega)]
    · rw [if_neg hleft, if_neg hmoved, if_neg (by omega)]

end LinuxConsole

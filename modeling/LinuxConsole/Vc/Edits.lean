import LinuxConsole.Vc.Grid

/-!
# Editing the screen

What the editing functions of a terminal are for, as operations on a grid of cells, and what the
code makes of the screen.  `Edits s s' g` says that a function changes the screen into the grid `g`
and writes no other memory.

Erasure and the characters of a row: **every function edits the screen as its grid operation does**,
`edit_functions`, but ED and EL with a parameter that names nothing.

Lines: a scroll leaves one row of its region behind where it should leave none, and IL and DL do not
look at the top margin.  `line_editing_iff` says **exactly when the lines are those of the grid
operation**.
-/

namespace LinuxConsole

variable {d : Driver} {s s' : Con}

/-- **The function changes the screen into `g`** and writes no other memory. -/
structure Edits (s s' : Con) (g : Grid) : Prop where
  geo : s'.geo = s.geo
  screen : ∀ i j, i < s.geo.rows → j < s.geo.cols → s'.cellAt i j = g i j
  outside : ∀ a, ¬s.Owns a → s'.mem a = s.mem a

/-- It also leaves the cursor where it is, with no wrap pending. -/
structure EditsAtCursor (s s' : Con) (g : Grid) : Prop extends Edits s s' g where
  cursor : s'.cur = { s.cur with needWrap := false }

theorem Edits.refl (s : Con) : Edits s s s.cellAt := ⟨rfl, fun _ _ _ _ => rfl, fun _ _ => rfl⟩

theorem Edits.congr {g g' : Grid} (h : Edits s s' g)
    (heq : ∀ i j, i < s.geo.rows → j < s.geo.cols → g i j = g' i j) : Edits s s' g' :=
  ⟨h.geo, fun i j hi hj => (h.screen i j hi hj).trans (heq i j hi hj), h.outside⟩

/-- Two grids a function changes the screen into are the same screen. -/
theorem Edits.unique {g g' : Grid} (h : Edits s s' g) (h' : Edits s s' g') {i j : Nat}
    (hi : i < s.geo.rows) (hj : j < s.geo.cols) : g i j = g' i j :=
  (h.screen i j hi hj).symm.trans (h'.screen i j hi hj)

/-! ### Erasure and characters, on the grid -/

/-- ERASE IN PAGE: from the cursor on, up to the cursor, or everything. -/
def edGrid (s : Con) (p : Nat) : Grid := fun i j =>
  match p with
  | 0 => if s.cur.y < i ∨ (i = s.cur.y ∧ s.cur.x ≤ j) then s.rend.videoEraseChar else s.cellAt i j
  | 1 => if i < s.cur.y ∨ (i = s.cur.y ∧ j ≤ s.cur.x) then s.rend.videoEraseChar else s.cellAt i j
  | 2 => s.rend.videoEraseChar
  | _ => s.cellAt i j

/-- ERASE IN LINE: the same in the row of the cursor. -/
def elGrid (s : Con) (p : Nat) : Grid := fun i j =>
  match p with
  | 0 => if i = s.cur.y ∧ s.cur.x ≤ j then s.rend.videoEraseChar else s.cellAt i j
  | 1 => if i = s.cur.y ∧ j ≤ s.cur.x then s.rend.videoEraseChar else s.cellAt i j
  | 2 => if i = s.cur.y then s.rend.videoEraseChar else s.cellAt i j
  | _ => s.cellAt i j

/-- The count of ECH, ICH and DCH: at least one, at most up to the end of the row. -/
def editCount (s : Con) (p : Nat) : Nat := min (max p 1) (s.geo.cols - s.cur.x)

/-- ERASE CHARACTER. -/
def echGrid (s : Con) (p : Nat) : Grid := fun i j =>
  if i = s.cur.y ∧ s.cur.x ≤ j ∧ j < s.cur.x + editCount s p then s.rend.videoEraseChar
  else s.cellAt i j

/-- INSERT CHARACTER: the rest of the row moves right. -/
def ichGrid (s : Con) (p : Nat) : Grid := fun i j =>
  if i = s.cur.y ∧ s.cur.x ≤ j then
    if j < s.cur.x + editCount s p then s.rend.videoEraseChar else s.cellAt i (j - editCount s p)
  else s.cellAt i j

/-- DELETE CHARACTER: the rest of the row moves left. -/
def dchGrid (s : Con) (p : Nat) : Grid := fun i j =>
  if i = s.cur.y ∧ s.cur.x ≤ j then
    if j + editCount s p < s.geo.cols then s.cellAt i (j + editCount s p)
    else s.rend.videoEraseChar
  else s.cellAt i j

/-- The five functions do what their grids say, whatever the parameter. -/
def EditsAsGrids (s : Con) : Prop := ∀ p,
  EditsAtCursor s (vteEd s p) (edGrid s p) ∧ EditsAtCursor s (vteEl s p) (elGrid s p) ∧
  EditsAtCursor s (vteEch s p) (echGrid s p) ∧ EditsAtCursor s (vteIch s p) (ichGrid s p) ∧
  EditsAtCursor s (vteDch s p) (dchGrid s p)

/-! ### Erasure and characters, as the code has them -/

theorem edits_fill (h : Placed s) {a k n : Nat} {g : Grid} (ha : a = s.geo.origin + 2 * k)
    (hn : k + n ≤ s.geo.rows * s.geo.cols) (hgeo : s'.geo = s.geo)
    (hcur : s'.cur = { s.cur with needWrap := false })
    (hmem : s'.mem = (s.scrMemsetw a s.rend.videoEraseChar n).mem)
    (hg : ∀ i j, i < s.geo.rows → j < s.geo.cols → g i j =
      if k ≤ i * s.geo.cols + j ∧ i * s.geo.cols + j < k + n then s.rend.videoEraseChar
      else s.cellAt i j) : EditsAtCursor s s' g := by
  have hend := h.scrEnd
  refine ⟨⟨hgeo, fun i j hi hj => ?_, fun b hb => ?_⟩, hcur⟩
  · have hcell : s'.cellAt i j = (s.scrMemsetw a s.rend.videoEraseChar n).cellAt i j := by
      rw [Con.cellAt, Con.cellAt, hgeo, hmem]
      rfl
    rw [hcell, ha, Con.scrMemsetw, cellAt_mapCells h.bounds.sizeRow]
    exact (hg i j hi hj).symm
  · rw [Con.Owns, hend] at hb
    rw [hmem, Con.scrMemsetw, mem_mapCells, if_neg]
    intro hin
    exact hb ⟨by omega, by omega⟩

theorem clearRegion_eq (s : Con) (sx sy width height : Nat) :
    ∃ ds, clearRegion s sx sy width height = s.draw ds := by
  rw [clearRegion]
  split
  · exact ⟨_, rfl⟩
  · exact ⟨[], by rw [Con.draw, List.append_nil]⟩

theorem edits_vteEl (h : Placed s) {p : Nat} (hp : p ≤ 2) :
    EditsAtCursor s (vteEl s p) (elGrid s p) := by
  have hx := h.bounds.x_lt
  have hrow := row_fits s.geo.cols h.bounds.y_lt
  have herase (sx width : Nat) := clearRegion_eq s sx s.cur.y width 1
  rw [vteEl.eq_def]
  split
  · obtain ⟨ds, heq⟩ := herase s.cur.x (s.geo.cols - s.cur.x)
    rw [heq]
    refine edits_fill (n := s.geo.cols - s.cur.x) h h.pos (by omega) rfl rfl rfl fun i j hi hj => ?_
    refine if_congr ?_ rfl rfl
    rw [linear_row hj (by omega)]
    exact and_congr_right fun _ => by omega
  · obtain ⟨ds, heq⟩ := herase 0 (s.cur.x + 1)
    rw [heq]
    refine edits_fill (n := s.cur.x + 1) h h.row (by omega) rfl rfl rfl fun i j hi hj => ?_
    refine if_congr ?_ rfl rfl
    rw [← Nat.add_zero (s.cur.y * s.geo.cols), linear_row hj (by omega)]
    omega
  · obtain ⟨ds, heq⟩ := herase 0 s.geo.cols
    rw [heq]
    refine edits_fill (n := s.geo.cols) h h.row (by omega) rfl rfl rfl fun i j hi hj => ?_
    refine if_congr ?_ rfl rfl
    rw [← Nat.add_zero (s.cur.y * s.geo.cols), linear_row hj (by omega)]
    omega
  · next h0 h1 h2 =>
    simp only [imp_false] at h0 h1 h2
    omega

theorem edits_vteEd (h : Placed s) {p : Nat} (hp : p ≤ 2) :
    EditsAtCursor s (vteEd s p) (edGrid s p) := by
  have hx := h.bounds.x_lt
  have hpage := linear_lt_page h.bounds.y_lt hx
  have horigin : s.geo.origin = s.geo.origin + 2 * 0 := rfl
  rw [vteEd.eq_def]
  split
  · have hcount : (s.geo.scrEnd - s.cur.pos) / 2 =
        s.geo.rows * s.geo.cols - (s.cur.y * s.geo.cols + s.cur.x) := by
      rw [h.scrEnd, h.pos]
      omega
    obtain ⟨ds, heq⟩ := clearRegion_eq s s.cur.x s.cur.y (s.geo.cols - s.cur.x) 1
    rw [heq, hcount]
    dsimp only
    obtain ⟨ds', heq'⟩ := clearRegion_eq (s.draw ds) 0 ((s.draw ds).cur.y + 1)
      (s.draw ds).geo.cols ((s.draw ds).geo.rows - (s.draw ds).cur.y - 1)
    rw [heq']
    refine edits_fill (n := s.geo.rows * s.geo.cols - (s.cur.y * s.geo.cols + s.cur.x)) h h.pos
      (by omega) rfl rfl rfl fun i j hi hj => ?_
    refine if_congr ?_ rfl rfl
    have hin := linear_lt_page hi hj
    rw [linear_le hj (Nat.le_of_lt hx)]
    omega
  · have hcount : (s.cur.pos - s.geo.origin) / 2 + 1 =
        s.cur.y * s.geo.cols + (s.cur.x + 1) := by
      rw [h.pos]
      omega
    obtain ⟨ds, heq⟩ := clearRegion_eq s 0 0 s.geo.cols s.cur.y
    rw [heq, hcount]
    dsimp only
    obtain ⟨ds', heq'⟩ := clearRegion_eq (s.draw ds) 0 (s.draw ds).cur.y ((s.draw ds).cur.x + 1) 1
    rw [heq']
    refine edits_fill (n := s.cur.y * s.geo.cols + (s.cur.x + 1)) h horigin (by omega) rfl rfl rfl
      fun i j hi hj => ?_
    refine if_congr ?_ rfl rfl
    rw [Nat.zero_add (s.cur.y * s.geo.cols + _), linear_lt hj hx]
    omega
  · obtain ⟨ds, heq⟩ := clearRegion_eq s 0 0 s.geo.cols s.geo.rows
    rw [heq]
    refine edits_fill (n := s.geo.cols * s.geo.rows) h horigin ?_ rfl rfl rfl fun i j hi hj => ?_
    · rw [Nat.mul_comm]
      omega
    · have hin := linear_lt_page hi hj
      rw [Nat.mul_comm s.geo.cols s.geo.rows, if_pos (by omega)]
      rfl
  · next h0 h1 h2 =>
    simp only [imp_false] at h0 h1 h2
    omega

theorem vteEd_other {p : Nat} (hp : 2 < p) : vteEd s p = s := by
  rw [vteEd.eq_def]
  split
  · omega
  · omega
  · omega
  · rfl

theorem vteEl_other {p : Nat} (hp : 2 < p) : vteEl s p = s := by
  rw [vteEl.eq_def]
  split
  · omega
  · omega
  · omega
  · rfl

theorem edits_vteEch (h : Placed s) (p : Nat) : EditsAtCursor s (vteEch s p) (echGrid s p) := by
  have hx := h.bounds.x_lt
  have hrow := row_fits s.geo.cols h.bounds.y_lt
  have hcount : (if (if p = 0 then 1 else p) > s.geo.cols - s.cur.x then s.geo.cols - s.cur.x
      else if p = 0 then 1 else p) = editCount s p := by
    rw [editCount]
    by_cases hp : p = 0
    · rw [if_pos hp]
      split
      · omega
      · omega
    · rw [if_neg hp]
      split
      · omega
      · omega
  have hle : editCount s p ≤ s.geo.cols - s.cur.x := Nat.min_le_right _ _
  rw [vteEch]
  dsimp only
  rw [hcount]
  obtain ⟨ds, heq⟩ := clearRegion_eq (s.scrMemsetw s.cur.pos s.rend.videoEraseChar (editCount s p))
    s.cur.x s.cur.y (editCount s p) 1
  refine edits_fill (n := editCount s p) h h.pos (by omega) ?_ ?_ ?_ fun i j hi hj => ?_
  · show (clearRegion _ s.cur.x s.cur.y _ _).geo = _
    rw [heq]
    rfl
  · show { (clearRegion _ s.cur.x s.cur.y _ _).cur with needWrap := false } = _
    rw [heq]
    rfl
  · show (clearRegion _ s.cur.x s.cur.y _ _).mem = _
    rw [heq]
    rfl
  · exact if_congr (linear_row hj (by omega)).symm rfl rfl

theorem charCount_eq (h : Placed s) (p : Nat) : charCount s p = editCount s p := by
  have hx := h.bounds.x_lt
  rw [charCount, editCount]
  split
  · omega
  split
  · omega
  · omega

/-- The rest of the row of the cursor lies on the screen. -/
theorem Placed.rest (h : Placed s) : s.geo.origin ≤ s.cur.pos ∧
    s.cur.pos + 2 * (s.geo.cols - s.cur.x) ≤ s.geo.scrEnd := by
  have hx := h.bounds.x_lt
  have hrow := row_fits s.geo.cols h.bounds.y_lt
  rw [h.scrEnd, h.pos]
  omega

theorem edits_vteIch (h : Placed s) (p : Nat) : EditsAtCursor s (vteIch s p) (ichGrid s p) := by
  have hle : editCount s p ≤ s.geo.cols - s.cur.x := Nat.min_le_right _ _
  have hrest := h.rest
  rw [vteIch, charCount_eq h]
  obtain ⟨hgeo, hcur, -⟩ := insertChar_frame s (editCount s p)
  refine ⟨⟨hgeo, fun i j hi hj => cellAt_insertChar h hle hj, fun a ha => ?_⟩, hcur⟩
  rw [mem_insertChar h.bounds.x_lt hle, if_neg]
  rintro ⟨hlow, hhigh, -⟩
  exact ha ⟨by omega, by omega⟩

theorem edits_vteDch (h : Placed s) (p : Nat) : EditsAtCursor s (vteDch s p) (dchGrid s p) := by
  have hle : editCount s p ≤ s.geo.cols - s.cur.x := Nat.min_le_right _ _
  have hrest := h.rest
  rw [vteDch, charCount_eq h]
  obtain ⟨hgeo, hcur, -⟩ := deleteChar_frame s (editCount s p)
  refine ⟨⟨hgeo, fun i j hi hj => cellAt_deleteChar h hle hj, fun a ha => ?_⟩, hcur⟩
  rw [mem_deleteChar h.bounds.x_lt hle, if_neg]
  rintro ⟨hlow, hhigh, -⟩
  exact ha ⟨by omega, by omega⟩

/-- What the editing functions do with a parameter. -/
structure EditFunctions (s : Con) (p : Nat) : Prop where
  ed : p ≤ 2 → EditsAtCursor s (vteEd s p) (edGrid s p)
  el : p ≤ 2 → EditsAtCursor s (vteEl s p) (elGrid s p)
  unknown : 2 < p → vteEd s p = s ∧ vteEl s p = s
  ech : EditsAtCursor s (vteEch s p) (echGrid s p)
  ich : EditsAtCursor s (vteIch s p) (ichGrid s p)
  dch : EditsAtCursor s (vteDch s p) (dchGrid s p)

/-- **Erasure and characters.**  Every function edits the screen as its grid does, but ED and EL with
a parameter that names nothing, which do nothing at all. -/
theorem edit_functions (h : Placed s) (p : Nat) : EditFunctions s p where
  ed hp := edits_vteEd h hp
  el hp := edits_vteEl h hp
  unknown hp := ⟨vteEd_other hp, vteEl_other hp⟩
  ech := edits_vteEch h p
  ich := edits_vteIch h p
  dch := edits_vteDch h p

/-- A console with a letter in its last column, written behind CSI 80 C. -/
def wrapCon : Con := doConWrite dummyCon bootCon [0x1b, 0x5b, 0x38, 0x30, 0x43, 0x41]

theorem edit_functions_wrap : EditFunctions wrapCon 3 :=
  edit_functions ((sound_boot.doConWrite _).placed inert_dummy) 3

/-- ED with an unknown parameter keeps the pending wrap. -/
theorem ed_unknown_keeps_wrap : ¬EditsAsGrids wrapCon := by
  intro h
  have hwrap := congrArg Cursor.needWrap (h 3).1.cursor
  revert hwrap
  decide +kernel

/-! ### Lines, on the grid -/

/-- The row is blank. -/
def Con.BlankRow (s : Con) (i : Nat) : Prop :=
  ∀ j, j < s.geo.cols → s.cellAt i j = s.rend.videoEraseChar

/-- A scroll of the region `[t, b)`: all rows move, by at most the size of the region. -/
def scrollGrid (s : Con) (t b : Nat) (dir : ScrollDir) (nr : Nat) : Grid :=
  Grid.scrollRegion s.cellAt t b dir (min nr (b - t)) s.rend.videoEraseChar

/-- IL and DL: a scroll from the row of the cursor on, inside the margins only. -/
def lineGrid (s : Con) (dir : ScrollDir) (p : Nat) : Grid :=
  if s.mar.top ≤ s.cur.y ∧ s.cur.y < s.mar.bottom then
    scrollGrid s s.cur.y s.mar.bottom dir (max p 1)
  else s.cellAt

/-! ### Lines, as the code has them -/

theorem Placed.rows (h : Placed s) {t k a : Nat} (htk : t + k ≤ s.geo.rows)
    (ha : s.geo.origin + 2 * (t * s.geo.cols) ≤ a ∧
      a < s.geo.origin + 2 * (t * s.geo.cols) + 2 * (k * s.geo.cols)) : s.Owns a := by
  have hrows := Nat.mul_le_mul_right s.geo.cols htk
  rw [Nat.add_mul] at hrows
  rw [Con.Owns, h.scrEnd]
  omega

theorem geo_scrMemsetw (s : Con) (a : Nat) (c : Cell) (n : Nat) :
    (s.scrMemsetw a c n).geo = s.geo := rfl

theorem geo_scrMemmovew (s : Con) (t a n : Nat) : (s.scrMemmovew t a n).geo = s.geo := rfl

/-- **What the scrolls do**: all rows but one of the region may go. -/
theorem edits_scrollRegionUp (hd : Inert d) (h : Placed s) {t b nr : Nat} (h2 : t + nr < 2 ^ 32)
    (htb : t < b) (hb : b ≤ s.geo.rows) : Edits s (scrollRegionUp d s t b nr)
      (Grid.scrollRegion s.cellAt t b .up (min nr (b - t - 1)) s.rend.videoEraseChar) := by
  have hrows := h.bounds.rows_lt
  have h0 : (0 : Int) ≤ nr := Int.natCast_nonneg nr
  have h2' : (t + nr : Int) < 2 ^ 32 := by omega
  have hcells (i j : Nat) (hj : j < s.geo.cols) :=
    cellAt_scrollRegionUp (i := i) hd h h0 h2' htb hb hj
  rw [Int.toNat_natCast] at hcells
  rcases scroll_cases nr htb with hzero | ⟨n, m, rfl, hn, hm, hcount, -⟩
  · rw [scrollRegionUp_zero htb (by omega) h0 h2' hzero] at hcells ⊢
    exact ⟨rfl, fun i j _ hj => hcells i j hj, fun _ _ => rfl⟩
  · rw [scrollRegionUp_eq hd h h0 h2' hb hm hn hcount] at hcells ⊢
    refine ⟨by rw [geo_scrMemsetw, geo_scrMemmovew], fun i j _ hj => hcells i j hj, fun a ha => ?_⟩
    rw [Con.scrMemsetw, mem_mapCells, if_neg, mem_scrMemmovew, if_neg]
    · exact fun hin => ha (h.rows (t := t) (k := m) (by omega) ⟨hin.1, hin.2.1⟩)
    · exact fun hin => ha (h.rows (t := t + m) (k := n) (by omega) ⟨hin.1, hin.2.1⟩)

theorem edits_scrollRegionDown (hd : Inert d) (h : Placed s) {t b nr : Nat} (h2 : t + nr < 2 ^ 32)
    (htb : t < b) (hb : b ≤ s.geo.rows) : Edits s (scrollRegionDown d s t b nr)
      (Grid.scrollRegion s.cellAt t b .down (min nr (b - t - 1)) s.rend.videoEraseChar) := by
  have hrows := h.bounds.rows_lt
  have h0 : (0 : Int) ≤ nr := Int.natCast_nonneg nr
  have h2' : (t + nr : Int) < 2 ^ 32 := by omega
  have hcells (i j : Nat) (hj : j < s.geo.cols) :=
    cellAt_scrollRegionDown (i := i) hd h h0 h2' htb hb hj
  rw [Int.toNat_natCast] at hcells
  rcases scroll_cases nr htb with hzero | ⟨n, m, rfl, hn, hm, hcount, -⟩
  · rw [scrollRegionDown_zero htb (by omega) h0 h2' hzero] at hcells ⊢
    exact ⟨rfl, fun i j _ hj => hcells i j hj, fun _ _ => rfl⟩
  · rw [scrollRegionDown_eq hd h h0 h2' hb hm hn hcount] at hcells ⊢
    refine ⟨by rw [geo_scrMemsetw, geo_scrMemmovew], fun i j _ hj => hcells i j hj, fun a ha => ?_⟩
    rw [Con.scrMemsetw, mem_mapCells, if_neg, mem_scrMemmovew, if_neg]
    · exact fun hin => ha (h.rows (t := t + n) (k := m) (by omega) ⟨hin.1, hin.2.1⟩)
    · exact fun hin => ha (h.rows (t := t) (k := n) (by omega) ⟨hin.1, hin.2.1⟩)

/-- **When a scroll up is right**: it leaves a row, or the row that stays behind is blank. -/
theorem scrollUp_iff (hd : Inert d) (h : Placed s) {t b nr : Nat} (h2 : t + nr < 2 ^ 32)
    (htb : t < b) (hb : b ≤ s.geo.rows) :
    Edits s (scrollRegionUp d s t b nr) (scrollGrid s t b .up nr) ↔
      nr < b - t ∨ s.BlankRow (b - 1) := by
  have hcode := edits_scrollRegionUp hd h h2 htb hb
  constructor
  · intro hspec
    by_cases hle : nr < b - t
    · exact .inl hle
    · refine .inr fun j hj => ?_
      have hrow := hcode.unique hspec (i := t) (by omega) hj
      have hlast : t + min nr (b - t - 1) = b - 1 := by omega
      rw [scrollGrid, Grid.scrollRegion, Grid.scrollRegion, if_pos (by omega), if_pos (by omega)]
        at hrow
      rw [hlast, if_pos (by omega), if_neg (by omega)] at hrow
      exact hrow
  · intro hblank
    refine hcode.congr fun i j hi hj => ?_
    rw [scrollGrid, Grid.scrollRegion, Grid.scrollRegion]
    refine ite_congr rfl (fun hin => ?_) fun _ => rfl
    by_cases hle : nr < b - t
    · have hcount : min nr (b - t - 1) = min nr (b - t) := by omega
      rw [hcount]
    · rw [if_neg (c := i + min nr (b - t) < b) (by omega)]
      split
      · have hlast : i + min nr (b - t - 1) = b - 1 := by omega
        rw [hlast]
        exact hblank.resolve_left hle j hj
      · rfl

theorem scrollDown_iff (hd : Inert d) (h : Placed s) {t b nr : Nat} (h2 : t + nr < 2 ^ 32)
    (htb : t < b) (hb : b ≤ s.geo.rows) :
    Edits s (scrollRegionDown d s t b nr) (scrollGrid s t b .down nr) ↔
      nr < b - t ∨ s.BlankRow t := by
  have hcode := edits_scrollRegionDown hd h h2 htb hb
  constructor
  · intro hspec
    by_cases hle : nr < b - t
    · exact .inl hle
    · refine .inr fun j hj => ?_
      have hrow := hcode.unique hspec (i := b - 1) (by omega) hj
      have hfirst : b - 1 - min nr (b - t - 1) = t := by omega
      rw [scrollGrid, Grid.scrollRegion, Grid.scrollRegion, if_pos (by omega), if_pos (by omega)]
        at hrow
      rw [hfirst, if_pos (by omega), if_neg (by omega)] at hrow
      exact hrow
  · intro hblank
    refine hcode.congr fun i j hi hj => ?_
    rw [scrollGrid, Grid.scrollRegion, Grid.scrollRegion]
    refine ite_congr rfl (fun hin => ?_) fun _ => rfl
    by_cases hle : nr < b - t
    · have hcount : min nr (b - t - 1) = min nr (b - t) := by omega
      rw [hcount]
    · rw [if_neg (c := t + min nr (b - t) ≤ i) (by omega)]
      split
      · have hfirst : i - min nr (b - t - 1) = t := by omega
        rw [hfirst]
        exact hblank.resolve_left hle j hj
      · rfl

/-- A scroll that moves something changes the screen, unless all of the region is blank. -/
theorem scrollUp_still_iff (hd : Inert d) (h : Placed s) {t b nr : Nat} (h2 : t + nr < 2 ^ 32)
    (htb : t + 1 < b) (hb : b ≤ s.geo.rows) (hnr : 1 ≤ nr) :
    Edits s (scrollRegionUp d s t b nr) s.cellAt ↔ ∀ i, t ≤ i → i < b → s.BlankRow i := by
  have hcode := edits_scrollRegionUp hd h h2 (by omega) hb
  constructor
  · intro hstill
    have hrow (k : Nat) : ∀ i, t ≤ i → i < b → b - i ≤ k → s.BlankRow i := by
      induction k with
      | zero => exact fun i _ hi hk => absurd hk (by omega)
      | succ k ih =>
        intro i hti hib hk j hj
        have hcell := hcode.unique hstill (i := i) (by omega) hj
        rw [Grid.scrollRegion, if_pos ⟨hti, hib⟩] at hcell
        rw [← hcell]
        split
        · exact ih _ (by omega) (by omega) (by omega) j hj
        · rfl
    exact fun i hti hib => hrow (b - i) i hti hib (Nat.le_refl _)
  · intro hblank
    refine hcode.congr fun i j hi hj => ?_
    rw [Grid.scrollRegion]
    split
    · next hin =>
      rw [hblank i hin.1 hin.2 j hj]
      split
      · exact hblank _ (by omega) (by omega) j hj
      · rfl
    · rfl

theorem scrollDown_still_iff (hd : Inert d) (h : Placed s) {t b nr : Nat} (h2 : t + nr < 2 ^ 32)
    (htb : t + 1 < b) (hb : b ≤ s.geo.rows) (hnr : 1 ≤ nr) :
    Edits s (scrollRegionDown d s t b nr) s.cellAt ↔ ∀ i, t ≤ i → i < b → s.BlankRow i := by
  have hcode := edits_scrollRegionDown hd h h2 (by omega) hb
  constructor
  · intro hstill i
    induction i using Nat.strongRecOn with
    | ind i ih =>
      intro hti hib j hj
      have hcell := hcode.unique hstill (i := i) (by omega) hj
      rw [Grid.scrollRegion, if_pos ⟨hti, hib⟩] at hcell
      rw [← hcell]
      split
      · exact ih _ (by omega) (by omega) (by omega) j hj
      · rfl
  · intro hblank
    refine hcode.congr fun i j hi hj => ?_
    rw [Grid.scrollRegion]
    split
    · next hin =>
      rw [hblank i hin.1 hin.2 j hj]
      split
      · exact hblank _ (by omega) (by omega) j hj
      · rfl
    · rfl

theorem lineCount_region (h : Placed s) (p : Nat) {b : Nat} (hyb : s.cur.y < b)
    (hb : b ≤ s.geo.rows) : min (lineCount s p) (b - s.cur.y) = min (max p 1) (b - s.cur.y) ∧
      (lineCount s p < b - s.cur.y ↔ max p 1 < b - s.cur.y) ∧ 1 ≤ lineCount s p ∧
      lineCount s p ≤ s.geo.rows := by
  have hy := h.bounds.y_lt
  rw [lineCount]
  split
  · omega
  split
  · omega
  · omega

theorem edits_needWrap {g : Grid} (w : Bool) :
    Edits s { s' with cur.needWrap := w } g ↔ Edits s s' g :=
  ⟨fun h => ⟨h.geo, h.screen, h.outside⟩, fun h => ⟨h.geo, h.screen, h.outside⟩⟩

/-- When IL and DL are right: inside the margins as a scroll is, with `last` the row that stays
behind, and above them on a blank region only. -/
def LinesRight (s : Con) (p last : Nat) : Prop :=
  (s.mar.top ≤ s.cur.y → s.cur.y < s.mar.bottom →
    max p 1 < s.mar.bottom - s.cur.y ∨ s.BlankRow last) ∧
  (s.cur.y < s.mar.top → ∀ i, s.cur.y ≤ i → i < s.mar.bottom → s.BlankRow i)

theorem insertLine_iff (hd : Inert d) (h : Placed s) (p : Nat) :
    Edits s (vteIl d s p) (lineGrid s .down p) ↔ LinesRight s p s.cur.y := by
  have hrows := h.bounds.rows_lt
  have htop := h.bounds.top_lt
  have hbot := h.bounds.bottom_le
  have hy := h.bounds.y_lt
  rw [vteIl, insertLine, edits_needWrap, lineGrid, LinesRight]
  by_cases hbelow : s.mar.bottom ≤ s.cur.y
  · rw [if_neg (by omega), scrollRegionDown_none (.inl hbelow)]
    exact ⟨fun _ => ⟨fun _ _ => by omega, fun _ => by omega⟩, fun _ => .refl s⟩
  obtain ⟨hmin, hlt, hpos, hle⟩ := lineCount_region h p (b := s.mar.bottom) (by omega) hbot
  by_cases habove : s.cur.y < s.mar.top
  · rw [if_neg (by omega), scrollDown_still_iff hd h (by omega) (by omega) hbot hpos]
    exact ⟨fun hblank => ⟨fun _ _ => by omega, fun _ => hblank⟩, fun hblank => hblank.2 habove⟩
  · have hgrid : scrollGrid s s.cur.y s.mar.bottom .down (max p 1) =
        scrollGrid s s.cur.y s.mar.bottom .down (lineCount s p) := by
      rw [scrollGrid, scrollGrid, hmin]
    rw [if_pos (by omega), hgrid, scrollDown_iff hd h (by omega) (by omega) hbot, hlt]
    exact ⟨fun hblank => ⟨fun _ _ => hblank, fun _ => by omega⟩,
      fun hblank => hblank.1 (by omega) (by omega)⟩

theorem deleteLine_iff (hd : Inert d) (h : Placed s) (p : Nat) :
    Edits s (vteDl d s p) (lineGrid s .up p) ↔ LinesRight s p (s.mar.bottom - 1) := by
  have hrows := h.bounds.rows_lt
  have htop := h.bounds.top_lt
  have hbot := h.bounds.bottom_le
  have hy := h.bounds.y_lt
  rw [vteDl, deleteLine, edits_needWrap, lineGrid, LinesRight]
  by_cases hbelow : s.mar.bottom ≤ s.cur.y
  · rw [if_neg (by omega), scrollRegionUp_none (.inl hbelow)]
    exact ⟨fun _ => ⟨fun _ _ => by omega, fun _ => by omega⟩, fun _ => .refl s⟩
  obtain ⟨hmin, hlt, hpos, hle⟩ := lineCount_region h p (b := s.mar.bottom) (by omega) hbot
  by_cases habove : s.cur.y < s.mar.top
  · rw [if_neg (by omega), scrollUp_still_iff hd h (by omega) (by omega) hbot hpos]
    exact ⟨fun hblank => ⟨fun _ _ => by omega, fun _ => hblank⟩, fun hblank => hblank.2 habove⟩
  · have hgrid : scrollGrid s s.cur.y s.mar.bottom .up (max p 1) =
        scrollGrid s s.cur.y s.mar.bottom .up (lineCount s p) := by
      rw [scrollGrid, scrollGrid, hmin]
    rw [if_pos (by omega), hgrid, scrollUp_iff hd h (by omega) (by omega) hbot, hlt]
    exact ⟨fun hblank => ⟨fun _ _ => hblank, fun _ => by omega⟩,
      fun hblank => hblank.1 (by omega) (by omega)⟩

/-- **Lines.**  Exactly when the scrolls of a region, IL and DL move the lines they are asked to. -/
theorem line_editing_iff (hd : Inert d) (h : Placed s) :
    (∀ t b nr : Nat, t < b → b ≤ s.geo.rows → 1 ≤ nr → nr < 2 ^ 31 →
      (Edits s (scrollRegionUp d s t b nr) (scrollGrid s t b .up nr) ↔
        nr < b - t ∨ s.BlankRow (b - 1)) ∧
      (Edits s (scrollRegionDown d s t b nr) (scrollGrid s t b .down nr) ↔
        nr < b - t ∨ s.BlankRow t)) ∧
    ∀ p, (Edits s (vteIl d s p) (lineGrid s .down p) ↔ LinesRight s p s.cur.y) ∧
      (Edits s (vteDl d s p) (lineGrid s .up p) ↔ LinesRight s p (s.mar.bottom - 1)) := by
  have hrows := h.bounds.rows_lt
  refine ⟨fun t b nr htb hb _ hnr => ⟨?_, ?_⟩, fun p => ⟨?_, ?_⟩⟩
  · exact scrollUp_iff hd h (by omega) htb hb
  · exact scrollDown_iff hd h (by omega) htb hb
  · exact insertLine_iff hd h p
  · exact deleteLine_iff hd h p

/-- The console with a letter in its first cell. -/
def letterCon : Con := doConWrite dummyCon bootCon [0x41, 0x0d]

theorem line_editing_letter : Edits letterCon (scrollRegionUp dummyCon letterCon 0 25 1)
    (scrollGrid letterCon 0 25 .up 1) :=
  (((line_editing_iff inert_dummy ((sound_boot.doConWrite [0x41, 0x0d]).placed inert_dummy)).1
    0 25 1 (by decide) (by decide +kernel) (by decide) (by decide)).1).mpr (.inl (by decide))

/-- A scroll of one row leaves it, where the grid blanks it. -/
theorem one_row_stays : ¬Edits letterCon (scrollRegionUp dummyCon letterCon 0 1 1)
    (scrollGrid letterCon 0 1 .up 1) := by
  intro h
  have hcell := h.screen 0 0 (by decide) (by decide)
  revert hcell
  decide +kernel

end LinuxConsole

import LinuxConsole.Vc.Grid

/-!
# What is displayed

`Redraws s s'` says that the calls of the drawing hooks made on the way from `s` to `s'` keep a grid
of displayed cells in step with the screen, as long as the console is in front and not blanked.
Functions that redraw **compose**, `Redraws.trans`, so one lemma for each function of `vt.c` that
writes to the screen is enough: erasure, insertion and deletion in a row, scrolling, and the whole
screen.  Each compares the screen, cell by cell, with what the calls make of the grid.
-/

namespace LinuxConsole

variable {d : Driver} {N : Nat} {F : List Fault} {s s' s'' : Con}

/-! ### Keeping the grid in step -/

/-- The console is in front, and the display is not blanked. -/
structure Lit (s : Con) : Prop where
  visible : s.vt.visible = true
  awake : s.vt.blanked = false

/-- **The calls made on the way** to `s'` keep the grid in step with the screen. -/
def Redraws (s s' : Con) : Prop := Lit s → s'.geo = s.geo ∧ Lit s' ∧
  ∃ ds, s'.draws = s.draws ++ ds ∧ ∀ g, Shows g s → Shows (g.replay s.geo ds) s'

theorem Redraws.refl (s : Con) : Redraws s s := fun hl =>
  ⟨rfl, hl, [], (List.append_nil _).symm, fun _ hg => hg⟩

theorem Redraws.trans (h : Redraws s s') (h' : Redraws s' s'') : Redraws s s'' := by
  intro hl
  obtain ⟨hgeo, hl', ds, hds, hshow⟩ := h hl
  obtain ⟨hgeo', hl'', ds', hds', hshow'⟩ := h' hl'
  refine ⟨hgeo'.trans hgeo, hl'', ds ++ ds', by rw [hds', hds, List.append_assoc], fun g hg => ?_⟩
  rw [replay_append, ← hgeo]
  rw [← hgeo] at hshow
  exact hshow' _ (hshow g hg)

theorem Redraws.of_lit (h : Lit s → Redraws s s') : Redraws s s' := fun hl => h hl hl

theorem Redraws.ite {p : Prop} [Decidable p] {a b : Con} (ha : p → Redraws s a)
    (hb : ¬p → Redraws s b) : Redraws s (if p then a else b) := by
  split
  case isTrue h => exact ha h
  case isFalse h => exact hb h

theorem Redraws.iterate {f : Con → Con} (hf : ∀ s, Sound d N F s → Redraws s (f s))
    (hs : ∀ s, Sound d N F s → Sound d N F (f s)) (n : Nat) :
    ∀ s, Sound d N F s → Redraws s (f^[n] s) := by
  induction n with
  | zero => exact fun s _ => .refl s
  | succ n ih => exact fun s h => (hf s h).trans (ih (f s) (hs s h))

/-- A step that draws nothing and writes nothing to memory. -/
theorem Redraws.of_eq (hgeo : s'.geo = s.geo) (hv : s'.vt.visible = s.vt.visible)
    (hb : s'.vt.blanked = s.vt.blanked) (hdraws : s'.draws = s.draws) (hmem : s'.mem = s.mem) :
    Redraws s s' := by
  intro hl
  refine ⟨hgeo, ⟨hv.trans hl.visible, hb.trans hl.awake⟩, [], by rw [hdraws, List.append_nil],
    fun g hg y x hy hx => ?_⟩
  rw [hgeo] at hy hx
  have hcell : s'.cellAt y x = s.cellAt y x := by
    rw [Con.cellAt, Con.cellAt, hgeo, hmem]
  rw [hcell]
  exact hg y x hy hx

/-- A step whose calls make of the grid what it makes of the screen. -/
theorem Redraws.of_cells {ds : List Draw} (hgeo : s'.geo = s.geo)
    (hv : s'.vt.visible = s.vt.visible) (hb : s'.vt.blanked = s.vt.blanked)
    (hdraws : s'.draws = s.draws ++ ds)
    (h : ∀ g i j, Shows g s → i < s.geo.rows → j < s.geo.cols →
      g.replay s.geo ds i j = s'.cellAt i j) : Redraws s s' := by
  intro hl
  refine ⟨hgeo, ⟨hv.trans hl.visible, hb.trans hl.awake⟩, ds, hdraws, fun g hg y x hy hx => ?_⟩
  rw [hgeo] at hy hx
  exact h g y x hg hy hx

theorem redraws_draw (s : Con) {c : Draw} (hc : ∀ g, Grid.draw s.geo g c = g) :
    Redraws s (s.draw [c]) :=
  .of_cells rfl rfl rfl rfl fun g i j hg hi hj => by
    rw [show g.replay s.geo [c] = g from hc g]
    exact hg i j hi hj

/-! ### Erasure -/

/-- A call of `con_clear`, and the same cells blanked on the screen. -/
theorem redraws_clear (hw : s.geo.sizeRow = 2 * s.geo.cols) {a k n sy sx height width : Nat}
    (ha : a = s.geo.origin + 2 * k)
    (hregion : ∀ i j, i < s.geo.rows → j < s.geo.cols →
      (((sy ≤ i ∧ i < sy + height) ∧ sx ≤ j ∧ j < sx + width) ↔
        k ≤ i * s.geo.cols + j ∧ i * s.geo.cols + j < k + n))
    (hgeo : s'.geo = s.geo) (hvt : s'.vt = s.vt)
    (hdraws : s'.draws = s.draws ++ [.clear sy sx height width s.rend.videoEraseChar])
    (hmem : s'.mem = (s.scrMemsetw a s.rend.videoEraseChar n).mem) : Redraws s s' := by
  refine .of_cells hgeo (by rw [hvt]) (by rw [hvt]) hdraws fun g i j hg hi hj => ?_
  have hcell : s'.cellAt i j = (s.scrMemsetw a s.rend.videoEraseChar n).cellAt i j := by
    rw [Con.cellAt, Con.cellAt, hgeo, hmem]
    rfl
  rw [hcell, ha, Con.scrMemsetw, cellAt_mapCells hw]
  exact if_congr (hregion i j hi hj) rfl (hg i j hi hj)

theorem clearRegion_lit (hl : Lit s) (sx sy width height : Nat) :
    clearRegion s sx sy width height =
      s.draw [.clear sy sx height width s.rend.videoEraseChar] := if_pos hl.visible

theorem redraws_vteEl (h : Placed s) (vpar : Nat) : Redraws s (vteEl s vpar) := by
  have hw := h.bounds.sizeRow
  have hx := h.bounds.x_lt
  refine .of_lit fun hl => ?_
  rw [vteEl.eq_def]
  split
  · rw [clearRegion_lit hl]
    refine redraws_clear (n := s.geo.cols - s.cur.x) hw h.pos (fun i j hi hj => ?_) rfl rfl rfl rfl
    rw [linear_row hj (by omega)]
    omega
  · rw [clearRegion_lit hl]
    refine redraws_clear (n := s.cur.x + 1) hw h.row (fun i j hi hj => ?_) rfl rfl rfl rfl
    rw [← Nat.add_zero (s.cur.y * s.geo.cols), linear_row hj (by omega)]
    omega
  · rw [clearRegion_lit hl]
    refine redraws_clear (n := s.geo.cols) hw h.row (fun i j hi hj => ?_) rfl rfl rfl rfl
    rw [← Nat.add_zero (s.cur.y * s.geo.cols), linear_row hj (by omega)]
    omega
  · exact .refl s

theorem redraws_vteEch (h : Placed s) (vpar : Nat) : Redraws s (vteEch s vpar) := by
  have hw := h.bounds.sizeRow
  have hx := h.bounds.x_lt
  have hle (v : Nat) : (if v > s.geo.cols - s.cur.x then s.geo.cols - s.cur.x else v) ≤
      s.geo.cols - s.cur.x := by
    split
    · exact Nat.le_refl _
    · omega
  refine .of_lit fun hl => ?_
  rw [vteEch]
  dsimp only
  have hn := hle (if vpar = 0 then 1 else vpar)
  generalize (if (if vpar = 0 then 1 else vpar) > s.geo.cols - s.cur.x then
    s.geo.cols - s.cur.x else if vpar = 0 then 1 else vpar) = n at hn
  have hl' : Lit (s.scrMemsetw s.cur.pos s.rend.videoEraseChar n) := ⟨hl.visible, hl.awake⟩
  rw [clearRegion_lit hl']
  refine redraws_clear (n := n) hw h.pos (fun i j hi hj => ?_) rfl rfl rfl rfl
  show (s.cur.y ≤ i ∧ i < s.cur.y + 1) ∧ s.cur.x ≤ j ∧ j < s.cur.x + n ↔ _
  rw [linear_row hj (by omega)]
  omega

/-- Two calls of `con_clear`, and the cells of both blanked on the screen. -/
theorem redraws_clear_clear (hw : s.geo.sizeRow = 2 * s.geo.cols)
    {a k n sy sx height width ty tx height' width' : Nat} (ha : a = s.geo.origin + 2 * k)
    (hregion : ∀ i j, i < s.geo.rows → j < s.geo.cols →
      (((ty ≤ i ∧ i < ty + height') ∧ tx ≤ j ∧ j < tx + width') ∨
        ((sy ≤ i ∧ i < sy + height) ∧ sx ≤ j ∧ j < sx + width) ↔
        k ≤ i * s.geo.cols + j ∧ i * s.geo.cols + j < k + n))
    (hgeo : s'.geo = s.geo) (hvt : s'.vt = s.vt)
    (hdraws : s'.draws = s.draws ++ [.clear sy sx height width s.rend.videoEraseChar] ++
      [.clear ty tx height' width' s.rend.videoEraseChar])
    (hmem : s'.mem = (s.scrMemsetw a s.rend.videoEraseChar n).mem) : Redraws s s' := by
  refine .of_cells hgeo (by rw [hvt]) (by rw [hvt]) (hdraws.trans (List.append_assoc _ _ _))
    fun g i j hg hi hj => ?_
  have hcell : s'.cellAt i j = (s.scrMemsetw a s.rend.videoEraseChar n).cellAt i j := by
    rw [Con.cellAt, Con.cellAt, hgeo, hmem]
    rfl
  rw [hcell, ha, Con.scrMemsetw, cellAt_mapCells hw]
  show (if _ then _ else if _ then _ else _) = _
  rw [← ite_or]
  exact if_congr (hregion i j hi hj) rfl (hg i j hi hj)

theorem redraws_erasePage (hz : s.geo.Sized) : Redraws s (vteEd s 2) := by
  refine .of_lit fun hl => ?_
  rw [vteEd, clearRegion_lit hl]
  refine redraws_clear (n := s.geo.cols * s.geo.rows) hz.row
    (show s.geo.origin = s.geo.origin + 2 * 0 from rfl) (fun i j hi hj => ?_) rfl rfl rfl rfl
  have hin := linear_lt_page hi hj
  rw [Nat.mul_comm s.geo.cols s.geo.rows]
  omega

theorem redraws_vteEd (h : Placed s) (vpar : Nat) : Redraws s (vteEd s vpar) := by
  have hw := h.bounds.sizeRow
  have hx := h.bounds.x_lt
  have hy := h.bounds.y_lt
  have hcursor := linear_lt_page hy hx
  have horigin : s.geo.origin = s.geo.origin + 2 * 0 := rfl
  refine .of_lit fun hl => ?_
  have hl' (sx sy width height : Nat) : Lit (s.draw
      [.clear sy sx height width s.rend.videoEraseChar]) := ⟨hl.visible, hl.awake⟩
  rw [vteEd.eq_def]
  split
  · have hcount : (s.geo.scrEnd - s.cur.pos) / 2 =
        s.geo.rows * s.geo.cols - (s.cur.y * s.geo.cols + s.cur.x) := by
      rw [h.scrEnd, h.pos]
      omega
    rw [clearRegion_lit hl]
    dsimp only
    rw [hcount, clearRegion_lit (hl' _ _ _ _)]
    refine redraws_clear_clear (n := s.geo.rows * s.geo.cols - (s.cur.y * s.geo.cols + s.cur.x))
      hw h.pos (fun i j hi hj => ?_) rfl rfl rfl rfl
    have hrange : s.cur.y * s.geo.cols + s.cur.x + (s.geo.rows * s.geo.cols -
        (s.cur.y * s.geo.cols + s.cur.x)) = s.geo.rows * s.geo.cols := by
      omega
    have hin := linear_lt_page hi hj
    rw [hrange, linear_le hj (Nat.le_of_lt hx)]
    show ((s.cur.y + 1 ≤ i ∧ i < s.cur.y + 1 + (s.geo.rows - s.cur.y - 1)) ∧ 0 ≤ j ∧
      j < 0 + s.geo.cols) ∨ _ ↔ _
    omega
  · have hcount : (s.cur.pos - s.geo.origin) / 2 + 1 =
        s.cur.y * s.geo.cols + (s.cur.x + 1) := by
      rw [h.pos]
      omega
    rw [clearRegion_lit hl]
    dsimp only
    rw [hcount, clearRegion_lit (hl' _ _ _ _)]
    refine redraws_clear_clear (n := s.cur.y * s.geo.cols + (s.cur.x + 1)) hw horigin
      (fun i j hi hj => ?_) rfl rfl rfl rfl
    rw [Nat.zero_add (s.cur.y * s.geo.cols + _), linear_lt hj hx]
    show ((s.cur.y ≤ i ∧ i < s.cur.y + 1) ∧ 0 ≤ j ∧ j < 0 + (s.cur.x + 1)) ∨ _ ↔ _
    omega
  · exact redraws_erasePage h.sized
  · exact .refl s

/-! ### Insertion and deletion -/

/-- The calls of `con_putc` that blank the cells of a row. -/
theorem replay_putc (geo : Geom) (e : Cell) (y : Nat) (f : Nat → Nat) (is : List Nat) :
    ∀ (g : Grid) (i j : Nat), g.replay geo (is.map fun n => .putc e y (f n)) i j =
      if i = y ∧ ∃ n ∈ is, f n = j then e else g i j := by
  induction is with
  | nil =>
    intro g i j
    rw [if_neg (by simp)]
    rfl
  | cons n is ih =>
    intro g i j
    have hcons : g.replay geo ((n :: is).map fun n => .putc e y (f n)) =
        (g.putcs [e] y (f n)).replay geo (is.map fun n => .putc e y (f n)) := rfl
    rw [hcons, ih]
    by_cases hlater : i = y ∧ ∃ m ∈ is, f m = j
    · obtain ⟨hi, m, hm, hj⟩ := hlater
      rw [if_pos ⟨hi, m, hm, hj⟩, if_pos ⟨hi, m, List.mem_cons_of_mem _ hm, hj⟩]
    · rw [if_neg hlater, Grid.putcs, List.length_singleton]
      by_cases hnow : i = y ∧ f n ≤ j ∧ j < f n + 1
      · have hj : f n = j := by omega
        have hindex : j - f n = 0 := by omega
        rw [if_pos hnow, if_pos ⟨hnow.1, n, List.mem_cons_self, hj⟩, hindex]
        rfl
      · rw [if_neg hnow, if_neg]
        rintro ⟨hi, m, hm, hj⟩
        rcases List.mem_cons.mp hm with rfl | hm
        · exact hnow ⟨hi, by omega, by omega⟩
        · exact hlater ⟨hi, m, hm, hj⟩

/-- The cells that are blanked one by one. -/
theorem mem_blanked {y x n i j : Nat} : (i = y ∧ ∃ m ∈ (List.range n).reverse, x + m = j) ↔
    i = y ∧ x ≤ j ∧ j < x + n := by
  constructor
  · rintro ⟨hi, m, hm, hj⟩
    rw [List.mem_reverse, List.mem_range] at hm
    exact ⟨hi, by omega, by omega⟩
  · rintro ⟨hi, hx, hn⟩
    refine ⟨hi, j - x, ?_, by omega⟩
    rw [List.mem_reverse, List.mem_range]
    omega

theorem mem_blanked_end {y cols n i j : Nat} (hn : n ≤ cols) (hj : j < cols) :
    (i = y ∧ ∃ m ∈ (List.range n).reverse, cols - 1 - m = j) ↔
      i = y ∧ cols - n ≤ j ∧ j < cols - n + n := by
  constructor
  · rintro ⟨hi, m, hm, hm'⟩
    rw [List.mem_reverse, List.mem_range] at hm
    exact ⟨hi, by omega, by omega⟩
  · rintro ⟨hi, hlow, -⟩
    refine ⟨hi, cols - 1 - j, ?_, by omega⟩
    rw [List.mem_reverse, List.mem_range]
    omega

/-- What `insert_char` does to a console in front. -/
theorem insertChar_lit (hl : Lit s) (nr : Nat) : ∃ mem fs, insertChar s nr =
    { s with
      mem := mem, faults := fs, cur.needWrap := false
      draws := s.draws ++ (.bmove s.cur.y s.cur.x s.cur.y (s.cur.x + nr) 1
        (s.geo.cols - s.cur.x - nr) :: (List.range nr).reverse.map fun i =>
          .putc s.rend.videoEraseChar s.cur.y (s.cur.x + i)) } := by
  obtain ⟨mem, fs, hloop⟩ := insertLoop_eq s.cur.pos nr (s.geo.cols - nr - s.cur.x) s
  rw [insertChar, hloop]
  exact ⟨_, _, if_pos hl.visible⟩

theorem deleteChar_lit (hl : Lit s) (nr : Nat) : ∃ mem fs, deleteChar s nr =
    { s with
      mem := mem, faults := fs, cur.needWrap := false
      draws := s.draws ++ (.bmove s.cur.y (s.cur.x + nr) s.cur.y s.cur.x 1
        (s.geo.cols - s.cur.x - nr) :: (List.range nr).reverse.map fun i =>
          .putc s.rend.videoEraseChar s.cur.y (s.geo.cols - 1 - i)) } := by
  obtain ⟨mem, fs, hloop⟩ := deleteLoop_eq nr (s.geo.cols - nr - s.cur.x) s.cur.pos s
  rw [deleteChar, hloop]
  exact ⟨_, _, if_pos hl.visible⟩

theorem redraws_insertChar (h : Placed s) {nr : Nat} (hn : nr ≤ s.geo.cols - s.cur.x) :
    Redraws s (insertChar s nr) := by
  have hx := h.bounds.x_lt
  refine .of_lit fun hl => ?_
  have hcells (i j : Nat) (hj : j < s.geo.cols) := cellAt_insertChar (i := i) h hn hj
  obtain ⟨mem, fs, heq⟩ := insertChar_lit hl nr
  rw [heq] at hcells ⊢
  refine .of_cells rfl rfl rfl rfl fun g i j hg hi hj => ?_
  show (g.bmove s.cur.y s.cur.x s.cur.y (s.cur.x + nr) 1 (s.geo.cols - s.cur.x - nr)).replay s.geo
    ((List.range nr).reverse.map fun m => .putc s.rend.videoEraseChar s.cur.y (s.cur.x + m)) i j = _
  rw [hcells i j hj, replay_putc]
  by_cases hgap : i = s.cur.y ∧ s.cur.x ≤ j ∧ j < s.cur.x + nr
  · rw [if_pos (mem_blanked.mpr hgap), if_pos ⟨hgap.1, hgap.2.1⟩, if_pos hgap.2.2]
  rw [if_neg fun hp => hgap (mem_blanked.mp hp), Grid.bmove]
  by_cases hin : i = s.cur.y ∧ s.cur.x ≤ j
  · have hi' : i - s.cur.y + s.cur.y = i := by omega
    have hj' : j - (s.cur.x + nr) + s.cur.x = j - nr := by omega
    rw [if_pos (by omega), if_pos hin, if_neg (by omega), hi', hj']
    exact hg i (j - nr) hi (by omega)
  · rw [if_neg (by omega), if_neg hin]
    exact hg i j hi hj

theorem redraws_deleteChar (h : Placed s) {nr : Nat} (hn : nr ≤ s.geo.cols - s.cur.x) :
    Redraws s (deleteChar s nr) := by
  have hx := h.bounds.x_lt
  refine .of_lit fun hl => ?_
  have hn' : nr ≤ s.geo.cols := by omega
  have hcells (i j : Nat) (hj : j < s.geo.cols) := cellAt_deleteChar (i := i) h hn hj
  obtain ⟨mem, fs, heq⟩ := deleteChar_lit hl nr
  rw [heq] at hcells ⊢
  refine .of_cells rfl rfl rfl rfl fun g i j hg hi hj => ?_
  show (g.bmove s.cur.y (s.cur.x + nr) s.cur.y s.cur.x 1 (s.geo.cols - s.cur.x - nr)).replay s.geo
    ((List.range nr).reverse.map fun m =>
      .putc s.rend.videoEraseChar s.cur.y (s.geo.cols - 1 - m)) i j = _
  rw [hcells i j hj, replay_putc]
  by_cases hgap : i = s.cur.y ∧ s.geo.cols - nr ≤ j ∧ j < s.geo.cols - nr + nr
  · rw [if_pos ((mem_blanked_end hn' hj).mpr hgap), if_pos ⟨hgap.1, by omega⟩, if_neg (by omega)]
  rw [if_neg fun hp => hgap ((mem_blanked_end hn' hj).mp hp), Grid.bmove]
  by_cases hin : i = s.cur.y ∧ s.cur.x ≤ j
  · have hi' : i - s.cur.y + s.cur.y = i := by omega
    have hj' : j - s.cur.x + (s.cur.x + nr) = j + nr := by omega
    rw [if_pos (by omega), if_pos hin, if_pos (by omega), hi', hj']
    exact hg i (j + nr) hi (by omega)
  · rw [if_neg (by omega), if_neg hin]
    exact hg i j hi hj

/-! ### Scrolling -/

theorem redraws_scrollRegionUp (hd : Inert d) (h : Placed s) {t b : Nat} (nr : Int) (h0 : 0 ≤ nr)
    (h2 : t + nr < 2 ^ 32) : Redraws s (scrollRegionUp d s t b nr) := by
  have hrows := h.bounds.rows_lt
  by_cases hregion : t < b ∧ b ≤ s.geo.rows
  · obtain ⟨htb, hb⟩ := hregion
    rcases scroll_cases nr htb with hzero | ⟨n, m, rfl, hn, hm, hcount, hmin⟩
    · rw [scrollRegionUp_zero htb (by omega) h0 h2 hzero]
      exact .refl s
    · refine .of_lit fun hl => ?_
      have hcells (i j : Nat) (hj : j < s.geo.cols) :=
        cellAt_scrollRegionUp (i := i) hd h h0 h2 htb hb hj
      rw [scrollRegionUp_eq hd h h0 h2 hb hm hn hcount] at hcells ⊢
      refine .of_cells rfl rfl rfl rfl fun g i j hg hi hj => ?_
      have hcall : s.scrollCall t (t + n + m) .up n =
          [.scrollRegion t (t + n + m) .up n s.rend.videoEraseChar] := if_pos hl.visible
      rw [hcells i j hj, hmin, hcall]
      show g.scrollRegion t (t + n + m) .up n s.rend.videoEraseChar i j = _
      rw [Grid.scrollRegion]
      split
      · split
        · exact hg (i + n) j (by omega) hj
        · rfl
      · exact hg i j hi hj
  · rw [scrollRegionUp_none (by omega)]
    exact .refl s

theorem redraws_scrollRegionDown (hd : Inert d) (h : Placed s) {t b : Nat} (nr : Int)
    (h0 : 0 ≤ nr) (h2 : t + nr < 2 ^ 32) : Redraws s (scrollRegionDown d s t b nr) := by
  have hrows := h.bounds.rows_lt
  by_cases hregion : t < b ∧ b ≤ s.geo.rows
  · obtain ⟨htb, hb⟩ := hregion
    rcases scroll_cases nr htb with hzero | ⟨n, m, rfl, hn, hm, hcount, hmin⟩
    · rw [scrollRegionDown_zero htb (by omega) h0 h2 hzero]
      exact .refl s
    · refine .of_lit fun hl => ?_
      have hcells (i j : Nat) (hj : j < s.geo.cols) :=
        cellAt_scrollRegionDown (i := i) hd h h0 h2 htb hb hj
      rw [scrollRegionDown_eq hd h h0 h2 hb hm hn hcount] at hcells ⊢
      refine .of_cells rfl rfl rfl rfl fun g i j hg hi hj => ?_
      have hcall : s.scrollCall t (t + n + m) .down n =
          [.scrollRegion t (t + n + m) .down n s.rend.videoEraseChar] := if_pos hl.visible
      rw [hcells i j hj, hmin, hcall]
      show g.scrollRegion t (t + n + m) .down n s.rend.videoEraseChar i j = _
      rw [Grid.scrollRegion]
      split
      · split
        · exact hg (i - n) j (by omega) hj
        · rfl
      · exact hg i j hi hj
  · rw [scrollRegionDown_none (by omega)]
    exact .refl s

/-! ### The whole screen -/

/-- **`do_update_region` of the whole screen** displays it, whatever was displayed. -/
theorem replay_updateScreen (hz : s.geo.Sized) (g : Grid) {i j : Nat} (hi : i < s.geo.rows)
    (hj : j < s.geo.cols) : g.replay s.geo [.updateRegion s.geo.origin
      (s.cells s.geo.origin (s.geo.screenbufSize / 2))] i j = s.cellAt i j := by
  have hcount : s.geo.screenbufSize / 2 = s.geo.rows * s.geo.cols := by
    have hcells : s.geo.rows * (2 * s.geo.cols) = 2 * (s.geo.rows * s.geo.cols) := by ring
    rw [hz.buf, hz.row, hcells]
    omega
  have hoffset : (s.geo.origin - s.geo.origin) / 2 = 0 := by omega
  have hruns := putRuns_updateRuns s.geo.cols
    (s.cells s.geo.origin (s.geo.screenbufSize / 2)) [] 0 0 g i j hj (Nat.zero_le _)
  have hlen : (s.cells s.geo.origin (s.geo.rows * s.geo.cols)).length =
      s.geo.rows * s.geo.cols := by
    rw [Con.cells, List.length_map, List.length_range]
  have hin := linear_lt_page hi hj
  show g.putRuns (updateRuns s.geo.cols [] ((s.geo.origin - s.geo.origin) / 2 / s.geo.cols)
    ((s.geo.origin - s.geo.origin) / 2 % s.geo.cols) _) i j = _
  rw [hoffset, Nat.zero_div, Nat.zero_mod, hruns, List.nil_append, hcount, hlen, if_pos (by omega),
    cellAt_eq hz.row, Con.cells, List.getD_eq_getElem _ _ (by simpa using by omega)]
  simp

theorem redraws_doUpdateRegion (hz : s.geo.Sized) :
    Redraws s (doUpdateRegion s s.geo.origin (s.geo.screenbufSize / 2)) :=
  .of_cells rfl rfl rfl rfl fun g _ _ _ hi hj => replay_updateScreen hz g hi hj

theorem redraws_invertScreen (hz : s.geo.Sized) :
    Redraws s (invertScreen d s 0 s.geo.screenbufSize) := by
  refine .of_lit fun hl => ?_
  rw [invertScreen]
  refine .ite (fun _ => ?_) fun hv => absurd hl.visible hv
  refine .of_cells rfl rfl rfl rfl fun g i j _ hi hj => ?_
  exact replay_updateScreen (s := s.mapCells (s.geo.origin + 0) (s.geo.screenbufSize / 2) _) hz g
    hi hj

end LinuxConsole

import LinuxConsole.Vte.Displayed

/-!
# Drawing in runs

`do_con_write` stores the glyphs one by one and draws them in runs.  Between two bytes the grid
shows the screen **but for the run that is pending**, a few columns of the row of the cursor that
end at the cursor: `InStep`.  A byte keeps this, `InStep.writeByte`: a glyph makes the run longer,
and before a wrap, an insertion or a character for the emulator the run is drawn.  The main result
is `writes_displayed`: **after any writes the grid shows the screen** if it did before.
-/

namespace LinuxConsole

variable {d : Driver} {N : Nat} {F : List Fault} {s s' s₀ : Con} {b : Batch}

/-! ### The run that is pending -/

/-- The number of cells stored and not yet drawn. -/
def Batch.count (b : Batch) : Nat := (b.drawTo - b.drawFrom) / 2

/-- The cell is stored and not yet drawn. -/
def Batch.Pending (b : Batch) (s : Con) (i j : Nat) : Prop :=
  ∃ x, b.drawX = some x ∧ i = s.cur.y ∧ x ≤ j ∧ j < x + b.count

/-- The run from column `x` ends at the cursor. -/
structure Batch.AtCursor (b : Batch) (s : Con) (x : Nat) : Prop where
  start : b.drawFrom = s.geo.origin + 2 * (s.cur.y * s.geo.cols + x)
  le : x ≤ s.cur.x
  fits : x + b.count ≤ s.cur.x + 1

/-- **In step**: since `s₀` everything has been drawn but the pending run. -/
structure InStep (s₀ : Con) (w : Con × Batch) : Prop where
  geo : w.1.geo = s₀.geo
  lit : Lit w.1
  placed : ∀ x, w.2.drawX = some x → w.2.AtCursor w.1 x
  drawn : ∃ ds, w.1.draws = s₀.draws ++ ds ∧ ∀ g, Shows g s₀ → ∀ i j, i < s₀.geo.rows →
    j < s₀.geo.cols → ¬w.2.Pending w.1 i j → g.replay s₀.geo ds i j = w.1.cellAt i j

theorem Batch.not_pending (hb : b.drawX = none) (s : Con) (i j : Nat) : ¬b.Pending s i j := by
  rintro ⟨x, hx, -⟩
  rw [hb] at hx
  contradiction

/-- A step that redraws what it writes, with nothing pending. -/
theorem InStep.redraws (h : InStep s₀ (s, b)) (hb : b.drawX = none) (hs : Redraws s s') :
    InStep s₀ (s', b) := by
  obtain ⟨hgeo, hl', ds', hds', hshow⟩ := hs h.lit
  obtain ⟨ds, hds, hdrawn⟩ := h.drawn
  refine ⟨hgeo.trans h.geo, hl', fun x hx => ?_, ds ++ ds', ?_, fun g hg i j hi hj _ => ?_⟩
  · rw [show b.drawX = some x from hx] at hb
    contradiction
  · show s'.draws = _
    rw [hds', show s.draws = _ from hds, List.append_assoc]
  · have hscreen : Shows (g.replay s₀.geo ds) s := by
      intro y x hy hx
      rw [show s.geo = s₀.geo from h.geo] at hy hx
      exact hdrawn g hg y x hy hx (b.not_pending hb s y x)
    rw [replay_append, ← show s.geo = s₀.geo from h.geo]
    refine hshow (g.replay s.geo ds) ?_ i j ?_ ?_
    · rw [show s.geo = s₀.geo from h.geo]
      exact hscreen
    · rw [hgeo, show s.geo = s₀.geo from h.geo]
      exact hi
    · rw [hgeo, show s.geo = s₀.geo from h.geo]
      exact hj

theorem inStep_start (hl : Lit s) (hb : b.drawX = none) : InStep s (s, b) where
  geo := rfl
  lit := hl
  placed x hx := by
    rw [show b.drawX = some x from hx] at hb
    contradiction
  drawn := ⟨[], (List.append_nil _).symm, fun _ hg i j hi hj _ => hg i j hi hj⟩

theorem InStep.dec (h : InStep s₀ (s, b)) (u : Utf) : InStep s₀ ({ s with dec := u }, b) where
  geo := h.geo
  lit := ⟨h.lit.visible, h.lit.awake⟩
  placed x hx := ⟨(h.placed x hx).start, (h.placed x hx).le, (h.placed x hx).fits⟩
  drawn := h.drawn

/-- **The flush** draws the run. -/
theorem InStep.flush (h : InStep s₀ (s, b)) (hp : Placed s) :
    InStep s₀ (flush s b) ∧ (flush s b).2.drawX = none := by
  rw [LinuxConsole.flush]
  split
  case h_1 hx => exact ⟨h, hx⟩
  case h_2 x hx =>
    obtain ⟨hstart, hle, hfits⟩ := h.placed x hx
    obtain ⟨ds, hds, hdrawn⟩ := h.drawn
    have hcursor := hp.bounds.x_lt
    refine ⟨⟨h.geo, ⟨h.lit.visible, h.lit.awake⟩, fun x hx => ?_, ds ++ [.putcs (s.cells b.drawFrom
      b.count) s.cur.y x], ?_, fun g hg i j hi hj _ => ?_⟩, rfl⟩
    · contradiction
    · show s.draws ++ _ = _
      rw [show s.draws = _ from hds, List.append_assoc]
      rfl
    · rw [replay_append]
      show (if i = s.cur.y ∧ x ≤ j ∧ j < x + (s.cells b.drawFrom b.count).length then
        (s.cells b.drawFrom b.count).getD (j - x) 0 else g.replay s₀.geo ds i j) = s.cellAt i j
      have hlen : (s.cells b.drawFrom b.count).length = b.count := by
        rw [Con.cells, List.length_map, List.length_range]
      rw [hlen]
      by_cases hin : i = s.cur.y ∧ x ≤ j ∧ j < x + b.count
      · obtain ⟨hi', hx', hj'⟩ := hin
        have haddr : s.geo.origin + 2 * (s.cur.y * s.geo.cols + x) + 2 * (j - x) =
            s.geo.origin + 2 * (i * s.geo.cols + j) := by
          rw [hi']
          omega
        have hindex : j - x < (s.cells b.drawFrom b.count).length := by omega
        rw [if_pos ⟨hi', hx', hj'⟩, List.getD_eq_getElem _ _ hindex, cellAt_eq hp.bounds.sizeRow,
          ← haddr, ← hstart]
        simp [Con.cells]
      · rw [if_neg hin]
        refine hdrawn g hg i j hi hj ?_
        rintro ⟨x', hx', hrow⟩
        obtain rfl : x' = x := Option.some.inj (hx'.symm.trans hx)
        exact hin hrow

/-! ### A glyph -/

theorem Batch.extend_atCursor (hl : Lit s) (hp : Placed s)
    (hb : ∀ x, b.drawX = some x → b.AtCursor s x) :
    ∃ x, (b.extend s).drawX = some x ∧
      (b.extend s).drawFrom = s.geo.origin + 2 * (s.cur.y * s.geo.cols + x) ∧
      x ≤ s.cur.x ∧ x + (b.extend s).count = s.cur.x + 1 ∧
      ∀ x', b.drawX = some x' → x' = x := by
  have hpos := hp.pos
  rw [Batch.count, Batch.extend]
  cases hx : b.drawX with
  | none =>
    have hnew : (s.vt.visible && (none : Option Nat).isNone) = true := by
      rw [hl.visible]
      rfl
    rw [if_pos hnew]
    refine ⟨s.cur.x, rfl, hpos, Nat.le_refl _, ?_, fun x' hx' => by contradiction⟩
    show s.cur.x + (s.cur.pos + 2 - s.cur.pos) / 2 = s.cur.x + 1
    omega
  | some x =>
    obtain ⟨hstart, hle, hfits⟩ := hb x hx
    have hold : ¬(s.vt.visible && (some x).isNone) = true := by
      rw [hl.visible]
      exact Bool.false_ne_true
    rw [if_neg hold]
    refine ⟨x, hx, hstart, hle, ?_, fun x' hx' => (Option.some.inj hx').symm⟩
    show x + (s.cur.pos + 2 - b.drawFrom) / 2 = s.cur.x + 1
    omega

theorem advance_cases (s : Con) : ∃ c, advance s = { s with cur := c } ∧ c.y = s.cur.y ∧
    s.cur.x ≤ c.x := by
  rw [advance]
  split
  · exact ⟨_, rfl, rfl, Nat.le_refl _⟩
  · exact ⟨_, rfl, rfl, Nat.le_succ _⟩

theorem InStep.store (h : InStep s₀ (s, b)) (hp : Placed s) (v : Cell) :
    InStep s₀ (advance (s.scrWritew v s.cur.pos), b.extend (s.scrWritew v s.cur.pos)) := by
  have hw := hp.bounds.sizeRow
  have hl : Lit (s.scrWritew v s.cur.pos) := ⟨h.lit.visible, h.lit.awake⟩
  have hp' : Placed (s.scrWritew v s.cur.pos) :=
    ⟨{ hp.bounds with x_lt := hp.bounds.x_lt, y_lt := hp.bounds.y_lt },
      ⟨hp.onScreen.pos, hp.onScreen.scrEnd⟩⟩
  obtain ⟨x, hx, hstart, hle, hcount, hsame⟩ := Batch.extend_atCursor (b := b) hl hp'
    fun x hx => ⟨(h.placed x hx).start, (h.placed x hx).le, (h.placed x hx).fits⟩
  obtain ⟨c, hc, hy, hcx⟩ := advance_cases (s.scrWritew v s.cur.pos)
  generalize b.extend (s.scrWritew v s.cur.pos) = b' at hx hstart hcount
  obtain ⟨ds, hds, hdrawn⟩ := h.drawn
  rw [hc]
  refine ⟨h.geo, ⟨hl.visible, hl.awake⟩, fun x' hx' => ?_, ds, hds,
    fun g hg i j hi hj hpending => ?_⟩
  · obtain rfl : x' = x := Option.some.inj (hx'.symm.trans hx)
    refine ⟨?_, hle.trans hcx, ?_⟩
    · rw [hstart]
      show _ = _ + 2 * (c.y * _ + _)
      rw [hy]
    · show x' + b'.count ≤ c.x + 1
      omega
  · have hrun : ¬(i = s.cur.y ∧ x ≤ j ∧ j < x + b'.count) := by
      rintro ⟨hi', hrow⟩
      exact hpending ⟨x, hx, hi'.trans hy.symm, hrow⟩
    have hcount' : x + b'.count = s.cur.x + 1 := hcount
    have hle' : x ≤ s.cur.x := hle
    have hcell := cellAt_scrWritew hw (s.cur.y * s.geo.cols + s.cur.x) v i j
    rw [← hp.pos] at hcell
    have hother : ¬i * s.geo.cols + j = s.cur.y * s.geo.cols + s.cur.x := by
      intro heq
      have hj' : j < s.geo.cols := by
        rw [show s.geo = s₀.geo from h.geo]
        exact hj
      have hcursor := hp.bounds.x_lt
      have hrow := (linear_row (i := i) (y := s.cur.y) (x := s.cur.x) (n := 1) hj'
        (by omega)).mp (by omega)
      exact hrun ⟨hrow.1, by omega, by omega⟩
    rw [if_neg hother] at hcell
    refine (hdrawn g hg i j hi hj ?_).trans hcell.symm
    rintro ⟨x', hx', hi', hlow, hhigh⟩
    have hfits : x' + b.count ≤ s.cur.x + 1 := (h.placed x' hx').fits
    have hend : j < x' + b.count := hhigh
    obtain rfl := hsame x' hx'
    exact hrun ⟨hi', hlow, by omega⟩

theorem redraws_pending (hd : Inert d) (h : Sound d N F s) :
    Redraws s (insertPending (wrapPending d s)) := by
  have hwrap : Redraws s (wrapPending d s) := by
    rw [wrapPending]
    exact .ite (fun _ => (redraws_vteCr s).trans (redraws_vteLf hd (h.vteCr.placed hd)))
      fun _ => .refl s
  have hsound : Sound d N F (wrapPending d s) := Sound.ite (fun _ => h.vteCr.vteLf) (fun _ => h)
  have hx := hsound.bounds.x_lt
  refine hwrap.trans ?_
  rw [insertPending]
  exact .ite (fun _ => redraws_insertChar (hsound.placed hd) (by omega)) fun _ => .refl _

theorem Sound.pending (h : Sound d N F s) : Sound d N F (insertPending (wrapPending d s)) := by
  have hw : Sound d N F (wrapPending d s) := Sound.ite (fun _ => h.vteCr.vteLf) (fun _ => h)
  have hx := hw.bounds.x_lt
  exact Sound.ite (fun _ => hw.insertChar (by omega)) (fun _ => hw)

/-- **A glyph** is stored in step. -/
theorem InStep.putGlyph (hd : Inert d) (hs : Sound d N F s) (h : InStep s₀ (s, b)) (himask : Cell)
    (g : Nat) : InStep s₀ (putGlyph d himask g s b) := by
  rw [LinuxConsole.putGlyph]
  by_cases hflush : (s.cur.needWrap || s.modes.irm) = true
  · obtain ⟨hf, hnone⟩ := h.flush (hs.placed hd)
    have hsf := hs.flush b
    rw [if_pos hflush]
    exact (hf.redraws hnone (redraws_pending hd hsf)).store (hsf.pending.placed hd) _
  · simp only [Bool.or_eq_true, not_or, Bool.not_eq_true] at hflush
    have hstore : storeGlyph d himask g s =
        s.scrWritew (glyphCell himask s.rend.attr g) s.cur.pos := by
      simp [storeGlyph, insertPending, wrapPending, hflush]
    rw [if_neg (by simp [hflush])]
    simp only [hstore]
    exact h.store (hs.placed hd) _

/-! ### A write -/

/-- **A byte** is shown in step. -/
theorem InStep.writeByte (hd : Inert d) {w : Con × Batch} (hs : Sound d N F w.1)
    (h : InStep s₀ w) (himask : Cell) (c : Nat) : InStep s₀ (writeByte d himask w c) := by
  obtain ⟨s, b⟩ := w
  have ht := hs.translateByte c
  obtain ⟨u, htr⟩ := translateByte_fst s c
  have hin := h.dec u
  rw [← htr] at hin
  rw [LinuxConsole.writeByte]
  split
  · next s' he =>
    rw [he] at hin
    exact hin
  · next s' c tc he =>
    rw [he] at ht hin
    split
    · dsimp only
      split
      · exact hin
      · exact hin.putGlyph hd ht himask _
    · obtain ⟨hf, hnone⟩ := hin.flush (ht.placed hd)
      exact hf.redraws hnone (redraws_terminalEmulation hd (Sound.flush ht b) c)

theorem InStep.writeLoop (hd : Inert d) (himask : Cell) (buf : List Nat) :
    ∀ {w : Con × Batch}, Sound d N F w.1 → InStep s₀ w → InStep s₀ (writeLoop d himask w buf) := by
  induction buf with
  | nil => exact fun _ h => h
  | cons c buf ih => exact fun hs h => ih (hs.writeByte himask c) (h.writeByte hd hs himask c)

theorem redraws_hideSoftcursor (h : Placed s) : Redraws s (hideSoftcursor s) := by
  refine .of_lit fun hl => ?_
  rw [hideSoftcursor]
  split
  · exact .refl s
  · next orig _ =>
    have hcells :
        Redraws s ((s.scrWritew orig s.cur.pos).draw [.putc orig s.cur.y s.cur.x]) := by
      refine .of_cells rfl rfl rfl rfl fun g i j hg hi hj => ?_
      have hcell := cellAt_scrWritew h.bounds.sizeRow (s.cur.y * s.geo.cols + s.cur.x) orig i j
      have hcursor := h.bounds.x_lt
      have hrow := linear_row (i := i) (y := s.cur.y) (x := s.cur.x) (n := 1) hj (by omega)
      rw [← h.pos] at hcell
      refine Eq.trans ?_ hcell.symm
      show (if i = s.cur.y ∧ s.cur.x ≤ j ∧ j < s.cur.x + 1 then [orig].getD (j - s.cur.x) 0
        else g i j) = _
      by_cases hat : i = s.cur.y ∧ s.cur.x ≤ j ∧ j < s.cur.x + 1
      · have hindex : j - s.cur.x = 0 := by omega
        have hplace := hrow.mpr hat
        rw [if_pos hat, if_pos (by omega), hindex]
        rfl
      · rw [if_neg hat, if_neg fun heq => hat (hrow.mp (by omega))]
        exact hg i j hi hj
    refine hcells.trans ?_
    have hv : (s.scrWritew orig s.cur.pos).vt.visible = true := hl.visible
    dsimp only
    rw [if_pos hv]
    exact .of_eq rfl rfl rfl rfl rfl

/-- The software cursor is taken off the grid as it is taken off the screen. -/
theorem redraws_hideCursor (h : Placed s) : Redraws s (hideCursor s) := by
  have herase : Redraws s (s.draw [.cursorErase]) := redraws_draw s fun _ => rfl
  have hp : Placed (s.draw [.cursorErase]) :=
    ⟨{ h.bounds with x_lt := h.bounds.x_lt, y_lt := h.bounds.y_lt },
      ⟨h.onScreen.pos, h.onScreen.scrEnd⟩⟩
  exact herase.trans (redraws_hideSoftcursor hp)

theorem redraws_doConWrite (hd : Inert d) (h : Sound d N F s) (buf : List Nat) :
    Redraws s (doConWrite d s buf) := by
  intro hl
  have hstart : Redraws s (undrawCursor s) := by
    rw [undrawCursor]
    exact .ite (fun _ => redraws_hideCursor (h.placed hd)) fun _ => .refl s
  have hsound : Sound d N F (undrawCursor s) := Sound.ite (fun _ => h.hideCursor) (fun _ => h)
  have hin := (inStep_start (b := ⟨none, 0, 0⟩) hl rfl).redraws rfl hstart
  have hloop : InStep s (writeCells d s buf) := hin.writeLoop hd _ buf hsound
  have hcells : Sound d N F (writeCells d s buf).1 :=
    Sound.writeLoop (w := (undrawCursor s, ⟨none, 0, 0⟩)) hsound _ buf
  rw [doConWrite_eq]
  generalize writeCells d s buf = w at hloop hcells
  obtain ⟨hf, hnone⟩ := hloop.flush (s := w.1) (b := w.2) (hcells.placed hd)
  obtain ⟨ds, hds, hdrawn⟩ := hf.drawn
  refine ⟨hf.geo, hf.lit, ds, hds, fun g hg y x hy hx => ?_⟩
  rw [hf.geo] at hy hx
  exact hdrawn g hg y x hy hx (Batch.not_pending hnone _ _ _)

theorem Sound.writes (chunks : List (List Nat)) :
    ∀ {s : Con}, Sound d N F s → Sound d N F (writes d s chunks) := by
  induction chunks with
  | nil => exact fun h => h
  | cons buf chunks ih => exact fun h => ih (h.doConWrite buf)

theorem redraws_writes (hd : Inert d) (chunks : List (List Nat)) :
    ∀ {s : Con}, Sound d N F s → Redraws s (writes d s chunks) := by
  induction chunks with
  | nil => exact fun _ => .refl _
  | cons buf chunks ih =>
    exact fun h => (redraws_doConWrite hd h buf).trans (ih (h.doConWrite buf))

/-- **Batched drawing.**  On a driver whose hooks do to a grid of cells what they are described to
do, any bytes in any writes to a console in front, that is not blanked, keep the grid equal to the
screen. -/
theorem writes_displayed (hd : Inert d) (h : Sound d N F s) (hl : Lit s)
    (chunks : List (List Nat)) : ∃ ds, (writes d s chunks).draws = s.draws ++ ds ∧
      ∀ g, Shows g s → Shows (g.replay s.geo ds) (writes d s chunks) := by
  obtain ⟨-, -, ds, hds, hshow⟩ := redraws_writes hd chunks h hl
  exact ⟨ds, hds, hshow⟩

/-- A letter, an insertion cut in two by the writes, and a letter. -/
def cutInsertion : List (List Nat) := [[0x41, 0x1b], [0x5b, 0x40, 0x42]]

theorem writes_displayed_boot : ∃ ds,
    (writes dummyCon bootCon cutInsertion).draws = bootCon.draws ++ ds ∧
      ∀ g, Shows g bootCon →
        Shows (g.replay bootCon.geo ds) (writes dummyCon bootCon cutInsertion) :=
  writes_displayed inert_dummy sound_boot ⟨rfl, rfl⟩ _

end LinuxConsole

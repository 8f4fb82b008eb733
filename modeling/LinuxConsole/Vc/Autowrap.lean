import LinuxConsole.Vc.Stream

/-!
# When a line wraps

A glyph in the last column leaves the cursor there with a wrap pending, and the next glyph makes it.
`DelayedWrap` is what this means for a stream of writes: a wrap is pending only in the last column
and with autowrap on; with autowrap off glyphs stay in their row; and a glyph that leaves its row
follows one that has filled it.

CBT moves the cursor and leaves the wrap pending, and so does a DECRST that resets autowrap.
`delayed_wrap` says that **a stream without these keeps the wrap delayed** in every state.
-/

namespace LinuxConsole

open Lib

variable {d : Driver} {N : Nat} {F : List Fault} {s s' : Con} {r : Nat}

/-- The row of the cursor is stored from `r` on. -/
def Con.RowAt (s : Con) (r : Nat) : Prop := s.cur.pos = r + 2 * s.cur.x

/-- **The cursor stays in its row**, and nothing else moves on the screen. -/
structure StaysInRow (r : Nat) (s s' : Con) : Prop where
  rowAt : s'.RowAt r
  y : s'.cur.y = s.cur.y
  geo : s'.geo = s.geo
  outside : ∀ a, a < r ∨ r + 2 * s.geo.cols ≤ a → s'.mem a = s.mem a

/-- A byte that is displayed, or only moves the decoder. -/
def Writing.Displays (w : Writing) : WriteOp → Prop
  | .byte c => handed w.con c = none
  | .next => False

/-- A glyph in the last column, with autowrap on. -/
def FillsRow (d : Driver) (w : Writing) (a : WriteOp) : Prop :=
  w.shows a = true ∧ (writeStep d w a).con.cur.x + 1 = (writeStep d w a).con.geo.cols ∧
    (writeStep d w a).con.modes.decawm = true

/-- No glyph, and the cursor stays. -/
def KeepsCursor (d : Driver) (w : Writing) (a : WriteOp) : Prop :=
  w.shows a = false ∧ (writeStep d w a).con.cur.x = w.con.cur.x ∧
    (writeStep d w a).con.cur.y = w.con.cur.y

/-- **The wrap is delayed** in the state that the stream reaches. -/
structure DelayedWrap (d : Driver) (start : Writing) (as : List WriteOp) : Prop where
  filled : Filled (run (writeStep d) start as).con
  stays : (run (writeStep d) start as).con.modes.decawm = false →
    ∀ r, (run (writeStep d) start as).con.RowAt r → ∀ bs,
      Along (writeStep d) Writing.Displays (run (writeStep d) start as) bs →
        StaysInRow r (run (writeStep d) start as).con
          (run (writeStep d) (run (writeStep d) start as) bs).con
  wraps : ∀ r, (run (writeStep d) start as).con.RowAt r → ∀ a,
    (run (writeStep d) start as).Displays a →
      ¬StaysInRow r (run (writeStep d) start as).con
        (writeStep d (run (writeStep d) start as) a).con →
      ∃ pre b post, as = pre ++ b :: post ∧ FillsRow d (run (writeStep d) start pre) b ∧
        Along (writeStep d) (KeepsCursor d) (writeStep d (run (writeStep d) start pre) b) post

/-! ### One glyph -/

theorem StaysInRow.refl (h : s.RowAt r) : StaysInRow r s s := ⟨h, rfl, rfl, fun _ _ => rfl⟩

theorem StaysInRow.trans {s'' : Con} (h : StaysInRow r s s') (h' : StaysInRow r s' s'') :
    StaysInRow r s s'' where
  rowAt := h'.rowAt
  y := h'.y.trans h.y
  geo := h'.geo.trans h.geo
  outside a ha := (h'.outside a (by rw [h.geo]; exact ha)).trans (h.outside a ha)

theorem staysInRow_insertPending (hx : s.cur.x < s.geo.cols) (hr : s.RowAt r) :
    StaysInRow r s (insertPending s) ∧ (insertPending s).cur.x = s.cur.x := by
  rw [Con.RowAt] at hr
  rw [insertPending]
  split
  case isFalse => exact ⟨.refl hr, rfl⟩
  case isTrue =>
    obtain ⟨hgeo, hcur, -⟩ := insertChar_frame s 1
    refine ⟨⟨?_, ?_, hgeo, fun a ha => ?_⟩, ?_⟩
    · rw [Con.RowAt, hcur]
      exact hr
    · rw [hcur]
    · rw [mem_insertChar hx (by omega), if_neg (by omega)]
    · rw [hcur]

theorem staysInRow_scrWritew (hx : s.cur.x < s.geo.cols) (hr : s.RowAt r) (v : Cell) :
    StaysInRow r s (s.scrWritew v s.cur.pos) := by
  refine ⟨hr, rfl, rfl, fun a ha => ?_⟩
  rw [Con.RowAt] at hr
  exact Function.update_of_ne (by omega) _ _

theorem staysInRow_advance (hr : s.RowAt r) : StaysInRow r s (advance s) := by
  rw [Con.RowAt] at hr
  rw [advance]
  split
  · exact ⟨hr, rfl, rfl, fun _ _ => rfl⟩
  · refine ⟨?_, rfl, rfl, fun _ _ => rfl⟩
    show s.cur.pos + 2 = r + 2 * (s.cur.x + 1)
    omega

/-- **A glyph without a wrap pending** stays in its row. -/
theorem staysInRow_glyph (himask : Cell) (g : Nat) (hx : s.cur.x < s.geo.cols) (hr : s.RowAt r)
    (hw : s.cur.needWrap = false) : StaysInRow r s (advance (storeGlyph d himask g s)) := by
  have hwrap : wrapPending d s = s := by
    rw [wrapPending, hw]
    rfl
  obtain ⟨hi, hcol⟩ := staysInRow_insertPending hx hr
  have hxi : (insertPending s).cur.x < (insertPending s).geo.cols := by
    rw [hcol, hi.geo]
    exact hx
  have hstore : storeGlyph d himask g s = (insertPending s).scrWritew
      (glyphCell himask (insertPending s).rend.attr g) (insertPending s).cur.pos := by
    rw [storeGlyph, hwrap]
  rw [hstore]
  have hcell := staysInRow_scrWritew hxi hi.rowAt
    (glyphCell himask (insertPending s).rend.attr g)
  exact (hi.trans hcell).trans (staysInRow_advance hcell.rowAt)

/-! ### A step -/

/-- A displayed byte stays in its row unless a wrap is pending. -/
theorem staysInRow_writeStep {w : Writing} {a : WriteOp} (hx : w.con.cur.x < w.con.geo.cols)
    (hr : w.con.RowAt r) (hw : w.con.cur.needWrap = false) (ha : w.Displays a) :
    StaysInRow r w.con (writeStep d w a).con := by
  cases a with
  | next => exact ha.elim
  | byte c =>
    cases hg : w.glyph c with
    | none =>
      obtain ⟨u, heq⟩ := writeStep_silent (d := d) ha hg
      rw [heq]
      exact ⟨hr, rfl, rfl, fun _ _ => rfl⟩
    | some g =>
      obtain ⟨u, ds, heq⟩ := writeStep_glyph (d := d) hg
      have hglyph := staysInRow_glyph (d := d) (s := { w.con with dec := u, draws := ds }) w.himask g
        hx hr hw
      rw [heq]
      exact ⟨hglyph.rowAt, hglyph.y, hglyph.geo, hglyph.outside⟩

theorem decawm_writeStep {w : Writing} {a : WriteOp} (ha : w.Displays a) :
    (writeStep d w a).con.modes.decawm = w.con.modes.decawm := by
  cases a with
  | next => exact ha.elim
  | byte c =>
    cases hg : w.glyph c with
    | none =>
      obtain ⟨u, heq⟩ := writeStep_silent (d := d) ha hg
      rw [heq]
    | some g =>
      obtain ⟨u, ds, heq⟩ := writeStep_glyph (d := d) hg
      have hflags := (frame_storeGlyph (d := d) w.himask g { w.con with dec := u, draws := ds }).trans
        (frame_advance _)
      rw [heq]
      exact congrFun hflags.flags .decawm

theorem Writing.Displays.strands {w : Writing} {a : WriteOp} (ha : w.Displays a) :
    w.strands a = false := by
  cases a with
  | next => rfl
  | byte c => rw [Writing.strands, show handed w.con c = none from ha, Option.any_none]

/-- **A wrap becomes pending** only by a glyph in the last column. -/
theorem wrap_writeStep {w : Writing} {a : WriteOp} (hcols : 0 < w.con.geo.cols)
    (hs : w.strands a = false) (hf : Filled w.con)
    (hn : (writeStep d w a).con.cur.needWrap = true) :
    FillsRow d w a ∨ (w.con.cur.needWrap = true ∧ KeepsCursor d w a) := by
  cases hshow : w.shows a with
  | true => exact .inl ⟨hshow, filled_writeStep hcols hs hf hn⟩
  | false =>
    obtain ⟨hbefore, hx, hy, -⟩ := (moves_writeStep w a).wrap ⟨hs, hshow⟩ hf hn
    exact .inr ⟨hbefore, hshow, hx, hy⟩

/-! ### Streams -/

/-- What a stream keeps in which no byte strands a wrap. -/
structure Wraps (d : Driver) (N : Nat) (w : Writing) : Prop where
  sound : Sound d N [] w.con
  filled : Filled w.con

theorem Wraps.step {w : Writing} {a : WriteOp} (h : Wraps d N w) (hs : w.strands a = false) :
    Wraps d N (writeStep d w a) :=
  ⟨h.sound.writeStep a, filled_writeStep (Nat.zero_lt_of_lt h.sound.bounds.x_lt) hs h.filled⟩

theorem Sound.wraps (h : Sound d N [] s) (hclear : s.cur.needWrap = false) : Wraps d N (.idle s) where
  sound := h
  filled hn := by
    rw [show s.cur.needWrap = true from hn] at hclear
    contradiction

theorem Wraps.stays (bs : List WriteOp) : ∀ {w : Writing}, Wraps d N w →
    w.con.modes.decawm = false → w.con.RowAt r → Along (writeStep d) Writing.Displays w bs →
    StaysInRow r w.con (run (writeStep d) w bs).con := by
  induction bs with
  | nil => exact fun _ _ hr _ => .refl hr
  | cons a bs ih =>
    intro w h hawm hr hbs
    have hw : w.con.cur.needWrap = false := by
      by_contra hn
      have hon := (h.filled (Bool.not_eq_false _ ▸ hn)).2
      rw [hawm] at hon
      contradiction
    have hstep := staysInRow_writeStep (d := d) h.sound.bounds.x_lt hr hw hbs.1
    exact hstep.trans (ih (h.step hbs.1.strands) ((decawm_writeStep hbs.1).trans hawm) hstep.rowAt
      hbs.2)

theorem Wraps.delayed {w : Writing} (h : Wraps d N w) (hclear : w.con.cur.needWrap = false)
    {as : List WriteOp} (has : Along (writeStep d) (fun w a => w.strands a = false) w as) :
    DelayedWrap d w as := by
  have hend : Wraps d N (run (writeStep d) w as) := has.invariant (fun _ _ h hs => h.step hs) h
  refine ⟨hend.filled, fun hawm r hr bs hbs => hend.stays bs hawm hr hbs, fun r hr a ha hleaves => ?_⟩
  have hpending : (run (writeStep d) w as).con.cur.needWrap = true := by
    by_contra hn
    exact hleaves (staysInRow_writeStep hend.sound.bounds.x_lt hr (Bool.eq_false_iff.mpr hn) ha)
  exact has.remembers (G := fun w => w.con.cur.needWrap = true) (fun _ _ h hs => h.step hs)
    (fun w a h hs hn => wrap_writeStep (Nat.zero_lt_of_lt h.sound.bounds.x_lt) hs h.filled hn) h
    (by rw [hclear]; exact Bool.false_ne_true) as hpending

theorem vcInit_needWrap (d : Driver) (i : ConInit) (screenbuf : Nat) (mem : Nat → Cell)
    (vt : Display) (uni : Option UniPagedir) (userMap : Nat → Nat) (doClear : Bool) :
    (vcInit d (visualInit i screenbuf mem vt uni userMap) doClear).cur.needWrap = false := by
  have hpalette (s : Con) : (resetPalette s).cur.needWrap = s.cur.needWrap :=
    congrArg Place.wrap (place_resetPalette s)
  rw [vcInit]
  exact (moves_vteRis (W := True) (S := False) id _ doClear).unwrapped (hpalette _)

/-- **Delayed wrap.**  On a console of any size and with any driver, a stream of writes after
`vc_init` in which no CBT moves a cursor with a wrap pending, and no DECRST resets autowrap with one
pending and without resetting origin mode, keeps the wrap delayed in every state. -/
theorem delayed_wrap (d : Driver) (i : ConInit) (screenbuf : Nat) (mem : Nat → Cell) (vt : Display)
    (uni : Option UniPagedir) (userMap : Nat → Nat) (doClear : Bool) (hc : 1 ≤ i.cols)
    (hr : 1 ≤ i.rows) (hr' : i.rows < 2 ^ 31) (as : List WriteOp)
    (has : Along (writeStep d) (fun w a => w.strands a = false)
      (.idle (vcInit d (visualInit i screenbuf mem vt uni userMap) doClear)) as) :
    DelayedWrap d (.idle (vcInit d (visualInit i screenbuf mem vt uni userMap) doClear)) as := by
  have hclear := vcInit_needWrap d i screenbuf mem vt uni userMap doClear
  have hsound := sound_vcInit d i screenbuf mem vt uni userMap doClear hc le_rfl hr hr'
  exact (hsound.wraps hclear).delayed hclear has

/-- A letter in the last of 80 columns, and one more. -/
def lastColumn : List (List Nat) := [[0x1b, 0x5b, 0x38, 0x30, 0x47, 0x41], [0x42]]

theorem delayed_wrap_letters : DelayedWrap dummyCon (.idle bootCon) (writeOps lastColumn) :=
  delayed_wrap dummyCon dummyConInit 0x1000 _ bootDisplay none defaultUserMap true (by decide)
    (by decide) (by decide) _ (by decide +kernel)

/-- A letter in the last column, and a tabulation to the left. -/
def tabFromWrap : List (List Nat) := [[0x1b, 0x5b, 0x38, 0x30, 0x47, 0x41, 0x1b, 0x5b, 0x31, 0x5a]]

/-- A letter in the last column, and autowrap is reset. -/
def resetAtWrap : List (List Nat) :=
  [[0x1b, 0x5b, 0x38, 0x30, 0x47, 0x41, 0x1b, 0x5b, 0x3f, 0x37, 0x6c]]

/-- **The wrap is left pending**: away from the last column by CBT, and without autowrap by DECRST,
where the next letter goes to the next row. -/
theorem wrap_stranded :
    ¬DelayedWrap dummyCon (.idle bootCon) (writeOps tabFromWrap) ∧
      ¬DelayedWrap dummyCon (.idle bootCon) (writeOps resetAtWrap) ∧
      (writes dummyCon bootCon resetAtWrap).cur.y = 0 ∧
      (writes dummyCon bootCon (resetAtWrap ++ [[0x42]])).cur.y = 1 := by
  have htab : (run (writeStep dummyCon) (.idle bootCon) (writeOps tabFromWrap)).con.cur =
      ⟨72, 0, 0x1000 + 144, true⟩ := by decide +kernel
  have hreset : (run (writeStep dummyCon) (.idle bootCon) (writeOps resetAtWrap)).con.cur.needWrap =
      true ∧ (run (writeStep dummyCon) (.idle bootCon) (writeOps resetAtWrap)).con.modes.decawm =
        false := by decide +kernel
  refine ⟨fun h => ?_, fun h => ?_, by decide +kernel, by decide +kernel⟩
  · have hx := (h.filled (by rw [htab])).1
    rw [htab] at hx
    exact absurd hx (by decide +kernel)
  · have hon := (h.filled hreset.1).2
    rw [hreset.2] at hon
    contradiction

end LinuxConsole

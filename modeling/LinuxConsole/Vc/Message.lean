import LinuxConsole.Vc.Handed
import LinuxConsole.Vc.Pipeline

/-!
# Kernel messages and terminal output

`vt_console_print` stores the characters of a message with a column counter of its own and brings
`vc_x` up to date before a control character, a wrap, and at the end; `do_con_write` moves the
cursor with every character.  `Printing.synced` is the console with `vc_x` brought up to date.
After any part of the text it is the console of the terminal path, the record of the drawing apart,
`text_agrees`: both paths make `showMessage` of a character, the line feed as CR LF because **the
line feed and the carriage return commute**, `vteCr_vteLf`.

Behind a message the cursor is shown and the display unblanked.  `Con.logical` is the screen with
the cell under a drawn software cursor replaced by the one saved, and **`print_agrees_write`**
compares that.
-/

namespace LinuxConsole

variable {d : Driver} {s : Con}

/-- The scroll hook moves the cursor with the screen window and looks at nothing else of it. -/
structure Rides (d : Driver) : Prop where
  pos : ∀ s t b dir n r, d.conScrollRegion s t b dir n = some r →
    r.pos = r.origin + (s.cur.pos - s.geo.origin)
  blind : ∀ s c t b dir n, (d.conScrollRegion { s with cur := c } t b dir n).map
      (fun r => (r.mem, r.origin, r.scrEnd)) =
    (d.conScrollRegion s t b dir n).map fun r => (r.mem, r.origin, r.scrEnd)

/-- The cursor address is at least its column from the origin. -/
def Anchored (s : Con) : Prop := s.geo.origin + 2 * s.cur.x ≤ s.cur.pos

theorem cursor_of_undrawn {s' : Con} (h : s.undrawn = s'.undrawn) :
    s.cur = s'.cur ∧ s.geo = s'.geo := by
  have hcur : s.undrawn.cur = s'.undrawn.cur := by rw [h]
  have hgeo : s.undrawn.geo = s'.undrawn.geo := by rw [h]
  exact ⟨hcur, hgeo⟩

theorem Anchored.of_undrawn {s' : Con} (ha : Anchored s) (h : s'.undrawn = s.undrawn) :
    Anchored s' := by
  obtain ⟨hcur, hgeo⟩ := cursor_of_undrawn h
  rw [Anchored, hcur, hgeo]
  exact ha

/-! ### Line feed and carriage return -/

theorem scrollRegionUp_cursor (hd : Rides d) (s : Con) (t b : Nat) (nr : Int) {x : Nat}
    {w : Bool} (ha : s.geo.origin + 2 * x ≤ s.cur.pos) :
    scrollRegionUp d { s with cur := ⟨0, s.cur.y, s.cur.pos - 2 * x, w⟩ } t b nr =
      { scrollRegionUp d s t b nr with
        cur := ⟨0, s.cur.y, (scrollRegionUp d s t b nr).cur.pos - 2 * x, w⟩ } ∧
      (scrollRegionUp d s t b nr).geo.origin + 2 * x ≤ (scrollRegionUp d s t b nr).cur.pos ∧
      (scrollRegionUp d s t b nr).cur.x = s.cur.x ∧ (scrollRegionUp d s t b nr).cur.y = s.cur.y := by
  have hseen (c : Cursor) (ds : List Draw) : Con.seen { s with cur := c, draws := ds } =
      { s.seen with cur := c } := rfl
  have hsame (ds : List Draw) : Con.seen { s with draws := ds } = s.seen := rfl
  rw [scrollRegionUp, scrollRegionUp]
  split
  · exact ⟨rfl, ha, rfl, rfl⟩
  dsimp only
  rw [hseen ⟨0, s.cur.y, s.cur.pos - 2 * x, w⟩ (s.draws ++ _), hsame (s.draws ++ _)]
  cases hv : s.vt.visible with
  | false => exact ⟨rfl, ha, rfl, rfl⟩
  | true =>
    simp only [if_true]
    have hblind := hd.blind s.seen ⟨0, s.cur.y, s.cur.pos - 2 * x, w⟩ t b .up
      (scrollCount t b nr).toNat
    cases h : d.conScrollRegion s.seen t b .up (scrollCount t b nr).toNat with
    | none =>
      rw [h, Option.map_none, Option.map_eq_none_iff] at hblind
      rw [hblind]
      exact ⟨rfl, ha, rfl, rfl⟩
    | some r =>
      rw [h, Option.map_some, Option.map_eq_some_iff] at hblind
      obtain ⟨r', hr', heq⟩ := hblind
      obtain ⟨hmem, horigin, hend⟩ : r'.mem = r.mem ∧ r'.origin = r.origin ∧
          r'.scrEnd = r.scrEnd := by
        simpa only [Prod.mk.injEq] using heq
      have hpos : r.pos = r.origin + (s.cur.pos - s.geo.origin) :=
        hd.pos s.seen _ _ _ _ _ h
      have hpos' : r'.pos = r'.origin + (s.cur.pos - 2 * x - s.geo.origin) :=
        hd.pos { s.seen with cur := ⟨0, s.cur.y, s.cur.pos - 2 * x, w⟩ } _ _ _ _ _ hr'
      have hmove : r'.pos = r.pos - 2 * x := by
        rw [hpos', hpos, horigin]
        omega
      rw [hr']
      refine ⟨?_, ?_, rfl, rfl⟩
      · simp only [Con.scrolled, Con.scrollCall, hmem, horigin, hend, hmove]
      · show r.origin + 2 * x ≤ r.pos
        omega

/-- **A line feed and a carriage return commute**, and leave the cursor in column 0. -/
theorem vteCr_vteLf (hd : Rides d) (ha : Anchored s) :
    vteLf d (vteCr s) = vteCr (vteLf d s) ∧ Anchored (vteLf d s) ∧
      (vteLf d s).cur.x = s.cur.x := by
  obtain ⟨hscroll, hanchor, hx, hy⟩ := scrollRegionUp_cursor hd s s.mar.top s.mar.bottom 1
    (x := s.cur.x) (w := false) ha
  have hcr : vteCr s = { s with cur := ⟨0, s.cur.y, s.cur.pos - 2 * s.cur.x, false⟩ } := rfl
  have hpos : s.geo.origin + 2 * s.cur.x ≤ s.cur.pos := ha
  simp only [vteLf, hcr]
  split
  · rw [hscroll]
    refine ⟨?_, ?_, hx⟩
    · simp only [vteCr, hx, hy]
    · show (scrollRegionUp d s _ _ 1).geo.origin + 2 * (scrollRegionUp d s _ _ 1).cur.x ≤ _
      rw [hx]
      exact hanchor
  split
  · refine ⟨?_, ?_, rfl⟩
    · have hsub : s.cur.pos - 2 * s.cur.x + s.geo.sizeRow =
          s.cur.pos + s.geo.sizeRow - 2 * s.cur.x := by
        omega
      simp only [vteCr, hsub]
    · show s.geo.origin + 2 * s.cur.x ≤ s.cur.pos + s.geo.sizeRow
      omega
  · exact ⟨rfl, ha, rfl⟩

/-! ### The column counter -/

/-- The console with `vc_x` brought up to date. -/
def Printing.synced (p : Printing) : Con := { p.con with cur.x := p.myx }

/-- How the column counter and `vc_x` hang together: the characters stored since lie between them,
and the last column counts one more when a wrap is pending behind it. -/
structure Printing.Counts (p : Printing) : Prop where
  column : p.myx < p.con.geo.cols
  idle : p.cnt = 0 → p.con.cur.x = p.myx
  wrap : 0 < p.cnt → p.con.cur.needWrap = true →
    p.con.cur.x + p.cnt = p.myx + 1 ∧ p.myx + 1 = p.con.geo.cols
  inside : 0 < p.cnt → p.con.cur.needWrap = false → p.con.cur.x + p.cnt = p.myx

theorem Printing.Counts.at (hx : s.cur.x < s.geo.cols) : (Printing.at s).Counts :=
  ⟨hx, fun _ => rfl, fun h => absurd h (Nat.lt_irrefl 0), fun h => absurd h (Nat.lt_irrefl 0)⟩

theorem printDraw_fst (p : Printing) : ∃ ds, printDraw p = { p.con with draws := ds } := by
  rw [printDraw]
  split
  · exact ⟨_, rfl⟩
  · exact ⟨_, rfl⟩

theorem printFlush_undrawn {p : Printing} (h : p.Counts) :
    (printFlush p).undrawn = p.synced.undrawn := by
  obtain ⟨ds, hds⟩ := printDraw_fst p
  rw [printFlush]
  split
  · next hcnt =>
    dsimp only
    cases hw : p.con.cur.needWrap with
    | true =>
      have hx := (h.wrap hcnt hw).1
      rw [hds]
      simp only [hw, if_true, Con.undrawn, Printing.synced]
      rw [show p.con.cur.x + p.cnt - 1 = p.myx by omega]
    | false =>
      have hx := h.inside hcnt hw
      rw [hds]
      simp only [hw, Bool.false_eq_true, if_false, Con.undrawn, Printing.synced, hx]
  · next hcnt =>
    rw [Printing.synced, ← h.idle (by omega)]

theorem printEnd_undrawn {p : Printing} (h : p.Counts) :
    (printEnd p).undrawn = p.synced.undrawn := by
  obtain ⟨ds, hds⟩ := printDraw_fst p
  have hcol := h.column
  rw [printEnd]
  split
  · next hcnt =>
    dsimp only
    cases hw : p.con.cur.needWrap with
    | true =>
      obtain ⟨hx, hlast⟩ := h.wrap hcnt hw
      rw [hds]
      simp only [hx, hlast, if_true, Con.undrawn, Printing.synced]
      rw [← hw, show p.con.geo.cols - 1 = p.myx by omega]
    | false =>
      have hx := h.inside hcnt hw
      rw [hds]
      simp only [hx, if_neg (Nat.ne_of_lt hcol), Con.undrawn, Printing.synced]
  · next hcnt =>
    rw [Printing.synced, ← h.idle (by omega)]

/-! ### A character of a message -/

/-- The characters of a message: printable ASCII, line feed, carriage return and backspace. -/
def MessageChar (c : Nat) : Prop := (0x20 ≤ c ∧ c < 0x7f) ∨ c = 10 ∨ c = 13 ∨ c = 8

/-- A line feed is sent to the terminal as CR LF. -/
def crLf (c : Nat) : List Nat := if c = 10 then [13, 10] else [c]

/-- What both paths make of a character. -/
def showMessage (d : Driver) (s : Con) (c : Nat) : Con :=
  if c = 8 then vteBs s
  else if c = 13 then vteCr s
  else if c = 10 then vteLf d (vteCr s)
  else advance (storeGlyph d 0 c s)

theorem blind_vteBs : Blind vteBs := fun s ds => by
  rw [vteBs, vteBs]
  split
  · rfl
  · rfl

theorem blind_showMessage (c : Nat) : Blind fun s => showMessage d s c := by
  simp only [showMessage]
  split
  · exact blind_vteBs
  split
  · exact blind_vteCr
  split
  · exact blind_vteLf.comp blind_vteCr
  · exact blind_advance.comp (blind_storeGlyph 0 c)

theorem sameMode_showMessage (s : Con) (c : Nat) : SameMode s (showMessage d s c) := by
  refine .ite (fun _ => ?_) fun _ => .ite (fun _ => (SameMode.refl s).cursor _) fun _ =>
    .ite (fun _ => ((SameMode.refl s).cursor _).trans (sameMode_vteLf (vteCr s))) fun _ =>
      (sameMode_storeGlyph 0 c s).trans (sameMode_advance _)
  exact .ite (fun _ => (SameMode.refl s).cursor _) fun _ => .refl s

/-- The modes in which the two paths agree. -/
structure Plain (s : Con) : Prop where
  ground : s.ps.state = .init
  autowrap : s.modes.decawm = true
  replace : s.modes.irm = false
  font : ∀ c, 0x20 ≤ c → c < 0x7f → convUniToPc s.uni c = c

theorem Plain.of_sameMode {s' : Con} (h : Plain s) (hm : SameMode s s') : Plain s' :=
  ⟨by rw [hm.ps]; exact h.ground, by rw [hm.modes]; exact h.autowrap,
    by rw [hm.modes]; exact h.replace, by rw [hm.uni]; exact h.font⟩

/-! ### The terminal path -/

theorem writeByte_c0 (himask : Cell) {w : Con × Batch} {c : Nat} (hs : w.1.ps.state = .init)
    (hc : c = 8 ∨ c = 10 ∨ c = 13) :
    ∃ ds, (writeByte d himask w c).1 = terminalEmulation d { w.1 with draws := ds } c := by
  have ht : translateByte w.1 c = (w.1, some (c, c)) := if_pos hs
  have hok : glyphOk w.1 c c = false := by
    rw [glyphOk]
    rcases hc with rfl | rfl | rfl <;> cases w.1.modes.dispCtrl <;> cases w.1.dec.utf <;> decide
  obtain ⟨ds, hf⟩ := flush_fst w.1 w.2
  refine ⟨ds, ?_⟩
  rw [writeByte, ht]
  simp only [hok, Bool.false_eq_true, and_false, if_false, hf]

theorem writeByte_printable {w : Con × Batch} (h : Plain w.1) {c : Nat} (h20 : 0x20 ≤ c)
    (h7f : c < 0x7f) :
    (writeByte d 0 w c).1.undrawn = (advance (storeGlyph d 0 c w.1)).undrawn := by
  have hplain := writeByte_plain (d := d) 0 h.ground
    (⟨h20, by omega, fun hc => by omega⟩ : PlainByte w.1 c)
  have hglyph : shownGlyph w.1.uni c c = c := by
    rw [shownGlyph, h.font c h20 h7f]
    simp only
    rw [if_neg (by omega), if_neg (by omega)]
  have hshown : glyphShown 0 w.1.uni c c = some c := by
    rw [glyphShown, hglyph, if_neg ?_]
    · rfl
    · have hmask : charmask 0 = 255 := rfl
      rw [hmask]
      omega
  rw [hplain, showByte, if_neg (by omega), displayChar, hshown]
  rfl

theorem vteCr_home (hx : s.cur.x = 0) (hw : s.cur.needWrap = false) : vteCr s = s := by
  rw [vteCr, hx, ← hw, Nat.mul_zero, Nat.sub_zero, ← hx]

/-- **The terminal path** shows the character. -/
theorem terminal_char (hd : Rides d) {w : Con × Batch} (h : Plain w.1) (ha : Anchored w.1) {c : Nat}
    (hc : MessageChar c) :
    (writeLoop d 0 w (crLf c)).1.undrawn = (showMessage d w.1 c).undrawn := by
  rcases hc with ⟨h20, h7f⟩ | rfl | rfl | rfl
  · have hbyte : crLf c = [c] := if_neg (by omega)
    rw [hbyte, showMessage, if_neg (by omega), if_neg (by omega), if_neg (by omega)]
    exact writeByte_printable h h20 h7f
  · obtain ⟨ds, hcr⟩ := writeByte_c0 (d := d) 0 (w := w) h.ground (.inr (.inr rfl))
    have hcr' : (writeByte d 0 w 13).1 = { vteCr w.1 with draws := ds } := hcr
    obtain ⟨ds', hlf⟩ := writeByte_c0 (d := d) 0 (w := writeByte d 0 w 13) (c := 10)
      (by rw [hcr']; exact h.ground) (.inr (.inl rfl))
    have hline (s : Con) : terminalEmulation d s 10 =
        if getKbdMode (vteLf d s) vcCrlf then vteCr (vteLf d s) else vteLf d s := rfl
    have hpos : w.1.geo.origin + 2 * w.1.cur.x ≤ w.1.cur.pos := ha
    have hanchor : Anchored (vteCr w.1) := by
      show w.1.geo.origin + 2 * 0 ≤ w.1.cur.pos - 2 * w.1.cur.x
      omega
    have hanchor' : Anchored { vteCr w.1 with draws := ds' } := hanchor
    have hhome : vteCr (vteLf d { vteCr w.1 with draws := ds' }) =
        vteLf d { vteCr w.1 with draws := ds' } :=
      vteCr_home ((vteCr_vteLf hd hanchor').2.2.trans rfl) rfl
    have hbytes : writeLoop d 0 w (crLf 10) = writeByte d 0 (writeByte d 0 w 13) 10 := rfl
    have hstart : { (writeByte d 0 w 13).1 with draws := ds' } =
        { vteCr w.1 with draws := ds' } := by
      rw [hcr']
    rw [hbytes, hlf, hline, hstart, hhome, ite_self]
    exact blind_vteLf (vteCr w.1) ds'
  · obtain ⟨ds, hcr⟩ := writeByte_c0 (d := d) 0 (w := w) h.ground (.inr (.inr rfl))
    have hbyte : writeLoop d 0 w (crLf 13) = writeByte d 0 w 13 := rfl
    rw [hbyte, hcr]
    rfl
  · obtain ⟨ds, hbs⟩ := writeByte_c0 (d := d) 0 (w := w) h.ground (.inl rfl)
    have hbyte : writeLoop d 0 w (crLf 8) = writeByte d 0 w 8 := rfl
    rw [hbyte, hbs]
    exact blind_vteBs w.1 ds

/-! ### The message path -/

theorem anchored_vteLf_vteCr (hd : Rides d) (ha : Anchored s) :
    Anchored (vteLf d (vteCr s)) ∧ (vteLf d (vteCr s)).cur.x = 0 := by
  have hpos : s.geo.origin + 2 * s.cur.x ≤ s.cur.pos := ha
  have hcr : Anchored (vteCr s) := by
    show s.geo.origin + 2 * 0 ≤ s.cur.pos - 2 * s.cur.x
    omega
  exact ⟨(vteCr_vteLf hd hcr).2.1, (vteCr_vteLf hd hcr).2.2⟩

theorem vteLf_cols (s : Con) : (vteLf d s).geo.cols = s.geo.cols :=
  congrArg Prod.fst (frame_vteLf s).size

/-- Where a glyph is stored when nothing is inserted. -/
theorem storeGlyph_replace (h : s.modes.irm = false) (c : Nat) : storeGlyph d 0 c s =
    (wrapPending d s).scrWritew (glyphCell 0 s.rend.attr c) (wrapPending d s).cur.pos := by
  have hm := sameMode_wrapPending (d := d) s
  have hins : insertPending (wrapPending d s) = wrapPending d s := by
    rw [insertPending, hm.modes, h]
    rfl
  rw [storeGlyph, hins, hm.rend]

theorem anchored_advance (ha : Anchored s) (hx : s.cur.x < s.geo.cols) :
    Anchored (advance s) ∧ (advance s).cur.x < (advance s).geo.cols := by
  have hpos : s.geo.origin + 2 * s.cur.x ≤ s.cur.pos := ha
  rw [advance]
  split
  · exact ⟨ha, hx⟩
  · refine ⟨?_, ?_⟩
    · show s.geo.origin + 2 * (s.cur.x + 1) ≤ s.cur.pos + 2
      omega
    · show s.cur.x + 1 < s.geo.cols
      omega

/-- The shown character leaves the cursor on the screen. -/
theorem anchored_showMessage (hd : Rides d) (h : Plain s) (ha : Anchored s)
    (hx : s.cur.x < s.geo.cols) (c : Nat) :
    Anchored (showMessage d s c) ∧ (showMessage d s c).cur.x < (showMessage d s c).geo.cols := by
  have hpos : s.geo.origin + 2 * s.cur.x ≤ s.cur.pos := ha
  obtain ⟨hwrap, hwrapx⟩ := anchored_vteLf_vteCr hd ha
  have hwrapcols : (vteLf d (vteCr s)).cur.x < (vteLf d (vteCr s)).geo.cols := by
    rw [hwrapx, vteLf_cols]
    exact Nat.zero_lt_of_lt hx
  rw [showMessage]
  split
  · rw [vteBs]
    split
    · refine ⟨?_, ?_⟩
      · show s.geo.origin + 2 * (s.cur.x - 1) ≤ s.cur.pos - 2
        omega
      · show s.cur.x - 1 < s.geo.cols
        omega
    · exact ⟨ha, hx⟩
  split
  · refine ⟨?_, ?_⟩
    · show s.geo.origin + 2 * 0 ≤ s.cur.pos - 2 * s.cur.x
      omega
    · exact Nat.zero_lt_of_lt hx
  split
  · exact ⟨hwrap, hwrapcols⟩
  · rw [storeGlyph_replace h.replace]
    refine anchored_advance ?_ ?_
    · show Anchored (wrapPending d s)
      rw [wrapPending]
      split
      · exact hwrap
      · exact ha
    · show (wrapPending d s).cur.x < (wrapPending d s).geo.cols
      rw [wrapPending]
      split
      · exact hwrapcols
      · exact hx

theorem glyphCell_zero (attr : BitVec 8) (g : Nat) :
    glyphCell 0 attr g = (attr.setWidth 16 <<< 8) + BitVec.ofNat 16 g := by
  rw [glyphCell, if_neg (by decide)]

theorem printCell_step {p : Printing} (hp : p.Counts) (hw : p.con.cur.needWrap = false)
    (hawm : p.con.modes.decawm = true) (c : Nat) : (printCell p c).Counts ∧
      (printCell p c).synced = advance (p.synced.scrWritew (glyphCell 0 p.con.rend.attr c)
        p.con.cur.pos) := by
  have hcol := hp.column
  have hcount : p.con.cur.x + p.cnt = p.myx := by
    rcases Nat.eq_zero_or_pos p.cnt with h0 | hpos
    · rw [h0, Nat.add_zero, hp.idle h0]
    · exact hp.inside hpos hw
  rw [glyphCell_zero]
  generalize hv : (p.con.rend.attr.setWidth 16 <<< 8) + BitVec.ofNat 16 c = v
  by_cases hlast : p.myx = p.con.geo.cols - 1
  · have hprint : printCell p c = { p with
        con := { p.con.scrWritew v p.con.cur.pos with cur.needWrap := true }, cnt := p.cnt + 1 } := by
      rw [printCell, hv]
      exact if_pos hlast
    have hadvance : advance (p.synced.scrWritew v p.con.cur.pos) =
        { p.synced.scrWritew v p.con.cur.pos with cur.needWrap := p.con.modes.decawm } :=
      if_pos hlast
    rw [hprint, hadvance, hawm]
    refine ⟨⟨hcol, fun h => absurd h (Nat.succ_ne_zero _), fun _ _ => ⟨?_, ?_⟩, ?_⟩, rfl⟩
    · show p.con.cur.x + (p.cnt + 1) = p.myx + 1
      omega
    · show p.myx + 1 = p.con.geo.cols
      omega
    · exact fun _ h => Bool.noConfusion h
  · have hprint : printCell p c = { p with
        con := { p.con.scrWritew v p.con.cur.pos with cur.pos := p.con.cur.pos + 2 }
        myx := p.myx + 1, cnt := p.cnt + 1 } := by
      rw [printCell, hv]
      exact if_neg hlast
    have hadvance : advance (p.synced.scrWritew v p.con.cur.pos) =
        { p.synced.scrWritew v p.con.cur.pos with
          cur := { p.synced.cur with x := p.myx + 1, pos := p.con.cur.pos + 2 } } := if_neg hlast
    rw [hprint, hadvance]
    refine ⟨⟨?_, fun h => absurd h (Nat.succ_ne_zero _), ?_, fun _ _ => ?_⟩, rfl⟩
    · show p.myx + 1 < p.con.geo.cols
      omega
    · exact fun _ h => absurd (hw.symm.trans h) (by decide)
    · show p.con.cur.x + (p.cnt + 1) = p.myx + 1
      omega

theorem printByte_flushed (hd : Rides d) (h : Plain s) (ha : Anchored s)
    (hx : s.cur.x < s.geo.cols) {c : Nat} (hc : MessageChar c)
    (hf : c = 10 ∨ c = 13 ∨ c = 8 ∨ s.cur.needWrap = true) :
    ∃ p : Printing, p.Counts ∧ p.synced = showMessage d s c ∧
      p = if c = 8 then .at (vteBs s)
        else if c = 10 ∨ c = 13 then .at (vteCr (if c ≠ 13 then vteLf d s else s))
        else printCell (.at (vteCr (if c ≠ 13 then vteLf d s else s))) c := by
  have hline : vteCr (vteLf d s) = vteLf d (vteCr s) := (vteCr_vteLf hd ha).1.symm
  obtain ⟨hanchor, hhome⟩ := anchored_vteLf_vteCr hd ha
  have hhomecols : (vteLf d (vteCr s)).cur.x < (vteLf d (vteCr s)).geo.cols := by
    rw [hhome, vteLf_cols]
    exact Nat.zero_lt_of_lt hx
  have hshown := anchored_showMessage hd h ha hx c
  refine ⟨_, ?_, ?_, rfl⟩
  · rcases hc with ⟨h20, h7f⟩ | rfl | rfl | rfl
    · rw [if_neg (by omega), if_neg (by omega), if_pos (by omega), hline]
      have hm := sameMode_vteLf (d := d) (vteCr s)
      refine (printCell_step (Printing.Counts.at hhomecols) rfl ?_ c).1
      show (vteLf d (vteCr s)).modes.decawm = true
      rw [hm.modes]
      exact h.autowrap
    · rw [if_neg (by decide), if_pos (.inl rfl), if_pos (by decide), hline]
      exact .at hhomecols
    · rw [if_neg (by decide), if_pos (.inr rfl), if_neg (by decide)]
      exact .at (Nat.zero_lt_of_lt hx)
    · rw [if_pos rfl]
      exact .at hshown.2
  · rcases hc with ⟨h20, h7f⟩ | rfl | rfl | rfl
    · have hwrap : s.cur.needWrap = true := by
        rcases hf with rfl | rfl | rfl | hw
        · omega
        · omega
        · omega
        · exact hw
      have hm := sameMode_vteLf (d := d) (vteCr s)
      have hawm : (vteLf d (vteCr s)).modes.decawm = true := by
        rw [hm.modes]
        exact h.autowrap
      have hpending : wrapPending d s = vteLf d (vteCr s) := if_pos hwrap
      rw [if_neg (by omega), if_neg (by omega), if_pos (by omega), hline,
        (printCell_step (Printing.Counts.at hhomecols) rfl hawm c).2, showMessage,
        if_neg (by omega), if_neg (by omega), if_neg (by omega), storeGlyph_replace h.replace,
        hpending]
      show advance ((vteLf d (vteCr s)).scrWritew (glyphCell 0 (vteLf d (vteCr s)).rend.attr c) _) =
        _
      rw [hm.rend]
      rfl
    · rw [if_neg (by decide), if_pos (.inl rfl), if_pos (by decide), hline]
      rfl
    · rw [if_neg (by decide), if_pos (.inr rfl), if_neg (by decide)]
      rfl
    · rw [if_pos rfl]
      rfl

/-- **The message path** shows the character, and keeps count of the columns. -/
theorem print_char (hd : Rides d) {p : Printing} (hp : p.Counts) (h : Plain p.synced)
    (ha : Anchored p.synced) {c : Nat} (hc : MessageChar c) :
    (printByte d p c).Counts ∧
      (printByte d p c).synced.undrawn = (showMessage d p.synced c).undrawn := by
  by_cases hf : c = 10 ∨ c = 13 ∨ c = 8 ∨ p.con.cur.needWrap = true
  · have hflush := printFlush_undrawn hp
    have hm : SameMode p.synced (printFlush p) := (SameMode.refl p.synced).of_undrawn hflush
    obtain ⟨hcur, hgeo⟩ := cursor_of_undrawn hflush
    have hx : (printFlush p).cur.x < (printFlush p).geo.cols := by
      rw [hcur, hgeo]
      exact hp.column
    have hf' : c = 10 ∨ c = 13 ∨ c = 8 ∨ (printFlush p).cur.needWrap = true := by
      rw [hcur]
      exact hf
    obtain ⟨q, hq, hsynced, hdef⟩ := printByte_flushed hd (h.of_sameMode hm)
      (ha.of_undrawn hflush) hx hc hf'
    have hbyte : printByte d p c = q := by
      rw [hdef, printByte, if_pos hf]
    rw [hbyte, hsynced]
    exact ⟨hq, (blind_showMessage c).congr hflush⟩
  · have hbyte : printByte d p c = printCell p c := if_neg hf
    have hprint : 0x20 ≤ c ∧ c < 0x7f := by
      rcases hc with hc | rfl | rfl | rfl
      · exact hc
      · exact absurd (.inl rfl) hf
      · exact absurd (.inr (.inl rfl)) hf
      · exact absurd (.inr (.inr (.inl rfl))) hf
    have hwrap : p.con.cur.needWrap = false := by
      rw [← Bool.not_eq_true]
      exact fun hw => hf (.inr (.inr (.inr hw)))
    obtain ⟨hcount, hsynced⟩ := printCell_step hp hwrap h.autowrap c
    have hpending : wrapPending d p.synced = p.synced := by
      rw [wrapPending, if_neg]
      show ¬ p.con.cur.needWrap = true
      rw [hwrap]
      exact Bool.false_ne_true
    rw [hbyte]
    refine ⟨hcount, ?_⟩
    rw [hsynced, showMessage, if_neg (by omega), if_neg (by omega), if_neg (by omega),
      storeGlyph_replace h.replace, hpending]
    rfl

/-! ### A whole message -/

/-- **The text agrees**: after any part of it the message path, `vc_x` brought up to date, is where
the terminal path is. -/
theorem text_agrees (hd : Rides d) (text : List Nat) (hc : ∀ c ∈ text, MessageChar c) :
    ∀ (p : Printing) (w : Con × Batch), p.Counts → Plain w.1 → Anchored w.1 →
      p.synced.undrawn = w.1.undrawn →
      (text.foldl (printByte d) p).Counts ∧ (text.foldl (printByte d) p).synced.undrawn =
        (writeLoop d 0 w (text.flatMap crLf)).1.undrawn ∧
      SameMode w.1 (writeLoop d 0 w (text.flatMap crLf)).1 := by
  induction text with
  | nil => exact fun p w hp _ _ he => ⟨hp, he, .refl _⟩
  | cons c text ih =>
    intro p w hp h ha he
    have hchar := hc c List.mem_cons_self
    have hm : SameMode w.1 p.synced := (SameMode.refl w.1).of_undrawn he
    obtain ⟨hcur, hgeo⟩ := cursor_of_undrawn he
    have hx : w.1.cur.x < w.1.geo.cols := by
      rw [← hcur, ← hgeo]
      exact hp.column
    obtain ⟨hcount, hprint⟩ := print_char hd hp (h.of_sameMode hm) (ha.of_undrawn he) hchar
    have hterm := terminal_char hd h ha hchar
    have hshow := (blind_showMessage (d := d) c).congr he
    have hanchor' := (anchored_showMessage hd h ha hx c).1
    have hcut : writeLoop d 0 w ((c :: text).flatMap crLf) =
        writeLoop d 0 (writeLoop d 0 w (crLf c)) (text.flatMap crLf) := by
      rw [List.flatMap_cons, writeLoop, List.foldl_append]
      rfl
    have hmode : SameMode w.1 (writeLoop d 0 w (crLf c)).1 :=
      (sameMode_showMessage w.1 c).of_undrawn hterm
    obtain ⟨hcount', htext, hmode'⟩ := ih (fun c' hc' => hc c' (List.mem_cons_of_mem _ hc')) _ _
      hcount (h.of_sameMode hmode) (hanchor'.of_undrawn hterm) (by rw [hprint, hshow, hterm])
    rw [hcut]
    exact ⟨hcount', htext, hmode.trans hmode'⟩

/-! ### The screen behind the cursor -/

/-- The screen with the cell under a drawn software cursor replaced by the saved one. -/
def Con.logical (s : Con) : Nat → Cell :=
  if s.vt.visible then
    match s.vt.cursorOriginal with
    | some orig => Function.update s.mem s.cur.pos orig
    | none => s.mem
  else s.mem

/-- The two consoles show the same: screen, cursor, cursor address and pending wrap. -/
structure Agrees (a b : Con) : Prop where
  logical : a.logical = b.logical
  cursor : a.cur = b.cur
  origin : a.geo.origin = b.geo.origin

theorem Agrees.refl (s : Con) : Agrees s s := ⟨rfl, rfl, rfl⟩

theorem Agrees.trans {a b c : Con} (h : Agrees a b) (h' : Agrees b c) : Agrees a c :=
  ⟨h.logical.trans h'.logical, h.cursor.trans h'.cursor, h.origin.trans h'.origin⟩

theorem Agrees.of_undrawn {s' : Con} (h : s.undrawn = s'.undrawn) : Agrees s s' := by
  obtain ⟨hcur, hgeo⟩ := cursor_of_undrawn h
  have hlogical : s.undrawn.logical = s'.undrawn.logical := by rw [h]
  exact ⟨hlogical, hcur, by rw [hgeo]⟩

theorem logical_undrawn (h : s.vt.visible = true → s.vt.cursorOriginal = none) :
    s.logical = s.mem := by
  rw [Con.logical]
  split
  · next hv => rw [h hv]
  · rfl

/-- **The software cursor** does not change what the console shows. -/
theorem addSoftcursor_agrees (hv : s.vt.visible = true) : Agrees (addSoftcursor s) s := by
  rw [addSoftcursor]
  split
  · exact .refl s
  split
  · exact .refl s
  · next hnone =>
    rw [Option.not_isSome_iff_eq_none] at hnone
    have hover (i : Cell) (ds : List Draw) : Agrees
        { Con.scrWritew { s with vt.cursorOriginal := some (s.mem s.cur.pos) } i s.cur.pos with
          draws := ds } s := by
      refine ⟨?_, rfl, rfl⟩
      rw [logical_undrawn (s := s) fun _ => hnone]
      refine (if_pos hv).trans ?_
      show Function.update (Function.update s.mem s.cur.pos i) s.cur.pos (s.mem s.cur.pos) = s.mem
      rw [Function.update_idem, Function.update_eq_self]
    dsimp only
    split
    · exact hover _ _
    · exact hover _ _

theorem hideCursor_agrees (hv : s.vt.visible = true) : Agrees (hideCursor s) s := by
  rw [hideCursor, hideSoftcursor]
  split
  · exact ⟨rfl, rfl, rfl⟩
  · next orig horig =>
    have hsome : s.vt.cursorOriginal = some orig := horig
    have hoff (ds : List Draw) : Agrees
        { s.scrWritew orig s.cur.pos with vt.cursorOriginal := none, draws := ds } s := by
      refine ⟨?_, rfl, rfl⟩
      rw [logical_undrawn fun _ => rfl, Con.logical, if_pos hv, hsome]
      rfl
    dsimp only
    split
    · exact hoff _
    · exact hoff _

/-- The cursor functions touch the saved cell only, of the display. -/
theorem hideCursor_vt (s : Con) : ∃ o, (hideCursor s).vt = { s.vt with cursorOriginal := o } := by
  rw [hideCursor, hideSoftcursor]
  split
  · exact ⟨_, rfl⟩
  dsimp only
  split
  · exact ⟨_, rfl⟩
  · exact ⟨_, rfl⟩

theorem setCursor_vt (s : Con) : ∃ o, (setCursor s).vt = { s.vt with cursorOriginal := o } := by
  have hadd : ∃ o, (addSoftcursor s).vt = { s.vt with cursorOriginal := o } := by
    rw [addSoftcursor]
    split
    · exact ⟨_, rfl⟩
    split
    · exact ⟨_, rfl⟩
    dsimp only
    split
    · exact ⟨_, rfl⟩
    · exact ⟨_, rfl⟩
  rw [setCursor]
  split
  · exact ⟨_, rfl⟩
  split
  · dsimp only
    split
    · exact hadd
    · exact hadd
  · exact hideCursor_vt s

theorem setCursor_agrees (s : Con) : Agrees (setCursor s) s := by
  rw [setCursor]
  split
  · exact .refl s
  · next hv =>
    have hv : s.vt.visible = true := by
      rw [Bool.or_eq_true, Bool.or_eq_true, Bool.not_eq_true'] at hv
      by_contra hn
      exact hv (.inl (.inl (Bool.eq_false_iff.mpr hn)))
    split
    · refine Agrees.trans ?_ (addSoftcursor_agrees hv)
      dsimp only
      split
      · exact ⟨rfl, rfl, rfl⟩
      · exact .refl _
    · exact hideCursor_agrees hv

/-- Fields of the display other than the saved cell. -/
theorem agrees_vt {vt : Display} (hv : vt.visible = s.vt.visible)
    (ho : vt.cursorOriginal = s.vt.cursorOriginal) : Agrees { s with vt := vt } s := by
  refine ⟨?_, rfl, rfl⟩
  rw [Con.logical, Con.logical, hv, ho]

theorem unblankVt_agrees (h : s.vt.visible = true → s.vt.blanked = false) :
    Agrees (unblankVt d s) s := by
  rw [unblankVt]
  dsimp only
  generalize (if s.vt.visible = true then s.modes.vcMode else s.vt.fgMode) = m
  split
  · exact agrees_vt rfl rfl
  split
  · exact agrees_vt rfl rfl
  split
  · next hb _ hv =>
    rw [h hv] at hb
    exact absurd rfl hb
  · exact agrees_vt rfl rfl

/-- The poke of a display that is not blanked, or blanked behind another console. -/
theorem pokeBlankedConsole_agrees (h : s.vt.visible = true → s.vt.blanked = false) :
    Agrees (pokeBlankedConsole d s) s := by
  rw [pokeBlankedConsole]
  dsimp only
  generalize (if s.vt.visible = true then s.modes.vcMode else s.vt.fgMode) = m
  split
  · exact agrees_vt rfl rfl
  split
  · exact (unblankVt_agrees (s := { s with vt.blankTimerExpired := false }) h).trans
      (agrees_vt rfl rfl)
  split
  · exact agrees_vt rfl rfl
  · exact agrees_vt rfl rfl

/-! ### The two paths -/

/-- A message up to its last `set_cursor`. -/
def printCells (d : Driver) (s : Con) (text : List Nat) : Con :=
  printEnd (text.foldl (printByte d) (.at (undrawCursor s)))

theorem vtConsolePrint_eq (s : Con) (text : List Nat) (oops : Bool)
    (h : s.modes.vcMode = .text) : vtConsolePrint d s text oops =
      if oops then setCursor (printCells d s text)
      else pokeBlankedConsole d (setCursor (printCells d s text)) := by
  rw [vtConsolePrint, if_neg (not_not_intro h)]
  rfl

/-- The cursor taken off leaves the modes and the place of the cursor. -/
theorem undrawCursor_plain (h : Plain s) (ha : Anchored s) :
    Plain (undrawCursor s) ∧ Anchored (undrawCursor s) ∧
      (undrawCursor s).cur = s.cur ∧ (undrawCursor s).geo = s.geo := by
  obtain ⟨hps, hmodes, -, -, huni, -⟩ := undrawCursor_frame s
  obtain ⟨hcur, hgeo⟩ : (undrawCursor s).cur = s.cur ∧ (undrawCursor s).geo = s.geo := by
    rw [undrawCursor]
    split
    · rw [hideCursor, hideSoftcursor]
      split
      · exact ⟨rfl, rfl⟩
      dsimp only
      split
      · exact ⟨rfl, rfl⟩
      · exact ⟨rfl, rfl⟩
    · exact ⟨rfl, rfl⟩
  refine ⟨⟨by rw [hps]; exact h.ground, by rw [hmodes]; exact h.autowrap,
    by rw [hmodes]; exact h.replace, by rw [huni]; exact h.font⟩, ?_, hcur, hgeo⟩
  rw [Anchored, hcur, hgeo]
  exact ha

theorem undrawCursor_vt (s : Con) : (undrawCursor s).vt.visible = s.vt.visible ∧
    (undrawCursor s).vt.blanked = s.vt.blanked := by
  rw [undrawCursor]
  split
  · obtain ⟨o, ho⟩ := hideCursor_vt s
    rw [ho]
    exact ⟨rfl, rfl⟩
  · exact ⟨rfl, rfl⟩

theorem printCells_undrawn (hd : Rides d) (h : Plain s) (himask : s.rend.hiFontMask = 0)
    (ha : Anchored s) (hx : s.cur.x < s.geo.cols) {text : List Nat}
    (hc : ∀ c ∈ text, MessageChar c) :
    (printCells d s text).undrawn = (doConWrite d s (text.flatMap crLf)).undrawn ∧
      (printCells d s text).vt = (undrawCursor s).vt := by
  obtain ⟨hplain, hanchor, hcur, hgeo⟩ := undrawCursor_plain h ha
  have hmask : (undrawCursor s).rend.hiFontMask = 0 := by
    rw [(undrawCursor_frame s).2.2.1]
    exact himask
  have hx' : (undrawCursor s).cur.x < (undrawCursor s).geo.cols := by
    rw [hcur, hgeo]
    exact hx
  obtain ⟨hcount, htext, hmode⟩ := text_agrees hd text hc (.at (undrawCursor s))
    (undrawCursor s, ⟨none, 0, 0⟩) (.at hx') hplain hanchor rfl
  have hcells := (printEnd_undrawn hcount).trans htext
  refine ⟨?_, (hmode.of_undrawn hcells).vt⟩
  rw [doConWrite_eq, undrawn_flush, writeCells, hmask, ← hcells]
  rfl

/-- **A kernel message and the same text on the terminal agree**, on a console in text mode, up to
the poke of the display; and behind it unless it unblanks the display. -/
theorem print_agrees_write (hd : Rides d) (h : Plain s) (himask : s.rend.hiFontMask = 0)
    (htext : s.modes.vcMode = .text) (ha : Anchored s) (hx : s.cur.x < s.geo.cols)
    {text : List Nat} (hc : ∀ c ∈ text, MessageChar c) :
    Agrees (vtConsolePrint d s text true) (doConWrite d s (text.flatMap crLf)) ∧
      vtConsolePrint d s text false = pokeBlankedConsole d (vtConsolePrint d s text true) ∧
      ((s.vt.visible = true → s.vt.blanked = false) →
        Agrees (vtConsolePrint d s text false) (doConWrite d s (text.flatMap crLf))) := by
  obtain ⟨hcells, hvt⟩ := printCells_undrawn hd h himask ha hx hc
  have hoops : Agrees (vtConsolePrint d s text true) (doConWrite d s (text.flatMap crLf)) := by
    rw [vtConsolePrint_eq s text true htext, if_pos rfl]
    exact (setCursor_agrees _).trans (.of_undrawn hcells)
  have hpoke : vtConsolePrint d s text false =
      pokeBlankedConsole d (vtConsolePrint d s text true) := by
    rw [vtConsolePrint_eq s text false htext, vtConsolePrint_eq s text true htext]
    rfl
  refine ⟨hoops, hpoke, fun hb => ?_⟩
  have hkept : (vtConsolePrint d s text true).vt.visible = s.vt.visible ∧
      (vtConsolePrint d s text true).vt.blanked = s.vt.blanked := by
    obtain ⟨o, ho⟩ := setCursor_vt (printCells d s text)
    rw [vtConsolePrint_eq s text true htext, if_pos rfl, ho, hvt]
    exact undrawCursor_vt s
  rw [hpoke]
  refine (pokeBlankedConsole_agrees ?_).trans hoops
  rw [hkept.1, hkept.2]
  exact hb

/-! ### Where the paths part -/

/-- A console that shows ASCII as it is. -/
def asciiCon : Con := { bootCon with uni := some (shiftMap 0) }

theorem plain_asciiCon : Plain asciiCon where
  ground := by decide +kernel
  autowrap := by decide +kernel
  replace := by decide +kernel
  font := by
    intro c h20 h7f
    have hlook : convUniToPc asciiCon.uni c = convLookup asciiCon.uni c := by
      rw [convUniToPc, if_neg (by omega), if_neg (by omega), if_neg (by omega), if_neg (by omega)]
    have hsmall : c < 256 := by omega
    have hmod : (c + 0) % 256 = c := Nat.mod_eq_of_lt hsmall
    rw [hlook]
    show convLookup (some (shiftMap 0)) c = c
    rw [convLookup_shiftMap, if_pos hsmall, hmod]

theorem rides_dummyCon : Rides dummyCon where
  pos := fun _ _ _ _ _ _ h => nomatch h
  blind := fun _ _ _ _ _ _ => rfl

/-- A line, a line feed, a backspace and a letter. -/
theorem print_agrees_write_ascii :
    Agrees (vtConsolePrint dummyCon asciiCon [0x41, 10, 8, 0x42] true)
        (doConWrite dummyCon asciiCon [0x41, 13, 10, 8, 0x42]) ∧
      vtConsolePrint dummyCon asciiCon [0x41, 10, 8, 0x42] false =
        pokeBlankedConsole dummyCon (vtConsolePrint dummyCon asciiCon [0x41, 10, 8, 0x42] true) ∧
      ((asciiCon.vt.visible = true → asciiCon.vt.blanked = false) →
        Agrees (vtConsolePrint dummyCon asciiCon [0x41, 10, 8, 0x42] false)
          (doConWrite dummyCon asciiCon [0x41, 13, 10, 8, 0x42])) :=
  have hc : ∀ c ∈ [0x41, 10, 8, 0x42], MessageChar c := by
    intro c hc
    simp only [List.mem_cons, List.not_mem_nil, or_false] at hc
    rw [MessageChar]
    omega
  print_agrees_write rides_dummyCon plain_asciiCon (by decide +kernel) (by decide +kernel)
    (by rw [Anchored]; decide +kernel) (by decide +kernel) hc

/-- A driver that puts the screen of a console in front at `0x8000`, as one with video memory
does, and asks for a redraw when the display is unblanked. -/
def movingDriver : Driver :=
  { dummyCon with conSetOrigin := fun _ => some 0x8000, conBlank := fun s => (s.mem, true) }

/-- The console in graphics mode, with a software cursor, and with the display blanked. -/
def graphicsCon : Con := { asciiCon with modes.vcMode := .graphics }
def softCon : Con := { asciiCon with rend.cursorType := 0x400011 }
def blankedCon : Con := { asciiCon with vt.blanked := true }

/-- In graphics mode nothing is printed; a software cursor is drawn behind the message; and the
unblanking behind it moves the screen. -/
theorem message_paths_part :
    (Plain graphicsCon ∧ (vtConsolePrint dummyCon graphicsCon [0x41] false).cur ≠
        (doConWrite dummyCon graphicsCon [0x41]).cur) ∧
      (Plain softCon ∧ (vtConsolePrint dummyCon softCon [0x41] false).mem ≠
        (doConWrite dummyCon softCon [0x41]).mem) ∧
      (Plain blankedCon ∧ (vtConsolePrint movingDriver blankedCon [0x41] false).cur ≠
        (doConWrite movingDriver blankedCon [0x41]).cur) := by
  have h := plain_asciiCon
  refine ⟨⟨⟨h.ground, h.autowrap, h.replace, h.font⟩, by decide +kernel⟩,
    ⟨⟨h.ground, h.autowrap, h.replace, h.font⟩, fun he => ?_⟩,
    ⟨⟨h.ground, h.autowrap, h.replace, h.font⟩, by decide +kernel⟩⟩
  have hcell := congrFun he 0x1002
  revert hcell
  decide +kernel

end LinuxConsole

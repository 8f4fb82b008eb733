import LinuxConsole.Lib.Run
import LinuxConsole.Vc.Write
import LinuxConsole.Vte.Sound

/-!
# The geometry of a console over whole runs

`do_con_write`, `vt_console_print` and `vc_resize` keep the invariant `Sound`,
and `vc_init` establishes it.  `ConOp` lists what can happen to a console, and
the main result is `console_geometry`: in every state reached from the one
`vc_init` leaves, cursor, margins, parameter count and cursor address are in
order and no access was out of bounds.

`vt_console_print` stores characters ahead of `vc_x`.  What holds inside its
loop is `InPrint`: the console is sound once its column is set to `myx`, and the
`cnt` characters pending are those between the two columns.
-/

namespace LinuxConsole

open Lib

variable {d : Driver} {N : Nat} {F : List Fault} {s : Con}

/-! ### `do_con_write` -/

theorem Sound.translateByte (h : Sound d N F s) (c : Nat) : Sound d N F (translateByte s c).1 := by
  unfold LinuxConsole.translateByte
  split
  · exact h
  split
  · split <;> exact h
  · exact h

theorem Sound.flush (h : Sound d N F s) (b : Batch) : Sound d N F (flush s b).1 := by
  unfold LinuxConsole.flush
  split <;> exact h

theorem Sound.advance (h : Sound d N F s) : Sound d N F (advance s) := by
  refine Sound.ite (fun _ => h.needWrap _) (fun hne => ?_)
  have hx := h.bounds.x_lt
  refine h.moveTo s.cur.needWrap (x := s.cur.x + 1) (by omega) h.bounds.y_lt fun hd => ?_
  have hp := (h.screen hd).1.pos
  omega

theorem Sound.storeGlyph (h : Sound d N F s) (himask : Cell) (g : Nat) :
    Sound d N F (storeGlyph d himask g s) := by
  have hw : Sound d N F (wrapPending d s) := Sound.ite (fun _ => h.vteCr.vteLf) (fun _ => h)
  have hi : Sound d N F (insertPending (wrapPending d s)) := by
    refine Sound.ite (fun _ => hw.insertChar ?_) (fun _ => hw)
    have hx := hw.bounds.x_lt
    omega
  exact hi.scrWritew _ hi.atCursor

theorem Sound.putGlyph (h : Sound d N F s) (himask : Cell) (g : Nat) (b : Batch) :
    Sound d N F (putGlyph d himask g s b).1 := by
  have hf : Sound d N F (if s.cur.needWrap || s.modes.irm then LinuxConsole.flush s b else (s, b)).1 := by
    split
    · exact h.flush b
    · exact h
  exact (hf.storeGlyph himask g).advance

theorem Sound.writeByte {w : Con × Batch} (h : Sound d N F w.1) (himask : Cell) (c : Nat) :
    Sound d N F (writeByte d himask w c).1 := by
  have ht := h.translateByte c
  unfold LinuxConsole.writeByte
  split
  · next s he =>
    rw [he] at ht
    exact ht
  · next s c tc he =>
    rw [he] at ht
    split
    · dsimp only
      split
      · exact ht
      · exact Sound.putGlyph ht himask _ w.2
    · exact Sound.terminalEmulation (Sound.flush ht w.2) c

theorem Sound.writeLoop {w : Con × Batch} (h : Sound d N F w.1) (himask : Cell) (buf : List Nat) :
    Sound d N F (writeLoop d himask w buf).1 := by
  unfold LinuxConsole.writeLoop
  induction buf generalizing w with
  | nil => exact h
  | cons c buf ih => exact ih (h.writeByte himask c)

theorem Sound.doConWrite (h : Sound d N F s) (buf : List Nat) : Sound d N F (doConWrite d s buf) := by
  refine Sound.flush (Sound.writeLoop ?_ _ buf) _
  exact Sound.ite (fun _ => h.hideCursor) (fun _ => h)

/-! ### `vt_console_print` -/

/-- **The invariant of the loop of `vt_console_print`.**  Between two characters
the column to store in is `myx`; the characters pending end there, one further
when the last of them filled the row. -/
structure InPrint (d : Driver) (N : Nat) (F : List Fault) (p : Printing) : Prop where
  sound : Sound d N F { p.con with cur.x := p.myx }
  none : p.cnt = 0 → p.con.cur.x = p.myx
  some : 0 < p.cnt → p.con.cur.x + p.cnt = p.myx + p.con.cur.needWrap.toNat ∧
    (p.con.cur.needWrap = true → p.myx + 1 = p.con.geo.cols)

theorem InPrint.at (h : Sound d N F s) : InPrint d N F (.at s) :=
  ⟨h, fun _ => rfl, fun hc => absurd hc (Nat.lt_irrefl 0)⟩

@[simp] theorem printDraw_cur (p : Printing) : (printDraw p).cur = p.con.cur := by
  unfold printDraw
  split <;> rfl

@[simp] theorem printDraw_geo (p : Printing) : (printDraw p).geo = p.con.geo := by
  unfold printDraw
  split <;> rfl

/-- The console with the pending characters drawn and its column at `myx`. -/
theorem InPrint.drawn {p : Printing} (h : InPrint d N F p) (w : Bool) :
    Sound d N F { printDraw p with cur := ⟨p.myx, p.con.cur.y, p.con.cur.pos, w⟩ } := by
  have hs := h.sound.needWrap w
  unfold printDraw
  split <;> exact hs

/-- Bringing `vc_x` up to date leaves it at `myx`. -/
theorem InPrint.printFlush {p : Printing} (h : InPrint d N F p) :
    Sound d N F (printFlush p) ∧ (LinuxConsole.printFlush p).cur.needWrap = p.con.cur.needWrap := by
  unfold LinuxConsole.printFlush
  split
  · next hc =>
    obtain ⟨hx, _⟩ := h.some hc
    have hs := h.drawn
    dsimp only
    rw [printDraw_cur]
    cases hw : p.con.cur.needWrap
    · rw [hw, Bool.toNat_false, Nat.add_zero] at hx
      simp only [Bool.false_eq_true, if_false, and_true, hx]
      exact hs false
    · rw [hw, Bool.toNat_true] at hx
      simp only [if_true, and_true, hx, Nat.add_sub_cancel]
      exact hs true
  · next hc =>
    refine ⟨?_, rfl⟩
    have hx := h.none (by omega)
    have hs := h.sound
    rw [← hx] at hs
    exact hs

theorem InPrint.printCell {p : Printing} (h : InPrint d N F p) (hw : p.con.cur.needWrap = false)
    (c : Nat) : InPrint d N F (printCell p c) := by
  have hsum : p.con.cur.x + p.cnt = p.myx := by
    rcases Nat.eq_zero_or_pos p.cnt with hc | hc
    · rw [hc, h.none hc, Nat.add_zero]
    · have := (h.some hc).1
      rw [hw] at this
      exact this
  have hx := h.sound.bounds.x_lt
  have hs := Sound.scrWritew h.sound
    ((p.con.rend.attr.setWidth 16 <<< 8) + BitVec.ofNat 16 c) h.sound.atCursor
  unfold LinuxConsole.printCell
  dsimp only
  split
  · next hlast =>
    refine ⟨hs.needWrap true, fun hc => absurd hc (Nat.succ_ne_zero _), fun _ => ⟨?_, fun _ => ?_⟩⟩
    · show p.con.cur.x + (p.cnt + 1) = p.myx + 1
      omega
    · have hlast : p.myx = p.con.geo.cols - 1 := hlast
      show p.myx + 1 = p.con.geo.cols
      have : p.myx < p.con.geo.cols := hx
      omega
  · next hlast =>
    have hlast : ¬ p.myx = p.con.geo.cols - 1 := hlast
    have hx : p.myx < p.con.geo.cols := hx
    refine ⟨?_, fun hc => absurd hc (Nat.succ_ne_zero _), fun _ => ⟨?_, fun hn => ?_⟩⟩
    · refine hs.moveTo p.con.cur.needWrap (x := p.myx + 1) (by show p.myx + 1 < p.con.geo.cols; omega)
        h.sound.bounds.y_lt fun hd => ?_
      have hp : p.con.cur.pos = p.con.geo.origin + p.con.cur.y * p.con.geo.sizeRow + 2 * p.myx :=
        (h.sound.screen hd).1.pos
      show p.con.cur.pos + 2 =
        p.con.geo.origin + p.con.cur.y * p.con.geo.sizeRow + 2 * (p.myx + 1)
      omega
    · show p.con.cur.x + (p.cnt + 1) = p.myx + 1 + p.con.cur.needWrap.toNat
      rw [hw]
      show _ = p.myx + 1
      omega
    · have hn : p.con.cur.needWrap = true := hn
      rw [hw] at hn
      exact absurd hn (by decide)

theorem InPrint.printByte {p : Printing} (h : InPrint d N F p) (c : Nat) :
    InPrint d N F (printByte d p c) := by
  unfold LinuxConsole.printByte
  split
  · have hf := h.printFlush.1
    dsimp only
    split
    · exact InPrint.at hf.vteBs
    · have hl : Sound d N F (if c ≠ 13 then LinuxConsole.vteLf d (LinuxConsole.printFlush p)
          else LinuxConsole.printFlush p) := Sound.ite (fun _ => hf.vteLf) (fun _ => hf)
      split
      · exact InPrint.at hl.vteCr
      · exact (InPrint.at hl.vteCr).printCell rfl c
  · next hc =>
    refine h.printCell ?_ c
    simp only [not_or, Bool.not_eq_true] at hc
    exact hc.2.2.2

theorem InPrint.printLoop {p : Printing} (h : InPrint d N F p) (b : List Nat) :
    InPrint d N F (b.foldl (LinuxConsole.printByte d) p) := by
  induction b generalizing p with
  | nil => exact h
  | cons c b ih => exact ih (h.printByte c)

theorem InPrint.printEnd {p : Printing} (h : InPrint d N F p) : Sound d N F (printEnd p) := by
  unfold LinuxConsole.printEnd
  split
  · next hc =>
    obtain ⟨hx, hlast⟩ := h.some hc
    have hlt : p.myx < p.con.geo.cols := h.sound.bounds.x_lt
    have hg := printDraw_geo p
    dsimp only
    rw [printDraw_cur]
    cases hw : p.con.cur.needWrap
    · rw [hw, Bool.toNat_false, Nat.add_zero] at hx
      rw [hx, if_neg (by rw [hg]; omega)]
      exact h.drawn false
    · rw [hw, Bool.toNat_true] at hx
      have hlast := hlast hw
      rw [hx, if_pos (by rw [hg]; exact hlast), Nat.add_sub_cancel]
      exact h.drawn true
  · next hc =>
    have hx := h.none (by omega)
    have hs := h.sound
    rw [← hx] at hs
    exact hs

theorem Sound.vtConsolePrint (h : Sound d N F s) (b : List Nat) (oops : Bool) :
    Sound d N F (vtConsolePrint d s b oops) := by
  unfold LinuxConsole.vtConsolePrint
  have hh : Sound d N F (if s.vt.visible then LinuxConsole.hideCursor s else s) :=
    Sound.ite (fun _ => h.hideCursor) (fun _ => h)
  have hs := ((InPrint.at hh).printLoop b).printEnd.setCursor
  exact Sound.ite (fun _ => h)
    (fun _ => Sound.ite (fun _ => hs) (fun _ => hs.pokeBlankedConsole))

/-! ### `vc_resize` -/

/-- What the copy of the rows leaves alone, and what it may record. -/
structure Copied (d : Driver) (s s' : Con) : Prop where
  geo : s'.geo = s.geo
  cur : s'.cur = s.cur
  ps : s'.ps = s.ps
  modes : s'.modes = s.modes
  arrays : arrayFaults s'.faults = arrayFaults s.faults
  cells : Inert d → s'.faults = s.faults

theorem Copied.refl (d : Driver) (s : Con) : Copied d s s := ⟨rfl, rfl, rfl, rfl, rfl, fun _ => rfl⟩

theorem Copied.trans {s₁ s₂ s₃ : Con} (h : Copied d s₁ s₂) (h' : Copied d s₂ s₃) :
    Copied d s₁ s₃ :=
  ⟨h'.geo.trans h.geo, h'.cur.trans h.cur, h'.ps.trans h.ps, h'.modes.trans h.modes,
    h'.arrays.trans h.arrays, fun hd => (h'.cells hd).trans (h.cells hd)⟩

/-- A check of the new buffer that passes whenever the driver is inert. -/
theorem Copied.checkBuffer {lo hi a n : Nat} (h : Inert d → lo ≤ a ∧ a + 2 * n ≤ hi) :
    Copied d s (s.checkBuffer lo hi a n) := by
  refine ⟨rfl, rfl, rfl, rfl, ?_, fun hd => ?_⟩
  · unfold Con.checkBuffer Con.check
    dsimp only
    split <;> rfl
  · obtain ⟨h1, h2⟩ := h hd
    simp [Con.checkBuffer, Con.check, h1, h2]

theorem Copied.fillBuffer {lo hi a n : Nat} (c : Cell)
    (h : Inert d → lo ≤ a ∧ a + 2 * n ≤ hi) : Copied d s (s.fillBuffer lo hi a c n) := by
  have hc := Copied.checkBuffer (d := d) (s := s) h
  exact ⟨hc.geo, hc.cur, hc.ps, hc.modes, hc.arrays, hc.cells⟩

theorem Copied.scrMemcpyw {lo hi : Nat} (t a n : Nat)
    (h : Inert d → lo ≤ t ∧ t + 2 * n ≤ hi) : Copied d s (s.scrMemcpyw lo hi t a n) := by
  have hc := Copied.checkBuffer (d := d) (s := s) h
  exact ⟨hc.geo, hc.cur, hc.ps, hc.modes, hc.arrays, hc.cells⟩

/-- **The copy of the rows stays inside the new buffer**: `r` rows are left in
the old one, and there is room for `r` rows in the new one. -/
theorem Copied.copyRows {lo hi oldRow newRow : Nat} (fuel ol nl : Nat)
    (h : Inert d → ∃ r, s.geo.scrEnd ≤ ol + r * oldRow ∧ lo ≤ nl ∧ nl + r * newRow ≤ hi) :
    Copied d s (copyRows lo hi oldRow newRow fuel ol nl s).1 ∧
      (Inert d → lo ≤ (LinuxConsole.copyRows lo hi oldRow newRow fuel ol nl s).2) := by
  induction fuel generalizing s ol nl with
  | zero => exact ⟨.refl d s, fun hd => by obtain ⟨_, _, hl, _⟩ := h hd; exact hl⟩
  | succ fuel ih =>
    unfold LinuxConsole.copyRows
    split
    · next hlt =>
      -- a row is left in the old buffer, so there is room for one in the new
      have hr : Inert d → ∃ r, s.geo.scrEnd ≤ ol + oldRow + r * oldRow ∧ lo ≤ nl ∧
          nl + newRow + r * newRow ≤ hi := by
        intro hd
        obtain ⟨r, h1, h2, h3⟩ := h hd
        cases r with
        | zero => omega
        | succ r =>
          rw [Nat.add_mul] at h1 h3
          exact ⟨r, by omega, h2, by omega⟩
      have hm : Copied d s (s.scrMemcpyw lo hi nl ol (min oldRow newRow / 2)) :=
        Copied.scrMemcpyw nl ol _ fun hd => by
          obtain ⟨r, _, h2, h3⟩ := hr hd
          exact ⟨h2, by omega⟩
      have hf : Copied d s (if newRow - min oldRow newRow ≠ 0 then
          (s.scrMemcpyw lo hi nl ol (min oldRow newRow / 2)).fillBuffer lo hi
            (nl + min oldRow newRow)
            (s.scrMemcpyw lo hi nl ol (min oldRow newRow / 2)).rend.videoEraseChar
            ((newRow - min oldRow newRow) / 2)
          else s.scrMemcpyw lo hi nl ol (min oldRow newRow / 2)) := by
        split
        · refine hm.trans (Copied.fillBuffer _ fun hd => ?_)
          obtain ⟨r, _, h2, h3⟩ := hr hd
          exact ⟨by omega, by omega⟩
        · exact hm
      have hrec := ih (ol + oldRow) (nl + newRow) fun hd => by
        obtain ⟨r, h1, h2, h3⟩ := hr hd
        refine ⟨r, ?_, by omega, h3⟩
        rw [hf.geo]
        exact h1
      exact ⟨hf.trans hrec.1, hrec.2⟩
    · exact ⟨.refl d s, fun hd => by obtain ⟨_, _, hl, _⟩ := h hd; exact hl⟩

theorem Copied.ite {p : Prop} [Decidable p] {a b : Con} (ha : p → Copied d s a)
    (hb : ¬ p → Copied d s b) : Copied d s (if p then a else b) := by
  split
  · next hp => exact ha hp
  · next hp => exact hb hp

theorem Copied.copyScreen (oldRows oldRow buf : Nat)
    (h : Inert d → s.geo.scrEnd = s.geo.origin + oldRows * oldRow)
    (hss : s.geo.screenbufSize = s.geo.rows * s.geo.sizeRow) :
    Copied d s (copyScreen s oldRows oldRow buf) := by
  have hroom : Inert d → ∃ r, s.geo.scrEnd ≤ (s.geo.origin +
      if s.geo.rows < oldRows then (oldRows - s.geo.rows) * oldRow else 0) + r * oldRow ∧
      buf ≤ buf ∧ buf + r * s.geo.sizeRow ≤ buf + s.geo.screenbufSize := by
    intro hd
    refine ⟨min oldRows s.geo.rows, ?_, Nat.le_refl _, ?_⟩
    · rw [h hd]
      split
      · next hlt =>
        rw [Nat.min_eq_right (Nat.le_of_lt hlt), Nat.add_assoc, ← Nat.add_mul,
          Nat.sub_add_cancel (Nat.le_of_lt hlt)]
      · next hge => rw [Nat.min_eq_left (Nat.le_of_not_lt hge), Nat.add_zero]
    · rw [hss]
      exact Nat.add_le_add_left (Nat.mul_le_mul_right _ (Nat.min_le_right _ _)) _
  have hr := Copied.copyRows (s.geo.scrEnd - (s.geo.origin +
    if s.geo.rows < oldRows then (oldRows - s.geo.rows) * oldRow else 0)) _ _ hroom
  unfold LinuxConsole.copyScreen
  refine Copied.ite (fun _ => hr.1.trans (Copied.fillBuffer _ fun hd => ?_)) (fun _ => hr.1)
  have hl := hr.2 hd
  exact ⟨hl, by omega⟩

/-- `gotoxy` does not look at the cursor it replaces. -/
theorem Sound.gotoxy_of {c : Cursor} (h : Sound d N F { s with cur := c }) (x y : Int) :
    Sound d N F (LinuxConsole.gotoxy s x y) := Sound.gotoxy h x y

/-- A console with a screen of `cols` by `rows` at any origin, its cursor at
home and its margins around the screen, is sound. -/
theorem sound_home {cols rows : Nat} (hc : 1 ≤ cols) (hc' : cols ≤ N) (hr : 1 ≤ rows)
    (hr' : rows < 2 ^ 31) (hps : ParserOk s.ps) (hcols : s.geo.cols = cols)
    (hrows : s.geo.rows = rows) (hrow : s.geo.sizeRow = 2 * cols)
    (hsize : s.geo.screenbufSize = rows * (2 * cols))
    (hend : s.geo.scrEnd = s.geo.origin + s.geo.screenbufSize)
    (harr : N ≤ 256 → arrayFaults s.faults = F) (hcells : Inert d → cellFaults s.faults = [])
    (w : Bool) :
    Sound d N F { s with cur := ⟨0, 0, s.geo.origin, w⟩, mar := ⟨0, s.geo.rows⟩ } where
  bounds :=
    { cols_pos := by rw [hcols]; exact hc
      cols_le := by rw [hcols]; exact hc'
      rows_lt := by rw [hrows]; exact hr'
      sizeRow := by rw [hrow, hcols]
      bufSize := by rw [hsize, hrows, hrow]
      x_lt := by rw [hcols]; exact hc
      y_lt := by rw [hrows]; exact hr
      top_lt := by rw [hrows]; exact hr
      bottom_le := Nat.le_refl _ }
  parser := hps
  arrays := harr
  screen := fun hd => ⟨⟨by simp, hend⟩, hcells hd⟩

theorem Sound.resizeTo (h : Sound d N F s) {cols rows : Nat} (buf : Nat)
    (hc : 1 ≤ cols) (hc' : cols ≤ N) (hr : 1 ≤ rows) (hr' : rows < 2 ^ 31) :
    Sound d N F (resizeTo d s cols rows buf) := by
  have hcopy := Copied.copyScreen (d := d) (s := LinuxConsole.updateAttr d (setSize s cols rows))
    s.geo.rows s.geo.sizeRow buf
    (fun hd => by
      have he := (h.screen hd).1.scrEnd
      rwa [h.bounds.bufSize] at he)
    (Nat.mul_comm _ _)
  unfold LinuxConsole.resizeTo
  dsimp only
  generalize LinuxConsole.copyScreen _ _ _ buf = s' at hcopy
  have hgeo : s'.geo = (setSize s cols rows).geo := hcopy.geo
  have hhome := sound_home (d := d) (N := N) (F := F)
    (s := LinuxConsole.setOrigin d { s' with geo.screenbuf := buf, vt.kmalloced := true })
    hc hc' hr hr' (by show ParserOk s'.ps; rw [hcopy.ps]; exact h.parser)
    (by show s'.geo.cols = cols; rw [hgeo]; rfl) (by show s'.geo.rows = rows; rw [hgeo]; rfl)
    (by show s'.geo.sizeRow = 2 * cols; rw [hgeo]; rfl)
    (by show s'.geo.screenbufSize = rows * (2 * cols); rw [hgeo]; exact Nat.mul_comm _ _) rfl
    (fun hN => hcopy.arrays.trans (h.arrays hN))
    (fun hd => by
      show cellFaults s'.faults = []
      rw [hcopy.cells hd]
      exact (h.screen hd).2) false
  refine Sound.ite (fun _ => Sound.updateScreen (Sound.vteDecsc ?_)) (fun _ => Sound.vteDecsc ?_)
  · exact Sound.gotoxy_of hhome _ _
  · exact Sound.gotoxy_of hhome _ _

/-- The columns a resize leads to. -/
def resizeCols (s : Con) (cols : Nat) : Nat := if cols ≠ 0 then cols else s.geo.cols

/-- **A resize keeps the invariant** whatever it is asked for, as long as the
new screen has at most `N` columns. -/
theorem Sound.vcResize (h : Sound d N F s) {cols lines : Nat} {buf : Option Nat}
    (hN : cols ≤ vcResizeMaxcol → resizeCols s cols ≤ N) :
    Sound d N F (vcResize d s cols lines buf).1 := by
  have hcp := h.bounds.cols_pos
  have hrl := h.bounds.rows_lt
  have hy := h.bounds.y_lt
  unfold LinuxConsole.vcResize
  split
  · exact h
  next hmax =>
  simp only [vcResizeMaxcol, vcResizeMaxrow, not_or, Nat.not_lt] at hmax
  have hN := hN hmax.1
  dsimp only
  change (if cols ≠ 0 then cols else s.geo.cols) ≤ N at hN
  have hnc : 1 ≤ (if cols ≠ 0 then cols else s.geo.cols) := by
    split <;> omega
  have hnr : 1 ≤ (if lines ≠ 0 then lines else s.geo.rows) ∧
      (if lines ≠ 0 then lines else s.geo.rows) < 2 ^ 31 := by
    split <;> omega
  generalize (if cols ≠ 0 then cols else s.geo.cols) = newCols at hN hnc ⊢
  generalize (if lines ≠ 0 then lines else s.geo.rows) = newRows at hnr ⊢
  split
  · exact h
  split
  · exact h
  next buf =>
  split
  · exact h
  exact h.resizeTo buf hnc hN hnr.1 hnr.2

/-! ### Runs -/

theorem sound_vcInit (d : Driver) (i : ConInit) (screenbuf : Nat) (mem : Nat → Cell) (vt : Display)
    (uni : Option UniPagedir) (userMap : Nat → Nat) (doClear : Bool) (hc : 1 ≤ i.cols) (hc' : i.cols ≤ N)
    (hr : 1 ≤ i.rows) (hr' : i.rows < 2 ^ 31) :
    Sound d N [] (vcInit d (visualInit i screenbuf mem vt uni userMap) doClear) := by
  have hhome := sound_home (d := d) (N := N) (F := [])
    (s := setOrigin d (visualInit i screenbuf mem vt uni userMap)) hc hc' hr hr'
    ⟨show 0 < NPAR by decide, fun he => by cases he⟩ rfl rfl rfl rfl rfl
    (fun _ => rfl) (fun _ => rfl) false
  refine Sound.vteRis_of ?_ doClear
  unfold resetVc resetPalette setPalette
  split <;> exact hhome

theorem sound_boot : Sound dummyCon 80 [] bootCon :=
  sound_vcInit dummyCon dummyConInit 0x1000 _ _ none defaultUserMap true (by decide) (by decide)
    (by decide) (by decide)

theorem inert_dummy : Inert dummyCon := fun _ _ _ _ _ => rfl

/-- What can happen to a console: a write, the `set_cursor` after it, a kernel
message, a resize, a change of the display's own fields by the rest of the
kernel (a console switch, a blanking, another console's write), a redraw. -/
inductive ConOp
  | write (buf : List Nat)
  | flushChars
  | print (b : List Nat) (oops : Bool)
  | resize (cols lines : Nat) (newscreen : Option Nat)
  | display (vt : Display)
  | redraw

/-- One step of a console. -/
def conStep (d : Driver) (s : Con) : ConOp → Con
  | .write buf => doConWrite d s buf
  | .flushChars => setCursor s
  | .print b oops => vtConsolePrint d s b oops
  | .resize cols lines newscreen => (vcResize d s cols lines newscreen).1
  | .display vt => { s with vt := vt }
  | .redraw => updateScreen d s

/-- A resize asks for at most `N` columns. -/
def ConOp.within (N : Nat) : ConOp → Prop
  | .resize cols _ _ => cols ≤ N
  | _ => True

/-- **One step keeps the invariant.** -/
theorem Sound.conStep (h : Sound d N F s) (op : ConOp) (hop : op.within N) :
    Sound d N F (conStep d s op) := by
  cases op with
  | write buf => exact h.doConWrite buf
  | flushChars => exact h.setCursor
  | print b oops => exact h.vtConsolePrint b oops
  | resize cols lines buf =>
    refine h.vcResize fun _ => ?_
    unfold resizeCols
    split
    · exact hop
    · exact h.bounds.cols_le
  | display vt => exact h
  | redraw => exact h.updateScreen

theorem Sound.run (h : Sound d N F s) (ops : List ConOp) (hops : ∀ op ∈ ops, op.within N) :
    Sound d N F (Lib.run (LinuxConsole.conStep d) s ops) := by
  induction ops generalizing s with
  | nil => exact h
  | cons op ops ih =>
    exact ih (h.conStep op (hops op List.mem_cons_self))
      fun o ho => hops o (List.mem_cons_of_mem _ ho)

/-- A list without array faults and without cell faults is empty. -/
theorem faults_eq_nil {fs : List Fault} (ha : arrayFaults fs = []) (hc : cellFaults fs = []) :
    fs = [] := by
  cases fs with
  | nil => rfl
  | cons f fs =>
    exfalso
    cases hf : f.isCell
    · simp [arrayFaults, hf] at ha
    · simp [cellFaults, hf] at hc

/-- **The geometry invariant of the emulator.**  From the state `vc_init`
leaves on a screen of at most 256 columns, under a driver whose scroll hook
returns 0, every run of writes, kernel messages, resizes and events of the
display keeps cursor, margins, parameter count and addresses in order, and no
access falls outside the array or the screen it is made to. -/
theorem console_geometry (d : Driver) (hd : Inert d) (i : ConInit) (screenbuf : Nat)
    (mem : Nat → Cell) (vt : Display) (uni : Option UniPagedir) (userMap : Nat → Nat) (doClear : Bool)
    (hc : 1 ≤ i.cols) (hc' : i.cols ≤ 256) (hr : 1 ≤ i.rows)
    (hsize : i.rows * (2 * i.cols) < 2 ^ 32) (ops : List ConOp)
    (hops : ∀ op ∈ ops, op.within 256) :
    let s := Lib.run (conStep d) (vcInit d (visualInit i screenbuf mem vt uni userMap) doClear) ops
    s.cur.x < s.geo.cols ∧ s.cur.y < s.geo.rows ∧
      s.mar.top < s.mar.bottom ∧ s.mar.bottom ≤ s.geo.rows ∧ s.ps.npar < NPAR ∧
      s.cur.pos = s.geo.origin + s.cur.y * s.geo.sizeRow + 2 * s.cur.x ∧
      s.geo.scrEnd = s.geo.origin + s.geo.screenbufSize ∧ s.faults = [] := by
  have hrows : i.rows < 2 ^ 31 := by
    have : i.rows * 2 ≤ i.rows * (2 * i.cols) := Nat.mul_le_mul_left _ (by omega)
    omega
  intro s
  have h : Sound d 256 [] s :=
    (sound_vcInit d i screenbuf mem vt uni userMap doClear hc hc' hr hrows).run ops hops
  exact ⟨h.bounds.x_lt, h.bounds.y_lt, h.bounds.top_lt, h.bounds.bottom_le, h.parser.npar_lt,
    (h.screen hd).1.pos, (h.screen hd).1.scrEnd,
    faults_eq_nil (h.arrays (Nat.le_refl _)) (h.screen hd).2⟩

/-- A write that scrolls and inserts, a message and a resize to 132 by 43. -/
theorem console_geometry_dummyCon :
    let s := Lib.run (conStep dummyCon) bootCon
      [.write [0x1b, 0x5b, 0x34, 0x68, 0x41, 0x0a], .print [0x42, 0x0a] false,
        .resize 132 43 (some 0x9000), .write [0x1b, 0x5b, 0x39, 0x39, 0x43]]
    s.cur.x < s.geo.cols ∧ s.cur.y < s.geo.rows ∧
      s.mar.top < s.mar.bottom ∧ s.mar.bottom ≤ s.geo.rows ∧ s.ps.npar < NPAR ∧
      s.cur.pos = s.geo.origin + s.cur.y * s.geo.sizeRow + 2 * s.cur.x ∧
      s.geo.scrEnd = s.geo.origin + s.geo.screenbufSize ∧ s.faults = [] :=
  console_geometry dummyCon (fun _ _ _ _ _ => rfl) dummyConInit 0x1000 (fun _ => 0) bootDisplay none
    defaultUserMap true (by decide) (by decide) (by decide) (by decide) _
    (by simp [ConOp.within])

end LinuxConsole

import LinuxConsole.Vc.TabStops

/-!
# What a write shows

The draw batching of `do_con_write` and the split of a string into several
writes change only the record of what was drawn.  `writes_plain` says so for
bytes that show a glyph: the screen after the writes is the one that showing
their glyphs one after the other leaves, `showByte`.

`Blind f` says that `f` does not look at that record, and `SameMode` what the
storing of a glyph leaves alone.
-/

namespace LinuxConsole

variable {d : Driver} {s : Con}

/-- The console without the record of what was drawn. -/
def Con.undrawn (s : Con) : Con := { s with draws := [] }

/-! ### Steps that do not look at the record -/

/-- A step that does not look at the record of what was drawn. -/
def Blind (f : Con → Con) : Prop := ∀ s ds, (f { s with draws := ds }).undrawn = (f s).undrawn

theorem Blind.congr {f : Con → Con} (hf : Blind f) {s s' : Con} (h : s.undrawn = s'.undrawn) :
    (f s).undrawn = (f s').undrawn := by
  have hs : s = { s' with draws := s.draws } := by
    calc s = { s.undrawn with draws := s.draws } := rfl
      _ = { s'.undrawn with draws := s.draws } := by rw [h]
  rw [hs]
  exact hf s' s.draws

theorem Blind.comp {f g : Con → Con} (hg : Blind g) (hf : Blind f) : Blind (fun s => g (f s)) :=
  fun s ds => hg.congr (hf s ds)

theorem Blind.foldl {α : Type} {f : Con → α → Con} (hf : ∀ a, Blind (fun s => f s a))
    (as : List α) : Blind (fun s => as.foldl f s) := by
  induction as with
  | nil => intro s ds; rfl
  | cons a as ih => exact ih.comp (hf a)

theorem blind_scrollRegionUp (t b : Nat) (nr : Int) :
    Blind fun s => scrollRegionUp d s t b nr := by
  intro s ds
  have hseen (ds : List Draw) : Con.seen { s with draws := ds } = s.seen := rfl
  show (scrollRegionUp d { s with draws := ds } t b nr).undrawn = (scrollRegionUp d s t b nr).undrawn
  rw [scrollRegionUp, scrollRegionUp]
  dsimp only
  split
  · rfl
  rw [hseen (ds ++ _), hseen (s.draws ++ _)]
  generalize (if s.vt.visible = true then
    d.conScrollRegion s.seen t b .up (scrollCount t b nr).toNat else none) = r
  cases r with
  | none => rfl
  | some r => rfl

theorem blind_needWrap (w : Bool) : Blind fun s => { s with cur.needWrap := w } := fun _ _ => rfl

theorem blind_vteLf : Blind (vteLf d) := by
  intro s ds
  have hscroll : Blind fun s' => { scrollRegionUp d s' s.mar.top s.mar.bottom 1 with
      cur.needWrap := false } := (blind_needWrap false).comp (blind_scrollRegionUp _ _ 1)
  rw [vteLf, vteLf]
  dsimp only
  split
  · exact hscroll s ds
  split
  · rfl
  · rfl

theorem blind_vteCr : Blind vteCr := fun _ _ => rfl

theorem blind_wrapPending : Blind (wrapPending d) := by
  intro s ds
  rw [wrapPending, wrapPending]
  split
  · exact (blind_vteLf.comp blind_vteCr) s ds
  · rfl

theorem insertLoop_draws (q nr k : Nat) (s : Con) (ds : List Draw) :
    insertLoop q nr k { s with draws := ds } = { insertLoop q nr k s with draws := ds } := by
  induction k generalizing s with
  | zero => rfl
  | succ k ih => exact ih (s.scrWritew (s.mem (q + 2 * k)) (q + 2 * (k + nr)))

theorem blind_insertPending : Blind insertPending := by
  intro s ds
  unfold insertPending
  dsimp only
  split
  · unfold insertChar
    dsimp only
    rw [insertLoop_draws]
    have hv : ∀ s' : Con, (Con.scrMemsetw { s' with draws := ds } s.cur.pos
        s'.rend.videoEraseChar 1).vt = (s'.scrMemsetw s.cur.pos s'.rend.videoEraseChar 1).vt :=
      fun _ => rfl
    rw [hv]
    split <;> rfl
  · rfl

theorem blind_storeGlyph (himask : Cell) (g : Nat) : Blind (storeGlyph d himask g) :=
  (show Blind fun s : Con => s.scrWritew (glyphCell himask s.rend.attr g) s.cur.pos from
    fun _ _ => rfl).comp (blind_insertPending.comp blind_wrapPending)

theorem blind_advance : Blind advance := by
  intro s ds
  unfold advance
  dsimp only
  split <;> rfl

/-! ### What storing a glyph leaves alone -/

/-- The fields that decide how a byte is read and shown. -/
structure SameMode (s s' : Con) : Prop where
  ps : s'.ps = s.ps
  dec : s'.dec = s.dec
  modes : s'.modes = s.modes
  rend : s'.rend = s.rend
  chars : s'.chars = s.chars
  uni : s'.uni = s.uni
  vt : s'.vt = s.vt

theorem SameMode.refl (s : Con) : SameMode s s := ⟨rfl, rfl, rfl, rfl, rfl, rfl, rfl⟩

theorem SameMode.trans {s₁ s₂ s₃ : Con} (h : SameMode s₁ s₂) (h' : SameMode s₂ s₃) :
    SameMode s₁ s₃ :=
  ⟨h'.ps.trans h.ps, h'.dec.trans h.dec, h'.modes.trans h.modes, h'.rend.trans h.rend,
    h'.chars.trans h.chars, h'.uni.trans h.uni, h'.vt.trans h.vt⟩

/-- `SameMode` does not see the record of what was drawn. -/
theorem SameMode.of_undrawn {s s₁ s₂ : Con} (h : SameMode s s₁) (he : s₂.undrawn = s₁.undrawn) :
    SameMode s s₂ :=
  ⟨(congrArg Con.ps he).trans h.ps, (congrArg Con.dec he).trans h.dec,
    (congrArg Con.modes he).trans h.modes, (congrArg Con.rend he).trans h.rend,
    (congrArg Con.chars he).trans h.chars, (congrArg Con.uni he).trans h.uni,
    (congrArg Con.vt he).trans h.vt⟩

theorem SameMode.ite {p : Prop} [Decidable p] {s a b : Con} (ha : p → SameMode s a)
    (hb : ¬ p → SameMode s b) : SameMode s (if p then a else b) := by
  split
  · next hp => exact ha hp
  · next hp => exact hb hp

theorem SameMode.cursor {s s' : Con} (h : SameMode s s') (c : Cursor) :
    SameMode s { s' with cur := c } := ⟨h.ps, h.dec, h.modes, h.rend, h.chars, h.uni, h.vt⟩

theorem SameMode.mapCells {s s' : Con} (h : SameMode s s') (a n : Nat) (f : Cell → Cell) :
    SameMode s (s'.mapCells a n f) := ⟨h.ps, h.dec, h.modes, h.rend, h.chars, h.uni, h.vt⟩

theorem SameMode.scrMemsetw {s s' : Con} (h : SameMode s s') (a : Nat) (c : Cell) (n : Nat) :
    SameMode s (s'.scrMemsetw a c n) := h.mapCells a n fun _ => c

theorem SameMode.scrWritew {s s' : Con} (h : SameMode s s') (c : Cell) (a : Nat) :
    SameMode s (s'.scrWritew c a) := ⟨h.ps, h.dec, h.modes, h.rend, h.chars, h.uni, h.vt⟩

theorem SameMode.scrMemmovew {s s' : Con} (h : SameMode s s') (t a n : Nat) :
    SameMode s (s'.scrMemmovew t a n) := ⟨h.ps, h.dec, h.modes, h.rend, h.chars, h.uni, h.vt⟩

theorem SameMode.scrolled {s s' : Con} (h : SameMode s s') (r : Scrolled) :
    SameMode s (s'.scrolled r) := ⟨h.ps, h.dec, h.modes, h.rend, h.chars, h.uni, h.vt⟩

theorem SameMode.draw {s s' : Con} (h : SameMode s s') (ds : List Draw) :
    SameMode s (s'.draw ds) := ⟨h.ps, h.dec, h.modes, h.rend, h.chars, h.uni, h.vt⟩

theorem sameMode_scrollRegionUp (s : Con) (t b : Nat) (nr : Int) :
    SameMode s (scrollRegionUp d s t b nr) := by
  unfold scrollRegionUp
  dsimp only
  split
  · exact .refl s
  split
  · exact ((SameMode.refl s).draw _).scrolled _
  · exact (((SameMode.refl s).draw _).scrMemmovew _ _ _).mapCells _ _ _

theorem sameMode_vteLf (s : Con) : SameMode s (vteLf d s) := by
  refine SameMode.cursor ?_ _
  split
  · exact sameMode_scrollRegionUp s s.mar.top s.mar.bottom 1
  split
  · exact (SameMode.refl s).cursor _
  · exact .refl s

theorem sameMode_wrapPending (s : Con) : SameMode s (wrapPending d s) := by
  unfold wrapPending
  split
  · exact ((SameMode.refl s).cursor _).trans (sameMode_vteLf (d := d) (vteCr s))
  · exact .refl s

theorem sameMode_insertLoop (q nr k : Nat) (s : Con) : SameMode s (insertLoop q nr k s) := by
  induction k generalizing s with
  | zero => exact .refl s
  | succ k ih => exact ((SameMode.refl s).scrWritew _ _).trans (ih _)

theorem sameMode_insertPending (s : Con) : SameMode s (insertPending s) := by
  unfold insertPending
  split
  · have h := sameMode_insertLoop s.cur.pos 1 (s.geo.cols - 1 - s.cur.x) s
    unfold insertChar
    dsimp only
    generalize insertLoop s.cur.pos 1 (s.geo.cols - 1 - s.cur.x) s = s' at h
    have hf := h.scrMemsetw s.cur.pos s'.rend.videoEraseChar 1
    exact SameMode.ite (fun _ => (hf.cursor _).draw _) (fun _ => hf.cursor _)
  · exact .refl s

theorem sameMode_storeGlyph (himask : Cell) (g : Nat) (s : Con) :
    SameMode s (storeGlyph d himask g s) :=
  ((sameMode_wrapPending (d := d) s).trans (sameMode_insertPending _)).scrWritew _ _

theorem sameMode_advance (s : Con) : SameMode s (advance s) := by
  unfold advance
  split <;> exact (SameMode.refl s).cursor _

/-! ### Showing characters -/

/-- The glyph shown for the character `c` with translation `tc`, if there is one. -/
def glyphShown (himask : Cell) (uni : Option UniPagedir) (c tc : Nat) : Option Nat :=
  if shownGlyph uni c tc < 0 ∨ shownGlyph uni c tc > charmask himask then none
  else some (shownGlyph uni c tc).toNat

/-- A glyph in the next cell. -/
def displayGlyph (d : Driver) (himask : Cell) (s : Con) : Option Nat → Con
  | none => s
  | some g => advance (storeGlyph d himask g s)

/-- The glyph of the character `c` with translation `tc` in the next cell. -/
def displayChar (d : Driver) (himask : Cell) (s : Con) (c tc : Nat) : Con :=
  displayGlyph d himask s (glyphShown himask s.uni c tc)

theorem blind_displayGlyph (himask : Cell) (g : Option Nat) :
    Blind fun s => displayGlyph d himask s g := by
  cases g with
  | none => intro s ds; rfl
  | some g => exact blind_advance.comp (blind_storeGlyph himask g)

theorem sameMode_displayGlyph (himask : Cell) (g : Option Nat) (s : Con) :
    SameMode s (displayGlyph d himask s g) := by
  cases g with
  | none => exact .refl s
  | some g => exact (sameMode_storeGlyph himask g s).trans (sameMode_advance _)

theorem blind_displayChar (himask : Cell) (c tc : Nat) :
    Blind fun s => displayChar d himask s c tc := fun s ds =>
  blind_displayGlyph himask (glyphShown himask s.uni c tc) s ds

/-- The cursor taken off the screen at the start of a write. -/
def undrawCursor (s : Con) : Con := if s.vt.visible then hideCursor s else s

/-- What the code shows for a byte of a ground state: the glyph of the byte
itself.  `0x9b` is never shown. -/
def showByte (d : Driver) (himask : Cell) (s : Con) (c : Nat) : Con :=
  if c = 0x9b then s else displayChar d himask s c c

/-- A byte that is not a control character of the console. -/
def PlainByte (s : Con) (c : Nat) : Prop :=
  0x20 ≤ c ∧ c ≠ 0x7f ∧ (c = 0x9b → s.modes.c8bit = false)

theorem blind_showByte (himask : Cell) (c : Nat) : Blind fun s => showByte d himask s c := by
  intro s ds
  unfold showByte
  split
  · rfl
  · exact blind_displayChar himask c c s ds

theorem sameMode_showByte (himask : Cell) (s : Con) (c : Nat) :
    SameMode s (showByte d himask s c) := by
  unfold showByte
  split
  · exact .refl s
  · exact sameMode_displayGlyph himask _ s

theorem undrawn_flush (s : Con) (b : Batch) : (flush s b).1.undrawn = s.undrawn := by
  obtain ⟨ds, h⟩ := flush_fst s b
  rw [h]
  rfl

theorem undrawn_putGlyph (himask : Cell) (g : Nat) (s : Con) (b : Batch) :
    (putGlyph d himask g s b).1.undrawn = (displayGlyph d himask s (some g)).undrawn := by
  have hf : (if s.cur.needWrap || s.modes.irm then flush s b else (s, b)).1.undrawn =
      s.undrawn := by
    split
    · exact undrawn_flush s b
    · rfl
  exact (blind_displayGlyph (d := d) himask (some g)).congr hf

theorem glyphOk_plain {c : Nat} (h : 0x20 ≤ c) (h' : c ≠ 0x7f) (h'' : c ≠ 0x9b) (s : Con) :
    glyphOk s c c = true := by
  have h0 : c ≠ 0 := by omega
  have h155 : c ≠ 128 + 27 := h''
  simp [glyphOk, h, h', h0, h155]

/-- **One plain byte in ground state shows its own glyph.** -/
theorem writeByte_plain (himask : Cell) {w : Con × Batch} {c : Nat} (hs : w.1.ps.state = .init)
    (hc : PlainByte w.1 c) :
    (writeByte d himask w c).1.undrawn = (showByte d himask w.1 c).undrawn := by
  obtain ⟨h20, h7f, h9b⟩ := hc
  have ht : translateByte w.1 c = (w.1, some (c, c)) := if_pos hs
  unfold writeByte
  rw [ht]
  dsimp only
  by_cases hc9b : c = 0x9b
  · have hok : glyphOk w.1 c c = false := by
      rw [hc9b]
      simp [glyphOk]
    have hidle : ∀ s : Con, s.ps.state = .init → s.modes.c8bit = false →
        terminalEmulation d s c = s := by
      intro s hi h8
      unfold terminalEmulation
      rw [c0Control_none h20 h7f, h8]
      simp only [Bool.false_eq_true, if_false]
      unfold emulateState
      rw [hi]
      dsimp only
      rw [← hi]
      rfl
    rw [hok, if_neg (by simp)]
    obtain ⟨ds, hf⟩ := flush_fst w.1 w.2
    dsimp only
    rw [hf, hidle { w.1 with draws := ds } hs (h9b hc9b)]
    unfold showByte
    rw [if_pos hc9b]
    rfl
  · rw [glyphOk_plain h20 h7f hc9b, if_pos ⟨hs, rfl⟩]
    unfold showByte displayChar glyphShown
    rw [if_neg hc9b]
    split
    · rfl
    · exact undrawn_putGlyph himask _ w.1 w.2

theorem writeLoop_plain (himask : Cell) (buf : List Nat) {w : Con × Batch}
    (hs : w.1.ps.state = .init) (hc : ∀ c ∈ buf, PlainByte w.1 c) :
    (writeLoop d himask w buf).1.undrawn = (buf.foldl (showByte d himask) w.1).undrawn := by
  induction buf generalizing w with
  | nil => rfl
  | cons c buf ih =>
    have hstep := writeByte_plain (d := d) himask hs (hc c List.mem_cons_self)
    have hm := (sameMode_showByte (d := d) himask w.1 c).of_undrawn hstep
    have hrest := ih (w := writeByte d himask w c) (by rw [hm.ps]; exact hs) fun c' hc' => by
      obtain ⟨h1, h2, h3⟩ := hc c' (List.mem_cons_of_mem _ hc')
      exact ⟨h1, h2, fun h => by rw [hm.modes]; exact h3 h⟩
    show (writeLoop d himask (writeByte d himask w c) buf).1.undrawn = _
    rw [hrest]
    exact (Blind.foldl (blind_showByte (d := d) himask) buf).congr hstep

theorem sameMode_foldl_showByte (himask : Cell) (buf : List Nat) (s : Con) :
    SameMode s (buf.foldl (showByte d himask) s) := by
  induction buf generalizing s with
  | nil => exact .refl s
  | cons c buf ih => exact (sameMode_showByte himask s c).trans (ih _)

/-! ### Several writes -/

/-- Successive writes. -/
def writes (d : Driver) (s : Con) (chunks : List (List Nat)) : Con := chunks.foldl (doConWrite d) s

/-- What `undrawCursor` changes: the screen memory and the display's cursor. -/
theorem undrawCursor_frame (s : Con) :
    (undrawCursor s).ps = s.ps ∧ (undrawCursor s).modes = s.modes ∧
      (undrawCursor s).rend = s.rend ∧ (undrawCursor s).chars = s.chars ∧
      (undrawCursor s).uni = s.uni ∧
      ((undrawCursor s).vt.visible = true → (undrawCursor s).vt.cursorOriginal = none) := by
  unfold undrawCursor
  split
  · unfold hideCursor hideSoftcursor
    split
    · next h => exact ⟨rfl, rfl, rfl, rfl, rfl, fun _ => h⟩
    · dsimp only
      split <;> exact ⟨rfl, rfl, rfl, rfl, rfl, fun _ => rfl⟩
  · next h => exact ⟨rfl, rfl, rfl, rfl, rfl, fun hv => absurd hv h⟩

/-- A console whose cursor is off the screen already. -/
theorem undrawn_undrawCursor (h : s.vt.visible = true → s.vt.cursorOriginal = none) :
    (undrawCursor s).undrawn = s.undrawn := by
  unfold undrawCursor
  split
  · next hv =>
    unfold hideCursor hideSoftcursor
    rw [show (s.draw [.cursorErase]).vt = s.vt from rfl, h hv]
    rfl
  · rfl

theorem doConWrite_plain {buf : List Nat} (hs : s.ps.state = .init)
    (hc : ∀ c ∈ buf, PlainByte s c) :
    (doConWrite d s buf).undrawn =
      (buf.foldl (showByte d s.rend.hiFontMask) (undrawCursor s)).undrawn := by
  obtain ⟨hps, hmodes, hrend, -, -, -⟩ := undrawCursor_frame s
  have hw := writeLoop_plain (d := d) s.rend.hiFontMask buf (w := (undrawCursor s, ⟨none, 0, 0⟩))
    (by rw [hps]; exact hs) fun c hb => by
      obtain ⟨h1, h2, h3⟩ := hc c hb
      exact ⟨h1, h2, fun h => by rw [hmodes]; exact h3 h⟩
  rw [← hw]
  show (doConWrite d s buf).undrawn = _
  unfold doConWrite
  rw [show (if s.vt.visible = true then hideCursor s else s) = undrawCursor s from rfl]
  dsimp only
  rw [undrawn_flush, hrend]

/-- **The chunking of a string of plain bytes does not matter.** -/
theorem writes_plain (chunks : List (List Nat)) (hs : s.ps.state = .init) (hne : chunks ≠ [])
    (hc : ∀ c ∈ chunks.flatten, PlainByte s c) :
    (writes d s chunks).undrawn =
      (chunks.flatten.foldl (showByte d s.rend.hiFontMask) (undrawCursor s)).undrawn := by
  induction chunks generalizing s with
  | nil => exact absurd rfl hne
  | cons buf rest ih =>
    rw [List.flatten_cons] at hc ⊢
    have h1 := doConWrite_plain (d := d) hs fun c hb => hc c (List.mem_append_left _ hb)
    have hm := (sameMode_foldl_showByte (d := d) s.rend.hiFontMask buf (undrawCursor s)).of_undrawn h1
    obtain ⟨hps, hmodes, hrend, -, -, hhid⟩ := undrawCursor_frame s
    have hcr : ∀ c ∈ rest.flatten, PlainByte (doConWrite d s buf) c := fun c hr => by
      obtain ⟨g1, g2, g3⟩ := hc c (List.mem_append_right _ hr)
      exact ⟨g1, g2, fun h => by rw [hm.modes, hmodes]; exact g3 h⟩
    rw [List.foldl_append]
    show (writes d (doConWrite d s buf) rest).undrawn = _
    have hfold : ∀ {t : Con}, t.undrawn = (buf.foldl (showByte d s.rend.hiFontMask)
        (undrawCursor s)).undrawn → (rest.flatten.foldl (showByte d s.rend.hiFontMask) t).undrawn =
        (rest.flatten.foldl (showByte d s.rend.hiFontMask)
          (buf.foldl (showByte d s.rend.hiFontMask) (undrawCursor s))).undrawn :=
      fun ht => (Blind.foldl (blind_showByte (d := d) _) _).congr ht
    rcases rest with _ | ⟨buf', rest⟩
    · exact h1
    · have hrest := ih (s := doConWrite d s buf) (by rw [hm.ps, hps]; exact hs) (by simp) hcr
      rw [hrest, show (doConWrite d s buf).rend.hiFontMask = s.rend.hiFontMask by
        rw [hm.rend, hrend]]
      refine hfold ?_
      rw [undrawn_undrawCursor (s := doConWrite d s buf), h1]
      rw [hm.vt]
      exact hhid

end LinuxConsole

import LinuxConsole.Vte.Frame
import LinuxConsole.Vc.Display

/-!
# What a write hands to the emulator

A byte of a write moves the decoder, is shown, or **is handed to the emulator**: `handed s c` is
the character the emulator is given, and `writeByte_handed` and `frame_writeByte` say that a byte
is the emulator's step on that character or keeps the frame.
-/

namespace LinuxConsole

variable {d : Driver} {s : Con}

/-- The character a byte hands to the emulator. -/
def handed (s : Con) (c : Nat) : Option Nat :=
  match (translateByte s c).2 with
  | some (ch, tc) =>
    if s.ps.state = .init ∧ glyphOk (translateByte s c).1 ch tc then none else some ch
  | none => none

/-- A byte that is translated leaves all but the decoder. -/
theorem translateByte_fst (s : Con) (c : Nat) :
    ∃ u, (translateByte s c).1 = { s with dec := u } := by
  rw [translateByte]
  split
  · exact ⟨s.dec, rfl⟩
  split
  · split
    · exact ⟨_, rfl⟩
    · exact ⟨_, rfl⟩
  · exact ⟨s.dec, rfl⟩

theorem translateByte_ps (s : Con) (c : Nat) : (translateByte s c).1.ps = s.ps := by
  obtain ⟨u, he⟩ := translateByte_fst s c
  rw [he]

theorem frame_translateByte (s : Con) (c : Nat) : Frame s (translateByte s c).1 := by
  obtain ⟨u, he⟩ := translateByte_fst s c
  rw [he]
  exact frame_dec s u

/-- Nothing is batched for a console that is not in front. -/
def Batch.Fits (b : Batch) (s : Con) : Prop := s.vt.visible = false → b.drawX = none

theorem Batch.Fits.of_visible {b : Batch} {s' : Con} (h : b.Fits s)
    (hv : s'.vt.visible = s.vt.visible) : b.Fits s' := fun hn => h (hv ▸ hn)

theorem frame_flush {b : Batch} (hb : b.Fits s) : Frame s (flush s b).1 := by
  rw [flush]
  split
  · exact .refl s
  · next x hx =>
    refine frame_draw ?_ _
    by_contra hv
    rw [hb (Bool.eq_false_iff.mpr hv)] at hx
    contradiction

theorem fits_flush {b : Batch} (hb : b.Fits s) : (flush s b).2.Fits s := by
  intro hv
  rw [flush, hb hv]
  exact hb hv

theorem flush_ps (s : Con) (b : Batch) : (flush s b).1.ps = s.ps := by
  rw [flush]
  split
  · rfl
  · rfl

/-- Nothing of the display is touched before a character is handed over. -/
theorem handed_vt (s : Con) (c : Nat) (b : Batch) :
    (flush (translateByte s c).1 b).1.vt = s.vt := by
  obtain ⟨u, he⟩ := translateByte_fst s c
  rw [flush, he]
  split
  · rfl
  · rfl

theorem frame_advance (s : Con) : Frame s (advance s) :=
  .ite (fun _ => frame_cursor s _) fun _ => frame_cursor s _

theorem frame_storeGlyph (himask : Cell) (g : Nat) (s : Con) :
    Frame s (storeGlyph d himask g s) := by
  have hwrap : Frame s (wrapPending d s) :=
    .ite (fun _ => (frame_vteCr s).trans (frame_vteLf _)) fun _ => .refl s
  have hinsert (s : Con) : Frame s (insertPending s) :=
    .ite (fun _ => frame_insertChar s 1) fun _ => .refl s
  exact (hwrap.trans (hinsert _)).trans (frame_scrWritew _ _ _)

theorem fits_extend {b : Batch} (hb : b.Fits s) : (b.extend s).Fits s := by
  intro hv
  have hn : (s.vt.visible && b.drawX.isNone) = false := by rw [hv]; rfl
  rw [Batch.extend, if_neg (by rw [hn]; exact Bool.false_ne_true)]
  exact hb hv

theorem frame_putGlyph (himask : Cell) (g : Nat) {b : Batch} (hb : b.Fits s) :
    Frame s (putGlyph d himask g s b).1 ∧ (putGlyph d himask g s b).2.Fits s := by
  have hstore (s' : Con) (b' : Batch) (h : Frame s s') (hb' : b'.Fits s) :
      Frame s (advance (storeGlyph d himask g s')) ∧
        (b'.extend (storeGlyph d himask g s')).Fits s := by
    have h' := h.trans (frame_storeGlyph (d := d) himask g s')
    refine ⟨h'.trans (frame_advance _), ?_⟩
    exact (fits_extend (hb'.of_visible h'.visible)).of_visible h'.visible.symm
  have hflush : Frame s (if s.cur.needWrap || s.modes.irm then flush s b else (s, b)).1 ∧
      (if s.cur.needWrap || s.modes.irm then flush s b else (s, b)).2.Fits s := by
    split
    · exact ⟨frame_flush hb, fits_flush hb⟩
    · exact ⟨.refl s, hb⟩
  exact hstore _ _ hflush.1 hflush.2

/-- **A byte that is not handed over** keeps the frame. -/
theorem frame_writeByte (himask : Cell) {w : Con × Batch} {c : Nat} (hb : w.2.Fits w.1)
    (h : handed w.1 c = none) : Frame w.1 (writeByte d himask w c).1 ∧
      (writeByte d himask w c).2.Fits w.1 := by
  have htr := frame_translateByte w.1 c
  have hps := translateByte_ps w.1 c
  rw [handed] at h
  rw [writeByte]
  generalize translateByte w.1 c = t at htr hps h
  obtain ⟨s, o⟩ := t
  cases o with
  | none => exact ⟨htr, hb⟩
  | some p =>
    obtain ⟨ch, tc⟩ := p
    have hshown : s.ps.state = .init ∧ glyphOk s ch tc = true := by
      by_contra hn
      rw [hps] at hn
      simp [hn] at h
    simp only [hshown, and_self, if_true]
    split
    · exact ⟨htr, hb⟩
    · have hput := frame_putGlyph (d := d) himask (shownGlyph s.uni ch tc).toNat
        (hb.of_visible htr.visible)
      exact ⟨htr.trans hput.1, hput.2.of_visible htr.visible.symm⟩

/-- **A byte that is handed over** is a step of the emulator, behind a flush. -/
theorem writeByte_handed (himask : Cell) {w : Con × Batch} {c ch : Nat}
    (h : handed w.1 c = some ch) : writeByte d himask w c =
      (terminalEmulation d (flush (translateByte w.1 c).1 w.2).1 ch,
        (flush (translateByte w.1 c).1 w.2).2) := by
  have hps := translateByte_ps w.1 c
  rw [handed] at h
  rw [writeByte]
  generalize translateByte w.1 c = t at hps h
  obtain ⟨s, o⟩ := t
  cases o with
  | none => contradiction
  | some p =>
    obtain ⟨ch', tc⟩ := p
    by_cases hn : s.ps.state = .init ∧ glyphOk s ch' tc = true
    · rw [hps] at hn
      simp [hn] at h
    · rw [hps] at hn
      obtain rfl : ch' = ch := by simpa [hn] using h
      rw [← hps] at hn
      simp only [if_neg hn]

/-! ### A whole write -/

/-- The console and the batch between two bytes. -/
theorem steady_writeByte (himask : Cell) {w : Con × Batch} (hb : w.2.Fits w.1) (c : Nat) :
    Steady w.1 (writeByte d himask w c).1 ∧ (writeByte d himask w c).2.Fits w.1 := by
  cases h : handed w.1 c with
  | none =>
    obtain ⟨hf, hb'⟩ := frame_writeByte (d := d) himask hb h
    exact ⟨hf.steady, hb'⟩
  | some ch =>
    have htr := frame_translateByte w.1 c
    have hb1 := hb.of_visible htr.visible
    rw [writeByte_handed himask h]
    exact ⟨(htr.trans (frame_flush hb1)).steady.trans (steady_terminalEmulation _ ch),
      (fits_flush hb1).of_visible htr.visible.symm⟩

theorem keeps_undrawCursor (s : Con) : Keeps s (undrawCursor s) :=
  .ite (fun _ => keeps_hideCursor s) fun _ => .refl s

theorem fits_none (s : Con) : Batch.Fits ⟨none, 0, 0⟩ s := fun _ => rfl

theorem steady_writeLoop (himask : Cell) (buf : List Nat) : ∀ {w : Con × Batch}, w.2.Fits w.1 →
    Steady w.1 (writeLoop d himask w buf).1 ∧ (writeLoop d himask w buf).2.Fits w.1 := by
  induction buf with
  | nil => exact fun hb => ⟨(Keeps.refl _).steady, hb⟩
  | cons c buf ih =>
    intro w hb
    obtain ⟨hs, hb'⟩ := steady_writeByte (d := d) himask hb c
    obtain ⟨hs', hb''⟩ := ih (hb'.of_visible hs.visible)
    exact ⟨hs.trans hs', hb''.of_visible hs.visible.symm⟩

/-- A write up to its last flush. -/
def writeCells (d : Driver) (s : Con) (buf : List Nat) : Con × Batch :=
  writeLoop d (undrawCursor s).rend.hiFontMask (undrawCursor s, ⟨none, 0, 0⟩) buf

theorem doConWrite_eq (s : Con) (buf : List Nat) :
    doConWrite d s buf = (flush (writeCells d s buf).1 (writeCells d s buf).2).1 := rfl

theorem steady_writeCells (s : Con) (buf : List Nat) :
    Steady s (writeCells d s buf).1 ∧ (writeCells d s buf).2.Fits (writeCells d s buf).1 := by
  obtain ⟨hs, hb⟩ := steady_writeLoop (d := d) (undrawCursor s).rend.hiFontMask buf
    (w := (undrawCursor s, ⟨none, 0, 0⟩)) (fits_none _)
  exact ⟨(keeps_undrawCursor s).steady.trans hs, hb.of_visible hs.visible⟩

/-- **A write keeps the size of the screen and its place.** -/
theorem steady_doConWrite (s : Con) (buf : List Nat) : Steady s (doConWrite d s buf) := by
  obtain ⟨hs, hb⟩ := steady_writeCells (d := d) s buf
  rw [doConWrite_eq]
  exact hs.trans (frame_flush hb).steady

theorem steady_writes (chunks : List (List Nat)) : ∀ s : Con, Steady s (writes d s chunks) := by
  induction chunks with
  | nil => exact fun s => (Keeps.refl s).steady
  | cons buf chunks ih => exact fun s => (steady_doConWrite s buf).trans (ih _)

end LinuxConsole

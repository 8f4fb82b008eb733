import LinuxConsole.Vc.Reset
import LinuxConsole.Vte.Still

/-!
# Writing to a console behind another

The console in front and one behind it share the memory, each with a buffer of its own, and the
display.  `background_write_iff` says when a write to the one behind goes unnoticed in front: no
drawing hook is called, the display is not unblanked, a selection is not cleared, and the buffer,
cursor and modes of the console in front stay.

Three sequences break it: **the screen alignment test `ESC # 8`**, which redraws its console
without a look at whether it is in front, `CSI ? n m`, which clears a selection on any console, and
`CSI 9 ]` and `CSI 13 ]` when they unblank the display.
-/

namespace LinuxConsole

open Lib

variable {d : Driver} {s s' s'' : Con}

/-! ### What a byte does behind the front -/

/-- What every byte does to a console that is not in front: it stays on its own screen, and what it
does to the display can only grow. -/
structure Behind (s s' : Con) : Prop where
  geo : s'.geo = s.geo
  mem : Contained s s'
  draws : s.draws <+: s'.draws
  blanked : s'.vt.blanked ≤ s.vt.blanked
  selection : s.requests.count .clearSelection ≤ s'.requests.count .clearSelection

theorem Unseen.behind (h : Unseen s s') : Behind s s' :=
  ⟨h.geo, h.mem, by rw [h.draws], by rw [h.blanked], by rw [h.selection]⟩

theorem Behind.trans (h : Behind s s') (h' : Behind s' s'') : Behind s s'' where
  geo := h'.geo.trans h.geo
  mem := h.mem.trans h.geo h'.mem
  draws := h.draws.trans h'.draws
  blanked := h'.blanked.trans h.blanked
  selection := h.selection.trans h'.selection

/-- What is seen of a console behind the front, growing. -/
def trace (selected : Bool) (s : Con) : Nat × Bool × Nat :=
  (s.draws.length, !s.vt.blanked, if selected then s.requests.count .clearSelection else 0)

theorem Behind.trace_le (h : Behind s s') (selected : Bool) :
    trace selected s ≤ trace selected s' := by
  refine ⟨h.draws.length_le, ?_, ?_⟩
  · have hb := h.blanked
    revert hb
    simp only [trace]
    cases s.vt.blanked <;> cases s'.vt.blanked <;> decide
  · simp only [trace]
    split
    · exact h.selection
    · exact le_refl 0

theorem Unseen.trace_eq (h : Unseen s s') (selected : Bool) : trace selected s' = trace selected s := by
  rw [trace, trace, h.draws, h.blanked, h.selection]

/-- The character leaves no trace. -/
def Con.Calm (selected : Bool) (s : Con) (c : Nat) : Prop :=
  s.aligns c = false ∧ (s.pokes c && wakes s) = false ∧ (selected && s.deselects c) = false

theorem emulateState_aligns {c : Nat} (hv : s.vt.visible = false) (h : s.aligns c = true) :
    Behind s (emulateState d s c) ∧ (emulateState d s c).draws.length = s.draws.length + 1 := by
  simp only [Con.aligns, Bool.and_eq_true, beq_iff_eq] at h
  obtain ⟨hs, rfl⟩ := h
  obtain ⟨s', hf, heq⟩ := scfState_eq s
  have hu := hf.hidden hv
  have hdraws : (doUpdateRegion s' s'.geo.origin (s'.geo.screenbufSize / 2)).draws =
      s.draws ++ [.updateRegion s'.geo.origin
        (s'.cells s'.geo.origin (s'.geo.screenbufSize / 2))] := by
    rw [doUpdateRegion, Con.draw, hu.draws]
  rw [emulateState, hs]
  simp only [heq]
  refine ⟨⟨hu.geo, hu.mem, ?_, by exact hu.blanked.le, by exact hu.selection.ge⟩, ?_⟩
  · rw [hdraws]
    exact List.prefix_append _ _
  · rw [hdraws, List.length_append, List.length_singleton]

theorem emulateState_pokes {c : Nat} (hv : s.vt.visible = false) (h : s.pokes c = true) :
    Behind s (emulateState d s c) ∧ (emulateState d s c).draws = s.draws ∧
      (emulateState d s c).vt.blanked = (s.vt.blanked && !wakes s) ∧
      (emulateState d s c).requests = s.requests := by
  simp only [Con.pokes, Bool.and_eq_true, beq_iff_eq, Bool.not_eq_true'] at h
  obtain ⟨⟨⟨hfinal, rfl⟩, hpriv⟩, hpoke⟩ := h
  have hemulate : emulateState d s 0x5d = settermCommand d (s.setState .init) := by
    simp only [EsState.takesFinal, Bool.or_eq_true, beq_iff_eq] at hfinal
    rcases hfinal with hs | hs
    · rw [emulateState, hs]
      exact csiGotpars_poke (s := s.setState .csiGotpars) hpriv
    · rw [emulateState, hs]
      exact csiGotpars_poke hpriv
  obtain ⟨vt, heq, hvis, hblank, hignore, hmode⟩ :=
    settermCommand_poke (d := d) (s := s.setState .init) hpoke
  obtain ⟨vt', heq', -, hblank'⟩ := pokeBlankedConsole_hidden (d := d)
    (s := { s.setState .init with vt := vt }) (hvis.trans hv)
  have hwakes : wakes { s.setState .init with vt := vt } = wakes s := by
    simp only [wakes, hblank, hignore, hmode]
    rfl
  have hb : vt'.blanked = (s.vt.blanked && !wakes s) := by
    rw [hblank', hwakes, hblank]
    rfl
  rw [hemulate, heq, heq']
  refine ⟨⟨rfl, .refl s, List.prefix_refl _, ?_, le_refl _⟩, rfl, hb, rfl⟩
  show vt'.blanked ≤ s.vt.blanked
  rw [hb]
  exact Bool.and_le_left _ _

theorem emulateState_deselects {c : Nat} (h : s.deselects c = true) :
    Behind s (emulateState d s c) ∧ (emulateState d s c).draws = s.draws ∧
      (emulateState d s c).vt = s.vt ∧
      (emulateState d s c).requests.count .clearSelection =
        s.requests.count .clearSelection + 1 := by
  simp only [Con.deselects, Bool.and_eq_true, beq_iff_eq] at h
  obtain ⟨⟨hfinal, rfl⟩, hpriv⟩ := h
  obtain ⟨r, ps, hemulate⟩ : ∃ r ps, emulateState d s 0x6d =
      { s.request .clearSelection with rend := r, ps := ps } := by
    simp only [EsState.takesFinal, Bool.or_eq_true, beq_iff_eq] at hfinal
    rcases hfinal with hs | hs
    · rw [emulateState, hs]
      exact csiGotpars_deselect (s := s.setState .csiGotpars) hpriv
    · rw [emulateState, hs]
      exact csiGotpars_deselect hpriv
  have hcount : (s.requests ++ [Request.clearSelection]).count .clearSelection =
      s.requests.count .clearSelection + 1 := by
    rw [List.count_append, List.count_singleton_self]
  rw [hemulate]
  refine ⟨⟨rfl, .refl s, List.prefix_refl _, le_refl _, ?_⟩, rfl, rfl, hcount⟩
  show _ ≤ (s.requests ++ [Request.clearSelection]).count .clearSelection
  rw [hcount]
  exact Nat.le_succ _

theorem trace_eq_iff (selected : Bool) : trace selected s' = trace selected s ↔
    s'.draws.length = s.draws.length ∧ s'.vt.blanked = s.vt.blanked ∧
      (selected = true → s'.requests.count .clearSelection = s.requests.count .clearSelection) := by
  have hnot (a b : Bool) : (!a) = (!b) ↔ a = b := by
    cases a <;> cases b <;> decide
  rw [trace, trace, Prod.mk.injEq, Prod.mk.injEq, hnot]
  cases selected with
  | true => simp
  | false => simp

theorem blanked_iff (s : Con) : (s.vt.blanked && !wakes s) = s.vt.blanked ↔ wakes s = false := by
  rw [wakes]
  cases s.vt.blanked <;> cases s.vt.ignorePoke <;> cases s.vt.fgMode <;> decide

/-- **A character handed to the emulator** by a console behind the front. -/
theorem behind_terminalEmulation (selected : Bool) (hv : s.vt.visible = false) (c : Nat) :
    Behind s (terminalEmulation d s c) ∧
      (trace selected (terminalEmulation d s c) = trace selected s ↔ s.Calm selected c) := by
  rw [trace_eq_iff, Con.Calm]
  cases ha : s.aligns c with
  | true =>
    obtain rfl : c = 0x38 := by
      simp only [Con.aligns, Bool.and_eq_true, beq_iff_eq] at ha
      exact ha.2
    obtain ⟨hb, hlen⟩ := emulateState_aligns (d := d) hv ha
    rw [terminalEmulation_graphic (by decide) (by decide)]
    refine ⟨hb, fun h => absurd h.1 (by omega), fun h => absurd h.1 (by decide)⟩
  | false =>
    cases hp : s.pokes c with
    | true =>
      obtain rfl : c = 0x5d := by
        simp only [Con.pokes, Bool.and_eq_true, beq_iff_eq] at hp
        exact hp.1.1.2
      have hm : s.deselects 0x5d = false := by
        simp [Con.deselects]
      obtain ⟨hb, hdraws, hblank, hreq⟩ := emulateState_pokes (d := d) hv hp
      rw [terminalEmulation_graphic (by decide) (by decide), hdraws, hblank, hreq, blanked_iff, hm]
      refine ⟨hb, fun h => ⟨rfl, h.2.1, Bool.and_false _⟩, fun h => ⟨rfl, ?_, fun _ => rfl⟩⟩
      exact h.2.1
    | false =>
      cases hm : s.deselects c with
      | true =>
        obtain rfl : c = 0x6d := by
          simp only [Con.deselects, Bool.and_eq_true, beq_iff_eq] at hm
          exact hm.1.2
        obtain ⟨hb, hdraws, hvt, hcount⟩ := emulateState_deselects (d := d) hm
        rw [terminalEmulation_graphic (by decide) (by decide), hdraws, hvt, hcount]
        refine ⟨hb, fun h => ⟨rfl, rfl, ?_⟩, fun h => ⟨rfl, rfl, fun hs => ?_⟩⟩
        · rw [Bool.and_true]
          by_contra hs
          exact absurd (h.2.2 (Bool.not_eq_false _ ▸ hs)) (by omega)
        · rw [hs] at h
          exact absurd h.2.2 (by decide)
      | false =>
        have hu := (quiet_terminalEmulation (d := d) hp hm ha).hidden hv
        refine ⟨hu.behind, fun _ => ⟨rfl, rfl, Bool.and_false _⟩, fun _ => ?_⟩
        exact ⟨by rw [hu.draws], hu.blanked, fun _ => hu.selection⟩

/-! ### A byte of a write -/

theorem calm_congr {selected : Bool} {c : Nat} (hps : s'.ps = s.ps) (hvt : s'.vt = s.vt) :
    s'.Calm selected c ↔ s.Calm selected c := by
  simp only [Con.Calm, Con.aligns, Con.pokes, Con.deselects, wakes, hps, hvt]

/-- The byte leaves no trace. -/
def CalmByte (selected : Bool) (w : Con × Batch) (c : Nat) : Prop :=
  ∀ ch, handed w.1 c = some ch → w.1.Calm selected ch

/-- A step of a write to a console behind the front. -/
theorem behind_writeByte (himask : Cell) (selected : Bool) {w : Con × Batch}
    (hv : w.1.vt.visible = false) (hb : w.2.Fits w.1) (c : Nat) :
    Behind w.1 (writeByte d himask w c).1 ∧
      (trace selected (writeByte d himask w c).1 = trace selected w.1 ↔ CalmByte selected w c) := by
  cases hc : handed w.1 c with
  | none =>
    have hu := (frame_writeByte (d := d) himask hb hc).1.hidden hv
    refine ⟨hu.behind, fun _ ch hch => ?_, fun _ => hu.trace_eq selected⟩
    rw [hc] at hch
    contradiction
  | some ch =>
    have htr := frame_translateByte w.1 c
    have hstart := htr.trans (frame_flush (hb.of_visible htr.visible))
    have hps := (flush_ps (translateByte w.1 c).1 w.2).trans (translateByte_ps w.1 c)
    have hu := hstart.hidden hv
    obtain ⟨hbehind, hcalm⟩ := behind_terminalEmulation (d := d) selected
      (hstart.visible.trans hv) ch
    rw [writeByte_handed himask hc]
    refine ⟨hu.behind.trans hbehind, ?_⟩
    rw [← hu.trace_eq selected, hcalm, calm_congr hps (handed_vt w.1 c w.2)]
    refine ⟨fun h ch' hch' => ?_, fun h => h ch hc⟩
    rw [hc] at hch'
    rwa [← Option.some.inj hch']

/-! ### A whole write -/

/-- The cursor of a console behind the front is not on the screen. -/
theorem undrawCursor_hidden (hv : s.vt.visible = false) : undrawCursor s = s := by
  rw [undrawCursor, hv]
  rfl

/-- **A write to a console behind the front.** -/
theorem behind_doConWrite (selected : Bool) (hv : s.vt.visible = false) (buf : List Nat) :
    Behind s (doConWrite d s buf) ∧ (trace selected (doConWrite d s buf) = trace selected s ↔
      Along (writeByte d s.rend.hiFontMask) (CalmByte selected) (s, ⟨none, 0, 0⟩) buf) := by
  have hstep (w : Con × Batch) (c : Nat)
      (h : w.1.vt.visible = false ∧ w.2.Fits w.1 ∧ Behind s w.1) :
      (writeByte d s.rend.hiFontMask w c).1.vt.visible = false ∧
        (writeByte d s.rend.hiFontMask w c).2.Fits (writeByte d s.rend.hiFontMask w c).1 ∧
          Behind s (writeByte d s.rend.hiFontMask w c).1 := by
    obtain ⟨hw, hb, hs⟩ := h
    obtain ⟨hst, hb'⟩ := steady_writeByte (d := d) s.rend.hiFontMask hb c
    exact ⟨hst.visible.trans hw, hb'.of_visible hst.visible,
      hs.trans (behind_writeByte s.rend.hiFontMask selected hw hb c).1⟩
  have hstart : (s, (⟨none, 0, 0⟩ : Batch)).1.vt.visible = false ∧
      Batch.Fits ⟨none, 0, 0⟩ s ∧ Behind s s := ⟨hv, fits_none s, (Unseen.refl s).behind⟩
  have hcells : writeCells d s buf =
      run (writeByte d s.rend.hiFontMask) (s, ⟨none, 0, 0⟩) buf := by
    rw [writeCells, undrawCursor_hidden hv]
    rfl
  obtain ⟨-, -, hbehind⟩ := run_invariant hstep hstart buf
  have hvis := (steady_writeCells (d := d) s buf).1.visible.trans hv
  have hflush : doConWrite d s buf = (writeCells d s buf).1 := by
    rw [doConWrite_eq, flush, (steady_writeCells (d := d) s buf).2 hvis]
  rw [hflush, hcells]
  refine ⟨hbehind, ?_⟩
  have hmono := observe_eq_iff (f := fun w => trace selected w.1) hstep
    (fun w c h => (behind_writeByte s.rend.hiFontMask selected h.1 h.2.1 c).1.trace_le selected)
    hstart
  exact (hmono buf).trans (along_congr (fun w c h _ => hstep w c h)
    (fun w c h => (behind_writeByte s.rend.hiFontMask selected h.1 h.2.1 c).2) hstart)

/-! ### Without the scroll hook -/

theorem storeGlyph_still (himask : Cell) (g : Nat) (hv : s.vt.visible = false) :
    storeGlyph d.still himask g s = storeGlyph d himask g s := by
  have hcr : (vteCr s).vt.visible = false := hv
  rw [storeGlyph, storeGlyph, wrapPending, wrapPending, vteLf_still hcr]

theorem putGlyph_still (himask : Cell) (g : Nat) (hv : s.vt.visible = false) {b : Batch}
    (hb : b.Fits s) : putGlyph d.still himask g s b = putGlyph d himask g s b := by
  have hflush : flush s b = (s, b) := by
    rw [flush, hb hv]
  rw [putGlyph, putGlyph, hflush, ite_self]
  simp only [storeGlyph_still himask g hv]

theorem writeByte_still (himask : Cell) {w : Con × Batch} (hv : w.1.vt.visible = false)
    (hb : w.2.Fits w.1) (c : Nat) : writeByte d.still himask w c = writeByte d himask w c := by
  have htr := frame_translateByte w.1 c
  cases hc : handed w.1 c with
  | some ch =>
    have hstart := htr.trans (frame_flush (hb.of_visible htr.visible))
    rw [writeByte_handed himask hc, writeByte_handed himask hc,
      terminalEmulation_still (hstart.visible.trans hv)]
  | none =>
    rw [writeByte, writeByte]
    rw [handed] at hc
    have hps := translateByte_ps w.1 c
    generalize translateByte w.1 c = t at htr hc hps
    obtain ⟨s, o⟩ := t
    cases o with
    | none => rfl
    | some q =>
      obtain ⟨ch, tc⟩ := q
      have hshown : s.ps.state = .init ∧ glyphOk s ch tc = true := by
        by_contra hn
        rw [hps] at hn
        simp [hn] at hc
      simp only [hshown, and_self, if_true]
      rw [putGlyph_still himask _ (htr.visible.trans hv) (hb.of_visible htr.visible)]

theorem writeLoop_still (himask : Cell) (buf : List Nat) : ∀ {w : Con × Batch},
    w.1.vt.visible = false → w.2.Fits w.1 →
      writeLoop d.still himask w buf = writeLoop d himask w buf := by
  induction buf with
  | nil => exact fun _ _ => rfl
  | cons c buf ih =>
    intro w hv hb
    obtain ⟨hs, hb'⟩ := steady_writeByte (d := d) himask hb c
    rw [writeLoop, writeLoop, List.foldl_cons, List.foldl_cons, writeByte_still himask hv hb c]
    exact ih (hs.visible.trans hv) (hb'.of_visible hs.visible)

theorem doConWrite_still (hv : s.vt.visible = false) (buf : List Nat) :
    doConWrite d.still s buf = doConWrite d s buf := by
  have hcells : writeCells d.still s buf = writeCells d s buf := by
    rw [writeCells, writeCells, undrawCursor_hidden hv]
    exact writeLoop_still _ buf hv (fits_none s)
  rw [doConWrite_eq, doConWrite_eq, hcells]

/-! ### The console in front -/

/-- A console in front and one behind it: they share the memory and the display, and each has a
screen of its own. -/
structure TwoConsoles (d : Driver) (N : Nat) (F : List Fault) where
  front : Con
  back : Con
  shown : front.vt.visible = true
  hidden : back.vt.visible = false
  memory : front.mem = back.mem
  display : front.vt.blanked = back.vt.blanked
  apart : ∀ a, front.Owns a → ¬back.Owns a
  sound : Sound d.still N F back

variable {N : Nat} {F : List Fault}

/-- The console in front after a write to the one behind. -/
def TwoConsoles.frontAfter (p : TwoConsoles d N F) (buf : List Nat) : Con :=
  { p.front with
    mem := (doConWrite d p.back buf).mem
    vt := { p.front.vt with
      blanked := (doConWrite d p.back buf).vt.blanked
      blankState := (doConWrite d p.back buf).vt.blankState
      blankInterval := (doConWrite d p.back buf).vt.blankInterval
      offInterval := (doConWrite d p.back buf).vt.offInterval
      blankTimerExpired := (doConWrite d p.back buf).vt.blankTimerExpired
      ignorePoke := (doConWrite d p.back buf).vt.ignorePoke } }

/-- **The write goes unnoticed**: no drawing hook is called for it, the display is not unblanked,
something that is selected stays so, and the buffer, cursor and modes in front are the same. -/
structure TwoConsoles.Unnoticed (p : TwoConsoles d N F) (selected : Bool) (buf : List Nat) : Prop where
  draws : (doConWrite d p.back buf).draws = p.back.draws
  blanked : (p.frontAfter buf).vt.blanked = p.front.vt.blanked
  selection : selected = true → (doConWrite d p.back buf).requests.count .clearSelection =
    p.back.requests.count .clearSelection
  buffer : ∀ a, p.front.Owns a → (p.frontAfter buf).mem a = p.front.mem a
  cursor : (p.frontAfter buf).cur = p.front.cur
  modes : (p.frontAfter buf).modes = p.front.modes

theorem TwoConsoles.buffer_kept (p : TwoConsoles d N F) (buf : List Nat) {a : Nat}
    (ha : p.front.Owns a) : (doConWrite d p.back buf).mem a = p.front.mem a := by
  obtain ⟨fs, hfs, hmem⟩ := (behind_doConWrite (d := d) false p.hidden buf).1.mem
  have hsound := p.sound.doConWrite buf
  rw [doConWrite_still p.hidden] at hsound
  have hnone := (hsound.screen (inert_still d)).2
  rw [hfs, cellFaults, List.filter_append, List.append_eq_nil_iff] at hnone
  rw [p.memory]
  exact hmem hnone.1 a (p.apart a ha)

/-- **Background writes.**  A write to a console behind another goes unnoticed exactly if no
character on its way takes a screen alignment test, unblanks the display, or clears a selection. -/
theorem background_write_iff (p : TwoConsoles d N F) (selected : Bool) (buf : List Nat) :
    p.Unnoticed selected buf ↔ Along (writeByte d p.back.rend.hiFontMask) (CalmByte selected)
      (p.back, ⟨none, 0, 0⟩) buf := by
  obtain ⟨hbehind, hiff⟩ := behind_doConWrite (d := d) selected p.hidden buf
  rw [← hiff, trace_eq_iff]
  constructor
  · intro h
    exact ⟨by rw [h.draws], h.blanked.trans p.display, h.selection⟩
  · rintro ⟨hdraws, hblank, hsel⟩
    exact ⟨(hbehind.draws.eq_of_length hdraws.symm).symm, hblank.trans p.display.symm, hsel,
      fun a ha => p.buffer_kept buf ha, rfl, rfl⟩

/-- A second console of the dummy driver, with its buffer at `0x10000`, behind the first. -/
def behindCon : Con :=
  vcInit dummyCon (visualInit dummyConInit 0x10000 (fun _ => 0)
    { bootDisplay with visible := false } none defaultUserMap) true

def bootConsoles : TwoConsoles dummyCon 80 [] where
  front := { bootCon with mem := behindCon.mem }
  back := behindCon
  shown := rfl
  hidden := rfl
  memory := rfl
  display := rfl
  apart := by
    intro a ha hb
    have hfront : a < 0x1000 + 4000 := ha.2
    have hback : 0x10000 ≤ a := hb.1
    omega
  sound := sound_vcInit dummyCon.still dummyConInit 0x10000 _ _ none defaultUserMap true
    (by decide) (by decide) (by decide) (by decide)

/-- The alignment test of the console behind is drawn over the one in front. -/
theorem alignment_test_drawn : ¬bootConsoles.Unnoticed false [0x1b, 0x23, 0x38] := by
  intro h
  have hlen := congrArg List.length h.draws
  revert hlen
  decide +kernel

end LinuxConsole

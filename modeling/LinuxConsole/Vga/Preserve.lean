import LinuxConsole.Vga.Private

/-!
# The text of a VGA console

The text of a console is in its buffer, except that of the foreground console
while the driver accepts it: that is in the video memory.  `Consistent` says where
every screen is, and `Held` adds that it shows what its private console shows.

A screen is moved in two steps.  `save_screen` brings the texts of all consoles
to their buffers (`Stored`), after which the video memory may change, and
`update_screen` puts the foreground console on the display from there.

`do_blank_screen` does not save the screen when it finds it blanked or finds
`blank_state` to be another than `blank_normal_wait`, and the driver does not
then enter graphics.  **`text_preserved`** says that every text is preserved in
every run in which that does not happen to a screen in the video memory and the
driver scrolls no screen outside of it (`Saves`); **`text_lost`** is a run in which
the console is blanked by the palette, enters graphics and is overwritten.
-/

namespace LinuxConsole.Vga

open Lib

variable {ι : Type} [DecidableEq ι] {k : Card} {m m' : Machine ι} {ps : ι → Private}

/-! ### Where the screens are -/

/-- The console with its screen in its buffer. -/
def Vc.home (c : Vc) : Vc := c.at c.geo.screenbuf

namespace Machine

/-- Consoles no larger than the video memory, with buffers of their own. -/
structure Layout (k : Card) (m : Machine ι) : Prop where
  sized : ∀ i, WellSized (m.vc i).geo
  small : ∀ i, m.Small k i
  buffer : ∀ i, Apart k.vramBase k.vramSize (m.vc i).geo.screenbuf (m.vc i).geo.screenbufSize
  apart : ∀ i j, i ≠ j → Apart (m.vc i).geo.screenbuf (m.vc i).geo.screenbufSize
    (m.vc j).geo.screenbuf (m.vc j).geo.screenbufSize

/-- **Where every screen is**, and that a blanked palette and graphics both mean that
the console is blanked. -/
structure Consistent (k : Card) (m : Machine ι) : Prop extends m.Layout k where
  at_origin : ∀ i, m.vc i = (m.vc i).at (m.vc i).geo.origin
  back : ∀ i, i ≠ m.fg → (m.vc i).geo.origin = (m.vc i).geo.screenbuf
  hidden : ¬ m.Accepts k → m.fgVc.geo.origin = m.fgVc.geo.screenbuf
  shown : m.Accepts k → k.vramBase ≤ m.fgVc.geo.origin ∧
    m.fgVc.geo.origin + m.fgVc.geo.screenbufSize ≤ k.vramEnd
  palette : m.card.paletteBlanked = true → m.blanked = true ∧ m.card.isGfx = false
  gfx : m.card.isGfx = true → m.blanked = true

/-- A console in graphics has no text in the video memory. -/
def Safe (k : Card) (m : Machine ι) : Prop := m.fgVc.mode = .graphics → ¬ m.Accepts k

/-- **The texts are in the buffers.** -/
structure Stored (k : Card) (m : Machine ι) (ps : ι → Private) : Prop where
  layout : m.Layout k
  text : ∀ i, Alike m.mem (m.vc i).home (ps i)

/-- **Every console shows what its private one shows.** -/
structure Held (k : Card) (m : Machine ι) (ps : ι → Private) : Prop where
  consistent : m.Consistent k
  text : ∀ i, Alike m.mem (m.vc i) (ps i)

/-! ### Origins -/

omit [DecidableEq ι] in
theorem accepts_iff :
    m.Accepts k ↔ m.card.isGfx = false ∧ (m.blanked = true → m.card.paletteBlanked = true) := by
  unfold Accepts vgaconSetOrigin
  cases m.card.isGfx <;> cases m.blanked <;> cases m.card.paletteBlanked <;> simp

omit [DecidableEq ι] in
theorem origin_of_accepts (h : m.Accepts k) :
    vgaconSetOrigin k m.card m.blanked = some k.vramBase := by
  unfold Accepts at h
  unfold vgaconSetOrigin at h ⊢
  split_ifs at h ⊢
  · exact absurd h Bool.false_ne_true
  · rfl

omit [DecidableEq ι] in
theorem origin_of_not_accepts (h : ¬ m.Accepts k) :
    vgaconSetOrigin k m.card m.blanked = none := by
  unfold Accepts at h
  rwa [Bool.not_eq_true, Option.isSome_eq_false_iff, Option.isNone_iff_eq_none] at h

theorem setOrigin_vc (i : ι) :
    (m.setOrigin k i).vc i = (m.vc i).at ((if i = m.fg then
      vgaconSetOrigin k m.card m.blanked else none).getD (m.vc i).geo.screenbuf) := by
  unfold setOrigin
  rw [setVc_self]

theorem setOrigin_others {i j : ι} (h : j ≠ i) : (m.setOrigin k i).vc j = m.vc j := by
  unfold setOrigin
  rw [setVc_of_ne _ h]

/-- **`set_origin` moves a screen and nothing else.** -/
@[simp] theorem setOrigin_home (i j : ι) : ((m.setOrigin k i).vc j).home = (m.vc j).home := by
  by_cases hj : j = i
  · subst hj
    rw [setOrigin_vc]
    rfl
  · rw [setOrigin_others hj]

theorem conBlank_home (modeSwitch : Bool) (j : ι) :
    ((m.conBlank k modeSwitch).1.vc j).home = (m.vc j).home := by
  change ((m.setVc m.fg _).vc j).home = _
  by_cases hj : j = m.fg
  · subst hj
    rw [setVc_self]
    rfl
  · rw [setVc_of_ne _ hj]

/-! ### Layouts -/

omit [DecidableEq ι] in
theorem Layout.congr (h : m.Layout k) (hhome : ∀ i, (m'.vc i).home.geo = (m.vc i).home.geo) :
    m'.Layout k := by
  have hcols : ∀ i, (m'.vc i).geo.cols = (m.vc i).geo.cols := fun i =>
    (congrArg Geom.cols (hhome i) :)
  have hrows : ∀ i, (m'.vc i).geo.rows = (m.vc i).geo.rows := fun i =>
    (congrArg Geom.rows (hhome i) :)
  have hrow : ∀ i, (m'.vc i).geo.sizeRow = (m.vc i).geo.sizeRow := fun i =>
    (congrArg Geom.sizeRow (hhome i) :)
  have hbuf : ∀ i, (m'.vc i).geo.screenbuf = (m.vc i).geo.screenbuf := fun i =>
    (congrArg Geom.screenbuf (hhome i) :)
  have hsize : ∀ i, (m'.vc i).geo.screenbufSize = (m.vc i).geo.screenbufSize := fun i =>
    (congrArg Geom.screenbufSize (hhome i) :)
  refine ⟨fun i => ⟨?_, ?_⟩, fun i => ?_, fun i => ?_, fun i j hij => ?_⟩
  · rw [hrow, hcols]
    exact (h.sized i).sizeRow
  · rw [hsize, hrows, hrow]
    exact (h.sized i).size
  · unfold Small
    rw [hsize]
    exact h.small i
  · rw [hbuf, hsize]
    exact h.buffer i
  · rw [hbuf, hbuf, hsize, hsize]
    exact h.apart i j hij

omit [DecidableEq ι] in
theorem Layout.copied (h : m.Layout k) (i : ι) :
    k.copied (m.vc i).geo = (m.vc i).geo.screenbufSize := by
  have hsmall := h.small i
  unfold Small at hsmall
  unfold Card.copied
  rw [if_neg (by omega)]

omit [DecidableEq ι] in
theorem Layout.vram_apart (h : m.Layout k) (i : ι) {a n : Nat} (ha : k.vramBase ≤ a)
    (hn : a + n ≤ k.vramEnd) :
    Apart a n (m.vc i).geo.screenbuf (m.vc i).geo.screenbufSize := by
  have hsize : k.vramBase + k.vramSize = k.vramEnd := Nat.add_sub_cancel' k.base_le
  rcases h.buffer i with hbuf | hbuf
  · exact .inl (by omega)
  · exact .inr (by omega)

omit [DecidableEq ι] in
/-- The start of the video memory is large enough for a screen. -/
theorem Layout.base_fits (h : m.Layout k) (i : ι) :
    k.vramBase + (m.vc i).geo.screenbufSize ≤ k.vramEnd := by
  have hsize : k.vramBase + k.vramSize = k.vramEnd := Nat.add_sub_cancel' k.base_le
  have hsmall := h.small i
  unfold Small at hsmall
  omega

omit [DecidableEq ι] in
theorem Consistent.home (h : m.Consistent k) {i : ι}
    (hi : (m.vc i).geo.origin = (m.vc i).geo.screenbuf) : (m.vc i).home = m.vc i := by
  unfold Vc.home
  rw [← hi]
  exact (h.at_origin i).symm

omit [DecidableEq ι] in
/-- A screen is in its buffer, or it is the one in the video memory. -/
theorem Consistent.place (h : m.Consistent k) (i : ι) :
    (m.vc i).geo.origin = (m.vc i).geo.screenbuf ∨
      (i = m.fg ∧ k.vramBase ≤ (m.vc i).geo.origin ∧
        (m.vc i).geo.origin + (m.vc i).geo.screenbufSize ≤ k.vramEnd) := by
  by_cases hi : i = m.fg
  · subst hi
    by_cases hacc : m.Accepts k
    · exact .inr ⟨rfl, h.shown hacc⟩
    · exact .inl (h.hidden hacc)
  · exact .inl (h.back i hi)

omit [DecidableEq ι] in
/-- **No two screens overlap.** -/
theorem Consistent.screens_apart (h : m.Consistent k) {i j : ι} (hij : i ≠ j) :
    Apart (m.vc i).geo.origin (m.vc i).geo.screenbufSize (m.vc j).geo.origin
      (m.vc j).geo.screenbufSize := by
  rcases h.place i with hi | ⟨hifg, hibase, hiend⟩
  · rcases h.place j with hj | ⟨-, hjbase, hjend⟩
    · rw [hi, hj]
      exact h.apart i j hij
    · rw [hi]
      exact (h.vram_apart i hjbase hjend).symm
  · rcases h.place j with hj | ⟨hjfg, -, -⟩
    · rw [hj]
      exact h.vram_apart j hibase hiend
    · exact absurd (hifg.trans hjfg.symm) hij

omit [DecidableEq ι] in
theorem Consistent.accepts_lit (h : m.Consistent k) (hlit : m.blanked = false) : m.Accepts k := by
  refine accepts_iff.mpr ⟨?_, fun hb => ?_⟩
  · cases hg : m.card.isGfx with
    | false => rfl
    | true => exact absurd (h.gfx hg) (by rw [hlit]; exact Bool.false_ne_true)
  · rw [hlit] at hb
    exact absurd hb Bool.false_ne_true

/-! ### To the buffers -/

omit [DecidableEq ι] in
/-- Texts in the buffers stay there while the buffers are left alone. -/
theorem Stored.congr (h : m.Stored k ps) (hhome : ∀ i, (m'.vc i).home = (m.vc i).home)
    (hmem : ∀ i, SameWindow m'.mem (m.vc i).geo.screenbuf m.mem (m.vc i).geo.screenbuf
      (m.vc i).geo.screenbufSize) : m'.Stored k ps := by
  refine ⟨h.layout.congr fun i => congrArg Vc.geo (hhome i), fun i => ?_⟩
  rw [hhome i]
  exact (h.text i).frame (hmem i)

omit [DecidableEq ι] in
theorem Held.stored (h : m.Held k ps) (hacc : ¬ m.Accepts k) : m.Stored k ps := by
  refine ⟨h.consistent.toLayout, fun i => ?_⟩
  rw [h.consistent.home]
  · exact h.text i
  · by_cases hi : i = m.fg
    · subst hi
      exact h.consistent.hidden hacc
    · exact h.consistent.back i hi

omit [DecidableEq ι] in
theorem saveScreen_gfx (i : ι) (h : m.card.isGfx = true) : (m.saveScreen k i).mem = m.mem := by
  change vgaconSaveScreen k m.card m.mem (m.vc i).geo = m.mem
  unfold vgaconSaveScreen
  rw [if_pos h]

omit [DecidableEq ι] in
theorem saveScreen_text (hlayout : m.Layout k) (i : ι) (h : m.card.isGfx = false) :
    (m.saveScreen k i).mem = copyTo m.mem (m.vc i).geo.screenbuf (m.vc i).geo.origin
      (m.vc i).geo.screenbufSize := by
  change vgaconSaveScreen k m.card m.mem (m.vc i).geo = _
  unfold vgaconSaveScreen
  rw [if_neg (by rw [h]; exact Bool.false_ne_true), hlayout.copied]

omit [DecidableEq ι] in
/-- **`save_screen` of the foreground console brings every text to its buffer.** -/
theorem Held.saved (h : m.Held k ps) : (m.saveScreen k m.fg).Stored k ps := by
  cases hgfx : m.card.isGfx with
  | true =>
    refine (h.stored (not_accepts_gfx hgfx)).congr (fun _ => rfl) fun i => ?_
    rw [saveScreen_gfx m.fg hgfx]
    exact .refl _ _ _
  | false =>
    have hmem := saveScreen_text h.consistent.toLayout m.fg hgfx
    refine ⟨h.consistent.toLayout.congr fun _ => rfl, fun i => ?_⟩
    change Alike (m.saveScreen k m.fg).mem (m.vc i).home (ps i)
    rw [hmem]
    by_cases hi : i = m.fg
    · subst hi
      exact (h.text m.fg).move (.copied _ _ _ _)
    · have hhome := h.consistent.home (h.consistent.back i hi)
      have hback := h.consistent.back i hi
      rw [hhome]
      refine (h.text i).frame (SameWindow.copyTo_apart _ ?_)
      rw [hback]
      exact h.consistent.apart m.fg i (Ne.symm hi)

omit [DecidableEq ι] in
theorem Held.saveScreen (h : m.Held k ps) : (m.saveScreen k m.fg).Held k ps := by
  have hconsistent : (m.saveScreen k m.fg).Consistent k :=
    { h.consistent with toLayout := h.consistent.toLayout.congr fun _ => rfl }
  refine ⟨hconsistent, fun i => ?_⟩
  rcases h.consistent.place i with hi | ⟨hfg, hbase, hend⟩
  · have hsaved := h.saved.text i
    have hhome : ((m.saveScreen k m.fg).vc i).home = m.vc i := h.consistent.home hi
    rwa [hhome] at hsaved
  · subst hfg
    cases hgfx : m.card.isGfx with
    | true =>
      rw [saveScreen_gfx m.fg hgfx]
      exact h.text m.fg
    | false =>
      rw [saveScreen_text h.consistent.toLayout m.fg hgfx]
      refine (h.text m.fg).frame (SameWindow.copyTo_apart _ ?_)
      exact (h.consistent.vram_apart m.fg hbase hend).symm

/-! ### From the buffers -/

/-- What has to hold of the flags. -/
structure Flags (m : Machine ι) : Prop where
  palette : m.card.paletteBlanked = true → m.blanked = true ∧ m.card.isGfx = false
  gfx : m.card.isGfx = true → m.blanked = true

omit [DecidableEq ι] in
theorem Consistent.flags (h : m.Consistent k) : m.Flags := ⟨h.palette, h.gfx⟩

/-- The other consoles are in their buffers. -/
def Back (m : Machine ι) : Prop := ∀ i, i ≠ m.fg → m.vc i = (m.vc i).home

omit [DecidableEq ι] in
theorem Consistent.inBack (h : m.Consistent k) : m.Back :=
  fun i hi => (h.home (h.back i hi)).symm

/-- **A screen that the driver does not accept** is put in its buffer. -/
theorem Stored.setOrigin (h : m.Stored k ps) (hback : m.Back) (hflags : m.Flags)
    (hacc : ¬ m.Accepts k) : (m.setOrigin k m.fg).Held k ps := by
  have hvc : ∀ i, (m.setOrigin k m.fg).vc i = (m.vc i).home := by
    intro i
    by_cases hi : i = m.fg
    · subst hi
      rw [setOrigin_vc, if_pos rfl, origin_of_not_accepts hacc]
      rfl
    · rw [setOrigin_others hi]
      exact hback i hi
  have horigin : ∀ i, ((m.setOrigin k m.fg).vc i).geo.origin =
      ((m.setOrigin k m.fg).vc i).geo.screenbuf := by
    intro i
    rw [hvc]
    rfl
  refine ⟨⟨h.layout.congr fun i => ?_, fun i => ?_, fun i _ => horigin i,
    fun _ => horigin m.fg, fun hacc' => absurd hacc' hacc, hflags.palette, hflags.gfx⟩, fun i => ?_⟩
  · rw [setOrigin_home]
  · rw [hvc]
    rfl
  · rw [hvc]
    exact h.text i

omit [DecidableEq ι] in
theorem copyTo_self {α : Type*} (mem : Nat → α) (d n : Nat) : copyTo mem d d n = mem := by
  funext a
  unfold copyTo
  split_ifs with hin
  · congr 1
    omega
  · rfl

/-- A screen that the driver accepts is copied to the start of the video memory. -/
theorem Stored.shown (h : m.Stored k ps) (hback : m.Back) (hflags : m.Flags)
    (hacc : m.Accepts k) : (m.updateScreen k m.fg).Held k ps := by
  have hgfx := (accepts_iff.mp hacc).1
  have hbase := h.layout.base_fits m.fg
  have hfg : (m.updateScreen k m.fg).vc m.fg = (m.vc m.fg).at k.vramBase := by
    change (m.setOrigin k m.fg).vc m.fg = _
    rw [setOrigin_vc, if_pos rfl, origin_of_accepts hacc]
    rfl
  have hothers : ∀ i, i ≠ m.fg → (m.updateScreen k m.fg).vc i = (m.vc i).home := by
    intro i hi
    change (m.setOrigin k m.fg).vc i = _
    rw [setOrigin_others hi]
    exact hback i hi
  have hlayout : (m.updateScreen k m.fg).Layout k := h.layout.congr fun i => by
    change ((m.setOrigin k m.fg).vc i).home.geo = _
    rw [setOrigin_home]
  have hmem : (m.updateScreen k m.fg).mem = copyTo m.mem k.vramBase
      (m.vc m.fg).geo.screenbuf (m.vc m.fg).geo.screenbufSize := by
    change vgaconSwitch k m.card m.mem ((m.updateScreen k m.fg).vc m.fg).geo = _
    unfold vgaconSwitch
    rw [if_neg (by rw [hgfx]; exact Bool.false_ne_true), hlayout.copied, hfg]
    rfl
  refine ⟨⟨hlayout, fun i => ?_, fun i hi => ?_, fun hacc' => absurd hacc hacc', fun _ => ?_,
    hflags.palette, hflags.gfx⟩, fun i => ?_⟩
  · by_cases hi : i = m.fg
    · rw [hi, hfg]
      rfl
    · rw [hothers i hi]
      rfl
  · rw [hothers i hi]
    rfl
  · change k.vramBase ≤ ((m.updateScreen k m.fg).vc m.fg).geo.origin ∧
      ((m.updateScreen k m.fg).vc m.fg).geo.origin +
        ((m.updateScreen k m.fg).vc m.fg).geo.screenbufSize ≤ k.vramEnd
    rw [hfg]
    exact ⟨Nat.le_refl _, hbase⟩
  · rw [hmem]
    by_cases hi : i = m.fg
    · rw [hi, hfg]
      exact (h.text m.fg).move (.copied _ _ _ _)
    · rw [hothers i hi]
      exact (h.text i).frame
        (SameWindow.copyTo_apart _ (h.layout.vram_apart i (Nat.le_refl _) hbase))

/-- **`update_screen` puts the foreground console on the display from its buffer.** -/
theorem Stored.updateScreen (h : m.Stored k ps) (hback : m.Back) (hflags : m.Flags) :
    (m.updateScreen k m.fg).Held k ps := by
  by_cases hacc : m.Accepts k
  · exact h.shown hback hflags hacc
  · have hheld := h.setOrigin hback hflags hacc
    have hmem : (m.updateScreen k m.fg).mem = (m.setOrigin k m.fg).mem := by
      have horigin : ((m.setOrigin k m.fg).vc m.fg).geo.origin =
          ((m.setOrigin k m.fg).vc m.fg).geo.screenbuf := hheld.consistent.hidden hacc
      change vgaconSwitch k m.card m.mem ((m.setOrigin k m.fg).vc m.fg).geo = m.mem
      unfold vgaconSwitch
      split_ifs
      · rfl
      · rw [hheld.consistent.toLayout.copied, horigin, copyTo_self]
    refine ⟨{ hheld.consistent with
      toLayout := hheld.consistent.toLayout.congr fun _ => rfl }, fun i => ?_⟩
    rw [hmem]
    exact hheld.text i

/-! ### Blanking -/

omit [DecidableEq ι] in
/-- What leaves the screens and the flags alone, a mode apart. -/
theorem Held.congr (h : m.Held k ps) (hmem : m'.mem = m.mem)
    (hvc : ∀ i, m'.vc i = { m.vc i with mode := (m'.vc i).mode }) (hfg : m'.fg = m.fg)
    (hgfx : m'.card.isGfx = m.card.isGfx)
    (hpalette : m'.card.paletteBlanked = m.card.paletteBlanked)
    (hblanked : m'.blanked = m.blanked) : m'.Held k ps := by
  have hgeo : ∀ i, (m'.vc i).geo = (m.vc i).geo := fun i => by rw [hvc i]
  have hfgGeo : m'.fgVc.geo = m.fgVc.geo := by
    unfold fgVc
    rw [hgeo, hfg]
  have hacc : m'.Accepts k ↔ m.Accepts k := by rw [accepts_iff, accepts_iff, hgfx, hpalette, hblanked]
  refine ⟨⟨h.consistent.toLayout.congr fun i => ?_, fun i => ?_, fun i hi => ?_, fun hno => ?_,
    fun hyes => ?_, fun hp => ?_, fun hg => ?_⟩, fun i => ?_⟩
  · rw [hvc i]
    rfl
  · have hat := h.consistent.at_origin i
    rw [hvc i]
    exact congrArg (fun c : Vc => { c with mode := (m'.vc i).mode }) hat
  · rw [hgeo]
    exact h.consistent.back i (by rwa [hfg] at hi)
  · rw [hfgGeo]
    exact h.consistent.hidden (by rwa [hacc] at hno)
  · rw [hfgGeo]
    exact h.consistent.shown (hacc.mp hyes)
  · rw [hblanked, hgfx]
    exact h.consistent.palette (hpalette ▸ hp)
  · rw [hblanked]
    exact h.consistent.gfx (hgfx ▸ hg)
  · have halike := h.text i
    rw [hmem, hvc i]
    exact { halike with }

theorem conBlank_wipes {modeSwitch : Bool} (hwipe : ¬ ((!modeSwitch) = true ∧ k.isVgac = true)) :
    (m.conBlank k modeSwitch).1.mem =
        fillFrom m.mem k.vramBase blankCell m.fgVc.geo.screenbufSize ∧
      (m.conBlank k modeSwitch).1.card = { m.card with isGfx := m.card.isGfx || modeSwitch } ∧
      (m.conBlank k modeSwitch).2 = true := by
  have hblank : vgaconBlank k m.card m.blanked modeSwitch m.mem m.fgVc.geo =
      ({ m.card with isGfx := m.card.isGfx || modeSwitch },
        fillFrom m.mem k.vramBase blankCell m.fgVc.geo.screenbufSize,
        (vgaconSetOrigin k m.card m.blanked).getD m.fgVc.geo.origin, true) := by
    unfold vgaconBlank
    rw [if_neg hwipe]
  unfold conBlank
  rw [hblank]
  exact ⟨rfl, rfl, rfl⟩

theorem conBlank_palette (hvgac : k.isVgac = true) :
    m.conBlank k false =
      ({ m with card := { m.card with paletteBlanked := true }, blanked := true }, false) := by
  have hblank : vgaconBlank k m.card m.blanked false m.mem m.fgVc.geo =
      ({ m.card with paletteBlanked := true }, m.mem, m.fgVc.geo.origin, false) := by
    unfold vgaconBlank
    rw [if_pos ⟨rfl, hvgac⟩]
  have hsame : m.setVc m.fg m.fgVc = m := by
    unfold setVc fgVc
    rw [Function.update_eq_self]
  unfold conBlank
  rw [hblank]
  exact congrArg (fun m' : Machine ι =>
    ({ m' with card := { m.card with paletteBlanked := true }, blanked := true }, false)) hsame

/-- **A screen that is saved before the video memory is wiped** is put in its buffer. -/
theorem Held.wiped (h : m.Held k ps) (hlit : m.blanked = false) {modeSwitch : Bool}
    (hwipe : ¬ ((!modeSwitch) = true ∧ k.isVgac = true)) :
    (((m.saveScreen k m.fg).conBlank k modeSwitch).1.setOrigin k m.fg).Held k ps ∧
      ¬ (((m.saveScreen k m.fg).conBlank k modeSwitch).1.setOrigin k m.fg).Accepts k := by
  obtain ⟨hmem, hcard, -⟩ := conBlank_wipes (m := m.saveScreen k m.fg) hwipe
  have hpalette : m.card.paletteBlanked = false := by
    cases hp : m.card.paletteBlanked with
    | false => rfl
    | true => exact absurd (h.consistent.palette hp).1 (by rw [hlit]; exact Bool.false_ne_true)
  have hoff : ((m.saveScreen k m.fg).conBlank k modeSwitch).1.card.paletteBlanked = false := by
    rw [hcard]
    exact hpalette
  have hacc : ¬ ((m.saveScreen k m.fg).conBlank k modeSwitch).1.Accepts k :=
    not_accepts_blanked rfl hoff
  have hstored : ((m.saveScreen k m.fg).conBlank k modeSwitch).1.Stored k ps := by
    refine h.saved.congr (conBlank_home modeSwitch) fun i => ?_
    rw [hmem]
    exact SameWindow.fillFrom_apart _
      (h.saved.layout.vram_apart i (Nat.le_refl _) (h.saved.layout.base_fits m.fg))
  have hback : ((m.saveScreen k m.fg).conBlank k modeSwitch).1.Back := by
    intro i hi
    have hother : ((m.saveScreen k m.fg).conBlank k modeSwitch).1.vc i = m.vc i :=
      setVc_of_ne (m := m.saveScreen k m.fg) _ hi
    rw [hother]
    exact h.consistent.inBack i hi
  refine ⟨hstored.setOrigin hback ⟨fun hp => ?_, fun _ => rfl⟩ hacc, hacc⟩
  rw [hoff] at hp
  exact absurd hp Bool.false_ne_true

theorem Held.enterGraphics (h : m.Held k ps) (hlit : m.blanked = false) :
    (m.enterGraphics k).Held k ps ∧ ¬ (m.enterGraphics k).Accepts k :=
  h.wiped hlit fun hwipe => absurd hwipe.1 Bool.false_ne_true

theorem Held.blankText (h : m.Held k ps) (hlit : m.blanked = false) :
    (m.blankText k).Held k ps := by
  unfold Machine.blankText
  dsimp only
  cases hvgac : k.isVgac with
  | true =>
    have hbefore := h.consistent.accepts_lit hlit
    have hgfx := (accepts_iff.mp hbefore).1
    rw [conBlank_palette hvgac, if_neg Bool.false_ne_true]
    have hsaved := h.saveScreen
    have hafter : (({ m.saveScreen k m.fg with
        card := { m.card with paletteBlanked := true }, blanked := true } : Machine ι)).Accepts k :=
      accepts_iff.mpr ⟨hgfx, fun _ => rfl⟩
    exact ⟨⟨hsaved.consistent.toLayout.congr fun _ => rfl, hsaved.consistent.at_origin,
      hsaved.consistent.back, fun hno => absurd hafter hno, fun _ => h.consistent.shown hbefore,
      fun _ => ⟨rfl, hgfx⟩, fun _ => rfl⟩, hsaved.text⟩
  | false =>
    have hwipe : ¬ ((!false) = true ∧ k.isVgac = true) := by simp [hvgac]
    obtain ⟨-, -, hreset⟩ := conBlank_wipes (m := m.saveScreen k m.fg) hwipe
    rw [hreset, if_pos rfl]
    exact (h.wiped hlit hwipe).1

theorem vgaconVesaBlank_flags (k : Card) (g : Globals) :
    (vgaconVesaBlank k g).isGfx = g.isGfx ∧
      (vgaconVesaBlank k g).paletteBlanked = g.paletteBlanked := by
  unfold vgaconVesaBlank
  split_ifs <;> exact ⟨rfl, rfl⟩

omit [DecidableEq ι] in
theorem Held.armVesa (h : m.Held k ps) (hook : Bool) : (m.armVesa k hook).Held k ps := by
  obtain ⟨hgfx, hpalette⟩ := vgaconVesaBlank_flags k m.card
  unfold Machine.armVesa
  by_cases hhook : hook = true
  · rw [if_pos hhook]
    exact h
  · rw [if_neg hhook]
    refine h.congr rfl (fun _ => rfl) rfl ?_ ?_ rfl
    · dsimp only
      split_ifs
      · exact hgfx
      · rfl
    · dsimp only
      split_ifs
      · exact hpalette
      · rfl

theorem Held.doBlankScreen (h : m.Held k ps) {enteringGfx : Bool}
    (hsafe : enteringGfx = false → m.Safe k) (hook : Bool) :
    (m.doBlankScreen k enteringGfx hook).Held k ps := by
  have hoff : ({ m with blankState := .off } : Machine ι).Held k ps :=
    h.congr rfl (fun _ => rfl) rfl rfl rfl rfl
  obtain ⟨hgfx, hpalette⟩ := vgaconVesaBlank_flags k m.card
  unfold Machine.doBlankScreen powerdownScreen
  dsimp only
  split_ifs with hblanked _ _ _ hentering hmode
  · exact hoff
  · exact h.congr rfl (fun _ => rfl) rfl hgfx hpalette rfl
  · exact h
  · exact h
  · exact (hoff.enterGraphics (Bool.eq_false_iff.mpr hblanked)).1
  · have hacc := h.consistent.accepts_lit (Bool.eq_false_iff.mpr hblanked)
    refine absurd hacc (hsafe (Bool.eq_false_iff.mpr hentering) ?_)
    cases hm : m.fgVc.mode with
    | text => exact absurd hm hmode
    | graphics => rfl
  · exact (hoff.blankText (Bool.eq_false_iff.mpr hblanked)).armVesa hook

omit [DecidableEq ι] in
theorem armVesa_home (hook : Bool) (i : ι) : ((m.armVesa k hook).vc i).home = (m.vc i).home := by
  unfold armVesa
  split_ifs <;> rfl

omit [DecidableEq ι] in
theorem armVesa_fg (hook : Bool) : (m.armVesa k hook).fg = m.fg := by
  unfold armVesa
  split_ifs <;> rfl

theorem enterGraphics_home (i : ι) : ((m.enterGraphics k).vc i).home = (m.vc i).home :=
  (setOrigin_home _ _).trans (conBlank_home (m := m.saveScreen k m.fg) true i)

theorem blankText_home (i : ι) : ((m.blankText k).vc i).home = (m.vc i).home := by
  unfold blankText
  dsimp only
  split_ifs
  · exact (setOrigin_home _ _).trans (conBlank_home (m := m.saveScreen k m.fg) false i)
  · exact conBlank_home (m := m.saveScreen k m.fg) false i

theorem blankText_fg : (m.blankText k).fg = m.fg := by
  unfold blankText
  dsimp only
  split_ifs <;> rfl

theorem doBlankScreen_home (enteringGfx hook : Bool) (i : ι) :
    ((m.doBlankScreen k enteringGfx hook).vc i).home = (m.vc i).home := by
  unfold doBlankScreen powerdownScreen
  dsimp only
  split_ifs
  · rfl
  · rfl
  · rfl
  · rfl
  · exact enterGraphics_home (m := { m with blankState := .off }) i
  · rfl
  · exact (armVesa_home hook i).trans (blankText_home (m := { m with blankState := .off }) i)

theorem doBlankScreen_fg (enteringGfx hook : Bool) :
    (m.doBlankScreen k enteringGfx hook).fg = m.fg := by
  unfold doBlankScreen powerdownScreen
  dsimp only
  split_ifs
  · rfl
  · rfl
  · rfl
  · rfl
  · rfl
  · rfl
  · exact (armVesa_fg hook).trans (blankText_fg (m := { m with blankState := .off }))

/-- A screen that the driver does not accept stays so while it is blanked. -/
theorem Consistent.doBlankScreen_hidden (h : m.Consistent k) (hacc : ¬ m.Accepts k)
    (enteringGfx hook : Bool) : ¬ (m.doBlankScreen k enteringGfx hook).Accepts k := by
  obtain ⟨hgfx, hpalette⟩ := vgaconVesaBlank_flags k m.card
  have hblanked : m.blanked = true := by
    cases hb : m.blanked with
    | true => rfl
    | false => exact absurd (h.accepts_lit hb) hacc
  rw [accepts_iff] at hacc ⊢
  unfold Machine.doBlankScreen powerdownScreen
  rw [if_pos hblanked]
  dsimp only
  split_ifs
  · exact hacc
  · dsimp only
    rw [hgfx, hpalette]
    exact hacc
  · exact hacc

/-- **The driver saves the screen when it enters graphics**: a screen in the video
memory is neither blanked nor has `do_blank_screen` nothing to do. -/
def Ready (k : Card) (m : Machine ι) : Prop :=
  m.Accepts k → m.blanked = false ∧ m.blankState = .normalWait

theorem Held.entered (h : m.Held k ps) (hready : m.Ready k) (hook : Bool) :
    ¬ (m.doBlankScreen k true hook).Accepts k := by
  have hoff : ({ m with blankState := .off } : Machine ι).Held k ps :=
    h.congr rfl (fun _ => rfl) rfl rfl rfl rfl
  by_cases hacc : m.Accepts k
  · obtain ⟨hlit, hwait⟩ := hready hacc
    unfold Machine.doBlankScreen
    rw [if_neg (by rw [hlit]; exact Bool.false_ne_true),
      if_neg (by rw [hwait]; exact fun hne => hne rfl), if_pos rfl]
    exact (hoff.enterGraphics hlit).2
  · exact h.consistent.doBlankScreen_hidden hacc true hook

theorem mode_of_home {c c' : Vc} (h : c.home = c'.home) : c.mode = c'.mode :=
  (congrArg Vc.mode h :)

theorem Held.doBlankScreen_safe (h : m.Held k ps) (hsafe : m.Safe k) (hook : Bool) :
    (m.doBlankScreen k false hook).Safe k := by
  intro hmode
  have hbefore : m.fgVc.mode = .graphics := by
    unfold fgVc at hmode
    rwa [doBlankScreen_fg, mode_of_home (doBlankScreen_home false hook m.fg)] at hmode
  exact h.consistent.doBlankScreen_hidden (hsafe hbefore) false hook

/-! ### Unblanking -/

theorem vgaconUnblank_wake {g : Globals} (hp : g.paletteBlanked = true) :
    vgaconUnblank g = ({ g with vesaBlanked := false, paletteBlanked := false }, false) := by
  unfold vgaconUnblank
  dsimp only
  rw [if_pos hp]

theorem vgaconUnblank_restore {g : Globals} (hp : g.paletteBlanked = false) :
    vgaconUnblank g = ({ g with vesaBlanked := false, isGfx := false }, true) := by
  unfold vgaconUnblank
  dsimp only
  rw [if_neg (by rw [hp]; exact Bool.false_ne_true)]

omit [DecidableEq ι] in
theorem lit_flags (hgfx : m.lit.card.isGfx = false) : m.lit.Flags := by
  refine ⟨fun hp => ?_, fun hg => ?_⟩
  · change (vgaconUnblank m.card).1.paletteBlanked = true at hp
    rw [vgaconUnblank_palette] at hp
    exact absurd hp Bool.false_ne_true
  · rw [hgfx] at hg
    exact absurd hg Bool.false_ne_true

omit [DecidableEq ι] in
/-- A screen with its palette blanked is still in the video memory. -/
theorem Held.woken (h : m.Held k ps) (hp : m.card.paletteBlanked = true) : m.lit.Held k ps := by
  have hgfx := (h.consistent.palette hp).2
  have hlitGfx : m.lit.card.isGfx = false := by
    change (vgaconUnblank m.card).1.isGfx = false
    rw [vgaconUnblank_wake hp]
    exact hgfx
  have hbefore : m.Accepts k := accepts_iff.mpr ⟨hgfx, fun _ => hp⟩
  have hafter : m.lit.Accepts k :=
    accepts_iff.mpr ⟨hlitGfx, fun hb => absurd hb Bool.false_ne_true⟩
  have hflags := lit_flags hlitGfx
  exact ⟨⟨h.consistent.toLayout.congr fun _ => rfl, h.consistent.at_origin, h.consistent.back,
    fun hno => absurd hafter hno, fun _ => h.consistent.shown hbefore, hflags.palette,
    hflags.gfx⟩, h.text⟩

theorem Held.restored (h : m.Held k ps) (hblanked : m.blanked = true)
    (hp : m.card.paletteBlanked = false) : (m.lit.updateScreen k m.fg).Held k ps := by
  have hlitGfx : m.lit.card.isGfx = false := by
    change (vgaconUnblank m.card).1.isGfx = false
    rw [vgaconUnblank_restore hp]
  have hstored : m.lit.Stored k ps :=
    (h.stored (not_accepts_blanked hblanked hp)).congr (fun _ => rfl) fun i => .refl _ _ _
  exact hstored.updateScreen h.consistent.inBack (lit_flags hlitGfx)

/-- **Unblanking brings the screen back.** -/
theorem Held.unblankVt (h : m.Held k ps) : (m.unblankVt k).Held k ps := by
  have hawake : ({ m with ignorePoke := false } : Machine ι).Held k ps :=
    h.congr rfl (fun _ => rfl) rfl rfl rfl rfl
  unfold Machine.unblankVt
  dsimp only
  split_ifs with hdark hmode hrestore
  · exact hawake
  · exact hawake
  · have hp : m.card.paletteBlanked = false := by
      by_contra hp
      rw [Bool.not_eq_false] at hp
      rw [vgaconUnblank_wake hp] at hrestore
      exact absurd hrestore Bool.false_ne_true
    exact hawake.restored (by simpa using hdark) hp
  · have hp : m.card.paletteBlanked = true := by
      by_contra hp
      rw [Bool.not_eq_true] at hp
      rw [vgaconUnblank_restore hp] at hrestore
      exact hrestore rfl
    exact hawake.woken hp

theorem unblankVt_home (i : ι) : ((m.unblankVt k).vc i).home = (m.vc i).home := by
  unfold unblankVt
  dsimp only
  split_ifs
  · rfl
  · rfl
  · exact setOrigin_home _ _
  · rfl

theorem unblankVt_fg : (m.unblankVt k).fg = m.fg := by
  unfold unblankVt
  dsimp only
  split_ifs <;> rfl

omit [DecidableEq ι] in
theorem safe_text (h : m.fgVc.mode = .text) : m.Safe k := by
  intro hmode
  rw [h] at hmode
  exact absurd hmode nofun

theorem unblankVt_safe (h : m.Safe k) : (m.unblankVt k).Safe k := by
  intro hmode
  have hbefore : m.fgVc.mode = .graphics := by
    unfold fgVc at hmode
    rwa [unblankVt_fg, mode_of_home (unblankVt_home m.fg)] at hmode
  have hacc := h hbefore
  unfold unblankVt
  dsimp only
  split_ifs with _ htext
  · exact hacc
  · exact hacc
  · exact absurd (hbefore.symm.trans (not_not.mp htext)) nofun
  · exact absurd (hbefore.symm.trans (not_not.mp htext)) nofun

theorem Held.pokeBlankedConsole (h : m.Held k ps) : (m.pokeBlankedConsole k).Held k ps := by
  unfold Machine.pokeBlankedConsole
  split_ifs
  · exact h
  · exact h.unblankVt
  · exact h.congr rfl (fun _ => rfl) rfl rfl rfl rfl
  · exact h

theorem pokeBlankedConsole_safe (h : m.Safe k) : (m.pokeBlankedConsole k).Safe k := by
  unfold pokeBlankedConsole
  split_ifs
  · exact h
  · exact unblankVt_safe h
  · exact h
  · exact h

/-! ### Switching -/

/-- **A switch saves the old screen and brings the new one.** -/
theorem Held.switchScreen (h : m.Held k ps) (j : ι) : (m.switchScreen k j).Held k ps := by
  unfold Machine.switchScreen
  split_ifs with hj
  · exact h
  · have hsaved : (({ m with fg := j } : Machine ι).saveScreen k m.fg).Stored k ps :=
      h.saved.congr (fun _ => rfl) fun i => .refl _ _ _
    have hstored : ((({ m with fg := j } : Machine ι).saveScreen k m.fg).setOrigin k m.fg).Stored
        k ps := hsaved.congr (setOrigin_home _) fun i => .refl _ _ _
    have hflags := h.consistent.flags
    refine hstored.updateScreen (fun i hi => ?_) ⟨hflags.palette, hflags.gfx⟩
    by_cases hold : i = m.fg
    · subst hold
      have hbehind : ¬ m.fg = (({ m with fg := j } : Machine ι).saveScreen k m.fg).fg := hj
      rw [setOrigin_vc, if_neg hbehind]
      rfl
    · rw [setOrigin_others hold]
      exact h.consistent.inBack i hold

theorem switchScreen_home (i j : ι) : ((m.switchScreen k j).vc i).home = (m.vc i).home := by
  unfold switchScreen
  split_ifs
  · rfl
  · exact (setOrigin_home _ _).trans (setOrigin_home _ _)

theorem switchScreen_flags (j : ι) : (m.switchScreen k j).card = m.card ∧
    (m.switchScreen k j).blanked = m.blanked ∧
      (m.switchScreen k j).blankState = m.blankState := by
  unfold switchScreen
  split_ifs <;> exact ⟨rfl, rfl, rfl⟩

/-- The mode is followed if a text screen in the video memory is saved first. -/
theorem Held.followMode (h : m.Held k ps) (hready : m.fgVc.mode = .graphics → m.Ready k) :
    (m.followMode k).Held k ps ∧ (m.followMode k).Safe k := by
  unfold Machine.followMode
  split_ifs with hmode
  · exact ⟨h.unblankVt, unblankVt_safe (safe_text hmode)⟩
  · have hgraphics : m.fgVc.mode = .graphics := by
      cases hm : m.fgVc.mode with
      | text => exact absurd hm hmode
      | graphics => rfl
    exact ⟨h.doBlankScreen (fun hno => absurd hno.symm Bool.false_ne_true) false,
      fun _ => h.entered (hready hgraphics) false⟩

theorem Held.changeConsole (h : m.Held k ps) (hsafe : m.Safe k) (j : ι) (auto : Bool)
    (hready : m.fgVc.mode = .text → (m.vc j).mode = .graphics → m.Ready k) :
    (m.changeConsole k j auto).Held k ps ∧ (m.changeConsole k j auto).Safe k := by
  obtain ⟨hcard, hblanked, hstate⟩ := switchScreen_flags (m := m) (k := k) j
  have hmode : (m.switchScreen k j).fgVc.mode = (m.vc j).mode := by
    unfold fgVc
    rw [switchScreen_fg]
    exact mode_of_home (switchScreen_home j j)
  have hacc : (m.switchScreen k j).Accepts k ↔ m.Accepts k := by
    unfold Accepts
    rw [hcard, hblanked]
  unfold Machine.changeConsole completeChangeConsole
  dsimp only
  split_ifs with hauto hdiffer
  · exact ⟨h, hsafe⟩
  · refine (h.switchScreen j).followMode fun hgraphics => ?_
    have htext : m.fgVc.mode = .text := text_of_differ hdiffer hgraphics
    unfold Ready
    rw [hacc, hblanked, hstate]
    exact hready htext (hmode ▸ hgraphics)
  · refine ⟨h.switchScreen j, fun hgraphics => ?_⟩
    rw [hacc]
    exact hsafe ((not_not.mp hdiffer).trans hgraphics)

theorem Held.setMode (h : m.Held k ps) (i : ι) (mode : KdMode) :
    (m.setVc i { m.vc i with mode := mode }).Held k ps := by
  refine h.congr rfl (fun j => ?_) rfl rfl rfl rfl
  by_cases hj : j = i
  · subst hj
    rw [setVc_self]
  · rw [setVc_of_ne _ hj]

theorem Held.kdSetMode (h : m.Held k ps) (hsafe : m.Safe k) (i : ι) (mode : KdMode)
    (hready : i = m.fg → m.fgVc.mode = .text → mode = .graphics → m.Ready k) :
    (m.kdSetMode k i mode).Held k ps ∧ (m.kdSetMode k i mode).Safe k := by
  unfold Machine.kdSetMode
  dsimp only
  split_ifs with hsame hfg
  · exact ⟨h, hsafe⟩
  · have hi : i = m.fg := hfg
    subst hi
    refine (h.setMode m.fg mode).followMode fun hgraphics => ?_
    have hmode : mode = .graphics := (fgVc_setMode mode).symm.trans hgraphics
    exact hready rfl (text_of_differ hsame hmode) hmode
  · refine ⟨h.setMode i mode, fun hgraphics => hsafe ?_⟩
    rwa [fgVc_setVc_of_ne (m := m) _ hfg] at hgraphics

/-! ### Writes -/

omit [DecidableEq ι] in
theorem softPaint_mode (mem : Nat → Cell) (c : Vc) (a : Paint) :
    (softPaint mem c a).2.mode = c.mode := by
  cases a with
  | eraseChar e => rfl
  | _ =>
    unfold softPaint
    dsimp only
    split_ifs <;> rfl

theorem softPaint_at {mem : Nat → Cell} {c : Vc} (h : c = c.at c.geo.origin) (a : Paint) :
    (softPaint mem c a).2 = (softPaint mem c a).2.at (softPaint mem c a).2.geo.origin := by
  have hend : c.geo = { c.geo with scrEnd := c.geo.origin + c.geo.screenbufSize } :=
    congrArg Vc.geo h
  cases a with
  | goto x y =>
    unfold softPaint
    dsimp only
    split_ifs
    · unfold Vc.at
      dsimp only
      rw [← hend, Nat.mul_comm c.geo.sizeRow]
    · exact h
  | eraseChar e => exact congrArg (fun c : Vc => { c with eraseChar := e }) h
  | _ =>
    unfold softPaint
    dsimp only
    split_ifs <;> exact h

/-- One console changed and its screen, if it is in the video memory, moved there. -/
theorem Held.setVc (h : m.Held k ps) {i : ι} {mem : Nat → Cell} {c : Vc} {p : Private}
    (hgeo : c.home.geo = (m.vc i).home.geo) (hat : c = c.at c.geo.origin)
    (hplace : c.geo.origin = (m.vc i).geo.origin ∨
      (i = m.fg ∧ m.Accepts k ∧ k.vramBase ≤ c.geo.origin ∧
        c.geo.origin + c.geo.screenbufSize ≤ k.vramEnd))
    (hframe : ∀ j, j ≠ i → SameWindow mem (m.vc j).geo.origin m.mem (m.vc j).geo.origin
      (m.vc j).geo.screenbufSize)
    (halike : Alike mem c p) :
    (({ m with mem := mem } : Machine ι).setVc i c).Held k (Function.update ps i p) := by
  have hself : (({ m with mem := mem } : Machine ι).setVc i c).vc i = c := setVc_self i c
  have hothers : ∀ j, j ≠ i → (({ m with mem := mem } : Machine ι).setVc i c).vc j = m.vc j :=
    fun j hj => setVc_of_ne c hj
  have hbuf : c.geo.screenbuf = (m.vc i).geo.screenbuf := (congrArg Geom.screenbuf hgeo :)
  have hsize : c.geo.screenbufSize = (m.vc i).geo.screenbufSize :=
    (congrArg Geom.screenbufSize hgeo :)
  have hlayout : (({ m with mem := mem } : Machine ι).setVc i c).Layout k := by
    refine h.consistent.toLayout.congr fun j => ?_
    by_cases hj : j = i
    · rw [hj, hself, hgeo]
    · rw [hothers j hj]
  have hfront : m.fg = i → (({ m with mem := mem } : Machine ι).setVc i c).fgVc = c :=
    fun hi => (congrArg _ hi).trans hself
  have hbehind : m.fg ≠ i → (({ m with mem := mem } : Machine ι).setVc i c).fgVc = m.fgVc :=
    hothers m.fg
  refine ⟨⟨hlayout, fun j => ?_, fun j hj => ?_, fun hno => ?_, fun hyes => ?_,
    h.consistent.palette, h.consistent.gfx⟩, fun j => ?_⟩
  · by_cases hj : j = i
    · rw [hj, hself]
      exact hat
    · rw [hothers j hj]
      exact h.consistent.at_origin j
  · by_cases hji : j = i
    · subst hji
      rw [hself, hbuf]
      rcases hplace with hplace | ⟨hfg, -⟩
      · rw [hplace]
        exact h.consistent.back j hj
      · exact absurd hfg hj
    · rw [hothers j hji]
      exact h.consistent.back j hj
  · have hno' : ¬ m.Accepts k := hno
    by_cases hi : m.fg = i
    · rw [hfront hi, hbuf]
      rcases hplace with hplace | ⟨-, hacc, -⟩
      · subst hi
        rw [hplace]
        exact h.consistent.hidden hno'
      · exact absurd hacc hno'
    · rw [hbehind hi]
      exact h.consistent.hidden hno'
  · have hyes' : m.Accepts k := hyes
    by_cases hi : m.fg = i
    · rw [hfront hi]
      rcases hplace with hplace | ⟨-, -, hbase, hend⟩
      · subst hi
        rw [hplace, hsize]
        exact h.consistent.shown hyes'
      · exact ⟨hbase, hend⟩
    · rw [hbehind hi]
      exact h.consistent.shown hyes'
  · by_cases hj : j = i
    · rw [hj, hself, Function.update_self]
      exact halike
    · rw [hothers j hj, Function.update_of_ne hj]
      exact (h.text j).frame (hframe j hj)

/-- **A `Paint` does to the console what it does to its private one**, and nothing to
the others. -/
theorem Held.paint (h : m.Held k ps) {i : ι} {a : Paint}
    (hin : (m.hardScroll k i a).isSome = true → m.Accepts k) :
    (m.paint k i a).Held k (Function.update ps i ((ps i).paint a)) := by
  have hsized := h.consistent.sized i
  unfold Machine.paint
  cases hr : m.hardScroll k i a with
  | none =>
    dsimp only
    have hgeo := softPaint_geo m.mem (m.vc i) a
    refine h.setVc ?_ (softPaint_at (h.consistent.at_origin i) a) ?_ (fun j hj => ?_)
      ((h.text i).softPaint hsized a)
    · unfold Vc.home Vc.at
      rw [hgeo]
    · rw [hgeo]
      exact .inl rfl
    · exact softPaint_frame hsized a (h.consistent.screens_apart (Ne.symm hj))
  | some r =>
    dsimp only
    have hacc := hin (by rw [hr]; rfl)
    obtain ⟨dir, nr, -, hfg, hscrolls, hresult⟩ := hardScroll_cases hr
    obtain ⟨hbase, hend⟩ : k.vramBase ≤ (m.vc i).geo.origin ∧
        (m.vc i).geo.origin + (m.vc i).geo.screenbufSize ≤ k.vramEnd := by
      subst hfg
      exact h.consistent.shown hacc
    have hat := h.consistent.at_origin i
    have hscrEnd : (m.vc i).geo.scrEnd = (m.vc i).geo.origin + (m.vc i).geo.screenbufSize :=
      congrArg (fun c : Vc => c.geo.scrEnd) hat
    have hpos : (m.vc i).pos =
        (m.vc i).geo.origin + (m.vc i).geo.sizeRow * (m.vc i).y + 2 * (m.vc i).x :=
      congrArg Vc.pos hat
    have hlines := scrollLines_le nr hscrolls.2.1
    have hdelta : scrollLines 0 (m.vc i).geo.rows nr * (m.vc i).geo.sizeRow ≤
        (m.vc i).geo.screenbufSize := by
      rw [hsized.size]
      exact Nat.mul_le_mul_right _ (by omega)
    have hinVram : (m.vc i).geo.scrEnd ≤ k.vramEnd := by omega
    obtain ⟨hbase', hend'⟩ := scrollTo_inside (s := m.scrollOf i)
      (scrollLines 0 (m.vc i).geo.rows nr * (m.vc i).geo.sizeRow) dir (h.consistent.small i)
      hbase hscrEnd
    have hframe := fun j => scrollTo_frame (s := m.scrollOf i) dir hdelta hbase hscrEnd hinVram
      (h.consistent.buffer j)
    have halike := (h.text i).hardScroll hsized hr
    subst hresult
    refine h.setVc rfl ?_ (.inr ⟨hfg, hacc, hbase', hend' hinVram⟩) (fun j hj => ?_) halike
    · unfold Vc.at
      dsimp only
      rw [hpos]
      congr 1
      omega
    · rw [h.consistent.back j (fun hj' => hj (hj'.trans hfg.symm))]
      exact hframe j

theorem paint_flags (i : ι) (a : Paint) : (m.paint k i a).fg = m.fg ∧
    (m.paint k i a).card = m.card ∧ (m.paint k i a).blanked = m.blanked ∧
      ∀ j, ((m.paint k i a).vc j).mode = (m.vc j).mode := by
  unfold Machine.paint
  cases m.hardScroll k i a with
  | none =>
    refine ⟨rfl, rfl, rfl, fun j => ?_⟩
    by_cases hj : j = i
    · subst hj
      rw [setVc_self, softPaint_mode]
    · rw [setVc_of_ne _ hj]
  | some r =>
    refine ⟨rfl, rfl, rfl, fun j => ?_⟩
    by_cases hj : j = i
    · subst hj
      rw [setVc_self]
    · rw [setVc_of_ne _ hj]

theorem paint_safe (h : m.Safe k) (i : ι) (a : Paint) : (m.paint k i a).Safe k := by
  obtain ⟨hfg, hcard, hblanked, hmode⟩ := paint_flags (m := m) (k := k) i a
  unfold Safe Accepts fgVc at h ⊢
  rw [hfg, hcard, hblanked, hmode]
  exact h

/-- The driver scrolls no screen outside of the video memory. -/
def ScrollsShown (k : Card) (i : ι) (m : Machine ι) (a : Paint) : Prop :=
  (m.hardScroll k i a).isSome = true → m.Accepts k

/-- **A write does to the console what it does to its private one.** -/
theorem Held.write (h : m.Held k ps) (hsafe : m.Safe k) {i : ι} {as : List Paint}
    (hin : Along (fun m a => m.paint k i a) (ScrollsShown k i) m as) :
    (m.write k i as).Held k (Function.update ps i ((ps i).write as)) ∧
      (m.write k i as).Safe k := by
  induction as generalizing m ps with
  | nil =>
    refine ⟨?_, hsafe⟩
    change m.Held k (Function.update ps i (ps i))
    rw [Function.update_eq_self]
    exact h
  | cons a as ih =>
    have hnext := ih (h.paint hin.1) (paint_safe hsafe i a) hin.2
    rw [Function.update_self, Function.update_idem] at hnext
    exact hnext

/-! ### Steps -/

/-- **The step loses no text**: what enters graphics is saved first, and the driver
scrolls no screen outside of the video memory. -/
def Saves (k : Card) (m : Machine ι) : Op ι → Prop
  | .write i as => Along (fun m a => m.paint k i a) (ScrollsShown k i) m as
  | .change j _ => m.fgVc.mode = .text → (m.vc j).mode = .graphics → m.Ready k
  | .kdSetMode i mode => i = m.fg → m.fgVc.mode = .text → mode = .graphics → m.Ready k
  | _ => True

/-- A process in front of a console in graphics writes to no buffer. -/
theorem Held.user (h : m.Held k ps) (hsafe : m.Safe k) (hmode : m.fgVc.mode = .graphics)
    (f : Nat → Cell) :
    ({ m with mem := fun a => if k.vramBase ≤ a ∧ a < k.vramEnd then f a else m.mem a } :
      Machine ι).Held k ps := by
  have hsize : k.vramBase + k.vramSize = k.vramEnd := Nat.add_sub_cancel' k.base_le
  refine ⟨{ h.consistent with toLayout := h.consistent.toLayout.congr fun _ => rfl }, fun i => ?_⟩
  refine (h.text i).frame fun a ha => if_neg ?_
  have hbuffer := h.consistent.buffer i
  have horigin : (m.vc i).geo.origin = (m.vc i).geo.screenbuf := by
    by_cases hi : i = m.fg
    · subst hi
      exact h.consistent.hidden (hsafe hmode)
    · exact h.consistent.back i hi
  rw [horigin]
  rcases hbuffer with hbuffer | hbuffer <;> omega

theorem Held.resetVc (h : m.Held k ps) (hsafe : m.Safe k) (i : ι) :
    (m.resetVc i).Held k ps ∧ (m.resetVc i).Safe k := by
  refine ⟨h.setMode i .text, fun hmode => hsafe ?_⟩
  have hfg : (m.resetVc i).fgVc = (m.resetVc i).vc m.fg := rfl
  rw [hfg] at hmode
  unfold Machine.resetVc at hmode
  by_cases hi : m.fg = i
  · rw [hi, setVc_self] at hmode
    exact absurd hmode nofun
  · rwa [setVc_of_ne _ hi] at hmode

/-- **A step does to every console what it does to its private one.** -/
theorem Held.step (h : m.Held k ps) (hsafe : m.Safe k) {o : Op ι} (hsaves : m.Saves k o) :
    (m.step k o).Held k (fun i => (ps i).step i o) ∧ (m.step k o).Safe k := by
  cases o with
  | write i as =>
    have hwrite := h.write hsafe hsaves
    have hps : Function.update ps i ((ps i).write as) = fun j => (ps j).step j (.write i as) := by
      funext j
      unfold Private.step
      by_cases hj : i = j
      · subst hj
        rw [Function.update_self]
        exact (if_pos rfl).symm
      · rw [Function.update_of_ne (Ne.symm hj)]
        exact (if_neg hj).symm
    rw [← hps]
    exact hwrite
  | change j auto => exact h.changeConsole hsafe j auto hsaves
  | blank tiocl hook =>
    have hpoked : ({ m with ignorePoke := m.ignorePoke || tiocl } : Machine ι).Held k ps :=
      h.congr rfl (fun _ => rfl) rfl rfl rfl rfl
    exact ⟨hpoked.doBlankScreen (fun _ => hsafe) hook, hpoked.doBlankScreen_safe hsafe hook⟩
  | unblank => exact ⟨h.unblankVt, unblankVt_safe hsafe⟩
  | poke => exact ⟨h.pokeBlankedConsole, pokeBlankedConsole_safe hsafe⟩
  | kdSetMode i mode => exact h.kdSetMode hsafe i mode hsaves
  | reset i => exact h.resetVc hsafe i
  | timing _ _ _ => exact ⟨h.congr rfl (fun _ => rfl) rfl rfl rfl rfl, hsafe⟩
  | user f =>
    unfold Machine.step
    dsimp only
    split_ifs with hmode
    · exact ⟨h.user hsafe hmode f, hsafe⟩
    · exact ⟨h, hsafe⟩

end Machine

/-! ### Runs -/

/-- A private copy of a console. -/
def Machine.own (m : Machine ι) (i : ι) : Private := ⟨m.mem, m.vc i⟩

/-- **The text of every console is preserved**: the cells, the cursor and the blank
cell are those of a private console that only its own writes change, in every run
whose steps lose no text. -/
theorem text_preserved (k : Card) (m : Machine ι) (hm : m.Consistent k) (hsafe : m.Safe k)
    (os : List (Op ι)) (hsaves : Along (Machine.step k) (Machine.Saves k) m os) (i : ι) :
    let c := (run (Machine.step k) m os).vc i
    Alike (run (Machine.step k) m os).mem c (run (Private.step i) (m.own i) os) ∧
      c.pos = c.geo.origin + c.geo.sizeRow * c.y + 2 * c.x := by
  have hrun : ∀ (m : Machine ι) (ps : ι → Private), m.Held k ps → m.Safe k →
      Along (Machine.step k) (Machine.Saves k) m os →
      (run (Machine.step k) m os).Held k (fun i => run (Private.step i) (ps i) os) := by
    clear hsaves
    induction os with
    | nil => exact fun m ps h _ _ => h
    | cons o os ih =>
      intro m ps h hsafe hsaves
      obtain ⟨hnext, hnextSafe⟩ := h.step hsafe hsaves.1
      exact ih (m.step k o) _ hnext hnextSafe hsaves.2
  have hstart : m.Held k m.own :=
    ⟨hm, fun i => ⟨rfl, rfl, rfl, rfl, rfl, rfl, rfl, .refl _ _ _⟩⟩
  have hheld := hrun m m.own hstart hsafe hsaves
  exact ⟨hheld.text i, congrArg Vc.pos (hheld.consistent.at_origin i)⟩

theorem bootMachine_consistent : bootMachine.Consistent colorCard := by
  have hacc : bootMachine.Accepts colorCard := rfl
  refine ⟨⟨fun i => ?_, fun i => ?_, fun i => ?_, fun i j hij => ?_⟩, fun i => ?_, fun i hi => ?_,
    fun hno => absurd hacc hno, fun _ => ?_, nofun, nofun⟩
  · cases i <;> exact ⟨rfl, rfl⟩
  · unfold Machine.Small
    cases i <;> decide
  · unfold Apart
    cases i <;> decide
  · unfold Apart
    cases i <;> cases j <;> first | exact absurd rfl hij | decide
  · cases i <;> rfl
  · cases i with
    | false => exact absurd rfl hi
    | true => rfl
  · decide

/-- A scroll, a switch to a console that enters graphics and is overwritten, a switch
back, a blanking and an unblanking. -/
theorem text_preserved_graphics :
    let os : List (Op Bool) := [.write false [.rewrite 0 2 fun _ => 0x0741#16, .scroll .up 0 25 1],
      .change true true, .kdSetMode true .graphics, .user fun _ => 0x0758#16, .change false false,
      .blank true false, .unblank]
    Alike (run (Machine.step colorCard) bootMachine os).mem
      ((run (Machine.step colorCard) bootMachine os).vc false)
      (run (Private.step false) (bootMachine.own false) os) := by
  intro os
  refine (text_preserved colorCard bootMachine bootMachine_consistent
    (Machine.safe_text rfl) os ?_ false).1
  refine ⟨⟨fun _ => rfl, fun _ => rfl, trivial⟩, fun _ hno => ?_, fun _ _ _ _ => ?_,
    trivial, fun hno => ?_, trivial, trivial, trivial⟩
  · exact absurd hno (by decide)
  · decide +kernel
  · exact absurd hno (by decide +kernel)

/-- **A screen that is blanked by its palette when it enters graphics** is not saved,
and the text is lost. -/
theorem text_lost :
    ¬ ∀ (m : Machine Bool) (os : List (Op Bool)), m.Consistent colorCard → m.Safe colorCard →
      ∀ i, Alike (run (Machine.step colorCard) m os).mem
        ((run (Machine.step colorCard) m os).vc i) (run (Private.step i) (m.own i) os) := by
  intro h
  have htext := (h bootMachine [.blank false false, .kdSetMode false .graphics,
    .user fun _ => 0x0758#16, .kdSetMode false .text] bootMachine_consistent
    (Machine.safe_text rfl) false).text 0 (by decide +kernel)
  revert htext
  decide +kernel

end LinuxConsole.Vga

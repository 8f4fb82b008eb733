import LinuxConsole.Lib.Run
import LinuxConsole.Vga.Machine
import LinuxConsole.Vga.Scroll

/-!
# The extent of a VGA screen

Where the screen of a console lies.  `Placed` says that it ends where its origin
and its size say and that a screen with its origin in the video memory ends
there too.

`vc_resize` takes any size up to 32767 by 32767 and `vgacon_set_origin` does not
look at it.  **`screens_placed`** says that every screen is placed in every run
in which no console larger than the video memory is put on the display and the
driver scrolls no screen that is outside of it (`Fits`).
-/

namespace LinuxConsole.Vga

open Lib

variable {ι : Type} [DecidableEq ι] {k : Card} {m : Machine ι}

/-! ### Steps with resizing -/

/-- A step of the display, a `vc_resize` or a `set_origin`. -/
inductive Act (ι : Type)
  | op (o : Op ι)
  | resize (i : ι) (cols lines : Nat) (newscreen : Option Nat) (eraseChar : Cell)
  | setOrigin (i : ι)

/-- One step. -/
def Machine.act (k : Card) (m : Machine ι) : Act ι → Machine ι
  | .op o => m.step k o
  | .resize i cols lines newscreen eraseChar => m.vcResize k i cols lines newscreen eraseChar
  | .setOrigin i => m.setOrigin k i

/-! ### Placed screens -/

/-- The address is one of the video memory. -/
def Card.InVram (k : Card) (a : Nat) : Prop := k.vramBase ≤ a ∧ a < k.vramEnd

/-- **A screen that is where it may be.** -/
structure Placed (k : Card) (geo : Geom) : Prop where
  scrEnd : geo.scrEnd = geo.origin + geo.screenbufSize
  buffer : ¬ k.InVram geo.screenbuf
  inside : k.InVram geo.origin → geo.scrEnd ≤ k.vramEnd

/-- The console is no larger than the video memory. -/
def Machine.Small (k : Card) (m : Machine ι) (i : ι) : Prop :=
  (m.vc i).geo.screenbufSize ≤ k.vramSize

/-- The driver gives the foreground console an origin in the video memory. -/
def Machine.Accepts (k : Card) (m : Machine ι) : Prop :=
  (vgaconSetOrigin k m.card m.blanked).isSome = true

/-- The screens are placed, and only a VGA card has its palette blanked. -/
structure Machine.AllPlaced (k : Card) (m : Machine ι) : Prop where
  placed : ∀ i, Placed k (m.vc i).geo
  palette : m.card.paletteBlanked = true → k.isVgac = true

/-- `vgacon_blank` asks for the screen when it is unblanked: it was not the palette that was
blanked. -/
def Machine.Restores (m : Machine ι) : Prop :=
  m.blanked = true ∧ m.card.paletteBlanked = false

/-- **The step puts no console on the display that is larger than the video
memory**, and the driver scrolls no screen outside of it. -/
def Machine.Fits (k : Card) (m : Machine ι) : Act ι → Prop
  | .op (.write i ps) =>
    Along (fun m p => m.paint k i p)
      (fun m p => (m.hardScroll k i p).isSome = true → k.InVram (m.vc i).geo.origin) m ps
  | .op (.change j auto) =>
    ¬(auto = true ∧ m.fgVc.mode = .graphics) → m.fg ≠ j →
      (m.Accepts k ∨ (m.fgVc.mode = .graphics ∧ (m.vc j).mode = .text ∧ m.Restores)) →
        m.Small k j
  | .op .unblank => m.fgVc.mode = .text → m.Restores → m.Small k m.fg
  | .op .poke => m.ignorePoke = false → m.fgVc.mode = .text → m.Restores → m.Small k m.fg
  | .op (.kdSetMode i mode) =>
    i = m.fg → (m.vc i).mode = .graphics → mode = .text → m.Restores → m.Small k m.fg
  | .resize i cols lines newscreen _ =>
    let newCols := if cols ≠ 0 then cols else (m.vc i).geo.cols
    let newRows := if lines ≠ 0 then lines else (m.vc i).geo.rows
    ¬(cols > 32767 ∨ lines > 32767) →
      ¬(newCols = (m.vc i).geo.cols ∧ newRows = (m.vc i).geo.rows) → newscreen.isSome = true →
        i = m.fg → m.Accepts k → 2 * newCols * newRows ≤ k.vramSize
  | .setOrigin i => i = m.fg → m.Accepts k → m.Small k i
  | _ => True

/-- `kmalloc` gives no video memory. -/
def Act.Kmalloced (k : Card) : Act ι → Prop
  | .resize _ _ _ (some buf) _ => ¬ k.InVram buf
  | _ => True

/-! ### What moves a screen -/

theorem Placed.at {c : Vc} {origin : Nat} (hbuf : ¬ k.InVram c.geo.screenbuf)
    (hin : k.InVram origin → origin + c.geo.screenbufSize ≤ k.vramEnd) :
    Placed k (c.at origin).geo := ⟨rfl, hbuf, hin⟩

theorem text_of_differ {mode mode' : KdMode} (h : mode ≠ mode') (hmode : mode' = .graphics) :
    mode = .text := by
  cases mode with
  | text => rfl
  | graphics => exact absurd hmode.symm h

theorem graphics_of_differ {mode mode' : KdMode} (h : mode ≠ mode') (hmode : mode' = .text) :
    mode = .graphics := by
  cases mode with
  | text => exact absurd hmode.symm h
  | graphics => rfl

namespace Machine

@[simp] theorem setVc_self (i : ι) (c : Vc) : (m.setVc i c).vc i = c := by
  simp [setVc]

theorem setVc_of_ne {i j : ι} (c : Vc) (h : j ≠ i) : (m.setVc i c).vc j = m.vc j := by
  simp [setVc, h]

/-- The mode that is set in the foreground console. -/
theorem fgVc_setMode (mode : KdMode) :
    (m.setVc m.fg { m.vc m.fg with mode := mode }).fgVc.mode = mode := by
  rw [fgVc]
  exact congrArg Vc.mode (setVc_self _ _)

/-- A mode that is set in another console. -/
theorem fgVc_setVc_of_ne {i : ι} (c : Vc) (h : i ≠ m.fg) : (m.setVc i c).fgVc = m.fgVc :=
  setVc_of_ne _ (Ne.symm h)

@[simp] theorem setVc_card (i : ι) (c : Vc) : (m.setVc i c).card = m.card := rfl

@[simp] theorem setVc_fg (i : ι) (c : Vc) : (m.setVc i c).fg = m.fg := rfl

theorem placed_setVc {i : ι} {c : Vc} (hothers : ∀ j, j ≠ i → Placed k (m.vc j).geo)
    (hc : Placed k c.geo) (j : ι) : Placed k ((m.setVc i c).vc j).geo := by
  by_cases hj : j = i
  · subst hj
    rw [setVc_self]
    exact hc
  · rw [setVc_of_ne c hj]
    exact hothers j hj

/-- **`set_origin` places a screen** that fits where it goes. -/
theorem setOrigin_placed {i : ι} (hothers : ∀ j, j ≠ i → Placed k (m.vc j).geo)
    (hbuf : ¬ k.InVram (m.vc i).geo.screenbuf)
    (hfit : i = m.fg → m.Accepts k → m.Small k i) (j : ι) :
    Placed k ((m.setOrigin k i).vc j).geo := by
  refine placed_setVc hothers (Placed.at hbuf fun hin => ?_) j
  by_cases hfg : i = m.fg
  · rw [if_pos hfg] at hin ⊢
    cases horigin : vgaconSetOrigin k m.card m.blanked with
    | none =>
      rw [horigin] at hin
      exact absurd hin hbuf
    | some origin =>
      have hsmall := hfit hfg (by unfold Accepts; rw [horigin]; rfl)
      have hbase : origin = k.vramBase := by
        unfold vgaconSetOrigin at horigin
        split_ifs at horigin
        exact (Option.some.inj horigin).symm
      have hsize := k.base_le
      unfold Small Card.vramSize at hsmall
      rw [Option.getD_some, hbase]
      omega
  · rw [if_neg hfg] at hin
    exact absurd hin hbuf

theorem AllPlaced.setOrigin {i : ι} (h : m.AllPlaced k)
    (hfit : i = m.fg → m.Accepts k → m.Small k i) : (m.setOrigin k i).AllPlaced k :=
  ⟨setOrigin_placed (fun j _ => h.placed j) (h.placed i).buffer hfit, h.palette⟩

omit [DecidableEq ι] in
/-- What does not touch the consoles and the palette. -/
theorem AllPlaced.congr {m' : Machine ι} (h : m.AllPlaced k) (hvc : m'.vc = m.vc)
    (hcard : m'.card.paletteBlanked = m.card.paletteBlanked) : m'.AllPlaced k := by
  refine ⟨fun i => ?_, fun hp => h.palette (hcard ▸ hp)⟩
  rw [hvc]
  exact h.placed i

theorem AllPlaced.updateScreen {i : ι} (h : m.AllPlaced k)
    (hfit : i = m.fg → m.Accepts k → m.Small k i) : (m.updateScreen k i).AllPlaced k :=
  (h.setOrigin hfit).congr rfl rfl

theorem setOrigin_size (i j : ι) :
    ((m.setOrigin k i).vc j).geo.screenbufSize = (m.vc j).geo.screenbufSize := by
  unfold setOrigin
  by_cases hj : j = i
  · subst hj
    rw [setVc_self]
    rfl
  · rw [setVc_of_ne _ hj]

/-! ### Blanking -/

omit [DecidableEq ι] in
theorem not_accepts_gfx (h : m.card.isGfx = true) : ¬ m.Accepts k := by
  unfold Accepts vgaconSetOrigin
  rw [if_pos (.inl h)]
  exact Bool.false_ne_true

omit [DecidableEq ι] in
theorem not_accepts_blanked (h : m.blanked = true) (hp : m.card.paletteBlanked = false) :
    ¬ m.Accepts k := by
  unfold Accepts vgaconSetOrigin
  rw [if_pos (.inr ⟨h, by rw [hp]; rfl⟩)]
  exact Bool.false_ne_true

/-- `con_blank` moves the origin of the foreground console only. -/
theorem conBlank_others (h : m.AllPlaced k) (modeSwitch : Bool) :
    (∀ j, j ≠ m.fg → Placed k (((m.conBlank k modeSwitch).1).vc j).geo) ∧
      ¬ k.InVram (((m.conBlank k modeSwitch).1).vc m.fg).geo.screenbuf ∧
      ((m.conBlank k modeSwitch).1).fg = m.fg ∧
      ((m.conBlank k modeSwitch).1).blanked = true := by
  refine ⟨fun j hj => ?_, ?_, rfl, rfl⟩
  · change Placed k (((m.setVc m.fg _).vc j).geo)
    rw [setVc_of_ne _ hj]
    exact h.placed j
  · change ¬ k.InVram (((m.setVc m.fg _).vc m.fg).geo.screenbuf)
    rw [setVc_self]
    exact (h.placed m.fg).buffer

/-- Entering graphics puts the screen in its buffer. -/
theorem AllPlaced.enterGraphics (h : m.AllPlaced k) : (m.enterGraphics k).AllPlaced k := by
  have hsaved : (m.saveScreen k m.fg).AllPlaced k := h.congr rfl rfl
  obtain ⟨hothers, hbuf, -, -⟩ := conBlank_others hsaved true
  refine ⟨setOrigin_placed hothers hbuf fun _ hacc => ?_, hsaved.palette⟩
  refine absurd hacc (not_accepts_gfx ?_)
  change (m.card.isGfx || true) = true
  rw [Bool.or_true]

/-- The hook leaves a text screen where it is or asks for it to be put in its
buffer. -/
theorem conBlank_text (h : m.AllPlaced k) :
    ((m.conBlank k false).2 = false ∧ (m.conBlank k false).1.AllPlaced k) ∨
      ((m.conBlank k false).2 = true ∧
        (m.conBlank k false).1.card.paletteBlanked = m.card.paletteBlanked ∧
          m.card.paletteBlanked = false) := by
  cases hvgac : k.isVgac with
  | true =>
    have hblank : vgaconBlank k m.card m.blanked false m.mem m.fgVc.geo =
        ({ m.card with paletteBlanked := true }, m.mem, m.fgVc.geo.origin, false) := by
      unfold vgaconBlank
      rw [if_pos ⟨rfl, hvgac⟩]
    left
    unfold conBlank
    rw [hblank]
    exact ⟨rfl, placed_setVc (fun j _ => h.placed j) (h.placed m.fg), fun _ => hvgac⟩
  | false =>
    have hnot : ¬ ((!false) = true ∧ k.isVgac = true) := by simp [hvgac]
    right
    unfold conBlank vgaconBlank
    rw [if_neg hnot]
    refine ⟨rfl, rfl, ?_⟩
    cases hp : m.card.paletteBlanked with
    | false => rfl
    | true => exact absurd (h.palette hp) (by rw [hvgac]; exact Bool.false_ne_true)

theorem AllPlaced.blankText (h : m.AllPlaced k) : (m.blankText k).AllPlaced k := by
  have hsaved : (m.saveScreen k m.fg).AllPlaced k := h.congr rfl rfl
  unfold Machine.blankText
  dsimp only
  rcases conBlank_text hsaved with ⟨hreset, hplaced⟩ | ⟨hreset, hpalette, hoff⟩
  · rw [hreset, if_neg Bool.false_ne_true]
    exact hplaced
  · obtain ⟨hothers, hbuf, -, hblanked⟩ := conBlank_others hsaved false
    rw [hreset, if_pos rfl]
    refine ⟨setOrigin_placed hothers hbuf fun _ hacc => ?_, fun hp => ?_⟩
    · exact absurd hacc (not_accepts_blanked hblanked (hpalette.trans hoff))
    · change ((m.saveScreen k m.fg).conBlank k false).1.card.paletteBlanked = true at hp
      rw [hpalette, hoff] at hp
      exact absurd hp Bool.false_ne_true

omit [DecidableEq ι] in
theorem AllPlaced.vesa {m' : Machine ι} (h : m.AllPlaced k) (hvc : m'.vc = m.vc)
    (hcard : m'.card = vgaconVesaBlank k m.card ∨ m'.card = m.card) : m'.AllPlaced k := by
  refine h.congr hvc ?_
  rcases hcard with hcard | hcard
  · rw [hcard]
    unfold vgaconVesaBlank
    split_ifs <;> rfl
  · rw [hcard]

omit [DecidableEq ι] in
theorem AllPlaced.armVesa (h : m.AllPlaced k) (hook : Bool) : (m.armVesa k hook).AllPlaced k := by
  unfold Machine.armVesa
  by_cases hhook : hook = true
  · rw [if_pos hhook]
    exact h
  · rw [if_neg hhook]
    refine h.vesa rfl ?_
    by_cases hmode : m.blankMode ≠ 0
    · exact .inl (if_pos hmode)
    · exact .inr (if_neg hmode)

theorem AllPlaced.doBlankScreen (h : m.AllPlaced k) (enteringGfx hook : Bool) :
    (m.doBlankScreen k enteringGfx hook).AllPlaced k := by
  have hoff : ({ m with blankState := .off } : Machine ι).AllPlaced k := h.congr rfl rfl
  unfold Machine.doBlankScreen powerdownScreen
  dsimp only
  split_ifs
  · exact hoff
  · exact h.vesa rfl (.inl rfl)
  · exact h
  · exact h
  · exact hoff.enterGraphics
  · exact h.congr rfl rfl
  · exact hoff.blankText.armVesa hook

theorem vgaconUnblank_palette (g : Globals) : (vgaconUnblank g).1.paletteBlanked = false := by
  unfold vgaconUnblank
  dsimp only
  split_ifs with hp
  · rfl
  · exact Bool.eq_false_iff.mpr hp

omit [DecidableEq ι] in
theorem AllPlaced.lit (h : m.AllPlaced k) : m.lit.AllPlaced k :=
  ⟨h.placed, fun hp => absurd hp (by
    change ¬ (vgaconUnblank m.card).1.paletteBlanked = true
    rw [vgaconUnblank_palette]
    exact Bool.false_ne_true)⟩

theorem vgaconUnblank_restores {g : Globals} (h : (vgaconUnblank g).2 = true) :
    g.paletteBlanked = false := by
  unfold vgaconUnblank at h
  dsimp only at h
  split_ifs at h with hp
  exact Bool.eq_false_iff.mpr hp

theorem AllPlaced.unblankVt (h : m.AllPlaced k)
    (hfit : m.fgVc.mode = .text → m.Restores → m.Small k m.fg) : (m.unblankVt k).AllPlaced k := by
  have hawake : ({ m with ignorePoke := false } : Machine ι).AllPlaced k := h.congr rfl rfl
  unfold Machine.unblankVt
  dsimp only
  split_ifs with hblanked hmode hrestore
  · exact hawake
  · exact hawake
  · have hback : m.Restores := ⟨by simpa using hblanked, vgaconUnblank_restores hrestore⟩
    exact hawake.lit.updateScreen fun _ _ => hfit (not_not.mp hmode) hback
  · exact hawake.lit

theorem AllPlaced.pokeBlankedConsole (h : m.AllPlaced k)
    (hfit : m.ignorePoke = false → m.fgVc.mode = .text → m.Restores → m.Small k m.fg) :
    (m.pokeBlankedConsole k).AllPlaced k := by
  unfold Machine.pokeBlankedConsole
  split_ifs with hignore
  · exact h
  · rw [not_or] at hignore
    exact h.unblankVt (hfit (Bool.eq_false_iff.mpr hignore.1))
  · exact h.congr rfl rfl
  · exact h

/-! ### Switching -/

theorem switchScreen_fg (j : ι) : (m.switchScreen k j).fg = j := by
  unfold switchScreen
  split_ifs with hj
  · exact hj
  · rfl

theorem switchScreen_size (i j : ι) :
    ((m.switchScreen k j).vc i).geo.screenbufSize = (m.vc i).geo.screenbufSize := by
  unfold switchScreen
  split_ifs
  · rfl
  · exact (setOrigin_size j i).trans (setOrigin_size m.fg i)

/-- A switch moves two screens and changes nothing else of the consoles. -/
theorem switchScreen_rest (j : ι) :
    (m.switchScreen k j).blanked = m.blanked ∧ (m.switchScreen k j).card = m.card ∧
      ((m.switchScreen k j).vc j).mode = (m.vc j).mode := by
  unfold switchScreen
  split_ifs
  · exact ⟨rfl, rfl, rfl⟩
  · refine ⟨rfl, rfl, ?_⟩
    change ((setOrigin k (setOrigin k _ m.fg) j).vc j).mode = _
    have hmode (m' : Machine ι) (i : ι) : ((m'.setOrigin k i).vc j).mode = (m'.vc j).mode := by
      unfold setOrigin
      by_cases hi : j = i
      · subst hi
        rw [setVc_self]
        rfl
      · rw [setVc_of_ne _ hi]
    rw [hmode, hmode]
    rfl

theorem AllPlaced.switchScreen {j : ι} (h : m.AllPlaced k)
    (hfit : m.fg ≠ j → m.Accepts k → m.Small k j) : (m.switchScreen k j).AllPlaced k := by
  unfold Machine.switchScreen
  split_ifs with hj
  · exact h
  · have hfront : (({ m with fg := j } : Machine ι).saveScreen k m.fg).AllPlaced k :=
      h.congr rfl rfl
    have hback := hfront.setOrigin (i := m.fg) fun hold => absurd hold hj
    refine (hback.setOrigin (i := j) fun _ hacc => ?_).congr rfl rfl
    unfold Small
    rw [setOrigin_size]
    exact hfit hj hacc

theorem AllPlaced.followMode (h : m.AllPlaced k)
    (hfit : m.fgVc.mode = .text → m.Restores → m.Small k m.fg) :
    (m.followMode k).AllPlaced k := by
  unfold Machine.followMode
  split_ifs with hmode
  · exact h.unblankVt hfit
  · exact h.doBlankScreen true false

theorem AllPlaced.changeConsole {j : ι} (h : m.AllPlaced k) (auto : Bool)
    (hfit : m.Fits k (.op (.change j auto))) : (m.changeConsole k j auto).AllPlaced k := by
  unfold Machine.changeConsole completeChangeConsole
  dsimp only
  split_ifs with hstays hmode
  · exact h
  · have hswitched := h.switchScreen fun hj hacc => hfit hstays hj (.inl hacc)
    refine hswitched.followMode fun htext hrestores => ?_
    obtain ⟨hblanked, hcard, hmodes⟩ := switchScreen_rest (m := m) (k := k) j
    have hfront : (m.switchScreen k j).fgVc.mode = (m.vc j).mode := by
      rw [fgVc, switchScreen_fg, hmodes]
    rw [hfront] at hmode htext
    have hj : m.fg ≠ j := fun hsame => hmode (congrArg (fun i => (m.vc i).mode) hsame)
    unfold Restores at hrestores
    rw [hblanked, hcard] at hrestores
    unfold Small
    rw [switchScreen_fg, switchScreen_size]
    exact hfit hstays hj (.inr ⟨graphics_of_differ hmode htext, htext, hrestores⟩)
  · exact h.switchScreen fun hj hacc => hfit hstays hj (.inl hacc)

theorem AllPlaced.setMode (h : m.AllPlaced k) (i : ι) (mode : KdMode) :
    (m.setVc i { m.vc i with mode := mode }).AllPlaced k :=
  ⟨placed_setVc (fun j _ => h.placed j) (h.placed i), h.palette⟩

theorem AllPlaced.kdSetMode {i : ι} (h : m.AllPlaced k) (mode : KdMode)
    (hfit : m.Fits k (.op (.kdSetMode i mode))) : (m.kdSetMode k i mode).AllPlaced k := by
  unfold Machine.kdSetMode
  dsimp only
  split_ifs with hsame hfg
  · exact h
  · refine (h.setMode i mode).followMode fun htext hrestores => ?_
    have hi : i = m.fg := hfg
    subst hi
    have hmode : mode = .text := by
      unfold fgVc at htext
      rw [setVc_fg, setVc_self] at htext
      exact htext
    have hsmall := hfit rfl (graphics_of_differ hsame hmode) hmode hrestores
    unfold Small at hsmall ⊢
    rw [setVc_fg, setVc_self]
    exact hsmall
  · exact h.setMode i mode

/-! ### Writes -/

omit [DecidableEq ι] in
theorem softPaint_geo (mem : Nat → Cell) (c : Vc) (p : Paint) : (softPaint mem c p).2.geo = c.geo := by
  cases p with
  | eraseChar e => rfl
  | _ =>
    unfold softPaint
    dsimp only
    split_ifs <;> rfl

/-- **A scroll by the driver places the screen** that was in the video memory. -/
theorem hardScroll_placed {i : ι} {p : Paint} {r : Scrolled} (h : Placed k (m.vc i).geo)
    (hin : k.InVram (m.vc i).geo.origin) (hr : m.hardScroll k i p = some r) :
    Placed k { (m.vc i).geo with origin := r.origin, scrEnd := r.scrEnd } := by
  cases p with
  | scroll dir t b nr =>
    unfold hardScroll at hr
    dsimp only at hr
    split_ifs at hr
    obtain ⟨-, -, -, rfl⟩ := vgaconScrollRegion_some hr
    have hend := h.inside hin
    have hsum := h.scrEnd
    have hfit : (m.scrollOf i).geo.screenbufSize ≤ k.vramSize := by
      have hbase := hin.1
      change (m.vc i).geo.screenbufSize ≤ k.vramEnd - k.vramBase
      omega
    obtain ⟨-, hinside⟩ :=
      scrollTo_inside (scrollLines t b nr * (m.vc i).geo.sizeRow) dir hfit hin.1 hsum
    exact ⟨rfl, h.buffer, fun _ => hinside hend⟩
  | _ => exact absurd hr nofun

theorem AllPlaced.paint {i : ι} {p : Paint} (h : m.AllPlaced k)
    (hin : (m.hardScroll k i p).isSome = true → k.InVram (m.vc i).geo.origin) :
    (m.paint k i p).AllPlaced k := by
  unfold Machine.paint
  cases hr : m.hardScroll k i p with
  | some r =>
    have hplaced := hardScroll_placed (h.placed i) (hin (by rw [hr]; rfl)) hr
    exact ⟨placed_setVc (fun j _ => h.placed j) hplaced, h.palette⟩
  | none =>
    refine ⟨placed_setVc (fun j _ => h.placed j) ?_, h.palette⟩
    rw [softPaint_geo]
    exact h.placed i

theorem AllPlaced.write {i : ι} {ps : List Paint} (h : m.AllPlaced k)
    (hin : Along (fun m p => m.paint k i p)
      (fun m p => (m.hardScroll k i p).isSome = true → k.InVram (m.vc i).geo.origin) m ps) :
    (m.write k i ps).AllPlaced k := by
  induction ps generalizing m with
  | nil => exact h
  | cons p ps ih => exact ih (h.paint hin.1) hin.2

/-! ### Resizing -/

/-- A `Paint` that is no scroll moves no screen. -/
theorem paint_goto (i : ι) (x y : Nat) :
    (m.paint k i (.goto x y)).card = m.card ∧ (m.paint k i (.goto x y)).fg = m.fg ∧
      (m.paint k i (.goto x y)).blanked = m.blanked ∧
      ∀ j, ((m.paint k i (.goto x y)).vc j).geo = (m.vc j).geo := by
  refine ⟨rfl, rfl, rfl, fun j => ?_⟩
  change ((m.setVc i (softPaint m.mem (m.vc i) (.goto x y)).2).vc j).geo = _
  by_cases hj : j = i
  · subst hj
    rw [setVc_self, softPaint_geo]
  · rw [setVc_of_ne _ hj]

theorem AllPlaced.resizeTo {i : ι} (h : m.AllPlaced k) (cols rows : Nat) {buf : Nat}
    (eraseChar : Cell) (hbuf : ¬ k.InVram buf)
    (hfit : i = m.fg → m.Accepts k → 2 * cols * rows ≤ k.vramSize) :
    (m.resizeTo k i cols rows buf eraseChar).AllPlaced k := by
  unfold Machine.resizeTo
  dsimp only
  generalize hnew : m.withBuffer i cols rows buf eraseChar = m'
  have hself : (m'.vc i).geo = { resized (m.vc i).geo cols rows with screenbuf := buf } := by
    rw [← hnew, withBuffer, setVc_self]
  have hothers : ∀ j, j ≠ i → Placed k (m'.vc j).geo := by
    intro j hj
    rw [← hnew, withBuffer, setVc_of_ne _ hj]
    exact h.placed j
  have hsmall : i = m'.fg → m'.Accepts k → m'.Small k i := by
    intro hi hacc
    unfold Small
    rw [hself]
    rw [← hnew] at hi hacc
    exact hfit hi hacc
  have horigin : (m'.setOrigin k i).AllPlaced k := by
    refine ⟨setOrigin_placed hothers (by rw [hself]; exact hbuf) hsmall, ?_⟩
    rw [← hnew]
    exact h.palette
  obtain ⟨hcard, hfg, hblanked, hgeo⟩ :=
    paint_goto (m := m'.setOrigin k i) (k := k) i (min (m.vc i).x (cols - 1))
      (min (m.vc i).y (rows - 1))
  have hgoto := horigin.paint (i := i)
    (p := .goto (min (m.vc i).x (cols - 1)) (min (m.vc i).y (rows - 1))) nofun
  split_ifs
  · refine hgoto.updateScreen fun hi hacc => ?_
    unfold Accepts at hacc
    unfold Small
    rw [hcard, hblanked] at hacc
    rw [hfg] at hi
    rw [hgeo, setOrigin_size]
    exact hsmall hi hacc
  · exact hgoto

theorem AllPlaced.vcResize {i : ι} (h : m.AllPlaced k) (cols lines : Nat)
    {newscreen : Option Nat} (eraseChar : Cell)
    (hbuf : (Act.resize i cols lines newscreen eraseChar).Kmalloced k)
    (hfit : m.Fits k (.resize i cols lines newscreen eraseChar)) :
    (m.vcResize k i cols lines newscreen eraseChar).AllPlaced k := by
  unfold Machine.Fits at hfit
  unfold Machine.vcResize
  dsimp only at hfit ⊢
  generalize (if cols ≠ 0 then cols else (m.vc i).geo.cols) = newCols at hfit ⊢
  generalize (if lines ≠ 0 then lines else (m.vc i).geo.rows) = newRows at hfit ⊢
  split_ifs with hlarge hsame
  · exact h
  · exact h
  · cases newscreen with
    | none => exact h
    | some buf => exact h.resizeTo newCols newRows eraseChar hbuf (hfit hlarge hsame rfl)

/-- **A step keeps the screens placed.** -/
theorem AllPlaced.act {a : Act ι} (h : m.AllPlaced k) (hbuf : a.Kmalloced k)
    (hfit : m.Fits k a) : (m.act k a).AllPlaced k := by
  cases a with
  | op o =>
    cases o with
    | write i ps => exact h.write hfit
    | change j auto => exact h.changeConsole auto hfit
    | blank tiocl hook =>
      have hpoked : ({ m with ignorePoke := m.ignorePoke || tiocl } : Machine ι).AllPlaced k :=
        h.congr rfl rfl
      exact hpoked.doBlankScreen false hook
    | unblank => exact h.unblankVt hfit
    | poke => exact h.pokeBlankedConsole hfit
    | kdSetMode i mode => exact h.kdSetMode mode hfit
    | reset i => exact h.setMode i .text
    | timing _ _ _ => exact h.congr rfl rfl
    | user f =>
      unfold Machine.act Machine.step
      dsimp only
      split_ifs
      · exact h.congr rfl rfl
      · exact h
  | resize i cols lines newscreen eraseChar => exact h.vcResize cols lines eraseChar hbuf hfit
  | setOrigin i => exact h.setOrigin hfit

end Machine

/-! ### Runs -/

/-- **A screen in the video memory stays inside it**, in every run in which no
console larger than the video memory is put on the display and the driver
scrolls no screen that is outside of it. -/
theorem screens_placed (k : Card) (m : Machine ι) (hm : m.AllPlaced k) (as : List (Act ι))
    (hbufs : ∀ a ∈ as, a.Kmalloced k)
    (hfits : Along (Machine.act k) (Machine.Fits k) m as) :
    let geo := (run (Machine.act k) m as).fgVc.geo
    k.vramBase ≤ geo.origin → geo.origin < k.vramEnd →
      geo.scrEnd = geo.origin + geo.screenbufSize ∧ geo.scrEnd ≤ k.vramEnd := by
  have hplaced : (run (Machine.act k) m as).AllPlaced k :=
    Along.invariant (fun m a h hact => h.act hact.1 hact.2) hm ((along_and_mem hbufs).mpr hfits)
  intro geo hbase hend
  have hfg := hplaced.placed (run (Machine.act k) m as).fg
  exact ⟨hfg.scrEnd, hfg.inside ⟨hbase, hend⟩⟩

/-- Two consoles of 80 columns by 25 rows, the first of them in front, with their
buffers behind the video memory. -/
def bootMachine : Machine Bool where
  mem _ := blankCell
  card := textGlobals
  vc i :=
    { geo :=
        { cols := 80, rows := 25, sizeRow := 160
          origin := if i then 0x101000 else 0xb8000
          scrEnd := if i then 0x101fa0 else 0xb8fa0
          screenbuf := if i then 0x101000 else 0x100000
          screenbufSize := 4000 }
      x := 0, y := 0, pos := if i then 0x101000 else 0xb8000
      eraseChar := 0x0720#16, mode := .text }
  fg := false
  blanked := false
  blankState := .normalWait
  blankInterval := 600000
  offInterval := 0
  blankMode := 0
  ignorePoke := false

theorem bootMachine_placed : bootMachine.AllPlaced colorCard := by
  refine ⟨fun i => ?_, fun _ => rfl⟩
  cases i with
  | false => exact ⟨rfl, fun h => absurd h.2 (by decide), fun _ => by decide⟩
  | true => exact ⟨rfl, fun h => absurd h.2 (by decide), fun h => absurd h.2 (by decide)⟩

/-- A resize to 132 by 43 and a switch away and back. -/
theorem screens_placed_resized :
    let geo := (run (Machine.act colorCard) bootMachine
      [.resize false 132 43 (some 0x200000) 0x0720#16, .op (.change true true),
        .op (.change false true)]).fgVc.geo
    colorCard.vramBase ≤ geo.origin → geo.origin < colorCard.vramEnd →
      geo.scrEnd = geo.origin + geo.screenbufSize ∧ geo.scrEnd ≤ colorCard.vramEnd := by
  refine screens_placed colorCard bootMachine bootMachine_placed
    [.resize false 132 43 (some 0x200000) 0x0720#16, .op (.change true true),
      .op (.change false true)] ?_ ?_
  · simp [Act.Kmalloced, Card.InVram, colorCard]
  · refine ⟨fun _ _ _ _ _ => by decide, fun _ _ _ => ?_, fun _ _ _ => ?_, trivial⟩
    · unfold Machine.Small
      decide +kernel
    · unfold Machine.Small
      decide +kernel

/-- **A resize of the visible console to 200 by 100** takes the screen past the
end of the video memory. -/
theorem resize_leaves_vram :
    let geo := (run (Machine.act colorCard) bootMachine
      [.resize false 200 100 (some 0x200000) 0x0720#16]).fgVc.geo
    geo.origin = colorCard.vramBase ∧ colorCard.vramEnd < geo.scrEnd := by
  decide +kernel

end LinuxConsole.Vga

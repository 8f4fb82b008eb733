import LinuxConsole.Vga.Preserve

/-!
# Graphics and blanking

A console in front that is in graphics has `vt_blanked` set (`Machine.Dark`): that is
how nothing is drawn over the graphics.  It is `do_blank_screen` that sets it when the
console enters graphics, and it does nothing if `blank_state` is not
`blank_normal_wait`, which is so after an unblanking with a blanking interval of 0.

**`graphics_blanked`**: in every run in which no console enters graphics in that state
(`Blanks`), the display is dark throughout.  **`graphics_unblanked`** is a run with
`ESC [ 9 ; 0 ]` in which it is not.
-/

namespace LinuxConsole.Vga

open Lib

variable {ι : Type} [DecidableEq ι] {k : Card} {m : Machine ι}

namespace Machine

/-- **Graphics in front are blanked.** -/
def Dark (m : Machine ι) : Prop := m.fgVc.mode = .graphics → m.blanked = true

/-- The screen is blanked or `do_blank_screen` will do it. -/
def CanBlank (m : Machine ι) : Prop := m.blanked = true ∨ m.blankState = .normalWait

/-- **What enters graphics in the step is blanked.** -/
def Blanks (m : Machine ι) : Op ι → Prop
  | .change j _ => m.fgVc.mode = .text → (m.vc j).mode = .graphics → m.CanBlank
  | .kdSetMode i mode => i = m.fg → m.fgVc.mode = .text → mode = .graphics → m.CanBlank
  | _ => True

/-! ### Blanking and unblanking -/

theorem enterGraphics_blanked : (m.enterGraphics k).blanked = true := rfl

theorem doBlankScreen_mono (enteringGfx hook : Bool) (h : m.blanked = true) :
    (m.doBlankScreen k enteringGfx hook).blanked = true := by
  unfold doBlankScreen powerdownScreen
  rw [if_pos h]
  dsimp only
  split_ifs <;> exact h

/-- **It blanks what enters graphics**, if it does anything. -/
theorem doBlankScreen_gfx (hook : Bool) (h : m.CanBlank) :
    (m.doBlankScreen k true hook).blanked = true := by
  by_cases hblanked : m.blanked = true
  · exact doBlankScreen_mono true hook hblanked
  · have hwait := h.resolve_left hblanked
    unfold doBlankScreen
    rw [if_neg hblanked, if_neg (fun hne => hne hwait), if_pos rfl]
    exact enterGraphics_blanked

theorem doBlankScreen_mode (enteringGfx hook : Bool) :
    (m.doBlankScreen k enteringGfx hook).fgVc.mode = m.fgVc.mode := by
  unfold fgVc
  rw [doBlankScreen_fg]
  exact mode_of_home (doBlankScreen_home enteringGfx hook m.fg)

theorem unblankVt_mode : (m.unblankVt k).fgVc.mode = m.fgVc.mode := by
  unfold fgVc
  rw [unblankVt_fg]
  exact mode_of_home (unblankVt_home m.fg)

theorem unblankVt_gfx (h : m.fgVc.mode = .graphics) : (m.unblankVt k).blanked = m.blanked := by
  have hmode : ({ m with ignorePoke := false } : Machine ι).fgVc.mode ≠ .text := by
    intro htext
    exact absurd (h.symm.trans htext) nofun
  unfold unblankVt
  dsimp only
  rw [if_pos hmode]
  split_ifs <;> rfl

theorem Dark.doBlankScreen (h : m.Dark) (enteringGfx hook : Bool) :
    (m.doBlankScreen k enteringGfx hook).Dark := by
  intro hmode
  rw [doBlankScreen_mode] at hmode
  exact doBlankScreen_mono enteringGfx hook (h hmode)

theorem Dark.unblankVt (h : m.Dark) : (m.unblankVt k).Dark := by
  intro hmode
  rw [unblankVt_mode] at hmode
  rw [unblankVt_gfx hmode]
  exact h hmode

theorem Dark.pokeBlankedConsole (h : m.Dark) : (m.pokeBlankedConsole k).Dark := by
  unfold Machine.pokeBlankedConsole
  split_ifs
  · exact h
  · exact h.unblankVt
  · exact h
  · exact h

/-! ### Changes of the console and of its mode -/

theorem followMode_dark (h : m.fgVc.mode = .graphics → m.CanBlank) : (m.followMode k).Dark := by
  unfold followMode
  intro hmode
  split_ifs at hmode ⊢ with htext
  · rw [unblankVt_mode, htext] at hmode
    exact absurd hmode nofun
  · rw [doBlankScreen_mode] at hmode
    exact doBlankScreen_gfx false (h hmode)

theorem Dark.changeConsole (h : m.Dark) (j : ι) (auto : Bool)
    (hblanks : m.fgVc.mode = .text → (m.vc j).mode = .graphics → m.CanBlank) :
    (m.changeConsole k j auto).Dark := by
  obtain ⟨-, hblanked, hstate⟩ := switchScreen_flags (m := m) (k := k) j
  have hmode : (m.switchScreen k j).fgVc.mode = (m.vc j).mode := by
    unfold fgVc
    rw [switchScreen_fg]
    exact mode_of_home (switchScreen_home j j)
  unfold Machine.changeConsole completeChangeConsole
  dsimp only
  split_ifs with hauto hdiffer
  · exact h
  · refine followMode_dark fun hgraphics => ?_
    have htext : m.fgVc.mode = .text := text_of_differ hdiffer hgraphics
    unfold CanBlank
    rw [hblanked, hstate]
    exact hblanks htext (hmode ▸ hgraphics)
  · intro hgraphics
    rw [hblanked]
    exact h ((not_not.mp hdiffer).trans hgraphics)

theorem Dark.kdSetMode (h : m.Dark) (i : ι) (mode : KdMode)
    (hblanks : i = m.fg → m.fgVc.mode = .text → mode = .graphics → m.CanBlank) :
    (m.kdSetMode k i mode).Dark := by
  unfold Machine.kdSetMode
  dsimp only
  split_ifs with hsame hfg
  · exact h
  · have hi : i = m.fg := hfg
    subst hi
    refine followMode_dark fun hgraphics => ?_
    have hmode : mode = .graphics := (fgVc_setMode mode).symm.trans hgraphics
    exact hblanks rfl (text_of_differ hsame hmode) hmode
  · intro hgraphics
    rw [fgVc_setVc_of_ne (m := m) _ hfg] at hgraphics
    exact h hgraphics

theorem Dark.resetVc (h : m.Dark) (i : ι) : (m.resetVc i).Dark := by
  intro hmode
  have hfg : (m.resetVc i).fgVc = (m.resetVc i).vc m.fg := rfl
  rw [hfg] at hmode
  unfold Machine.resetVc at hmode
  by_cases hi : m.fg = i
  · rw [hi, setVc_self] at hmode
    exact absurd hmode nofun
  · rw [setVc_of_ne _ hi] at hmode
    exact h hmode

theorem Dark.write (h : m.Dark) (i : ι) (as : List Paint) : (m.write k i as).Dark := by
  induction as generalizing m with
  | nil => exact h
  | cons a as ih =>
    refine ih fun hmode => ?_
    obtain ⟨hfg, -, hblanked, hmodes⟩ := paint_flags (m := m) (k := k) i a
    unfold fgVc at hmode
    rw [hfg, hmodes] at hmode
    rw [hblanked]
    exact h hmode

/-- **A step keeps graphics blanked.** -/
theorem Dark.step (h : m.Dark) {o : Op ι} (hblanks : m.Blanks o) : (m.step k o).Dark := by
  cases o with
  | write i as => exact h.write i as
  | change j auto => exact h.changeConsole j auto hblanks
  | blank tiocl hook =>
    have hpoked : ({ m with ignorePoke := m.ignorePoke || tiocl } : Machine ι).Dark := h
    exact hpoked.doBlankScreen false hook
  | unblank => exact h.unblankVt
  | poke => exact h.pokeBlankedConsole
  | kdSetMode i mode => exact h.kdSetMode i mode hblanks
  | reset i => exact h.resetVc i
  | timing _ _ _ => exact h
  | user f =>
    unfold Machine.step
    dsimp only
    split_ifs <;> exact h

end Machine

/-! ### Runs -/

/-- **Graphics mode implies blanked**, after every run in which a console enters graphics
only while the screen is blanked or waits to be. -/
theorem graphics_blanked (k : Card) (m : Machine ι) (hm : m.Dark) (os : List (Op ι))
    (hblanks : Along (Machine.step k) Machine.Blanks m os) :
    (run (Machine.step k) m os).Dark := by
  induction os generalizing m with
  | nil => exact hm
  | cons o os ih => exact ih (m.step k o) (hm.step hblanks.1) hblanks.2

/-- Graphics entered from a blanked screen and left alone by a poke. -/
theorem graphics_blanked_poked :
    (run (Machine.step colorCard) bootMachine
      [.blank false false, .kdSetMode false .graphics, .poke]).Dark := by
  refine graphics_blanked colorCard bootMachine nofun _ ⟨trivial, fun _ _ _ => ?_, trivial, trivial⟩
  exact .inl (by decide +kernel)

/-- **Graphics entered after `ESC [ 9 ; 0 ]`** has unblanked the screen. -/
theorem graphics_unblanked :
    ¬ ∀ (m : Machine Bool) (os : List (Op Bool)), m.Dark →
      (run (Machine.step colorCard) m os).Dark := by
  intro h
  have hdark := h bootMachine [.blank false false, .timing 0 0 0, .poke,
    .kdSetMode false .graphics] nofun (by decide +kernel)
  revert hdark
  decide +kernel

end LinuxConsole.Vga

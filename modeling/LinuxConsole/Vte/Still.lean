import LinuxConsole.Vte.Frame

/-!
# The scroll hook of a console that is not in front

`con_scroll_region` is called for the console in front only.  So a console behind it is written
**as if the driver had no such hook**: `d.still` is that driver, and every function that can scroll
does the same with it.
-/

namespace LinuxConsole

variable {d : Driver} {s : Con}

/-- The driver without the scroll hook. -/
def Driver.still (d : Driver) : Driver := { d with conScrollRegion := fun _ _ _ _ _ => none }

theorem inert_still (d : Driver) : Inert d.still := fun _ _ _ _ _ => rfl

theorem scrollRegionUp_still (hv : s.vt.visible = false) (t b : Nat) (nr : Int) :
    scrollRegionUp d.still s t b nr = scrollRegionUp d s t b nr := by
  simp only [scrollRegionUp, hv]
  rfl

theorem scrollRegionDown_still (hv : s.vt.visible = false) (t b : Nat) (nr : Int) :
    scrollRegionDown d.still s t b nr = scrollRegionDown d s t b nr := by
  simp only [scrollRegionDown, hv]
  rfl

theorem vteLf_still (hv : s.vt.visible = false) : vteLf d.still s = vteLf d s := by
  rw [vteLf, vteLf, scrollRegionUp_still hv]

theorem vteRi_still (hv : s.vt.visible = false) : vteRi d.still s = vteRi d s := by
  rw [vteRi, vteRi, scrollRegionDown_still hv]

theorem vteCvt_still (hv : s.vt.visible = false) (vpar : Int) :
    vteCvt d.still s vpar = vteCvt d s vpar := by
  rw [vteCvt, vteCvt]
  generalize vpar.toNat = n
  induction n generalizing s with
  | zero => rfl
  | succ n ih =>
    rw [Function.iterate_succ_apply, Function.iterate_succ_apply, vteLf_still hv]
    exact ih ((frame_vteLf s).visible.trans hv)

theorem vteIl_still (hv : s.vt.visible = false) (nr : Nat) :
    vteIl d.still s nr = vteIl d s nr := by
  rw [vteIl, vteIl, insertLine, insertLine, scrollRegionDown_still hv]

theorem vteDl_still (hv : s.vt.visible = false) (nr : Nat) :
    vteDl d.still s nr = vteDl d s nr := by
  rw [vteDl, vteDl, deleteLine, deleteLine, scrollRegionUp_still hv]

theorem c0Control_still (hv : s.vt.visible = false) (c : Nat) :
    c0Control d.still s c = c0Control d s c := by
  rw [c0Control.eq_def, c0Control.eq_def, vteLf_still hv]

theorem c1Control_still (hv : s.vt.visible = false) (c : Nat) :
    c1Control d.still s c = c1Control d s c := by
  rw [c1Control.eq_def, c1Control.eq_def, vteLf_still hv, vteRi_still hv]

theorem escState_still (hv : s.vt.visible = false) (c : Nat) :
    escState d.still s c = escState d s c := by
  have hi : (s.setState .init).vt.visible = false := hv
  have hcr : (vteCr (s.setState .init)).vt.visible = false := hv
  rw [escState.eq_def, escState.eq_def]
  simp only [vteLf_still hi, vteLf_still hcr, vteRi_still hi]
  rfl

theorem csiFinal_still (hv : s.vt.visible = false) (c : Nat) :
    csiFinal d.still s c = csiFinal d s c := by
  have h1 : s.atLeastOne.vt.visible = false := (frame_atLeastOne s).visible.trans hv
  rw [csiFinal.eq_def, csiFinal.eq_def]
  simp only [vteIl_still hv, vteDl_still hv, vteCvt_still h1]
  rfl

theorem csiGotpars_still (hv : s.vt.visible = false) (c : Nat) :
    csiGotpars d.still s c = csiGotpars d s c := by
  have hi : (s.setState .init).vt.visible = false := hv
  have hpriv : csiPrivate d.still (s.setState .init) c = csiPrivate d (s.setState .init) c := rfl
  rw [csiGotpars, csiGotpars, hpriv, csiFinal_still hi]

theorem csiGetpars_still (hv : s.vt.visible = false) (c : Nat) :
    csiGetpars d.still s c = csiGetpars d s c := by
  have hg : (s.setState .csiGotpars).vt.visible = false := hv
  rw [csiGetpars, csiGetpars, csiGotpars_still hg]

theorem csiState_still (hv : s.vt.visible = false) (c : Nat) :
    csiState d.still s c = csiState d s c := by
  have ha : (afterCsi s c).vt.visible = false := hv
  rw [csiState, csiState]
  exact if_congr Iff.rfl rfl (if_congr Iff.rfl rfl (if_congr Iff.rfl rfl (csiGetpars_still ha c)))

theorem emulateState_still (hv : s.vt.visible = false) (c : Nat) :
    emulateState d.still s c = emulateState d s c := by
  rw [emulateState.eq_def, emulateState.eq_def, escState_still hv, csiState_still hv,
    csiGetpars_still hv, csiGotpars_still hv]
  rfl

theorem terminalEmulation_still (hv : s.vt.visible = false) (c : Nat) :
    terminalEmulation d.still s c = terminalEmulation d s c := by
  rw [terminalEmulation, terminalEmulation, c0Control_still hv, c1Control_still hv,
    emulateState_still hv]

end LinuxConsole

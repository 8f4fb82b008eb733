import LinuxConsole.Vc.Sound
import LinuxConsole.Vte.Emulation

/-!
# The emulator keeps the geometry invariant

One lemma per control function of `decvte.c`, then one per state of the parser,
and from them `Sound.terminalEmulation`: a byte given to the emulator keeps
`Sound`, whatever the byte, the state of the parser and its parameters.
-/

namespace LinuxConsole

variable {d : Driver} {N : Nat} {F : List Fault} {s : Con}

/-! ### Format effectors -/

theorem Sound.vteLf (h : Sound d N F s) : Sound d N F (vteLf d s) := by
  have hrows := h.bounds.rows_lt
  have htop := h.bounds.top_lt
  have hbot := h.bounds.bottom_le
  refine Sound.needWrap (Sound.ite (fun _ => ?_) (fun _ => Sound.ite (fun hy => ?_) (fun _ => h))) _
  · exact h.scrollRegionUp 1 (by omega) (by omega)
  · refine h.moveTo s.cur.needWrap h.bounds.x_lt (y := s.cur.y + 1) (by omega) fun hd => ?_
    have := (h.screen hd).1.pos
    rw [Nat.add_mul]
    omega

theorem Sound.vteRi (h : Sound d N F s) : Sound d N F (vteRi d s) := by
  have hrows := h.bounds.rows_lt
  have hy := h.bounds.y_lt
  have htop := h.bounds.top_lt
  have hbot := h.bounds.bottom_le
  refine Sound.needWrap (Sound.ite (fun _ => ?_) (fun _ => Sound.ite (fun hpos => ?_) fun _ => h)) _
  · exact h.scrollRegionDown 1 (by omega) (by omega)
  · refine h.moveTo s.cur.needWrap h.bounds.x_lt (y := s.cur.y - 1) (by omega) fun hd => ?_
    have hp := (h.screen hd).1.pos
    obtain ⟨k, hk⟩ : ∃ k, s.cur.y = k + 1 := ⟨s.cur.y - 1, by omega⟩
    rw [hk, Nat.add_mul] at hp
    rw [hk, Nat.add_sub_cancel]
    omega

theorem Sound.vteCr (h : Sound d N F s) : Sound d N F (vteCr s) := by
  have hx := h.bounds.x_lt
  refine h.moveTo false (by omega) h.bounds.y_lt fun hd => ?_
  have hp := (h.screen hd).1.pos
  omega

theorem Sound.vteBs (h : Sound d N F s) : Sound d N F (vteBs s) := by
  have hx := h.bounds.x_lt
  refine Sound.ite (fun hne => ?_) (fun _ => h)
  refine h.moveTo false (by omega) h.bounds.y_lt fun hd => ?_
  have hp := (h.screen hd).1.pos
  omega

theorem Sound.vteCvt (h : Sound d N F s) (vpar : Int) : Sound d N F (vteCvt d s vpar) :=
  Function.Iterate.rec (Sound d N F) h (fun _ h => Sound.vteLf h) vpar.toNat

/-! ### Tabulation -/

/-- A console inside a tabulation: its address is that of the start of the row,
and with the column added to it the console is sound. -/
def InTab (d : Driver) (N : Nat) (F : List Fault) (s : Con) : Prop :=
  Sound d N F { s with cur.pos := s.cur.pos + 2 * s.cur.x }

/-- The column of a cursor indexes the tab stops when the screen is no wider
than they are. -/
theorem tabWord_lt {x : Nat} (hx : x < 256) : x >>> 5 < tabWords := by
  rw [Nat.shiftRight_eq_div_pow]
  show x / 32 < 8
  omega

theorem Sound.checkTab (h : Sound d N F s) : Sound d N F (checkTab s) :=
  h.checkArray (fun hN => decide_eq_true (tabWord_lt (h.bounds.x_lt_of hN))) rfl

theorem Sound.startTab (h : Sound d N F s) :
    InTab d N F { s with cur.pos := s.cur.pos - 2 * s.cur.x } := by
  refine h.moveTo s.cur.needWrap h.bounds.x_lt h.bounds.y_lt fun hd => ?_
  have hp := (h.screen hd).1.pos
  show s.cur.pos - 2 * s.cur.x + 2 * s.cur.x =
    s.geo.origin + s.cur.y * s.geo.sizeRow + 2 * s.cur.x
  omega

/-- A step of the loop: another column of the row, whose tab stop is looked at. -/
theorem InTab.toColumn (h : InTab d N F s) {x : Nat} (hx : x < s.geo.cols) :
    InTab d N F (LinuxConsole.checkTab { s with cur.x := x }) := by
  have hm : InTab d N F { s with cur.x := x } := by
    refine Sound.moveTo h s.cur.needWrap hx h.bounds.y_lt fun hd => ?_
    have hp := (h.screen hd).1.pos
    simp only at hp ⊢
    omega
  exact Sound.checkTab (s := { s with cur.x := x, cur.pos := s.cur.pos + 2 * x }) hm

theorem InTab.tabLeft (h : InTab d N F s) (fuel : Nat) : InTab d N F (tabLeft fuel s) := by
  induction fuel generalizing s with
  | zero => exact h
  | succ fuel ih =>
    unfold LinuxConsole.tabLeft
    have hx := h.bounds.x_lt
    have hs := h.toColumn (x := s.cur.x - 1) (Nat.lt_of_le_of_lt (Nat.sub_le _ _) hx)
    split
    · dsimp only
      split
      · exact hs
      · exact ih hs
    · exact h

theorem InTab.tabRight (h : InTab d N F s) (fuel : Nat) : InTab d N F (tabRight fuel s) := by
  induction fuel generalizing s with
  | zero => exact h
  | succ fuel ih =>
    unfold LinuxConsole.tabRight
    split
    · next hlt =>
      have hs := h.toColumn (x := s.cur.x + 1) (by omega)
      dsimp only
      split
      · exact hs
      · exact ih hs
    · exact h

theorem Sound.backTab (h : Sound d N F s) : Sound d N F (backTab s) := h.startTab.tabLeft _

theorem Sound.forwardTab (h : Sound d N F s) : Sound d N F (forwardTab s) := h.startTab.tabRight _

theorem Sound.vteCbt (h : Sound d N F s) (vpar : Int) : Sound d N F (vteCbt s vpar) :=
  Function.Iterate.rec (Sound d N F) h (fun _ h => Sound.backTab h) vpar.toNat

theorem Sound.vteCht (h : Sound d N F s) (vpar : Int) : Sound d N F (vteCht s vpar) :=
  Function.Iterate.rec (Sound d N F) h (fun _ h => Sound.forwardTab h) vpar.toNat

theorem Sound.setTab (h : Sound d N F s) : Sound d N F (setTab s) := h.checkTab

theorem Sound.vteTbc (h : Sound d N F s) (vpar : Nat) : Sound d N F (vteTbc s vpar) := by
  unfold LinuxConsole.vteTbc
  split
  · exact h.checkTab
  all_goals exact h

theorem Sound.vteCtc (h : Sound d N F s) : Sound d N F (vteCtc s) := by
  unfold LinuxConsole.vteCtc
  split
  · exact h.setTab
  · exact h.vteTbc 0
  · exact h.vteTbc 5
  · exact h

/-! ### Erasure -/

@[simp] theorem clearRegion_geo (s : Con) (x y w k : Nat) :
    (clearRegion s x y w k).geo = s.geo := by
  unfold clearRegion
  split <;> rfl

@[simp] theorem clearRegion_cur (s : Con) (x y w k : Nat) :
    (clearRegion s x y w k).cur = s.cur := by
  unfold clearRegion
  split <;> rfl

/-- Cells within the row of the cursor are on the screen. -/
theorem Sound.inRow (h : Sound d N F s) (hd : Inert d) {k n : Nat} (hk : k ≤ s.cur.x)
    (hn : n ≤ s.geo.cols - (s.cur.x - k)) : s.inScreen (s.cur.pos - 2 * k) n = true := by
  have hr := h.row hd
  have hx := h.bounds.x_lt
  exact Con.inScreen_of (by omega) (by omega)

theorem Sound.vteEd (h : Sound d N F s) (vpar : Nat) : Sound d N F (vteEd s vpar) := by
  have hx := h.bounds.x_lt
  unfold LinuxConsole.vteEd
  split
  · refine Sound.needWrap (Sound.scrMemsetw ((h.clearRegion _ _ _ _).clearRegion _ _ _ _) _
      fun hd => ?_) _
    have hr := h.row hd
    exact Con.inScreen_of (by simp only [clearRegion_geo, clearRegion_cur]; omega)
      (by simp only [clearRegion_geo, clearRegion_cur]; omega)
  · refine Sound.needWrap (Sound.scrMemsetw ((h.clearRegion _ _ _ _).clearRegion _ _ _ _) _
      fun hd => ?_) _
    have hr := h.row hd
    exact Con.inScreen_of (Nat.le_refl _) (by simp only [clearRegion_geo]; omega)
  · refine Sound.needWrap (Sound.scrMemsetw (h.clearRegion _ _ _ _) _ fun hd => ?_) _
    have he := (h.screen hd).1.scrEnd
    rw [h.bounds.bufSize, h.bounds.sizeRow,
      show s.geo.rows * (2 * s.geo.cols) = 2 * (s.geo.cols * s.geo.rows) by ring] at he
    exact Con.inScreen_of (Nat.le_refl _) (by simp only [clearRegion_geo]; omega)
  · exact h

theorem Sound.vteEl (h : Sound d N F s) (vpar : Nat) : Sound d N F (vteEl s vpar) := by
  have hx := h.bounds.x_lt
  unfold LinuxConsole.vteEl
  split
  · refine Sound.needWrap (Sound.scrMemsetw (h.clearRegion _ _ _ _) _ fun hd => ?_) _
    exact (h.clearRegion _ _ _ _).inRow hd (k := 0) (Nat.zero_le _) (by simp)
  · refine Sound.needWrap (Sound.scrMemsetw (h.clearRegion _ _ _ _) _ fun hd => ?_) _
    exact (h.clearRegion _ _ _ _).inRow hd (Nat.le_refl _) (by simp; omega)
  · refine Sound.needWrap (Sound.scrMemsetw (h.clearRegion _ _ _ _) _ fun hd => ?_) _
    exact (h.clearRegion _ _ _ _).inRow hd (Nat.le_refl _) (by simp)
  · exact h

theorem Sound.vteEch (h : Sound d N F s) (vpar : Nat) : Sound d N F (vteEch s vpar) := by
  refine Sound.needWrap (Sound.clearRegion (h.scrMemsetw _ fun hd => ?_) _ _ _ _) _
  refine h.inRow hd (k := 0) (Nat.zero_le _) ?_
  generalize (if vpar = 0 then 1 else vpar) = v
  split <;> omega

/-! ### Rendition -/

theorem Sound.checkColor (h : Sound d N F s) {i : Nat} (hi : i < 16) : Sound d N F (checkColor s i) :=
  h.checkArray (fun _ => decide_eq_true hi) rfl

theorem Sound.sgrPar (h : Sound d N F s) (p : Nat) : Sound d N F (sgrPar s p) := by
  unfold LinuxConsole.sgrPar
  split
  case h_19 =>
    split
    · next hp => exact Sound.checkColor h (i := p - 30) (by omega)
    split
    · next hp => exact Sound.checkColor h (i := p - 40) (by omega)
    · exact h
  all_goals exact h

/-- A loop over the parameters stays within `vc_par`. -/
theorem Sound.forPars (h : Sound d N F s) {f : Con → Nat → Con}
    (hf : ∀ s p, Sound d N F s → Sound d N F (f s p)) : Sound d N F (forPars f s) := by
  have hn := h.parser.npar_lt
  suffices hl : ∀ (l : List Nat) (s : Con), (∀ i ∈ l, i < NPAR) → Sound d N F s →
      Sound d N F (l.foldl (fun s i => f (s.check (i < NPAR) (.vcPar i)) (s.ps.par i)) s) by
    refine hl _ s (fun i hi => ?_) h
    rw [List.mem_range] at hi
    omega
  intro l
  induction l with
  | nil => intro s _ h; exact h
  | cons i l ih =>
    intro s hl h
    have hi : i < NPAR := hl i (List.mem_cons_self ..)
    refine ih _ (fun j hj => hl j (List.mem_cons_of_mem _ hj)) (hf _ _ ?_)
    exact h.checkArray (fun _ => decide_eq_true hi) rfl

theorem Sound.vteSgr (h : Sound d N F s) : Sound d N F (vteSgr d s) :=
  Sound.updateAttr (h.forPars fun _ p h => h.sgrPar p)

/-! ### Modes -/

theorem Sound.setPrivMode (h : Sound d N F s) (on : Bool) (p : Nat) :
    Sound d N F (setPrivMode d on s p) := by
  unfold LinuxConsole.setPrivMode
  split
  case h_2 =>
    refine Sound.ite (fun _ => ?_) (fun _ => h)
    exact Sound.invertScreen (s := { s with modes.decscnm := on }) h
  case h_3 => exact Sound.gotoxay (s := { s with modes.decom := on }) h 0 0
  all_goals exact h

theorem Sound.setAnsiMode (h : Sound d N F s) (on : Bool) (p : Nat) :
    Sound d N F (setAnsiMode on s p) := by
  unfold LinuxConsole.setAnsiMode
  split <;> exact h

theorem Sound.setMode (h : Sound d N F s) (on : Bool) : Sound d N F (setMode d s on) := by
  refine h.forPars fun s p h => ?_
  split
  · exact h.setPrivMode on p
  · exact h.setAnsiMode on p

theorem Sound.vteDecscl (h : Sound d N F s) : Sound d N F (vteDecscl s) := by
  unfold LinuxConsole.vteDecscl
  split
  · exact Sound.ite (fun _ => h) (fun _ => h)
  all_goals first | exact h | exact Sound.ite (fun _ => h) (fun _ => h)

theorem Sound.settermCommand (h : Sound d N F s) : Sound d N F (settermCommand d s) := by
  unfold LinuxConsole.settermCommand
  dsimp only
  split
  case h_1 =>
    split
    · next hp =>
      have hc := h.checkColor hp.2
      exact Sound.ite (fun _ => hc) (fun _ => hc)
    · exact h
  case h_2 =>
    split
    · next hp =>
      have hc := h.checkColor hp.2
      exact Sound.ite (fun _ => hc) (fun _ => hc)
    · exact h
  case h_4 => exact Sound.pokeBlankedConsole h
  case h_8 => exact h.pokeBlankedConsole
  all_goals exact h

/-! ### Insertion and deletion -/

theorem charCount_le (h : Sound d N F s) (nr : Nat) : charCount s nr ≤ s.geo.cols - s.cur.x := by
  have hx := h.bounds.x_lt
  unfold charCount
  split
  · omega
  split <;> omega

theorem lineCount_le (h : Sound d N F s) (nr : Nat) : lineCount s nr ≤ s.geo.rows - s.cur.y := by
  have hy := h.bounds.y_lt
  unfold lineCount
  split
  · omega
  split <;> omega

theorem Sound.vteIch (h : Sound d N F s) (nr : Nat) : Sound d N F (vteIch s nr) :=
  h.insertChar (charCount_le h nr)

theorem Sound.vteDch (h : Sound d N F s) (nr : Nat) : Sound d N F (vteDch s nr) :=
  h.deleteChar (charCount_le h nr)

theorem Sound.vteIl (h : Sound d N F s) (nr : Nat) : Sound d N F (vteIl d s nr) :=
  h.insertLine (lineCount_le h nr)

theorem Sound.vteDl (h : Sound d N F s) (nr : Nat) : Sound d N F (vteDl d s nr) :=
  h.deleteLine (lineCount_le h nr)

/-! ### Saving and resetting -/

theorem Sound.vteDecsc (h : Sound d N F s) : Sound d N F (vteDecsc s) := h

theorem Sound.vteDecrc (h : Sound d N F s) : Sound d N F (vteDecrc d s) :=
  Sound.needWrap (h.gotoxy (s32 s.saved.x) (s32 s.saved.y)) false

/-- The parser may take any state within its bounds. -/
theorem Sound.withParser (h : Sound d N F s) {p : Parser} (hp : ParserOk p) :
    Sound d N F { s with ps := p } :=
  { h with parser := hp }

/-- Margins around the whole screen. -/
theorem Sound.wholeMargins (h : Sound d N F s) : Sound d N F { s with mar := ⟨0, s.geo.rows⟩ } := by
  have hy := h.bounds.y_lt
  exact { h with bounds := { h.bounds with top_lt := by simp only; omega, bottom_le := Nat.le_refl _ } }

/-- RIS needs no margins to start from. -/
theorem Sound.vteRis_of (h : Sound d N F { s with mar := ⟨0, s.geo.rows⟩ }) (doClear : Bool) :
    Sound d N F (LinuxConsole.vteRis d s doClear) := by
  have hp : ParserOk { s.ps with
      state := .init, priv1 := false, priv2 := false, priv3 := false, priv4 := false } :=
    ⟨h.parser.npar_lt, fun he => by simp at he⟩
  have hm := (h.withParser hp).needWrap false
  unfold LinuxConsole.vteRis
  refine Sound.ite (fun _ => Sound.vteEd (Sound.vteDecsc ?_) 2) (fun _ => Sound.vteDecsc ?_)
  · refine Sound.gotoxy ?_ 0 0
    exact hm
  · refine Sound.gotoxy ?_ 0 0
    exact hm

theorem Sound.vteRis (h : Sound d N F s) (doClear : Bool) : Sound d N F (vteRis d s doClear) :=
  Sound.vteRis_of h.wholeMargins doClear

/-! ### The parser -/

theorem Sound.setState (h : Sound d N F s) {e : EsState} (he : e ≠ .palette) :
    Sound d N F (s.setState e) :=
  h.withParser ⟨h.parser.npar_lt, fun hp => absurd hp he⟩

/-- The private parameter flags are not part of the invariant. -/
theorem Sound.withFlags (h : Sound d N F s) (p1 p2 p3 p4 : Bool) :
    Sound d N F { s with ps := { s.ps with priv1 := p1, priv2 := p2, priv3 := p3, priv4 := p4 } } :=
  h.withParser ⟨h.parser.npar_lt, h.parser.palette⟩

theorem Sound.setPar (h : Sound d N F s) (hs : s.ps.state ≠ .palette) {i : Nat} (hi : i < NPAR)
    (v : Nat) : Sound d N F (s.setPar i v) := by
  have hcheck : Sound d N F (s.check (i < NPAR) (.vcPar i)) :=
    h.checkArray (fun _ => decide_eq_true hi) rfl
  exact hcheck.withParser ⟨h.parser.npar_lt, fun hp => absurd hp hs⟩

theorem Sound.atLeastOne (h : Sound d N F s) (hs : s.ps.state ≠ .palette) :
    Sound d N F s.atLeastOne :=
  Sound.ite (fun _ => h.setPar hs (by decide) 1) (fun _ => h)

theorem Sound.fromZero (h : Sound d N F s) (hs : s.ps.state ≠ .palette) {i : Nat} (hi : i < NPAR) :
    Sound d N F (s.fromZero i) :=
  Sound.ite (fun _ => h.setPar hs hi _) (fun _ => h)

@[simp] theorem atLeastOne_state (s : Con) : s.atLeastOne.ps.state = s.ps.state := by
  unfold Con.atLeastOne
  split <;> rfl

@[simp] theorem fromZero_state (s : Con) (i : Nat) : (s.fromZero i).ps.state = s.ps.state := by
  unfold Con.fromZero
  split <;> rfl

theorem Sound.clearPars (h : Sound d N F s) : Sound d N F s.clearPars :=
  h.withParser ⟨by simp [NPAR], fun _ => ⟨by simp, by simp⟩⟩

/-! ### Control characters -/

/-- What an optional step must do when it takes place. -/
theorem sound_some (h : Sound d N F s) : ∀ s' ∈ some s, Sound d N F s' := by
  intro s' hs
  obtain rfl := Option.mem_some.mp hs
  exact h

theorem sound_none : ∀ s' ∈ (none : Option Con), Sound d N F s' := by simp

theorem Sound.c0Control (h : Sound d N F s) (c : Nat) : ∀ s' ∈ c0Control d s c, Sound d N F s' := by
  unfold LinuxConsole.c0Control
  split
  case h_3 => exact sound_some h.vteBs
  case h_4 => exact sound_some h.forwardTab
  case h_5 | h_6 | h_7 => exact sound_some (Sound.ite (fun _ => h.vteLf.vteCr) (fun _ => h.vteLf))
  case h_8 => exact sound_some h.vteCr
  case h_2 => exact sound_some (Sound.ite (fun _ => h) (fun _ => h))
  case h_11 | h_12 => exact sound_some (h.setState (by decide))
  case h_13 => exact sound_some (h.setState (by decide))
  case h_14 =>
    split
    · exact sound_some h
    · exact sound_none
  all_goals exact sound_some h

theorem Sound.c1Control (h : Sound d N F s) (c : Nat) : ∀ s' ∈ c1Control d s c, Sound d N F s' := by
  unfold LinuxConsole.c1Control
  split
  · exact sound_some h.vteLf
  · exact sound_some h.vteLf.vteCr
  · exact sound_some h.setTab
  · exact sound_some h.vteRi
  · exact sound_none
  · exact sound_none
  · exact sound_some h
  · exact sound_some (h.setState (by decide))
  · split
    · exact sound_some h
    · exact sound_none

/-! ### Escape sequences -/

theorem Sound.escState (h : Sound d N F s) (c : Nat) : Sound d N F (escState d s c) := by
  have hi := h.setState (e := .init) (by decide)
  unfold LinuxConsole.escState
  dsimp only
  split
  case h_7 => exact hi.vteDecrc
  case h_10 | h_11 | h_12 | h_13 | h_14 => exact hi.vteLf
  case h_15 => exact hi.vteCr.vteLf
  case h_16 => exact hi.setTab
  case h_17 => exact hi.vteRi
  case h_25 => exact hi.vteRis true
  case h_1 | h_2 | h_3 | h_4 | h_5 | h_21 | h_22 => exact hi.setState (by decide)
  all_goals exact hi

theorem Sound.acsState (h : Sound d N F s) (c : Nat) : Sound d N F (acsState s c) := by
  have hi := h.setState (e := .init) (by decide)
  unfold LinuxConsole.acsState
  dsimp only
  split
  · exact Sound.ite (fun _ => hi) (fun _ => hi)
  · exact Sound.ite (fun _ => hi) (fun _ => hi)
  · exact hi

theorem Sound.oscState (h : Sound d N F s) (c : Nat) : Sound d N F (oscState s c) := by
  have hi := h.setState (e := .init) (by decide)
  unfold LinuxConsole.oscState
  dsimp only
  split
  · exact hi.clearPars.withParser ⟨by simp [Con.clearPars, NPAR], fun _ => by simp [Con.clearPars]⟩
  · exact hi.resetPalette.setState (by decide)
  · exact hi

/-- A hexadecimal digit is below 16. -/
theorem hexDigit_le {c v : Nat} (hv : hexDigit c = some v) : v ≤ 15 := by
  have hc : c < 0x67 := by
    unfold hexDigit at hv
    split at hv
    · omega
    · simp at hv
  have hall : ∀ c < 0x67, ∀ v ∈ hexDigit c, v ≤ 15 := by decide
  exact hall c hc v hv

theorem Sound.setPaletteByte (h : Sound d N F s) {i : Nat} (hi : i < 48) (hi' lo : Nat) :
    Sound d N F (s.setPaletteByte i hi' lo) :=
  h.checkArray (f := .vcPalette i) (fun _ => decide_eq_true hi) rfl

theorem Sound.setPalette_setState {e : EsState} (h : Sound d N F (s.setState e)) :
    Sound d N F ((LinuxConsole.setPalette s).setState e) := by
  unfold LinuxConsole.setPalette
  split <;> exact h

/-- **A palette sequence stays within `vc_par` and `vc_palette`**: its seventh
digit ends it, and the first one is the number of a colour. -/
theorem Sound.paletteState (h : Sound d N F s) (hs : s.ps.state = .palette) (c : Nat) :
    Sound d N F (paletteState s c) := by
  obtain ⟨hn, hpar⟩ := h.parser.palette hs
  have hn16 := h.parser.npar_lt
  unfold LinuxConsole.paletteState
  split
  · next v hv =>
    have hle := hexDigit_le hv
    have hpar' : ∀ j < s.ps.npar + 1, Function.update s.ps.par s.ps.npar v j ≤ 15 := by
      intro j hj
      by_cases hjn : j = s.ps.npar
      · rw [hjn, Function.update_self]
        exact hle
      · rw [Function.update_of_ne hjn]
        exact hpar j (by omega)
    have hcheck : Sound d N F (s.check (s.ps.npar < NPAR) (.vcPar s.ps.npar)) :=
      h.checkArray (fun _ => decide_eq_true hn16) rfl
    refine Sound.ite (fun h7 => ?_) (fun h7 => ?_)
    · have h7 : s.ps.npar + 1 = 7 := h7
      have h0 := hpar' 0 (by omega)
      have hi := hcheck.withParser (p := { s.ps with
          state := .init, npar := s.ps.npar + 1
          par := Function.update s.ps.par s.ps.npar v })
        ⟨by simp only [NPAR]; omega, fun he => by simp at he⟩
      have hb := ((hi.setPaletteByte (i := Function.update s.ps.par s.ps.npar v 0 * 3) (by omega)
        0 0).setPaletteByte (i := Function.update s.ps.par s.ps.npar v 0 * 3 + 1) (by omega)
        0 0).setPaletteByte (i := Function.update s.ps.par s.ps.npar v 0 * 3 + 2) (by omega) 0 0
      refine Sound.setPalette_setState ?_
      exact hb
    · have h7 : ¬ s.ps.npar + 1 = 7 := h7
      refine hcheck.withParser ⟨?_, fun _ => ⟨?_, hpar'⟩⟩
      · show s.ps.npar + 1 < 16
        omega
      · show s.ps.npar + 1 < 7
        omega
  · exact h.setState (by decide)

theorem Sound.scfState (h : Sound d N F s) (c : Nat) : Sound d N F (scfState s c) := by
  have hi := h.setState (e := .init) (by decide)
  refine Sound.ite (fun _ => ?_) (fun _ => hi)
  exact Sound.vteEd (s := { s.setState .init with
    rend.videoEraseChar := (s.rend.videoEraseChar &&& 0xff00#16) ||| 0x45#16 }) hi 2

theorem Sound.docsState (h : Sound d N F s) (c : Nat) : Sound d N F (docsState s c) := by
  have hi := h.setState (e := .init) (by decide)
  unfold LinuxConsole.docsState
  dsimp only
  split <;> exact hi

theorem Sound.designateState (h : Sound d N F s) (get : Charsets → CharMap)
    (put : Charsets → CharMap → Charsets) (active : Bool) (c : Nat) :
    Sound d N F (designateState get put active s c) := by
  refine Sound.setState ?_ (by decide)
  exact Sound.ite (fun _ => h) (fun _ => h)

/-! ### Control sequences -/

theorem Sound.decDsr (h : Sound d N F s) : Sound d N F (decDsr s) := by
  unfold LinuxConsole.decDsr
  split
  · exact Sound.ite (fun _ => h) (fun _ => h)
  all_goals exact h

theorem Sound.ansiDsr (h : Sound d N F s) : Sound d N F (ansiDsr s) := by
  unfold LinuxConsole.ansiDsr
  split
  · exact h
  · exact Sound.ite (fun _ => h) (fun _ => h)
  · exact h

theorem Sound.csiPrivate (h : Sound d N F s) (c : Nat) : ∀ s' ∈ csiPrivate d s c, Sound d N F s' := by
  unfold LinuxConsole.csiPrivate
  split
  · split
    · exact sound_some (h.setState (by decide))
    · exact sound_none
  · split
    · exact sound_some h
    · exact sound_none
  · split
    · exact sound_some h
    · exact sound_none
  · exact sound_some (h.setMode true)
  · exact sound_some (h.setMode false)
  · split
    · refine sound_some (Sound.withFlags ?_ _ _ _ _)
      exact Sound.ite (fun _ => h) (fun _ => h)
    split
    · refine sound_some (Sound.withFlags ?_ _ _ _ _)
      exact Sound.ite (fun _ => h) (fun _ => h)
    split
    · exact sound_some (h.withFlags _ _ _ _)
    · exact sound_none
  · split
    · exact sound_some (h.withFlags _ _ _ _)
    · exact sound_none
  · refine sound_some (Sound.withFlags ?_ _ _ _ _)
    exact Sound.ite (fun _ => h.decDsr) (fun _ => h.ansiDsr)
  · exact sound_none

theorem Sound.vteDecstbm (h : Sound d N F s) (hs : s.ps.state ≠ .palette) :
    Sound d N F (vteDecstbm s) := by
  have h1 := h.atLeastOne hs
  have hs1 : s.atLeastOne.ps.state ≠ .palette := by rwa [atLeastOne_state]
  unfold LinuxConsole.vteDecstbm
  generalize s.atLeastOne = s1 at h1 hs1
  have h2 : Sound d N F (if s1.ps.par 1 = 0 then s1.setPar 1 s1.geo.rows else s1) :=
    Sound.ite (fun _ => h1.setPar hs1 (by decide) _) (fun _ => h1)
  dsimp only
  generalize (if s1.ps.par 1 = 0 then s1.setPar 1 s1.geo.rows else s1) = s2 at h2
  refine Sound.ite (fun hm => Sound.gotoxay ?_ 0 0) (fun _ => h2)
  exact { h2 with
    bounds := { h2.bounds with top_lt := by simp only; omega, bottom_le := hm.2 } }

theorem Sound.moveBy (h : Sound d N F s) (home : Bool) (dx dy : Int) :
    Sound d N F (moveBy s home dx dy) := h.gotoxy _ _

theorem Sound.csiFinal (h : Sound d N F s) (hs : s.ps.state ≠ .palette) (c : Nat) :
    Sound d N F (csiFinal d s c) := by
  have h1 := h.atLeastOne hs
  have h0 := h.fromZero hs (i := 0) (by decide)
  unfold LinuxConsole.csiFinal
  split
  case h_8 => exact h.vteIch _
  case h_9 | h_10 | h_11 | h_12 | h_13 | h_14 | h_15 | h_16 | h_17 | h_18 =>
    exact h1.moveBy _ _ _
  case h_19 | h_20 => exact h0.gotoxy _ _
  case h_21 | h_22 =>
    exact (h0.fromZero (by rwa [fromZero_state]) (by decide)).gotoxay _ _
  case h_23 => exact h1.vteCht _
  case h_24 => exact h.vteEd _
  case h_25 => exact h.vteEl _
  case h_26 => exact h.vteIl _
  case h_27 => exact h.vteDl _
  case h_28 => exact h.vteDch _
  case h_29 => exact h.vteCtc
  case h_30 => exact h.vteEch _
  case h_31 => exact h1.vteCvt _
  case h_32 => exact h.vteCbt _
  case h_33 => exact h.settermCommand
  case h_34 => exact Sound.ite (fun _ => h) (fun _ => h)
  case h_35 => exact h0.gotoxay _ _
  case h_36 => exact h.vteTbc _
  case h_37 => exact h.vteSgr
  case h_38 => exact Sound.ite (fun _ => h) (fun _ => h)
  case h_39 => exact h.vteDecstbm hs
  case h_40 | h_41 => exact h
  all_goals exact h.setState (by decide)

theorem Sound.csiGotpars (h : Sound d N F s) (c : Nat) : Sound d N F (csiGotpars d s c) := by
  have hi := h.setState (e := .init) (by decide)
  unfold LinuxConsole.csiGotpars
  dsimp only
  split
  · next s' he => exact hi.csiPrivate c s' he
  · refine Sound.ite (fun _ => hi.withFlags _ _ _ _) (fun _ => ?_)
    exact hi.csiFinal (show EsState.init ≠ .palette by decide) c

theorem Sound.csiGetpars (h : Sound d N F s) (hs : s.ps.state ≠ .palette) (c : Nat) :
    Sound d N F (csiGetpars d s c) := by
  refine Sound.ite (fun hc => ?_) (fun _ => Sound.ite (fun _ => ?_) (fun _ => ?_))
  · exact h.withParser ⟨by have := hc.2; simp only [NPAR] at this ⊢; omega,
      fun he => absurd he hs⟩
  · exact h.setPar hs h.parser.npar_lt _
  · exact (h.setState (by decide)).csiGotpars c

theorem Sound.csiState (h : Sound d N F s) (c : Nat) : Sound d N F (csiState d s c) := by
  have hi := h.clearPars.setState (e := .csiGetpars) (by decide)
  have hf := hi.withFlags (c == 0x3c) (c == 0x3d) (c == 0x3e) (c == 0x3f)
  refine Sound.ite (fun _ => hi.setState (by decide)) (fun _ => ?_)
  refine Sound.ite (fun _ => hf.setState (by decide)) (fun _ => ?_)
  refine Sound.ite (fun _ => hf) (fun _ => ?_)
  exact hf.csiGetpars (show EsState.csiGetpars ≠ .palette by decide) c

theorem Sound.emulateState (h : Sound d N F s) (c : Nat) : Sound d N F (emulateState d s c) := by
  have hi := h.setState (e := .init) (by decide)
  unfold LinuxConsole.emulateState
  split
  case h_1 => exact h.escState c
  case h_2 => exact h.acsState c
  case h_3 => exact h.oscState c
  case h_4 hs => exact h.paletteState hs c
  case h_5 => exact h.csiState c
  case h_6 hs => exact h.csiGetpars (by rw [hs]; decide) c
  case h_7 => exact h.csiGotpars c
  case h_8 => exact Sound.ite (fun _ => hi.vteRis true) (fun _ => hi)
  case h_9 => exact Sound.ite (fun _ => hi.vteDecscl) (fun _ => hi)
  case h_10 => exact Sound.ite (fun _ => Sound.ite (fun _ => hi) (fun _ => hi)) (fun _ => hi)
  case h_11 => exact h.docsState c
  case h_12 => exact h.scfState c
  case h_13 | h_14 | h_15 | h_16 => exact h.designateState _ _ _ c
  all_goals exact hi

/-- **A byte given to the emulator keeps the geometry invariant.** -/
theorem Sound.terminalEmulation (h : Sound d N F s) (c : Nat) :
    Sound d N F (terminalEmulation d s c) := by
  unfold LinuxConsole.terminalEmulation
  split
  · next s' he => exact h.c0Control c s' he
  split
  · next s' he =>
    split at he
    · exact h.c1Control c s' he
    · simp at he
  · exact h.emulateState c

end LinuxConsole

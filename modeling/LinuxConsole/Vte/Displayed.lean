import LinuxConsole.Vc.Displayed

/-!
# The emulator redraws what it writes

`Redraws` for the control functions and the states of the parser, in the order of `decvte.c`.  A
function that touches neither the screen nor its display redraws it trivially; the others are those
of `vt.c`.  `redraws_terminalEmulation` is **a character handed to the emulator**.
-/

namespace LinuxConsole

variable {d : Driver} {N : Nat} {F : List Fault} {s s' : Con}

/-! ### Functions that draw nothing -/

theorem redraws_cur (s : Con) (c : Cursor) : Redraws s { s with cur := c } :=
  .of_eq rfl rfl rfl rfl rfl

theorem redraws_ps (s : Con) (ps : Parser) : Redraws s { s with ps := ps } :=
  .of_eq rfl rfl rfl rfl rfl

theorem redraws_rend (s : Con) (r : Rendition) : Redraws s { s with rend := r } :=
  .of_eq rfl rfl rfl rfl rfl

theorem redraws_chars (s : Con) (h : Charsets) : Redraws s { s with chars := h } :=
  .of_eq rfl rfl rfl rfl rfl

theorem redraws_modes (s : Con) (m : Modes) : Redraws s { s with modes := m } :=
  .of_eq rfl rfl rfl rfl rfl

theorem redraws_check (s : Con) (ok : Bool) (f : Fault) : Redraws s (s.check ok f) :=
  .of_eq rfl rfl rfl rfl rfl

theorem redraws_request (s : Con) (r : Request) : Redraws s (s.request r) :=
  .of_eq rfl rfl rfl rfl rfl

theorem redraws_putsQueue (s : Con) (cp : List Nat) : Redraws s (s.putsQueue cp) :=
  .of_eq rfl rfl rfl rfl rfl

theorem redraws_setPalette (s : Con) : Redraws s (setPalette s) := by
  rw [setPalette]
  exact .ite (fun _ => redraws_draw s fun _ => rfl) fun _ => .refl s

theorem redraws_palette (s : Con) (p : Nat → BitVec 8) : Redraws s { s with paletteMap := p } :=
  .of_eq rfl rfl rfl rfl rfl

theorem redraws_resetPalette (s : Con) : Redraws s (resetPalette s) :=
  (redraws_palette s _).trans (redraws_setPalette _)

theorem redraws_gotoxy (s : Con) (x y : Int) : Redraws s (gotoxy s x y) := redraws_cur s _

theorem redraws_gotoxay (s : Con) (x y : Int) : Redraws s (gotoxay s x y) := redraws_gotoxy s _ _

theorem redraws_updateAttr (s : Con) : Redraws s (updateAttr d s) := redraws_rend s _

/-! ### Format effectors -/

theorem redraws_vteLf (hd : Inert d) (h : Placed s) : Redraws s (vteLf d s) := by
  have hrows := h.bounds.rows_lt
  have htop := h.bounds.top_lt
  have hbot := h.bounds.bottom_le
  rw [vteLf]
  refine Redraws.trans (.ite (fun _ => ?_) fun _ => ?_) (redraws_cur _ _)
  · exact redraws_scrollRegionUp hd h 1 (by omega) (by omega)
  · exact .ite (fun _ => redraws_cur s _) fun _ => .refl s

theorem redraws_vteRi (hd : Inert d) (h : Placed s) : Redraws s (vteRi d s) := by
  have hrows := h.bounds.rows_lt
  have htop := h.bounds.top_lt
  have hbot := h.bounds.bottom_le
  rw [vteRi]
  refine Redraws.trans (.ite (fun _ => ?_) fun _ => ?_) (redraws_cur _ _)
  · exact redraws_scrollRegionDown hd h 1 (by omega) (by omega)
  · exact .ite (fun _ => redraws_cur s _) fun _ => .refl s

theorem redraws_vteCr (s : Con) : Redraws s (vteCr s) := redraws_cur s _

theorem redraws_vteCvt (hd : Inert d) (h : Sound d N F s) (vpar : Int) :
    Redraws s (vteCvt d s vpar) :=
  .iterate (fun _ h => redraws_vteLf hd (h.placed hd)) (fun _ h => h.vteLf) vpar.toNat s h

theorem redraws_tabLeft (fuel : Nat) : ∀ s : Con, Redraws s (tabLeft fuel s) := by
  induction fuel with
  | zero => exact .refl
  | succ fuel ih =>
    intro s
    have hstep : Redraws s (checkTab { s with cur.x := s.cur.x - 1 }) :=
      (redraws_cur s _).trans (redraws_check _ _ _)
    rw [tabLeft]
    refine .ite (fun _ => ?_) fun _ => .refl s
    exact .ite (fun _ => hstep) fun _ => hstep.trans (ih _)

theorem redraws_tabRight (fuel : Nat) : ∀ s : Con, Redraws s (tabRight fuel s) := by
  induction fuel with
  | zero => exact .refl
  | succ fuel ih =>
    intro s
    have hstep : Redraws s (checkTab { s with cur.x := s.cur.x + 1 }) :=
      (redraws_cur s _).trans (redraws_check _ _ _)
    rw [tabRight]
    refine .ite (fun _ => ?_) fun _ => .refl s
    exact .ite (fun _ => hstep) fun _ => hstep.trans (ih _)

theorem redraws_backTab (s : Con) : Redraws s (backTab s) :=
  ((redraws_cur s _).trans (redraws_tabLeft _ _)).trans (redraws_cur _ _)

theorem redraws_forwardTab (s : Con) : Redraws s (forwardTab s) :=
  ((redraws_cur s _).trans (redraws_tabRight _ _)).trans (redraws_cur _ _)

/-- A function that never touches the cells, repeated. -/
theorem redraws_iterate {f : Con → Con} (hf : ∀ s, Redraws s (f s)) (n : Nat) :
    ∀ s, Redraws s (f^[n] s) := by
  induction n with
  | zero => exact .refl
  | succ n ih => exact fun s => (hf s).trans (ih (f s))

theorem redraws_vteCbt (s : Con) (vpar : Int) : Redraws s (vteCbt s vpar) :=
  redraws_iterate redraws_backTab vpar.toNat s

theorem redraws_vteCht (s : Con) (vpar : Int) : Redraws s (vteCht s vpar) :=
  redraws_iterate redraws_forwardTab vpar.toNat s

theorem redraws_setTab (s : Con) : Redraws s (setTab s) := .of_eq rfl rfl rfl rfl rfl

theorem redraws_vteTbc (s : Con) (vpar : Nat) : Redraws s (vteTbc s vpar) := by
  rw [vteTbc.eq_def]
  split
  case h_5 => exact .refl s
  all_goals exact .of_eq rfl rfl rfl rfl rfl

theorem redraws_vteCtc (s : Con) : Redraws s (vteCtc s) := by
  rw [vteCtc]
  split
  · exact redraws_setTab s
  · exact redraws_vteTbc s 0
  · exact redraws_vteTbc s 5
  · exact .refl s

/-! ### Rendition and modes -/

theorem redraws_sgrPar (s : Con) (p : Nat) : Redraws s (sgrPar s p) := by
  have hcolor (i : Nat) (r : Rendition) : Redraws s { checkColor s i with rend := r } :=
    (redraws_check s _ _).trans (redraws_rend _ r)
  rw [sgrPar.eq_def]
  split
  case h_19 => exact .ite (fun _ => hcolor _ _) fun _ => .ite (fun _ => hcolor _ _) fun _ => .refl s
  all_goals exact .of_eq rfl rfl rfl rfl rfl

/-- A loop over the parameters, which keeps the size of the screen. -/
theorem redraws_forPars {f : Con → Nat → Con} (hf : ∀ s p, s.geo.Sized → Redraws s (f s p))
    (hz : s.geo.Sized) : Redraws s (forPars f s) := by
  rw [forPars]
  generalize List.range (s.ps.npar + 1) = is
  induction is generalizing s with
  | nil => exact .refl s
  | cons i is ih =>
    refine .of_lit fun hl => ?_
    have hstep : Redraws s (f (s.check (i < NPAR) (.vcPar i)) (s.ps.par i)) :=
      (redraws_check s _ _).trans (hf _ _ hz)
    refine hstep.trans (ih ?_)
    rw [(hstep hl).1]
    exact hz

theorem redraws_vteSgr (hz : s.geo.Sized) : Redraws s (vteSgr d s) :=
  (redraws_forPars (fun s p _ => redraws_sgrPar s p) hz).trans (redraws_updateAttr _)

theorem redraws_setPrivMode (hz : s.geo.Sized) (on : Bool) (p : Nat) :
    Redraws s (setPrivMode d on s p) := by
  rw [setPrivMode.eq_def]
  split
  case h_2 =>
    refine .ite (fun _ => (redraws_modes s { s.modes with decscnm := on }).trans ?_)
      fun _ => .refl s
    exact (redraws_invertScreen (s := { s with modes.decscnm := on }) hz).trans
      (redraws_updateAttr _)
  all_goals exact .of_eq rfl rfl rfl rfl rfl

theorem redraws_setAnsiMode (on : Bool) (s : Con) (p : Nat) : Redraws s (setAnsiMode on s p) := by
  rw [setAnsiMode.eq_def]
  split
  all_goals exact .of_eq rfl rfl rfl rfl rfl

theorem redraws_setMode (hz : s.geo.Sized) (on : Bool) : Redraws s (setMode d s on) := by
  refine redraws_forPars (fun s p hz => ?_) hz
  split
  · exact redraws_setPrivMode hz on p
  · exact redraws_setAnsiMode on s p

/-- A poke of a display that is not blanked sets the timer alone. -/
theorem redraws_pokeBlankedConsole (s : Con) : Redraws s (pokeBlankedConsole d s) := by
  refine .of_lit fun hl => ?_
  have htimer : Redraws s { s with vt.blankTimerExpired := false } := .of_eq rfl rfl rfl rfl rfl
  rw [pokeBlankedConsole]
  refine .ite (fun _ => htimer) fun _ => .ite (fun hb => ?_) fun _ => ?_
  · exact absurd hb (Bool.eq_false_iff.mp hl.awake)
  · exact .ite (fun _ => .of_eq rfl rfl rfl rfl rfl) fun _ => htimer

theorem redraws_settermCommand (s : Con) : Redraws s (settermCommand d s) := by
  have hcolor (i : Nat) (r : Rendition) : Redraws s { checkColor s i with rend := r } :=
    (redraws_check s _ _).trans (redraws_rend _ r)
  have hinterval (n : Nat) : Redraws s { s with vt.blankInterval := n } :=
    .of_eq rfl rfl rfl rfl rfl
  rw [settermCommand]
  split
  case h_1 =>
    refine .ite (fun _ => ?_) fun _ => .refl s
    exact .ite (fun _ => (hcolor _ _).trans (redraws_updateAttr _)) fun _ => hcolor _ _
  case h_2 =>
    refine .ite (fun _ => ?_) fun _ => .refl s
    exact .ite (fun _ => (hcolor _ _).trans (redraws_updateAttr _)) fun _ => hcolor _ _
  case h_4 => exact (hinterval _).trans (redraws_pokeBlankedConsole _)
  case h_8 => exact redraws_pokeBlankedConsole s
  case h_11 => exact .refl s
  all_goals exact .of_eq rfl rfl rfl rfl rfl

theorem redraws_vteDecscl (s : Con) : Redraws s (vteDecscl s) := by
  rw [vteDecscl]
  split
  case h_5 => exact .refl s
  all_goals exact .ite (fun _ => redraws_modes s _) fun _ => .refl s

/-! ### Insertion, deletion and reset -/

theorem redraws_insertLine (hd : Inert d) (h : Placed s) {nr : Nat}
    (hnr : nr ≤ s.geo.rows - s.cur.y) : Redraws s (insertLine d s nr) := by
  have hrows := h.bounds.rows_lt
  have hy := h.bounds.y_lt
  exact (redraws_scrollRegionDown hd h nr (by omega) (by omega)).trans (redraws_cur _ _)

theorem redraws_deleteLine (hd : Inert d) (h : Placed s) {nr : Nat}
    (hnr : nr ≤ s.geo.rows - s.cur.y) : Redraws s (deleteLine d s nr) := by
  have hrows := h.bounds.rows_lt
  have hy := h.bounds.y_lt
  exact (redraws_scrollRegionUp hd h nr (by omega) (by omega)).trans (redraws_cur _ _)

theorem redraws_vteRis (hz : s.geo.Sized) (doClear : Bool) : Redraws s (vteRis d s doClear) := by
  rw [vteRis]
  refine .ite (fun _ => Redraws.trans ?_ (redraws_erasePage ?_)) fun _ => ?_
  · exact .of_eq rfl rfl rfl rfl rfl
  · exact hz
  · exact .of_eq rfl rfl rfl rfl rfl

/-! ### Bytes of the emulator -/

theorem redraws_setState (s : Con) (e : EsState) : Redraws s (s.setState e) := redraws_ps s _

theorem redraws_setPar (s : Con) (i v : Nat) : Redraws s (s.setPar i v) :=
  (redraws_check s _ _).trans (redraws_ps _ _)

theorem redraws_atLeastOne (s : Con) : Redraws s s.atLeastOne :=
  .ite (fun _ => redraws_setPar s 0 1) fun _ => .refl s

theorem redraws_fromZero (s : Con) (i : Nat) : Redraws s (s.fromZero i) :=
  .ite (fun _ => redraws_setPar s i _) fun _ => .refl s

theorem redraws_some (h : Redraws s s') : ∀ s'' ∈ some s', Redraws s s'' := by
  intro s'' hs
  rwa [← Option.mem_some.mp hs]

theorem redraws_none : ∀ s' ∈ (none : Option Con), Redraws s s' := by simp

theorem redraws_c0Control (hd : Inert d) (h : Placed s) (c : Nat) :
    ∀ s' ∈ c0Control d s c, Redraws s s' := by
  have hlf := redraws_vteLf hd h
  have hnl : Redraws s (if getKbdMode (vteLf d s) vcCrlf then vteCr (vteLf d s) else vteLf d s) :=
    .ite (fun _ => hlf.trans (redraws_vteCr _)) fun _ => hlf
  rw [c0Control.eq_def]
  split
  case h_2 => exact redraws_some (.ite (fun _ => redraws_request s _) fun _ => .refl s)
  case h_3 => exact redraws_some (.ite (fun _ => redraws_cur s _) fun _ => .refl s)
  case h_4 => exact redraws_some (redraws_forwardTab s)
  case h_5 | h_6 | h_7 => exact redraws_some hnl
  case h_14 =>
    split
    · exact redraws_some (.refl s)
    · exact redraws_none
  all_goals exact redraws_some (.of_eq rfl rfl rfl rfl rfl)

theorem redraws_c1Control (hd : Inert d) (h : Placed s) (c : Nat) :
    ∀ s' ∈ c1Control d s c, Redraws s s' := by
  rw [c1Control.eq_def]
  split
  · exact redraws_some (redraws_vteLf hd h)
  · exact redraws_some ((redraws_vteLf hd h).trans (redraws_vteCr _))
  · exact redraws_some (redraws_setTab s)
  · exact redraws_some (redraws_vteRi hd h)
  · exact redraws_none
  · exact redraws_none
  · exact redraws_some (redraws_putsQueue s _)
  · exact redraws_some (redraws_setState s _)
  · split
    · exact redraws_some (.refl s)
    · exact redraws_none

theorem redraws_escState (hd : Inert d) (h : Sound d N F s) (c : Nat) :
    Redraws s (escState d s c) := by
  have hi := redraws_setState s .init
  have hs := h.setState (e := .init) (by decide)
  rw [escState.eq_def]
  dsimp only
  split
  case h_10 | h_11 | h_12 | h_13 | h_14 => exact hi.trans (redraws_vteLf hd (hs.placed hd))
  case h_15 =>
    exact hi.trans ((redraws_vteCr _).trans (redraws_vteLf hd (hs.vteCr.placed hd)))
  case h_17 => exact hi.trans (redraws_vteRi hd (hs.placed hd))
  case h_25 => exact hi.trans (redraws_vteRis (hs.placed hd).sized true)
  all_goals exact .of_eq rfl rfl rfl rfl rfl

theorem redraws_acsState (s : Con) (c : Nat) : Redraws s (acsState s c) := by
  have hi := redraws_setState s .init
  rw [acsState.eq_def]
  dsimp only
  split
  · exact .ite (fun _ => hi.trans (redraws_modes _ _)) fun _ => hi
  · exact .ite (fun _ => hi.trans (redraws_modes _ _)) fun _ => hi
  · exact hi

theorem redraws_oscState (s : Con) (c : Nat) : Redraws s (oscState s c) := by
  have hi := redraws_setState s .init
  rw [oscState.eq_def]
  dsimp only
  split
  · exact .of_eq rfl rfl rfl rfl rfl
  · exact hi.trans ((redraws_resetPalette _).trans (redraws_setState _ _))
  · exact hi

theorem redraws_setPaletteByte (s : Con) (i hi lo : Nat) :
    Redraws s (s.setPaletteByte i hi lo) :=
  (redraws_check s _ _).trans (redraws_palette _ _)

theorem redraws_paletteState (s : Con) (c : Nat) : Redraws s (paletteState s c) := by
  rw [paletteState]
  split
  · next v _ =>
    have hpar := (redraws_setPar s s.ps.npar v).trans (redraws_ps (s.setPar s.ps.npar v)
      { (s.setPar s.ps.npar v).ps with npar := s.ps.npar + 1 })
    refine .ite (fun _ => hpar.trans ?_) fun _ => hpar
    exact (((redraws_setPaletteByte _ _ _ _).trans (redraws_setPaletteByte _ _ _ _)).trans
      (redraws_setPaletteByte _ _ _ _)).trans ((redraws_setPalette _).trans (redraws_setState _ _))
  · exact redraws_setState s _

/-- The screen alignment test draws the whole screen. -/
theorem redraws_scfState (hz : s.geo.Sized) (c : Nat) : Redraws s (scfState s c) := by
  have hi := redraws_setState s .init
  rw [scfState]
  refine .ite (fun _ => ?_) fun _ => hi
  refine .of_lit fun hl => ?_
  have hfill : Redraws s (vteEd { s.setState .init with
      rend.videoEraseChar := (s.rend.videoEraseChar &&& 0xff00#16) ||| 0x45#16 } 2) :=
    (hi.trans (redraws_rend _ _)).trans (redraws_erasePage hz)
  refine (hfill.trans (redraws_rend _ _)).trans (redraws_doUpdateRegion ?_)
  have hgeo := (hfill hl).1
  show (vteEd _ 2).geo.Sized
  rw [hgeo]
  exact hz

theorem redraws_docsState (s : Con) (c : Nat) : Redraws s (docsState s c) := by
  rw [docsState.eq_def]
  dsimp only
  split
  all_goals exact .of_eq rfl rfl rfl rfl rfl

theorem redraws_designateState (get : Charsets → CharMap) (put : Charsets → CharMap → Charsets)
    (active : Bool) (s : Con) (c : Nat) : Redraws s (designateState get put active s c) := by
  have hput := redraws_chars s (put s.chars (designate c (get s.chars)))
  rw [designateState]
  exact Redraws.trans (.ite (fun _ => hput.trans (redraws_chars _ _)) fun _ => hput)
    (redraws_setState _ _)

/-! ### Control sequences -/

theorem redraws_vteCpr (s : Con) (ext : Bool) : Redraws s (vteCpr s ext) :=
  .ite (fun _ => redraws_putsQueue s _) fun _ => redraws_putsQueue s _

theorem redraws_vteDecrqm (s : Con) (priv : Bool) : Redraws s (vteDecrqm s priv) :=
  .ite (fun _ => redraws_putsQueue s _) fun _ => redraws_putsQueue s _

theorem redraws_decDsr (s : Con) : Redraws s (decDsr s) := by
  rw [decDsr]
  split
  case h_1 => exact redraws_vteCpr s true
  case h_9 => exact .refl s
  all_goals exact redraws_putsQueue s _

theorem redraws_ansiDsr (s : Con) : Redraws s (ansiDsr s) := by
  rw [ansiDsr]
  split
  · exact redraws_putsQueue s _
  · exact redraws_vteCpr s false
  · exact .refl s

theorem redraws_csiPrivate (hz : s.geo.Sized) (c : Nat) :
    ∀ s' ∈ csiPrivate d s c, Redraws s s' := by
  have hda (p : Con → Con) (hp : ∀ s, Redraws s (p s)) :
      Redraws s (if s.ps.par 0 = 0 then p s else s) := .ite (fun _ => hp s) fun _ => .refl s
  rw [csiPrivate.eq_def]
  split
  case h_1 =>
    split
    · exact redraws_some (redraws_setState s _)
    · exact redraws_none
  case h_2 | h_3 =>
    split
    · exact redraws_some (.refl s)
    · exact redraws_none
  case h_4 => exact redraws_some (redraws_setMode hz true)
  case h_5 => exact redraws_some (redraws_setMode hz false)
  case h_6 =>
    split
    · exact redraws_some ((hda vteDecDa3 fun s => redraws_putsQueue s _).trans (redraws_ps _ _))
    split
    · exact redraws_some ((hda vteDecDa2 fun s => redraws_putsQueue s _).trans (redraws_ps _ _))
    split
    · exact redraws_some (.of_eq rfl rfl rfl rfl rfl)
    · exact redraws_none
  case h_7 =>
    split
    · exact redraws_some (.of_eq rfl rfl rfl rfl rfl)
    · exact redraws_none
  case h_8 =>
    exact redraws_some (Redraws.trans (.ite (fun _ => redraws_decDsr s) fun _ => redraws_ansiDsr s)
      (redraws_ps _ _))
  case h_9 => exact redraws_none

theorem redraws_vteDecstbm (s : Con) : Redraws s (vteDecstbm s) := by
  have h1 := redraws_atLeastOne s
  have h2 := h1.trans (.ite (p := s.atLeastOne.ps.par 1 = 0)
    (fun _ => redraws_setPar s.atLeastOne 1 s.atLeastOne.geo.rows) fun _ => .refl _)
  have hmar (s : Con) (m : Margins) : Redraws s { s with mar := m } := .of_eq rfl rfl rfl rfl rfl
  rw [vteDecstbm]
  exact .ite (fun _ => h2.trans ((hmar _ _).trans (redraws_gotoxay _ 0 0))) fun _ => h2

theorem redraws_moveBy (s : Con) (home : Bool) (dx dy : Int) : Redraws s (moveBy s home dx dy) :=
  redraws_gotoxy s _ _

/-- The control functions with standard parameters. -/
theorem redraws_csiFinal (hd : Inert d) (h : Sound d N F s) (hs : s.ps.state ≠ .palette) (c : Nat) :
    Redraws s (csiFinal d s c) := by
  have hp := h.placed hd
  have h1 := redraws_atLeastOne s
  have h0 := redraws_fromZero s 0
  rw [csiFinal.eq_def]
  dsimp only
  split
  case h_8 => exact redraws_insertChar hp (charCount_le h _)
  case h_9 | h_10 | h_11 | h_12 | h_13 | h_14 | h_15 | h_16 | h_17 | h_18 =>
    exact h1.trans (redraws_moveBy _ _ _ _)
  case h_19 | h_20 => exact h0.trans (redraws_gotoxy _ _ _)
  case h_21 | h_22 => exact h0.trans ((redraws_fromZero _ 1).trans (redraws_gotoxay _ _ _))
  case h_23 => exact h1.trans (redraws_vteCht _ _)
  case h_24 => exact redraws_vteEd hp _
  case h_25 => exact redraws_vteEl hp _
  case h_26 => exact redraws_insertLine hd hp (lineCount_le h _)
  case h_27 => exact redraws_deleteLine hd hp (lineCount_le h _)
  case h_28 => exact redraws_deleteChar hp (charCount_le h _)
  case h_29 => exact redraws_vteCtc s
  case h_30 => exact redraws_vteEch hp _
  case h_31 => exact h1.trans (redraws_vteCvt hd (h.atLeastOne hs) _)
  case h_32 => exact redraws_vteCbt s _
  case h_33 => exact redraws_settermCommand s
  case h_34 => exact .ite (fun _ => redraws_putsQueue s _) fun _ => .refl s
  case h_35 => exact h0.trans (redraws_gotoxay _ _ _)
  case h_36 => exact redraws_vteTbc s _
  case h_37 => exact redraws_vteSgr hp.sized
  case h_38 => exact .ite (fun _ => .of_eq rfl rfl rfl rfl rfl) fun _ => .refl s
  case h_39 => exact redraws_vteDecstbm s
  case h_41 => exact .refl s
  all_goals exact .of_eq rfl rfl rfl rfl rfl

theorem redraws_csiGotpars (hd : Inert d) (h : Sound d N F s) (c : Nat) :
    Redraws s (csiGotpars d s c) := by
  have hi := redraws_setState s .init
  have hs := h.setState (e := .init) (by decide)
  rw [csiGotpars]
  split
  case h_1 s' he => exact hi.trans (redraws_csiPrivate (hs.placed hd).sized c s' he)
  case h_2 =>
    refine .ite (fun _ => hi.trans (redraws_ps _ _)) fun _ => hi.trans ?_
    exact redraws_csiFinal hd hs (show EsState.init ≠ .palette by decide) c

theorem redraws_csiGetpars (hd : Inert d) (h : Sound d N F s) (c : Nat) :
    Redraws s (csiGetpars d s c) := by
  rw [csiGetpars]
  refine .ite (fun _ => redraws_ps s _) fun _ => .ite (fun _ => redraws_setPar s _ _) fun _ => ?_
  exact (redraws_setState s _).trans
    (redraws_csiGotpars hd (h.setState (e := .csiGotpars) (by decide)) c)

theorem redraws_csiState (hd : Inert d) (h : Sound d N F s) (c : Nat) :
    Redraws s (csiState d s c) := by
  have hi := h.clearPars.setState (e := .csiGetpars) (by decide)
  have hf : Sound d N F (afterCsi s c) := hi.withFlags _ _ _ _
  have hstart : Redraws s (afterCsi s c) := redraws_ps s _
  rw [csiState]
  refine .ite (fun _ => redraws_ps s _) fun _ => ?_
  refine .ite (fun _ => redraws_ps s _) fun _ => ?_
  exact .ite (fun _ => hstart) fun _ => hstart.trans (redraws_csiGetpars hd hf c)

theorem redraws_emulateState (hd : Inert d) (h : Sound d N F s) (c : Nat) :
    Redraws s (emulateState d s c) := by
  have hi := redraws_setState s .init
  have hz := (h.placed hd).sized
  rw [emulateState.eq_def]
  split
  case h_1 => exact redraws_escState hd h c
  case h_2 => exact redraws_acsState s c
  case h_3 => exact redraws_oscState s c
  case h_4 => exact redraws_paletteState s c
  case h_5 => exact redraws_csiState hd h c
  case h_6 => exact redraws_csiGetpars hd h c
  case h_7 => exact redraws_csiGotpars hd h c
  case h_8 =>
    have hris := hi.trans (redraws_vteRis (d := d) (s := s.setState .init) hz true)
    exact .ite (fun _ => hris) fun _ => hi
  case h_9 => exact .ite (fun _ => hi.trans (redraws_vteDecscl _)) fun _ => hi
  case h_10 => exact .ite (fun _ => hi.trans (redraws_vteDecrqm _ _)) fun _ => hi
  case h_11 => exact redraws_docsState s c
  case h_12 => exact redraws_scfState hz c
  case h_13 | h_14 | h_15 | h_16 => exact redraws_designateState _ _ _ s c
  all_goals exact hi

/-- **A character handed to the emulator** is drawn as it is stored. -/
theorem redraws_terminalEmulation (hd : Inert d) (h : Sound d N F s) (c : Nat) :
    Redraws s (terminalEmulation d s c) := by
  rw [terminalEmulation]
  split
  case h_1 s' he => exact redraws_c0Control hd (h.placed hd) c s' he
  split
  case h_1 s' he =>
    split at he
    · exact redraws_c1Control hd (h.placed hd) c s' he
    · contradiction
  case h_2 => exact redraws_emulateState hd h c

end LinuxConsole

import LinuxConsole.Vte.Frame

/-!
# Where the cursor is

`Con.place` is what a console knows about its cursor: row, column and pending wrap, the margins and
the two modes that move it, and what DECSC has saved.  Most functions of the emulator leave all of
it; those that place the cursor clear the pending wrap.

`Moves W S s s'` is what is left of this for every function: the cursor stays **inside the margins in
origin mode**; under the condition `W` a wrap is pending only if it was, with the cursor where it was
and autowrap still on; and under `S` the saved cursor is the same.  `Con.strands` and `Con.saves` are
the bytes at which `W` and `S` fail, and `moves_terminalEmulation` is the step of the emulator.
-/

namespace LinuxConsole

variable {d : Driver} {W S : Prop} {s s' s'' : Con}

/-- What a console knows about its cursor. -/
structure Place where
  x : Nat
  y : Nat
  wrap : Bool
  mar : Margins
  decom : Bool
  awm : Bool
  cols : Nat
  rows : Nat
  saved : Saved

def Con.place (s : Con) : Place where
  x := s.cur.x
  y := s.cur.y
  wrap := s.cur.needWrap
  mar := s.mar
  decom := s.modes.decom
  awm := s.modes.decawm
  cols := s.geo.cols
  rows := s.geo.rows
  saved := s.saved

/-- **The cursor is inside the margins** when these bound its moves. -/
structure Inside (s : Con) : Prop where
  rows_pos : 0 < s.geo.rows
  top_lt : s.mar.top < s.mar.bottom
  row : s.modes.decom = true → s.mar.top ≤ s.cur.y ∧ s.cur.y < s.mar.bottom

/-- **A wrap is pending** only behind a filled last column, and with autowrap on. -/
def Filled (s : Con) : Prop :=
  s.cur.needWrap = true → s.cur.x + 1 = s.geo.cols ∧ s.modes.decawm = true

/-- **What every function does with the cursor**, under the conditions `W` and `S`. -/
structure Moves (W S : Prop) (s s' : Con) : Prop where
  cols : s'.geo.cols = s.geo.cols
  rows : s'.geo.rows = s.geo.rows
  inside : Inside s → Inside s'
  wrap : W → Filled s → s'.cur.needWrap = true → s.cur.needWrap = true ∧
    s'.cur.x = s.cur.x ∧ s'.cur.y = s.cur.y ∧ (s.modes.decawm = true → s'.modes.decawm = true)
  saved : S → s'.saved = s.saved

/-- The condition keeps the wrap where it belongs. -/
theorem Moves.filled (h : Moves W S s s') (hw : W) (hf : Filled s) : Filled s' := by
  intro hn
  obtain ⟨hn, hx, -, hawm⟩ := h.wrap hw hf hn
  rw [hx, h.cols]
  exact ⟨(hf hn).1, hawm (hf hn).2⟩

theorem Moves.trans (h : Moves W S s s') (h' : Moves W S s' s'') : Moves W S s s'' where
  cols := h'.cols.trans h.cols
  rows := h'.rows.trans h.rows
  inside hi := h'.inside (h.inside hi)
  wrap hw hf hn := by
    obtain ⟨hn', hx', hy', hawm'⟩ := h'.wrap hw (h.filled hw hf) hn
    obtain ⟨hn, hx, hy, hawm⟩ := h.wrap hw hf hn'
    exact ⟨hn, hx'.trans hx, hy'.trans hy, fun ha => hawm' (hawm ha)⟩
  saved hs := (h'.saved hs).trans (h.saved hs)

/-- The place of the cursor is the same. -/
theorem Moves.of_place (h : s'.place = s.place) : Moves W S s s' where
  cols := congrArg Place.cols h
  rows := congrArg Place.rows h
  inside hi := by
    have hmar : s'.mar = s.mar := congrArg Place.mar h
    have hdecom : s'.modes.decom = s.modes.decom := congrArg Place.decom h
    have hy : s'.cur.y = s.cur.y := congrArg Place.y h
    have hrows : s'.geo.rows = s.geo.rows := congrArg Place.rows h
    refine ⟨by rw [hrows]; exact hi.rows_pos, by rw [hmar]; exact hi.top_lt, ?_⟩
    rw [hmar, hdecom, hy]
    exact hi.row
  wrap _ _ hn := by
    have hwrap : s'.cur.needWrap = s.cur.needWrap := congrArg Place.wrap h
    have hawm : s'.modes.decawm = s.modes.decawm := congrArg Place.awm h
    rw [hwrap] at hn
    exact ⟨hn, congrArg Place.x h, congrArg Place.y h, fun ha => hawm.trans ha⟩
  saved _ := congrArg Place.saved h

theorem Moves.refl (s : Con) : Moves W S s s := .of_place rfl

/-- The cursor is placed, with no wrap pending. -/
theorem Moves.of_cleared (hcols : s'.geo.cols = s.geo.cols) (hrows : s'.geo.rows = s.geo.rows)
    (hwrap : s'.cur.needWrap = false) (hsaved : s'.saved = s.saved)
    (hinside : Inside s → Inside s') : Moves W S s s' where
  cols := hcols
  rows := hrows
  inside := hinside
  wrap _ _ hn := by
    rw [hwrap] at hn
    contradiction
  saved _ := hsaved

/-- The cursor goes to another column. -/
theorem Moves.of_column (h : s'.place = { s.place with x := s'.cur.x })
    (hx : W → Filled s → s.cur.needWrap = true → s'.cur.x = s.cur.x) : Moves W S s s' := by
  have hrow : Moves W S { s with cur.x := s'.cur.x } s' := .of_place h
  have hwrap : s'.cur.needWrap = s.cur.needWrap := congrArg Place.wrap h
  have hawm : s'.modes.decawm = s.modes.decawm := congrArg Place.awm h
  refine ⟨hrow.cols, hrow.rows, fun hi => hrow.inside ⟨hi.rows_pos, hi.top_lt, hi.row⟩, ?_,
    hrow.saved⟩
  intro hw hf hn
  rw [hwrap] at hn
  exact ⟨hn, hx hw hf hn, congrArg Place.y h, fun ha => hawm.trans ha⟩

theorem Moves.ite {p : Prop} [Decidable p] {a b : Con} (ha : p → Moves W S s a)
    (hb : ¬p → Moves W S s b) : Moves W S s (if p then a else b) := by
  split
  case isTrue h => exact ha h
  case isFalse h => exact hb h

theorem Moves.iterate {f : Con → Con} (hf : ∀ s, Moves W S s (f s)) (n : Nat) :
    ∀ s, Moves W S s (f^[n] s) := by
  induction n with
  | zero => exact .refl
  | succ n ih => exact fun s => (hf s).trans (ih (f s))

theorem place_ite {c : Prop} [Decidable c] {a b : Con} {p : Place} (ha : a.place = p)
    (hb : b.place = p) : (if c then a else b).place = p := by
  split
  · exact ha
  · exact hb

/-! ### The screen -/

theorem place_insertLoop (q nr k : Nat) : ∀ s : Con, (insertLoop q nr k s).place = s.place := by
  induction k with
  | zero => exact fun _ => rfl
  | succ k ih => exact fun s => ih _

theorem place_deleteLoop (nr k : Nat) :
    ∀ (p : Nat) (s : Con), (deleteLoop nr k p s).place = s.place := by
  induction k with
  | zero => exact fun _ _ => rfl
  | succ k ih => exact fun p s => ih (p + 2) _

theorem moves_needWrap (s : Con) : Moves W S s { s with cur.needWrap := false } :=
  .of_cleared rfl rfl rfl rfl fun hi => ⟨hi.rows_pos, hi.top_lt, hi.row⟩

/-- Cells are filled, and the wrap is cleared. -/
theorem moves_fill (s : Con) (a n : Nat) (c : Cell) :
    Moves W S s { s.scrMemsetw a c n with cur.needWrap := false } :=
  .of_cleared rfl rfl rfl rfl fun hi => ⟨hi.rows_pos, hi.top_lt, hi.row⟩

theorem moves_insertChar (s : Con) (nr : Nat) : Moves W S s (insertChar s nr) := by
  have hloop : Moves W S s (insertLoop s.cur.pos nr (s.geo.cols - nr - s.cur.x) s) :=
    .of_place (place_insertLoop _ _ _ s)
  have hcells (s' : Con) (a n : Nat) (c : Cell) : Moves W S s' { s'.scrMemsetw a c n with
      cur.needWrap := false } := moves_fill s' a n c
  rw [insertChar]
  refine .ite (fun _ => ?_) fun _ => ?_
  · exact (hloop.trans (hcells _ _ _ _)).trans (.of_place rfl)
  · exact hloop.trans (hcells _ _ _ _)

theorem moves_deleteChar (s : Con) (nr : Nat) : Moves W S s (deleteChar s nr) := by
  have hloop : Moves W S s (deleteLoop nr (s.geo.cols - nr - s.cur.x) s.cur.pos s) :=
    .of_place (place_deleteLoop _ _ _ s)
  have hcells (s' : Con) (a n : Nat) (c : Cell) : Moves W S s' { s'.scrMemsetw a c n with
      cur.needWrap := false } := moves_fill s' a n c
  rw [deleteChar]
  refine .ite (fun _ => ?_) fun _ => ?_
  · exact (hloop.trans (hcells _ _ _ _)).trans (.of_place rfl)
  · exact hloop.trans (hcells _ _ _ _)

theorem place_scrMemmovew (s : Con) (t a n : Nat) : (s.scrMemmovew t a n).place = s.place := rfl

theorem place_scrMemsetw (s : Con) (a : Nat) (c : Cell) (n : Nat) :
    (s.scrMemsetw a c n).place = s.place := rfl

theorem place_scrollRegionUp (s : Con) (t b : Nat) (nr : Int) :
    (scrollRegionUp d s t b nr).place = s.place := by
  rw [scrollRegionUp]
  refine place_ite rfl ?_
  dsimp only
  split
  · rfl
  · rw [place_scrMemsetw, place_scrMemmovew]
    rfl

theorem place_scrollRegionDown (s : Con) (t b : Nat) (nr : Int) :
    (scrollRegionDown d s t b nr).place = s.place := by
  rw [scrollRegionDown]
  refine place_ite rfl ?_
  dsimp only
  split
  · rfl
  · rw [place_scrMemsetw, place_scrMemmovew]
    rfl

theorem moves_insertLine (s : Con) (nr : Nat) : Moves W S s (insertLine d s nr) :=
  (Moves.of_place (place_scrollRegionDown s _ _ _)).trans (moves_needWrap _)

theorem moves_deleteLine (s : Con) (nr : Nat) : Moves W S s (deleteLine d s nr) :=
  (Moves.of_place (place_scrollRegionUp s _ _ _)).trans (moves_needWrap _)

/-- **`gotoxy` brings the cursor inside the margins**, wherever it was. -/
theorem inside_gotoxy (hrows : 0 < s.geo.rows) (htop : s.mar.top < s.mar.bottom) (x y : Int) :
    Inside (gotoxy s x y) where
  rows_pos := hrows
  top_lt := htop
  row hdecom := by
    have hdecom : s.modes.decom = true := hdecom
    have hclamp : (s.mar.top : Int) ≤ clampY s y ∧ clampY s y < s.mar.bottom := by
      rw [clampY, hdecom, if_pos rfl, if_pos rfl]
      split
      · omega
      split
      · omega
      · omega
    show s.mar.top ≤ (clampY s y).toNat ∧ (clampY s y).toNat < s.mar.bottom
    omega

theorem moves_gotoxy (s : Con) (x y : Int) : Moves W S s (gotoxy s x y) :=
  .of_cleared rfl rfl rfl rfl fun hi => inside_gotoxy hi.rows_pos hi.top_lt x y

theorem moves_gotoxay (s : Con) (x y : Int) : Moves W S s (gotoxay s x y) := moves_gotoxy s _ _

theorem place_setPalette (s : Con) : (setPalette s).place = s.place := by
  rw [setPalette]
  split
  · rfl
  · rfl

theorem place_resetPalette (s : Con) : (resetPalette s).place = s.place := place_setPalette _

theorem place_clearRegion (s : Con) (sx sy width height : Nat) :
    (clearRegion s sx sy width height).place = s.place := by
  rw [clearRegion]
  split
  · rfl
  · rfl

theorem place_addSoftcursor (s : Con) : (addSoftcursor s).place = s.place := by
  rw [addSoftcursor]
  split
  · rfl
  split
  · rfl
  dsimp only
  split
  · rfl
  · rfl

theorem place_hideCursor (s : Con) : (hideCursor s).place = s.place := by
  rw [hideCursor, hideSoftcursor]
  split
  · rfl
  dsimp only
  split
  · rfl
  · rfl

theorem place_setCursor (s : Con) : (setCursor s).place = s.place := by
  have hsoft := place_addSoftcursor s
  rw [setCursor]
  split
  · rfl
  split
  · dsimp only
    split
    · exact hsoft
    · exact hsoft
  · exact place_hideCursor s

theorem place_invertScreen (s : Con) (offset count : Nat) :
    (invertScreen d s offset count).place = s.place := by
  rw [invertScreen]
  exact place_ite rfl rfl

theorem place_updateScreen (s : Con) : (updateScreen d s).place = s.place := by
  have hstart : (setOrigin d (hideCursor s)).place = s.place := place_hideCursor s
  have hswitch (mem : Nat → Cell) (can : Bool) : (setPalette { setOrigin d (hideCursor s) with
      mem := mem, rend.canDoColor := can }).place = s.place := (place_setPalette _).trans hstart
  have hattr (s' : Con) (p : Prop) [Decidable p] (h : s'.place = s.place) :
      (if p then clearBufferAttributes (updateAttr d s') else s').place = s.place := place_ite h h
  have hdraw (s' : Con) (p : Prop) [Decidable p] (h : s'.place = s.place) :
      (if p then doUpdateRegion s' s'.geo.origin (s'.geo.screenbufSize / 2) else s').place =
        s.place := place_ite h h
  rw [updateScreen]
  exact (place_setCursor _).trans (hdraw _ _ (hattr _ _ (hswitch _ _)))

theorem place_unblankVt (s : Con) : (unblankVt d s).place = s.place := by
  rw [unblankVt]
  refine place_ite rfl (place_ite rfl (place_ite ?_ rfl))
  exact (place_setCursor _).trans ((place_setPalette _).trans
    (place_ite (place_updateScreen _) rfl))

theorem place_pokeBlankedConsole (s : Con) : (pokeBlankedConsole d s).place = s.place := by
  rw [pokeBlankedConsole]
  exact place_ite rfl (place_ite (place_unblankVt _) (place_ite rfl rfl))

/-! ### Format effectors -/

theorem moves_vteLf (s : Con) : Moves W S s (vteLf d s) := by
  rw [vteLf]
  by_cases hbottom : s.cur.y + 1 = s.mar.bottom
  · rw [if_pos hbottom]
    exact (Moves.of_place (place_scrollRegionUp s _ _ _)).trans (moves_needWrap _)
  rw [if_neg hbottom]
  by_cases hlast : s.cur.y < s.geo.rows - 1
  · rw [if_pos hlast]
    refine .of_cleared rfl rfl rfl rfl fun hi => ⟨hi.rows_pos, hi.top_lt, fun hdecom => ?_⟩
    obtain ⟨htop, hrow⟩ := hi.row hdecom
    show s.mar.top ≤ s.cur.y + 1 ∧ s.cur.y + 1 < s.mar.bottom
    omega
  · rw [if_neg hlast]
    exact moves_needWrap s

theorem moves_vteRi (s : Con) : Moves W S s (vteRi d s) := by
  rw [vteRi]
  by_cases htop : s.cur.y = s.mar.top
  · rw [if_pos htop]
    exact (Moves.of_place (place_scrollRegionDown s _ _ _)).trans (moves_needWrap _)
  rw [if_neg htop]
  by_cases hfirst : 0 < s.cur.y
  · rw [if_pos hfirst]
    refine .of_cleared rfl rfl rfl rfl fun hi => ⟨hi.rows_pos, hi.top_lt, fun hdecom => ?_⟩
    obtain ⟨hrow, hbottom⟩ := hi.row hdecom
    show s.mar.top ≤ s.cur.y - 1 ∧ s.cur.y - 1 < s.mar.bottom
    omega
  · rw [if_neg hfirst]
    exact moves_needWrap s

theorem moves_vteCr (s : Con) : Moves W S s (vteCr s) :=
  .of_cleared rfl rfl rfl rfl fun hi => ⟨hi.rows_pos, hi.top_lt, hi.row⟩

theorem moves_vteBs (s : Con) : Moves W S s (vteBs s) :=
  .ite (fun _ => .of_cleared rfl rfl rfl rfl fun hi => ⟨hi.rows_pos, hi.top_lt, hi.row⟩)
    fun _ => .refl s

theorem moves_vteCvt (s : Con) (vpar : Int) : Moves W S s (vteCvt d s vpar) :=
  .iterate moves_vteLf vpar.toNat s

theorem place_tabLeft (fuel : Nat) : ∀ s : Con,
    (tabLeft fuel s).place = { s.place with x := (tabLeft fuel s).cur.x } := by
  induction fuel with
  | zero => exact fun _ => rfl
  | succ fuel ih =>
    intro s
    rw [tabLeft]
    split
    · dsimp only
      split
      · rfl
      · exact ih _
    · rfl

theorem place_tabRight (fuel : Nat) : ∀ s : Con,
    (tabRight fuel s).place = { s.place with x := (tabRight fuel s).cur.x } := by
  induction fuel with
  | zero => exact fun _ => rfl
  | succ fuel ih =>
    intro s
    rw [tabRight]
    split
    · dsimp only
      split
      · rfl
      · exact ih _
    · rfl

/-- A tabulation towards the left margin from there. -/
theorem tabLeft_margin (fuel : Nat) (hx : s.cur.x = 0) : tabLeft fuel s = s := by
  cases fuel with
  | zero => rfl
  | succ fuel => exact if_neg (by omega)

theorem tabRight_margin (fuel : Nat) (hx : s.cur.x + 1 = s.geo.cols) : tabRight fuel s = s := by
  cases fuel with
  | zero => rfl
  | succ fuel => exact if_neg (by omega)

theorem place_backTab (s : Con) : (backTab s).place = { s.place with x := (backTab s).cur.x } :=
  place_tabLeft s.geo.cols { s with cur.pos := s.cur.pos - 2 * s.cur.x }

theorem backTab_margin (hx : s.cur.x = 0) : (backTab s).cur.x = 0 := by
  have hmargin : tabLeft s.geo.cols { s with cur.pos := s.cur.pos - 2 * s.cur.x } =
      { s with cur.pos := s.cur.pos - 2 * s.cur.x } := tabLeft_margin _ hx
  show (tabLeft s.geo.cols { s with cur.pos := s.cur.pos - 2 * s.cur.x }).cur.x = 0
  rw [hmargin]
  exact hx

/-- **CBT** moves a cursor with a wrap pending, unless it stays at the margin. -/
theorem moves_vteCbt (s : Con) (vpar : Int)
    (hstay : W → s.cur.needWrap = true → vpar ≤ 0 ∨ s.cur.x = 0) : Moves W S s (vteCbt s vpar) := by
  have hplace (n : Nat) : ∀ s : Con,
      (backTab^[n] s).place = { s.place with x := (backTab^[n] s).cur.x } ∧
        (s.cur.x = 0 → (backTab^[n] s).cur.x = 0) := by
    induction n with
    | zero => exact fun s => ⟨rfl, fun hx => hx⟩
    | succ n ih =>
      intro s
      obtain ⟨heq, hmargin⟩ := ih (backTab s)
      refine ⟨heq.trans ?_, fun hx => hmargin (backTab_margin hx)⟩
      rw [place_backTab]
      rfl
  rw [vteCbt]
  refine .of_column (hplace vpar.toNat s).1 fun hw _ hn => ?_
  rcases hstay hw hn with hzero | hx
  · have hnone : vpar.toNat = 0 := by omega
    rw [hnone]
    rfl
  · rw [(hplace vpar.toNat s).2 hx, hx]

theorem moves_forwardTab (s : Con) : Moves W S s (forwardTab s) := by
  refine .of_column (place_tabRight s.geo.cols { s with cur.pos := s.cur.pos - 2 * s.cur.x })
    fun _ hf hn => ?_
  have hmargin : tabRight s.geo.cols { s with cur.pos := s.cur.pos - 2 * s.cur.x } =
      { s with cur.pos := s.cur.pos - 2 * s.cur.x } := tabRight_margin _ (hf hn).1
  show (tabRight s.geo.cols { s with cur.pos := s.cur.pos - 2 * s.cur.x }).cur.x = s.cur.x
  rw [hmargin]

theorem moves_vteCht (s : Con) (vpar : Int) : Moves W S s (vteCht s vpar) :=
  .iterate moves_forwardTab vpar.toNat s

theorem place_vteTbc (s : Con) (vpar : Nat) : (vteTbc s vpar).place = s.place := by
  rw [vteTbc.eq_def]
  split
  all_goals rfl

theorem place_vteCtc (s : Con) : (vteCtc s).place = s.place := by
  rw [vteCtc]
  split
  · rfl
  · rfl
  · rfl
  · rfl

/-! ### Erasure, rendition and reports -/

/-- An erasure clears the wrap. -/
theorem moves_erase (s : Con) (sx sy width height a n : Nat) :
    Moves W S s { (clearRegion s sx sy width height).scrMemsetw a
      (clearRegion s sx sy width height).rend.videoEraseChar n with cur.needWrap := false } :=
  (Moves.of_place (place_clearRegion s sx sy width height)).trans (moves_fill _ a n _)

theorem moves_vteEd (s : Con) (vpar : Nat) : Moves W S s (vteEd s vpar) := by
  rw [vteEd.eq_def]
  split
  case h_1 => exact (Moves.of_place (place_clearRegion s _ _ _ _)).trans (moves_erase _ _ _ _ _ _ _)
  case h_2 => exact (Moves.of_place (place_clearRegion s _ _ _ _)).trans (moves_erase _ _ _ _ _ _ _)
  case h_3 => exact moves_erase s _ _ _ _ _ _
  case h_4 => exact .refl s

theorem moves_vteEl (s : Con) (vpar : Nat) : Moves W S s (vteEl s vpar) := by
  rw [vteEl.eq_def]
  split
  case h_4 => exact .refl s
  all_goals exact moves_erase s _ _ _ _ _ _

theorem moves_vteEch (s : Con) (vpar : Nat) : Moves W S s (vteEch s vpar) := by
  have hfill (n : Nat) : Moves W S s (clearRegion (s.scrMemsetw s.cur.pos s.rend.videoEraseChar n)
      s.cur.x s.cur.y n 1) := .of_place (place_clearRegion _ _ _ _ _)
  rw [vteEch]
  exact (hfill _).trans (moves_needWrap _)

theorem place_sgrPar (s : Con) (p : Nat) : (sgrPar s p).place = s.place := by
  rw [sgrPar.eq_def]
  split
  case h_19 => exact place_ite rfl (place_ite rfl rfl)
  all_goals rfl

theorem place_foldl {f : Con → Nat → Con} (hf : ∀ s i, (f s i).place = s.place) (is : List Nat) :
    ∀ s, (is.foldl f s).place = s.place := by
  induction is with
  | nil => exact fun _ => rfl
  | cons i is ih => exact fun s => (ih (f s i)).trans (hf s i)

theorem place_vteSgr (s : Con) : (vteSgr d s).place = s.place :=
  place_foldl (fun s i => place_sgrPar (s.check (i < NPAR) (.vcPar i)) (s.ps.par i)) _ s

theorem place_settermCommand (s : Con) : (settermCommand d s).place = s.place := by
  rw [settermCommand]
  split
  case h_1 => exact place_ite (place_ite rfl rfl) rfl
  case h_2 => exact place_ite (place_ite rfl rfl) rfl
  case h_4 => exact place_pokeBlankedConsole _
  case h_8 => exact place_pokeBlankedConsole s
  all_goals rfl

theorem place_vteDecscl (s : Con) : (vteDecscl s).place = s.place := by
  rw [vteDecscl]
  split
  case h_5 => rfl
  all_goals exact place_ite rfl rfl

theorem place_vteCpr (s : Con) (ext : Bool) : (vteCpr s ext).place = s.place := place_ite rfl rfl

theorem place_decDsr (s : Con) : (decDsr s).place = s.place := by
  rw [decDsr]
  split
  case h_1 => exact place_vteCpr s true
  all_goals rfl

theorem place_vteDecrqm (s : Con) (priv : Bool) : (vteDecrqm s priv).place = s.place := by
  rw [vteDecrqm]
  exact place_ite rfl rfl

theorem place_ansiDsr (s : Con) : (ansiDsr s).place = s.place := by
  rw [ansiDsr]
  split
  · rfl
  · exact place_vteCpr s false
  · rfl

theorem moves_vteDecrc (s : Con) : Moves W S s (vteDecrc d s) :=
  .of_cleared rfl rfl rfl rfl fun hi =>
    ⟨hi.rows_pos, hi.top_lt, (inside_gotoxy hi.rows_pos hi.top_lt _ _).row⟩

/-- DECSC touches what is saved, and nothing else. -/
theorem moves_vteDecsc (hS : ¬S) (s : Con) : Moves W S s (vteDecsc s) where
  cols := rfl
  rows := rfl
  inside hi := ⟨hi.rows_pos, hi.top_lt, hi.row⟩
  wrap _ _ hn := ⟨hn, rfl, rfl, fun ha => ha⟩
  saved hs := absurd hs hS

/-- RIS takes the margins away. -/
theorem inside_vteRis (hrows : 0 < s.geo.rows) (doClear : Bool) : Inside (vteRis d s doClear) := by
  rw [vteRis]
  split
  · exact (moves_vteEd (W := True) (S := True) _ 2).inside ⟨hrows, hrows, fun hd => by contradiction⟩
  · exact ⟨hrows, hrows, fun hd => by contradiction⟩

/-- RIS saves the cursor at home. -/
theorem moves_vteRis (hS : ¬S) (s : Con) (doClear : Bool) : Moves W S s (vteRis d s doClear) := by
  rw [vteRis]
  refine .ite (fun _ => Moves.trans ?_ (moves_vteEd _ 2)) fun _ => ?_
  · exact ⟨rfl, rfl, fun hi => ⟨hi.rows_pos, hi.rows_pos, fun hd => by contradiction⟩,
      fun _ _ hn => by contradiction, fun hs => absurd hs hS⟩
  · exact ⟨rfl, rfl, fun hi => ⟨hi.rows_pos, hi.rows_pos, fun hd => by contradiction⟩,
      fun _ _ hn => by contradiction, fun hs => absurd hs hS⟩

/-! ### Modes -/

/-- One of the modes leaves the place of the cursor, but 6 and 7. -/
theorem setPrivMode_place {on : Bool} {p : Nat} (h6 : p ≠ 6) (h7 : p ≠ 7) (s : Con) :
    (setPrivMode d on s p).place = s.place := by
  rw [setPrivMode.eq_def]
  split
  case h_2 => exact place_ite (place_invertScreen _ _ _) rfl
  case h_3 => contradiction
  case h_4 => contradiction
  all_goals rfl

/-- What setting or resetting the modes `modes` does with the cursor: origin mode places it. -/
structure SetsModes (on : Bool) (modes : List Nat) (s s' : Con) : Prop where
  ps : s'.ps = s.ps
  cols : s'.geo.cols = s.geo.cols
  rows : s'.geo.rows = s.geo.rows
  inside : Inside s → Inside s'
  saved : s'.saved = s.saved
  wrap : s'.cur.needWrap = true → s.cur.needWrap = true ∧ s'.cur.x = s.cur.x ∧
    s'.cur.y = s.cur.y ∧ 6 ∉ modes ∧
    (s.modes.decawm = true → (7 ∈ modes → on = true) → s'.modes.decawm = true)

theorem SetsModes.refl (on : Bool) (s : Con) : SetsModes on [] s s :=
  ⟨rfl, rfl, rfl, fun hi => hi, rfl, fun hn => ⟨hn, rfl, rfl, List.not_mem_nil, fun ha _ => ha⟩⟩

theorem SetsModes.trans {on : Bool} {modes modes' : List Nat} (h : SetsModes on modes s s')
    (h' : SetsModes on modes' s' s'') : SetsModes on (modes ++ modes') s s'' where
  ps := h'.ps.trans h.ps
  cols := h'.cols.trans h.cols
  rows := h'.rows.trans h.rows
  inside hi := h'.inside (h.inside hi)
  saved := h'.saved.trans h.saved
  wrap hn := by
    obtain ⟨hn', hx', hy', h6', hawm'⟩ := h'.wrap hn
    obtain ⟨hn, hx, hy, h6, hawm⟩ := h.wrap hn'
    refine ⟨hn, hx'.trans hx, hy'.trans hy, ?_, fun ha h7 => ?_⟩
    · rw [List.mem_append]
      exact fun h => h.elim h6 h6'
    · exact hawm' (hawm ha fun hm => h7 (List.mem_append_left _ hm))
        fun hm => h7 (List.mem_append_right _ hm)

theorem setsModes_setPrivMode (on : Bool) (s : Con) (p : Nat) :
    SetsModes on [p] s (setPrivMode d on s p) := by
  have hps : (setPrivMode d on s p).ps = s.ps := by
    rw [setPrivMode.eq_def]
    split
    case h_2 =>
      split
      · exact invertScreen_ps _ _ _
      · rfl
    all_goals rfl
  by_cases h6 : p = 6
  · rw [h6]
    exact ⟨rfl, rfl, rfl, fun hi => inside_gotoxy (s := { s with modes.decom := on }) hi.rows_pos
      hi.top_lt _ _, rfl, fun hn => by contradiction⟩
  have hno6 : 6 ∉ [p] := by
    rw [List.mem_singleton]
    exact fun h => h6 h.symm
  by_cases h7 : p = 7
  · rw [h7]
    exact ⟨rfl, rfl, rfl, fun hi => ⟨hi.rows_pos, hi.top_lt, hi.row⟩, rfl,
      fun hn => ⟨hn, rfl, rfl, by decide, fun _ h7 => h7 List.mem_cons_self⟩⟩
  · have hplace : (setPrivMode d on s p).place = s.place := setPrivMode_place h6 h7 s
    have hmoves : Moves True True s (setPrivMode d on s p) := .of_place hplace
    have hawm : (setPrivMode d on s p).modes.decawm = s.modes.decawm := congrArg Place.awm hplace
    refine ⟨hps, hmoves.cols, hmoves.rows, hmoves.inside, hmoves.saved trivial, fun hn => ?_⟩
    rw [show (setPrivMode d on s p).cur.needWrap = s.cur.needWrap from congrArg Place.wrap hplace]
      at hn
    exact ⟨hn, congrArg Place.x hplace, congrArg Place.y hplace, hno6, fun ha _ => hawm.trans ha⟩

/-- The loop of `set_mode`. -/
theorem setsModes_foldl (on : Bool) (is : List Nat) : ∀ s : Con, SetsModes on (is.map s.ps.par) s
    (is.foldl (fun s i => setPrivMode d on (s.check (i < NPAR) (.vcPar i)) (s.ps.par i)) s) := by
  induction is with
  | nil => exact fun s => .refl on s
  | cons i is ih =>
    intro s
    have hcheck : SetsModes on [] s (s.check (i < NPAR) (.vcPar i)) :=
      ⟨rfl, rfl, rfl, fun hi => ⟨hi.rows_pos, hi.top_lt, hi.row⟩, rfl,
        fun hn => ⟨hn, rfl, rfl, List.not_mem_nil, fun ha _ => ha⟩⟩
    have hstep := hcheck.trans (setsModes_setPrivMode (d := d) on (s.check (i < NPAR) (.vcPar i))
      (s.ps.par i))
    have hrest := ih (setPrivMode d on (s.check (i < NPAR) (.vcPar i)) (s.ps.par i))
    rw [hstep.ps] at hrest
    exact hstep.trans hrest

/-- A reset of autowrap, with no origin mode beside it. -/
def Parser.resetsAwm (p : Parser) : Bool :=
  ((List.range (p.npar + 1)).map p.par).contains 7 &&
    !((List.range (p.npar + 1)).map p.par).contains 6

theorem moves_setMode (on : Bool) (s : Con)
    (hw : W → s.cur.needWrap = true → s.ps.priv4 = true → s.ps.resetsAwm = true → on = true) :
    Moves W S s (setMode d s on) := by
  cases hp : s.ps.priv4 with
  | false =>
    have hansi : setMode d s on = forPars (setAnsiMode on) s := by
      rw [setMode, hp]
      rfl
    have hplace (s : Con) (p : Nat) : (setAnsiMode on s p).place = s.place := by
      rw [setAnsiMode.eq_def]
      split
      all_goals rfl
    rw [hansi]
    exact .of_place (place_foldl (fun s i => hplace (s.check (i < NPAR) (.vcPar i)) (s.ps.par i)) _ s)
  | true =>
    have hpriv : setMode d s on = forPars (setPrivMode d on) s := by
      rw [setMode, hp]
      rfl
    obtain ⟨-, hcols, hrows, hinside, hsaved, hwrap⟩ :=
      setsModes_foldl (d := d) on (List.range (s.ps.npar + 1)) s
    rw [hpriv, forPars]
    refine ⟨hcols, hrows, hinside, fun hW hf hn => ?_, fun _ => hsaved⟩
    obtain ⟨hn, hx, hy, h6, hawm⟩ := hwrap hn
    refine ⟨hn, hx, hy, fun ha => hawm ha fun h7 => hw hW hn hp ?_⟩
    rw [Parser.resetsAwm, Bool.and_eq_true, Bool.not_eq_true', List.contains_iff_mem]
    exact ⟨h7, by simpa using h6⟩

/-! ### Bytes of the emulator -/

theorem place_setPar (s : Con) (i v : Nat) : (s.setPar i v).place = s.place := rfl

theorem place_atLeastOne (s : Con) : s.atLeastOne.place = s.place := place_ite rfl rfl

theorem place_fromZero (s : Con) (i : Nat) : (s.fromZero i).place = s.place := place_ite rfl rfl

theorem moves_some (h : Moves W S s s') : ∀ s'' ∈ some s', Moves W S s s'' := by
  intro s'' hs
  rwa [← Option.mem_some.mp hs]

theorem moves_none : ∀ s' ∈ (none : Option Con), Moves W S s s' := by simp

theorem moves_c0Control (s : Con) (c : Nat) : ∀ s' ∈ c0Control d s c, Moves W S s s' := by
  have hlf : Moves W S s (vteLf d s) := moves_vteLf s
  have hnl : Moves W S s (if getKbdMode (vteLf d s) vcCrlf then vteCr (vteLf d s) else vteLf d s) :=
    .ite (fun _ => hlf.trans (moves_vteCr _)) fun _ => hlf
  rw [c0Control.eq_def]
  split
  case h_2 => exact moves_some (.of_place (place_ite rfl rfl))
  case h_3 => exact moves_some (moves_vteBs s)
  case h_4 => exact moves_some (moves_forwardTab s)
  case h_5 | h_6 | h_7 => exact moves_some hnl
  case h_8 => exact moves_some (moves_vteCr s)
  case h_14 =>
    split
    · exact moves_some (.refl s)
    · exact moves_none
  all_goals exact moves_some (.of_place rfl)

theorem moves_c1Control (s : Con) (c : Nat) : ∀ s' ∈ c1Control d s c, Moves W S s s' := by
  rw [c1Control.eq_def]
  split
  · exact moves_some (moves_vteLf s)
  · exact moves_some ((moves_vteLf s).trans (moves_vteCr _))
  · exact moves_some (.of_place rfl)
  · exact moves_some (moves_vteRi s)
  · exact moves_none
  · exact moves_none
  · exact moves_some (.of_place rfl)
  · exact moves_some (.of_place rfl)
  · split
    · exact moves_some (.refl s)
    · exact moves_none

/-- Every byte after ESC: DECSC and RIS save the cursor. -/
theorem moves_escState (s : Con) (c : Nat) (hS : S → c ≠ 0x37 ∧ c ≠ 0x63) :
    Moves W S s (escState d s c) := by
  have hi : Moves W S s (s.setState .init) := .of_place rfl
  rw [escState.eq_def]
  dsimp only
  split
  case h_6 => exact hi.trans (moves_vteDecsc (fun hs => (hS hs).1 rfl) _)
  case h_7 => exact hi.trans (moves_vteDecrc _)
  case h_10 | h_11 | h_12 | h_13 | h_14 => exact hi.trans (moves_vteLf _)
  case h_15 => exact hi.trans ((moves_vteCr _).trans (moves_vteLf _))
  case h_17 => exact hi.trans (moves_vteRi _)
  case h_25 => exact hi.trans (moves_vteRis (fun hs => (hS hs).2 rfl) _ true)
  all_goals exact .of_place rfl

theorem place_acsState (s : Con) (c : Nat) : (acsState s c).place = s.place := by
  rw [acsState.eq_def]
  dsimp only
  split
  · exact place_ite rfl rfl
  · exact place_ite rfl rfl
  · rfl

theorem place_oscState (s : Con) (c : Nat) : (oscState s c).place = s.place := by
  rw [oscState.eq_def]
  dsimp only
  split
  · rfl
  · exact place_resetPalette _
  · rfl

theorem place_paletteState (s : Con) (c : Nat) : (paletteState s c).place = s.place := by
  have hbytes (s : Con) (i hi lo : Nat) : (s.setPaletteByte i hi lo).place = s.place := rfl
  rw [paletteState]
  split
  · next v _ =>
    have hpar : ({ s.setPar s.ps.npar v with
        ps.npar := (s.setPar s.ps.npar v).ps.npar + 1 } : Con).place = s.place := rfl
    refine place_ite ?_ hpar
    refine Eq.trans (place_setPalette _) ?_
    exact (hbytes _ _ _ _).trans ((hbytes _ _ _ _).trans ((hbytes _ _ _ _).trans hpar))
  · rfl

theorem moves_rend (s : Con) (r : Rendition) : Moves W S s { s with rend := r } := .of_place rfl

theorem moves_setState (s : Con) (e : EsState) : Moves W S s (s.setState e) := .of_place rfl

theorem moves_scfState (s : Con) (c : Nat) : Moves W S s (scfState s c) := by
  have hi := moves_setState (W := W) (S := S) s .init
  have hregion (s : Con) (a n : Nat) : Moves W S s (doUpdateRegion s a n) := .of_place rfl
  rw [scfState]
  refine .ite (fun _ => ?_) fun _ => hi
  exact ((hi.trans (moves_rend _ _)).trans (moves_vteEd _ 2)).trans
    ((moves_rend _ _).trans (hregion _ _ _))

theorem place_docsState (s : Con) (c : Nat) : (docsState s c).place = s.place := by
  rw [docsState.eq_def]
  dsimp only
  split
  all_goals rfl

theorem place_designateState (get : Charsets → CharMap) (put : Charsets → CharMap → Charsets)
    (active : Bool) (s : Con) (c : Nat) : (designateState get put active s c).place = s.place := by
  rw [designateState]
  exact place_ite (c := _ = true) rfl rfl

/-! ### Control sequences -/

theorem moves_ps (s : Con) (ps : Parser) : Moves W S s { s with ps := ps } := .of_place rfl

theorem moves_csiPrivate (s : Con) (c : Nat)
    (hw : W → s.cur.needWrap = true → c = 0x6c → s.ps.priv4 = true → s.ps.resetsAwm = false) :
    ∀ s' ∈ csiPrivate d s c, Moves W S s s' := by
  have hda (p : Con → Con) (hp : ∀ s, (p s).place = s.place) :
      Moves W S s (if s.ps.par 0 = 0 then p s else s) := .of_place (place_ite (hp s) rfl)
  rw [csiPrivate.eq_def]
  split
  case h_1 =>
    split
    · exact moves_some (moves_setState s _)
    · exact moves_none
  case h_2 | h_3 =>
    split
    · exact moves_some (.refl s)
    · exact moves_none
  case h_4 => exact moves_some (moves_setMode true s fun _ _ _ _ => rfl)
  case h_5 =>
    refine moves_some (moves_setMode false s fun hW hn hp hreset => ?_)
    rw [hw hW hn rfl hp] at hreset
    exact hreset
  case h_6 =>
    split
    · exact moves_some ((hda vteDecDa3 fun _ => rfl).trans (moves_ps _ _))
    split
    · exact moves_some ((hda vteDecDa2 fun _ => rfl).trans (moves_ps _ _))
    split
    · exact moves_some (.of_place rfl)
    · exact moves_none
  case h_7 =>
    split
    · exact moves_some (.of_place rfl)
    · exact moves_none
  case h_8 =>
    have hdsr : Moves W S s (if s.ps.priv4 = true then decDsr s else ansiDsr s) :=
      .of_place (place_ite (place_decDsr s) (place_ansiDsr s))
    exact moves_some (hdsr.trans (moves_ps _ _))
  case h_9 => exact moves_none

/-- DECSTBM puts the cursor at home in margins that are not empty. -/
theorem moves_vteDecstbm (s : Con) : Moves W S s (vteDecstbm s) := by
  have h1 : Moves W S s s.atLeastOne := .of_place (place_atLeastOne s)
  have h2 (n : Nat) : Moves W S s
      (if s.atLeastOne.ps.par 1 = 0 then s.atLeastOne.setPar 1 n else s.atLeastOne) :=
    h1.trans (.of_place (place_ite (place_setPar _ _ _) rfl))
  have hmar (s' : Con) (t b : Nat) (htb : t < b) :
      Moves W S s' (gotoxay { s' with mar := ⟨t, b⟩ } 0 0) :=
    .of_cleared rfl rfl rfl rfl
      fun hi => inside_gotoxy (s := { s' with mar := ⟨t, b⟩ }) hi.rows_pos htb _ _
  rw [vteDecstbm]
  refine .ite (fun h => (h2 _).trans (hmar _ _ _ ?_)) fun _ => h2 _
  omega

theorem moves_csiFinal (s : Con) (c : Nat) (hw : W → s.cur.needWrap = true → c = 0x5a →
    s32 (s.ps.par 0) ≤ 0 ∨ s.cur.x = 0) : Moves W S s (csiFinal d s c) := by
  have h1 : Moves W S s s.atLeastOne := .of_place (place_atLeastOne s)
  have h0 : Moves W S s (s.fromZero 0) := .of_place (place_fromZero s 0)
  have h01 : Moves W S s ((s.fromZero 0).fromZero 1) := h0.trans (.of_place (place_fromZero _ 1))
  rw [csiFinal.eq_def]
  dsimp only
  split
  case h_8 => exact moves_insertChar s _
  case h_9 | h_10 | h_11 | h_12 | h_13 | h_14 | h_15 | h_16 | h_17 | h_18 =>
    exact h1.trans (moves_gotoxy _ _ _)
  case h_19 | h_20 => exact h0.trans (moves_gotoxy _ _ _)
  case h_21 | h_22 => exact h01.trans (moves_gotoxay _ _ _)
  case h_23 => exact h1.trans (moves_vteCht _ _)
  case h_24 => exact moves_vteEd s _
  case h_25 => exact moves_vteEl s _
  case h_26 => exact moves_insertLine s _
  case h_27 => exact moves_deleteLine s _
  case h_28 => exact moves_deleteChar s _
  case h_29 => exact .of_place (place_vteCtc s)
  case h_30 => exact moves_vteEch s _
  case h_31 => exact h1.trans (moves_vteCvt _ _)
  case h_32 => exact moves_vteCbt s _ fun hW hn => hw hW hn rfl
  case h_33 => exact .of_place (place_settermCommand s)
  case h_34 => exact .of_place (place_ite rfl rfl)
  case h_35 => exact h0.trans (moves_gotoxay _ _ _)
  case h_36 => exact .of_place (place_vteTbc s _)
  case h_37 => exact .of_place (place_vteSgr s)
  case h_38 => exact .of_place (place_ite rfl rfl)
  case h_39 => exact moves_vteDecstbm s
  all_goals exact .of_place rfl

/-! ### A byte of the emulator -/

/-- The last byte of a control sequence is that of CBT, which moves the cursor, or of a DECRST that
resets autowrap and not origin mode. -/
def Con.strandsFinal (s : Con) (c : Nat) : Bool :=
  (c == 0x5a && !(s.ps.priv1 || s.ps.priv2 || s.ps.priv3 || s.ps.priv4)
      && decide (0 < s32 (s.ps.par 0)) && decide (0 < s.cur.x)) ||
    (c == 0x6c && s.ps.priv4 && s.ps.resetsAwm)

/-- **The bytes that leave a wrap pending** where there is none to make. -/
def Con.strands (s : Con) (c : Nat) : Bool :=
  s.cur.needWrap && s.ps.state.takesFinal && s.strandsFinal c

/-- **The bytes that save the cursor**: DECSC, RIS and DECSTR. -/
def Con.saves (s : Con) (c : Nat) : Bool :=
  (s.ps.state == .esc && (c == 0x37 || c == 0x63)) || (s.ps.state == .csiExclam && c == 0x70)

theorem moves_csiGotpars (s : Con) (c : Nat)
    (hw : W → s.cur.needWrap = true → s.strandsFinal c = false) :
    Moves W S s (csiGotpars d s c) := by
  have hi := moves_setState (W := W) (S := S) s .init
  rw [csiGotpars]
  split
  case h_1 s' he =>
    refine hi.trans (moves_csiPrivate _ c (fun hW hn hc hp => ?_) s' he)
    have hs := hw hW hn
    simp only [Con.strandsFinal, hc, show s.ps.priv4 = true from hp] at hs
    show s.ps.resetsAwm = false
    simpa using hs
  case h_2 =>
    by_cases hq : (s.ps.priv1 || s.ps.priv2 || s.ps.priv3 || s.ps.priv4) = true
    · exact .ite (fun _ => hi.trans (moves_ps _ _)) fun hn => absurd hq hn
    refine .ite (fun hn => absurd hn hq) fun _ => hi.trans (moves_csiFinal _ c fun hW hn hc => ?_)
    have hs := hw hW hn
    rw [Bool.not_eq_true] at hq
    simp only [Con.strandsFinal, hc, hq] at hs
    show s32 (s.ps.par 0) ≤ 0 ∨ s.cur.x = 0
    by_cases hpos : 0 < s32 (s.ps.par 0)
    · right
      simpa [hpos] using hs
    · left
      omega

theorem moves_csiGetpars (s : Con) (c : Nat)
    (hw : W → s.cur.needWrap = true → s.strandsFinal c = false) :
    Moves W S s (csiGetpars d s c) := by
  rw [csiGetpars]
  refine .ite (fun _ => moves_ps s _) fun _ => .ite (fun _ => .of_place (place_setPar s _ _))
    fun _ => ?_
  exact (moves_setState s _).trans (moves_csiGotpars (s.setState .csiGotpars) c hw)

/-- The byte after CSI ends a sequence without parameters. -/
theorem moves_csiState (s : Con) (c : Nat) : Moves W S s (csiState d s c) := by
  have hstart : Moves W S s (afterCsi s c) := moves_ps s _
  rw [csiState]
  refine .ite (fun _ => moves_ps s _) fun _ => ?_
  refine .ite (fun _ => moves_ps s _) fun _ => ?_
  by_cases hp : c = 0x3f
  · exact .ite (fun _ => hstart) fun hn => absurd (by simp [hp]) hn
  refine .ite (fun _ => hstart) fun _ => hstart.trans (moves_csiGetpars (afterCsi s c) c fun _ _ => ?_)
  have h4 : (afterCsi s c).ps.priv4 = false := beq_eq_false_iff_ne.mpr hp
  have h0 : s32 ((afterCsi s c).ps.par 0) = 0 := by
    rw [show (afterCsi s c).ps.par 0 = 0 from rfl]
    decide
  rw [Con.strandsFinal, h4, h0]
  simp

theorem moves_emulateState (s : Con) (c : Nat) :
    Moves (s.strands c = false) (s.saves c = false) s (emulateState d s c) := by
  have hi := moves_setState (W := s.strands c = false) (S := s.saves c = false) s .init
  have hfinal (hs : s.ps.state.takesFinal = true) (hw : s.strands c = false)
      (hn : s.cur.needWrap = true) : s.strandsFinal c = false := by
    rw [Con.strands, hn, hs] at hw
    exact hw
  rw [emulateState.eq_def]
  split
  case h_1 hs =>
    refine moves_escState s c fun hsave => ?_
    simpa [Con.saves, hs] using hsave
  case h_2 => exact .of_place (place_acsState s c)
  case h_3 => exact .of_place (place_oscState s c)
  case h_4 => exact .of_place (place_paletteState s c)
  case h_5 => exact moves_csiState s c
  case h_6 hs => exact moves_csiGetpars s c (hfinal (by rw [hs]; rfl))
  case h_7 hs => exact moves_csiGotpars s c (hfinal (by rw [hs]; rfl))
  case h_8 hs =>
    refine .ite (fun hc => hi.trans (moves_vteRis (fun hsave => ?_) _ true)) fun _ => hi
    simp [Con.saves, hs, hc] at hsave
  case h_9 => exact .ite (fun _ => hi.trans (.of_place (place_vteDecscl _))) fun _ => hi
  case h_10 => exact .ite (fun _ => hi.trans (.of_place (place_vteDecrqm _ _))) fun _ => hi
  case h_11 => exact .of_place (place_docsState s c)
  case h_12 => exact moves_scfState s c
  case h_13 | h_14 | h_15 | h_16 => exact .of_place (place_designateState _ _ _ s c)
  all_goals exact hi

/-- **A character handed to the emulator** moves the cursor inside the margins, and keeps a pending
wrap where it belongs unless it `strands` it. -/
theorem moves_terminalEmulation (s : Con) (c : Nat) :
    Moves (s.strands c = false) (s.saves c = false) s (terminalEmulation d s c) := by
  rw [terminalEmulation]
  split
  case h_1 s' he => exact moves_c0Control s c s' he
  split
  case h_1 s' he =>
    split at he
    · exact moves_c1Control s c s' he
    · contradiction
  case h_2 => exact moves_emulateState s c

end LinuxConsole

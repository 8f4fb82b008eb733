import LinuxConsole.Vc.Geometry

/-!
# What a control function leaves alone

`Frame s s'` is what almost every function of the emulator guarantees: the size of the screen
and its place in front or behind stay, the modes that can be reported stay, and a console that
is not in front makes itself felt nowhere outside its own screen: it calls no drawing hook,
does not unblank the display or clear the selection, and **writes no memory outside
`[vc_origin, vc_scr_end)` unless a fault says so**.

The functions that set modes, the screen alignment test, the unblanking commands and the one
that clears the selection keep only a part of it; each says which.
-/

namespace LinuxConsole

variable {d : Driver} {s s' s'' : Con}

/-- The modes of `vte_decrqm` that the emulator sets somewhere. -/
inductive ModeName
  | decckm | decscnm | decom | decawm | decarm | dectcem | decnkm | irm | lnm
  deriving DecidableEq

/-- The flag that is reported for the mode. -/
def Modes.flag (m : Modes) : ModeName → Bool
  | .decckm => m.decckm
  | .decscnm => m.decscnm
  | .decom => m.decom
  | .decawm => m.decawm
  | .decarm => m.decarm
  | .dectcem => m.dectcem
  | .decnkm => m.decnkm
  | .irm => m.irm
  | .lnm => m.lnm

/-- The sizes of the screen. -/
def Geom.size (g : Geom) : Nat × Nat × Nat × Nat := (g.cols, g.rows, g.sizeRow, g.screenbufSize)

/-- An address on the screen. -/
def Con.Owns (s : Con) (a : Nat) : Prop := s.geo.origin ≤ a ∧ a < s.geo.scrEnd

/-- **Memory outside the screen** is written only with a fault. -/
def Contained (s s' : Con) : Prop :=
  ∃ fs, s'.faults = fs ++ s.faults ∧
    (cellFaults fs = [] → ∀ a, ¬s.Owns a → s'.mem a = s.mem a)

/-- What a console that is not in front does not touch. -/
structure Unseen (s s' : Con) : Prop where
  geo : s'.geo = s.geo
  draws : s'.draws = s.draws
  blanked : s'.vt.blanked = s.vt.blanked
  selection : s'.requests.count .clearSelection = s.requests.count .clearSelection
  mem : Contained s s'

/-- What every function but those that set modes keeps. -/
structure Keeps (s s' : Con) : Prop where
  size : s'.geo.size = s.geo.size
  visible : s'.vt.visible = s.vt.visible
  flags : s'.modes.flag = s.modes.flag

/-- **The frame of a control function.** -/
structure Frame (s s' : Con) : Prop extends Keeps s s' where
  hidden : s.vt.visible = false → Unseen s s'

/-- The frame of a function that sets modes. -/
structure Quiet (s s' : Con) : Prop where
  size : s'.geo.size = s.geo.size
  visible : s'.vt.visible = s.vt.visible
  hidden : s.vt.visible = false → Unseen s s'

/-- What every function keeps. -/
structure Steady (s s' : Con) : Prop where
  size : s'.geo.size = s.geo.size
  visible : s'.vt.visible = s.vt.visible

/-! ### Composition -/

theorem Contained.refl (s : Con) : Contained s s := ⟨[], rfl, fun _ _ _ => rfl⟩

theorem Contained.trans (h : Contained s s') (hgeo : s'.geo = s.geo) (h' : Contained s' s'') :
    Contained s s'' := by
  obtain ⟨fs, hfs, hmem⟩ := h
  obtain ⟨fs', hfs', hmem'⟩ := h'
  refine ⟨fs' ++ fs, by rw [hfs', hfs, List.append_assoc], fun hnone a ha => ?_⟩
  rw [cellFaults, List.filter_append, List.append_eq_nil_iff] at hnone
  have hown : ¬s'.Owns a := by rwa [Con.Owns, hgeo]
  rw [hmem' hnone.1 a hown, hmem hnone.2 a ha]

theorem Unseen.refl (s : Con) : Unseen s s := ⟨rfl, rfl, rfl, rfl, .refl s⟩

theorem Unseen.trans (h : Unseen s s') (h' : Unseen s' s'') : Unseen s s'' where
  geo := h'.geo.trans h.geo
  draws := h'.draws.trans h.draws
  blanked := h'.blanked.trans h.blanked
  selection := h'.selection.trans h.selection
  mem := h.mem.trans h.geo h'.mem

theorem Keeps.refl (s : Con) : Keeps s s := ⟨rfl, rfl, rfl⟩

theorem Keeps.trans (h : Keeps s s') (h' : Keeps s' s'') : Keeps s s'' where
  size := h'.size.trans h.size
  visible := h'.visible.trans h.visible
  flags := h'.flags.trans h.flags

theorem Keeps.ite {p : Prop} [Decidable p] {a b : Con} (ha : p → Keeps s a)
    (hb : ¬p → Keeps s b) : Keeps s (if p then a else b) := by
  split
  case isTrue h => exact ha h
  case isFalse h => exact hb h

theorem Frame.refl (s : Con) : Frame s s := ⟨.refl s, fun _ => .refl s⟩

theorem Frame.trans (h : Frame s s') (h' : Frame s' s'') : Frame s s'' where
  toKeeps := h.toKeeps.trans h'.toKeeps
  hidden hv := (h.hidden hv).trans (h'.hidden (h.visible.trans hv))

/-- A step that touches none of the fields concerned. -/
theorem Frame.of_eq (hgeo : s'.geo = s.geo) (hvt : s'.vt = s.vt)
    (hflags : s'.modes.flag = s.modes.flag) (hdraws : s'.draws = s.draws)
    (hrequests : s'.requests = s.requests) (hmem : s'.mem = s.mem)
    (hfaults : s'.faults = s.faults) : Frame s s' where
  size := by rw [hgeo]
  visible := by rw [hvt]
  flags := hflags
  hidden _ := ⟨hgeo, hdraws, by rw [hvt], by rw [hrequests],
    [], hfaults, fun _ _ _ => by rw [hmem]⟩

/-- Fields of the display that a console behind another may change unnoticed. -/
theorem frame_display {vt : Display} (hv : vt.visible = s.vt.visible)
    (hb : vt.blanked = s.vt.blanked) : Frame s { s with vt := vt } :=
  ⟨⟨rfl, hv, rfl⟩, fun _ => ⟨rfl, rfl, hb, rfl, .refl s⟩⟩

theorem Frame.ite {p : Prop} [Decidable p] {a b : Con} (ha : p → Frame s a)
    (hb : ¬p → Frame s b) : Frame s (if p then a else b) := by
  split
  case isTrue h => exact ha h
  case isFalse h => exact hb h

theorem Keeps.steady (h : Keeps s s') : Steady s s' := ⟨h.size, h.visible⟩

theorem Quiet.steady (h : Quiet s s') : Steady s s' := ⟨h.size, h.visible⟩

theorem Steady.trans (h : Steady s s') (h' : Steady s' s'') : Steady s s'' :=
  ⟨h'.size.trans h.size, h'.visible.trans h.visible⟩

theorem Frame.quiet (h : Frame s s') : Quiet s s' := ⟨h.size, h.visible, h.hidden⟩

theorem Quiet.trans (h : Quiet s s') (h' : Quiet s' s'') : Quiet s s'' where
  size := h'.size.trans h.size
  visible := h'.visible.trans h.visible
  hidden hv := (h.hidden hv).trans (h'.hidden (h.visible.trans hv))

theorem Quiet.ite {p : Prop} [Decidable p] {a b : Con} (ha : p → Quiet s a)
    (hb : ¬p → Quiet s b) : Quiet s (if p then a else b) := by
  split
  case isTrue h => exact ha h
  case isFalse h => exact hb h

/-- A loop. -/
theorem Frame.iterate {f : Con → Con} (hf : ∀ s, Frame s (f s)) (n : Nat) :
    ∀ s, Frame s (f^[n] s) := by
  induction n with
  | zero => exact Frame.refl
  | succ n ih => exact fun s => (hf s).trans (ih (f s))

/-! ### Accesses -/

theorem frame_check (s : Con) (ok : Bool) (f : Fault) : Frame s (s.check ok f) where
  size := rfl
  visible := rfl
  flags := rfl
  hidden _ := by
    refine ⟨rfl, rfl, rfl, rfl, if ok then [] else [f], ?_, fun _ _ _ => rfl⟩
    cases ok <;> rfl

theorem frame_draw (hv : s.vt.visible = true) (ds : List Draw) : Frame s (s.draw ds) where
  size := rfl
  visible := rfl
  flags := rfl
  hidden hn := by rw [hv] at hn; contradiction

theorem frame_request {r : Request} (hr : r ≠ .clearSelection) (s : Con) :
    Frame s (s.request r) where
  size := rfl
  visible := rfl
  flags := rfl
  hidden _ := by
    refine ⟨rfl, rfl, rfl, ?_, [], rfl, fun _ _ _ => rfl⟩
    rw [Con.request, List.count_append, List.count_singleton]
    simp [hr]

theorem frame_putsQueue (s : Con) (cp : List Nat) : Frame s (s.putsQueue cp) :=
  .of_eq rfl rfl rfl rfl rfl rfl rfl

/-- A write that is checked changes memory on the screen only. -/
theorem Contained.write {mem : Nat → Cell} {a n : Nat}
    (hmem : ∀ b, mem b ≠ s.mem b → a ≤ b ∧ b < a + 2 * n) :
    Contained s { s.check (s.inScreen a n) (.cell a n) with mem := mem } := by
  cases hok : s.inScreen a n with
  | true =>
    refine ⟨[], rfl, fun _ b hb => ?_⟩
    by_contra hne
    have hrange := hmem b hne
    simp only [Con.inScreen, Bool.or_eq_true, Bool.and_eq_true, beq_iff_eq,
      decide_eq_true_eq] at hok
    exact hb ⟨by omega, by omega⟩
  | false =>
    refine ⟨[.cell a n], rfl, fun hnone => ?_⟩
    simp [cellFaults, Fault.isCell] at hnone

theorem frame_mapCells (s : Con) (a n : Nat) (f : Cell → Cell) : Frame s (s.mapCells a n f) where
  size := rfl
  visible := rfl
  flags := rfl
  hidden _ := by
    refine ⟨rfl, rfl, rfl, rfl, .write fun b hb => ?_⟩
    by_contra hout
    exact hb (if_neg fun h => hout ⟨h.1, h.2.1⟩)

theorem frame_scrMemsetw (s : Con) (a n : Nat) (c : Cell) : Frame s (s.scrMemsetw a c n) :=
  frame_mapCells s a n fun _ => c

theorem frame_scrWritew (s : Con) (v : Cell) (a : Nat) : Frame s (s.scrWritew v a) where
  size := rfl
  visible := rfl
  flags := rfl
  hidden _ := by
    refine ⟨rfl, rfl, rfl, rfl, .write fun b hb => ?_⟩
    by_cases hba : b = a
    · omega
    · exact absurd (Function.update_of_ne hba v s.mem) hb

theorem frame_scrMemmovew (s : Con) (t a n : Nat) : Frame s (s.scrMemmovew t a n) := by
  refine (frame_check s (s.inScreen a n) (.cell a n)).trans ⟨⟨rfl, rfl, rfl⟩, fun _ => ?_⟩
  have hmem : Contained (s.check (s.inScreen a n) (.cell a n)) (s.scrMemmovew t a n) :=
    .write (a := t) (n := n) fun b hb => by
      by_contra hout
      exact hb (if_neg fun h => hout ⟨h.1, h.2.1⟩)
  exact ⟨rfl, rfl, rfl, rfl, hmem⟩

/-! ### The screen -/

theorem frame_addSoftcursor (s : Con) : Frame s (addSoftcursor s) := by
  unfold addSoftcursor
  refine .ite (fun _ => .refl s) fun _ => .ite (fun _ => .refl s) fun _ => ?_
  have hmark : Frame s { s with vt.cursorOriginal := some (s.mem s.cur.pos) } :=
    ⟨⟨rfl, rfl, rfl⟩, fun _ => ⟨rfl, rfl, rfl, rfl, [], rfl, fun _ _ _ => rfl⟩⟩
  have hcell := hmark.trans (frame_scrWritew _
    (softcursorCell s.rend.cursorType (s.mem s.cur.pos)) s.cur.pos)
  exact .ite (fun hv => hcell.trans (frame_draw hv _)) fun _ => hcell

theorem frame_gotoxy (s : Con) (x y : Int) : Frame s (gotoxy s x y) :=
  .of_eq rfl rfl rfl rfl rfl rfl rfl

theorem frame_gotoxay (s : Con) (x y : Int) : Frame s (gotoxay s x y) := frame_gotoxy s _ _

theorem frame_setPalette (s : Con) : Frame s (setPalette s) := by
  unfold setPalette
  refine .ite (fun hv => frame_draw ?_ _) fun _ => .refl s
  exact (Bool.and_eq_true_iff.mp hv).1

theorem frame_palette (s : Con) (p : Nat → BitVec 8) : Frame s { s with paletteMap := p } :=
  .of_eq rfl rfl rfl rfl rfl rfl rfl

theorem frame_resetPalette (s : Con) : Frame s (resetPalette s) :=
  (frame_palette s _).trans (frame_setPalette _)

theorem frame_scrolled (hv : s.vt.visible = true) (r : Scrolled) : Frame s (s.scrolled r) where
  size := rfl
  visible := rfl
  flags := rfl
  hidden hn := by rw [hv] at hn; contradiction

/-- The scroll hook is called for a visible console alone. -/
theorem frame_hooked {x : Option Scrolled} {r : Scrolled}
    (hr : (if s.vt.visible then x else none) = some r) : Frame s (s.scrolled r) := by
  refine frame_scrolled ?_ r
  by_contra hv
  rw [if_neg hv] at hr
  contradiction

/-- A console behind another does not call the scroll hook. -/
theorem frame_scrollCall (s : Con) (t b : Nat) (dir : ScrollDir) (n : Nat) :
    Frame s { s with draws := s.draws ++ s.scrollCall t b dir n } where
  size := rfl
  visible := rfl
  flags := rfl
  hidden hv := by
    have hnone : s.scrollCall t b dir n = [] := by
      rw [Con.scrollCall, hv]
      rfl
    exact ⟨rfl, by rw [hnone, List.append_nil], rfl, rfl, .refl s⟩

theorem frame_scrollRegionUp (s : Con) (t b : Nat) (nr : Int) :
    Frame s (scrollRegionUp d s t b nr) := by
  unfold scrollRegionUp
  refine .ite (fun _ => .refl s) fun _ => ?_
  dsimp only
  split
  case h_1 r hr => exact (frame_scrollCall s t b _ _).trans (frame_hooked hr)
  case h_2 =>
    exact (frame_scrollCall s t b _ _).trans
      ((frame_scrMemmovew _ _ _ _).trans (frame_scrMemsetw _ _ _ _))

theorem frame_scrollRegionDown (s : Con) (t b : Nat) (nr : Int) :
    Frame s (scrollRegionDown d s t b nr) := by
  unfold scrollRegionDown
  refine .ite (fun _ => .refl s) fun _ => ?_
  dsimp only
  split
  case h_1 r hr => exact (frame_scrollCall s t b _ _).trans (frame_hooked hr)
  case h_2 =>
    exact (frame_scrollCall s t b _ _).trans
      ((frame_scrMemmovew _ _ _ _).trans (frame_scrMemsetw _ _ _ _))

theorem frame_defaultAttr (s : Con) : Frame s (defaultAttr s) :=
  .of_eq rfl rfl rfl rfl rfl rfl rfl

theorem frame_updateAttr (s : Con) : Frame s (updateAttr d s) :=
  .of_eq rfl rfl rfl rfl rfl rfl rfl

theorem frame_insertLoop (q nr k : Nat) : ∀ s : Con, Frame s (insertLoop q nr k s) := by
  induction k with
  | zero => exact Frame.refl
  | succ k ih => exact fun s => (frame_scrWritew s _ _).trans (ih _)

theorem frame_deleteLoop (nr k : Nat) : ∀ (p : Nat) (s : Con), Frame s (deleteLoop nr k p s) := by
  induction k with
  | zero => exact fun _ => Frame.refl
  | succ k ih => exact fun p s => (frame_scrWritew s _ _).trans (ih (p + 2) _)

theorem frame_needWrap (s : Con) (w : Bool) : Frame s { s with cur.needWrap := w } :=
  .of_eq rfl rfl rfl rfl rfl rfl rfl

theorem frame_insertChar (s : Con) (nr : Nat) : Frame s (insertChar s nr) := by
  have hloop := frame_insertLoop s.cur.pos nr (s.geo.cols - nr - s.cur.x) s
  have hcells := (hloop.trans (frame_scrMemsetw (insertLoop s.cur.pos nr
    (s.geo.cols - nr - s.cur.x) s) s.cur.pos nr (insertLoop s.cur.pos nr
    (s.geo.cols - nr - s.cur.x) s).rend.videoEraseChar)).trans (frame_needWrap _ false)
  rw [insertChar]
  exact .ite (fun hv => hcells.trans (frame_draw hv _)) fun _ => hcells

theorem frame_deleteChar (s : Con) (nr : Nat) : Frame s (deleteChar s nr) := by
  have hloop := frame_deleteLoop nr (s.geo.cols - nr - s.cur.x) s.cur.pos s
  have hcells := (hloop.trans (frame_scrMemsetw (deleteLoop nr (s.geo.cols - nr - s.cur.x)
    s.cur.pos s) (s.cur.pos + 2 * (s.geo.cols - nr - s.cur.x)) nr (deleteLoop nr
    (s.geo.cols - nr - s.cur.x) s.cur.pos s).rend.videoEraseChar)).trans (frame_needWrap _ false)
  rw [deleteChar]
  exact .ite (fun hv => hcells.trans (frame_draw hv _)) fun _ => hcells

theorem frame_insertLine (s : Con) (nr : Nat) : Frame s (insertLine d s nr) :=
  (frame_scrollRegionDown s _ _ _).trans (frame_needWrap _ false)

theorem frame_deleteLine (s : Con) (nr : Nat) : Frame s (deleteLine d s nr) :=
  (frame_scrollRegionUp s _ _ _).trans (frame_needWrap _ false)

theorem frame_clearRegion (s : Con) (sx sy width height : Nat) :
    Frame s (clearRegion s sx sy width height) := by
  unfold clearRegion
  exact .ite (fun hv => frame_draw hv _) fun _ => .refl s

/-! ### Format effectors -/

theorem frame_cursor (s : Con) (c : Cursor) : Frame s { s with cur := c } :=
  .of_eq rfl rfl rfl rfl rfl rfl rfl

theorem frame_vteLf (s : Con) : Frame s (vteLf d s) := by
  rw [vteLf]
  refine Frame.trans (.ite (fun _ => frame_scrollRegionUp s _ _ _) fun _ => ?_)
    (frame_needWrap _ false)
  exact .ite (fun _ => frame_cursor s _) fun _ => .refl s

theorem frame_vteRi (s : Con) : Frame s (vteRi d s) := by
  rw [vteRi]
  refine Frame.trans (.ite (fun _ => frame_scrollRegionDown s _ _ _) fun _ => ?_)
    (frame_needWrap _ false)
  exact .ite (fun _ => frame_cursor s _) fun _ => .refl s

theorem frame_vteCr (s : Con) : Frame s (vteCr s) := frame_cursor s _

theorem frame_vteBs (s : Con) : Frame s (vteBs s) :=
  .ite (fun _ => frame_cursor s _) fun _ => .refl s

theorem frame_vteCvt (s : Con) (vpar : Int) : Frame s (vteCvt d s vpar) :=
  .iterate frame_vteLf vpar.toNat s

theorem frame_checkTab (s : Con) : Frame s (checkTab s) := frame_check s _ _

theorem frame_tabLeft (fuel : Nat) : ∀ s : Con, Frame s (tabLeft fuel s) := by
  induction fuel with
  | zero => exact Frame.refl
  | succ fuel ih =>
    intro s
    have hstep := (frame_cursor s { s.cur with x := s.cur.x - 1 }).trans (frame_checkTab _)
    rw [tabLeft]
    refine .ite (fun _ => ?_) fun _ => .refl s
    exact .ite (fun _ => hstep) fun _ => hstep.trans (ih _)

theorem frame_tabRight (fuel : Nat) : ∀ s : Con, Frame s (tabRight fuel s) := by
  induction fuel with
  | zero => exact Frame.refl
  | succ fuel ih =>
    intro s
    have hstep := (frame_cursor s { s.cur with x := s.cur.x + 1 }).trans (frame_checkTab _)
    rw [tabRight]
    refine .ite (fun _ => ?_) fun _ => .refl s
    exact .ite (fun _ => hstep) fun _ => hstep.trans (ih _)

theorem frame_backTab (s : Con) : Frame s (backTab s) := by
  have hstart := frame_cursor s { s.cur with pos := s.cur.pos - 2 * s.cur.x }
  rw [backTab]
  exact (hstart.trans (frame_tabLeft _ _)).trans (frame_cursor _ _)

theorem frame_forwardTab (s : Con) : Frame s (forwardTab s) := by
  have hstart := frame_cursor s { s.cur with pos := s.cur.pos - 2 * s.cur.x }
  rw [forwardTab]
  exact (hstart.trans (frame_tabRight _ _)).trans (frame_cursor _ _)

theorem frame_vteCbt (s : Con) (vpar : Int) : Frame s (vteCbt s vpar) :=
  .iterate frame_backTab vpar.toNat s

theorem frame_vteCht (s : Con) (vpar : Int) : Frame s (vteCht s vpar) :=
  .iterate frame_forwardTab vpar.toNat s

theorem frame_tabStop (s : Con) (tabs : Nat → BitVec 32) : Frame s { s with tabStop := tabs } :=
  .of_eq rfl rfl rfl rfl rfl rfl rfl

theorem frame_setTab (s : Con) : Frame s (setTab s) := (frame_checkTab s).trans (frame_tabStop _ _)

theorem frame_vteTbc (s : Con) (vpar : Nat) : Frame s (vteTbc s vpar) := by
  rw [vteTbc.eq_def]
  split
  case h_1 => exact (frame_checkTab s).trans (frame_tabStop _ _)
  case h_5 => exact .refl s
  all_goals exact frame_tabStop s _

theorem frame_vteCtc (s : Con) : Frame s (vteCtc s) := by
  rw [vteCtc]
  split
  · exact frame_setTab s
  · exact frame_vteTbc s 0
  · exact frame_vteTbc s 5
  · exact .refl s

/-! ### Erasure -/

/-- An erasure: the display first, or the screen first. -/
theorem frame_erase (s : Con) (sx sy width height a n : Nat) :
    Frame s { (clearRegion s sx sy width height).scrMemsetw a
      (clearRegion s sx sy width height).rend.videoEraseChar n with cur.needWrap := false } :=
  ((frame_clearRegion s sx sy width height).trans (frame_scrMemsetw _ a n _)).trans
    (frame_needWrap _ false)

theorem frame_vteEd (s : Con) (vpar : Nat) : Frame s (vteEd s vpar) := by
  rw [vteEd.eq_def]
  split
  case h_1 => exact (frame_clearRegion s _ _ _ _).trans (frame_erase _ _ _ _ _ _ _)
  case h_2 => exact (frame_clearRegion s _ _ _ _).trans (frame_erase _ _ _ _ _ _ _)
  case h_3 => exact frame_erase s _ _ _ _ _ _
  case h_4 => exact .refl s

theorem frame_vteEl (s : Con) (vpar : Nat) : Frame s (vteEl s vpar) := by
  rw [vteEl.eq_def]
  split
  case h_4 => exact .refl s
  all_goals exact frame_erase s _ _ _ _ _ _

theorem frame_vteEch (s : Con) (vpar : Nat) : Frame s (vteEch s vpar) := by
  rw [vteEch]
  exact ((frame_scrMemsetw s _ _ _).trans (frame_clearRegion _ _ _ _ _)).trans
    (frame_needWrap _ false)

/-! ### Rendition and reports -/

theorem frame_rend (s : Con) (r : Rendition) : Frame s { s with rend := r } :=
  .of_eq rfl rfl rfl rfl rfl rfl rfl

theorem frame_chars (s : Con) (h : Charsets) : Frame s { s with chars := h } :=
  .of_eq rfl rfl rfl rfl rfl rfl rfl

/-- Modes that no request reports. -/
theorem frame_modes {m : Modes} (hm : m.flag = s.modes.flag) : Frame s { s with modes := m } :=
  .of_eq rfl rfl hm rfl rfl rfl rfl

theorem frame_kbd (s : Con) (k : KbdTable) : Frame s { s with kbd := k } :=
  .of_eq rfl rfl rfl rfl rfl rfl rfl

theorem frame_ps (s : Con) (ps : Parser) : Frame s { s with ps := ps } :=
  .of_eq rfl rfl rfl rfl rfl rfl rfl

theorem frame_checkColor (s : Con) (i : Nat) : Frame s (checkColor s i) := frame_check s _ _

theorem frame_translateMode (s : Con) (m : CharMap) (ctrl high : Bool) :
    Frame s { setTranslate s m with
      modes := { s.modes with dispCtrl := ctrl, toggleMeta := high } } :=
  (frame_chars s _).trans (frame_modes (funext fun k => by cases k <;> rfl))

theorem frame_sgrPar (s : Con) (p : Nat) : Frame s (sgrPar s p) := by
  rw [sgrPar.eq_def]
  split
  case h_1 => exact frame_defaultAttr s
  case h_8 | h_9 | h_10 => exact frame_translateMode s _ _ _
  case h_19 =>
    refine .ite (fun _ => (frame_checkColor s _).trans (frame_rend _ _)) fun _ => ?_
    exact .ite (fun _ => (frame_checkColor s _).trans (frame_rend _ _)) fun _ => .refl s
  all_goals exact frame_rend s _

theorem frame_foldl {f : Con → Nat → Con} (hf : ∀ s i, Frame s (f s i)) (is : List Nat) :
    ∀ s, Frame s (is.foldl f s) := by
  induction is with
  | nil => exact Frame.refl
  | cons i is ih => exact fun s => (hf s i).trans (ih (f s i))

theorem frame_forPars {f : Con → Nat → Con} (hf : ∀ s i, Frame s (f s i)) (s : Con) :
    Frame s (forPars f s) :=
  frame_foldl (fun s _ => (frame_check s _ _).trans (hf _ _)) _ s

theorem frame_vteSgr (s : Con) : Frame s (vteSgr d s) :=
  (frame_forPars frame_sgrPar s).trans (frame_updateAttr _)

theorem frame_vteCpr (s : Con) (ext : Bool) : Frame s (vteCpr s ext) :=
  .ite (fun _ => frame_putsQueue s _) fun _ => frame_putsQueue s _

theorem frame_vteDecrqm (s : Con) (priv : Bool) : Frame s (vteDecrqm s priv) :=
  .ite (fun _ => frame_putsQueue s _) fun _ => frame_putsQueue s _

theorem frame_vteDecscl (s : Con) : Frame s (vteDecscl s) := by
  have hm (n : Nat) (b : Bool) : Frame s { s with modes.decscl := n, modes.c8bit := b } :=
    frame_modes (funext fun k => by cases k <;> rfl)
  rw [vteDecscl]
  split
  case h_5 => exact .refl s
  all_goals exact .ite (fun _ => hm _ _) fun _ => .refl s

theorem frame_setKbdMode (s : Con) (flag : Nat) (on : Bool) : Frame s (setKbdMode s flag on) :=
  frame_kbd s _

/-! ### Unblanking

The only thing of a console in front of another that the functions of that other one reach
without its visibility being tested is the blanking of the display they share. -/

theorem keeps_draw (s : Con) (ds : List Draw) : Keeps s (s.draw ds) := ⟨rfl, rfl, rfl⟩

theorem keeps_doUpdateRegion (s : Con) (start count : Nat) :
    Keeps s (doUpdateRegion s start count) := ⟨rfl, rfl, rfl⟩

theorem keeps_hideSoftcursor (s : Con) : Keeps s (hideSoftcursor s) := by
  rw [hideSoftcursor]
  split
  · exact .refl s
  · next orig _ =>
    have hcell := (frame_scrWritew s orig s.cur.pos).toKeeps
    have hputc : Keeps s (if s.vt.visible then (s.scrWritew orig s.cur.pos).draw
        [.putc orig s.cur.y s.cur.x] else s.scrWritew orig s.cur.pos) :=
      .ite (fun _ => hcell.trans (keeps_draw _ _)) fun _ => hcell
    exact hputc.trans ⟨rfl, rfl, rfl⟩

theorem keeps_hideCursor (s : Con) : Keeps s (hideCursor s) :=
  (keeps_draw s _).trans (keeps_hideSoftcursor _)

theorem keeps_setCursor (s : Con) : Keeps s (setCursor s) := by
  have hsoft := (frame_addSoftcursor s).toKeeps
  rw [setCursor]
  refine .ite (fun _ => .refl s) fun _ => .ite (fun _ => ?_) fun _ => keeps_hideCursor s
  exact .ite (fun _ => hsoft.trans (keeps_draw _ _)) fun _ => hsoft

theorem keeps_setOrigin (s : Con) : Keeps s (setOrigin d s) := ⟨rfl, rfl, rfl⟩

theorem keeps_clearBufferAttributes (s : Con) : Keeps s (clearBufferAttributes s) :=
  ⟨rfl, rfl, rfl⟩

theorem keeps_updateScreen (s : Con) : Keeps s (updateScreen d s) := by
  have hswitch (mem : Nat → Cell) (can : Bool) (s : Con) :
      Keeps s { s with mem := mem, rend.canDoColor := can } := ⟨rfl, rfl, rfl⟩
  have horigin := (keeps_hideCursor s).trans (keeps_setOrigin (d := d) _)
  have hpalette := (horigin.trans (hswitch (d.conSwitch (setOrigin d (hideCursor s)).seen).1
    (d.conSwitch (setOrigin d (hideCursor s)).seen).2.1 _)).trans (frame_setPalette _).toKeeps
  have hattr := hpalette.trans (.ite (p := s.rend.canDoColor ≠
    (d.conSwitch (setOrigin d (hideCursor s)).seen).2.1) (fun _ => (frame_updateAttr (d := d)
      _).toKeeps.trans (keeps_clearBufferAttributes _)) fun _ => .refl _)
  rw [updateScreen]
  refine Keeps.trans (hattr.trans ?_) (keeps_setCursor _)
  exact .ite (fun _ => keeps_doUpdateRegion _ _ _) fun _ => .refl _

/-- Whether a poke unblanks the display. -/
def wakes (s : Con) : Bool := !s.vt.ignorePoke && s.vt.blanked && s.vt.fgMode == .text

/-- **A poke of a console that is not in front** changes the display's blanking alone. -/
theorem pokeBlankedConsole_hidden (hv : s.vt.visible = false) :
    ∃ vt, pokeBlankedConsole d s = { s with vt := vt } ∧ vt.visible = false ∧
      vt.blanked = (s.vt.blanked && !wakes s) := by
  cases hi : s.vt.ignorePoke <;> cases hb : s.vt.blanked <;> cases hf : s.vt.fgMode <;>
    by_cases hn : s.vt.blankInterval = 0 <;>
    simp [pokeBlankedConsole, unblankVt, wakes, hv, hi, hb, hf, hn]

/-- Fields of the display that are not whether the console is in front. -/
theorem keeps_display {vt : Display} (hv : vt.visible = s.vt.visible) :
    Keeps s { s with vt := vt } := ⟨rfl, hv, rfl⟩

theorem keeps_unblankVt (s : Con) : Keeps s (unblankVt d s) := by
  have hpoke : Keeps s { s with vt.ignorePoke := false } := keeps_display rfl
  rw [unblankVt]
  refine .ite (fun _ => hpoke) fun _ => .ite (fun _ => hpoke) fun _ => ?_
  have hblank : Keeps s { s with
      vt.ignorePoke := false, vt.blanked := false
      vt.blankState := if s.vt.blankInterval ≠ 0 then .normalWait else s.vt.blankState } :=
    keeps_display rfl
  refine .ite (fun _ => ?_) fun _ => hblank
  have hmem (s : Con) (mem : Nat → Cell) : Keeps s { s with mem := mem } := ⟨rfl, rfl, rfl⟩
  refine Keeps.trans (Keeps.trans ((hblank.trans (hmem _ _)).trans
    (.ite (fun _ => keeps_updateScreen _) fun _ => .refl _)) (frame_setPalette _).toKeeps)
    (keeps_setCursor _)

theorem keeps_pokeBlankedConsole (s : Con) : Keeps s (pokeBlankedConsole d s) := by
  have htimer : Keeps s { s with vt.blankTimerExpired := false } := keeps_display rfl
  rw [pokeBlankedConsole]
  refine .ite (fun _ => htimer) fun _ => .ite (fun _ => htimer.trans (keeps_unblankVt _)) fun _ => ?_
  exact .ite (fun _ => htimer.trans (keeps_display rfl)) fun _ => htimer

/-! ### The private commands, saving and restoring -/

/-- The commands of `setterm_command` that poke the display. -/
def isPoke (p : Nat) : Bool := p == 9 || p == 13

theorem frame_settermCommand (hp : isPoke (s.ps.par 0) = false) :
    Frame s (settermCommand d s) := by
  have hcolor (i : Nat) (r : Rendition) : Frame s { checkColor s i with rend := r } :=
    (frame_checkColor s i).trans (frame_rend _ r)
  rw [settermCommand]
  split
  case h_1 =>
    refine .ite (fun _ => ?_) fun _ => .refl s
    exact .ite (fun _ => (hcolor _ _).trans (frame_updateAttr _)) fun _ => hcolor _ _
  case h_2 =>
    refine .ite (fun _ => ?_) fun _ => .refl s
    exact .ite (fun _ => (hcolor _ _).trans (frame_updateAttr _)) fun _ => hcolor _ _
  case h_3 => exact ((frame_rend s _).trans (frame_defaultAttr _)).trans (frame_updateAttr _)
  case h_4 h9 => rw [h9] at hp; contradiction
  case h_7 => exact frame_request (by simp) s
  case h_8 h13 => rw [h13] at hp; contradiction
  case h_9 => exact frame_display rfl rfl
  case h_10 => exact frame_request (by simp) s
  case h_11 => exact .refl s
  all_goals exact .of_eq rfl rfl rfl rfl rfl rfl rfl

/-- **A command that pokes** does it on the same display. -/
theorem settermCommand_poke (hp : isPoke (s.ps.par 0) = true) :
    ∃ vt, settermCommand d s = pokeBlankedConsole d { s with vt := vt } ∧
      vt.visible = s.vt.visible ∧ vt.blanked = s.vt.blanked ∧ vt.ignorePoke = s.vt.ignorePoke ∧
      vt.fgMode = s.vt.fgMode := by
  rw [settermCommand]
  rcases (by simpa [isPoke] using hp : s.ps.par 0 = 9 ∨ s.ps.par 0 = 13) with h | h
  · rw [h]
    exact ⟨_, rfl, rfl, rfl, rfl, rfl⟩
  · rw [h]
    exact ⟨s.vt, rfl, rfl, rfl, rfl, rfl⟩

theorem keeps_settermCommand (s : Con) : Keeps s (settermCommand d s) := by
  cases hp : isPoke (s.ps.par 0) with
  | false => exact (frame_settermCommand hp).toKeeps
  | true =>
    obtain ⟨vt, heq, hv, -⟩ := settermCommand_poke (d := d) hp
    rw [heq]
    exact (keeps_display hv).trans (keeps_pokeBlankedConsole _)

theorem frame_vteIch (s : Con) (nr : Nat) : Frame s (vteIch s nr) := frame_insertChar s _
theorem frame_vteDch (s : Con) (nr : Nat) : Frame s (vteDch s nr) := frame_deleteChar s _
theorem frame_vteIl (s : Con) (nr : Nat) : Frame s (vteIl d s nr) := frame_insertLine s _
theorem frame_vteDl (s : Con) (nr : Nat) : Frame s (vteDl d s nr) := frame_deleteLine s _

theorem frame_vteDecsc (s : Con) : Frame s (vteDecsc s) :=
  .of_eq rfl rfl rfl rfl rfl rfl rfl

theorem frame_vteDecrc (s : Con) : Frame s (vteDecrc d s) := by
  have hmove := frame_gotoxy s (s32 s.saved.x) (s32 s.saved.y)
  rw [vteDecrc]
  exact hmove.trans (.of_eq rfl rfl rfl rfl rfl rfl rfl)

/-! ### Modes -/

theorem quiet_modes (s : Con) (m : Modes) : Quiet s { s with modes := m } :=
  ⟨rfl, rfl, fun _ => ⟨rfl, rfl, rfl, rfl, .refl s⟩⟩

theorem invertScreen_ps (s : Con) (offset count : Nat) :
    (invertScreen d s offset count).ps = s.ps := by
  rw [invertScreen]
  exact (apply_ite Con.ps _ _ _).trans (ite_self _)

theorem frame_invertScreen (s : Con) (offset count : Nat) :
    Frame s (invertScreen d s offset count) := by
  rw [invertScreen]
  exact .ite (fun hv => (frame_mapCells s _ _ _).trans (frame_draw hv _))
    fun _ => frame_mapCells s _ _ _

theorem quiet_setPrivMode (on : Bool) (s : Con) (p : Nat) : Quiet s (setPrivMode d on s p) := by
  have hmodes (m : Modes) := quiet_modes s m
  rw [setPrivMode.eq_def]
  split
  case h_1 => exact (frame_setKbdMode s _ _).quiet
  case h_2 =>
    refine .ite (fun _ => (hmodes { s.modes with decscnm := on }).trans ?_)
      fun _ => (Frame.refl s).quiet
    exact ((frame_invertScreen _ _ _).trans (frame_updateAttr _)).quiet
  case h_3 => exact (hmodes _).trans (frame_gotoxay _ _ _).quiet
  case h_5 | h_8 => exact (hmodes _).trans (frame_setKbdMode _ _ _).quiet
  case h_10 => exact (Frame.refl s).quiet
  all_goals exact hmodes _

theorem quiet_setAnsiMode (on : Bool) (s : Con) (p : Nat) : Quiet s (setAnsiMode on s p) := by
  rw [setAnsiMode.eq_def]
  split
  case h_3 => exact (frame_setKbdMode s _ _).quiet
  case h_4 => exact (Frame.refl s).quiet
  all_goals exact quiet_modes s _

theorem quiet_foldl {f : Con → Nat → Con} (hf : ∀ s i, Quiet s (f s i)) (is : List Nat) :
    ∀ s, Quiet s (is.foldl f s) := by
  induction is with
  | nil => exact fun s => (Frame.refl s).quiet
  | cons i is ih => exact fun s => (hf s i).trans (ih (f s i))

theorem quiet_setMode (s : Con) (on : Bool) : Quiet s (setMode d s on) := by
  refine quiet_foldl (fun s i => ?_) _ s
  have hcheck := (frame_check s (decide (i < NPAR)) (.vcPar i)).quiet
  refine hcheck.trans ?_
  split
  · exact quiet_setPrivMode on _ _
  · exact quiet_setAnsiMode on _ _

theorem quiet_vteRis (s : Con) (doClear : Bool) : Quiet s (vteRis d s doClear) := by
  have hleds : (s.requests ++ [Request.setLeds]).count .clearSelection =
      s.requests.count .clearSelection := by simp
  rw [vteRis]
  refine .ite (fun _ => Quiet.trans ?_ (frame_vteEd _ 2).quiet) fun _ => ?_
  · exact ⟨rfl, rfl, fun _ => ⟨rfl, rfl, rfl, hleds, .refl s⟩⟩
  · exact ⟨rfl, rfl, fun _ => ⟨rfl, rfl, rfl, hleds, .refl s⟩⟩

/-! ### Bytes of the emulator -/

theorem frame_setState (s : Con) (e : EsState) : Frame s (s.setState e) := frame_ps s _

theorem frame_setPar (s : Con) (i v : Nat) : Frame s (s.setPar i v) :=
  (frame_check s _ _).trans (frame_ps _ _)

theorem frame_atLeastOne (s : Con) : Frame s s.atLeastOne :=
  .ite (fun _ => frame_setPar s 0 1) fun _ => .refl s

theorem frame_fromZero (s : Con) (i : Nat) : Frame s (s.fromZero i) :=
  .ite (fun _ => frame_setPar s i _) fun _ => .refl s

theorem frame_clearPars (s : Con) : Frame s s.clearPars := frame_ps s _

theorem frame_some (h : Frame s s') : ∀ s'' ∈ some s', Frame s s'' := by
  intro s'' hs
  rwa [← Option.mem_some.mp hs]

theorem frame_none : ∀ s' ∈ (none : Option Con), Frame s s' := by simp

/-- SO and SI. -/
theorem frame_shift (s : Con) (h : Charsets) (ctrl : Bool) :
    Frame s { s with chars := h, modes.dispCtrl := ctrl } :=
  (frame_chars s h).trans (frame_modes (funext fun k => by cases k <;> rfl))

theorem frame_c0Control (s : Con) (c : Nat) : ∀ s' ∈ c0Control d s c, Frame s s' := by
  have hlf : Frame s (vteLf d s) := frame_vteLf s
  have hbell (r : Request) (hr : r ≠ .clearSelection) :
      Frame s (if s.bellDuration ≠ 0 then s.request r else s) :=
    .ite (fun _ => frame_request hr s) fun _ => .refl s
  have hnl : Frame s (if getKbdMode (vteLf d s) vcCrlf then vteCr (vteLf d s) else vteLf d s) :=
    .ite (fun _ => hlf.trans (frame_vteCr _)) fun _ => hlf
  rw [c0Control.eq_def]
  split
  case h_1 => exact frame_some (frame_putsQueue s _)
  case h_2 => exact frame_some (hbell _ (by simp))
  case h_3 => exact frame_some (frame_vteBs s)
  case h_4 => exact frame_some (frame_forwardTab s)
  case h_5 | h_6 | h_7 => exact frame_some hnl
  case h_8 => exact frame_some (frame_vteCr s)
  case h_9 | h_10 => exact frame_some (frame_shift s _ _)
  case h_11 | h_12 | h_13 => exact frame_some (frame_setState s _)
  case h_14 =>
    split
    · exact frame_some (.refl s)
    · exact frame_none

theorem frame_c1Control (s : Con) (c : Nat) : ∀ s' ∈ c1Control d s c, Frame s s' := by
  rw [c1Control.eq_def]
  split
  · exact frame_some (frame_vteLf s)
  · exact frame_some ((frame_vteLf s).trans (frame_vteCr _))
  · exact frame_some (frame_setTab s)
  · exact frame_some (frame_vteRi s)
  · exact frame_none
  · exact frame_none
  · exact frame_some (frame_putsQueue s _)
  · exact frame_some (frame_setState s _)
  · split
    · exact frame_some (.refl s)
    · exact frame_none

/-- Every byte after ESC. -/
theorem quiet_escState (s : Con) (c : Nat) : Quiet s (escState d s c) := by
  have hi := (frame_setState s .init).quiet
  rw [escState.eq_def]
  dsimp only
  split
  case h_6 => exact hi.trans (frame_vteDecsc _).quiet
  case h_7 => exact hi.trans (frame_vteDecrc _).quiet
  case h_8 | h_9 =>
    exact (hi.trans (quiet_modes _ _)).trans (frame_setKbdMode _ _ _).quiet
  case h_10 | h_11 | h_12 | h_13 | h_14 => exact hi.trans (frame_vteLf _).quiet
  case h_15 => exact hi.trans ((frame_vteCr _).trans (frame_vteLf _)).quiet
  case h_16 => exact hi.trans (frame_setTab _).quiet
  case h_17 => exact hi.trans (frame_vteRi _).quiet
  case h_18 | h_19 => exact hi.trans ⟨rfl, rfl, fun _ => ⟨rfl, rfl, rfl, rfl, .refl _⟩⟩
  case h_20 => exact hi.trans (frame_putsQueue _ _).quiet
  case h_23 | h_24 => exact hi.trans (quiet_modes _ _)
  case h_25 => exact hi.trans (quiet_vteRis _ true)
  case h_1 | h_2 | h_3 | h_4 | h_5 | h_21 | h_22 => exact hi.trans (frame_setState _ _).quiet
  case h_26 => exact hi

theorem escState_flag {c : Nat} (h : c ≠ 0x3d) (h' : c ≠ 0x3e) (h'' : c ≠ 0x63) (s : Con) :
    (escState d s c).modes.flag = s.modes.flag := by
  have hi := frame_setState s .init
  rw [escState.eq_def]
  dsimp only
  split
  case h_7 => exact (hi.trans (frame_vteDecrc _)).flags
  case h_8 => contradiction
  case h_9 => contradiction
  case h_10 | h_11 | h_12 | h_13 | h_14 => exact (hi.trans (frame_vteLf _)).flags
  case h_15 => exact (hi.trans ((frame_vteCr _).trans (frame_vteLf _))).flags
  case h_17 => exact (hi.trans (frame_vteRi _)).flags
  case h_18 | h_19 | h_23 | h_24 => exact funext fun k => by cases k <;> rfl
  case h_25 => contradiction
  all_goals rfl

theorem frame_acsState (s : Con) (c : Nat) : Frame s (acsState s c) := by
  have hi := frame_setState s .init
  have hm (b : Bool) : Frame s { s.setState .init with modes.c8bit := b } :=
    hi.trans (frame_modes (funext fun k => by cases k <;> rfl))
  rw [acsState.eq_def]
  dsimp only
  split
  · exact .ite (fun _ => hm false) fun _ => hi
  · exact .ite (fun _ => hm true) fun _ => hi
  · exact hi

theorem frame_oscState (s : Con) (c : Nat) : Frame s (oscState s c) := by
  have hi := frame_setState s .init
  rw [oscState.eq_def]
  dsimp only
  split
  · exact hi.trans ((frame_clearPars _).trans (frame_setState _ _))
  · exact hi.trans ((frame_resetPalette _).trans (frame_setState _ _))
  · exact hi

theorem frame_setPaletteByte (s : Con) (i hi lo : Nat) : Frame s (s.setPaletteByte i hi lo) :=
  (frame_check s _ _).trans (frame_palette _ _)

theorem frame_paletteState (s : Con) (c : Nat) : Frame s (paletteState s c) := by
  rw [paletteState]
  split
  · next v _ =>
    have hpar := (frame_setPar s s.ps.npar v).trans (frame_ps (s.setPar s.ps.npar v)
      { (s.setPar s.ps.npar v).ps with npar := s.ps.npar + 1 })
    refine .ite (fun _ => hpar.trans ?_) fun _ => hpar
    exact (((frame_setPaletteByte _ _ _ _).trans (frame_setPaletteByte _ _ _ _)).trans
      (frame_setPaletteByte _ _ _ _)).trans ((frame_setPalette _).trans (frame_setState _ _))
  · exact frame_setState s _

/-- **The screen alignment test** calls a drawing hook whatever is in front. -/
theorem scfState_eq (s : Con) : ∃ s', Frame s s' ∧
    scfState s 0x38 = doUpdateRegion s' s'.geo.origin (s'.geo.screenbufSize / 2) := by
  have hi := frame_setState s .init
  refine ⟨_, ?_, rfl⟩
  exact hi.trans ((frame_rend _ _).trans ((frame_vteEd _ 2).trans (frame_rend _ _)))

theorem frame_scfState {c : Nat} (h : c ≠ 0x38) (s : Con) : Frame s (scfState s c) := by
  rw [scfState]
  exact .ite (fun hc => absurd hc h) fun _ => frame_setState s _

theorem keeps_scfState (s : Con) (c : Nat) : Keeps s (scfState s c) := by
  by_cases h : c = 0x38
  · obtain ⟨s', hf, heq⟩ := scfState_eq s
    rw [h, heq]
    exact hf.toKeeps.trans (keeps_doUpdateRegion _ _ _)
  · exact (frame_scfState h s).toKeeps

theorem frame_dec (s : Con) (u : Utf) : Frame s { s with dec := u } :=
  .of_eq rfl rfl rfl rfl rfl rfl rfl

theorem frame_docsState (s : Con) (c : Nat) : Frame s (docsState s c) := by
  have hi := frame_setState s .init
  rw [docsState.eq_def]
  dsimp only
  split
  case h_4 => exact hi
  all_goals exact hi.trans (frame_dec _ _)

theorem frame_designateState (get : Charsets → CharMap) (put : Charsets → CharMap → Charsets)
    (active : Bool) (s : Con) (c : Nat) : Frame s (designateState get put active s c) := by
  have hput := frame_chars s (put s.chars (designate c (get s.chars)))
  rw [designateState]
  exact Frame.trans (.ite (fun _ => hput.trans (frame_chars _ _)) fun _ => hput)
    (frame_setState _ _)

/-! ### Control sequences -/

theorem frame_decDsr (s : Con) : Frame s (decDsr s) := by
  rw [decDsr]
  split
  case h_1 => exact frame_vteCpr s true
  case h_9 => exact .refl s
  all_goals exact frame_putsQueue s _

theorem frame_ansiDsr (s : Con) : Frame s (ansiDsr s) := by
  rw [ansiDsr]
  split
  · exact frame_putsQueue s _
  · exact frame_vteCpr s false
  · exact .refl s

/-- The control functions with private parameters, but those that set modes and the one that
clears the selection. -/
theorem frame_csiPrivate {c : Nat} (h : c ≠ 0x68) (h' : c ≠ 0x6c)
    (hm : ¬(c = 0x6d ∧ s.ps.priv4 = true)) : ∀ s' ∈ csiPrivate d s c, Frame s s' := by
  have hda (p : Con → Con) (hp : ∀ s, Frame s (p s)) :
      Frame s (if s.ps.par 0 = 0 then p s else s) := .ite (fun _ => hp s) fun _ => .refl s
  rw [csiPrivate.eq_def]
  split
  case h_4 => contradiction
  case h_5 => contradiction
  case h_1 =>
    split
    · exact frame_some (frame_setState s _)
    · exact frame_none
  case h_2 | h_3 =>
    split
    · exact frame_some (.refl s)
    · exact frame_none
  case h_6 =>
    split
    · exact frame_some ((hda vteDecDa3 fun s => frame_putsQueue s _).trans (frame_ps _ _))
    split
    · exact frame_some ((hda vteDecDa2 fun s => frame_putsQueue s _).trans (frame_ps _ _))
    split
    · exact frame_some (.of_eq rfl rfl rfl rfl rfl rfl rfl)
    · exact frame_none
  case h_7 =>
    rw [if_neg fun hp => hm ⟨rfl, hp⟩]
    exact frame_none
  case h_8 =>
    refine frame_some (Frame.trans (.ite (fun _ => frame_decDsr s) fun _ => frame_ansiDsr s)
      (frame_ps _ _))
  case h_9 => exact frame_none

theorem frame_vteDecstbm (s : Con) : Frame s (vteDecstbm s) := by
  have h1 := frame_atLeastOne s
  have h2 := h1.trans (.ite (p := s.atLeastOne.ps.par 1 = 0)
    (fun _ => frame_setPar s.atLeastOne 1 s.atLeastOne.geo.rows) fun _ => .refl _)
  have hmar (s : Con) (m : Margins) : Frame s { s with mar := m } :=
    .of_eq rfl rfl rfl rfl rfl rfl rfl
  rw [vteDecstbm]
  exact .ite (fun _ => h2.trans ((hmar _ _).trans (frame_gotoxay _ 0 0))) fun _ => h2

theorem frame_moveBy (s : Con) (home : Bool) (dx dy : Int) : Frame s (moveBy s home dx dy) :=
  frame_gotoxy s _ _

theorem frame_setledstate (s : Con) (led : Nat) : Frame s (setledstate s led) :=
  ((frame_kbd s _).trans (frame_request (by simp) _)).trans (frame_request (by simp) _)

/-- The control functions with standard parameters, but those that poke the display. -/
theorem frame_csiFinal {c : Nat} (hp : ¬(c = 0x5d ∧ isPoke (s.ps.par 0) = true)) :
    Frame s (csiFinal d s c) := by
  have h1 := frame_atLeastOne s
  have h0 := frame_fromZero s 0
  rw [csiFinal.eq_def]
  dsimp only
  split
  case h_8 => exact frame_vteIch s _
  case h_9 | h_10 | h_11 | h_12 | h_13 | h_14 | h_15 | h_16 | h_17 | h_18 =>
    exact h1.trans (frame_moveBy _ _ _ _)
  case h_19 | h_20 => exact h0.trans (frame_gotoxy _ _ _)
  case h_21 | h_22 => exact h0.trans ((frame_fromZero _ 1).trans (frame_gotoxay _ _ _))
  case h_23 => exact h1.trans (frame_vteCht _ _)
  case h_24 => exact frame_vteEd s _
  case h_25 => exact frame_vteEl s _
  case h_26 => exact frame_vteIl s _
  case h_27 => exact frame_vteDl s _
  case h_28 => exact frame_vteDch s _
  case h_29 => exact frame_vteCtc s
  case h_30 => exact frame_vteEch s _
  case h_31 => exact h1.trans (frame_vteCvt _ _)
  case h_32 => exact frame_vteCbt s _
  case h_33 => exact frame_settermCommand (Bool.eq_false_iff.mpr fun h => hp ⟨rfl, h⟩)
  case h_34 => exact .ite (fun _ => frame_putsQueue s _) fun _ => .refl s
  case h_35 => exact h0.trans (frame_gotoxay _ _ _)
  case h_36 => exact frame_vteTbc s _
  case h_37 => exact frame_vteSgr s
  case h_38 => exact .ite (fun _ => frame_setledstate s _) fun _ => .refl s
  case h_39 => exact frame_vteDecstbm s
  case h_40 => exact frame_putsQueue s _
  case h_41 => exact .refl s
  all_goals exact frame_setState s _

theorem keeps_csiFinal (s : Con) (c : Nat) : Keeps s (csiFinal d s c) := by
  by_cases hp : c = 0x5d ∧ isPoke (s.ps.par 0) = true
  · rw [hp.1]
    exact keeps_settermCommand s
  · exact (frame_csiFinal hp).toKeeps

/-- A byte that ends a control sequence is taken in one of these states. -/
def EsState.takesFinal (e : EsState) : Bool := e == .csiGetpars || e == .csiGotpars

/-- The byte is the last of `CSI n ; m ]` with a command that pokes. -/
def Con.pokes (s : Con) (c : Nat) : Bool :=
  s.ps.state.takesFinal && c == 0x5d
    && !(s.ps.priv1 || s.ps.priv2 || s.ps.priv3 || s.ps.priv4) && isPoke (s.ps.par 0)

/-- The byte is the last of `CSI ? n ; m m`. -/
def Con.deselects (s : Con) (c : Nat) : Bool :=
  s.ps.state.takesFinal && c == 0x6d && s.ps.priv4

/-- The byte is the last of `ESC # 8`. -/
def Con.aligns (s : Con) (c : Nat) : Bool := s.ps.state == .scf && c == 0x38

/-- A control sequence that is complete. -/
theorem quiet_csiGotpars {c : Nat} (hp : ¬(c = 0x5d ∧ (s.ps.priv1 || s.ps.priv2 || s.ps.priv3 ||
    s.ps.priv4) = false ∧ isPoke (s.ps.par 0) = true)) (hm : ¬(c = 0x6d ∧ s.ps.priv4 = true)) :
    Quiet s (csiGotpars d s c) := by
  have hi := frame_setState s .init
  rw [csiGotpars]
  split
  case h_1 s' he =>
    by_cases h : c = 0x68
    · subst h
      obtain rfl : setMode d (s.setState .init) true = s' := by simpa [csiPrivate] using he
      exact hi.quiet.trans (quiet_setMode _ true)
    by_cases h' : c = 0x6c
    · subst h'
      obtain rfl : setMode d (s.setState .init) false = s' := by simpa [csiPrivate] using he
      exact hi.quiet.trans (quiet_setMode _ false)
    · have hm' : ¬(c = 0x6d ∧ (s.setState .init).ps.priv4 = true) := hm
      exact (hi.trans (frame_csiPrivate h h' hm' s' he)).quiet
  case h_2 =>
    by_cases hq : (s.ps.priv1 || s.ps.priv2 || s.ps.priv3 || s.ps.priv4) = true
    · exact .ite (fun _ => (hi.trans (frame_ps _ _)).quiet) fun hn => absurd hq hn
    · refine .ite (fun hn => absurd hn hq) fun _ => (hi.trans (frame_csiFinal ?_)).quiet
      exact fun h => hp ⟨h.1, Bool.eq_false_iff.mpr hq, h.2⟩

theorem csiGotpars_flag {c : Nat} (h : c ≠ 0x68) (h' : c ≠ 0x6c) (s : Con) :
    (csiGotpars d s c).modes.flag = s.modes.flag := by
  have hi := frame_setState s .init
  rw [csiGotpars]
  split
  case h_1 s' he =>
    by_cases hm : c = 0x6d ∧ s.ps.priv4 = true
    · obtain ⟨rfl, hm⟩ := hm
      have he' := Option.some.inj ((if_pos (t := _) hm).symm.trans he)
      rw [← he']
      rfl
    · have hm' : ¬(c = 0x6d ∧ (s.setState .init).ps.priv4 = true) := hm
      exact (hi.trans (frame_csiPrivate h h' hm' s' he)).flags
  case h_2 =>
    split
    · rfl
    · exact (hi.toKeeps.trans (keeps_csiFinal _ c)).flags

/-- The commands that poke, as the parser reaches them. -/
theorem csiGotpars_poke (hp : (s.ps.priv1 || s.ps.priv2 || s.ps.priv3 || s.ps.priv4) = false) :
    csiGotpars d s 0x5d = settermCommand d (s.setState .init) := by
  have hnone : csiPrivate d (s.setState .init) 0x5d = none := rfl
  rw [csiGotpars, hnone]
  exact if_neg (by rw [show ((s.setState .init).ps.priv1 || (s.setState .init).ps.priv2 ||
    (s.setState .init).ps.priv3 || (s.setState .init).ps.priv4) = false from hp]; decide)

/-- The command that clears the selection. -/
theorem csiGotpars_deselect (hp : s.ps.priv4 = true) : ∃ r ps,
    csiGotpars d s 0x6d = { s.request .clearSelection with rend := r, ps := ps } := by
  have hsome : csiPrivate d (s.setState .init) 0x6d = some _ := if_pos hp
  rw [csiGotpars, hsome]
  exact ⟨_, _, rfl⟩

theorem steady_csiGotpars (s : Con) (c : Nat) : Steady s (csiGotpars d s c) := by
  have hi := (frame_setState s .init).steady
  by_cases hm : c = 0x6d ∧ s.ps.priv4 = true
  · obtain ⟨rfl, hm⟩ := hm
    have hclear : csiPrivate d (s.setState .init) 0x6d = some _ := if_pos hm
    rw [csiGotpars, hclear]
    exact ⟨rfl, rfl⟩
  by_cases hp : c = 0x5d ∧ (s.ps.priv1 || s.ps.priv2 || s.ps.priv3 || s.ps.priv4) = false ∧
      isPoke (s.ps.par 0) = true
  · obtain ⟨rfl, hp, -⟩ := hp
    have hnone : csiPrivate d (s.setState .init) 0x5d = none := rfl
    rw [csiGotpars, hnone]
    exact hi.trans (Keeps.ite (fun _ => (frame_ps _ _).toKeeps)
      fun _ => keeps_csiFinal _ _).steady
  · exact (quiet_csiGotpars hp hm).steady

/-- Without parameters no mode is set. -/
theorem csiGotpars_flag_zero (hn : s.ps.npar = 0) (h0 : s.ps.par 0 = 0) (hp : s.ps.priv4 = false)
    (c : Nat) : (csiGotpars d s c).modes.flag = s.modes.flag := by
  have hset (on : Bool) : (setMode d (s.setState .init) on).modes.flag = s.modes.flag := by
    rw [setMode, forPars]
    simp [Con.setState, hn, h0, hp, List.range_succ, setAnsiMode, Con.check]
  by_cases h : c = 0x68
  · rw [h]
    exact hset true
  by_cases h' : c = 0x6c
  · rw [h']
    exact hset false
  · exact csiGotpars_flag h h' s

/-! ### A byte of a control sequence -/

theorem quiet_csiGetpars {c : Nat} (hp : ¬(c = 0x5d ∧ (s.ps.priv1 || s.ps.priv2 || s.ps.priv3 ||
    s.ps.priv4) = false ∧ isPoke (s.ps.par 0) = true)) (hm : ¬(c = 0x6d ∧ s.ps.priv4 = true)) :
    Quiet s (csiGetpars d s c) := by
  rw [csiGetpars]
  refine .ite (fun _ => (frame_ps s _).quiet) fun _ => ?_
  refine .ite (fun _ => (frame_setPar s _ _).quiet) fun _ => ?_
  exact (frame_setState s _).quiet.trans (quiet_csiGotpars (s := s.setState .csiGotpars) hp hm)

theorem csiGetpars_flag {c : Nat} (h : c ≠ 0x68) (h' : c ≠ 0x6c) (s : Con) :
    (csiGetpars d s c).modes.flag = s.modes.flag := by
  rw [csiGetpars]
  split
  · rfl
  split
  · rfl
  · exact csiGotpars_flag h h' (s.setState .csiGotpars)

theorem csiGetpars_flag_zero (hn : s.ps.npar = 0) (h0 : s.ps.par 0 = 0) (hp : s.ps.priv4 = false)
    (c : Nat) : (csiGetpars d s c).modes.flag = s.modes.flag := by
  rw [csiGetpars]
  split
  · rfl
  split
  · rfl
  · exact csiGotpars_flag_zero (s := s.setState .csiGotpars) hn h0 hp c

theorem steady_csiGetpars (s : Con) (c : Nat) : Steady s (csiGetpars d s c) := by
  rw [csiGetpars]
  split
  · exact (frame_ps s _).steady
  split
  · exact (frame_setPar s _ _).steady
  · exact (frame_setState s _).steady.trans (steady_csiGotpars (s.setState .csiGotpars) c)

/-- The console after CSI, with the private flags of the byte that follows. -/
def afterCsi (s : Con) (c : Nat) : Con :=
  { s.clearPars.setState .csiGetpars with
    ps := { (s.clearPars.setState .csiGetpars).ps with
      priv1 := c == 0x3c, priv2 := c == 0x3d, priv3 := c == 0x3e, priv4 := c == 0x3f } }

theorem frame_afterCsi (s : Con) (c : Nat) : Frame s (afterCsi s c) := frame_ps s _

/-- The byte after CSI is skipped or is the first of the parameters. -/
theorem csiState_cases (s : Con) (c : Nat) :
    Frame s (csiState d s c) ∨
      csiState d s c = csiGetpars d (afterCsi s c) c ∧ (afterCsi s c).ps.priv4 = false := by
  have hstart := (frame_clearPars s).trans (frame_setState s.clearPars .csiGetpars)
  rw [csiState]
  split
  · exact .inl (hstart.trans (frame_setState _ _))
  dsimp only
  split
  · exact .inl ((frame_afterCsi s c).trans (frame_setState _ _))
  split
  · exact .inl (frame_afterCsi s c)
  case isFalse h =>
    refine .inr ⟨rfl, ?_⟩
    simp only [Bool.or_eq_true, not_or, Bool.not_eq_true] at h
    exact h.2

theorem quiet_csiState (s : Con) (c : Nat) : Quiet s (csiState d s c) := by
  rcases csiState_cases (d := d) s c with h | ⟨heq, hp⟩
  · exact h.quiet
  · rw [heq]
    refine (frame_afterCsi s c).quiet.trans (quiet_csiGetpars (fun h => ?_) fun h => ?_)
    · exact absurd (show isPoke 0 = true from h.2.2) (by decide)
    · rw [hp] at h
      exact absurd h.2 (by simp)

theorem csiState_flag (s : Con) (c : Nat) : (csiState d s c).modes.flag = s.modes.flag := by
  rcases csiState_cases (d := d) s c with h | ⟨heq, hp⟩
  · exact h.flags
  · rw [heq]
    exact csiGetpars_flag_zero rfl rfl hp c

/-! ### The emulator -/

/-- The byte sets or resets modes, or resets the console. -/
def Con.setsModes (s : Con) (c : Nat) : Bool :=
  match s.ps.state with
  | .esc => c == 0x3d || c == 0x3e || c == 0x63
  | .csiExclam => c == 0x70
  | .csiGetpars | .csiGotpars => c == 0x68 || c == 0x6c
  | _ => false

/-- What the emulator does to a console that is not in front, one of three bytes apart. -/
theorem quiet_emulateState {c : Nat} (hp : s.pokes c = false) (hm : s.deselects c = false)
    (ha : s.aligns c = false) : Quiet s (emulateState d s c) := by
  have hi := frame_setState s .init
  have hfinal (he : s.ps.state.takesFinal = true) :
      ¬(c = 0x5d ∧ (s.ps.priv1 || s.ps.priv2 || s.ps.priv3 || s.ps.priv4) = false ∧
        isPoke (s.ps.par 0) = true) ∧ ¬(c = 0x6d ∧ s.ps.priv4 = true) := by
    constructor
    · rintro ⟨rfl, hpriv, hpoke⟩
      simp [Con.pokes, he, hpriv, hpoke] at hp
    · rintro ⟨rfl, hpriv⟩
      simp [Con.deselects, he, hpriv] at hm
  rw [emulateState.eq_def]
  split
  case h_1 => exact quiet_escState s c
  case h_2 => exact (frame_acsState s c).quiet
  case h_3 => exact (frame_oscState s c).quiet
  case h_4 => exact (frame_paletteState s c).quiet
  case h_5 => exact quiet_csiState s c
  case h_6 hs =>
    have hf := hfinal (by rw [hs]; rfl)
    exact quiet_csiGetpars hf.1 hf.2
  case h_7 hs =>
    have hf := hfinal (by rw [hs]; rfl)
    exact quiet_csiGotpars hf.1 hf.2
  case h_8 => exact .ite (fun _ => hi.quiet.trans (quiet_vteRis _ true)) fun _ => hi.quiet
  case h_9 => exact .ite (fun _ => (hi.trans (frame_vteDecscl _)).quiet) fun _ => hi.quiet
  case h_10 => exact .ite (fun _ => (hi.trans (frame_vteDecrqm _ _)).quiet) fun _ => hi.quiet
  case h_11 => exact (frame_docsState s c).quiet
  case h_12 hs =>
    refine (frame_scfState (fun h => ?_) s).quiet
    simp [Con.aligns, hs, h] at ha
  case h_13 | h_14 | h_15 | h_16 => exact (frame_designateState _ _ _ s c).quiet
  all_goals exact hi.quiet

theorem emulateState_flag {c : Nat} (h : s.setsModes c = false) :
    (emulateState d s c).modes.flag = s.modes.flag := by
  have hi := frame_setState s .init
  rw [emulateState.eq_def]
  rw [Con.setsModes.eq_def] at h
  split
  case h_1 hs =>
    simp only [hs, Bool.or_eq_false_iff, beq_eq_false_iff_ne] at h
    exact escState_flag h.1.1 h.1.2 h.2 s
  case h_2 => exact (frame_acsState s c).flags
  case h_3 => exact (frame_oscState s c).flags
  case h_4 => exact (frame_paletteState s c).flags
  case h_5 => exact csiState_flag s c
  case h_6 hs =>
    simp only [hs, Bool.or_eq_false_iff, beq_eq_false_iff_ne] at h
    exact csiGetpars_flag h.1 h.2 s
  case h_7 hs =>
    simp only [hs, Bool.or_eq_false_iff, beq_eq_false_iff_ne] at h
    exact csiGotpars_flag h.1 h.2 s
  case h_8 hs =>
    simp only [hs, beq_eq_false_iff_ne] at h
    rw [csiExclamState, if_neg h]
    rfl
  case h_9 => exact (Keeps.ite (fun _ => (hi.trans (frame_vteDecscl _)).toKeeps)
    fun _ => hi.toKeeps).flags
  case h_10 => exact (Keeps.ite (fun _ => (hi.trans (frame_vteDecrqm _ _)).toKeeps)
    fun _ => hi.toKeeps).flags
  case h_11 => exact (frame_docsState s c).flags
  case h_12 => exact (keeps_scfState s c).flags
  case h_13 | h_14 | h_15 | h_16 => exact (frame_designateState _ _ _ s c).flags
  all_goals rfl

theorem steady_emulateState (s : Con) (c : Nat) : Steady s (emulateState d s c) := by
  by_cases hf : s.ps.state.takesFinal = true
  · rw [emulateState.eq_def]
    split
    case h_6 => exact steady_csiGetpars s c
    case h_7 => exact steady_csiGotpars s c
    all_goals simp_all [EsState.takesFinal]
  by_cases hs : s.ps.state = .scf
  · rw [emulateState, hs]
    exact (keeps_scfState s c).steady
  · refine (quiet_emulateState ?_ ?_ ?_).steady
    · simp [Con.pokes, hf]
    · simp [Con.deselects, hf]
    · simp [Con.aligns, hs]

/-- A byte is a control character, or it is taken in the state of the parser. -/
theorem terminalEmulation_cases (s : Con) (c : Nat) :
    Frame s (terminalEmulation d s c) ∨ terminalEmulation d s c = emulateState d s c := by
  rw [terminalEmulation]
  split
  case h_1 s' he => exact .inl (frame_c0Control s c s' he)
  split
  case h_1 s' he =>
    split at he
    · exact .inl (frame_c1Control s c s' he)
    · contradiction
  case h_2 => exact .inr rfl

theorem quiet_terminalEmulation {c : Nat} (hp : s.pokes c = false) (hm : s.deselects c = false)
    (ha : s.aligns c = false) : Quiet s (terminalEmulation d s c) := by
  rcases terminalEmulation_cases (d := d) s c with h | heq
  · exact h.quiet
  · rw [heq]
    exact quiet_emulateState hp hm ha

theorem terminalEmulation_flag {c : Nat} (h : s.setsModes c = false) :
    (terminalEmulation d s c).modes.flag = s.modes.flag := by
  rcases terminalEmulation_cases (d := d) s c with hf | heq
  · exact hf.flags
  · rw [heq]
    exact emulateState_flag h

theorem steady_terminalEmulation (s : Con) (c : Nat) : Steady s (terminalEmulation d s c) := by
  rcases terminalEmulation_cases (d := d) s c with h | heq
  · exact h.steady
  · rw [heq]
    exact steady_emulateState s c

end LinuxConsole

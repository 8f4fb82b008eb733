import LinuxConsole.Vc.Grid
import LinuxConsole.Vcs.Overlay

/-!
# Stale cells

A grid of displayed cells may show the screen of a console but for some cells, which are stale:
`ShowsBut`.  `Leaves v S S' s s'` says that **the calls made on the way from `s` to `s'` leave the cells
`S'` stale** if `S` were so before.  A cell that is written becomes stale, unless it had that value
already; drawing and hiding a software cursor leaves no cell stale; `do_update_region` refreshes its
region.
-/

namespace LinuxConsole

open Lib

variable {d : Nat → Driver} {v : View} {s s' s'' : Con} {S S' S'' T : Set Nat}

/-! ### Leaving cells stale -/

/-- The grid shows the screen but for the cells in `S`. -/
def ShowsBut (g : Grid) (s : Con) (S : Set Nat) : Prop :=
  ∀ y x, y < s.geo.rows → x < s.geo.cols → y * s.geo.cols + x ∉ S → g y x = s.cellAt y x

theorem showsBut_empty (g : Grid) (s : Con) : ShowsBut g s ∅ ↔ Shows g s :=
  ⟨fun h y x hy hx => h y x hy hx (Set.notMem_empty _), fun h y x hy hx _ => h y x hy hx⟩

/-- A console in front that is viewed where it begins, its rows one behind the other, with the cursor
in a row.  A cursor that is drawn is a software cursor. -/
structure Fronted (v : View) (s : Con) : Prop where
  hook : v.conScreenPos = none
  origin : v.visibleOrigin = s.geo.origin
  visible : s.vt.visible = true
  sizeRow : s.geo.sizeRow = 2 * s.geo.cols
  pos : s.cur.pos = s.geo.origin + 2 * (s.cur.y * s.geo.cols + s.cur.x)
  x_lt : s.cur.x < s.geo.cols
  soft : s.vt.cursorOriginal.isSome → s.rend.cursorType &&& 0x10#32 ≠ 0

theorem Fronted.congr (h : Fronted v s) (hv : s'.vt.visible = s.vt.visible) (hgeo : s'.geo = s.geo)
    (hcur : s'.cur = s.cur)
    (hsoft : s'.vt.cursorOriginal.isSome → s'.rend.cursorType &&& 0x10#32 ≠ 0) : Fronted v s' := by
  refine ⟨h.hook, ?_, hv.trans h.visible, ?_, ?_, ?_, hsoft⟩
  · rw [hgeo, h.origin]
  · rw [hgeo, h.sizeRow]
  · rw [hcur, hgeo, h.pos]
  · rw [hcur, hgeo]
    exact h.x_lt

/-- **The calls made on the way** to `s'` leave the cells `S'` stale. -/
structure Leaves (v : View) (S S' : Set Nat) (s s' : Con) : Prop where
  fronted : Fronted v s'
  geo : s'.geo = s.geo
  drawn : ∃ ds, s'.draws = s.draws ++ ds ∧
    ∀ g, ShowsBut g s S → ShowsBut (g.replay s.geo ds) s' S'

theorem Leaves.trans (h : Leaves v S S' s s') (h' : Leaves v S' S'' s' s'') : Leaves v S S'' s s'' := by
  obtain ⟨-, hgeo, ds, hds, hshow⟩ := h
  obtain ⟨hf, hgeo', ds', hds', hshow'⟩ := h'
  refine ⟨hf, hgeo'.trans hgeo, ds ++ ds', by rw [hds', hds, List.append_assoc], fun g hg => ?_⟩
  rw [replay_append, ← hgeo]
  rw [← hgeo] at hshow
  exact hshow' _ (hshow g hg)

theorem Leaves.mono (h : Leaves v S S' s s') (hle : S' ⊆ T) : Leaves v S T s s' := by
  obtain ⟨hf, hgeo, ds, hds, hshow⟩ := h
  exact ⟨hf, hgeo, ds, hds, fun g hg y x hy hx hi => hshow g hg y x hy hx fun hs => hi (hle hs)⟩

theorem Leaves.refl (h : Fronted v s) (S : Set Nat) : Leaves v S S s s :=
  ⟨h, rfl, [], (List.append_nil _).symm, fun _ hg => hg⟩

theorem Leaves.ite {p : Prop} [Decidable p] {a b : Con} (ha : p → Leaves v S S' s a)
    (hb : ¬p → Leaves v S S' s b) : Leaves v S S' s (if p then a else b) := by
  split
  case isTrue h => exact ha h
  case isFalse h => exact hb h

/-- A step whose calls bring the grid where the screen is, but for the cells in `S'`. -/
theorem Leaves.of_cells (ds : List Draw) (hf : Fronted v s') (hgeo : s'.geo = s.geo)
    (hdraws : s'.draws = s.draws ++ ds)
    (h : ∀ g i j, ShowsBut g s S → i < s.geo.rows → j < s.geo.cols → i * s.geo.cols + j ∉ S' →
      g.replay s.geo ds i j = s'.cellAt i j) : Leaves v S S' s s' := by
  refine ⟨hf, hgeo, ds, hdraws, fun g hg y x hy hx hi => ?_⟩
  rw [hgeo] at hy hx hi
  exact h g y x hg hy hx hi

/-- A step that draws nothing and writes nothing to memory. -/
theorem Leaves.of_eq (hf : Fronted v s') (hgeo : s'.geo = s.geo) (hdraws : s'.draws = s.draws)
    (hmem : s'.mem = s.mem) : Leaves v S S s s' := by
  refine .of_cells [] hf hgeo (hdraws.trans (List.append_nil _).symm)
    fun g i j hg hi hj hs => ?_
  have hcell : s'.cellAt i j = s.cellAt i j := by rw [Con.cellAt, Con.cellAt, hgeo, hmem]
  exact (hg i j hi hj hs).trans hcell.symm

theorem leaves_draw (h : Fronted v s) {c : Draw} (hc : ∀ g, Grid.draw s.geo g c = g) (S : Set Nat) :
    Leaves v S S s (s.draw [c]) :=
  .of_cells _ (h.congr rfl rfl rfl h.soft) rfl rfl fun g i j hg hi hj hs =>
    (congrFun (congrFun (hc g) i) j).trans (hg i j hi hj hs)

/-! ### Writing and drawing a cell -/

theorem leaves_scrWritew (h : Fronted v s) (w : Cell) (q : Nat) (S : Set Nat) :
    Leaves v S (insert q S) s (s.scrWritew w (s.geo.origin + 2 * q)) := by
  refine .of_cells [] (h.congr rfl rfl rfl h.soft) rfl (List.append_nil _).symm
    fun g i j hg hi hj hs => ?_
  rw [Set.mem_insert_iff, not_or] at hs
  rw [cellAt_scrWritew h.sizeRow, if_neg hs.1]
  exact hg i j hi hj hs.2

theorem leaves_putc (h : Fronted v s) (w : Cell) {y x a : Nat} (hx : x < s.geo.cols)
    (ha : a = s.geo.origin + 2 * (y * s.geo.cols + x)) (S : Set Nat) :
    Leaves v S (S \ {y * s.geo.cols + x}) s ((s.scrWritew w a).draw [.putc w y x]) := by
  refine .of_cells _ (h.congr rfl rfl rfl h.soft) rfl rfl fun g i j hg hi hj hs => ?_
  have hcell := cellAt_scrWritew h.sizeRow (y * s.geo.cols + x) w i j
  have hrow := linear_row (i := i) (y := y) (x := x) (n := 1) hj (by omega)
  rw [← ha] at hcell
  refine Eq.trans ?_ hcell.symm
  show (if i = y ∧ x ≤ j ∧ j < x + 1 then [w].getD (j - x) 0 else g i j) = _
  by_cases hat : i = y ∧ x ≤ j ∧ j < x + 1
  · have hindex : j - x = 0 := by omega
    have hplace := hrow.mpr hat
    rw [if_pos hat, if_pos (by omega), hindex]
    rfl
  · have hplace : i * s.geo.cols + j ≠ y * s.geo.cols + x := fun heq => hat (hrow.mp (by omega))
    rw [if_neg hat, if_neg hplace]
    exact hg i j hi hj fun hmem => hs ⟨hmem, hplace⟩

/-- **`do_update_region`** refreshes its region. -/
theorem leaves_doUpdateRegion (h : Fronted v s) (q n : Nat) (S : Set Nat) :
    Leaves v S (S \ {i | q ≤ i ∧ i < q + n}) s (doUpdateRegion s (s.geo.origin + 2 * q) n) := by
  refine .of_cells _ (h.congr rfl rfl rfl h.soft) rfl rfl fun g i j hg hi hj hs => ?_
  have hoffset : (s.geo.origin + 2 * q - s.geo.origin) / 2 = q := by omega
  have hcols : 0 < s.geo.cols := Nat.zero_lt_of_lt hj
  have hlen : (s.cells (s.geo.origin + 2 * q) n).length = n := by
    rw [Con.cells, List.length_map, List.length_range]
  have hruns := putRuns_updateRuns s.geo.cols (s.cells (s.geo.origin + 2 * q) n) [] (q / s.geo.cols)
    (q % s.geo.cols) g i j hj (Nat.le_of_lt (Nat.mod_lt q hcols))
  rw [List.nil_append, hlen, Nat.div_add_mod'] at hruns
  show g.putRuns (updateRuns s.geo.cols [] ((s.geo.origin + 2 * q - s.geo.origin) / 2 / s.geo.cols)
    ((s.geo.origin + 2 * q - s.geo.origin) / 2 % s.geo.cols) _) i j = s.cellAt i j
  rw [hoffset, hruns]
  split
  case isTrue hin =>
    have haddr : s.geo.origin + 2 * q + 2 * (i * s.geo.cols + j - q) =
        s.geo.origin + 2 * (i * s.geo.cols + j) := by omega
    rw [cellAt_eq h.sizeRow, ← haddr, Con.cells,
      List.getD_eq_getElem _ _ (by rw [List.length_map, List.length_range]; omega),
      List.getElem_map, List.getElem_range]
  case isFalse hout => exact hg i j hi hj fun hmem => hs ⟨hmem, hout⟩

theorem leaves_invertAt (h : Fronted v s) (D : Driver) (q n : Nat) (S : Set Nat) :
    Leaves v S S s (invertAt D s (s.geo.origin + 2 * q) n) := by
  have hinverted : Leaves v S (S ∪ {i | q ≤ i ∧ i < q + n}) s
      (s.mapCells (s.geo.origin + 2 * q) n (invertHook D s)) := by
    refine .of_cells [] (h.congr rfl rfl rfl h.soft) rfl (List.append_nil _).symm
      fun g i j hg hi hj hs => ?_
    rw [Set.mem_union, not_or] at hs
    rw [cellAt_mapCells h.sizeRow]
    exact (hg i j hi hj hs.1).trans (if_neg hs.2).symm
  have hv : (s.mapCells (s.geo.origin + 2 * q) n (invertHook D s)).vt.visible = true := h.visible
  rw [invertAt, if_pos hv]
  refine (hinverted.trans (leaves_doUpdateRegion hinverted.fronted q n _)).mono ?_
  rintro i ⟨hi | hi, hout⟩
  · exact hi
  · exact absurd hi hout

/-! ### The software cursor -/

/-- A cell under a software cursor, as it is drawn, with what is saved under it. -/
theorem leaves_over (h : Fronted v s) (htype : s.rend.cursorType &&& 0x10#32 ≠ 0) (i : Cell)
    (o : Option Cell) (S : Set Nat) :
    Leaves v S (S \ {s.cur.y * s.geo.cols + s.cur.x}) s
      (({ s with vt.cursorOriginal := o }.scrWritew i s.cur.pos).draw
        [.putc i s.cur.y s.cur.x]) := by
  have hsaved : Leaves v S S s { s with vt.cursorOriginal := o } :=
    .of_eq (h.congr rfl rfl rfl fun _ => htype) rfl rfl rfl
  have hf := hsaved.fronted
  exact hsaved.trans (leaves_putc hf i hf.x_lt hf.pos S)

/-- The cell the cursor is drawn over is not stale. -/
theorem leaves_drawnSoftcursor (h : Fronted v s) (htype : s.rend.cursorType &&& 0x10#32 ≠ 0)
    (hnone : s.vt.cursorOriginal = none) (S : Set Nat) :
    Leaves v S (S \ {s.cur.y * s.geo.cols + s.cur.x}) s (addSoftcursor s) := by
  rw [addSoftcursor, if_neg htype, hnone]
  refine .ite (fun hsome => absurd hsome Bool.false_ne_true) fun _ => ?_
  dsimp only
  exact .ite (fun _ => leaves_over h htype _ _ S) fun hv => absurd h.visible hv

theorem leaves_addSoftcursor (h : Fronted v s) (S : Set Nat) : Leaves v S S s (addSoftcursor s) := by
  by_cases htype : s.rend.cursorType &&& 0x10#32 = 0
  · rw [addSoftcursor, if_pos htype]
    exact .refl h S
  cases ho : s.vt.cursorOriginal with
  | none => exact (leaves_drawnSoftcursor h htype ho S).mono Set.sdiff_subset
  | some o =>
    rw [addSoftcursor, if_neg htype, ho]
    exact .ite (fun _ => .refl h S) fun hsome => absurd rfl hsome

theorem leaves_hideCursor (h : Fronted v s) (S : Set Nat) : Leaves v S S s (hideCursor s) := by
  have herase : Leaves v S S s (s.draw [.cursorErase]) := leaves_draw h (fun _ => rfl) S
  rw [hideCursor]
  refine herase.trans ?_
  have hf := herase.fronted
  generalize s.draw [.cursorErase] = s₁ at hf
  rw [hideSoftcursor]
  split
  · exact .refl hf S
  · next orig _ =>
    have hput := leaves_putc hf orig hf.x_lt hf.pos S
    dsimp only
    refine (hput.mono Set.sdiff_subset).trans ?_
    have hv : (s₁.scrWritew orig s₁.cur.pos).vt.visible = true := hf.visible
    rw [if_pos hv]
    refine .of_eq (hput.fronted.congr rfl rfl rfl fun hsome => ?_) rfl rfl rfl
    exact absurd hsome Bool.false_ne_true

theorem leaves_setCursor (h : Fronted v s) (S : Set Nat) : Leaves v S S s (setCursor s) := by
  rw [setCursor]
  refine .ite (fun _ => .refl h S) fun _ => .ite (fun _ => ?_) fun _ => leaves_hideCursor h S
  have hadd := leaves_addSoftcursor h S
  exact .ite (fun _ => hadd.trans (leaves_draw hadd.fronted (fun _ => rfl) S)) fun _ => hadd

/-! ### Cells that change -/

theorem Fronted.paved (h : Fronted v s) : Paved v s :=
  ⟨h.hook, h.sizeRow, Nat.zero_lt_of_lt h.x_lt⟩

theorem Fronted.viewedAddr (h : Fronted v s) (i : Nat) :
    viewedAddr v s i = s.geo.origin + 2 * i := by
  rw [viewedAddr_base h.paved, viewedBase, if_pos h.visible, h.origin]

theorem Fronted.place (h : Fronted v s) (q : Nat) : place v s q = s.geo.origin + 2 * q :=
  (place_eq h.paved q).trans (h.viewedAddr q)

/-- The cells whose value changes. -/
def Changed (v : View) (s s' : Con) : Set Nat := {i | viewedCell v s' i ≠ viewedCell v s i}

/-- The console as `vcs_scr_writew` has written to it, with no cursor saved. -/
theorem leaves_unsaved (h : Fronted v s) (val : Cell) (q : Nat) (S : Set Nat) :
    Leaves v S (insert q S) s
      { s.scrWritew val (s.geo.origin + 2 * q) with vt.cursorOriginal := none } := by
  have hwrite := leaves_scrWritew h val q S
  refine hwrite.trans (.of_eq (hwrite.fronted.congr rfl rfl rfl fun hsome => ?_) rfl rfl rfl)
  exact absurd hsome Bool.false_ne_true

/-- A cell that is written through `vcs_scr_writew` may be stale, and no other. -/
theorem leaves_written (h : Fronted v s) (val : Cell) (q : Nat) (S : Set Nat) :
    Leaves v S (insert q S) s (vcsScrWritew s val (s.geo.origin + 2 * q)) := by
  have hunsaved := leaves_unsaved h val q S
  rw [vcsScrWritew]
  dsimp only
  refine .ite (fun _ => ?_) fun _ => leaves_scrWritew h val q S
  exact hunsaved.trans (leaves_addSoftcursor hunsaved.fronted _)

/-- If it had that value already, it is not stale: a software cursor over it is drawn again. -/
theorem leaves_rewritten (h : Fronted v s) {val : Cell} {q : Nat}
    (hsame : vcsScrReadw s (s.geo.origin + 2 * q) = val) (S : Set Nat) :
    Leaves v S S s (vcsScrWritew s val (s.geo.origin + 2 * q)) := by
  rw [vcsScrReadw] at hsame
  rw [vcsScrWritew]
  dsimp only
  refine .ite (fun horg => ?_) fun horg => ?_
  · change s.geo.origin + 2 * q = s.cur.pos at horg
    rw [if_pos horg] at hsame
    have hunsaved := leaves_unsaved h val q S
    have hq : q = s.cur.y * s.geo.cols + s.cur.x := by
      have hpos := h.pos
      omega
    by_cases htype : s.rend.cursorType &&& 0x10#32 = 0
    · have hnone : s.vt.cursorOriginal = none := by
        rw [← Option.not_isSome_iff_eq_none]
        exact fun hsome => h.soft hsome htype
      rw [hnone] at hsame
      refine Leaves.trans (.of_eq hunsaved.fronted rfl rfl ?_)
        (leaves_addSoftcursor hunsaved.fronted S)
      change Function.update s.mem (s.geo.origin + 2 * q) val = s.mem
      rw [← hsame]
      exact Function.update_eq_self _ _
    · refine (hunsaved.trans (leaves_drawnSoftcursor hunsaved.fronted htype rfl _)).mono ?_
      rintro i ⟨hi, hne⟩
      exact (Set.mem_insert_iff.mp hi).resolve_left fun heq => hne (heq.trans hq)
  · change ¬s.geo.origin + 2 * q = s.cur.pos at horg
    rw [if_neg horg] at hsame
    refine .of_eq (h.congr rfl rfl rfl h.soft) rfl rfl ?_
    change Function.update s.mem (s.geo.origin + 2 * q) val = s.mem
    rw [← hsame]
    exact Function.update_eq_self _ _

/-- **A cell that is written is stale if its value changes.** -/
theorem leaves_vcsScrWritew (h : Fronted v s) (val : Cell) (q : Nat) (S : Set Nat) :
    Leaves v S (S ∪ Changed v s (vcsScrWritew s val (place v s q))) s
      (vcsScrWritew s val (place v s q)) := by
  have hread : viewedCell v s q = vcsScrReadw s (s.geo.origin + 2 * q) := by
    rw [viewedCell, h.viewedAddr]
  by_cases hsame : viewedCell v s q = val
  · have hleaves := leaves_rewritten h (hread.symm.trans hsame) S
    rw [← h.place] at hleaves
    exact hleaves.mono Set.subset_union_left
  · have hleaves := leaves_written h val q S
    rw [← h.place] at hleaves
    refine hleaves.mono (Set.insert_subset (.inr ?_) Set.subset_union_left)
    change viewedCell v (vcsScrWritew s val (place v s q)) q ≠ viewedCell v s q
    rw [viewedCell_write h.paved, Function.update_self]
    exact Ne.symm hsame

/-! ### The selection -/

variable {st st' st'' : Selection} {k : Nat}

/-- The pointer on the selected console is where `complement_pos` has drawn it, and the highlight
begins at a cell. -/
structure Tidy (st : Selection) (k : Nat) : Prop where
  pointer : st.selCons = some k → ∀ p, st.pointer = some p → p.con = k ∧
    st.oldx < (st.cons k).geo.cols ∧
    p.addr = (st.cons k).geo.origin + 2 * (st.oldy * (st.cons k).geo.cols + st.oldx)
  start : st.selCons = some k → ∀ start, st.selStart = some start → start % 2 = 0

/-- What a step makes of console `k` and leaves stale. -/
structure Sweeps (k : Nat) (S S' : Set Nat) (st st' : Selection) : Prop where
  leaves : Leaves (st.view k) S S' (st.cons k) (st'.cons k)
  tidy : Tidy st' k
  origin : st'.visibleOrigin = st.visibleOrigin

theorem Sweeps.view (h : Sweeps k S S' st st') : st'.view k = st.view k := by
  rw [Selection.view, Selection.view, h.origin]

theorem Sweeps.fronted (h : Sweeps k S S' st st') : Fronted (st'.view k) (st'.cons k) := by
  rw [h.view]
  exact h.leaves.fronted

theorem Sweeps.trans (h : Sweeps k S S' st st') (h' : Sweeps k S' S'' st' st'') :
    Sweeps k S S'' st st'' := by
  have hleaves := h'.leaves
  rw [h.view] at hleaves
  exact ⟨h.leaves.trans hleaves, h'.tidy, h'.origin.trans h.origin⟩

theorem Sweeps.mono (h : Sweeps k S S' st st') (hle : S' ⊆ T) : Sweeps k S T st st' :=
  { h with leaves := h.leaves.mono hle }

theorem Sweeps.refl (h : Fronted (st.view k) (st.cons k)) (ht : Tidy st k) (S : Set Nat) :
    Sweeps k S S st st := ⟨.refl h S, ht, rfl⟩

theorem Sweeps.ite {p : Prop} [Decidable p] {a b : Selection} (ha : p → Sweeps k S S' st a)
    (hb : ¬p → Sweeps k S S' st b) : Sweeps k S S' st (if p then a else b) := by
  split
  case isTrue h => exact ha h
  case isFalse h => exact hb h

theorem sweeps_onCon (ht : Tidy st k) {f : Con → Con}
    (h : Leaves (st.view k) S S' (st.cons k) (f (st.cons k))) : Sweeps k S S' st (st.onCon k f) := by
  have hself := st.onCon_self k f
  refine ⟨by rw [hself]; exact h, ⟨fun hsel p hp => ?_, ht.start⟩, rfl⟩
  rw [hself, h.geo]
  exact ht.pointer hsel p hp

theorem sweeps_hidePointer (h : Fronted (st.view k) (st.cons k)) (ht : Tidy st k)
    (hsel : st.selCons = some k) (S : Set Nat) : Sweeps k S S st (hidePointer st) := by
  cases hp : st.pointer with
  | none =>
    rw [hidePointer, hp]
    exact .refl h ht S
  | some p =>
    obtain ⟨hk, hx, haddr⟩ := ht.pointer hsel p hp
    have hput := leaves_putc h p.old hx haddr S
    have hdrawn : hidePointer st =
        st.onCon k fun s => (s.scrWritew p.old p.addr).draw [.putc p.old st.oldy st.oldx] := by
      have hsel' : (st.onCon k fun s => s.scrWritew p.old p.addr).selCons = some k := hsel
      rw [hidePointer, hp]
      dsimp only
      rw [hk, hsel']
      dsimp only
      rw [Selection.onCon_onCon]
      exact st.onCon_congr (if_pos h.visible)
    rw [hdrawn]
    exact sweeps_onCon ht (hput.mono Set.sdiff_subset)

/-- **`clear_selection`** refreshes the cells it changes. -/
theorem sweeps_clearSelection (h : Fronted (st.view k) (st.cons k)) (ht : Tidy st k)
    (hsel : st.selCons = some k) (S : Set Nat) : Sweeps k S S st (clearSelection d st) := by
  have hhide := sweeps_hidePointer h ht hsel S
  have hends := sameEnds_highlightPointer_none st
  have hclear : Tidy (clearSelection d st) k := by
    refine ⟨fun _ p hp => ?_, fun _ start hs => ?_⟩
    · rw [pointer_clearSelection] at hp
      exact absurd hp.symm (Option.some_ne_none p)
    · rw [selStart_clearSelection] at hs
      exact absurd hs.symm (Option.some_ne_none start)
  refine ⟨?_, hclear, visibleOrigin_clearSelection st⟩
  rw [clearSelection]
  dsimp only
  cases hstart : (highlightPointer st none).selStart with
  | none => exact hhide.leaves
  | some start =>
    have heven : start % 2 = 0 := ht.start hsel start (hends.selStart.symm.trans hstart)
    have hf : Fronted (st.view k) ((hidePointer st).cons k) := hhide.leaves.fronted
    refine hhide.leaves.trans ?_
    have hpos : screenpos ((highlightPointer st none).view k) ((hidePointer st).cons k) start true =
        ((hidePointer st).cons k).geo.origin + 2 * (start / 2) := by
      have hview : (highlightPointer st none).visibleOrigin k = ((hidePointer st).cons k).geo.origin := by
        rw [hends.origin]
        exact hf.origin
      change (highlightPointer st none).visibleOrigin k + start = _
      rw [hview]
      omega
    have hcon : (highlightSel d (highlightPointer st none) start
        (highlightPointer st none).selEnd).cons k =
        invertAt (d k) ((hidePointer st).cons k) (((hidePointer st).cons k).geo.origin + 2 * (start / 2))
          (((highlightPointer st none).selEnd - start + 2) / 2) := by
      rw [highlightSel, hends.selCons, hsel]
      change ((highlightPointer st none).onCon k fun s => highlight (d k)
        ((highlightPointer st none).view k) s start (highlightPointer st none).selEnd).cons k = _
      rw [Selection.onCon_self, highlight, invertViewed]
      change invertAt (d k) ((hidePointer st).cons k)
        (screenpos ((highlightPointer st none).view k) ((hidePointer st).cons k) start true) _ = _
      rw [hpos]
    change Leaves (st.view k) S S ((hidePointer st).cons k) ((highlightSel d (highlightPointer st none)
      start (highlightPointer st none).selEnd).cons k)
    rw [hcon]
    exact leaves_invertAt hf _ _ _ S

theorem sweeps_clear (h : Fronted (st.view k) (st.cons k)) (ht : Tidy st k) (S : Set Nat) :
    Sweeps k S S st (if st.selCons = some k then clearSelection d st else st) :=
  .ite (fun hsel => sweeps_clearSelection h ht hsel S) fun _ => .refl h ht S

theorem sweeps_hideCursorOn (h : Fronted (st.view k) (st.cons k)) (ht : Tidy st k) (S : Set Nat) :
    Sweeps k S S st (hideCursorOn d st k) := by
  have hclear := sweeps_clear (d := d) h ht S
  exact hclear.trans (sweeps_onCon hclear.tidy (leaves_hideCursor hclear.fronted S))

theorem sweeps_setCursorOn (h : Fronted (st.view k) (st.cons k)) (ht : Tidy st k) (S : Set Nat) :
    Sweeps k S S st (setCursorOn d st k) := by
  rw [setCursorOn]
  refine .ite (fun _ => .refl h ht S) fun _ => .ite (fun _ => ?_) fun _ => sweeps_hideCursorOn h ht S
  have hclear := sweeps_clear (d := d) h ht S
  exact hclear.trans (sweeps_onCon hclear.tidy (leaves_setCursor hclear.fronted S))

/-- **`update_region`** refreshes its region. -/
theorem sweeps_updateRegion (h : Fronted (st.view k) (st.cons k)) (ht : Tidy st k) (q n : Nat)
    (S : Set Nat) : Sweeps k S (S \ {i | q ≤ i ∧ i < q + n}) st
      (updateRegion d st k ((st.cons k).geo.origin + 2 * q) n) := by
  have hhide := sweeps_hideCursorOn (d := d) h ht S
  have hregion := leaves_doUpdateRegion hhide.fronted q n S
  rw [hhide.leaves.geo] at hregion
  have hdrawn := hhide.trans (sweeps_onCon (f := fun s => doUpdateRegion s _ n) hhide.tidy hregion)
  rw [updateRegion, if_pos h.visible]
  exact hdrawn.trans (sweeps_setCursorOn hdrawn.fronted hdrawn.tidy _)

end LinuxConsole

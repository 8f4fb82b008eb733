import LinuxConsole.Lib.Flip
import LinuxConsole.Lib.Run
import LinuxConsole.Sel.Selection

/-!
# The highlight of the selection

`set_selection` moves the highlight by inverting what changes: the cells that come to the selection
at one of its ends or leave it there, or the old selection and the new one.  The cells that are
inverted relative to the start are a set, and inverting a region changes it by the symmetric
difference with that region.

`Marked` follows the set through the steps of one call, with the cell under the pointer taken as
the one that comes back when the pointer is hidden.  `highlight_follows` is the result: **after any
sequence of calls the inverted cells are those of the selection**, on `sel_cons` and nowhere else.
-/

namespace LinuxConsole

open Lib
open scoped symmDiff

variable {d : Nat → Driver} {st₀ st : Selection} {S : Set Nat} {cons : Nat → Con}
  {sel : Option Nat} {ptr : Option Pointer}

/-! ### The screens without the pointer -/

/-- The memory of console `k` without the pointer. -/
def unpointed (cons : Nat → Con) (ptr : Option Pointer) (k : Nat) : Nat → Cell :=
  match ptr with
  | none => (cons k).mem
  | some p => if p.con = k then Function.update (cons k).mem p.addr p.old else (cons k).mem

theorem unpointed_none (cons : Nat → Con) (k : Nat) : unpointed cons none k = (cons k).mem := rfl

theorem unpointed_some (cons : Nat → Con) (p : Pointer) (k : Nat) : unpointed cons (some p) k =
    if p.con = k then Function.update (cons k).mem p.addr p.old else (cons k).mem := rfl

/-- The consoles a run begins with: whole rows, a driver that inverts like the VGA driver or without
a hook, an inversion that undoes itself, and neither a selection nor a pointer. -/
structure Ready (d : Nat → Driver) (st₀ : Selection) : Prop where
  hook : ∀ k, (d k).conInvertRegion = none ∨ (d k).conInvertRegion = some vgaconInvertRegion
  involutive : ∀ k, Function.Involutive (invertHook (d k) (st₀.cons k))
  sizeRow : ∀ k, (st₀.cons k).geo.sizeRow = 2 * (st₀.cons k).geo.cols
  cols : ∀ k, 0 < (st₀.cons k).geo.cols
  selStart : st₀.selStart = none
  pointer : st₀.pointer = none

/-- The consoles are those of the start in everything but their cells, and the cells inverted since
then are those numbered by `S` on `sel_cons`. -/
structure Marked (d : Nat → Driver) (st₀ : Selection) (S : Set Nat) (cons : Nat → Con)
    (sel : Option Nat) (ptr : Option Pointer) : Prop where
  geo : ∀ k, (cons k).geo = (st₀.cons k).geo
  rend : ∀ k, (cons k).rend = (st₀.cons k).rend
  cells : ∀ k, unpointed cons ptr k = flipOn (invertHook (d k) (st₀.cons k))
    {b | sel = some k ∧ b ∈ stride (st₀.visibleOrigin k) S} (st₀.cons k).mem

theorem Marked.replace (h : Marked d st₀ S cons sel ptr) {k : Nat} {c : Con}
    {T : Set Nat} {sel' : Option Nat} {ptr' : Option Pointer}
    (hgeo : c.geo = (cons k).geo) (hrend : c.rend = (cons k).rend)
    (hcells : ∀ j, unpointed (Function.update cons k c) ptr' j =
      flipOn (invertHook (d j) (st₀.cons j))
        {b | sel' = some j ∧ b ∈ stride (st₀.visibleOrigin j) T} (st₀.cons j).mem) :
    Marked d st₀ T (Function.update cons k c) sel' ptr' := by
  refine ⟨fun j => ?_, fun j => ?_, hcells⟩
  · by_cases hj : j = k
    · rw [hj, Function.update_self, hgeo, h.geo]
    · rw [Function.update_of_ne hj, h.geo]
  · by_cases hj : j = k
    · rw [hj, Function.update_self, hrend, h.rend]
    · rw [Function.update_of_ne hj, h.rend]

theorem Marked.update (h : Marked d st₀ S cons sel ptr) {k : Nat} {c : Con}
    (hgeo : c.geo = (cons k).geo) (hrend : c.rend = (cons k).rend)
    (hmem : c.mem = (cons k).mem) : Marked d st₀ S (Function.update cons k c) sel ptr := by
  refine h.replace hgeo hrend fun j => ?_
  rw [← h.cells]
  have hj : (Function.update cons k c j).mem = (cons j).mem := by
    by_cases hj : j = k
    · rw [hj, Function.update_self, hmem]
    · rw [Function.update_of_ne hj]
  cases ptr with
  | none => rw [unpointed_none, unpointed_none, hj]
  | some p => rw [unpointed_some, unpointed_some, hj]

/-! ### The pointer -/

/-- **The pointer goes**: the cell it took the place of is written back. -/
theorem Marked.restore {p : Pointer} (h : Marked d st₀ S cons sel (some p)) :
    Marked d st₀ S (Function.update cons p.con ((cons p.con).scrWritew p.old p.addr)) sel none := by
  refine h.replace rfl rfl fun j => ?_
  rw [← h.cells, unpointed_none, unpointed_some]
  by_cases hj : p.con = j
  · subst hj
    rw [Function.update_self, if_pos rfl]
    rfl
  · rw [Function.update_of_ne (Ne.symm hj), if_neg hj]

/-- **The pointer comes**: it remembers the cell it takes the place of. -/
theorem Marked.point (h : Marked d st₀ S cons sel none) (k a : Nat) (new : Cell) :
    Marked d st₀ S (Function.update cons k ((cons k).scrWritew new a)) sel
      (some ⟨k, a, (cons k).mem a⟩) := by
  refine h.replace rfl rfl fun j => ?_
  rw [← h.cells, unpointed_none, unpointed_some]
  dsimp only
  by_cases hj : k = j
  · subst hj
    rw [Function.update_self, if_pos rfl]
    funext b
    rw [Function.update_apply]
    split
    case isTrue hb => rw [hb]
    case isFalse hb => exact Function.update_of_ne hb ..
  · rw [Function.update_of_ne (Ne.symm hj), if_neg hj]

theorem Marked.redraw (h : Marked d st₀ S cons sel ptr) (k : Nat) (p : Prop) [Decidable p]
    (ds : List Draw) : Marked d st₀ S
      (Function.update cons k (if p then (cons k).draw ds else cons k)) sel ptr := by
  split
  · exact h.update rfl rfl rfl
  · exact h.update rfl rfl rfl

theorem Marked.hidePointer (h : Marked d st₀ S st.cons st.selCons st.pointer) :
    Marked d st₀ S (LinuxConsole.hidePointer st).cons st.selCons none := by
  rw [LinuxConsole.hidePointer.eq_def]
  split
  case h_1 hp =>
    rw [hp] at h
    exact h
  case h_2 p hp =>
    rw [hp] at h
    dsimp only
    split
    · exact h.restore
    · next k _ => exact h.restore.redraw k _ _

theorem Marked.showPointer {k : Nat} (h : Marked d st₀ S st.cons st.selCons none)
    (hk : st.selCons = some k) (offset : Nat) :
    Marked d st₀ S (LinuxConsole.showPointer st offset).cons st.selCons
      (LinuxConsole.showPointer st offset).pointer := by
  rw [LinuxConsole.showPointer, hk]
  rw [hk] at h
  dsimp only
  split
  · exact (h.point k _ _).update rfl rfl rfl
  · exact h.point k _ _

/-! ### A region -/

/-- The cells `highlight` inverts, from `start` to `last`. -/
def span (start last : Nat) : Set Nat := Set.Ico (start / 2) (last / 2 + 1)

theorem mem_highlight (D : Driver) (vo : Nat) (s : Con) {start last : Nat} (hs : start % 2 = 0)
    (hl : last % 2 = 0) (hle : start ≤ last) : (highlight D ⟨vo, none⟩ s start last).mem =
      flipOn (invertHook D s) (stride vo (span start last)) s.mem := by
  funext b
  rw [highlight, invertViewed, mem_invertAt]
  have hregion : (screenpos ⟨vo, none⟩ s start true ≤ b ∧
      b < screenpos ⟨vo, none⟩ s start true + 2 * ((last - start + 2) / 2) ∧
      (b - screenpos ⟨vo, none⟩ s start true) % 2 = 0) ↔ b ∈ stride vo (span start last) := by
    have hpos : screenpos ⟨vo, none⟩ s start true = vo + start := rfl
    rw [hpos, mem_stride, span, Set.mem_Ico]
    omega
  by_cases hin : b ∈ stride vo (span start last)
  · rw [if_pos (hregion.mpr hin), flipOn_of_mem hin]
  · rw [if_neg (fun h => hin (hregion.mp h)), flipOn_of_notMem hin]

/-- **Inverting a region changes the set by the symmetric difference.** -/
theorem Marked.highlight (hr : Ready d st₀) {k start last : Nat}
    (h : Marked d st₀ S cons (some k) none) (hs : start % 2 = 0) (hl : last % 2 = 0)
    (hle : start ≤ last) :
    Marked d st₀ (span start last ∆ S) (Function.update cons k
      (LinuxConsole.highlight (d k) ⟨st₀.visibleOrigin k, none⟩ (cons k) start last)) (some k)
      none := by
  refine h.replace (geo_invertAt ..) (rend_invertAt ..) fun j => ?_
  rw [unpointed_none]
  have hcells := h.cells j
  rw [unpointed_none] at hcells
  by_cases hj : j = k
  · subst hj
    have hhook : invertHook (d j) (cons j) = invertHook (d j) (st₀.cons j) :=
      invertHook_congr (hr.hook j) (by rw [h.rend]) (by rw [h.rend])
    have hall : ∀ T, {b | some j = some j ∧ b ∈ stride (st₀.visibleOrigin j) T} =
        stride (st₀.visibleOrigin j) T := fun T => by simp
    rw [hall] at hcells
    rw [Function.update_self, mem_highlight _ _ _ hs hl hle, hhook, hcells, hall,
      flipOn_flipOn (hr.involutive j), stride_symmDiff]
  · have hnone : ∀ T, {b | some k = some j ∧ b ∈ stride (st₀.visibleOrigin j) T} = ∅ := by
      intro T
      ext b
      simp [Ne.symm hj]
    rw [hnone, flipOn_empty] at hcells
    rw [Function.update_of_ne hj, hcells, hnone, flipOn_empty]

/-! ### The functions of the source -/

/-- What the drawing functions leave alone. -/
structure SameEnds (st st' : Selection) : Prop where
  selCons : st'.selCons = st.selCons
  selStart : st'.selStart = st.selStart
  selEnd : st'.selEnd = st.selEnd
  origin : st'.visibleOrigin = st.visibleOrigin

theorem sameEnds_hidePointer (st : Selection) : SameEnds st (hidePointer st) := by
  rw [hidePointer.eq_def]
  split
  · exact ⟨rfl, rfl, rfl, rfl⟩
  · dsimp only
    split
    · exact ⟨rfl, rfl, rfl, rfl⟩
    · exact ⟨rfl, rfl, rfl, rfl⟩

theorem sameEnds_highlightPointer_none (st : Selection) : SameEnds st (highlightPointer st none) :=
  have h := sameEnds_hidePointer st
  ⟨h.selCons, h.selStart, h.selEnd, h.origin⟩

theorem sameEnds_showPointer (st : Selection) (offset : Nat) :
    SameEnds st (showPointer st offset) := by
  rw [showPointer.eq_def]
  split
  · exact ⟨rfl, rfl, rfl, rfl⟩
  · dsimp only
    split
    · exact ⟨rfl, rfl, rfl, rfl⟩
    · exact ⟨rfl, rfl, rfl, rfl⟩

theorem sameEnds_highlightSel (st : Selection) (start last : Nat) :
    SameEnds st (highlightSel d st start last) := by
  rw [highlightSel.eq_def]
  split
  · exact ⟨rfl, rfl, rfl, rfl⟩
  · exact ⟨rfl, rfl, rfl, rfl⟩

theorem pointer_highlightSel (st : Selection) (start last : Nat) :
    (highlightSel d st start last).pointer = st.pointer := by
  rw [highlightSel.eq_def]
  split
  · rfl
  · rfl

/-- The inverted cells, in the state of a call without a pointer. -/
structure Drawn (d : Nat → Driver) (st₀ : Selection) (S : Set Nat) (st : Selection) : Prop where
  marked : Marked d st₀ S st.cons st.selCons none
  pointer : st.pointer = none
  origin : st.visibleOrigin = st₀.visibleOrigin

theorem Drawn.highlightSel (hr : Ready d st₀) (h : Drawn d st₀ S st) {k : Nat}
    (hk : st.selCons = some k) (start last : Nat) (hs : start % 2 = 0) (hl : last % 2 = 0)
    (hle : start ≤ last) :
    Drawn d st₀ (span start last ∆ S) (LinuxConsole.highlightSel d st start last) := by
  refine ⟨?_, by rw [pointer_highlightSel, h.pointer], ?_⟩
  · have hm := h.marked
    rw [hk] at hm
    have hnew := hm.highlight hr hs hl hle
    rw [← h.origin] at hnew
    rw [(sameEnds_highlightSel st start last).selCons, hk, LinuxConsole.highlightSel, hk]
    exact hnew
  · rw [(sameEnds_highlightSel st start last).origin, h.origin]

/-- The numbers of the selected cells. -/
def selected (st : Selection) : Set Nat :=
  match st.selStart with
  | none => ∅
  | some start => span start st.selEnd

theorem selected_none (h : st.selStart = none) : selected st = ∅ := by
  rw [selected, h]

theorem selected_some {start : Nat} (h : st.selStart = some start) :
    selected st = span start st.selEnd := by
  rw [selected, h]

/-- **The highlight is the selection**, between two calls. -/
structure Highlighted (d : Nat → Driver) (st₀ st : Selection) : Prop where
  marked : Marked d st₀ (selected st) st.cons st.selCons st.pointer
  origin : st.visibleOrigin = st₀.visibleOrigin
  ends : ∀ start, st.selStart = some start → start % 2 = 0 ∧ st.selEnd % 2 = 0 ∧
    start ≤ st.selEnd ∧ ∃ k, st.selCons = some k

theorem Highlighted.hide (h : Highlighted d st₀ st) : Drawn d st₀ (selected st) (highlightPointer st none) :=
  have hsame := sameEnds_highlightPointer_none st
  ⟨by rw [hsame.selCons]; exact h.marked.hidePointer, rfl, by rw [hsame.origin, h.origin]⟩

theorem Highlighted.clear (hr : Ready d st₀) (h : Highlighted d st₀ st) :
    Drawn d st₀ ∅ (clearSelection d st) := by
  have hsame := sameEnds_highlightPointer_none st
  have hhide := h.hide
  rw [clearSelection]
  dsimp only
  split
  case h_1 hnone =>
    rwa [selected_none (hsame.selStart.symm.trans hnone)] at hhide
  case h_2 start hstart =>
    have hsel := hsame.selStart.symm.trans hstart
    obtain ⟨hs, hl, hle, k, hk⟩ := h.ends start hsel
    rw [selected_some hsel, ← hsame.selEnd] at hhide
    rw [← hsame.selEnd] at hl hle
    have hoff := hhide.highlightSel hr (hsame.selCons.trans hk) start _ hs hl hle
    rw [symmDiff_self] at hoff
    exact ⟨hoff.marked, hoff.pointer, hoff.origin⟩

theorem selStart_clearSelection (d : Nat → Driver) (st : Selection) :
    (clearSelection d st).selStart = none := by
  rw [clearSelection]
  dsimp only
  split
  case h_1 h => exact h
  case h_2 => rfl

theorem selCons_clearSelection (d : Nat → Driver) (st : Selection) :
    (clearSelection d st).selCons = st.selCons := by
  have hsame := sameEnds_highlightPointer_none st
  rw [clearSelection]
  dsimp only
  split
  · exact hsame.selCons
  · exact (sameEnds_highlightSel _ _ _).selCons.trans hsame.selCons

theorem Drawn.follows (h : Drawn d st₀ ∅ st) (hnone : st.selStart = none) : Highlighted d st₀ st where
  marked := by
    rw [selected_none hnone, h.pointer]
    exact h.marked
  origin := h.origin
  ends start hstart := by
    rw [hnone] at hstart
    contradiction

/-- **`clear_selection`.** -/
theorem Highlighted.clearSelection (hr : Ready d st₀) (h : Highlighted d st₀ st) :
    Highlighted d st₀ (LinuxConsole.clearSelection d st) :=
  (h.clear hr).follows (selStart_clearSelection d st)

/-- **The four ways the highlight follows** the ends of the selection, and the start from scratch. -/
theorem Highlighted.moveHighlight (hr : Ready d st₀) (h : Highlighted d st₀ st) (hptr : st.pointer = none)
    {k start last : Nat} (hk : st.selCons = some k) (hs : start % 2 = 0) (hl : last % 2 = 0)
    (hle : start ≤ last) (hmoves : ¬(st.selStart = some start ∧ last = st.selEnd)) :
    Drawn d st₀ (span start last) (LinuxConsole.moveHighlight d st start last) := by
  have hdrawn : Drawn d st₀ (selected st) st :=
    ⟨by have hm := h.marked; rwa [hptr] at hm, hptr, h.origin⟩
  rw [LinuxConsole.moveHighlight.eq_def]
  split
  case h_1 hnone =>
    have hnew := hdrawn.highlightSel hr hk start last hs hl hle
    rwa [selected_none hnone, ← Set.bot_eq_empty, symmDiff_bot] at hnew
  case h_2 start0 hstart0 =>
    obtain ⟨hs0, hl0, hle0, -⟩ := h.ends start0 hstart0
    rw [selected_some hstart0] at hdrawn
    split
    next heq =>
      subst heq
      have hne : last ≠ st.selEnd := fun he => hmoves ⟨hstart0, he⟩
      split
      · have hnew := hdrawn.highlightSel hr hk (st.selEnd + 2) last (by omega) hl (by omega)
        have hset : span (st.selEnd + 2) last ∆ span start st.selEnd = span start last := by
          rw [span, span, span, symmDiff_comm, show (st.selEnd + 2) / 2 = st.selEnd / 2 + 1 by omega]
          exact Ico_symmDiff_Ico (by omega) (by omega)
        rwa [hset] at hnew
      · have hnew := hdrawn.highlightSel hr hk (last + 2) _ (by omega) hl0 (by omega)
        have hset : span (last + 2) st.selEnd ∆ span start st.selEnd = span start last := by
          rw [span, span, span, show (last + 2) / 2 = last / 2 + 1 by omega]
          exact Ico_symmDiff_right (by omega) (by omega)
        rwa [hset] at hnew
    next hne =>
      split
      next heq =>
        subst heq
        split
        · have hnew := hdrawn.highlightSel hr hk start (start0 - 2) hs (by omega) (by omega)
          have hset : span start (start0 - 2) ∆ span start0 st.selEnd = span start st.selEnd := by
            rw [span, span, span, show (start0 - 2) / 2 + 1 = start0 / 2 by omega]
            exact Ico_symmDiff_Ico (by omega) (by omega)
          rwa [hset] at hnew
        · have hnew := hdrawn.highlightSel hr hk start0 (start - 2) hs0 (by omega) (by omega)
          have hset : span start0 (start - 2) ∆ span start0 st.selEnd = span start st.selEnd := by
            rw [span, span, span, show (start - 2) / 2 + 1 = start / 2 by omega]
            exact Ico_symmDiff_left (by omega) (by omega)
          rwa [hset] at hnew
      · have hnew := (h.clear hr).highlightSel hr ((selCons_clearSelection d st).trans hk) start last
          hs hl hle
        rwa [← Set.bot_eq_empty, symmDiff_bot] at hnew

/-! ### The ends -/

/-- The scan to the left ends on a cell at or before the one it began on. -/
theorem scanWord_back (stop edge : Nat → Bool) (fuel : Nat) {p last : Nat} (hp : p % 2 = 0)
    (hl : last % 2 = 0) (hle : p ≤ last) :
    (scanWord stop edge (· - 2) fuel p last).1 % 2 = 0 ∧
      (scanWord stop edge (· - 2) fuel p last).1 ≤ last := by
  induction fuel generalizing p last with
  | zero => exact ⟨hl, le_refl last⟩
  | succ fuel ih =>
    rw [scanWord]
    split
    · exact ⟨hl, le_refl last⟩
    split
    · exact ⟨hp, hle⟩
    · obtain ⟨heven, hlow⟩ := @ih (p - 2) p (by omega) hp (Nat.sub_le p 2)
      exact ⟨heven, hlow.trans hle⟩

/-- The scan to the right ends on a cell at or behind the one it began on. -/
theorem scanWord_forth (stop edge : Nat → Bool) (fuel : Nat) {p last : Nat} (hp : p % 2 = 0)
    (hl : last % 2 = 0) (hle : last ≤ p) :
    (scanWord stop edge (· + 2) fuel p last).1 % 2 = 0 ∧
      last ≤ (scanWord stop edge (· + 2) fuel p last).1 := by
  induction fuel generalizing p last with
  | zero => exact ⟨hl, le_refl last⟩
  | succ fuel ih =>
    rw [scanWord]
    split
    · exact ⟨hl, le_refl last⟩
    split
    · exact ⟨hp, hle⟩
    · obtain ⟨heven, hhigh⟩ := @ih (p + 2) p (by omega) hp (Nat.le_add_right p 2)
      exact ⟨heven, hle.trans hhigh⟩

theorem scanBlanks_forth (blank edge : Nat → Bool) (fuel : Nat) {p : Nat} (hp : p % 2 = 0) :
    (scanBlanks blank edge fuel p).1 % 2 = 0 ∧ p ≤ (scanBlanks blank edge fuel p).1 := by
  induction fuel generalizing p with
  | zero => exact ⟨hp, le_refl p⟩
  | succ fuel ih =>
    rw [scanBlanks]
    split
    · exact ⟨hp, le_refl p⟩
    · obtain ⟨heven, hhigh⟩ := ih (p := p + 2) (by omega)
      exact ⟨heven, (Nat.le_add_right p 2).trans hhigh⟩

/-- The state less what is recorded and the text. -/
def Selection.bare (st : Selection) : Selection :=
  { st with touched := [], scans := [], selBuffer := none }

theorem bare_eq {st' : Selection} (hb : st'.bare = st.bare) :
    st'.cons = st.cons ∧ st'.pointer = st.pointer ∧ SameEnds st st' := by
  simp only [Selection.bare, Selection.mk.injEq] at hb
  obtain ⟨hcons, horigin, hsel, hstart, hend, -, hptr, -⟩ := hb
  exact ⟨hcons, hptr, hsel, hstart, hend, horigin⟩

/-- **The ends come in order**, on cells, and only the records change. -/
theorem selectEnds_spec (st : Selection) {sizeRow ps pe : Nat} (hrow : sizeRow % 2 = 0)
    (hpos : 0 < sizeRow) (hps : ps % 2 = 0) (hpe : pe % 2 = 0) (hle : ps ≤ pe) (mode : SelMode) :
    (selectEnds st sizeRow ps pe mode).1.bare = st.bare ∧
      ∀ start last, (selectEnds st sizeRow ps pe mode).2 = some (start, last) →
        start % 2 = 0 ∧ last % 2 = 0 ∧ start ≤ last := by
  cases mode with
  | char =>
    refine ⟨rfl, fun start last h => ?_⟩
    cases h
    exact ⟨hps, hpe, hle⟩
  | word =>
    obtain ⟨hl, hlow⟩ := scanWord_back (wordStop st (isspace (selPos st ps)))
      (fun p => p % sizeRow == 0) (ps / 2 + 1) hps hps (le_refl ps)
    obtain ⟨hr, hhigh⟩ := scanWord_forth (wordStop st (isspace (selPos st pe)))
      (fun p => (p + 2) % sizeRow == 0) sizeRow hpe hpe (le_refl pe)
    refine ⟨rfl, fun start last h => ?_⟩
    cases h
    exact ⟨hl, hr, hlow.trans (hle.trans hhigh)⟩
  | line =>
    refine ⟨rfl, fun start last h => ?_⟩
    cases h
    have hmod : ∀ p, p % 2 = 0 → p % sizeRow % 2 = 0 ∧ p % sizeRow + 2 ≤ sizeRow := by
      intro p hp
      have hlt := Nat.mod_lt p hpos
      have heven : p % sizeRow % 2 = 0 := by
        rw [Nat.mod_mod_of_dvd p (Nat.dvd_of_mod_eq_zero hrow), hp]
      exact ⟨heven, by omega⟩
    obtain ⟨hs, -⟩ := hmod ps hps
    obtain ⟨he, hroom⟩ := hmod pe hpe
    have hlow := Nat.mod_le ps sizeRow
    have hhigh := Nat.mod_le pe sizeRow
    omega
  | pointer => exact ⟨rfl, fun start last h => by contradiction⟩
  | clear => exact ⟨rfl, fun start last h => by contradiction⟩
  | mouseReport button => exact ⟨rfl, fun start last h => by contradiction⟩
  | other => exact ⟨rfl, fun start last h => by contradiction⟩

theorem selectTrailing_spec (st : Selection) (sizeRow start : Nat) {last : Nat} (hl : last % 2 = 0) :
    (selectTrailing st sizeRow start last).1.bare = st.bare ∧
      (selectTrailing st sizeRow start last).2 % 2 = 0 ∧
      last ≤ (selectTrailing st sizeRow start last).2 := by
  rw [selectTrailing]
  split
  · dsimp only
    split
    · obtain ⟨heven, hhigh⟩ := scanBlanks_forth (fun p => isspace (selPos (st.touch [last]) p))
        (atedge · sizeRow) sizeRow (p := last + 2) (by omega)
      refine ⟨rfl, ?_⟩
      dsimp only
      split
      · exact ⟨heven, (Nat.le_add_right last 2).trans hhigh⟩
      · exact ⟨hl, le_refl last⟩
    · exact ⟨rfl, hl, le_refl last⟩
  · exact ⟨rfl, hl, le_refl last⟩

/-! ### A call -/

theorem Highlighted.bare {st' : Selection} (h : Highlighted d st₀ st) (hb : st'.bare = st.bare) :
    Highlighted d st₀ st' := by
  obtain ⟨hcons, hptr, hsame⟩ := bare_eq hb
  obtain ⟨hsel, hstart, hend, horigin⟩ := hsame
  refine ⟨?_, horigin.trans h.origin, ?_⟩
  · have hset : selected st' = selected st := by rw [selected, selected, hstart, hend]
    rw [hset, hcons, hsel, hptr]
    exact h.marked
  · rw [hstart, hend, hsel]
    exact h.ends

theorem Highlighted.unpoint (h : Highlighted d st₀ st) : Highlighted d st₀ (highlightPointer st none) := by
  have hsame := sameEnds_highlightPointer_none st
  refine ⟨?_, by rw [hsame.origin, h.origin], ?_⟩
  · have hset : selected (highlightPointer st none) = selected st := by
      rw [selected, selected, hsame.selStart, hsame.selEnd]
    rw [hset]
    exact h.hide.marked
  · rw [hsame.selStart, hsame.selEnd, hsame.selCons]
    exact h.ends

theorem Highlighted.point (h : Highlighted d st₀ st) {k : Nat} (hk : st.selCons = some k) (offset : Nat) :
    Highlighted d st₀ (highlightPointer st (some offset)) := by
  have hhide := sameEnds_hidePointer st
  have hshow := sameEnds_showPointer (hidePointer st) offset
  have hmarked := h.marked.hidePointer
  rw [← hhide.selCons] at hmarked
  have hset : selected (showPointer (hidePointer st) offset) = selected st := by
    rw [selected, selected, hshow.selStart, hshow.selEnd, hhide.selStart, hhide.selEnd]
  rw [highlightPointer]
  refine ⟨?_, by rw [hshow.origin, hhide.origin, h.origin], ?_⟩
  · rw [hset, hshow.selCons]
    exact hmarked.showPointer (hhide.selCons.trans hk) offset
  · rw [hshow.selStart, hshow.selEnd, hshow.selCons, hhide.selStart, hhide.selEnd, hhide.selCons]
    exact h.ends

theorem Highlighted.poke (hr : Ready d st₀) (h : Highlighted d st₀ st) (fg : Nat) (unblanks : Bool) :
    Highlighted d st₀ (pokeSelection d st fg unblanks) := by
  rw [pokeSelection]
  split
  · exact h.clearSelection hr
  · exact h

theorem Highlighted.take (hr : Ready d st₀) (h : Highlighted d st₀ st) (fg : Nat) :
    Highlighted d st₀ (takeSelCons d st fg) ∧ (takeSelCons d st fg).selCons = some fg := by
  rw [takeSelCons]
  split
  case isTrue =>
    have hclear := h.clear hr
    refine ⟨Drawn.follows ⟨?_, hclear.pointer, hclear.origin⟩ (selStart_clearSelection d st), rfl⟩
    have hnone : ∀ sel j, {b | sel = some j ∧ b ∈ stride (st₀.visibleOrigin j) ∅} = ∅ := by
      intro sel j
      simp
    refine ⟨hclear.marked.geo, hclear.marked.rend, fun j => ?_⟩
    have hcells := hclear.marked.cells j
    rw [hnone] at hcells ⊢
    exact hcells
  case isFalse hsel => exact ⟨h, not_not.mp hsel⟩

theorem selCons_moveHighlight (d : Nat → Driver) (st : Selection) (start last : Nat) :
    (moveHighlight d st start last).selCons = st.selCons := by
  rw [moveHighlight.eq_def]
  split
  · exact (sameEnds_highlightSel _ _ _).selCons
  split
  · split
    · exact (sameEnds_highlightSel _ _ _).selCons
    · exact (sameEnds_highlightSel _ _ _).selCons
  split
  · split
    · exact (sameEnds_highlightSel _ _ _).selCons
    · exact (sameEnds_highlightSel _ _ _).selCons
  · exact (sameEnds_highlightSel _ _ _).selCons.trans (selCons_clearSelection d st)

/-- **The end of a call**, with a buffer or without. -/
theorem Highlighted.finish (hr : Ready d st₀) (h : Highlighted d st₀ st) (hptr : st.pointer = none) {k : Nat}
    (hk : st.selCons = some k) {start last : Nat} (hs : start % 2 = 0) (hl : last % 2 = 0)
    (hle : start ≤ last) (sizeRow : Nat) (alloc : Bool) :
    Highlighted d st₀ (finishSelection d st sizeRow start last alloc).1 := by
  rw [finishSelection]
  split
  · exact h
  next hmoves =>
    have hmoved := h.moveHighlight hr hptr hk hs hl hle hmoves
    have hcons := (selCons_moveHighlight d st start last).trans hk
    have hnew : Highlighted d st₀
        { LinuxConsole.moveHighlight d st start last with
          selStart := some start, selEnd := last } := by
      refine ⟨?_, hmoved.origin, fun start' hstart' => ?_⟩
      · dsimp only
        rw [hmoved.pointer]
        exact hmoved.marked
      · cases hstart'
        exact ⟨hs, hl, hle, k, hcons⟩
    dsimp only
    split
    · exact hnew.clearSelection hr
    · exact hnew.bare rfl

/-- **A call past its coordinates.** -/
theorem Highlighted.selectRange (hr : Ready d st₀) (h : Highlighted d st₀ st) (fg : Nat)
    {sizeRow ps pe : Nat} (hrow : sizeRow % 2 = 0) (hpos : 0 < sizeRow) (hps : ps % 2 = 0)
    (hpe : pe % 2 = 0) (hle : ps ≤ pe) (mode : SelMode) (alloc : Bool) :
    Highlighted d st₀ (LinuxConsole.selectRange d st fg sizeRow ps pe mode alloc).1 := by
  obtain ⟨htake, hfg⟩ := h.take hr fg
  rw [LinuxConsole.selectRange]
  dsimp only
  split
  · exact htake.point hfg pe
  obtain ⟨hbare, hends⟩ := selectEnds_spec (takeSelCons d st fg) hrow hpos hps hpe hle mode
  split
  case h_1 st' heq =>
    rw [heq] at hbare
    exact htake.bare hbare
  case h_2 st' start last heq =>
    rw [heq] at hbare hends
    obtain ⟨hs, hl, hsl⟩ := hends start last rfl
    have hst' := htake.bare hbare
    have hcons' : st'.selCons = some fg := (bare_eq hbare).2.2.selCons.trans hfg
    have hsame := sameEnds_highlightPointer_none st'
    obtain ⟨htrail, heven, hfar⟩ :=
      selectTrailing_spec (highlightPointer st' none) sizeRow start hl
    have hclean := hst'.unpoint.bare htrail
    obtain ⟨-, hptr, hkept⟩ := bare_eq htrail
    have hcons := hkept.selCons.trans (hsame.selCons.trans hcons')
    exact hclean.finish hr hptr hcons hs heven (hsl.trans hfar) sizeRow alloc

theorem Highlighted.mouseReport (h : Highlighted d st₀ st) (k butt mrx mry : Nat) :
    Highlighted d st₀ (st.onCon k fun s => LinuxConsole.mouseReport s butt mrx mry) :=
  ⟨h.marked.update rfl rfl rfl, h.origin, h.ends⟩

/-- **One call of `set_selection`** keeps the highlight on the selection. -/
theorem Highlighted.setSelection (hr : Ready d st₀) (h : Highlighted d st₀ st) (vc fg : Nat)
    (sel : Option TioclSelection) (unblanks alloc : Bool) :
    Highlighted d st₀ (LinuxConsole.setSelection d st vc fg sel unblanks alloc).1 := by
  have hpoke := h.poke hr fg unblanks
  rw [LinuxConsole.setSelection.eq_def]
  dsimp only
  split
  · exact hpoke
  next sel =>
    have hgeo := hpoke.marked.geo vc
    have hrow := hr.sizeRow vc
    have hpos := hr.cols vc
    rw [← hgeo] at hrow hpos
    have heven : ∀ y x, (y * ((pokeSelection d st fg unblanks).cons vc).geo.sizeRow + 2 * x) % 2 =
        0 := by
      intro y x
      rw [hrow, show y * (2 * ((pokeSelection d st fg unblanks).cons vc).geo.cols) =
        2 * (y * ((pokeSelection d st fg unblanks).cons vc).geo.cols) by ring]
      omega
    have hrange : ∀ a b mode, a % 2 = 0 → b % 2 = 0 → Highlighted d st₀
        (LinuxConsole.selectRange d (pokeSelection d st fg unblanks) fg
          ((pokeSelection d st fg unblanks).cons vc).geo.sizeRow (min a b) (max a b) mode
          alloc).1 := by
      intro a b mode ha hb
      refine hpoke.selectRange hr fg (by omega) (by omega) ?_ ?_ (min_le_max) mode alloc
      · rcases min_choice a b with h | h <;> rw [h] <;> assumption
      · rcases max_choice a b with h | h <;> rw [h] <;> assumption
    split
    · exact hpoke.clearSelection hr
    · split
      · exact hpoke.mouseReport vc _ _ _
      · exact hrange _ _ _ (heven _ _) (heven _ _)
    · exact hrange _ _ _ (heven _ _) (heven _ _)

/-! ### Runs -/

/-- What happens to the selection. -/
inductive SelCall
  | set (vc fg : Nat) (sel : Option TioclSelection) (unblanks alloc : Bool)
  | clear

def selStep (d : Nat → Driver) (st : Selection) : SelCall → Selection
  | .set vc fg sel unblanks alloc => (setSelection d st vc fg sel unblanks alloc).1
  | .clear => clearSelection d st

theorem Highlighted.init (hr : Ready d st₀) : Highlighted d st₀ st₀ := by
  refine Drawn.follows ⟨⟨fun _ => rfl, fun _ => rfl, fun k => ?_⟩, hr.pointer, rfl⟩ hr.selStart
  have hnone : {b | st₀.selCons = some k ∧ b ∈ stride (st₀.visibleOrigin k) ∅} = ∅ := by simp
  rw [hnone, flipOn_empty, unpointed_none]

/-- The address `b` is that of a selected cell of console `k`. -/
def InSelection (st : Selection) (k b : Nat) : Prop :=
  st.selCons = some k ∧ ∃ start offset, st.selStart = some start ∧ start ≤ offset ∧
    offset ≤ st.selEnd ∧ offset % 2 = 0 ∧ b = st.visibleOrigin k + offset

theorem inSelection_iff (h : Highlighted d st₀ st) (k b : Nat) : InSelection st k b ↔
    st.selCons = some k ∧ b ∈ stride (st₀.visibleOrigin k) (selected st) := by
  rw [InSelection, h.origin, mem_stride]
  refine and_congr_right fun _ => ?_
  cases hstart : st.selStart with
  | none =>
    rw [selected_none hstart]
    simp
  | some start =>
    obtain ⟨hs, hl, hle, -⟩ := h.ends start hstart
    rw [selected_some hstart, span, Set.mem_Ico]
    constructor
    · rintro ⟨start', offset, hstart', hlow, hhigh, heven, rfl⟩
      cases hstart'
      omega
    · rintro ⟨hp, heven, hlow, hhigh⟩
      exact ⟨start, b - st₀.visibleOrigin k, rfl, by omega, by omega, by omega, by omega⟩

/-- **The highlight is where the selection is.**  After any sequence of calls, on any consoles, a
cell of any console is inverted relative to the start exactly if it lies on `sel_cons` between
`sel_start` and `sel_end`; the cell under the pointer is the one the pointer gives back. -/
theorem highlight_follows (hr : Ready d st₀) (calls : List SelCall) :
    let st := run (selStep d) st₀ calls
    ∀ k b, (InSelection st k b → unpointed st.cons st.pointer k b =
        invertHook (d k) (st₀.cons k) ((st₀.cons k).mem b)) ∧
      (¬InSelection st k b → unpointed st.cons st.pointer k b = (st₀.cons k).mem b) := by
  have hf : Highlighted d st₀ (run (selStep d) st₀ calls) := by
    refine run_invariant (fun st call h => ?_) (Highlighted.init hr) calls
    cases call with
    | set vc fg sel unblanks alloc => exact h.setSelection hr vc fg sel unblanks alloc
    | clear => exact h.clearSelection hr
  intro st k b
  have hcells := congrFun (hf.marked.cells k) b
  refine ⟨fun hin => ?_, fun hout => ?_⟩
  · have hmem : b ∈ {b | st.selCons = some k ∧ b ∈ stride (st₀.visibleOrigin k) (selected st)} :=
      (inSelection_iff hf k b).mp hin
    exact hcells.trans (flipOn_of_mem hmem _)
  · have hnot : b ∉ {b | st.selCons = some k ∧ b ∈ stride (st₀.visibleOrigin k) (selected st)} :=
      fun h => hout ((inSelection_iff hf k b).mpr h)
    exact hcells.trans (flipOn_of_notMem hnot _)

/-- Two cells selected, and then the second of them alone: the first is back. -/
theorem highlight_follows_boot :
    let st := run (selStep fun _ => dummyCon) (bootSelection (fun _ => bootCon) fun _ => 0x1000)
      [.set 0 0 (some ⟨1, 1, 2, 1, .char⟩) false true, .set 0 0 (some ⟨2, 1, 2, 1, .char⟩) false true]
    unpointed st.cons st.pointer 0 0x1002 = invertHook dummyCon bootCon (bootCon.mem 0x1002) ∧
      unpointed st.cons st.pointer 0 0x1000 = bootCon.mem 0x1000 := by
  have hr : Ready (fun _ => dummyCon) (bootSelection (fun _ => bootCon) fun _ => 0x1000) :=
    ⟨fun _ => .inl rfl, fun _ => invertCell_invertCell _, fun _ => rfl,
      fun _ => Nat.succ_pos 79, rfl, rfl⟩
  have h := highlight_follows hr
    [.set 0 0 (some ⟨1, 1, 2, 1, .char⟩) false true, .set 0 0 (some ⟨2, 1, 2, 1, .char⟩) false true]
  refine ⟨(h 0 0x1002).1 ⟨by decide +kernel, 2, 2, by decide +kernel⟩, (h 0 0x1000).2 ?_⟩
  rintro ⟨-, start, offset, hstart, hle, -, -, hb⟩
  have hnum : start = 2 := Option.some.inj (hstart.symm.trans (by decide +kernel))
  have hzero : offset = 0 := by
    have horigin : 0x1000 = 0x1000 + offset := hb
    omega
  omega

end LinuxConsole

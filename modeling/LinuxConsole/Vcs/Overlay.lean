import LinuxConsole.Sel.Highlight
import LinuxConsole.Vcs.Cells

/-!
# What `update_region` changes

`update_region` hides the cursor before it draws, and `hide_cursor` clears a selection on the
console.  The cells that this changes are the ones under the pointer and in the highlight,
`Overlaid`; `mem_clearSelection` says what they become.  **Every other cell is read as before**:
`Calm`.
-/

namespace LinuxConsole

open Lib

variable {d : Nat → Driver} {st st' st'' : Selection} {k : Nat}

/-! ### The overlay -/

/-- The address `a` is in the highlight of console `k`. -/
def InHighlight (st : Selection) (k a : Nat) : Prop :=
  ∃ start, st.selStart = some start ∧ st.visibleOrigin k + start ≤ a ∧
    a < st.visibleOrigin k + start + 2 * ((st.selEnd - start + 2) / 2) ∧
    (a - (st.visibleOrigin k + start)) % 2 = 0

/-- The address `a` of console `k` is under the pointer or in the highlight. -/
def Overlaid (st : Selection) (k a : Nat) : Prop :=
  st.selCons = some k ∧
    ((∃ p, st.pointer = some p ∧ p.con = k ∧ p.addr = a) ∨ InHighlight st k a)

/-- What hiding the pointer leaves alone on every console, if writing and drawing do. -/
theorem field_hidePointer {α : Type*} {g : Con → α} (hwrite : ∀ s v a, g (s.scrWritew v a) = g s)
    (hdraw : ∀ s ds, g (s.draw ds) = g s) (st : Selection) (j : Nat) :
    g ((hidePointer st).cons j) = g (st.cons j) := by
  rw [hidePointer.eq_def]
  split
  · rfl
  · next p _ =>
    have hback := st.onCon_field p.con (f := fun s => s.scrWritew p.old p.addr) (g := g)
      (fun s => hwrite s p.old p.addr) j
    dsimp only
    split
    · exact hback
    · next k _ =>
      refine Eq.trans (Selection.onCon_field _ k (fun s => ?_) j) hback
      split
      · exact hdraw s _
      · rfl

/-- What `clear_selection` leaves alone on every console, if writing, drawing and inverting do. -/
theorem field_clearSelection {α : Type*} {g : Con → α} (hwrite : ∀ s v a, g (s.scrWritew v a) = g s)
    (hdraw : ∀ s ds, g (s.draw ds) = g s) (hinvert : ∀ D v s a b, g (highlight D v s a b) = g s)
    (st : Selection) (j : Nat) : g ((clearSelection d st).cons j) = g (st.cons j) := by
  have hhide := field_hidePointer hwrite hdraw st j
  rw [clearSelection]
  dsimp only
  split
  · exact hhide
  · next start _ =>
    refine Eq.trans ?_ hhide
    rw [highlightSel.eq_def]
    split
    · rfl
    · next k _ => exact Selection.onCon_field _ k (fun s => hinvert _ _ s _ _) j

theorem mem_hidePointer (st : Selection) (j : Nat) :
    ((hidePointer st).cons j).mem = unpointed st.cons st.pointer j := by
  rw [hidePointer.eq_def]
  cases hp : st.pointer with
  | none => rfl
  | some p =>
    have hback : ((st.onCon p.con fun s => s.scrWritew p.old p.addr).cons j).mem =
        unpointed st.cons (some p) j := by
      rw [unpointed_some]
      by_cases hj : j = p.con
      · rw [hj, Selection.onCon_self, if_pos rfl]
        rfl
      · rw [Selection.onCon_of_ne _ hj, if_neg (Ne.symm hj)]
    dsimp only
    split
    · exact hback
    · next k _ =>
      refine Eq.trans (Selection.onCon_field _ k (fun s => ?_) j) hback
      split
      · rfl
      · rfl

/-- **What the selected console is** when the selection has been cleared. -/
theorem mem_clearSelection (hsel : st.selCons = some k) (a : Nat) :
    (InHighlight st k a → ((clearSelection d st).cons k).mem a =
      invertHook (d k) ((hidePointer st).cons k) (unpointed st.cons st.pointer k a)) ∧
    (¬InHighlight st k a → ((clearSelection d st).cons k).mem a =
      unpointed st.cons st.pointer k a) := by
  have hends := sameEnds_highlightPointer_none st
  have hmem : ((highlightPointer st none).cons k).mem = unpointed st.cons st.pointer k :=
    mem_hidePointer st k
  rw [clearSelection]
  dsimp only
  cases hstart : (highlightPointer st none).selStart with
  | none =>
    have hnone : ¬InHighlight st k a := by
      rintro ⟨start, hs, -⟩
      rw [hends.selStart.symm.trans hstart] at hs
      exact absurd hs.symm (Option.some_ne_none _)
    exact ⟨fun h => absurd h hnone, fun _ => congrFun hmem a⟩
  | some start =>
    have hs : st.selStart = some start := hends.selStart.symm.trans hstart
    have hcell : ((highlightSel d (highlightPointer st none) start
        (highlightPointer st none).selEnd).cons k).mem a =
      if st.visibleOrigin k + start ≤ a ∧
          a < st.visibleOrigin k + start + 2 * ((st.selEnd - start + 2) / 2) ∧
          (a - (st.visibleOrigin k + start)) % 2 = 0
      then invertHook (d k) ((hidePointer st).cons k) (unpointed st.cons st.pointer k a)
      else unpointed st.cons st.pointer k a := by
      rw [highlightSel, hends.selCons, hsel]
      change (((highlightPointer st none).onCon k fun s => highlight (d k)
        ((highlightPointer st none).view k) s start (highlightPointer st none).selEnd).cons k).mem a = _
      rw [Selection.onCon_self, highlight, invertViewed, mem_invertAt, hmem, hends.selEnd]
      have hpos : screenpos ((highlightPointer st none).view k) ((highlightPointer st none).cons k)
          start true = st.visibleOrigin k + start := by
        change (highlightPointer st none).visibleOrigin k + start = _
        rw [hends.origin]
      rw [hpos]
      rfl
    have hin : InHighlight st k a ↔ st.visibleOrigin k + start ≤ a ∧
        a < st.visibleOrigin k + start + 2 * ((st.selEnd - start + 2) / 2) ∧
        (a - (st.visibleOrigin k + start)) % 2 = 0 := by
      refine ⟨?_, fun h => ⟨start, hs, h⟩⟩
      rintro ⟨start', hs', h⟩
      rw [hs, Option.some.injEq] at hs'
      rwa [hs']
    exact ⟨fun h => hcell.trans (if_pos (hin.mp h)), fun h => hcell.trans (if_neg fun h' => h (hin.mpr h'))⟩

theorem unpointed_of_ne {a : Nat} (h : ¬∃ p, st.pointer = some p ∧ p.con = k ∧ p.addr = a) :
    unpointed st.cons st.pointer k a = (st.cons k).mem a := by
  cases hp : st.pointer with
  | none => rfl
  | some p =>
    rw [unpointed_some]
    split
    case isTrue hk => exact Function.update_of_ne (fun ha => h ⟨p, hp, hk, ha.symm⟩) ..
    case isFalse => rfl

/-! ### Calm steps -/

/-- The step leaves the places of console `k`, lays nothing over its cells, and changes only cells
that something was laid over. -/
structure Calm (k : Nat) (st st' : Selection) : Prop where
  place : SamePlace (st.cons k) (st'.cons k)
  origin : st'.visibleOrigin = st.visibleOrigin
  overlay : ∀ a, Overlaid st' k a → Overlaid st k a
  cells : ∀ a, ¬Overlaid st k a → vcsScrReadw (st'.cons k) a = vcsScrReadw (st.cons k) a

theorem Calm.refl (k : Nat) (st : Selection) : Calm k st st :=
  ⟨⟨rfl, rfl, rfl⟩, rfl, fun _ h => h, fun _ _ => rfl⟩

theorem Calm.trans (h : Calm k st st') (h' : Calm k st' st'') : Calm k st st'' where
  place := h.place.trans h'.place
  origin := h'.origin.trans h.origin
  overlay a ha := h.overlay a (h'.overlay a ha)
  cells a ha := (h'.cells a fun ha' => ha (h.overlay a ha')).trans (h.cells a ha)

theorem Calm.ite {p : Prop} [Decidable p] {a b : Selection} (ha : p → Calm k st a)
    (hb : ¬p → Calm k st b) : Calm k st (if p then a else b) := by
  split
  case isTrue h => exact ha h
  case isFalse h => exact hb h

theorem calm_onCon (st : Selection) {f : Con → Con} (h : ReadsSame (st.cons k) (f (st.cons k))) :
    Calm k st (st.onCon k f) := by
  refine ⟨?_, rfl, fun _ ha => ha, fun a _ => ?_⟩
  · rw [Selection.onCon_self]
    exact h.toSamePlace
  · rw [Selection.onCon_self, h.cells]

theorem pointer_clearSelection (st : Selection) : (clearSelection d st).pointer = none := by
  rw [clearSelection]
  dsimp only
  split
  · rfl
  · exact pointer_highlightSel _ _ _

/-- Nothing is laid over a console whose selection has been cleared. -/
theorem not_overlaid_clear (st : Selection) (a : Nat) : ¬Overlaid (clearSelection d st) k a := by
  rintro ⟨-, ⟨p, hp, -⟩ | ⟨start, hs, -⟩⟩
  · rw [pointer_clearSelection] at hp
    exact absurd hp.symm (Option.some_ne_none _)
  · rw [selStart_clearSelection] at hs
    exact absurd hs.symm (Option.some_ne_none _)

theorem visibleOrigin_clearSelection (st : Selection) :
    (clearSelection d st).visibleOrigin = st.visibleOrigin := by
  have hends := sameEnds_highlightPointer_none st
  rw [clearSelection]
  dsimp only
  split
  · exact hends.origin
  · exact (sameEnds_highlightSel _ _ _).origin.trans hends.origin

theorem samePlace_clearSelection (st : Selection) (k : Nat) :
    SamePlace (st.cons k) ((clearSelection d st).cons k) where
  geo := field_clearSelection (g := Con.geo) (fun _ _ _ => rfl) (fun _ _ => rfl)
    (fun _ _ _ _ _ => geo_invertAt ..) st k
  cur := field_clearSelection (g := Con.cur) (fun _ _ _ => rfl) (fun _ _ => rfl)
    (fun D _ s _ _ => cur_invertAt D s _ _) st k
  visible := field_clearSelection (g := fun s => s.vt.visible) (fun _ _ _ => rfl) (fun _ _ => rfl)
    (fun D _ s _ _ => congrArg Display.visible (vt_invertAt D s _ _)) st k

theorem calm_clearSelection (hsel : st.selCons = some k) : Calm k st (clearSelection d st) where
  place := samePlace_clearSelection st k
  origin := visibleOrigin_clearSelection st
  overlay a ha := absurd ha (not_overlaid_clear st a)
  cells a ha := by
    have hvt : ((clearSelection d st).cons k).vt = (st.cons k).vt :=
      field_clearSelection (g := Con.vt) (fun _ _ _ => rfl) (fun _ _ => rfl)
        (fun D _ s _ _ => vt_invertAt D s _ _) st k
    have hcell : ((clearSelection d st).cons k).mem a = (st.cons k).mem a := by
      rw [(mem_clearSelection hsel a).2 fun h => ha ⟨hsel, .inr h⟩,
        unpointed_of_ne fun h => ha ⟨hsel, .inl h⟩]
    rw [vcsScrReadw, vcsScrReadw, (samePlace_clearSelection st k).cur, hvt, hcell]

theorem calm_clear (st : Selection) :
    Calm k st (if st.selCons = some k then clearSelection d st else st) :=
  .ite (fun hsel => calm_clearSelection hsel) fun _ => .refl k st

theorem calm_hideCursorOn (st : Selection) : Calm k st (hideCursorOn d st k) :=
  (calm_clear st).trans (calm_onCon _ (readsSame_hideCursor _))

theorem calm_setCursorOn (st : Selection) : Calm k st (setCursorOn d st k) := by
  rw [setCursorOn]
  refine .ite (fun _ => .refl k st) fun _ => .ite (fun _ => ?_) fun _ => calm_hideCursorOn st
  exact (calm_clear st).trans (calm_onCon _ (readsSame_setCursor _))

/-- **`update_region` changes only what is laid over the cells.** -/
theorem calm_updateRegion (st : Selection) (start count : Nat) :
    Calm k st (updateRegion d st k start count) := by
  rw [updateRegion]
  refine .ite (fun _ => ?_) fun _ => .refl k st
  exact ((calm_hideCursorOn st).trans (calm_onCon _ (readsSame_doUpdateRegion _ start count))).trans
    (calm_setCursorOn _)

end LinuxConsole

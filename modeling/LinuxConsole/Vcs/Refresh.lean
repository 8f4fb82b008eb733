import LinuxConsole.Vcs.Stale
import LinuxConsole.Vcs.Write

/-!
# What `vcs_write` refreshes

A round of `vcs_write` passes the cells from `org0` to before `org` to `update_region`.  Behind a last
half cell `org` is not advanced, so this cell is not in the region; the next round begins with its
other half and refreshes it, but the last round leaves it stale.

`Fills` says which cells the loops of a round write and which of them they leave stale, and
`sweeps_writeRound` what is left of these after `update_region`.  `LoopSweeps.cons` puts the rounds
together: the regions meet, and **a single cell can be left stale**, `leftStale`.  Whether it is stale
is decided by the byte that was there, `vcs_write_refreshes_iff`; a selection on the console is
cleared by the first round, `unselected_writeRound`.
-/

namespace LinuxConsole

open Lib

variable {d : Nat → Driver} {st st' st'' : Selection} {k : Nat} {m : Arch} {v : View}
  {s s' s'' : Con} {attr : Bool}

/-! ### Filling cells -/

/-- The cell at `a` is left alone, and so is what is saved of it under a software cursor. -/
structure KeptAt (a : Nat) (s s' : Con) : Prop where
  mem : s'.mem a = s.mem a
  saved : a = s.cur.pos → s'.vt.cursorOriginal = s.vt.cursorOriginal

theorem KeptAt.read {a : Nat} (h : KeptAt a s s') (hcur : s'.cur = s.cur) :
    vcsScrReadw s' a = vcsScrReadw s a := by
  rw [vcsScrReadw, vcsScrReadw, hcur, h.mem]
  by_cases ha : a = s.cur.pos
  · rw [if_pos ha, if_pos ha, h.saved ha]
  · rw [if_neg ha, if_neg ha]

theorem mem_addSoftcursor {a : Nat} (h : a ≠ s.cur.pos) : (addSoftcursor s).mem a = s.mem a := by
  rw [addSoftcursor]
  split
  · rfl
  split
  · rfl
  dsimp only
  split
  · exact Function.update_of_ne h _ _
  · exact Function.update_of_ne h _ _

theorem keptAt_write {a org : Nat} (h : a ≠ org) (val : Cell) :
    KeptAt a s (vcsScrWritew s val org) := by
  have hmem : (s.scrWritew val org).mem a = s.mem a := Function.update_of_ne h _ _
  rw [vcsScrWritew]
  dsimp only
  split
  case isTrue horg =>
    change org = s.cur.pos at horg
    have ha : a ≠ s.cur.pos := fun heq => h (heq.trans horg.symm)
    refine ⟨Eq.trans ?_ hmem, fun heq => absurd heq ha⟩
    exact mem_addSoftcursor ha
  case isFalse => exact ⟨hmem, fun _ => rfl⟩

theorem rend_addSoftcursor (s : Con) : (addSoftcursor s).rend = s.rend := by
  rw [addSoftcursor]
  split
  · rfl
  split
  · rfl
  dsimp only
  split
  · rfl
  · rfl

theorem rend_write (s : Con) (val : Cell) (org : Nat) : (vcsScrWritew s val org).rend = s.rend := by
  rw [vcsScrWritew]
  dsimp only
  split
  · exact rend_addSoftcursor _
  · rfl

/-- What is written lies in the cells from `q` to before `e`, and they are stale if their values
change. -/
structure Fills (v : View) (q e : Nat) (s s' : Con) : Prop where
  place : SamePlace s s'
  rend : s'.rend = s.rend
  others : ∀ i, i < q ∨ e ≤ i → KeptAt (viewedAddr v s i) s s'
  leaves : ∀ S, Leaves v S (S ∪ Changed v s s') s s'

theorem Fills.refl (h : Fronted v s) (q e : Nat) : Fills v q e s s :=
  ⟨⟨rfl, rfl, rfl⟩, rfl, fun _ _ => ⟨rfl, fun _ => rfl⟩,
    fun S => (Leaves.refl h S).mono Set.subset_union_left⟩

theorem Fills.cell {q e i : Nat} (h : Fills v q e s s') (hi : i < q ∨ e ≤ i) :
    viewedCell v s' i = viewedCell v s i := by
  rw [viewedCell, viewedCell, h.place.viewedAddr, (h.others i hi).read h.place.cur]

theorem fills_write (h : Fronted v s) (val : Cell) (q : Nat) :
    Fills v q (q + 1) s (vcsScrWritew s val (place v s q)) where
  place := samePlace_write s val _
  rend := rend_write s val _
  others i hi := by
    refine keptAt_write (fun ha => ?_) val
    rw [place_eq h.paved, viewedAddr_inj h.paved] at ha
    omega
  leaves := leaves_vcsScrWritew h val q

theorem Fills.trans {q e e' : Nat} (h : Fills v q e s s') (h' : Fills v e e' s' s'') (hq : q ≤ e)
    (he : e ≤ e') : Fills v q e' s s'' := by
  refine ⟨h.place.trans h'.place, h'.rend.trans h.rend, fun i hi => ?_, fun S => ?_⟩
  · have hfirst := h.others i (by omega)
    have hrest := h'.others i (by omega)
    rw [h.place.viewedAddr] at hrest
    refine ⟨hrest.mem.trans hfirst.mem, fun ha => ?_⟩
    exact (hrest.saved (by rw [h.place.cur]; exact ha)).trans (hfirst.saved ha)
  · refine ((h.leaves S).trans (h'.leaves _)).mono ?_
    rintro i ((hi | hi) | hi)
    · exact .inl hi
    · -- a cell of the first part is not written again
      have hlow : i < e := by
        by_contra hge
        exact hi (h.cell (.inr (not_lt.mp hge)))
      refine .inr ?_
      change viewedCell v s'' i ≠ viewedCell v s i
      rw [h'.cell (.inl hlow)]
      exact hi
    · have hhigh : e ≤ i := by
        by_contra hlt
        exact hi (h'.cell (.inl (not_le.mp hlt)))
      refine .inr ?_
      change viewedCell v s'' i ≠ viewedCell v s i
      rw [← h.cell (.inr hhigh)]
      exact hi

theorem Fills.fronted {q e : Nat} (h : Fills v q e s s') : Fronted v s' := (h.leaves ∅).fronted

theorem fills_pushChars (h : Fronted v s) (bytes : List Byte) (q : Nat) :
    Fills v q (q + bytes.length) s
      (pushChars (place v s) bytes (RowWalk.start (place v s) s.geo.cols q) s).1 := by
  induction bytes generalizing s q with
  | nil => exact .refl h q q
  | cons c cs ih =>
    have haddr : (RowWalk.start (place v s) s.geo.cols q).addr = place v s q := rfl
    rw [pushChars, haddr]
    have hfirst := fills_write h ((vcsScrReadw s (place v s q) &&& 0xff00#16) ||| c.setWidth 16) q
    generalize vcsScrWritew s _ (place v s q) = s₁ at hfirst
    have hrest := ih hfirst.fronted (q + 1)
    rw [start_after h.paved hfirst.place, hfirst.place.place, Nat.add_assoc, Nat.add_comm 1] at hrest
    exact hfirst.trans hrest (Nat.le_succ q) (by rw [List.length_cons]; omega)

theorem fills_pushWords (h : Fronted v s) (bytes : List Byte) (q : Nat) :
    Fills v q (q + (bytes.length + 1) / 2) s
      (pushWords m (place v s) bytes (RowWalk.start (place v s) s.geo.cols q) s).1 := by
  have haddr : (RowWalk.start (place v s) s.geo.cols q).addr = place v s q := rfl
  induction bytes using List.twoStepInduction generalizing s q with
  | nil => exact .refl h q q
  | singleton c =>
    have hend : q + ([c].length + 1) / 2 = q + 1 := by rw [List.length_singleton]
    rw [pushWords, haddr, hend]
    exact fills_write h _ q
  | cons_cons a b cs ih _ =>
    rw [pushWords, haddr]
    have hfirst := fills_write h (m.word a b) q
    generalize vcsScrWritew s (m.word a b) (place v s q) = s₁ at hfirst
    have hrest := ih hfirst.fronted (q + 1) rfl
    rw [start_after h.paved hfirst.place, hfirst.place.place] at hrest
    have hend : q + 1 + (cs.length + 1) / 2 = q + ((a :: b :: cs).length + 1) / 2 := by
      rw [List.length_cons, List.length_cons]
      omega
    rw [← hend]
    exact hfirst.trans hrest (Nat.le_succ q) (Nat.le_add_right _ _)

theorem fills_pushCells (h : Fronted v s) (p : Nat) (bytes : List Byte) :
    Fills v (p / 2) ((p + bytes.length + 1) / 2) s (pushCells m (place v s) p bytes s).1 := by
  cases bytes with
  | nil => exact .refl h _ _
  | cons c cs =>
    have hlen : (c :: cs).length = cs.length + 1 := rfl
    by_cases hodd : p % 2 = 1
    · have hhalf : (p + 1) / 2 = p / 2 + 1 := by omega
      rw [pushCells, if_pos hodd]
      dsimp only
      rw [hhalf]
      have hfirst := fills_write h (m.headCell c (vcsScrReadw s (place v s (p / 2)))) (p / 2)
      generalize vcsScrWritew s _ (place v s (p / 2)) = s₁ at hfirst
      have hrest := fills_pushWords (m := m) hfirst.fronted cs (p / 2 + 1)
      rw [← start_behind_head h.paved hfirst.place (p / 2), hfirst.place.place] at hrest
      have hend : p / 2 + 1 + (cs.length + 1) / 2 = (p + (c :: cs).length + 1) / 2 := by omega
      rw [← hend]
      exact hfirst.trans hrest (Nat.le_succ _) (Nat.le_add_right _ _)
    · rw [show pushCells m (place v s) p (c :: cs) s = pushWords m (place v s) (c :: cs)
        (RowWalk.start (place v s) s.geo.cols (p / 2)) s from if_neg hodd]
      have hend : p / 2 + ((c :: cs).length + 1) / 2 = (p + (c :: cs).length + 1) / 2 := by omega
      rw [← hend]
      exact fills_pushWords h (c :: cs) (p / 2)

/-! ### A round -/

/-- How far a position is in the cells, in half cells. -/
def halfCells (attr : Bool) (pos : Nat) : Nat := if attr then pos - HEADER_SIZE else 2 * pos

theorem pushFirst_front (h : Fronted v s) (pos : Nat) (bytes : List Byte) :
    pushFirst pos bytes s = s := by
  rw [pushFirst]
  split
  · rw [pushHeader]
    exact if_pos h.visible
  · rfl

/-- A round, up to `update_region`: what it fills, and where its region is. -/
structure RoundFills (attr : Bool) (v : View) (pos : Nat) (bytes : List Byte) (s : Con) (r : Pushed) :
    Prop where
  fills : Fills v (halfCells attr pos / 2) ((halfCells attr (pos + bytes.length) + 1) / 2) s r.con
  region : (r.org0 = none ∧ halfCells attr (pos + bytes.length) = 0) ∨
    (r.org0 = some (s.geo.origin + 2 * (halfCells attr pos / 2)) ∧
      r.org = s.geo.origin + 2 * (halfCells attr (pos + bytes.length) / 2))

theorem fills_pushRound (h : Fronted v s) (m : Arch) (attr : Bool) (pos : Nat) {bytes : List Byte}
    (hsome : bytes ≠ []) : RoundFills attr v pos bytes s (pushRound m attr v s pos bytes) := by
  cases attr with
  | false =>
    have hpos : halfCells false pos / 2 = pos := Nat.mul_div_cancel_left pos (by decide)
    have hend : halfCells false (pos + bytes.length) = 2 * (pos + bytes.length) := rfl
    have hfilled : (halfCells false (pos + bytes.length) + 1) / 2 = pos + bytes.length := by omega
    have hregion : halfCells false (pos + bytes.length) / 2 = pos + bytes.length := by omega
    refine ⟨?_, .inr ⟨?_, ?_⟩⟩
    · rw [hpos, hfilled]
      exact fills_pushChars h bytes pos
    · rw [hpos]
      exact congrArg some (h.place pos)
    · rw [hregion]
      exact (pushes_pushChars h.paved bytes pos).org.trans (h.place _)
  | true =>
    have hfirst := pushFirst_front h pos bytes
    have hlen : (bytes.drop (HEADER_SIZE - pos)).length = bytes.length - (HEADER_SIZE - pos) :=
      List.length_drop
    have hpos : halfCells true pos = pos - HEADER_SIZE := rfl
    have hend : halfCells true (pos + bytes.length) = pos + bytes.length - HEADER_SIZE := rfl
    by_cases hrest : bytes.drop (HEADER_SIZE - pos) = []
    · rw [show pushRound m true v s pos bytes = _ from if_pos hrest, hfirst]
      rw [hrest, List.length_nil] at hlen
      have hbytes := List.length_pos_iff.mpr hsome
      exact ⟨.refl h _ _, .inl ⟨rfl, by omega⟩⟩
    · have hmore := List.length_pos_iff.mpr hrest
      have hsum : pos - HEADER_SIZE + (bytes.drop (HEADER_SIZE - pos)).length =
        halfCells true (pos + bytes.length) := by omega
      have hfills := fills_pushCells (m := m) h (pos - HEADER_SIZE) (bytes.drop (HEADER_SIZE - pos))
      have horg := (pushes_pushCells (m := m) h.paved (pos - HEADER_SIZE)
        (bytes.drop (HEADER_SIZE - pos))).2.1
      rw [hsum] at hfills horg
      rw [show pushRound m true v s pos bytes = _ from if_neg hrest, hfirst]
      refine ⟨hfills, .inr ⟨congrArg some (h.place _), horg.trans (h.place _)⟩⟩

/-- The address `a` is in a region that has been passed to `update_region`. -/
def InRegion (a : Nat) (region : Nat × Nat) : Prop :=
  region.1 ≤ a ∧ a < region.1 + 2 * region.2

/-- The cells whose value a round changes. -/
def roundChanges (m : Arch) (attr : Bool) (k pos : Nat) (bytes : List Byte) (st : Selection) :
    Set Nat :=
  Changed (st.view k) (st.cons k) (pushRound m attr (st.view k) (st.cons k) pos bytes).con

/-- **What a round refreshes**: of the stale cells and of those it changes, all that lie between its
ends; where it ends within a cell this one is left. -/
structure RoundSweeps (attr : Bool) (k pos : Nat) (bytes : List Byte) (C : Set Nat) (st : Selection)
    (r : Selection × List (Nat × Nat)) : Prop where
  sweeps : ∀ S, Sweeps k S ((S ∪ C) \ {i | halfCells attr pos / 2 ≤ i ∧
    i < halfCells attr (pos + bytes.length) / 2}) st r.1
  regions : ∀ i, (∃ region ∈ r.2, InRegion ((st.cons k).geo.origin + 2 * i) region) ↔
    halfCells attr pos / 2 ≤ i ∧ i < halfCells attr (pos + bytes.length) / 2
  within : ∀ i ∈ C, halfCells attr pos / 2 ≤ i ∧ 2 * i < halfCells attr (pos + bytes.length)

theorem sweeps_writeRound (h : Fronted (st.view k) (st.cons k)) (ht : Tidy st k) (m : Arch)
    (attr : Bool) (pos : Nat) {bytes : List Byte} (hsome : bytes ≠ []) :
    RoundSweeps attr k pos bytes (roundChanges m attr k pos bytes st) st
      (writeRound d m attr k pos bytes st) := by
  obtain ⟨hfills, hregion⟩ := fills_pushRound h m attr pos hsome
  have hpushed : ∀ S, Sweeps k S (S ∪ roundChanges m attr k pos bytes st) st
      (st.onCon k fun _ => (pushRound m attr (st.view k) (st.cons k) pos bytes).con) :=
    fun S => sweeps_onCon ht (hfills.leaves S)
  have hwithin : ∀ i ∈ roundChanges m attr k pos bytes st, halfCells attr pos / 2 ≤ i ∧
      2 * i < halfCells attr (pos + bytes.length) := by
    intro i hi
    by_contra hout
    exact hi (hfills.cell (by omega))
  have hlow : halfCells attr pos ≤ halfCells attr (pos + bytes.length) := by
    rw [halfCells, halfCells]
    split <;> omega
  rw [writeRound]
  generalize pushRound m attr (st.view k) (st.cons k) pos bytes = r at *
  rcases hregion with ⟨hnone, hend⟩ | ⟨hstart, hend⟩
  · rw [hnone]
    refine ⟨fun S => (hpushed S).mono fun i hi => ⟨hi, fun hin => absurd hin.2 (by omega)⟩,
      fun i => ?_, hwithin⟩
    refine iff_of_false ?_ (by omega)
    rintro ⟨region, hmem, -⟩
    exact absurd hmem List.not_mem_nil
  · rw [hstart]
    have hcount : (r.org - ((st.cons k).geo.origin + 2 * (halfCells attr pos / 2))) / 2 =
        halfCells attr (pos + bytes.length) / 2 - halfCells attr pos / 2 := by
      rw [hend]
      omega
    have hends : halfCells attr pos / 2 +
        (halfCells attr (pos + bytes.length) / 2 - halfCells attr pos / 2) =
          halfCells attr (pos + bytes.length) / 2 := by omega
    dsimp only
    rw [hcount]
    refine ⟨fun S => ?_, fun i => ?_, hwithin⟩
    · have hafter := hpushed S
      have hupdate := sweeps_updateRegion (d := d) hafter.fronted hafter.tidy (halfCells attr pos / 2)
        (halfCells attr (pos + bytes.length) / 2 - halfCells attr pos / 2)
        (S ∪ roundChanges m attr k pos bytes st)
      rw [hafter.leaves.geo, hends] at hupdate
      exact hafter.trans hupdate
    · constructor
      · rintro ⟨region, hmem, hin⟩
        rw [List.mem_singleton] at hmem
        rw [hmem, InRegion] at hin
        dsimp only at hin
        omega
      · intro hin
        refine ⟨_, List.mem_singleton_self _, ?_⟩
        rw [InRegion]
        dsimp only
        omega

/-! ### The last half cell -/

theorem cell_eq_iff (m : Arch) {c w : Cell} (h : (m.bytes c).2 = (m.bytes w).2) :
    c = w ↔ (m.bytes c).1 = (m.bytes w).1 := by
  refine ⟨fun heq => by rw [heq], fun hfirst => ?_⟩
  rw [← word_bytes m c, ← word_bytes m w, hfirst, h]

/-- **Where a round ends within a cell**, it changes the cell if the last byte is another one. -/
theorem changes_last (h : Fronted (st.view k) (st.cons k)) {pos i : Nat} {bytes : List Byte}
    (hsome : bytes ≠ []) (hend : 2 * i + 1 = halfCells attr (pos + bytes.length)) :
    i ∈ roundChanges m attr k pos bytes st ↔
      bytes.getLast? ≠ some (readByte m attr (st.view k) (st.cons k) (pos + bytes.length - 1)) := by
  cases attr with
  | false => exact absurd (show 2 * i + 1 = 2 * (pos + bytes.length) from hend) (by omega)
  | true =>
    have hbyte : 2 * i + 1 = pos + bytes.length - HEADER_SIZE := hend
    have hlen : (bytes.drop (HEADER_SIZE - pos)).length = bytes.length - (HEADER_SIZE - pos) :=
      List.length_drop
    have hpos := List.length_pos_iff.mpr hsome
    have hrest : bytes.drop (HEADER_SIZE - pos) ≠ [] := by
      rw [← List.length_pos_iff]
      omega
    have hlast : (bytes.drop (HEADER_SIZE - pos)).getLast? = bytes.getLast? := by
      rw [List.getLast?_drop, if_neg (by omega)]
    rw [roundChanges, show pushRound m true (st.view k) (st.cons k) pos bytes = _ from if_neg hrest,
      pushFirst_front h]
    have himage := (pushes_pushCells (m := m) h.paved (pos - HEADER_SIZE)
      (bytes.drop (HEADER_SIZE - pos))).2.2
    generalize bytes.drop (HEADER_SIZE - pos) = rest at *
    change viewedCell (st.view k) (pushCells m (place (st.view k) (st.cons k)) (pos - HEADER_SIZE) rest
      (st.cons k)).1 i ≠ viewedCell (st.view k) (st.cons k) i ↔ _
    have hfirst := himage (2 * i) (.inl (by omega))
    have hsecond := himage (2 * i + 1) (.inl (by omega))
    generalize (pushCells m (place (st.view k) (st.cons k)) (pos - HEADER_SIZE) rest (st.cons k)).1 = s'
      at *
    rw [splice_of_ge _ _ (by omega), wordByte, wordByte, if_neg (by omega), if_neg (by omega),
      show (2 * i + 1) / 2 = i by omega] at hsecond
    rw [← hlast, List.getLast?_eq_getElem?, readByte_words (by omega),
      show pos + bytes.length - 1 - HEADER_SIZE = 2 * i by omega]
    obtain ⟨c, hc⟩ : ∃ c, rest[rest.length - 1]? = some c :=
      ⟨_, List.getElem?_eq_getElem (by omega)⟩
    rw [splice, if_pos (by omega), show 2 * i - (pos - HEADER_SIZE) = rest.length - 1 by omega, hc,
      wordByte, if_pos (by omega), Nat.mul_div_cancel_left i (by decide)] at hfirst
    rw [hc, wordByte, if_pos (by omega), Nat.mul_div_cancel_left i (by decide), Ne,
      cell_eq_iff m hsecond, hfirst, Ne, Option.some.injEq]
    rfl

/-! ### The selection is cleared once -/

/-- The consoles when a selection on console `k` has been cleared. -/
def unselected (d : Nat → Driver) (st : Selection) (k : Nat) : Selection :=
  if st.selCons = some k then clearSelection d st else st

theorem not_overlaid_unselected (st : Selection) (a : Nat) : ¬Overlaid (unselected d st k) k a := by
  rw [unselected]
  split
  case isTrue => exact not_overlaid_clear st a
  case isFalse hsel => exact fun ho => hsel ho.1

theorem samePlace_unselected (st : Selection) : SamePlace (st.cons k) ((unselected d st k).cons k) := by
  rw [unselected]
  split
  · exact samePlace_clearSelection st k
  · exact ⟨rfl, rfl, rfl⟩

theorem visibleOrigin_unselected (st : Selection) :
    (unselected d st k).visibleOrigin = st.visibleOrigin := by
  rw [unselected]
  split
  · exact visibleOrigin_clearSelection st
  · rfl

/-- `update_region` clears the selection and does nothing more to the cells. -/
theorem calm_unselected (hv : (st.cons k).vt.visible = true) (start count : Nat) :
    Calm k (unselected d st k) (updateRegion d st k start count) := by
  rw [updateRegion, if_pos hv, hideCursorOn]
  exact ((calm_onCon _ (readsSame_hideCursor _)).trans
    (calm_onCon _ (readsSame_doUpdateRegion _ start count))).trans (calm_setCursorOn _)

theorem unpointed_kept {a : Nat} {cons cons' : Nat → Con} (ptr : Option Pointer)
    (h : (cons' k).mem a = (cons k).mem a) : unpointed cons' ptr k a = unpointed cons ptr k a := by
  cases ptr with
  | none => exact h
  | some p =>
    rw [unpointed_some, unpointed_some]
    split
    · by_cases ha : a = p.addr
      · rw [ha, Function.update_self, Function.update_self]
      · rw [Function.update_of_ne ha, Function.update_of_ne ha, h]
    · exact h

/-- What clearing the selection makes of a cell does not depend on the others. -/
theorem unselected_onCon (hd : (d k).conInvertRegion = none ∨
      (d k).conInvertRegion = some vgaconInvertRegion) {a : Nat} (hplace : SamePlace (st.cons k) s')
    (hrend : s'.rend = (st.cons k).rend) (h : KeptAt a (st.cons k) s') :
    vcsScrReadw ((unselected d (st.onCon k fun _ => s') k).cons k) a =
      vcsScrReadw ((unselected d st k).cons k) a := by
  have hself : (st.onCon k fun _ => s').cons k = s' := st.onCon_self k _
  by_cases hsel : st.selCons = some k
  · have hsel' : (st.onCon k fun _ => s').selCons = some k := hsel
    rw [unselected, unselected, if_pos hsel, if_pos hsel']
    have hkept : KeptAt a ((clearSelection d st).cons k)
        ((clearSelection d (st.onCon k fun _ => s')).cons k) := by
      have hbare : unpointed (st.onCon k fun _ => s').cons st.pointer k a =
          unpointed st.cons st.pointer k a := unpointed_kept st.pointer (by rw [hself, h.mem])
      have hhook : invertHook (d k) ((hidePointer (st.onCon k fun _ => s')).cons k) =
          invertHook (d k) ((hidePointer st).cons k) := by
        have hrends : ((hidePointer (st.onCon k fun _ => s')).cons k).rend =
            ((hidePointer st).cons k).rend := by
          rw [field_hidePointer (g := Con.rend) (fun _ _ _ => rfl) (fun _ _ => rfl),
            field_hidePointer (g := Con.rend) (fun _ _ _ => rfl) (fun _ _ => rfl), hself, hrend]
        exact invertHook_congr hd (by rw [hrends]) (by rw [hrends])
      have hvt (st : Selection) : ((clearSelection d st).cons k).vt = (st.cons k).vt :=
        field_clearSelection (g := Con.vt) (fun _ _ _ => rfl) (fun _ _ => rfl)
          (fun D _ s _ _ => vt_invertAt D s _ _) st k
      refine ⟨?_, fun ha => ?_⟩
      · by_cases hin : InHighlight st k a
        · rw [(mem_clearSelection hsel a).1 hin, (mem_clearSelection hsel' a).1 hin, hhook]
          exact congrArg _ hbare
        · rw [(mem_clearSelection hsel a).2 hin, (mem_clearSelection hsel' a).2 hin]
          exact hbare
      · rw [(samePlace_clearSelection st k).cur] at ha
        rw [hvt, hvt, hself]
        exact h.saved ha
    refine hkept.read ?_
    rw [(samePlace_clearSelection _ k).cur, (samePlace_clearSelection _ k).cur, hself, hplace.cur]
  · have hsel' : ¬(st.onCon k fun _ => s').selCons = some k := hsel
    rw [unselected, unselected, if_neg hsel, if_neg hsel', hself, h.read hplace.cur]

/-- What a round that has come to the cells leaves: nothing is laid over the cells, and behind its
end they are as the selection has left them. -/
theorem unselected_writeRound (hd : (d k).conInvertRegion = none ∨
      (d k).conInvertRegion = some vgaconInvertRegion) (h : Fronted (st.view k) (st.cons k)) (m : Arch)
    {pos : Nat} {bytes : List Byte} (hsome : bytes ≠ [])
    (hcells : 0 < halfCells attr (pos + bytes.length)) :
    (∀ a, ¬Overlaid (writeRound d m attr k pos bytes st).1 k a) ∧
    ∀ i, halfCells attr (pos + bytes.length) ≤ 2 * i →
      viewedCell ((writeRound d m attr k pos bytes st).1.view k)
          ((writeRound d m attr k pos bytes st).1.cons k) i =
        viewedCell (st.view k) ((unselected d st k).cons k) i := by
  obtain ⟨hfills, hregion⟩ := fills_pushRound h m attr pos hsome
  obtain ⟨hstart, hend⟩ := hregion.resolve_left fun hnone => by omega
  rw [writeRound]
  generalize pushRound m attr (st.view k) (st.cons k) pos bytes = r at *
  rw [hstart]
  dsimp only
  have hself : (st.onCon k fun _ => r.con).cons k = r.con := st.onCon_self k _
  have hv : ((st.onCon k fun _ => r.con).cons k).vt.visible = true := by
    rw [hself, hfills.place.visible, h.visible]
  have hcalm := calm_unselected (d := d) hv ((st.cons k).geo.origin + 2 * (halfCells attr pos / 2))
    ((r.org - ((st.cons k).geo.origin + 2 * (halfCells attr pos / 2))) / 2)
  generalize updateRegion d (st.onCon k fun _ => r.con) k _ _ = st' at hcalm
  refine ⟨fun a ho => not_overlaid_unselected _ a (hcalm.overlay a ho), fun i hi => ?_⟩
  have hkept := unselected_onCon hd hfills.place hfills.rend (hfills.others i (.inr (by omega)))
  have hread := hcalm.cells (viewedAddr (st.view k) (st.cons k) i) (not_overlaid_unselected _ _)
  have hview : st'.view k = st.view k := view_of_origin (hcalm.origin.trans (visibleOrigin_unselected _))
  have hcleared := samePlace_unselected (d := d) (k := k) (st.onCon k fun _ => r.con)
  rw [hself] at hcleared
  rw [viewedCell, viewedCell, hview, ((hfills.place.trans hcleared).trans hcalm.place).viewedAddr,
    (samePlace_unselected st).viewedAddr, hread, hkept]

/-! ### The rounds -/

/-- A round of a write: the consoles before it, its position and its bytes. -/
structure WriteRound where
  st : Selection
  pos : Nat
  bytes : List Byte

/-- The rounds of a write of `bytes`. -/
def writeRounds (d : Nat → Driver) (m : Arch) (bufSize : Nat) (attr : Bool) (k : Nat) :
    Nat → Nat → List Byte → Selection → List WriteRound
  | 0, _, _, _ => []
  | fuel + 1, pos, bytes, st =>
    if bytes = [] then []
    else
      let first := bytes.take bufSize
      ⟨st, pos, first⟩ :: writeRounds d m bufSize attr k fuel (pos + first.length)
        (bytes.drop first.length) (writeRound d m attr k pos first st).1

/-- The cells whose value the round changes. -/
def WriteRound.changes (m : Arch) (attr : Bool) (k : Nat) (r : WriteRound) : Set Nat :=
  roundChanges m attr k r.pos r.bytes r.st

variable {bufSize : Nat}

theorem writeRounds_nil (n pos : Nat) : writeRounds d m bufSize attr k n pos [] st = [] := by
  cases n with
  | zero => rfl
  | succ n => exact if_pos rfl

theorem writeRounds_cons {bytes : List Byte} (hsome : bytes ≠ []) (n pos : Nat) :
    writeRounds d m bufSize attr k (n + 1) pos bytes st =
      ⟨st, pos, bytes.take bufSize⟩ :: writeRounds d m bufSize attr k n
        (pos + (bytes.take bufSize).length) (bytes.drop (bytes.take bufSize).length)
        (writeRound d m attr k pos (bytes.take bufSize) st).1 := if_neg hsome

theorem getLast?_rounds {r : WriteRound} {rs : List WriteRound} :
    (r :: rs).getLast? = if rs = [] then some r else rs.getLast? := by
  rw [List.getLast?_cons]
  cases rs with
  | nil => rfl
  | cons r' rs =>
    rw [if_neg (List.cons_ne_nil r' rs), List.getLast?_cons]
    rfl

theorem halfCells_le {pos pos' : Nat} (h : pos ≤ pos') : halfCells attr pos ≤ halfCells attr pos' := by
  rw [halfCells, halfCells]
  split <;> omega

theorem halfCells_lt (attr : Bool) {pos pos' : Nat} (h : pos < pos') (hcells : 0 < halfCells attr pos') :
    halfCells attr pos < halfCells attr pos' := by
  cases attr with
  | false => exact Nat.mul_lt_mul_of_pos_left h (by decide)
  | true =>
    change 0 < pos' - HEADER_SIZE at hcells
    show pos - HEADER_SIZE < pos' - HEADER_SIZE
    omega

/-- The cells a call of `vcs_write` leaves stale: the last one, where the last round ends within it
and changes it. -/
def leftStale (m : Arch) (attr : Bool) (k finish : Nat) (S : Set Nat) (rounds : List WriteRound) :
    Set Nat :=
  {i | 2 * i + 1 = halfCells attr finish ∧
    (i ∈ S ∨ ∃ r, rounds.getLast? = some r ∧ i ∈ r.changes m attr k)}

/-- **What the loop of `vcs_write` refreshes.** -/
structure LoopSweeps (m : Arch) (attr : Bool) (k pos : Nat) (bytes : List Byte)
    (rounds : List WriteRound) (w w' : WriteState) : Prop where
  regions : ∃ regions, w'.regions = w.regions ++ regions ∧
    ∀ i, (∃ region ∈ regions, InRegion ((w.st.cons k).geo.origin + 2 * i) region) ↔
      halfCells attr pos / 2 ≤ i ∧ i < halfCells attr (pos + bytes.length) / 2
  sweeps : ∀ S, (∀ i ∈ S, 2 * i + 1 = halfCells attr pos) →
    Sweeps k S (leftStale m attr k (pos + bytes.length) S rounds) w.st w'.st

theorem LoopSweeps.nothing {pos : Nat} {w w' : WriteState} {rounds : List WriteRound}
    (h : Fronted (w.st.view k) (w.st.cons k)) (ht : Tidy w.st k) (hst : w'.st = w.st)
    (hregions : w'.regions = w.regions) : LoopSweeps m attr k pos [] rounds w w' := by
  refine ⟨⟨[], by rw [hregions, List.append_nil], fun i => iff_of_false ?_ ?_⟩, fun S hS => ?_⟩
  · rintro ⟨region, hmem, -⟩
    exact absurd hmem List.not_mem_nil
  · rw [List.length_nil, Nat.add_zero]
    omega
  · rw [hst]
    exact (Sweeps.refl h ht S).mono fun i hi => ⟨hS i hi, .inl hi⟩

theorem LoopSweeps.cons {pos : Nat} {first rest : List Byte} {rounds : List WriteRound}
    {w w₁ w' : WriteState} {r : Selection × List (Nat × Nat)} (hsome : first ≠ [])
    (hround : RoundSweeps attr k pos first (roundChanges m attr k pos first w.st) w.st r)
    (hst : w₁.st = r.1) (hregions : w₁.regions = w.regions ++ r.2) (hrounds : rounds = [] ↔ rest = [])
    (h : LoopSweeps m attr k (pos + first.length) rest rounds w₁ w') :
    LoopSweeps m attr k pos (first ++ rest) (⟨w.st, pos, first⟩ :: rounds) w w' := by
  have hlen := List.length_pos_iff.mpr hsome
  have hend : pos + (first ++ rest).length = pos + first.length + rest.length := by
    rw [List.length_append, Nat.add_assoc]
  have hgeo := (hround.sweeps ∅).leaves.geo
  have hfirst : halfCells attr pos ≤ halfCells attr (pos + first.length) :=
    halfCells_le (Nat.le_add_right _ _)
  have hmore : halfCells attr (pos + first.length) ≤ halfCells attr (pos + first.length + rest.length) :=
    halfCells_le (Nat.le_add_right _ _)
  obtain ⟨⟨regions, hregs, hin⟩, hsweeps⟩ := h
  rw [hst, hgeo] at hin
  refine ⟨⟨r.2 ++ regions, ?_, fun i => ?_⟩, fun S hS => ?_⟩
  · rw [hregs, hregions, List.append_assoc]
  · have hboth : (∃ region ∈ r.2 ++ regions, InRegion ((w.st.cons k).geo.origin + 2 * i) region) ↔
        (∃ region ∈ r.2, InRegion ((w.st.cons k).geo.origin + 2 * i) region) ∨
          ∃ region ∈ regions, InRegion ((w.st.cons k).geo.origin + 2 * i) region := by
      simp only [List.mem_append, or_and_right, exists_or]
    rw [hboth, hround.regions, hin, hend]
    omega
  · have hleft : ∀ i ∈ (S ∪ roundChanges m attr k pos first w.st) \
        {i | halfCells attr pos / 2 ≤ i ∧ i < halfCells attr (pos + first.length) / 2},
        2 * i + 1 = halfCells attr (pos + first.length) ∧ i ∈ roundChanges m attr k pos first w.st := by
      rintro i ⟨hi | hi, hout⟩
      · -- a cell that was stale before the round is the first one of its region
        have hodd := hS i hi
        have hlt := halfCells_lt attr (show pos < pos + first.length by omega) (by omega)
        exact absurd ⟨by omega, by omega⟩ hout
      · obtain ⟨hlow, hhigh⟩ := hround.within i hi
        refine ⟨?_, hi⟩
        by_contra hne
        exact hout ⟨hlow, by omega⟩
    have hrest := hsweeps _ fun i hi => (hleft i hi).1
    rw [hst] at hrest
    refine ((hround.sweeps S).trans hrest).mono ?_
    rintro i ⟨hodd, hi⟩
    refine ⟨by rw [hend]; exact hodd, .inr ?_⟩
    rw [getLast?_rounds]
    by_cases hnone : rounds = []
    · rw [if_pos hnone]
      refine ⟨_, rfl, ?_⟩
      rcases hi with hi | ⟨r', hr', -⟩
      · exact (hleft i hi).2
      · rw [hnone] at hr'
        exact absurd hr'.symm (Option.some_ne_none r')
    · rw [if_neg hnone]
      refine hi.resolve_left fun hi => ?_
      have hodd' := (hleft i hi).1
      have hrest' := List.length_pos_iff.mpr fun heq => hnone (hrounds.mpr heq)
      have hlt := halfCells_lt attr
        (show pos + first.length < pos + first.length + rest.length by omega) (by omega)
      omega

theorem writeRounds_eq_nil {n pos : Nat} {bytes : List Byte} (hn : bytes.length ≤ n) :
    writeRounds d m bufSize attr k n pos bytes st = [] ↔ bytes = [] := by
  refine ⟨fun h => ?_, fun h => by rw [h, writeRounds_nil]⟩
  by_contra hsome
  obtain ⟨n, rfl⟩ : ∃ n', n = n' + 1 :=
    Nat.exists_eq_add_one_of_ne_zero (by have := List.length_pos_iff.mpr hsome; omega)
  rw [writeRounds_cons hsome] at h
  exact absurd h (List.cons_ne_nil _ _)

/-- **The loop refreshes** all that its rounds change but for its last half cell. -/
theorem vcsWriteLoop_sweeps (hbuf : 0 < bufSize) (m : Arch) (attr : Bool) (fuel : Nat) :
    ∀ n pos count buf w, count < fuel → (buf.take count).length ≤ n →
      pos + count ≤ vcsSize (w.st.cons k).geo attr → Fronted (w.st.view k) (w.st.cons k) →
      Tidy w.st k →
      ∃ w', vcsWriteLoop d m bufSize attr k fuel pos count buf w = some w' ∧
        LoopSweeps m attr k pos (buf.take count)
          (writeRounds d m bufSize attr k n pos (buf.take count) w.st) w w' := by
  induction fuel with
  | zero => exact fun _ _ _ _ _ hfuel => absurd hfuel (Nat.not_lt_zero _)
  | succ fuel ih =>
    intro n pos count buf w hfuel hn hfits h ht
    rw [vcsWriteLoop.eq_def]
    by_cases hcount : count = 0
    · refine ⟨w, if_pos hcount, ?_⟩
      rw [hcount, List.take_zero]
      exact .nothing h ht rfl rfl
    simp only [if_neg hcount]
    have hthis : (if count > bufSize then bufSize else count) = min bufSize count := by
      split <;> omega
    rw [hthis]
    by_cases hempty : buf = []
    · have htake : buf.take (min bufSize count) = [] := by rw [hempty, List.take_nil]
      rw [if_pos htake]
      refine ⟨_, rfl, ?_⟩
      rw [hempty, List.take_nil]
      refine .nothing h ht ?_ ?_
      · exact (apply_ite WriteState.st _ _ _).trans (ite_self _)
      · exact (apply_ite WriteState.regions _ _ _).trans (ite_self _)
    have hlen : 0 < buf.length := List.length_pos_iff.mpr hempty
    have hwhole : buf.take count ≠ [] := by
      rw [← List.length_pos_iff, List.length_take]
      omega
    have hfirst : buf.take (min bufSize count) = (buf.take count).take bufSize := by
      rw [List.take_take]
    have htake : (buf.take count).take bufSize ≠ [] := by
      rw [← List.length_pos_iff, List.length_take, List.length_take]
      omega
    have hl : ((buf.take count).take bufSize).length = min bufSize (min count buf.length) := by
      rw [List.length_take, List.length_take]
    have hfull : ((buf.take count).take bufSize).take (vcsSize (w.st.cons k).geo attr - pos) =
        (buf.take count).take bufSize := List.take_of_length_le (by omega)
    rw [hfirst, if_neg htake, if_neg (by omega), hfull]
    obtain ⟨n, rfl⟩ : ∃ n', n = n' + 1 :=
      Nat.exists_eq_add_one_of_ne_zero (by have := List.length_pos_iff.mpr hwhole; omega)
    rw [writeRounds_cons hwhole]
    have hrest : (buf.drop ((buf.take count).take bufSize).length).take
        (count - ((buf.take count).take bufSize).length) =
        (buf.take count).drop ((buf.take count).take bufSize).length := List.drop_take.symm
    have hjoin : (buf.take count).take bufSize ++
        (buf.take count).drop ((buf.take count).take bufSize).length = buf.take count := by
      have hdrop : (buf.take count).drop ((buf.take count).take bufSize).length =
          (buf.take count).drop bufSize := by
        rw [List.drop_eq_drop_iff, List.length_take, Nat.min_assoc, Nat.min_self]
      rw [hdrop, List.take_append_drop]
    have hround := sweeps_writeRound (d := d) h ht m attr pos htake
    generalize (buf.take count).take bufSize = first at *
    have hsweep := hround.sweeps ∅
    obtain ⟨w', heq, hloop⟩ := ih n (pos + first.length) (count - first.length) (buf.drop first.length)
      { w with
        st := (writeRound d m attr k pos first w.st).1
        written := w.written + first.length
        regions := w.regions ++ (writeRound d m attr k pos first w.st).2 }
      (by have := List.length_pos_iff.mpr htake; omega)
      (by rw [hrest, List.length_drop]; have := List.length_pos_iff.mpr htake; omega)
      (show _ ≤ vcsSize ((writeRound d m attr k pos first w.st).1.cons k).geo attr by
        rw [hsweep.leaves.geo]; omega) hsweep.fronted hsweep.tidy
    refine ⟨w', heq, ?_⟩
    rw [hrest] at hloop
    have hrounds : ((buf.take count).drop first.length).length ≤ n := by
      have := List.length_pos_iff.mpr htake
      rw [List.length_drop]
      omega
    have hcons := LoopSweeps.cons htake hround rfl rfl (writeRounds_eq_nil hrounds) hloop
    rw [hjoin] at hcons
    exact hcons

/-! ### The last round -/

/-- The consoles when the last round of a write of `bytes` begins, as far as what it has not written
is concerned. -/
def beforeLast (d : Nat → Driver) (bufSize : Nat) (st : Selection) (k : Nat) (bytes : List Byte) :
    Selection := if bytes.length ≤ bufSize then st else unselected d st k

/-- The last round of a write. -/
structure LastRound (d : Nat → Driver) (attr : Bool) (k bufSize pos : Nat) (bytes : List Byte)
    (st : Selection) (r : WriteRound) : Prop where
  some : r.bytes ≠ []
  last : r.bytes.getLast? = bytes.getLast?
  finish : r.pos + r.bytes.length = pos + bytes.length
  fronted : Fronted (r.st.view k) (r.st.cons k)
  cell : ∀ i, 2 * i + 1 = halfCells attr (pos + bytes.length) →
    viewedCell (r.st.view k) (r.st.cons k) i =
      viewedCell (st.view k) ((beforeLast d bufSize st k bytes).cons k) i

/-- Once nothing is laid over the cells, clearing the selection does not change them. -/
theorem unselected_bare (h : ∀ a, ¬Overlaid st k a) (i : Nat) :
    viewedCell (st.view k) ((unselected d st k).cons k) i = viewedCell (st.view k) (st.cons k) i := by
  rw [viewedCell, viewedCell, (samePlace_unselected st).viewedAddr]
  exact (calm_clear st).cells _ (h _)

/-- **The rounds of a write**: what each changes lies between the ends of the write, only the last one
comes to a last half cell, and finds there what was there before. -/
theorem writeRounds_spec (hd : (d k).conInvertRegion = none ∨
      (d k).conInvertRegion = some vgaconInvertRegion) (hbuf : HEADER_SIZE < bufSize) (m : Arch)
    (attr : Bool) (n : Nat) : ∀ pos bytes st, bytes.length ≤ n → bytes ≠ [] →
      Fronted (st.view k) (st.cons k) → Tidy st k →
      (∀ r ∈ writeRounds d m bufSize attr k n pos bytes st, ∀ i ∈ r.changes m attr k,
        halfCells attr pos / 2 ≤ i ∧ 2 * i < halfCells attr (pos + bytes.length) ∧
          (2 * i + 1 = halfCells attr (pos + bytes.length) →
            (writeRounds d m bufSize attr k n pos bytes st).getLast? = some r)) ∧
      ∃ r, (writeRounds d m bufSize attr k n pos bytes st).getLast? = some r ∧
        LastRound d attr k bufSize pos bytes st r := by
  induction n with
  | zero =>
    intro pos bytes st hn hsome
    exact absurd (List.length_eq_zero_iff.mp (Nat.le_zero.mp hn)) hsome
  | succ n ih =>
    intro pos bytes st hn hsome h ht
    have hpos := List.length_pos_iff.mpr hsome
    have hl : (bytes.take bufSize).length = min bufSize bytes.length := List.length_take
    have hfirst : bytes.take bufSize ≠ [] := by
      rw [← List.length_pos_iff]
      omega
    have hround := sweeps_writeRound (d := d) h ht m attr pos hfirst
    have hend : halfCells attr (pos + (bytes.take bufSize).length) ≤ halfCells attr (pos + bytes.length) :=
      halfCells_le (by omega)
    rw [writeRounds_cons hsome, getLast?_rounds]
    by_cases hrest : bytes.length ≤ bufSize
    · have hwhole : bytes.take bufSize = bytes := List.take_of_length_le hrest
      have hdone : bytes.drop bytes.length = [] := List.drop_length
      rw [hwhole] at hround
      rw [hwhole, hdone, writeRounds_nil, if_pos rfl]
      refine ⟨fun r hr i hi => ?_, _, rfl, hsome, rfl, rfl, h, fun i _ => ?_⟩
      · rw [List.mem_singleton] at hr
        rw [hr] at hi ⊢
        exact ⟨(hround.within i hi).1, (hround.within i hi).2, fun _ => rfl⟩
      · rw [beforeLast, if_pos hrest]
    · have hlen : (bytes.take bufSize).length = bufSize := by omega
      have hmore : bytes.drop (bytes.take bufSize).length ≠ [] := by
        rw [← List.length_pos_iff, List.length_drop]
        omega
      have hsize : pos + (bytes.take bufSize).length + (bytes.drop (bytes.take bufSize).length).length =
          pos + bytes.length := by
        rw [List.length_drop]
        omega
      have hrestlen : (bytes.drop (bytes.take bufSize).length).length ≤ n := by
        rw [List.length_drop]
        omega
      have hcome : 0 < halfCells attr (pos + (bytes.take bufSize).length) := by
        rw [halfCells]
        split <;> omega
      have hsweep := hround.sweeps ∅
      obtain ⟨hbare, hcells⟩ := unselected_writeRound hd h m hfirst hcome
      obtain ⟨hwithin, r, hr, hlast⟩ := ih (pos + (bytes.take bufSize).length)
        (bytes.drop (bytes.take bufSize).length) _ hrestlen hmore hsweep.fronted hsweep.tidy
      have hlow : halfCells attr pos ≤ halfCells attr (pos + (bytes.take bufSize).length) :=
        halfCells_le (Nat.le_add_right _ _)
      have hbehind := halfCells_lt attr
        (show pos + (bytes.take bufSize).length < pos + bytes.length by omega) (by omega)
      rw [hsize] at hwithin
      rw [if_neg (mt (writeRounds_eq_nil hrestlen).mp hmore)]
      refine ⟨fun r' hr' i hi => ?_, r, hr, hlast.some, ?_, hlast.finish.trans hsize, hlast.fronted,
        fun i hi => ?_⟩
      · rcases List.mem_cons.mp hr' with heq | hr'
        · rw [heq] at hi
          obtain ⟨hge, hlt⟩ := hround.within i hi
          exact ⟨hge, by omega, fun heq => by omega⟩
        · obtain ⟨hge, hlt, hlast⟩ := hwithin r' hr' i hi
          exact ⟨by omega, hlt, hlast⟩
      · rw [hlast.last, List.getLast?_drop, if_neg (by omega)]
      · rw [hlast.cell i (by rw [hsize]; exact hi), beforeLast, beforeLast, if_neg hrest,
          ← hcells i (by omega)]
        split
        · rfl
        · exact unselected_bare hbare i

/-! ### Calls -/

/-- The bytes a call of `vcs_write` writes. -/
def bytesWritten (attr : Bool) (g : Geom) (pos : Int) (count : Nat) (buf : List Byte) : List Byte :=
  if pos < 0 ∨ pos > vcsSize g attr then [] else buf.take (min count (vcsSize g attr - pos.toNat))

/-- **The call has refreshed what it changes**: every cell whose value one of its rounds changes lies
in one of the regions passed to `update_region`, and a grid that showed the screen before shows it
now. -/
structure Refreshed (d : Nat → Driver) (m : Arch) (bufSize : Nat) (attr : Bool) (k : Nat)
    (st : Selection) (pos : Nat) (bytes : List Byte) (w : VcsWrite) : Prop where
  covered : ∀ r ∈ writeRounds d m bufSize attr k bytes.length pos bytes st,
    ∀ i ∈ r.changes m attr k,
      ∃ region ∈ w.regions, InRegion (viewedAddr (st.view k) (st.cons k) i) region
  shown : ∃ ds, (w.st.cons k).draws = (st.cons k).draws ++ ds ∧
    ∀ g, Shows g (st.cons k) → Shows (g.replay (st.cons k).geo ds) (w.st.cons k)

/-- The write ends on the first byte of a cell, and it is not the byte that was there. -/
def EndsWithinCell (d : Nat → Driver) (m : Arch) (bufSize : Nat) (attr : Bool) (k : Nat)
    (st : Selection) (pos : Nat) (bytes : List Byte) : Prop :=
  bytes ≠ [] ∧ halfCells attr (pos + bytes.length) % 2 = 1 ∧
    bytes.getLast? ≠ some (readByte m attr (st.view k) ((beforeLast d bufSize st k bytes).cons k)
      (pos + bytes.length - 1))

/-- The byte where the last round ends is the one that was there before the write. -/
theorem LastRound.readByte {pos i : Nat} {bytes : List Byte} {r : WriteRound}
    (h : LastRound d attr k bufSize pos bytes st r)
    (hend : 2 * i + 1 = halfCells attr (pos + bytes.length)) :
    readByte m attr (r.st.view k) (r.st.cons k) (pos + bytes.length - 1) =
      readByte m attr (st.view k) ((beforeLast d bufSize st k bytes).cons k) (pos + bytes.length - 1) := by
  cases attr with
  | false => exact absurd (show 2 * i + 1 = 2 * (pos + bytes.length) from hend) (by omega)
  | true =>
    have hbyte : 2 * i + 1 = pos + bytes.length - HEADER_SIZE := hend
    have hcell : (pos + bytes.length - 1 - HEADER_SIZE) / 2 = i := by omega
    rw [readByte_words (by omega), readByte_words (by omega), wordByte, wordByte, hcell, h.cell i hend]

/-- A cell is left stale where the write ends within it and changes it. -/
theorem leftStale_iff (hd : (d k).conInvertRegion = none ∨
      (d k).conInvertRegion = some vgaconInvertRegion) (hbuf : HEADER_SIZE < bufSize)
    (h : Fronted (st.view k) (st.cons k)) (ht : Tidy st k) (pos : Nat) (bytes : List Byte) :
    (∃ i, i ∈ leftStale m attr k (pos + bytes.length) ∅
      (writeRounds d m bufSize attr k bytes.length pos bytes st)) ↔
        EndsWithinCell d m bufSize attr k st pos bytes := by
  by_cases hsome : bytes = []
  · rw [hsome, writeRounds_nil]
    refine iff_of_false ?_ fun hends => hends.1 rfl
    rintro ⟨i, -, hi | ⟨r, hr, -⟩⟩
    · exact hi
    · exact absurd hr.symm (Option.some_ne_none r)
  obtain ⟨-, r, hr, hlast⟩ := writeRounds_spec hd hbuf m attr bytes.length pos bytes st (Nat.le_refl _)
    hsome h ht
  have hchanges : ∀ i, 2 * i + 1 = halfCells attr (pos + bytes.length) →
      (i ∈ r.changes m attr k ↔ bytes.getLast? ≠ some (LinuxConsole.readByte m attr (st.view k)
        ((beforeLast d bufSize st k bytes).cons k) (pos + bytes.length - 1))) := by
    intro i hi
    rw [WriteRound.changes, changes_last hlast.fronted hlast.some (by rw [hlast.finish]; exact hi),
      hlast.last, hlast.finish, hlast.readByte hi]
  constructor
  · rintro ⟨i, hi, hmem | ⟨r', hr', hmem⟩⟩
    · exact absurd hmem (Set.notMem_empty i)
    · rw [hr, Option.some.injEq] at hr'
      rw [← hr'] at hmem
      exact ⟨hsome, by omega, (hchanges i hi).mp hmem⟩
  · rintro ⟨-, hodd, hne⟩
    have hi : 2 * (halfCells attr (pos + bytes.length) / 2) + 1 = halfCells attr (pos + bytes.length) := by
      omega
    exact ⟨_, hi, .inr ⟨r, hr, (hchanges _ hi).mpr hne⟩⟩

/-- **When `vcs_write` refreshes what it changes.**  For every write to a device of a console in front
with a driver that displays a grid of cells, all that it changes is inside the regions passed to
`update_region`, and is displayed, unless it ends on the first byte of a cell and changes that byte:
there `org` is not advanced past the cell. -/
theorem vcs_write_refreshes_iff (hd : (d k).conInvertRegion = none ∨
      (d k).conInvertRegion = some vgaconInvertRegion) (h : Fronted (st.view k) (st.cons k))
    (ht : Tidy st k) (hbuf : HEADER_SIZE < bufSize) (m : Arch) (attr : Bool) (pos : Int) (count : Nat)
    (buf : List Byte) :
    ∃ w, vcsWrite d m bufSize attr st (some k) pos count buf = some w ∧
      let bytes := bytesWritten attr (st.cons k).geo pos count buf
      (Refreshed d m bufSize attr k st pos.toNat bytes w ↔
        ¬EndsWithinCell d m bufSize attr k st pos.toNat bytes) := by
  by_cases hpos : pos < 0 ∨ pos > vcsSize (st.cons k).geo attr
  · refine ⟨_, if_pos hpos, ?_⟩
    rw [bytesWritten, if_pos hpos]
    refine iff_of_true ⟨fun r hr => absurd hr List.not_mem_nil, [], (List.append_nil _).symm,
      fun _ hg => hg⟩ fun hends => hends.1 rfl
  have hsize : (if count > vcsSize (st.cons k).geo attr - pos.toNat then
      vcsSize (st.cons k).geo attr - pos.toNat else count) =
      min count (vcsSize (st.cons k).geo attr - pos.toNat) := by
    split <;> omega
  have hcall : vcsWrite d m bufSize attr st (some k) pos count buf = _ := if_neg hpos
  rw [hsize] at hcall
  rw [bytesWritten, if_neg hpos]
  generalize hn : min count (vcsSize (st.cons k).geo attr - pos.toNat) = n at *
  obtain ⟨w, heq, ⟨regions, hregions, hin⟩, hsweeps⟩ := vcsWriteLoop_sweeps (d := d) (k := k)
    (show 0 < bufSize by omega) m attr (n + 1) (buf.take n).length pos.toNat n buf ⟨st, 0, false, []⟩
    (by omega) (Nat.le_refl _) (show pos.toNat + n ≤ vcsSize (st.cons k).geo attr by omega) h ht
  rw [heq] at hcall
  refine ⟨w.finish pos, hcall, ?_⟩
  intro bytes
  have hst : (w.finish pos).st = w.st := by
    rw [WriteState.finish]
    exact (apply_ite VcsWrite.st _ _ _).trans (ite_self _)
  have hregs : (w.finish pos).regions = regions := by
    rw [WriteState.finish]
    split
    · exact hregions
    · exact hregions
  have hstale : (∃ i, i ∈ leftStale m attr k (pos.toNat + bytes.length) ∅
      (writeRounds d m bufSize attr k bytes.length pos.toNat bytes st)) ↔
        EndsWithinCell d m bufSize attr k st pos.toNat bytes :=
    leftStale_iff hd hbuf h ht pos.toNat bytes
  rw [← hstale]
  constructor
  · rintro ⟨hcovered, -⟩ ⟨i, hi, hmem | ⟨r, hr, hmem⟩⟩
    · exact Set.notMem_empty i hmem
    · obtain ⟨region, hregion, hat⟩ := hcovered r (List.mem_of_getLast? hr) i hmem
      rw [hregs] at hregion
      rw [h.viewedAddr] at hat
      have hlt := ((hin i).mp ⟨region, hregion, hat⟩).2
      change i < halfCells attr (pos.toNat + bytes.length) / 2 at hlt
      omega
  · intro hnone
    refine ⟨fun r hr i hi => ?_, ?_⟩
    · have hsome : bytes ≠ [] := by
        intro heq
        rw [heq, writeRounds_nil] at hr
        exact absurd hr List.not_mem_nil
      obtain ⟨hlow, hhigh, hlast⟩ := (writeRounds_spec hd hbuf m attr bytes.length pos.toNat bytes st
        (Nat.le_refl _) hsome h ht).1 r hr i hi
      have hinside : i < halfCells attr (pos.toNat + bytes.length) / 2 := by
        by_contra hout
        have hend : 2 * i + 1 = halfCells attr (pos.toNat + bytes.length) := by omega
        exact hnone ⟨i, hend, .inr ⟨r, hlast hend, hi⟩⟩
      rw [hregs, h.viewedAddr]
      exact (hin i).mpr ⟨hlow, hinside⟩
    · have hleaves := (hsweeps ∅ fun i hi => absurd hi (Set.notMem_empty i)).leaves
      have hempty : leftStale m attr k (pos.toNat + bytes.length) ∅
          (writeRounds d m bufSize attr k bytes.length pos.toNat bytes st) ⊆ ∅ :=
        fun i hi => absurd ⟨i, hi⟩ hnone
      obtain ⟨ds, hds, hshow⟩ := (hleaves.mono hempty).drawn
      rw [hst]
      refine ⟨ds, hds, fun g hg => ?_⟩
      rw [← showsBut_empty] at hg ⊢
      exact hshow g hg

/-- A whole cell of the boot console is written. -/
theorem vcs_write_refreshes_boot :
    let st := bootSelection (fun _ => bootCon) fun _ => 0x1000
    ∃ w, vcsWrite (fun _ => dummyCon) ⟨false, true⟩ 256 true st (some 0) 4 2 [0x5a, 0x07] = some w ∧
      Refreshed (fun _ => dummyCon) ⟨false, true⟩ 256 true 0 st 4 [0x5a, 0x07] w := by
  intro st
  have hf : Fronted (st.view 0) (st.cons 0) :=
    ⟨rfl, rfl, rfl, rfl, rfl, by decide, fun h => absurd h (by decide)⟩
  have ht : Tidy st 0 := ⟨fun h => absurd h (by decide), fun h => absurd h (by decide)⟩
  obtain ⟨w, hcall, hiff⟩ := vcs_write_refreshes_iff (d := fun _ => dummyCon) (.inl rfl) hf ht
    (show HEADER_SIZE < 256 by decide) ⟨false, true⟩ true 4 2 [0x5a, 0x07]
  exact ⟨w, hcall, hiff.mpr fun hends => absurd hends.2.1 (by decide)⟩

/-- **A stale cell**: the first byte of the first cell is written, the region is empty, and the cell is
displayed as before. -/
theorem vcs_write_stale :
    (vcsWrite (fun _ => dummyCon) ⟨false, true⟩ 256 true
      (bootSelection (fun _ => bootCon) fun _ => 0x1000) (some 0) 4 1 [0x5a]).map
        (fun w => (w.regions, (w.st.cons 0).cellAt 0 0, Grid.replay bootCon.geo bootCon.cellAt
          ((w.st.cons 0).draws.drop bootCon.draws.length) 0 0)) =
      some ([(0x1000, 0)], 0x075a, 0x0720) := by
  decide +kernel

end LinuxConsole

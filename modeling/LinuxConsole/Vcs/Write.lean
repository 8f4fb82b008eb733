import LinuxConsole.Vcs.Overlay

/-!
# Writing a screen device and reading it back

A round of `vcs_write` splices its bytes into the image of the console, `pushes_pushRound`, and
splices that meet are one splice: `vcsWriteLoop_writes`.  But each round writes first and calls
`update_region` afterwards, which hides the cursor and thereby clears a selection on the console.  A
cell that is highlighted, or under the pointer, is inverted or restored when it has already been
written.  `do_con_write` hides the cursor before it writes.

`vcs_write_read_iff`: **what is written is read back** where nothing lies over the cells, `Uncovered`,
and elsewhere it is not.
-/

namespace LinuxConsole

open Lib

variable {d : Nat → Driver} {st st' st'' : Selection} {k : Nat} {m : Arch} {v : View} {s : Con}
  {attr : Bool}

/-! ### A round on one console -/

/-- Where the cells begin on the device. -/
def cellStart (attr : Bool) : Nat := if attr then HEADER_SIZE else 0

/-- The position the header gives to the cursor. -/
def headerMove (pos : Nat) (bytes : List Byte) (s : Con) : Con :=
  gotoxy s (headerXy pos (bytes.take (HEADER_SIZE - pos)) s).1.toNat
    (headerXy pos (bytes.take (HEADER_SIZE - pos)) s).2.toNat

/-- The cursor behind a write of `bytes` at `pos`. -/
def headerCursor (attr : Bool) (s : Con) (pos : Nat) (bytes : List Byte) : Cursor :=
  if attr = true ∧ pos < HEADER_SIZE ∧ s.vt.visible = false then (headerMove pos bytes s).cur
  else s.cur

/-- A console that is not in front takes its cursor from the header, and draws nothing. -/
theorem pushHeader_hidden (hv : s.vt.visible = false) (pos : Nat) (bytes : List Byte) :
    pushHeader pos (bytes.take (HEADER_SIZE - pos)) s = headerMove pos bytes s := by
  have hset : ∀ x y, setCursor (gotoxy s x y) = gotoxy s x y := fun x y => by
    have hvt : (gotoxy s x y).vt = s.vt := rfl
    rw [setCursor, hvt, hv]
    exact if_pos rfl
  rw [pushHeader, hv]
  exact (if_neg Bool.false_ne_true).trans (hset _ _)

/-- What a round makes of the console: the bytes of the cells are those before with `bytes` spliced
in, and only the header moves the cursor. -/
structure RoundPushes (m : Arch) (attr : Bool) (v : View) (pos : Nat) (bytes : List Byte)
    (s s' : Con) : Prop where
  geo : s'.geo = s.geo
  visible : s'.vt.visible = s.vt.visible
  cur : s'.cur = headerCursor attr s pos bytes
  image : ∀ j, cellStart attr ≤ j → readByte m attr v s' j = splice (readByte m attr v s) pos bytes j
  attrs : attr = false → ∀ i, viewedCell v s' i >>> 8 = viewedCell v s i >>> 8

theorem pushes_plain (h : Paved v s) (pos : Nat) (bytes : List Byte) :
    RoundPushes m false v pos bytes s (pushRound m false v s pos bytes).con := by
  have hp := pushes_pushChars h bytes pos
  exact ⟨hp.same.geo, hp.same.visible, hp.same.cur, fun j _ => congrFun hp.image j,
    fun _ i => attr_pushChars h bytes pos i⟩

theorem viewedCell_headerMove (hsoft : s.vt.cursorOriginal = none) (pos : Nat) (bytes : List Byte) :
    viewedCell v (headerMove pos bytes s) = viewedCell v s := by
  have hsoft' : (headerMove pos bytes s).vt.cursorOriginal = none := hsoft
  rw [viewedCell_undrawn hsoft', viewedCell_undrawn hsoft]
  rfl

theorem pushFirst_spec (h : Paved v s) (pos : Nat) (bytes : List Byte)
    (hsoft : pos < HEADER_SIZE → s.vt.cursorOriginal = none) :
    let s₁ := pushFirst pos bytes s
    Paved v s₁ ∧ s₁.geo = s.geo ∧ s₁.vt.visible = s.vt.visible ∧
      s₁.cur = headerCursor true s pos bytes ∧ viewedCell v s₁ = viewedCell v s := by
  by_cases hpos : pos < HEADER_SIZE
  · rw [pushFirst, if_pos hpos]
    cases hv : s.vt.visible with
    | true =>
      have hkeep : pushHeader pos (bytes.take (HEADER_SIZE - pos)) s = s := if_pos hv
      have hout : ¬(true = true ∧ pos < HEADER_SIZE ∧ s.vt.visible = false) := fun hh =>
        Bool.false_ne_true (hh.2.2.symm.trans hv)
      rw [hkeep, headerCursor, if_neg hout]
      exact ⟨h, rfl, hv, rfl, rfl⟩
    | false =>
      rw [pushHeader_hidden hv, headerCursor, if_pos ⟨rfl, hpos, hv⟩]
      exact ⟨⟨h.hook, h.sizeRow, h.cols⟩, rfl, hv, rfl, viewedCell_headerMove (hsoft hpos) pos bytes⟩
  · rw [pushFirst, if_neg hpos, headerCursor, if_neg fun hh => hpos hh.2.1]
    exact ⟨h, rfl, rfl, rfl, rfl⟩

theorem splice_behind (pos : Nat) (bytes : List Byte) {j : Nat} (hj : HEADER_SIZE ≤ j) :
    splice (readByte m true v s) pos bytes j =
      splice (wordByte m (viewedCell v s)) (pos - HEADER_SIZE) (bytes.drop (HEADER_SIZE - pos))
        (j - HEADER_SIZE) := by
  rw [splice, splice, readByte_words hj, List.getElem?_drop]
  by_cases hpos : pos ≤ j
  · rw [if_pos hpos, if_pos (by omega),
      show HEADER_SIZE - pos + (j - HEADER_SIZE - (pos - HEADER_SIZE)) = j - pos by omega]
  · rw [if_neg hpos, if_neg (by omega)]

theorem pushes_attr (h : Paved v s) (hm : m.bigEndian = false) (pos : Nat) (bytes : List Byte)
    (hsoft : pos < HEADER_SIZE → s.vt.cursorOriginal = none) :
    RoundPushes m true v pos bytes s (pushRound m true v s pos bytes).con := by
  obtain ⟨hpaved, hgeo, hvis, hcur, hcells⟩ := pushFirst_spec h pos bytes hsoft
  by_cases hrest : bytes.drop (HEADER_SIZE - pos) = []
  · rw [show pushRound m true v s pos bytes = _ from if_pos hrest]
    refine ⟨hgeo, hvis, hcur, fun j hj => ?_, fun hattr => absurd hattr (by decide)⟩
    rw [splice_behind pos bytes hj, hrest, splice_nil, readByte_words hj, hcells]
  · have hplace : (fun w => screenPos v s w s.vt.visible) = place v (pushFirst pos bytes s) := by
      funext w
      rw [place, screenPos, screenPos, screenpos, screenpos, hgeo, hvis]
    obtain ⟨hsame, -, himage⟩ := pushes_pushCells (m := m) hpaved (pos - HEADER_SIZE)
      (bytes.drop (HEADER_SIZE - pos))
    rw [show pushRound m true v s pos bytes = _ from if_neg hrest, hplace]
    refine ⟨hsame.geo.trans hgeo, hsame.visible.trans hvis, hsame.cur.trans hcur, fun j hj => ?_,
      fun hattr => absurd hattr (by decide)⟩
    rw [splice_behind pos bytes hj, readByte_words hj, himage _ (.inr hm), hcells]

/-- **A round splices its bytes into the image.** -/
theorem pushes_pushRound (h : Paved v s) (hm : m.bigEndian = false) (pos : Nat) (bytes : List Byte)
    (hsoft : attr = true → pos < HEADER_SIZE → s.vt.cursorOriginal = none) :
    RoundPushes m attr v pos bytes s (pushRound m attr v s pos bytes).con := by
  cases attr with
  | false => exact pushes_plain h pos bytes
  | true => exact pushes_attr h hm pos bytes (hsoft rfl)

/-! ### A round on the consoles -/

/-- Nothing is laid over the cells of console `k`, if it is in front. -/
def Uncovered (st : Selection) (k : Nat) : Prop :=
  (st.cons k).vt.visible = true → ∀ i < (st.cons k).geo.rows * (st.cons k).geo.cols,
    ¬Overlaid st k (viewedAddr (st.view k) (st.cons k) i)

/-- What rounds make of the consoles. -/
structure Wrote (m : Arch) (attr : Bool) (k pos : Nat) (bytes : List Byte) (st st' : Selection) :
    Prop where
  geo : (st'.cons k).geo = (st.cons k).geo
  visible : (st'.cons k).vt.visible = (st.cons k).vt.visible
  origin : st'.visibleOrigin = st.visibleOrigin
  uncovered : Uncovered st' k
  image : ∀ j, cellStart attr ≤ j → j < vcsSize (st.cons k).geo attr →
    readByte m attr (st'.view k) (st'.cons k) j =
      splice (readByte m attr (st.view k) (st.cons k)) pos bytes j
  attrs : attr = false → ∀ i < (st.cons k).geo.rows * (st.cons k).geo.cols,
    viewedCell (st'.view k) (st'.cons k) i >>> 8 = viewedCell (st.view k) (st.cons k) i >>> 8

theorem Wrote.trans {pos : Nat} {bytes bytes' : List Byte} (h : Wrote m attr k pos bytes st st')
    (h' : Wrote m attr k (pos + bytes.length) bytes' st' st'') :
    Wrote m attr k pos (bytes ++ bytes') st st'' where
  geo := h'.geo.trans h.geo
  visible := h'.visible.trans h.visible
  origin := h'.origin.trans h.origin
  uncovered := h'.uncovered
  image j hj hsize := by
    rw [h'.image j hj (by rw [h.geo]; exact hsize), ← splice_append]
    exact splice_congr (h.image j hj hsize) _ bytes'
  attrs hattr i hi := by
    rw [h'.attrs hattr i (by rw [h.geo]; exact hi), h.attrs hattr i hi]

theorem readByte_congr {v' : View} {s' : Con} {j : Nat}
    (hcells : ∀ i < s.geo.rows * s.geo.cols, viewedCell v' s' i = viewedCell v s i)
    (hj : cellStart attr ≤ j) (hsize : j < vcsSize s.geo attr) :
    readByte m attr v' s' j = readByte m attr v s j := by
  cases attr with
  | false => exact congrArg (BitVec.setWidth 8) (hcells j hsize)
  | true =>
    have hheader : HEADER_SIZE ≤ j := hj
    have hin : j < 2 * (s.geo.rows * s.geo.cols) + HEADER_SIZE := hsize
    rw [readByte_words hheader, readByte_words hheader, wordByte, wordByte,
      hcells ((j - HEADER_SIZE) / 2) (by omega)]

theorem viewedCell_congr {v' : View} {s' : Con} (hv : v' = v) (hsame : SamePlace s s') {i : Nat}
    (hcell : vcsScrReadw s' (viewedAddr v s i) = vcsScrReadw s (viewedAddr v s i)) :
    viewedCell v' s' i = viewedCell v s i := by
  rw [viewedCell, viewedCell, hv, hsame.viewedAddr, hcell]

theorem view_of_origin {k : Nat} (h : st'.visibleOrigin = st.visibleOrigin) :
    st'.view k = st.view k := by
  rw [Selection.view, Selection.view, h]

theorem Calm.wrote (h : Calm k st st') (hv : (st.cons k).vt.visible = true) (hun : Uncovered st k)
    (pos : Nat) : Wrote m attr k pos [] st st' := by
  have hview : st'.view k = st.view k := view_of_origin h.origin
  have hcells : ∀ i < (st.cons k).geo.rows * (st.cons k).geo.cols,
      viewedCell (st'.view k) (st'.cons k) i = viewedCell (st.view k) (st.cons k) i :=
    fun i hi => viewedCell_congr hview h.place (h.cells _ (hun hv i hi))
  refine ⟨h.place.geo, h.place.visible, h.origin, fun _ i hi ha => ?_, fun j hj hsize => ?_,
    fun _ i hi => by rw [hcells i hi]⟩
  · rw [hview, h.place.viewedAddr] at ha
    rw [h.place.geo] at hi
    exact hun hv i hi (h.overlay _ ha)
  · rw [splice_nil]
    exact readByte_congr hcells hj hsize

theorem wrote_updateRegion (hun : Uncovered st k) (m : Arch) (attr : Bool) (pos start count : Nat) :
    Wrote m attr k pos [] st (updateRegion d st k start count) := by
  cases hv : (st.cons k).vt.visible with
  | true => exact (calm_updateRegion st start count).wrote hv hun pos
  | false =>
    have hkeep : updateRegion d st k start count = st := by
      rw [updateRegion, hv]
      exact if_neg Bool.false_ne_true
    rw [hkeep]
    refine ⟨rfl, rfl, rfl, hun, fun j _ _ => ?_, fun _ _ _ => rfl⟩
    rw [splice_nil]

theorem RoundPushes.wrote {pos : Nat} {bytes : List Byte} {s' : Con}
    (h : RoundPushes m attr (st.view k) pos bytes (st.cons k) s') (hun : Uncovered st k) :
    Wrote m attr k pos bytes st (st.onCon k fun _ => s') := by
  have hcon : (st.onCon k fun _ => s').cons k = s' := st.onCon_self k _
  have haddr : viewedAddr (st.view k) s' = viewedAddr (st.view k) (st.cons k) := by
    funext i
    rw [viewedAddr, viewedAddr, screenpos, screenpos, h.geo, h.visible]
  refine ⟨by rw [hcon, h.geo], by rw [hcon, h.visible], rfl, fun hv i hi => ?_, fun j hj _ => ?_,
    fun hattr i _ => ?_⟩
  · rw [hcon] at hv hi ⊢
    rw [h.visible] at hv
    rw [h.geo] at hi
    have hview : (st.onCon k fun _ => s').view k = st.view k := rfl
    rw [hview, haddr]
    exact hun hv i hi
  · rw [hcon]
    exact h.image j hj
  · rw [hcon]
    exact h.attrs hattr i

/-- **A round writes its bytes**, and leaves the cursor to the header. -/
theorem writeRound_wrote (hp : Paved (st.view k) (st.cons k)) (hm : m.bigEndian = false)
    (hun : Uncovered st k) (attr : Bool) (pos : Nat) (bytes : List Byte)
    (hsoft : attr = true → pos < HEADER_SIZE → (st.cons k).vt.cursorOriginal = none) :
    Wrote m attr k pos bytes st (writeRound d m attr k pos bytes st).1 ∧
      ((writeRound d m attr k pos bytes st).1.cons k).cur = headerCursor attr (st.cons k) pos bytes := by
  have hpush := pushes_pushRound hp hm pos bytes hsoft
  have hwrote := hpush.wrote hun
  have hcur : ((st.onCon k fun _ => (pushRound m attr (st.view k) (st.cons k) pos bytes).con).cons k).cur
      = headerCursor attr (st.cons k) pos bytes := by
    rw [Selection.onCon_self]
    exact hpush.cur
  rw [writeRound]
  split
  · exact ⟨hwrote, hcur⟩
  · next org0 _ =>
    have hregion := wrote_updateRegion (d := d) hwrote.uncovered m attr (pos + bytes.length) org0
      (((pushRound m attr (st.view k) (st.cons k) pos bytes).org - org0) / 2)
    have hjoin := hwrote.trans hregion
    rw [List.append_nil] at hjoin
    exact ⟨hjoin, (calm_updateRegion _ org0 _).place.cur.trans hcur⟩

theorem writeRound_soft {pos : Nat} {bytes : List Byte} (hin : pos + bytes.length < HEADER_SIZE)
    (hsoft : (st.cons k).vt.cursorOriginal = none) :
    ((writeRound d m true k pos bytes st).1.cons k).vt.cursorOriginal = none := by
  have hrest : bytes.drop (HEADER_SIZE - pos) = [] := List.drop_of_length_le (by omega)
  have hround : pushRound m true (st.view k) (st.cons k) pos bytes =
    ⟨pushFirst pos bytes (st.cons k), none, 0⟩ := if_pos hrest
  rw [writeRound, hround]
  change ((st.onCon k fun _ => pushFirst pos bytes (st.cons k)).cons k).vt.cursorOriginal = none
  rw [Selection.onCon_self, pushFirst, if_pos (by omega)]
  cases hv : (st.cons k).vt.visible with
  | true =>
    rw [show pushHeader pos (bytes.take (HEADER_SIZE - pos)) (st.cons k) = st.cons k from if_pos hv]
    exact hsoft
  | false =>
    rw [pushHeader_hidden hv]
    exact hsoft

/-! ### The rounds -/

/-- The cursor behind a write of `bytes` at `pos`, if there are any. -/
def cursorBehind (attr : Bool) (s : Con) (pos : Nat) (bytes : List Byte) : Cursor :=
  if bytes = [] then s.cur else headerCursor attr s pos bytes

theorem headerCursor_behind {pos : Nat} {bytes : List Byte} (h : HEADER_SIZE ≤ pos) :
    headerCursor attr s pos bytes = s.cur := if_neg fun hh => absurd hh.2.1 (by omega)

theorem headerCursor_append {pos : Nat} {bytes rest : List Byte}
    (h : rest = [] ∨ HEADER_SIZE ≤ pos + bytes.length) :
    headerCursor attr s pos (bytes ++ rest) = headerCursor attr s pos bytes := by
  have htake : (bytes ++ rest).take (HEADER_SIZE - pos) = bytes.take (HEADER_SIZE - pos) := by
    rcases h with hnone | hlong
    · rw [hnone, List.append_nil]
    · exact List.take_append_of_le_length (by omega)
  rw [headerCursor, headerCursor, headerMove, headerMove, htake]

/-- **What the loop of `vcs_write` does**, for `count` bytes that fit. -/
structure LoopWrites (m : Arch) (attr : Bool) (k bufSize pos count : Nat) (buf : List Byte)
    (w w' : WriteState) : Prop where
  wrote : Wrote m attr k pos (buf.take count) w.st w'.st
  written : w'.written = w.written + (buf.take count).length
  fault : w'.fault = true ↔ w.fault = true ∨ (w.written = 0 ∧ count ≠ 0 ∧ buf = [])
  cursor : HEADER_SIZE ≤ bufSize →
    (w'.st.cons k).cur = cursorBehind attr (w.st.cons k) pos (buf.take count)

theorem LoopWrites.nothing {bufSize pos count : Nat} {buf : List Byte} {w w' : WriteState}
    (hnone : buf.take count = []) (hst : w'.st = w.st) (hwritten : w'.written = w.written)
    (hun : Uncovered w.st k)
    (hfault : w'.fault = true ↔ w.fault = true ∨ (w.written = 0 ∧ count ≠ 0 ∧ buf = [])) :
    LoopWrites m attr k bufSize pos count buf w w' := by
  refine ⟨?_, ?_, hfault, fun _ => by rw [hst, hnone, cursorBehind, if_pos rfl]⟩
  · rw [hnone, hst]
    refine ⟨rfl, rfl, rfl, hun, fun j _ _ => ?_, fun _ _ _ => rfl⟩
    rw [splice_nil]
  · rw [hnone, hwritten]
    rfl

theorem vcsWriteLoop_writes {bufSize : Nat} (hbuf : 0 < bufSize) (hm : m.bigEndian = false)
    (attr : Bool) (fuel : Nat) : ∀ pos count buf w, count < fuel →
      pos + count ≤ vcsSize (w.st.cons k).geo attr → Paved (w.st.view k) (w.st.cons k) →
      Uncovered w.st k →
      (attr = true → pos < HEADER_SIZE → (w.st.cons k).vt.cursorOriginal = none) →
      ∃ w', vcsWriteLoop d m bufSize attr k fuel pos count buf w = some w' ∧
        LoopWrites m attr k bufSize pos count buf w w' := by
  induction fuel with
  | zero => exact fun _ _ _ _ hfuel => absurd hfuel (Nat.not_lt_zero _)
  | succ fuel ih =>
    intro pos count buf w hfuel hfits hp hun hsoft
    rw [vcsWriteLoop.eq_def]
    by_cases hcount : count = 0
    · refine ⟨w, if_pos hcount, .nothing ?_ rfl rfl hun ?_⟩
      · rw [hcount, List.take_zero]
      · exact ⟨.inl, fun h => h.resolve_right fun h => h.2.1 hcount⟩
    simp only [if_neg hcount]
    have hthis : (if count > bufSize then bufSize else count) = min count bufSize := by
      split <;> omega
    rw [hthis]
    by_cases hempty : buf = []
    · have htake : buf.take (min count bufSize) = [] := by rw [hempty, List.take_nil]
      rw [if_pos htake]
      refine ⟨_, rfl, .nothing (by rw [hempty, List.take_nil]) ?_ ?_ hun ?_⟩
      · exact (apply_ite WriteState.st _ _ _).trans (ite_self _)
      · exact (apply_ite WriteState.written _ _ _).trans (ite_self _)
      · split
        case isTrue hzero => exact iff_of_true rfl (.inr ⟨hzero, hcount, hempty⟩)
        case isFalse hsome => exact ⟨.inl, fun h => h.resolve_right fun h => hsome h.1⟩
    have hlen : 0 < buf.length := List.length_pos_iff.mpr hempty
    have htake : buf.take (min count bufSize) ≠ [] := by
      rw [← List.length_pos_iff, List.length_take]
      omega
    have hfull : (buf.take (min count bufSize)).take (vcsSize (w.st.cons k).geo attr - pos) =
        buf.take (min count bufSize) := List.take_of_length_le (by rw [List.length_take]; omega)
    rw [if_neg htake, if_neg (by omega), hfull]
    obtain ⟨hround, hcur⟩ := writeRound_wrote (d := d) hp hm hun attr pos
      (buf.take (min count bufSize)) hsoft
    have hl : (buf.take (min count bufSize)).length = min (min count bufSize) buf.length :=
      List.length_take
    have hnext : attr = true → pos + (buf.take (min count bufSize)).length < HEADER_SIZE →
        ((writeRound d m attr k pos (buf.take (min count bufSize)) w.st).1.cons k).vt.cursorOriginal =
          none := by
      intro hattr hin
      rw [hattr]
      exact writeRound_soft hin (hsoft hattr (by omega))
    generalize hbytes : buf.take (min count bufSize) = bytes at *
    generalize hr : writeRound d m attr k pos bytes w.st = r at *
    have hview : r.1.view k = w.st.view k := view_of_origin hround.origin
    have hpaved : Paved (r.1.view k) (r.1.cons k) := by
      rw [hview]
      exact ⟨hp.hook, by rw [hround.geo]; exact hp.sizeRow, by rw [hround.geo]; exact hp.cols⟩
    obtain ⟨w', heq, hrest⟩ := ih (pos + bytes.length) (count - bytes.length) (buf.drop bytes.length)
      { w with st := r.1, written := w.written + bytes.length, regions := w.regions ++ r.2 }
      (by omega) (show _ ≤ vcsSize (r.1.cons k).geo attr by rw [hround.geo]; omega) hpaved
      hround.uncovered hnext
    have hpieces : bytes ++ (buf.drop bytes.length).take (count - bytes.length) = buf.take count := by
      have hfirst : bytes = buf.take bytes.length := by
        rw [← hbytes, List.length_take, List.take_eq_take_iff]
        omega
      have hcut := List.take_add (l := buf) (i := bytes.length) (j := count - bytes.length)
      rw [← hfirst, Nat.add_sub_cancel' (by omega)] at hcut
      exact hcut.symm
    have hsome : bytes ≠ [] := htake
    have hwhole : buf.take count ≠ [] := by
      rw [← hpieces]
      exact List.append_ne_nil_of_left_ne_nil hsome _
    obtain ⟨hwrote, hwritten, hfault, hcursor⟩ := hrest
    generalize hafter : (buf.drop bytes.length).take (count - bytes.length) = after
      at hpieces hwrote hwritten hcursor
    refine ⟨w', heq, ?_, ?_, ?_, fun hheader => ?_⟩
    · rw [← hpieces]
      exact hround.trans hwrote
    · rw [hwritten, ← hpieces, List.length_append, Nat.add_assoc]
    · rw [hfault]
      refine or_congr Iff.rfl (iff_of_false (fun h => ?_) fun h => hempty h.2.2)
      have hzero : w.written + bytes.length = 0 := h.1
      omega
    · have hlong : after = [] ∨ HEADER_SIZE ≤ pos + bytes.length := by
        by_cases hfull : bytes.length = bufSize
        · exact .inr (by omega)
        · refine .inl (List.length_eq_zero_iff.mp ?_)
          rw [← hafter, List.length_take, List.length_drop]
          omega
      rw [hcursor hheader, cursorBehind, cursorBehind, if_neg hwhole, ← hpieces,
        headerCursor_append hlong, ← hcur]
      split
      case isTrue => rfl
      case isFalse hmore => exact headerCursor_behind (hlong.resolve_left hmore)

/-! ### Reading back -/

theorem vcsRead_all {bufSize : Nat} (h : Paved v s) (hbuf : HEADER_SIZE ≤ bufSize) (m : Arch)
    (attr : Bool) {pos n : Nat} (hfits : pos + n ≤ vcsSize s.geo attr) :
    ∃ r, vcsRead m bufSize attr v (some s) pos n n = some r ∧ r.ret = n ∧
      r.data = slice (readByte m attr v s) pos n := by
  obtain ⟨r, heq, hdata, hread, hfault, -⟩ := vcsReadLoop_reads h hbuf m attr (n + 1)
    pos n n ⟨[], 0, false, 0⟩ (Nat.lt_succ_self n)
  have hwanted : min n (vcsSize s.geo attr - pos) = n := by omega
  rw [hwanted] at hdata hread hfault
  rw [Nat.min_self, List.nil_append] at hdata
  rw [Nat.min_self, Nat.zero_add] at hread
  refine ⟨r.finish pos, ?_, ?_, hdata⟩
  · rw [vcsRead_of_nonneg (by omega), Int.toNat_natCast, heq]
    rfl
  change (if r.read ≠ 0 then (r.read : Int) else if r.fault = true then -EFAULT else 0) = n
  rw [hread, hfault, decide_eq_false (Nat.lt_irrefl n)]
  split
  case isTrue => rfl
  case isFalse hzero =>
    rw [not_ne_iff] at hzero
    rw [hzero]
    rfl

/-- **The bytes written at `pos` are read back.**  A read of the same range gives them back in the
area of the cells; every other byte of the cells, and the attributes behind the plain device, are as
before; the header's rows and columns are those of the console, and its cursor moves the cursor of a
console that is not in front, as `gotoxy` bounds it. -/
structure ReadsBack (m : Arch) (attr : Bool) (bufSize k pos : Nat) (bytes : List Byte)
    (st st' : Selection) : Prop where
  read : ∃ r, vcsRead m bufSize attr (st'.view k) (some (st'.cons k)) pos bytes.length bytes.length =
    some r ∧ r.ret = bytes.length ∧
      r.data.drop (cellStart attr - pos) = bytes.drop (cellStart attr - pos)
  others : ∀ j, cellStart attr ≤ j → j < vcsSize (st.cons k).geo attr →
    j < pos ∨ pos + bytes.length ≤ j →
      readByte m attr (st'.view k) (st'.cons k) j = readByte m attr (st.view k) (st.cons k) j
  attrs : attr = false → ∀ i < (st.cons k).geo.rows * (st.cons k).geo.cols,
    viewedCell (st'.view k) (st'.cons k) i >>> 8 = viewedCell (st.view k) (st.cons k) i >>> 8
  geo : (st'.cons k).geo = (st.cons k).geo
  cursor : (st'.cons k).cur = cursorBehind attr (st.cons k) pos bytes

/-- **Every successful write is read back.** -/
def WritesBack (d : Nat → Driver) (m : Arch) (st : Selection) (k : Nat) : Prop :=
  ∀ (attr : Bool) (bufSize : Nat) (pos : Int) (count : Nat) (buf : List Byte), HEADER_SIZE ≤ bufSize →
    ∃ w, vcsWrite d m bufSize attr st (some k) pos count buf = some w ∧ (0 ≤ w.ret →
      let bytes := buf.take (min count (vcsSize (st.cons k).geo attr - pos.toNat))
      w.ret = bytes.length ∧ ReadsBack m attr bufSize k pos.toNat bytes st w.st)

theorem Wrote.readsBack {bufSize pos : Nat} {bytes : List Byte} (h : Wrote m attr k pos bytes st st')
    (hp : Paved (st.view k) (st.cons k)) (hbuf : HEADER_SIZE ≤ bufSize)
    (hfits : pos + bytes.length ≤ vcsSize (st.cons k).geo attr)
    (hcur : (st'.cons k).cur = cursorBehind attr (st.cons k) pos bytes) :
    ReadsBack m attr bufSize k pos bytes st st' := by
  have hview : st'.view k = st.view k := view_of_origin h.origin
  have hpaved : Paved (st'.view k) (st'.cons k) := by
    rw [hview]
    exact ⟨hp.hook, by rw [h.geo]; exact hp.sizeRow, by rw [h.geo]; exact hp.cols⟩
  refine ⟨?_, fun j hj hsize hout => ?_, h.attrs, h.geo, hcur⟩
  · obtain ⟨r, hr, hret, hdata⟩ := vcsRead_all hpaved hbuf m attr
      (by rw [h.geo]; exact hfits)
    refine ⟨r, hr, hret, ?_⟩
    have hback := slice_splice (readByte m attr (st.view k) (st.cons k)) pos bytes
    rw [hdata, drop_slice]
    conv_rhs => rw [← hback, drop_slice]
    exact slice_congr fun i hi => h.image _ (by omega) (by omega)
  · rw [h.image j hj hsize]
    rcases hout with hlow | hhigh
    · exact splice_of_lt _ _ hlow
    · exact splice_of_ge _ _ hhigh

/-- **A write to a console that nothing is laid over is read back.** -/
theorem writesBack_of_uncovered (hm : m.bigEndian = false) (hp : Paved (st.view k) (st.cons k))
    (hsoft : (st.cons k).vt.cursorOriginal = none) (hun : Uncovered st k) : WritesBack d m st k := by
  intro attr bufSize pos count buf hbuf
  by_cases hpos : pos < 0 ∨ pos > vcsSize (st.cons k).geo attr
  · exact ⟨_, if_pos hpos, fun hret => absurd (show (0 : Int) ≤ -EINVAL from hret) (by decide)⟩
  have hsize : (if count > vcsSize (st.cons k).geo attr - pos.toNat then
      vcsSize (st.cons k).geo attr - pos.toNat else count) =
      min count (vcsSize (st.cons k).geo attr - pos.toNat) := by
    split <;> omega
  have hcall : vcsWrite d m bufSize attr st (some k) pos count buf = _ := if_neg hpos
  rw [hsize] at hcall
  generalize hn : min count (vcsSize (st.cons k).geo attr - pos.toNat) = n at *
  have hheader : HEADER_SIZE = 4 := rfl
  obtain ⟨w, heq, hwrote, hwritten, hfault, hcursor⟩ := vcsWriteLoop_writes (d := d)
    (k := k) (show 0 < bufSize by omega) hm attr (n + 1) pos.toNat n buf ⟨st, 0, false, []⟩
    (by omega) (show pos.toNat + n ≤ vcsSize (st.cons k).geo attr by omega) hp hun fun _ _ => hsoft
  rw [heq] at hcall
  refine ⟨w.finish pos, hcall, fun hret => ?_⟩
  rw [WriteState.finish] at hret ⊢
  cases hf : w.fault with
  | true =>
    rw [hf] at hret
    exact absurd (show (0 : Int) ≤ -EFAULT from hret) (by decide)
  | false =>
    have hlength : w.written = (buf.take n).length := hwritten.trans (Nat.zero_add _)
    refine ⟨congrArg Nat.cast hlength, ?_⟩
    refine hwrote.readsBack hp hbuf ?_ (hcursor hbuf)
    rw [List.length_take]
    show pos.toNat + min n buf.length ≤ vcsSize (st.cons k).geo attr
    omega

/-! ### What is laid over a cell -/

/-- **What becomes of a cell that something is laid over**, when the selection is cleared: whatever was
written to it, it is the cell the pointer has saved, or else it is inverted. -/
theorem cleared_cell (hd : (d k).conInvertRegion = none ∨
      (d k).conInvertRegion = some vgaconInvertRegion) {a : Nat} (ho : Overlaid st k a) :
    (∃ V : Cell, ∀ s' : Con, s'.rend = (st.cons k).rend →
      ((clearSelection d (st.onCon k fun _ => s')).cons k).mem a = V) ∨
    ∀ s' : Con, s'.rend = (st.cons k).rend →
      ((clearSelection d (st.onCon k fun _ => s')).cons k).mem a =
        invertHook (d k) (st.cons k) (s'.mem a) := by
  obtain ⟨hsel, hover⟩ := ho
  have hcon : ∀ s', (st.onCon k fun _ => s').cons k = s' := fun s' => st.onCon_self k _
  have hhook : ∀ s' : Con, s'.rend = (st.cons k).rend →
      invertHook (d k) ((hidePointer (st.onCon k fun _ => s')).cons k) =
        invertHook (d k) (st.cons k) := by
    intro s' hs'
    have hrend : ((hidePointer (st.onCon k fun _ => s')).cons k).rend = (st.cons k).rend := by
      rw [field_hidePointer (g := Con.rend) (fun _ _ _ => rfl) (fun _ _ => rfl), hcon, hs']
    exact invertHook_congr hd (by rw [hrend]) (by rw [hrend])
  have hclear : ∀ s' : Con, _ := fun s' => mem_clearSelection (d := d)
    (show (st.onCon k fun _ => s').selCons = some k from hsel) a
  by_cases hptr : ∃ p, st.pointer = some p ∧ p.con = k ∧ p.addr = a
  · obtain ⟨p, hp, hk, ha⟩ := hptr
    have hold : ∀ s' : Con, unpointed (st.onCon k fun _ => s').cons (st.onCon k fun _ => s').pointer
        k a = p.old := by
      intro s'
      have hpointer : (st.onCon k fun _ => s').pointer = some p := hp
      rw [hpointer, unpointed_some, if_pos hk, ha, Function.update_self]
    by_cases hin : InHighlight st k a
    · exact .inl ⟨_, fun s' hs' => by rw [(hclear s').1 hin, hold, hhook s' hs']⟩
    · exact .inl ⟨_, fun s' _ => by rw [(hclear s').2 hin, hold]⟩
  · have hin : InHighlight st k a := hover.resolve_left hptr
    refine .inr fun s' hs' => ?_
    have hbare : unpointed (st.onCon k fun _ => s').cons (st.onCon k fun _ => s').pointer k a =
        ((st.onCon k fun _ => s').cons k).mem a := unpointed_of_ne hptr
    rw [(hclear s').1 hin, hhook s' hs', hbare, hcon]

theorem invertHook_moves (hd : (d k).conInvertRegion = none ∨
    (d k).conInvertRegion = some vgaconInvertRegion) (s : Con) :
    invertHook (d k) s 0x0741#16 ≠ 0x0741#16 := by
  rcases hd with hd | hd
  · rw [invertHook, hd]
    change invertCell s.rend 0x0741#16 ≠ 0x0741#16
    rw [invertCell]
    split
    · decide
    · split
      · decide
      · decide
  · rw [invertHook, hd]
    change vgaconInvertRegion s.seen 0x0741#16 ≠ 0x0741#16
    rw [vgaconInvertRegion]
    split
    · decide
    · decide

/-! ### One cell -/

theorem vcsWrite_cell {i : Nat} (hi : i < (st.cons k).geo.rows * (st.cons k).geo.cols) (a b : Byte) :
    vcsWrite d m 256 true st (some k) (HEADER_SIZE + 2 * i : Nat) 2 [a, b] = some
      (WriteState.finish ⟨(writeRound d m true k (HEADER_SIZE + 2 * i) [a, b] st).1, 2, false,
        (writeRound d m true k (HEADER_SIZE + 2 * i) [a, b] st).2⟩ (HEADER_SIZE + 2 * i : Nat)) := by
  have hsize : vcsSize (st.cons k).geo true =
    2 * ((st.cons k).geo.rows * (st.cons k).geo.cols) + HEADER_SIZE := rfl
  have hcount : ¬2 > vcsSize (st.cons k).geo true - (HEADER_SIZE + 2 * i) := by omega
  have hfits : [a, b].take (vcsSize (st.cons k).geo true - (HEADER_SIZE + 2 * i)) = [a, b] :=
    List.take_of_length_le (show 2 ≤ _ by omega)
  have hpos : ¬(((HEADER_SIZE + 2 * i : Nat) : Int) < 0 ∨
      ((HEADER_SIZE + 2 * i : Nat) : Int) > vcsSize (st.cons k).geo true) := by omega
  have hlast : ∀ w, vcsWriteLoop d m 256 true k 2 (HEADER_SIZE + 2 * i + 2) 0 [] w = some w :=
    fun w => rfl
  have hround : vcsWriteLoop d m 256 true k 3 (HEADER_SIZE + 2 * i) 2 [a, b] ⟨st, 0, false, []⟩ =
      some ⟨(writeRound d m true k (HEADER_SIZE + 2 * i) [a, b] st).1, 2, false,
        (writeRound d m true k (HEADER_SIZE + 2 * i) [a, b] st).2⟩ := by
    rw [vcsWriteLoop]
    change (if HEADER_SIZE + 2 * i ≥ vcsSize (st.cons k).geo true then _ else _) = _
    rw [if_neg (by omega)]
    dsimp only
    rw [show [a, b].take (if 2 > 256 then 256 else 2) = [a, b] from rfl, hfits]
    exact hlast _
  rw [vcsWrite]
  dsimp only
  rw [if_neg hpos, Int.toNat_natCast, if_neg hcount, hround]
  rfl

theorem vcsScrWritew_plain (hsoft : s.vt.cursorOriginal = none)
    (htype : s.rend.cursorType &&& 0x10#32 = 0) (val : Cell) (org : Nat) :
    vcsScrWritew s val org = s.scrWritew val org := by
  have hsame : { s.scrWritew val org with vt.cursorOriginal := none } = s.scrWritew val org := by
    rw [← hsoft]
    rfl
  rw [vcsScrWritew]
  dsimp only
  split
  · rw [hsame]
    exact if_pos htype
  · rfl

theorem pushRound_cell (h : Paved v s) (i : Nat) (a b : Byte) :
    pushRound m true v s (HEADER_SIZE + 2 * i) [a, b] =
      ⟨vcsScrWritew s (m.word a b) (place v s i), some (place v s i), place v s (i + 1)⟩ := by
  have hfirst : pushFirst (HEADER_SIZE + 2 * i) [a, b] s = s := if_neg (by omega)
  have hzero : HEADER_SIZE - (HEADER_SIZE + 2 * i) = 0 := by omega
  have hbyte : HEADER_SIZE + 2 * i - HEADER_SIZE = 2 * i := by omega
  have hcell : 2 * i / 2 = i := by omega
  have hcells : pushCells m (place v s) (2 * i) [a, b] s =
      (vcsScrWritew s (m.word a b) (place v s i), place v s (i + 1)) := by
    have hstep : ((RowWalk.start (place v s) s.geo.cols i).step (place v s) s.geo.cols 2).addr =
      place v s (i + 1) := congrArg RowWalk.addr (walk_step h i)
    rw [pushCells, if_neg (by omega), hcell, pushWords, pushWords, hstep]
    rfl
  have hplace : (fun w => screenPos v s w s.vt.visible) = place v s := rfl
  rw [pushRound, hfirst, hzero, List.drop_zero, hbyte, hplace]
  dsimp only
  rw [hcells, hcell]
  rfl

/-- The cell, when it has been written and `update_region` has cleared the selection. -/
theorem written_cell (hp : Paved (st.view k) (st.cons k)) (hv : (st.cons k).vt.visible = true)
    (hsoft : (st.cons k).vt.cursorOriginal = none)
    (htype : (st.cons k).rend.cursorType &&& 0x10#32 = 0) {i : Nat}
    (ho : Overlaid st k (viewedAddr (st.view k) (st.cons k) i)) (a b : Byte) :
    let st' := (writeRound d m true k (HEADER_SIZE + 2 * i) [a, b] st).1
    ∃ s' : Con, s'.rend = (st.cons k).rend ∧
      s'.mem (viewedAddr (st.view k) (st.cons k) i) = m.word a b ∧
      viewedCell (st'.view k) (st'.cons k) i =
        ((clearSelection d (st.onCon k fun _ => s')).cons k).mem
          (viewedAddr (st.view k) (st.cons k) i) := by
  intro st'
  have hplain := vcsScrWritew_plain hsoft htype (m.word a b) (place (st.view k) (st.cons k) i)
  have hround := pushRound_cell (m := m) hp i a b
  rw [hplain] at hround
  generalize hs' : (st.cons k).scrWritew (m.word a b) (place (st.view k) (st.cons k) i) = s' at *
  have hcon : (st.onCon k fun _ => s').cons k = s' := st.onCon_self k _
  have hst' : st' = updateRegion d (st.onCon k fun _ => s') k (place (st.view k) (st.cons k) i)
      ((place (st.view k) (st.cons k) (i + 1) - place (st.view k) (st.cons k) i) / 2) := by
    change (writeRound d m true k (HEADER_SIZE + 2 * i) [a, b] st).1 = _
    rw [writeRound, hround]
  have hmem : s'.mem (viewedAddr (st.view k) (st.cons k) i) = m.word a b := by
    rw [← hs', place_eq hp]
    exact Function.update_self ..
  have hsame : SamePlace (st.cons k) s' := by
    rw [← hs']
    exact ⟨rfl, rfl, rfl⟩
  have hrend : s'.rend = (st.cons k).rend := by
    rw [← hs']
    rfl
  have hnone : s'.vt.cursorOriginal = none := by
    rw [← hs']
    exact hsoft
  refine ⟨s', hrend, hmem, ?_⟩
  have hsel : (st.onCon k fun _ => s').selCons = some k := ho.1
  have hvis : ((st.onCon k fun _ => s').cons k).vt.visible = true := by
    rw [hcon, hsame.visible, hv]
  have hcalm : Calm k (clearSelection d (st.onCon k fun _ => s')) st' := by
    rw [hst', updateRegion, if_pos hvis, hideCursorOn, if_pos hsel]
    exact ((calm_onCon _ (readsSame_hideCursor _)).trans
      (calm_onCon _ (readsSame_doUpdateRegion _ _ _))).trans (calm_setCursorOn _)
  have hclear := samePlace_clearSelection (d := d) (st.onCon k fun _ => s') k
  rw [hcon] at hclear
  have hvt : ((clearSelection d (st.onCon k fun _ => s')).cons k).vt = s'.vt := by
    rw [field_clearSelection (g := Con.vt) (fun _ _ _ => rfl) (fun _ _ => rfl)
      (fun D _ s _ _ => vt_invertAt D s _ _), hcon]
  have hview : st'.view k = st.view k :=
    view_of_origin (hcalm.origin.trans (visibleOrigin_clearSelection _))
  rw [viewedCell, hview, hcalm.place.viewedAddr, hclear.viewedAddr, hsame.viewedAddr,
    hcalm.cells _ (not_overlaid_clear _ _), vcsScrReadw, hvt, hnone]
  exact ite_self _

theorem viewedCell_of_read (h : Paved v s) {i : Nat} (hi : i < s.geo.rows * s.geo.cols) {w : Cell}
    (hread : ∃ r, vcsRead m 256 true v (some s) (HEADER_SIZE + 2 * i : Nat) 2 2 = some r ∧
      r.data = [(m.bytes w).1, (m.bytes w).2]) : viewedCell v s i = w := by
  have hsize : vcsSize s.geo true = 2 * (s.geo.rows * s.geo.cols) + HEADER_SIZE := rfl
  obtain ⟨r, hr, hdata⟩ := hread
  obtain ⟨r', hr', -, hslice⟩ := vcsRead_all h (show HEADER_SIZE ≤ 256 by decide) m true
    (show HEADER_SIZE + 2 * i + 2 ≤ vcsSize s.geo true by omega)
  rw [hr] at hr'
  rw [← Option.some.inj hr', hdata, slice_succ, slice_succ, slice_zero, List.cons.injEq,
    List.cons.injEq, readByte_words (by omega), readByte_words (by omega), wordByte, wordByte,
    if_pos (by omega), if_neg (by omega), show (HEADER_SIZE + 2 * i - HEADER_SIZE) / 2 = i by omega,
    show (HEADER_SIZE + 2 * i + 1 - HEADER_SIZE) / 2 = i by omega] at hslice
  rw [← word_bytes m w, hslice.1, hslice.2.1, word_bytes]

/-- **Where every successful write is read back, nothing is laid over the cells.** -/
theorem uncovered_of_writesBack (hp : Paved (st.view k) (st.cons k))
    (hd : (d k).conInvertRegion = none ∨ (d k).conInvertRegion = some vgaconInvertRegion)
    (hsoft : (st.cons k).vt.cursorOriginal = none)
    (htype : (st.cons k).rend.cursorType &&& 0x10#32 = 0) (h : WritesBack d m st k) :
    Uncovered st k := by
  intro hv i hi ho
  have hcell : ∀ w : Cell, ∃ s' : Con, s'.rend = (st.cons k).rend ∧
      s'.mem (viewedAddr (st.view k) (st.cons k) i) = w ∧
      ((clearSelection d (st.onCon k fun _ => s')).cons k).mem
        (viewedAddr (st.view k) (st.cons k) i) = w := by
    intro w
    obtain ⟨s', hrend, hmem, hview⟩ := written_cell (d := d) (m := m) hp hv hsoft htype ho (m.bytes w).1
      (m.bytes w).2
    refine ⟨s', hrend, hmem.trans (word_bytes m w), hview.symm.trans ?_⟩
    obtain ⟨w', hcall, hback⟩ := h true 256 (HEADER_SIZE + 2 * i : Nat) 2
      [(m.bytes w).1, (m.bytes w).2] (by decide)
    rw [vcsWrite_cell hi] at hcall
    rw [← Option.some.inj hcall] at hback
    obtain ⟨-, hreads⟩ := hback (show (0 : Int) ≤ 2 by decide)
    have hsize : vcsSize (st.cons k).geo true =
      2 * ((st.cons k).geo.rows * (st.cons k).geo.cols) + HEADER_SIZE := rfl
    have hbytes : [(m.bytes w).1, (m.bytes w).2].take (min 2 (vcsSize (st.cons k).geo true -
        ((HEADER_SIZE + 2 * i : Nat) : Int).toNat)) = [(m.bytes w).1, (m.bytes w).2] :=
      List.take_of_length_le (show 2 ≤ _ by rw [Int.toNat_natCast]; omega)
    rw [hbytes, Int.toNat_natCast] at hreads
    obtain ⟨⟨r, hr, -, hdata⟩, -, -, hgeo, -⟩ := hreads
    have hstart : cellStart true - (HEADER_SIZE + 2 * i) = 0 := Nat.sub_eq_zero_of_le (Nat.le_add_right _ _)
    rw [hstart, List.drop_zero, List.drop_zero] at hdata
    refine viewedCell_of_read ⟨rfl, ?_, ?_⟩ ?_ ⟨r, hr, hdata⟩
    · exact (congrArg Geom.sizeRow hgeo).trans (hp.sizeRow.trans (by rw [← hgeo]; rfl))
    · exact Nat.lt_of_lt_of_eq hp.cols (congrArg Geom.cols hgeo).symm
    · exact Nat.lt_of_lt_of_eq hi (congrArg (fun g : Geom => g.rows * g.cols) hgeo).symm
  rcases cleared_cell hd ho with ⟨V, hV⟩ | hinvert
  · obtain ⟨s', hrend, -, hw⟩ := hcell (V ^^^ 1#16)
    rw [hV s' hrend] at hw
    have hbit : V ^^^ V = V ^^^ (V ^^^ 1#16) := congrArg (V ^^^ ·) hw
    rw [← BitVec.xor_assoc, BitVec.xor_self, BitVec.zero_xor] at hbit
    exact absurd hbit (by decide)
  · obtain ⟨s', hrend, hmem, hw⟩ := hcell 0x0741#16
    rw [hinvert s' hrend, hmem] at hw
    exact invertHook_moves hd _ hw

/-- **When writing a screen device is read back.**  On a little-endian machine and with no software
cursor drawn, every successful write to the devices of a console that is not in front, or of one in
front with neither a highlight nor the pointer over its cells, is read back.  Where the cursor is not
a software cursor these are the only consoles of which this holds: a write under a highlight or under
the pointer is changed by the `clear_selection` that follows it. -/
theorem vcs_write_read_iff (hm : m.bigEndian = false) (hp : Paved (st.view k) (st.cons k))
    (hd : (d k).conInvertRegion = none ∨ (d k).conInvertRegion = some vgaconInvertRegion)
    (hsoft : (st.cons k).vt.cursorOriginal = none) :
    (Uncovered st k → WritesBack d m st k) ∧
      ((st.cons k).rend.cursorType &&& 0x10#32 = 0 → WritesBack d m st k → Uncovered st k) :=
  ⟨writesBack_of_uncovered hm hp hsoft, uncovered_of_writesBack hp hd hsoft⟩

/-- On the boot console every write is read back. -/
theorem vcs_write_read_boot :
    WritesBack (fun _ => dummyCon) ⟨false, true⟩ (bootSelection (fun _ => bootCon) fun _ => 0x1000) 0 :=
  (vcs_write_read_iff (d := fun _ => dummyCon) (m := ⟨false, true⟩) rfl
    ⟨rfl, rfl, Nat.succ_pos 79⟩ (.inl rfl) rfl).1 fun _ _ _ ho =>
      absurd ho.1.symm (Option.some_ne_none 0)

/-- The first four cells of the boot console are selected. -/
def highlightedBoot : Selection :=
  (selStep fun _ => dummyCon) (bootSelection (fun _ => bootCon) fun _ => 0x1000)
    (.set 0 0 (some ⟨1, 1, 4, 1, .char⟩) false true)

/-- **A write under the highlight**: the first cell is written, and it is read with its colours
exchanged. -/
theorem vcs_write_inverted :
    (vcsWrite (fun _ => dummyCon) ⟨false, true⟩ 256 true highlightedBoot (some 0) 4 2
      [0x5a, 0x07]).map (fun w => (w.ret, (vcsRead ⟨false, true⟩ 256 true (w.st.view 0)
        (some (w.st.cons 0)) 4 2 2).map (·.data))) = some (2, some [0x5a, 0x70]) := by
  decide +kernel

end LinuxConsole

import Mathlib.Tactic.IntervalCases
import LinuxConsole.Vcs.Read

/-!
# Writing cells

What the loops of `vcs_write` make of the cells.  They write through `vcs_scr_writew`, which draws a
software cursor again over the cell it has written; **the cells a device reads are then those it has
written**, `vcsScrReadw_write`, whether a software cursor is drawn or not.

Each loop splices its bytes into the bytes of the cells: `pushChars_bytes` for the plain device, and
`pushCells_bytes` for the device with attributes, where the first and the last byte may be half a
cell.  On a big-endian machine the first half cell may change the other byte of the cell too.
-/

namespace LinuxConsole

open Lib

variable {m : Arch} {v : View} {s s' s'' : Con}

/-! ### The software cursor -/

/-- Screen and cursor are where they were. -/
structure SamePlace (s s' : Con) : Prop where
  geo : s'.geo = s.geo
  cur : s'.cur = s.cur
  visible : s'.vt.visible = s.vt.visible

theorem SamePlace.trans (h : SamePlace s s') (h' : SamePlace s' s'') : SamePlace s s'' :=
  ⟨h'.geo.trans h.geo, h'.cur.trans h.cur, h'.visible.trans h.visible⟩

/-- A device reads the same cells. -/
structure ReadsSame (s s' : Con) : Prop extends SamePlace s s' where
  cells : vcsScrReadw s' = vcsScrReadw s

theorem ReadsSame.refl (s : Con) : ReadsSame s s := ⟨⟨rfl, rfl, rfl⟩, rfl⟩

theorem ReadsSame.trans (h : ReadsSame s s') (h' : ReadsSame s' s'') : ReadsSame s s'' :=
  ⟨h.toSamePlace.trans h'.toSamePlace, h'.cells.trans h.cells⟩

theorem ReadsSame.ite {p : Prop} [Decidable p] {a b : Con} (ha : p → ReadsSame s a)
    (hb : ¬p → ReadsSame s b) : ReadsSame s (if p then a else b) := by
  split
  case isTrue h => exact ha h
  case isFalse h => exact hb h

theorem readsSame_draw (s : Con) (ds : List Draw) : ReadsSame s (s.draw ds) := ⟨⟨rfl, rfl, rfl⟩, rfl⟩

theorem readsSame_doUpdateRegion (s : Con) (start count : Nat) :
    ReadsSame s (doUpdateRegion s start count) := readsSame_draw s _

/-- The cell under the cursor is saved, and another one is in memory. -/
theorem readsSame_over (h : s.vt.cursorOriginal = none) (i : Cell) :
    ReadsSame s (Con.scrWritew { s with vt.cursorOriginal := some (s.mem s.cur.pos) } i s.cur.pos) := by
  refine ⟨⟨rfl, rfl, rfl⟩, funext fun a => ?_⟩
  rw [vcsScrReadw, vcsScrReadw, h]
  change (if a = s.cur.pos then s.mem s.cur.pos else Function.update s.mem s.cur.pos i a) =
    if a = s.cur.pos then s.mem a else s.mem a
  by_cases ha : a = s.cur.pos
  · rw [if_pos ha, if_pos ha, ha]
  · rw [if_neg ha, if_neg ha, Function.update_of_ne ha]

theorem readsSame_back {orig : Cell} (h : s.vt.cursorOriginal = some orig) (ds : List Draw) :
    ReadsSame s { s.scrWritew orig s.cur.pos with vt.cursorOriginal := none, draws := ds } := by
  refine ⟨⟨rfl, rfl, rfl⟩, funext fun a => ?_⟩
  rw [vcsScrReadw, vcsScrReadw, h]
  change (if a = s.cur.pos then Function.update s.mem s.cur.pos orig a
    else Function.update s.mem s.cur.pos orig a) = if a = s.cur.pos then orig else s.mem a
  by_cases ha : a = s.cur.pos
  · rw [if_pos ha, if_pos ha, ha, Function.update_self]
  · rw [if_neg ha, if_neg ha, Function.update_of_ne ha]

theorem readsSame_addSoftcursor (s : Con) : ReadsSame s (addSoftcursor s) := by
  rw [addSoftcursor]
  refine .ite (fun _ => .refl s) fun _ => .ite (fun _ => .refl s) fun hnone => ?_
  rw [Option.not_isSome_iff_eq_none] at hnone
  have hover := readsSame_over hnone (softcursorCell s.rend.cursorType (s.mem s.cur.pos))
  exact .ite (fun _ => hover.trans (readsSame_draw _ _)) fun _ => hover

theorem readsSame_hideCursor (s : Con) : ReadsSame s (hideCursor s) := by
  rw [hideCursor, hideSoftcursor]
  split
  · exact readsSame_draw s _
  · next orig horig =>
    have hsome : s.vt.cursorOriginal = some orig := horig
    dsimp only
    split
    · exact readsSame_back hsome _
    · exact readsSame_back hsome _

theorem readsSame_setCursor (s : Con) : ReadsSame s (setCursor s) := by
  rw [setCursor]
  refine .ite (fun _ => .refl s) fun _ => .ite (fun _ => ?_) fun _ => readsSame_hideCursor s
  have hadd := readsSame_addSoftcursor s
  exact .ite (fun _ => hadd.trans (readsSame_draw _ _)) fun _ => hadd

/-! ### One cell -/

/-- The cell in memory, with the cursor no longer over it. -/
theorem vcsScrReadw_scrWritew (s : Con) (val : Cell) (org : Nat) (o : Option Cell)
    (h : o = if org = s.cur.pos then none else s.vt.cursorOriginal) :
    vcsScrReadw { s.scrWritew val org with vt.cursorOriginal := o } =
      Function.update (vcsScrReadw s) org val := by
  funext a
  change (if a = s.cur.pos then o.getD (Function.update s.mem org val a)
    else Function.update s.mem org val a) = _
  by_cases ha : a = org
  · rw [ha, Function.update_self, Function.update_self, h]
    by_cases horg : org = s.cur.pos
    · rw [if_pos horg, if_pos horg]
      rfl
    · rw [if_neg horg]
  · rw [Function.update_of_ne ha, Function.update_of_ne ha, vcsScrReadw]
    by_cases hpos : a = s.cur.pos
    · rw [if_pos hpos, if_pos hpos, h, if_neg (by rw [← hpos]; exact fun h => ha h.symm)]
    · rw [if_neg hpos, if_neg hpos]

/-- **What a device reads is what it has written**, under the cursor as elsewhere. -/
theorem vcsScrReadw_write (s : Con) (val : Cell) (org : Nat) :
    vcsScrReadw (vcsScrWritew s val org) = Function.update (vcsScrReadw s) org val := by
  rw [vcsScrWritew]
  by_cases horg : org = s.cur.pos
  · rw [show (if org = (s.scrWritew val org).cur.pos then
        addSoftcursor { s.scrWritew val org with vt.cursorOriginal := none } else s.scrWritew val org) =
      _ from if_pos horg, (readsSame_addSoftcursor _).cells]
    exact vcsScrReadw_scrWritew s val org none (if_pos horg).symm
  · rw [show (if org = (s.scrWritew val org).cur.pos then
        addSoftcursor { s.scrWritew val org with vt.cursorOriginal := none } else s.scrWritew val org) =
      _ from if_neg horg]
    exact vcsScrReadw_scrWritew s val org s.vt.cursorOriginal (if_neg horg).symm

theorem samePlace_write (s : Con) (val : Cell) (org : Nat) :
    SamePlace s (vcsScrWritew s val org) := by
  rw [vcsScrWritew]
  dsimp only
  split
  · have hplace : SamePlace s { s.scrWritew val org with vt.cursorOriginal := none } :=
      ⟨rfl, rfl, rfl⟩
    exact hplace.trans (readsSame_addSoftcursor _).toSamePlace
  · exact ⟨rfl, rfl, rfl⟩

/-! ### The addresses -/

/-- `screen_pos` on the console. -/
def place (v : View) (s : Con) (q : Nat) : Nat := screenPos v s q s.vt.visible

theorem place_eq (h : Paved v s) (q : Nat) : place v s q = viewedAddr v s q := screenPos_viewed h q

theorem SamePlace.place (h : SamePlace s s') : place v s' = place v s := by
  funext q
  rw [LinuxConsole.place, LinuxConsole.place, screenPos, screenPos, screenpos, screenpos, h.geo,
    h.visible]

theorem SamePlace.viewedAddr (h : SamePlace s s') : viewedAddr v s' = viewedAddr v s := by
  funext q
  rw [LinuxConsole.viewedAddr, LinuxConsole.viewedAddr, screenpos, screenpos, h.geo, h.visible]

theorem SamePlace.paved (h : SamePlace s s') (hp : Paved v s) : Paved v s' :=
  ⟨hp.hook, by rw [h.geo]; exact hp.sizeRow, by rw [h.geo]; exact hp.cols⟩

theorem viewedAddr_inj (h : Paved v s) {i j : Nat} : viewedAddr v s i = viewedAddr v s j ↔ i = j := by
  rw [viewedAddr_base h, viewedAddr_base h]
  omega

/-- The cell at place `q` is written, and no other. -/
theorem viewedCell_write (h : Paved v s) (val : Cell) (q : Nat) :
    viewedCell v (vcsScrWritew s val (place v s q)) = Function.update (viewedCell v s) q val := by
  funext i
  rw [viewedCell, (samePlace_write s val _).viewedAddr, vcsScrReadw_write, place_eq h]
  by_cases hi : i = q
  · rw [hi, Function.update_self, Function.update_self]
  · rw [Function.update_of_ne hi, Function.update_of_ne fun ha => hi ((viewedAddr_inj h).mp ha)]
    rfl

/-! ### Bytes -/

theorem low_append (a b : Byte) : (a ++ b : BitVec (8 + 8)).setWidth 8 = b := by
  apply BitVec.eq_of_getLsbD_eq
  intro i hi
  rw [BitVec.getLsbD_setWidth, BitVec.getLsbD_append]
  simp [hi]

theorem high_append (a b : Byte) : ((a ++ b : BitVec (8 + 8)) >>> 8).setWidth 8 = a := by
  apply BitVec.eq_of_getLsbD_eq
  intro i hi
  rw [BitVec.getLsbD_setWidth, BitVec.getLsbD_ushiftRight, BitVec.getLsbD_append]
  simp [hi]

theorem low_masked (c : Byte) (old : Cell) :
    ((old &&& 0xff00#16) ||| c.setWidth 16).setWidth 8 = c := by
  apply BitVec.eq_of_getLsbD_eq
  intro i hi
  interval_cases i <;> simp

theorem high_masked (c : Byte) (old : Cell) :
    ((old &&& 0xff00#16) ||| c.setWidth 16) >>> 8 = old >>> 8 := by
  apply BitVec.eq_of_getLsbD_eq
  intro i hi
  interval_cases i <;> simp

theorem low_kept (c : Byte) (old : Cell) :
    ((c.setWidth 16 <<< 8) ||| (old &&& 0xff#16)).setWidth 8 = old.setWidth 8 := by
  apply BitVec.eq_of_getLsbD_eq
  intro i hi
  interval_cases i <;> simp

theorem high_shifted (c : Byte) (old : Cell) :
    (((c.setWidth 16 <<< 8) ||| (old &&& 0xff#16)) >>> 8).setWidth 8 = c := by
  apply BitVec.eq_of_getLsbD_eq
  intro i hi
  interval_cases i <;> simp

theorem low_signed (signed : Bool) (c : Byte) (old : Cell) :
    ((if signed then c.signExtend 16 else c.setWidth 16) ||| (old &&& 0xff00#16)).setWidth 8 = c := by
  apply BitVec.eq_of_getLsbD_eq
  intro i hi
  have hwide : i < 16 := by omega
  have hext : (if signed then c.signExtend 16 else c.setWidth 16).getLsbD i = c.getLsbD i := by
    cases signed
    · exact (BitVec.getLsbD_setWidth ..).trans (by rw [decide_eq_true hwide, Bool.true_and])
    · exact (BitVec.getLsbD_signExtend ..).trans
        (by rw [decide_eq_true hwide, if_pos hi, Bool.true_and])
  rw [BitVec.getLsbD_setWidth, BitVec.getLsbD_or, hext]
  interval_cases i <;> simp

theorem bytes_word (m : Arch) (a b : Byte) : m.bytes (m.word a b) = (a, b) := by
  rw [Arch.bytes, Arch.word]
  split
  · exact Prod.ext (high_append a b) (low_append a b)
  · exact Prod.ext (low_append b a) (high_append b a)

theorem append_bytes (w : Cell) : ((w >>> 8).setWidth 8 ++ w.setWidth 8 : BitVec (8 + 8)) = w := by
  apply BitVec.eq_of_getLsbD_eq
  intro i hi
  rw [BitVec.getLsbD_append]
  interval_cases i <;> simp

theorem word_bytes (m : Arch) (w : Cell) : m.word (m.bytes w).1 (m.bytes w).2 = w := by
  rw [Arch.bytes, Arch.word]
  split
  · exact append_bytes w
  · exact append_bytes w

theorem bytes_tailCell (m : Arch) (c : Byte) (old : Cell) :
    m.bytes (m.tailCell c old) = (c, (m.bytes old).2) := by
  rw [Arch.bytes, Arch.bytes, Arch.tailCell]
  split
  · rw [BitVec.or_comm, low_kept, high_shifted]
  · rw [low_masked, high_masked]

theorem bytes_headCell (m : Arch) (c : Byte) (old : Cell) :
    (m.bytes (m.headCell c old)).2 = c ∧
      (m.bigEndian = false → (m.bytes (m.headCell c old)).1 = (m.bytes old).1) := by
  rw [Arch.bytes, Arch.bytes, Arch.headCell]
  split
  case isTrue hbig =>
    exact ⟨low_signed _ c old, fun hlittle => absurd (hlittle.symm.trans hbig) (by decide)⟩
  case isFalse => exact ⟨high_shifted c old, fun _ => low_kept c old⟩

/-- The bytes of the cells when one cell has been written. -/
theorem wordByte_update (m : Arch) (cell : Nat → Cell) (q : Nat) (w : Cell) (j : Nat) :
    wordByte m (Function.update cell q w) j =
      if j / 2 = q then if j % 2 = 0 then (m.bytes w).1 else (m.bytes w).2
      else wordByte m cell j := by
  rw [wordByte, wordByte]
  by_cases hq : j / 2 = q
  · rw [if_pos hq, hq, Function.update_self]
  · rw [if_neg hq, Function.update_of_ne hq]

/-- A byte of a cell written over the bytes of the cells. -/
theorem wordByte_one {cell : Nat → Cell} {q : Nat} {w : Cell} {c : Byte}
    (h : m.bytes w = (c, (m.bytes (cell q)).2)) :
    wordByte m (Function.update cell q w) = splice (wordByte m cell) (2 * q) [c] := by
  funext j
  rw [splice_singleton, wordByte_update, h]
  by_cases hj : j = 2 * q
  · rw [hj, if_pos (by omega), if_pos (by omega), Function.update_self]
  · rw [Function.update_of_ne hj]
    split
    case isTrue hq => rw [if_neg (by omega), wordByte, if_neg (by omega), hq]
    case isFalse => rfl

/-- A whole cell written over the bytes of the cells. -/
theorem wordByte_two {cell : Nat → Cell} {q : Nat} {w : Cell} {a b : Byte} (h : m.bytes w = (a, b)) :
    wordByte m (Function.update cell q w) = splice (wordByte m cell) (2 * q) [a, b] := by
  funext j
  rw [splice_cons, splice_singleton, wordByte_update, h]
  by_cases hsecond : j = 2 * q + 1
  · rw [hsecond, if_pos (by omega), if_neg (by omega), Function.update_self]
  by_cases hfirst : j = 2 * q
  · rw [hfirst, if_pos (by omega), if_pos (by omega), Function.update_of_ne (by omega),
      Function.update_self]
  · rw [if_neg (by omega), Function.update_of_ne hsecond, Function.update_of_ne hfirst]

/-! ### The loops -/

/-- What a loop that begins at place `q` has done to the bytes `image` of the cells: those from `a` on
are `bytes`, and it has come to place `q'`. -/
structure Pushes (v : View) (image : (Nat → Cell) → Nat → Byte) (s : Con) (a : Nat)
    (bytes : List Byte) (q' : Nat) (r : Con × Nat) : Prop where
  same : SamePlace s r.1
  org : r.2 = place v s q'
  image : image (viewedCell v r.1) = splice (image (viewedCell v s)) a bytes

variable {image : (Nat → Cell) → Nat → Byte}

/-- One cell has been written, and the loop goes on from there. -/
theorem Pushes.after {a q' : Nat} (first : List Byte) {bytes : List Byte} {s₁ : Con} {r : Con × Nat}
    (hsame : SamePlace s s₁)
    (hfirst : image (viewedCell v s₁) = splice (image (viewedCell v s)) a first)
    (h : Pushes v image s₁ (a + first.length) bytes q' r) :
    Pushes v image s a (first ++ bytes) q' r := by
  refine ⟨hsame.trans h.same, ?_, ?_⟩
  · rw [h.org, hsame.place]
  · rw [h.image, hfirst, splice_append]

theorem Pushes.nil (a q : Nat) : Pushes v image s a [] q (s, place v s q) :=
  ⟨⟨rfl, rfl, rfl⟩, rfl, (splice_nil _ _).symm⟩

/-- The next place of a walk, on the console as a write has left it. -/
theorem start_after (h : Paved v s) {s₁ : Con} (hsame : SamePlace s s₁) (q : Nat) :
    RowWalk.start (place v s₁) s₁.geo.cols (q + 1) =
      (RowWalk.start (place v s) s.geo.cols q).step (place v s) s.geo.cols 2 := by
  rw [hsame.place, hsame.geo]
  exact (walk_step h q).symm

/-- The characters of the cells. -/
def charByte (cell : Nat → Cell) (i : Nat) : Byte := (cell i).setWidth 8

theorem charByte_update (cell : Nat → Cell) (q : Nat) (c : Byte) (old : Cell) :
    charByte (Function.update cell q ((old &&& 0xff00#16) ||| c.setWidth 16)) =
      splice (charByte cell) q [c] := by
  funext i
  rw [splice_singleton, charByte]
  by_cases hi : i = q
  · rw [hi, Function.update_self, Function.update_self, low_masked]
  · rw [Function.update_of_ne hi, Function.update_of_ne hi]
    rfl

/-- **The loop of the plain device** splices its bytes into the characters. -/
theorem pushes_pushChars (h : Paved v s) (bytes : List Byte) (q : Nat) :
    Pushes v charByte s q bytes (q + bytes.length)
      (pushChars (place v s) bytes (RowWalk.start (place v s) s.geo.cols q) s) := by
  induction bytes generalizing s q with
  | nil => exact .nil q q
  | cons c cs ih =>
    have haddr : (RowWalk.start (place v s) s.geo.cols q).addr = place v s q := rfl
    rw [pushChars, haddr]
    generalize hval : (vcsScrReadw s (place v s q) &&& 0xff00#16) ||| c.setWidth 16 = val
    have hsame := samePlace_write s val (place v s q)
    have hrest := ih (hsame.paved h) (q + 1)
    rw [start_after h hsame, hsame.place, Nat.add_assoc, Nat.add_comm 1] at hrest
    refine Pushes.after [c] hsame ?_ hrest
    rw [viewedCell_write h, ← hval]
    exact charByte_update _ q c _

theorem attr_pushChars (h : Paved v s) (bytes : List Byte) (q i : Nat) :
    viewedCell v (pushChars (place v s) bytes (RowWalk.start (place v s) s.geo.cols q) s).1 i >>> 8 =
      viewedCell v s i >>> 8 := by
  induction bytes generalizing s q with
  | nil => rfl
  | cons c cs ih =>
    have haddr : (RowWalk.start (place v s) s.geo.cols q).addr = place v s q := rfl
    rw [pushChars, haddr]
    generalize hval : (vcsScrReadw s (place v s q) &&& 0xff00#16) ||| c.setWidth 16 = val
    have hsame := samePlace_write s val (place v s q)
    have hrest := ih (hsame.paved h) (q + 1)
    rw [start_after h hsame, hsame.place] at hrest
    rw [hrest, viewedCell_write h]
    by_cases hi : i = q
    · rw [hi, Function.update_self, ← hval, high_masked, place_eq h]
      rfl
    · rw [Function.update_of_ne hi]

/-- **The loop of the device with attributes** splices its bytes into those of the cells. -/
theorem pushes_pushWords (h : Paved v s) (bytes : List Byte) (q : Nat) :
    Pushes v (wordByte m) s (2 * q) bytes (q + bytes.length / 2)
      (pushWords m (place v s) bytes (RowWalk.start (place v s) s.geo.cols q) s) := by
  have haddr : (RowWalk.start (place v s) s.geo.cols q).addr = place v s q := rfl
  induction bytes using List.twoStepInduction generalizing s q with
  | nil => exact .nil (2 * q) q
  | singleton c =>
    rw [pushWords, haddr]
    refine ⟨samePlace_write s _ _, congrArg (place v s) (show q = q + 1 / 2 by omega), ?_⟩
    rw [viewedCell_write h, place_eq h]
    exact wordByte_one (bytes_tailCell m c _)
  | cons_cons a b cs ih _ =>
    rw [pushWords, haddr]
    have hsame := samePlace_write s (m.word a b) (place v s q)
    have hrest := ih (hsame.paved h) (q + 1) rfl
    have hplaces : q + (a :: b :: cs).length / 2 = q + 1 + cs.length / 2 := by
      rw [List.length_cons, List.length_cons]
      omega
    rw [start_after h hsame, hsame.place] at hrest
    rw [hplaces]
    refine Pushes.after [a, b] hsame ?_ hrest
    rw [viewedCell_write h]
    exact wordByte_two (bytes_word m a b)

/-- The place the loop goes on from behind a first half cell. -/
theorem start_behind_head (h : Paved v s) {s₁ : Con} (hsame : SamePlace s s₁) (q : Nat) :
    (if q % s.geo.cols + 1 = s.geo.cols then
        (⟨place v s (q + 1), 0, q + 1 + s.geo.cols⟩ : RowWalk)
      else ⟨place v s q + 2, q % s.geo.cols + 1, q + 1 + (s.geo.cols - (q % s.geo.cols + 1))⟩) =
      RowWalk.start (place v s₁) s₁.geo.cols (q + 1) := by
  rw [start_after h hsame, RowWalk.step, RowWalk.start]
  have hlt := Nat.mod_lt q h.cols
  split
  case isTrue hend =>
    have hnext : q + (s.geo.cols - q % s.geo.cols) = q + 1 := by omega
    rw [hnext]
  case isFalse hin =>
    rw [RowWalk.mk.injEq]
    exact ⟨rfl, rfl, show _ = q + (s.geo.cols - q % s.geo.cols) by omega⟩

/-- **The cells of the device with attributes**, from byte `p` on.  On a little-endian machine the
bytes of the cells are those before with `bytes` spliced in; on a big-endian one the byte before `p`
may differ. -/
theorem pushes_pushCells (h : Paved v s) (p : Nat) (bytes : List Byte) :
    let r := pushCells m (place v s) p bytes s
    SamePlace s r.1 ∧ r.2 = place v s ((p + bytes.length) / 2) ∧
      ∀ j, j + 1 ≠ p ∨ m.bigEndian = false →
        wordByte m (viewedCell v r.1) j = splice (wordByte m (viewedCell v s)) p bytes j := by
  cases bytes with
  | nil =>
    refine ⟨⟨rfl, rfl, rfl⟩, rfl, fun j _ => ?_⟩
    rw [splice_nil]
    rfl
  | cons c cs =>
    by_cases hodd : p % 2 = 1
    · have hhalf : (p + 1) / 2 = p / 2 + 1 := by omega
      generalize hval : m.headCell c (vcsScrReadw s (place v s (p / 2))) = val
      have hsame := samePlace_write s val (place v s (p / 2))
      have hrest := pushes_pushWords (m := m) (hsame.paved h) cs (p / 2 + 1)
      rw [← start_behind_head h hsame (p / 2), hsame.place] at hrest
      have hcells : pushCells m (place v s) p (c :: cs) s = pushWords m (place v s) cs
          (if p / 2 % s.geo.cols + 1 = s.geo.cols then
            (⟨place v s (p / 2 + 1), 0, p / 2 + 1 + s.geo.cols⟩ : RowWalk)
          else ⟨place v s (p / 2) + 2, p / 2 % s.geo.cols + 1,
            p / 2 + 1 + (s.geo.cols - (p / 2 % s.geo.cols + 1))⟩)
          (vcsScrWritew s val (place v s (p / 2))) := by
        rw [pushCells, if_pos hodd]
        dsimp only
        rw [hval, hhalf]
      rw [hcells]
      refine ⟨hsame.trans hrest.same, ?_, fun j hj => ?_⟩
      · rw [hrest.org, hsame.place, List.length_cons]
        exact congrArg (place v s) (by omega)
      · rw [hrest.image, viewedCell_write h, splice_cons]
        have hnext : 2 * (p / 2 + 1) = p + 1 := by omega
        rw [hnext]
        refine splice_congr ?_ (p + 1) cs
        rw [wordByte_update]
        obtain ⟨hsecond, hfirst⟩ := bytes_headCell m c (vcsScrReadw s (place v s (p / 2)))
        rw [hval] at hsecond hfirst
        by_cases hp : j = p
        · rw [hp, if_pos rfl, if_neg (by omega), hsecond, Function.update_self]
        · rw [Function.update_of_ne hp]
          split
          case isTrue hq =>
            rw [if_pos (by omega), hfirst (hj.resolve_left (by omega)), wordByte, if_pos (by omega),
              hq, place_eq h]
            rfl
          case isFalse => rfl
    · have hp : 2 * (p / 2) = p := by omega
      have hrest := pushes_pushWords (m := m) h (c :: cs) (p / 2)
      rw [hp] at hrest
      have hcells : pushCells m (place v s) p (c :: cs) s = pushWords m (place v s) (c :: cs)
        (RowWalk.start (place v s) s.geo.cols (p / 2)) s := if_neg hodd
      rw [hcells]
      refine ⟨hrest.same, ?_, fun j _ => congrFun hrest.image j⟩
      rw [hrest.org]
      exact congrArg (place v s) (by omega)

end LinuxConsole

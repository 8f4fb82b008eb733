import LinuxConsole.Vcs.Device

/-!
# Reading a screen device

`flatImage` is the screen as the device shows it: the header of the device with attributes, and then
the viewed cells row by row.  A round of `vcs_read` copies a slice of it, whatever the alignment:
`readRound_slice`.  Slices that meet are one slice, so **`vcs_read` returns the slice that was asked
for**, `vcs_read_slice`, and since a round has an even number of bytes to fill it does not write
beyond `con_buf`.
-/

namespace LinuxConsole

open Lib

variable {m : Arch} {v : View} {s : Con} {attr : Bool} {bufSize : Nat}

/-! ### The flat image -/

/-- The bytes of a sequence of cells. -/
def wordByte (m : Arch) (cell : Nat → Cell) (j : Nat) : Byte :=
  if j % 2 = 0 then (m.bytes (cell (j / 2))).1 else (m.bytes (cell (j / 2))).2

/-- The address of the viewed cell in row `i / cols` and column `i % cols`. -/
def viewedAddr (v : View) (s : Con) (i : Nat) : Nat :=
  screenpos v s (i / s.geo.cols * s.geo.sizeRow + 2 * (i % s.geo.cols)) s.vt.visible

/-- The header of the device with attributes. -/
def headerByte (s : Con) (j : Nat) : Byte :=
  [BitVec.ofNat 8 s.geo.rows, BitVec.ofNat 8 s.geo.cols, BitVec.ofNat 8 s.cur.x,
    BitVec.ofNat 8 s.cur.y].getD j 0

/-- The bytes a device shows of the cells `cell`. -/
def imageByte (m : Arch) (attr : Bool) (s : Con) (cell : Nat → Cell) (j : Nat) : Byte :=
  if attr then
    if j < HEADER_SIZE then headerByte s j else wordByte m cell (j - HEADER_SIZE)
  else (cell j).setWidth 8

/-- **The flat image** of the console, with the cells as they are in memory. -/
def flatImage (m : Arch) (attr : Bool) (v : View) (s : Con) : List Byte :=
  slice (imageByte m attr s fun i => s.mem (viewedAddr v s i)) 0 (vcsSize s.geo attr)

/-! ### The walk through the screen -/

/-- The rows of the screen lie one behind the other. -/
structure Paved (v : View) (s : Con) : Prop where
  hook : v.conScreenPos = none
  sizeRow : s.geo.sizeRow = 2 * s.geo.cols
  cols : 0 < s.geo.cols

/-- The address of the first viewed cell. -/
def viewedBase (v : View) (s : Con) : Nat := if s.vt.visible then v.visibleOrigin else s.geo.origin

theorem screenpos_base (h : Paved v s) (offset : Nat) :
    screenpos v s offset s.vt.visible = viewedBase v s + offset := by
  rw [screenpos, viewedBase, h.hook]
  cases s.vt.visible <;> rfl

theorem screenPos_base (h : Paved v s) (w : Nat) :
    screenPos v s w s.vt.visible = viewedBase v s + 2 * w := screenpos_base h _

theorem viewedAddr_base (h : Paved v s) (i : Nat) :
    viewedAddr v s i = viewedBase v s + 2 * i := by
  have hdiv := Nat.div_add_mod' i s.geo.cols
  have hoffset : i / s.geo.cols * s.geo.sizeRow + 2 * (i % s.geo.cols) = 2 * i := by
    rw [h.sizeRow, Nat.mul_left_comm]
    omega
  rw [viewedAddr, hoffset, screenpos_base h]

theorem screenPos_viewed (h : Paved v s) (i : Nat) :
    screenPos v s i s.vt.visible = viewedAddr v s i := by
  rw [screenPos_base h, viewedAddr_base h]

theorem walk_step (h : Paved v s) (q : Nat) :
    (RowWalk.start (screenPos v s · s.vt.visible) s.geo.cols q).step (screenPos v s · s.vt.visible)
      s.geo.cols 2 = RowWalk.start (screenPos v s · s.vt.visible) s.geo.cols (q + 1) :=
  RowWalk.step_start h.cols (fun q _ => by rw [screenPos_base h, screenPos_base h]; omega) q

/-- The viewed cells as the device reads them. -/
def viewedCell (v : View) (s : Con) (i : Nat) : Cell := vcsScrReadw s (viewedAddr v s i)

theorem viewedCell_undrawn (hsoft : s.vt.cursorOriginal = none) :
    viewedCell v s = fun i => s.mem (viewedAddr v s i) := by
  funext i
  rw [viewedCell, vcsScrReadw, hsoft]
  exact ite_self _

theorem readChars_eq (h : Paved v s) (n q : Nat) :
    readChars (screenPos v s · s.vt.visible) s n
      (RowWalk.start (screenPos v s · s.vt.visible) s.geo.cols q) =
        slice (fun j => (viewedCell v s j).setWidth 8) q n := by
  induction n generalizing q with
  | zero => rfl
  | succ n ih =>
    rw [readChars, walk_step h, ih, slice_succ]
    rw [RowWalk.start, screenPos_viewed h, viewedCell]

theorem readWords_eq (h : Paved v s) (n q : Nat) :
    readWords m (screenPos v s · s.vt.visible) s n
      (RowWalk.start (screenPos v s · s.vt.visible) s.geo.cols q) =
        slice (wordByte m (viewedCell v s)) (2 * q) (2 * n) := by
  induction n generalizing q with
  | zero => rfl
  | succ n ih =>
    have hfirst : wordByte m (viewedCell v s) (2 * q) = (m.bytes (viewedCell v s q)).1 := by
      rw [wordByte, if_pos (by omega), Nat.mul_div_cancel_left q (by decide)]
    have hsecond : wordByte m (viewedCell v s) (2 * q + 1) = (m.bytes (viewedCell v s q)).2 := by
      rw [wordByte, if_neg (by omega), show (2 * q + 1) / 2 = q by omega]
    rw [readWords, walk_step h, ih, show 2 * (n + 1) = 2 * n + 1 + 1 by omega, slice_succ,
      slice_succ, hfirst, hsecond]
    dsimp only [RowWalk.start]
    rw [screenPos_viewed h]
    rfl

/-! ### A round -/

/-- The image with the cells as the device reads them. -/
def readByte (m : Arch) (attr : Bool) (v : View) (s : Con) : Nat → Byte :=
  imageByte m attr s (viewedCell v s)

theorem readByte_words {j : Nat} (hj : HEADER_SIZE ≤ j) :
    readByte m true v s j = wordByte m (viewedCell v s) (j - HEADER_SIZE) := if_neg (by omega)

theorem words_image (q n : Nat) :
    slice (wordByte m (viewedCell v s)) q n = slice (readByte m true v s) (HEADER_SIZE + q) n := by
  refine slice_congr fun i _ => ?_
  rw [readByte_words (by omega), show HEADER_SIZE + q + i - HEADER_SIZE = q + i by omega]

theorem header_words (h : Paved v s) (n : Nat) :
    [BitVec.ofNat 8 s.geo.rows, BitVec.ofNat 8 s.geo.cols, (getconsxy s).1, (getconsxy s).2] ++
      readWords m (screenPos v s · s.vt.visible) s n
        (RowWalk.start (screenPos v s · s.vt.visible) s.geo.cols 0) =
          slice (readByte m true v s) 0 (HEADER_SIZE + 2 * n) := by
  rw [readWords_eq h, words_image, ← slice_append]
  rfl

/-- What a round does: it sends the slice of the image from `pos` on, at least one byte and at most
`thisRound`, and it fills no more than `con_buf`. -/
structure RoundSends (m : Arch) (attr : Bool) (v : View) (s : Con) (bufSize pos thisRound : Nat)
    (r : ReadRound) : Prop where
  sent : (r.conBuf.drop r.start).take r.origCount = slice (readByte m attr v s) pos r.origCount
  some : 0 < r.origCount
  most : r.origCount ≤ thisRound
  reach : bufSize % 2 = 0 → r.conBuf.length ≤ bufSize

/-- A buffer filled with a slice of the image sends a slice of it. -/
theorem RoundSends.of_slice {pos thisRound a n j count : Nat} {buf : List Byte}
    (hbuf : buf = slice (readByte m attr v s) a n) (ha : a + j = pos) (hn : j + count ≤ n)
    (hsome : 0 < count) (hmost : count ≤ thisRound) (hreach : bufSize % 2 = 0 → n ≤ bufSize) :
    RoundSends m attr v s bufSize pos thisRound ⟨buf, j, count⟩ := by
  refine ⟨?_, hsome, hmost, fun heven => ?_⟩
  · rw [hbuf, slice_slice _ a hn, ha]
  · rw [hbuf, length_slice]
    exact hreach heven

/-- **A round sends a slice of the image**, wherever it begins. -/
theorem readRound_slice (h : Paved v s) (hbuf : HEADER_SIZE ≤ bufSize) (m : Arch) (attr : Bool)
    (pos : Nat) {thisRound : Nat} (hpos : 0 < thisRound) (hle : thisRound ≤ bufSize) :
    RoundSends m attr v s bufSize pos thisRound (readRound m bufSize attr v s pos thisRound) := by
  have hsize : HEADER_SIZE = 4 := rfl
  cases attr with
  | false =>
    have hchars := readChars_eq h thisRound pos
    exact .of_slice hchars (Nat.add_zero pos) (by omega) hpos (Nat.le_refl _) fun _ => hle
  | true =>
    by_cases hheader : pos < HEADER_SIZE
    · rw [show readRound m bufSize true v s pos thisRound = _ from
        if_pos hheader]
      refine .of_slice (header_words h _) (Nat.zero_add pos) ?_ ?_ ?_ fun heven => ?_
      · split <;> omega
      · split <;> omega
      · split <;> omega
      · split <;> omega
    · by_cases hodd : pos % 2 = 1
      · rw [show readRound m bufSize true v s pos thisRound = _ from
          (if_neg hheader).trans (if_pos hodd)]
        refine .of_slice ((readWords_eq h _ _).trans (words_image _ _)) ?_ ?_ ?_ ?_ fun heven => ?_
        · omega
        · split <;> omega
        · split <;> omega
        · split <;> omega
        · split <;> omega
      · rw [show readRound m bufSize true v s pos thisRound = _ from
          (if_neg hheader).trans (if_neg hodd)]
        refine .of_slice ((readWords_eq h _ _).trans (words_image _ _)) ?_ ?_ hpos (Nat.le_refl _)
          fun heven => ?_
        · omega
        · omega
        · omega

/-! ### The rounds -/

/-- What the loop adds to `r`, if `wanted` bytes from `pos` on are there to be read and the user has
room for `room`. -/
structure LoopReads (m : Arch) (attr : Bool) (v : View) (s : Con) (bufSize pos wanted room : Nat)
    (r r' : ReadState) : Prop where
  data : r'.data = r.data ++ slice (readByte m attr v s) pos (min wanted room)
  read : r'.read = r.read + min wanted room
  fault : r'.fault = (r.fault || decide (room < wanted))
  reach : bufSize % 2 = 0 → r'.reach ≤ max r.reach bufSize

theorem LoopReads.none (pos room : Nat) (r : ReadState) :
    LoopReads m attr v s bufSize pos 0 room r r := by
  refine ⟨?_, ?_, ?_, fun _ => Nat.le_max_left _ _⟩
  · rw [Nat.zero_min, slice_zero, List.append_nil]
  · rw [Nat.zero_min, Nat.add_zero]
  · rw [decide_eq_false (Nat.not_lt_zero room), Bool.or_false]

/-- **The rounds join.**  The loop ends, and it has read what is there of the bytes asked for. -/
theorem vcsReadLoop_reads (h : Paved v s) (hbuf : HEADER_SIZE ≤ bufSize) (m : Arch) (attr : Bool)
    (fuel : Nat) :
    ∀ pos count room r, count < fuel → ∃ r', vcsReadLoop m bufSize attr v s fuel pos count room r =
      some r' ∧ LoopReads m attr v s bufSize pos (min count (vcsSize s.geo attr - pos)) room r r' := by
  have hsize : HEADER_SIZE = 4 := rfl
  induction fuel with
  | zero => exact fun _ _ _ _ hfuel => absurd hfuel (Nat.not_lt_zero _)
  | succ fuel ih =>
    intro pos count room r hfuel
    rw [vcsReadLoop.eq_def]
    by_cases hcount : count = 0
    · refine ⟨r, if_pos hcount, ?_⟩
      rw [hcount, Nat.zero_min]
      exact .none pos room r
    by_cases hend : pos ≥ vcsSize s.geo attr
    · refine ⟨r, (if_neg hcount).trans (if_pos hend), ?_⟩
      rw [Nat.sub_eq_zero_of_le hend, Nat.min_zero]
      exact .none pos room r
    simp only [if_neg hcount, if_neg hend]
    have hwanted : (if count > vcsSize s.geo attr - pos then vcsSize s.geo attr - pos else count) =
        min count (vcsSize s.geo attr - pos) := by
      split <;> omega
    rw [hwanted]
    generalize hw : min count (vcsSize s.geo attr - pos) = wanted
    have hthis : (if wanted > bufSize then bufSize else wanted) = min wanted bufSize := by
      split <;> omega
    rw [hthis]
    obtain ⟨hsent, hsome, hmost, hreach⟩ := readRound_slice h hbuf m attr pos
      (show 0 < min wanted bufSize by omega) (Nat.min_le_right _ _)
    generalize readRound m bufSize attr v s pos (min wanted bufSize) = round at *
    rw [hsent]
    by_cases hfault : room < round.origCount
    · refine ⟨_, if_pos hfault, ?_, ?_, ?_, fun heven => ?_⟩
      · rw [take_slice, Nat.min_eq_left (by omega), Nat.min_eq_right (by omega)]
      · exact congrArg (r.read + ·) (Nat.min_eq_right (by omega)).symm
      · rw [decide_eq_true (by omega), Bool.or_true]
      · exact max_le_max_left _ (hreach heven)
    · rw [if_neg hfault]
      obtain ⟨r', heq, hreads⟩ := ih (pos + round.origCount) (wanted - round.origCount)
        (room - round.origCount) ⟨r.data ++ slice (readByte m attr v s) pos round.origCount,
          r.read + round.origCount, r.fault, max r.reach round.conBuf.length⟩ (by omega)
      refine ⟨r', heq, ?_⟩
      have hrest : min (wanted - round.origCount) (vcsSize s.geo attr - (pos + round.origCount)) =
          wanted - round.origCount := by omega
      rw [hrest] at hreads
      have hjoin : round.origCount + min (wanted - round.origCount) (room - round.origCount) =
          min wanted room := by omega
      refine ⟨?_, ?_, ?_, fun heven => ?_⟩
      · rw [hreads.data, List.append_assoc, slice_append, hjoin]
      · rw [hreads.read, Nat.add_assoc, hjoin]
      · rw [hreads.fault]
        exact congrArg (r.fault || ·) (decide_eq_decide.mpr (by omega))
      · have hlast := hreads.reach heven
        have hround := hreach heven
        simp only at hlast
        omega

theorem vcsRead_of_nonneg {pos : Int} (hpos : ¬pos < 0) (count room : Nat) :
    vcsRead m bufSize attr v (some s) pos count room =
      (vcsReadLoop m bufSize attr v s (count + 1) pos.toNat count room ⟨[], 0, false, 0⟩).map
        (·.finish pos) := by
  rw [vcsRead]
  exact if_neg hpos

/-- **`vcs_read` returns the slice asked for.**  With no software cursor drawn, for every size of the
console, device, position and count, and for every even size of `con_buf` that holds the header: the
call ends, the user has the bytes of the flat image from `pos` on as far as they were asked for and
there was room for them, the position moves on by their number, and `con_buf` is not written beyond
its end. -/
theorem vcs_read_slice (h : Paved v s) (hsoft : s.vt.cursorOriginal = none)
    (hbuf : HEADER_SIZE ≤ bufSize) (heven : bufSize % 2 = 0) (m : Arch) (attr : Bool) (pos : Int)
    (count room : Nat) :
    ∃ r, vcsRead m bufSize attr v (some s) pos count room = some r ∧
      (pos < 0 → r = ⟨-EINVAL, pos, [], 0⟩) ∧
      (0 ≤ pos →
        let asked := ((flatImage m attr v s).drop pos.toNat).take count
        r.data = asked.take room ∧ r.pos = pos + r.data.length ∧ r.reach ≤ bufSize ∧
          r.ret = if r.data = [] ∧ asked ≠ [] then -EFAULT else r.data.length) := by
  by_cases hneg : pos < 0
  · exact ⟨_, if_pos hneg, fun _ => rfl, fun hpos => absurd hneg (by omega)⟩
  obtain ⟨r, heq, hdata, hread, hfault, hreach⟩ := vcsReadLoop_reads h hbuf m attr (count + 1)
    pos.toNat count room ⟨[], 0, false, 0⟩ (Nat.lt_succ_self count)
  have hcall : vcsRead m bufSize attr v (some s) pos count room = some (r.finish pos) := by
    rw [vcsRead_of_nonneg hneg, heq]
    rfl
  refine ⟨r.finish pos, hcall, fun hpos => absurd hpos hneg, fun _ => ?_⟩
  have hbytes : readByte m attr v s = imageByte m attr s fun i => s.mem (viewedAddr v s i) := by
    rw [readByte, viewedCell_undrawn hsoft]
  have hasked : ((flatImage m attr v s).drop pos.toNat).take count =
      slice (readByte m attr v s) pos.toNat (min count (vcsSize s.geo attr - pos.toNat)) := by
    rw [flatImage, hbytes, drop_slice, take_slice, Nat.zero_add]
  rw [hasked]
  generalize min count (vcsSize s.geo attr - pos.toNat) = wanted at *
  rw [List.nil_append] at hdata
  rw [Nat.zero_add] at hread
  have hlength : r.data.length = min wanted room := by rw [hdata, length_slice]
  intro asked
  refine ⟨?_, ?_, ?_, ?_⟩
  · change r.data = asked.take room
    rw [hdata, take_slice, Nat.min_comm]
  · change pos + r.read = pos + r.data.length
    rw [hlength, hread]
  · exact (hreach heven).trans (max_le (Nat.zero_le _) (Nat.le_refl _))
  · have hasked : asked ≠ [] ↔ 0 < wanted := by
      rw [← List.length_pos_iff, length_slice]
    have hnone : r.data = [] ↔ min wanted room = 0 := by rw [← List.length_eq_zero_iff, hlength]
    have hshort : r.fault = true ↔ room < wanted := by
      rw [hfault, Bool.false_or, decide_eq_true_iff]
    change (if r.read ≠ 0 then (r.read : Int) else if r.fault = true then -EFAULT else 0) =
      if r.data = [] ∧ asked ≠ [] then -EFAULT else r.data.length
    rw [hread]
    simp only [hasked, hnone, hlength, hshort]
    split_ifs <;> omega

/-- Three rounds of a read that begins within a cell. -/
theorem vcs_read_slice_boot :
    ∃ r, vcsRead ⟨false, true⟩ 256 true ⟨0x1000, none⟩ (some bootCon) 5 700 1000 = some r ∧
      r.data = ((flatImage ⟨false, true⟩ true ⟨0x1000, none⟩ bootCon).drop 5).take 700 := by
  have hpaved : Paved ⟨0x1000, none⟩ bootCon := ⟨rfl, rfl, Nat.succ_pos 79⟩
  obtain ⟨r, hr, -, hslice⟩ := vcs_read_slice hpaved rfl (by decide : HEADER_SIZE ≤ 256) rfl
    ⟨false, true⟩ true 5 700 1000
  refine ⟨r, hr, (hslice (by decide)).1.trans (List.take_of_length_le ?_)⟩
  exact (List.length_take_le _ _).trans (by decide)

end LinuxConsole

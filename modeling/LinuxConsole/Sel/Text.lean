import Mathlib.Data.List.DropRight
import LinuxConsole.Sel.Selection

/-!
# The text of the selection

The loop of `set_selection` that fills `sel_buffer` stores every character, and at the end of a row
takes the blanks before it back and stores a carriage return.  `selectedText` is the text as the
rows make it: **a row that reaches the right edge loses its trailing blanks for one carriage
return**, `endRow`, and an unfinished row keeps them.  `selected_text` compares the two, and bounds
every byte the loop writes by the size `kmalloc` was asked for: a carriage return is only written in
the place of a blank.
-/

namespace LinuxConsole

/-! ### By rows -/

/-- A finished row: one carriage return for its trailing blanks, if it has any. -/
def endRow (row : List Nat) : List Nat :=
  if (row.rdropWhile isspace).length = row.length then row else row.rdropWhile isspace ++ [13]

/-- The offsets from `a` up to `b`. -/
def offsets (a b : Nat) : List Nat := (List.range ((b - a) / 2)).map (a + 2 * ·)

/-- The characters of row `y` from the offset `start` up to `stop`. -/
def rowText (pos : Nat → Nat) (sizeRow start stop y : Nat) : List Nat :=
  (offsets (max start (y * sizeRow)) (min stop ((y + 1) * sizeRow))).map pos

/-- The rows that end before `stop`. -/
def finishedText (pos : Nat → Nat) (sizeRow start stop : Nat) : List Nat :=
  (List.range (stop / sizeRow)).flatMap fun y => endRow (rowText pos sizeRow start stop y)

/-- **The text of the selection** from the offset `start` up to `stop`. -/
def selectedText (pos : Nat → Nat) (sizeRow start stop : Nat) : List Nat :=
  finishedText pos sizeRow start stop ++ rowText pos sizeRow start stop (stop / sizeRow)

/-- A letter on a row of four cells, and half of the row below. -/
example : selectedText (fun o => if o = 0 then 65 else 32) 8 0 12 = [65, 13, 32, 32] := by decide

/-! ### One cell more -/

theorem offsets_nil {a b : Nat} (h : b ≤ a) : offsets a b = [] := by
  rw [offsets, Nat.sub_eq_zero_of_le h]
  rfl

theorem offsets_succ {a b : Nat} (ha : a % 2 = 0) (hb : b % 2 = 0) (h : a ≤ b) :
    offsets a (b + 2) = offsets a b ++ [b] := by
  have hlen : (b + 2 - a) / 2 = (b - a) / 2 + 1 := by omega
  have hlast : a + 2 * ((b - a) / 2) = b := by omega
  rw [offsets, hlen, List.range_succ, List.map_append, List.map_singleton, hlast, offsets]

theorem rowText_nil {pos : Nat → Nat} {sizeRow start stop y : Nat}
    (h : (y + 1) * sizeRow ≤ start ∨ stop ≤ y * sizeRow) :
    rowText pos sizeRow start stop y = [] := by
  rw [rowText, offsets_nil, List.map_nil]
  rcases h with h | h
  · exact (min_le_right _ _).trans (h.trans (le_max_left _ _))
  · exact (min_le_left _ _).trans (h.trans (le_max_right _ _))

theorem rowText_ended {pos : Nat → Nat} {sizeRow start stop stop' y : Nat}
    (h : (y + 1) * sizeRow ≤ stop) (hle : stop ≤ stop') :
    rowText pos sizeRow start stop' y = rowText pos sizeRow start stop y := by
  rw [rowText, rowText, min_eq_right h, min_eq_right (h.trans hle)]

variable {pos : Nat → Nat} {cols start stop : Nat}

theorem row_bounds (hcols : 0 < cols) (ht : stop % 2 = 0) :
    stop / (2 * cols) * (2 * cols) ≤ stop ∧
      stop + 2 ≤ (stop / (2 * cols) + 1) * (2 * cols) ∧
      stop / (2 * cols) * (2 * cols) % 2 = 0 ∧ (stop / (2 * cols) + 1) * (2 * cols) % 2 = 0 := by
  have hlow := Nat.div_mul_le_self stop (2 * cols)
  have hhigh := Nat.lt_div_mul_add (a := stop) (b := 2 * cols) (by omega)
  have heven : stop / (2 * cols) * (2 * cols) = 2 * (stop / (2 * cols) * cols) := by ring
  have hnext : (stop / (2 * cols) + 1) * (2 * cols) =
      stop / (2 * cols) * (2 * cols) + 2 * cols := Nat.succ_mul _ _
  omega

theorem rowText_succ (hcols : 0 < cols) (hs : start % 2 = 0) (ht : stop % 2 = 0)
    (hle : start ≤ stop) : rowText pos (2 * cols) start (stop + 2) (stop / (2 * cols)) =
      rowText pos (2 * cols) start stop (stop / (2 * cols)) ++ [pos stop] := by
  obtain ⟨hlow, hhigh, heven, -⟩ := row_bounds hcols ht
  rw [rowText, rowText, min_eq_left hhigh, min_eq_left (by omega),
    offsets_succ (by omega) ht (max_le hle hlow), List.map_append, List.map_singleton]

theorem finishedText_congr {stop' : Nat} (hrow : stop' / (2 * cols) = stop / (2 * cols))
    (hle : stop ≤ stop') :
    finishedText pos (2 * cols) start stop' = finishedText pos (2 * cols) start stop := by
  rw [finishedText, finishedText, hrow]
  refine List.flatMap_congr fun y hy => ?_
  have hy' : (y + 1) * (2 * cols) ≤ stop :=
    (Nat.mul_le_mul_right _ (List.mem_range.mp hy)).trans (Nat.div_mul_le_self stop _)
  rw [rowText_ended hy' hle]

theorem div_succ_of_inner (hcols : 0 < cols) (ht : stop % 2 = 0)
    (hin : (stop + 2) % (2 * cols) ≠ 0) : (stop + 2) / (2 * cols) = stop / (2 * cols) := by
  obtain ⟨hlow, hhigh, -, -⟩ := row_bounds hcols ht
  refine Nat.div_eq_of_lt_le (by omega) (lt_of_le_of_ne hhigh fun h => hin ?_)
  rw [h]
  exact Nat.mul_mod_left _ _

theorem div_succ_of_edge (hcols : 0 < cols) (ht : stop % 2 = 0)
    (hedge : (stop + 2) % (2 * cols) = 0) :
    (stop + 2) = (stop / (2 * cols) + 1) * (2 * cols) ∧
      (stop + 2) / (2 * cols) = stop / (2 * cols) + 1 := by
  obtain ⟨hlow, hhigh, -, -⟩ := row_bounds hcols ht
  have hq : stop / (2 * cols) < (stop + 2) / (2 * cols) := by
    by_contra hnot
    have hsame : (stop + 2) / (2 * cols) = stop / (2 * cols) :=
      le_antisymm (not_lt.mp hnot) (Nat.div_le_div_right (Nat.le_add_right stop 2))
    have hback := Nat.div_add_mod (stop + 2) (2 * cols)
    rw [hedge, hsame, Nat.mul_comm] at hback
    omega
  have hup : (stop + 2) / (2 * cols) ≤ stop / (2 * cols) + 1 :=
    Nat.div_le_of_le_mul (by rw [Nat.mul_comm]; exact hhigh)
  have hdiv : (stop + 2) / (2 * cols) = stop / (2 * cols) + 1 := by omega
  refine ⟨?_, hdiv⟩
  have hback := Nat.div_add_mod (stop + 2) (2 * cols)
  rw [hedge, hdiv, Nat.mul_comm] at hback
  exact hback.symm

theorem finishedText_edge (hcols : 0 < cols) (hs : start % 2 = 0) (ht : stop % 2 = 0)
    (hle : start ≤ stop) (hedge : (stop + 2) % (2 * cols) = 0) :
    finishedText pos (2 * cols) start (stop + 2) = finishedText pos (2 * cols) start stop ++
      endRow (rowText pos (2 * cols) start stop (stop / (2 * cols)) ++ [pos stop]) := by
  obtain ⟨-, hdiv⟩ := div_succ_of_edge hcols ht hedge
  have hold : ∀ y ∈ List.range (stop / (2 * cols)),
      endRow (rowText pos (2 * cols) start (stop + 2) y) =
        endRow (rowText pos (2 * cols) start stop y) := by
    intro y hy
    have hy' : (y + 1) * (2 * cols) ≤ stop :=
      (Nat.mul_le_mul_right _ (List.mem_range.mp hy)).trans (Nat.div_mul_le_self stop _)
    rw [rowText_ended hy' (Nat.le_add_right stop 2)]
  rw [finishedText, hdiv, List.range_succ, List.flatMap_append, List.flatMap_congr hold,
    List.flatMap_singleton, rowText_succ hcols hs ht hle, finishedText]

/-! ### The loop -/

theorem endRow_length (row : List Nat) : (endRow row).length ≤ row.length := by
  have hle := (List.rdropWhile_prefix isspace row).length_le
  rw [endRow]
  split
  · exact le_refl _
  · rw [List.length_append, List.length_singleton]
    omega

/-- The buffer holds finished rows and an unfinished one; `obp` is behind the last character of it
that is no blank. -/
structure Fill.Holds (f : Fill) (done row : List Nat) (n : Nat) : Prop where
  buf : f.buf = done ++ row
  obp : f.obp = done.length + (row.rdropWhile isspace).length
  length : (done ++ row).length ≤ n
  reach : f.reach ≤ n

/-- **One character** is stored, and the row ends or goes on. -/
theorem Fill.Holds.store {f : Fill} {done row : List Nat} {n : Nat} (h : f.Holds done row n)
    (c : Nat) (lastCell : Bool) :
    (f.store c lastCell).Holds (if lastCell then done ++ endRow (row ++ [c]) else done)
      (if lastCell then [] else row ++ [c]) (n + 1) := by
  obtain ⟨hbuf, hobp, hlen, hreach⟩ := h
  have hbp : f.buf.length + 1 = done.length + (row ++ [c]).length := by
    rw [hbuf, List.length_append, List.length_append, List.length_singleton]
    omega
  have hnext : (if isspace c then f.obp else f.buf.length + 1) =
      done.length + ((row ++ [c]).rdropWhile isspace).length := by
    split
    next hc => rw [List.rdropWhile_concat_pos isspace row c hc, hobp]
    next hc => rw [List.rdropWhile_concat_neg isspace row c hc, hbp]
  have hfar : f.buf.length + 1 ≤ n + 1 := by rw [hbuf]; omega
  have hkeeps := List.rdropWhile_prefix isspace (row ++ [c])
  have hends := endRow_length (row ++ [c])
  have hwhole : f.buf ++ [c] = done ++ (row ++ [c]) := by rw [hbuf, List.append_assoc]
  rw [Fill.store]
  dsimp only
  rw [hnext, hwhole]
  cases lastCell with
  | false =>
    refine ⟨rfl, rfl, ?_, ?_⟩
    · rw [if_neg Bool.false_ne_true, if_neg Bool.false_ne_true, List.length_append]
      omega
    · exact max_le (by omega) hfar
  | true =>
    rw [if_pos rfl, if_pos rfl, if_pos rfl]
    by_cases hblank : ((row ++ [c]).rdropWhile isspace).length = (row ++ [c]).length
    · rw [if_neg (by rw [hbp, hblank]; exact not_not_intro rfl)]
      have hrow : endRow (row ++ [c]) = row ++ [c] := by rw [endRow, if_pos hblank]
      rw [hrow]
      refine ⟨(List.append_nil _).symm, ?_, ?_, max_le (by omega) hfar⟩
      · dsimp only
        rw [List.length_append, hbp]
        rfl
      · rw [List.append_nil, List.length_append]
        omega
    · rw [if_pos (by rw [hbp]; omega)]
      have hrow : endRow (row ++ [c]) = (row ++ [c]).rdropWhile isspace ++ [13] := by
        rw [endRow, if_neg hblank]
      have htake : (done ++ (row ++ [c])).take
          (done.length + ((row ++ [c]).rdropWhile isspace).length) =
            done ++ (row ++ [c]).rdropWhile isspace := by
        rw [List.take_length_add_append, ← List.prefix_iff_eq_take.mp hkeeps]
      have hshort := hkeeps.length_le
      rw [hrow, htake]
      refine ⟨by rw [List.append_nil, List.append_assoc], ?_, ?_, ?_⟩
      · dsimp only
        rw [List.length_append, List.length_append, List.length_singleton, List.rdropWhile_nil]
        rfl
      · rw [List.append_nil, List.length_append, List.length_append, List.length_singleton]
        omega
      · exact max_le (max_le (by omega) hfar) (by omega)

/-- **The whole loop**, cell by cell. -/
theorem holds_fillBuffer (pos : Nat → Nat) (hcols : 0 < cols) (hs : start % 2 = 0) (n : Nat) :
    (fillBuffer pos (2 * cols) start n).Holds
      (finishedText pos (2 * cols) start (start + 2 * n))
      (rowText pos (2 * cols) start (start + 2 * n) ((start + 2 * n) / (2 * cols))) n := by
  induction n with
  | zero =>
    have hdone : finishedText pos (2 * cols) start start = [] := by
      rw [finishedText, List.flatMap_eq_nil_iff]
      intro y hy
      have hy' : (y + 1) * (2 * cols) ≤ start :=
        (Nat.mul_le_mul_right _ (List.mem_range.mp hy)).trans (Nat.div_mul_le_self start _)
      rw [rowText_nil (.inl hy')]
      rfl
    have hrow : rowText pos (2 * cols) start start (start / (2 * cols)) = [] := by
      obtain ⟨hlow, hhigh, -, -⟩ := row_bounds hcols hs
      rw [rowText, offsets_nil ((min_le_left _ _).trans (le_max_left _ _)), List.map_nil]
    rw [Nat.mul_zero, Nat.add_zero, hdone, hrow]
    exact ⟨rfl, rfl, le_refl 0, le_refl 0⟩
  | succ n ih =>
    have ht : (start + 2 * n) % 2 = 0 := by omega
    have hle : start ≤ start + 2 * n := Nat.le_add_right _ _
    have hstep := ih.store (pos (start + 2 * n)) ((start + 2 * n + 2) % (2 * cols) == 0)
    have hfold : fillBuffer pos (2 * cols) start (n + 1) =
        (fillBuffer pos (2 * cols) start n).store (pos (start + 2 * n))
          ((start + 2 * n + 2) % (2 * cols) == 0) := by
      rw [fillBuffer, List.range_succ, List.foldl_append]
      rfl
    rw [hfold, show start + 2 * (n + 1) = start + 2 * n + 2 by omega]
    by_cases hedge : (start + 2 * n + 2) % (2 * cols) = 0
    · obtain ⟨hend, hdiv⟩ := div_succ_of_edge hcols ht hedge
      rw [beq_iff_eq.mpr hedge, if_pos rfl, if_pos rfl] at hstep
      rw [beq_iff_eq.mpr hedge, finishedText_edge hcols hs ht hle hedge,
        rowText_nil (y := (start + 2 * n + 2) / (2 * cols)) (.inr (by rw [hdiv, ← hend]))]
      exact hstep
    · have hrow := div_succ_of_inner hcols ht hedge
      rw [beq_eq_false_iff_ne.mpr hedge, if_neg Bool.false_ne_true, if_neg Bool.false_ne_true]
        at hstep
      rw [beq_eq_false_iff_ne.mpr hedge, finishedText_congr hrow (Nat.le_add_right _ 2), hrow,
        rowText_succ hcols hs ht hle]
      exact hstep

/-- **The text of the selection.**  For every screen, every selection from `start` to `last` on it,
the buffer is filled with the text of the rows, and no byte is written behind the end of the
buffer; this is the text `set_selection` leaves. -/
theorem selected_text (d : Nat → Driver) (st : Selection) {cols start last : Nat}
    (hcols : 0 < cols) (hs : start % 2 = 0) (hl : last % 2 = 0) (hle : start ≤ last) :
    (fillBuffer (selPos st) (2 * cols) start (selLength start last)).buf =
        selectedText (selPos st) (2 * cols) start (last + 2) ∧
      (fillBuffer (selPos st) (2 * cols) start (selLength start last)).reach ≤
        selLength start last ∧
      (selectedText (selPos st) (2 * cols) start (last + 2)).length ≤ selLength start last ∧
      (¬(st.selStart = some start ∧ last = st.selEnd) →
        let st' := (finishSelection d st (2 * cols) start last true).1
        st'.selBuffer = some (selectedText (selPos st') (2 * cols) start (last + 2))) := by
  have hstop : start + 2 * selLength start last = last + 2 := by
    rw [selLength]
    omega
  have hfill : ∀ pos, (fillBuffer pos (2 * cols) start (selLength start last)).Holds
      (finishedText pos (2 * cols) start (last + 2))
      (rowText pos (2 * cols) start (last + 2) ((last + 2) / (2 * cols)))
      (selLength start last) := fun pos => by
    have h := holds_fillBuffer pos hcols hs (selLength start last)
    rwa [hstop] at h
  obtain ⟨hbuf, -, hlen, hreach⟩ := hfill (selPos st)
  refine ⟨hbuf, hreach, hlen, fun hmoves => ?_⟩
  rw [finishSelection, if_neg hmoves]
  exact congrArg some (hfill _).buf

/-- A blank row is one carriage return. -/
theorem selected_text_blank :
    (fillBuffer
      (selPos { bootSelection (fun _ => bootCon) (fun _ => 0x1000) with selCons := some 0 })
      (2 * 80) 0 (selLength 0 158)).buf = [13] := by
  have h := selected_text (fun _ => dummyCon)
    { bootSelection (fun _ => bootCon) (fun _ => 0x1000) with selCons := some 0 }
    (Nat.succ_pos 79) rfl rfl (Nat.zero_le 158)
  rw [h.1]
  decide +kernel

end LinuxConsole

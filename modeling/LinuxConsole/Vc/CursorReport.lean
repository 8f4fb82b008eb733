import LinuxConsole.Vc.Movement

/-!
# The cursor report

CPR and DECXCPR tell row and column of the cursor, and CUP takes them.  In origin mode CUP counts
rows from the top margin; the report adds the margin to a row that is counted from the first row of
the screen, where it should subtract it.

`cpr_cup_iff` says **exactly when a cursor that is sent where it is reported stays where it is**.
-/

namespace LinuxConsole

open Lib

variable {d : Driver} {N : Nat} {F : List Fault} {s : Con}

/-- A reply of CPR, or of DECXCPR when `ext`, with `row` and `col` in it. -/
def cprReply (s : Con) (ext : Bool) (row col : List Nat) : List Nat :=
  vteCsi s ++ (if ext then chars "?" else []) ++ row ++ chars ";" ++ col ++
    chars (if ext then ";1R" else "R")

/-- The row that is reported. -/
def cprRow (s : Con) : Nat := s.cur.y + if s.modes.decom then s.mar.top + 1 else 1

/-- **The report** is the reply with the digits of row and column. -/
theorem vteCpr_reply (ext : Bool) (hrow : cprRow s < 2 ^ 31) (hcol : s.cur.x + 1 < 2 ^ 31) :
    (vteCpr s ext).queue =
      s.queue ++ cprReply s ext (decimal (cprRow s)) (decimal (s.cur.x + 1 : Nat)) := by
  have hr : s32 (s.cur.y + (if s.modes.decom then s.mar.top + 1 else 1 : Nat)) = (cprRow s : Nat) := by
    rw [← Nat.cast_add]
    exact s32_of_lt (Int.natCast_nonneg _) (Int.ofNat_lt.mpr hrow)
  have hc : s32 (s.cur.x + 1) = (s.cur.x + 1 : Nat) := s32_of_lt (by omega) (by omega)
  rw [vteCpr, hr, hc]
  cases ext with
  | false =>
    rw [if_neg Bool.false_ne_true, cprReply, if_neg Bool.false_ne_true, if_neg Bool.false_ne_true]
    simp [Con.putsQueue]
  | true =>
    rw [if_pos rfl, cprReply, if_pos rfl, if_pos rfl]
    simp [Con.putsQueue]

/-! ### CUP -/

theorem standard_cup : Standard d 0x48 :=
  ⟨by decide, by decide, by decide, fun _ _ _ _ => rfl⟩

theorem fromZero_par (s : Con) (i j : Nat) :
    (s.fromZero i).ps.par j = if j = i then s.ps.par i - 1 else s.ps.par j := by
  rw [Con.fromZero]
  split
  case isTrue =>
    by_cases hj : j = i
    · rw [if_pos hj, hj]
      exact Function.update_self i _ s.ps.par
    · rw [if_neg hj]
      exact Function.update_of_ne hj _ s.ps.par
  case isFalse h =>
    split
    case isTrue hj =>
      rw [hj]
      omega
    case isFalse => rfl

/-- **The cursor after CUP** with digits for row and column. -/
theorem typed_cup {w : Writing} {row col : List Nat} (hrow : Digits row) (hcol : Digits col) :
    (w.typed d (csi (row ++ 0x3b :: col) 0x48)).cur.x = clampTo 0 w.con.geo.cols
      (s32 (number col % 2 ^ 32 - 1 : Nat)) ∧
    (w.typed d (csi (row ++ 0x3b :: col) 0x48)).cur.y = clampTo w.con.firstRow w.con.rowEnd
      (if w.con.modes.decom then s32 (w.con.mar.top + s32 (number row % 2 ^ 32 - 1 : Nat))
        else s32 (number row % 2 ^ 32 - 1 : Nat)) := by
  obtain ⟨u, dr, heq⟩ := typed_csi_two (d := d) hrow hcol standard_cup w
  have hcup (s : Con) : csiFinal d s 0x48 = gotoxay ((s.fromZero 0).fromZero 1)
      (s32 (((s.fromZero 0).fromZero 1).ps.par 1)) (s32 (((s.fromZero 0).fromZero 1).ps.par 0)) := rfl
  have hplace (s : Con) : ((s.fromZero 0).fromZero 1).place = s.place :=
    (place_fromZero _ 1).trans (place_fromZero s 0)
  have hpar0 (s : Con) : ((s.fromZero 0).fromZero 1).ps.par 0 = s.ps.par 0 - 1 := by
    rw [fromZero_par, if_neg (by decide), fromZero_par, if_pos rfl]
  have hpar1 (s : Con) : ((s.fromZero 0).fromZero 1).ps.par 1 = s.ps.par 1 - 1 := by
    rw [fromZero_par, if_pos rfl, fromZero_par, if_neg (by decide)]
  have hrowpar : (gotPars { w.con with dec := u, draws := dr } 1 (twoPars w.con row col)).ps.par 0 =
      number row % 2 ^ 32 := twoPars_zero w.con row col
  have hcolpar : (gotPars { w.con with dec := u, draws := dr } 1 (twoPars w.con row col)).ps.par 1 =
      number col % 2 ^ 32 := twoPars_one w.con row col
  have hstart : (gotPars { w.con with dec := u, draws := dr } 1 (twoPars w.con row col)).place =
      w.con.place := rfl
  rw [heq, hcup, hpar0, hpar1, hrowpar, hcolpar]
  generalize gotPars { w.con with dec := u, draws := dr } 1 (twoPars w.con row col) = s' at hstart
  have hall := (hplace s').trans hstart
  generalize (s'.fromZero 0).fromZero 1 = s at hall
  have hcols : s.geo.cols = w.con.geo.cols := congrArg Place.cols hall
  have hrows : s.geo.rows = w.con.geo.rows := congrArg Place.rows hall
  have hmar : s.mar = w.con.mar := congrArg Place.mar hall
  have hdecom : s.modes.decom = w.con.modes.decom := congrArg Place.decom hall
  constructor
  · show (clampX s _).toNat = _
    rw [clampX_eq, hcols]
  · show (clampY s (if s.modes.decom then s32 (s.mar.top + s32 _) else s32 _)).toNat = _
    rw [clampY_eq, Con.firstRow, Con.rowEnd, hmar, hdecom, hrows]
    rfl

/-! ### There and back -/

theorem clampTo_reported {top bottom y : Nat} (htop : top ≤ y) (hbottom : y < bottom)
    (hb : bottom < 2 ^ 29) :
    clampTo top bottom (s32 (top + s32 (y + top : Nat))) = y ↔ top = 0 ∨ y + 1 = bottom := by
  rw [s32_of_range (v := (y + top : Nat)) (by omega) (by omega), s32_of_range (by omega) (by omega),
    clampTo]
  omega

/-- **The report is not where CUP goes** in origin mode, but for two rows.  The cursor is sent to the
row and the column that its report names, wherever in a stream: it stays exactly if origin mode is
off, if the margin is the first row, or if the cursor is on the last row within the margins. -/
theorem cpr_cup_iff {w : Writing} (h : Sound d N F w.con) (hi : Inside w.con) (hN : N < 2 ^ 31)
    (hrows : w.con.geo.rows < 2 ^ 29) (ext : Bool) : ∃ row col, Digits row ∧ Digits col ∧
      (vteCpr w.con ext).queue = w.con.queue ++ cprReply w.con ext row col ∧
      ((w.typed d (csi (row ++ 0x3b :: col) 0x48)).cur.x = w.con.cur.x ∧
          (w.typed d (csi (row ++ 0x3b :: col) 0x48)).cur.y = w.con.cur.y ↔
        w.con.modes.decom = false ∨ w.con.mar.top = 0 ∨ w.con.cur.y + 1 = w.con.mar.bottom) := by
  have hx := h.bounds.x_lt
  have hcols := h.bounds.cols_le
  have hy := h.bounds.y_lt
  have hbottom := h.bounds.bottom_le
  have htop := h.bounds.top_lt
  have hrow : cprRow w.con < 2 ^ 31 := by
    rw [cprRow]
    split
    · omega
    · omega
  obtain ⟨hrdigits, hrnumber⟩ := digits_decimal (cprRow w.con)
  obtain ⟨hcdigits, hcnumber⟩ := digits_decimal (w.con.cur.x + 1)
  obtain ⟨hcupx, hcupy⟩ := typed_cup (d := d) (w := w) hrdigits hcdigits
  refine ⟨_, _, hrdigits, hcdigits, vteCpr_reply ext hrow (by omega), ?_⟩
  rw [hcupx, hcupy, hrnumber, hcnumber]
  have hcol : clampTo 0 w.con.geo.cols (s32 ((w.con.cur.x + 1) % 2 ^ 32 - 1 : Nat)) = w.con.cur.x := by
    rw [s32_of_range (by omega) (by omega), clampTo]
    omega
  rw [and_iff_right hcol]
  have hrowin := hi.row
  rw [cprRow, Con.firstRow, Con.rowEnd]
  cases hdecom : w.con.modes.decom with
  | false =>
    refine iff_of_true ?_ (.inl rfl)
    simp only [Bool.false_eq_true, if_false]
    rw [s32_of_range (by omega) (by omega), clampTo]
    omega
  | true =>
    obtain ⟨hlow, hhigh⟩ := hrowin hdecom
    have hback : (w.con.cur.y + (w.con.mar.top + 1)) % 2 ^ 32 - 1 = w.con.cur.y + w.con.mar.top := by
      omega
    simp only [if_true, hback, Bool.true_eq_false, false_or]
    exact clampTo_reported hlow hhigh (by omega)

theorem cpr_cup_home : ∃ row col, Digits row ∧ Digits col ∧
    (vteCpr bootCon true).queue = bootCon.queue ++ cprReply bootCon true row col ∧
    (((Writing.idle bootCon).typed dummyCon (csi (row ++ 0x3b :: col) 0x48)).cur.x = bootCon.cur.x ∧
        ((Writing.idle bootCon).typed dummyCon (csi (row ++ 0x3b :: col) 0x48)).cur.y =
          bootCon.cur.y ↔
      bootCon.modes.decom = false ∨ bootCon.mar.top = 0 ∨ bootCon.cur.y + 1 = bootCon.mar.bottom) :=
  cpr_cup_iff (w := .idle bootCon) sound_boot inside_boot (by decide) (by decide) true

/-- Margins from the second row on, and origin mode. -/
def fromSecondRow : Writing :=
  run (writeStep dummyCon) (.idle bootCon)
    ((csi [0x32] 0x72 ++ csi [0x3f, 0x36] 0x68).map .byte)

/-- **The report of the second row is the third**, and CUP takes it for the fourth. -/
theorem cpr_cup_moves :
    fromSecondRow.con.cur = ⟨0, 1, 0x1000 + 160, false⟩ ∧
    (vteCpr fromSecondRow.con false).queue =
      fromSecondRow.con.queue ++ cprReply fromSecondRow.con false [0x33] [0x31] ∧
    (fromSecondRow.typed dummyCon (csi [0x33, 0x3b, 0x31] 0x48)).cur.y = 3 := by
  decide +kernel

end LinuxConsole

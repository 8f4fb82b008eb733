import LinuxConsole.Vc.Sequence

/-!
# Moving the cursor

CUU, CUD, CUF, CUB, CNL and CPL, written with any digits anywhere in a stream.  `Move.target` is
where they should leave the cursor: as many cells in their own direction as the digits say, but not
beyond the limit.

The code adds the parameter to an unsigned coordinate and gives the sum to `gotoxy` as an `int`.
`cursor_moves_iff` says **exactly for which numbers the cursor gets there**: those that the parser
holds and whose sum is a position, and all of them where there is only one cell to go to.
-/

namespace LinuxConsole

open Lib

variable {d : Driver} {N : Nat} {F : List Fault} {s : Con}

/-! ### Where the cursor should go -/

/-- The rows that bound the cursor: the first, and the one behind the last. -/
def Con.firstRow (s : Con) : Nat := if s.modes.decom then s.mar.top else 0
def Con.rowEnd (s : Con) : Nat := if s.modes.decom then s.mar.bottom else s.geo.rows

/-- The six control functions. -/
inductive Move
  | up | down | right | left | nextLine | prevLine
  deriving DecidableEq

/-- The final byte. -/
def Move.final : Move → Nat
  | up => 0x41
  | down => 0x42
  | right => 0x43
  | left => 0x44
  | nextLine => 0x45
  | prevLine => 0x46

/-- **Column and row of the cursor after `n` steps**, or as many as there is room for; no step counts
as one. -/
def Move.target (m : Move) (s : Con) (n : Nat) : Nat × Nat :=
  match m with
  | up => (s.cur.x, s.cur.y - min (max n 1) (s.cur.y - s.firstRow))
  | down => (s.cur.x, s.cur.y + min (max n 1) (s.rowEnd - 1 - s.cur.y))
  | right => (s.cur.x + min (max n 1) (s.geo.cols - 1 - s.cur.x), s.cur.y)
  | left => (s.cur.x - min (max n 1) s.cur.x, s.cur.y)
  | nextLine => (0, s.cur.y + min (max n 1) (s.rowEnd - 1 - s.cur.y))
  | prevLine => (0, s.cur.y - min (max n 1) (s.cur.y - s.firstRow))

/-- The parameter that the control function gets for the number `n`. -/
def parameter (n : Nat) : Nat := max (n % 2 ^ 32) 1

/-- The sum of position and parameter is a position, and the number has not lost what it needs. -/
def FitsForward (lo hi pos n : Nat) : Prop :=
  hi = lo + 1 ∨ (pos + parameter n < 2 ^ 31 ∧ (n < 2 ^ 32 ∨ hi - 1 - pos ≤ parameter n))

/-- The same for their difference, which may be as low as `- 2 ^ 31`. -/
def FitsBackward (lo hi pos n : Nat) : Prop :=
  hi = lo + 1 ∨ (parameter n ≤ pos + 2 ^ 31 ∧ (n < 2 ^ 32 ∨ pos - lo ≤ parameter n))

/-- **When the code moves the cursor as it should.** -/
def Move.Fits (m : Move) (s : Con) (n : Nat) : Prop :=
  match m with
  | up | prevLine => FitsBackward s.firstRow s.rowEnd s.cur.y n
  | down | nextLine => FitsForward s.firstRow s.rowEnd s.cur.y n
  | right => FitsForward 0 s.geo.cols s.cur.x n
  | left => FitsBackward 0 s.geo.cols s.cur.x n

/-! ### One coordinate -/

/-- `gotoxy` on one coordinate. -/
def clampTo (lo hi : Nat) (v : Int) : Nat :=
  (if v < lo then (lo : Int) else if v ≥ hi then hi - 1 else v).toNat

theorem s32_eq (v : Int) : s32 v = v.bmod (2 ^ 32) := by
  rw [s32, BitVec.toInt_ofInt]

/-- An `int` read from a sum that is none. -/
theorem s32_wraps {v : Int} (h : 2 ^ 31 ≤ v) (h' : v < 2 ^ 32 + 2 ^ 31) : s32 v = v - 2 ^ 32 := by
  rw [s32_eq, Int.bmod_def]
  omega

theorem s32_wraps_neg {v : Int} (h : v < -2 ^ 31) (h' : -2 ^ 32 - 2 ^ 31 ≤ v) :
    s32 v = v + 2 ^ 32 := by
  rw [s32_eq, Int.bmod_def]
  omega

theorem s32_of_range {v : Int} (h : -2 ^ 31 ≤ v) (h' : v < 2 ^ 31) : s32 v = v := by
  rw [s32_eq, Int.bmod_def]
  omega

theorem parameter_cases (n : Nat) : 1 ≤ parameter n ∧ parameter n < 2 ^ 32 ∧
    parameter n ≤ max n 1 ∧ (n < 2 ^ 32 → parameter n = max n 1) := by
  rw [parameter]
  omega

theorem clampTo_forward {lo hi pos n : Nat} (hlo : lo ≤ pos) (hhi : pos < hi) (hb : hi ≤ 2 ^ 31) :
    clampTo lo hi (s32 (pos + parameter n)) = pos + min (max n 1) (hi - 1 - pos) ↔
      FitsForward lo hi pos n := by
  obtain ⟨h1, h2, h3, h4⟩ := parameter_cases n
  rw [FitsForward, clampTo]
  generalize parameter n = p at h1 h2 h3 h4
  by_cases hfits : pos + p < 2 ^ 31
  · rw [s32_of_range (by omega) (by omega)]
    by_cases hn : n < 2 ^ 32
    · have hp := h4 hn
      omega
    · omega
  · rw [s32_wraps (by omega) (by omega)]
    omega

theorem clampTo_backward {lo hi pos n : Nat} (hlo : lo ≤ pos) (hhi : pos < hi) (hb : hi ≤ 2 ^ 31) :
    clampTo lo hi (s32 (pos + -parameter n)) = pos - min (max n 1) (pos - lo) ↔
      FitsBackward lo hi pos n := by
  obtain ⟨h1, h2, h3, h4⟩ := parameter_cases n
  rw [FitsBackward, clampTo]
  generalize parameter n = p at h1 h2 h3 h4
  by_cases hfits : p ≤ pos + 2 ^ 31
  · rw [s32_of_range (by omega) (by omega)]
    by_cases hn : n < 2 ^ 32
    · have hp := h4 hn
      omega
    · omega
  · rw [s32_wraps_neg (by omega) (by omega)]
    omega

theorem clampTo_stay {lo hi pos : Nat} (hlo : lo ≤ pos) (hhi : pos < hi) (hb : hi ≤ 2 ^ 31) :
    clampTo lo hi (s32 (pos + 0)) = pos := by
  rw [s32_of_range (by omega) (by omega), clampTo]
  omega

theorem clampX_eq (s : Con) (v : Int) : (clampX s v).toNat = clampTo 0 s.geo.cols v := rfl

theorem clampY_eq (s : Con) (v : Int) : (clampY s v).toNat = clampTo s.firstRow s.rowEnd v := by
  rw [clampY, Con.firstRow, Con.rowEnd]
  cases s.modes.decom with
  | false => rfl
  | true => rfl

theorem Inside.limits (hi : Inside s) (h : Sound d N F s) :
    s.firstRow ≤ s.cur.y ∧ s.cur.y < s.rowEnd ∧ s.rowEnd ≤ 2 ^ 31 := by
  have hy := h.bounds.y_lt
  have hrows := h.bounds.rows_lt
  have hbottom := h.bounds.bottom_le
  have hrow := hi.row
  rw [Con.firstRow, Con.rowEnd]
  cases hdecom : s.modes.decom with
  | false => exact ⟨Nat.zero_le _, hy, Nat.le_of_lt hrows⟩
  | true =>
    obtain ⟨htop, hlast⟩ := hrow hdecom
    exact ⟨htop, hlast, le_trans hbottom (Nat.le_of_lt hrows)⟩

/-! ### The control functions -/

/-- CNL and CPL begin the line. -/
def Move.home : Move → Bool
  | nextLine | prevLine => true
  | _ => false

/-- The steps in the row. -/
def Move.dx (p : Nat) : Move → Int
  | right => p
  | left => -p
  | _ => 0

/-- The steps in the column. -/
def Move.dy (p : Nat) : Move → Int
  | down | nextLine => p
  | up | prevLine => -p
  | _ => 0

theorem csiFinal_move (m : Move) (s : Con) : csiFinal d s m.final =
    moveBy s.atLeastOne m.home (m.dx (s.atLeastOne.ps.par 0)) (m.dy (s.atLeastOne.ps.par 0)) := by
  cases m with
  | up => rfl
  | down => rfl
  | right => rfl
  | left => rfl
  | nextLine => rfl
  | prevLine => rfl

theorem standard_move (m : Move) : Standard d m.final := by
  cases m with
  | up => exact ⟨by decide, by decide, by decide, fun _ _ _ _ => rfl⟩
  | down => exact ⟨by decide, by decide, by decide, fun _ _ _ _ => rfl⟩
  | right => exact ⟨by decide, by decide, by decide, fun _ _ _ _ => rfl⟩
  | left => exact ⟨by decide, by decide, by decide, fun _ _ _ _ => rfl⟩
  | nextLine => exact ⟨by decide, by decide, by decide, fun _ _ _ _ => rfl⟩
  | prevLine => exact ⟨by decide, by decide, by decide, fun _ _ _ _ => rfl⟩

theorem atLeastOne_par (s : Con) : s.atLeastOne.ps.par 0 = max (s.ps.par 0) 1 := by
  rw [Con.atLeastOne]
  split
  case isTrue h =>
    rw [h]
    exact Function.update_self 0 1 s.ps.par
  case isFalse h => omega

/-- **The cursor after one of the six.** -/
theorem typed_move {w : Writing} {ds : List Nat} (hds : Digits ds) (m : Move) :
    (w.typed d (csi ds m.final)).cur.x =
      (if m.home then 0 else clampTo 0 w.con.geo.cols
        (s32 (w.con.cur.x + m.dx (parameter (number ds))))) ∧
    (w.typed d (csi ds m.final)).cur.y = clampTo w.con.firstRow w.con.rowEnd
      (s32 (w.con.cur.y + m.dy (parameter (number ds)))) := by
  obtain ⟨u, dr, heq⟩ := typed_csi (d := d) hds (standard_move m) w
  have hpar : (gotPars { w.con with dec := u, draws := dr } 0 (onePar w.con ds)).atLeastOne.ps.par 0 =
      parameter (number ds) := by
    have hzero : (gotPars { w.con with dec := u, draws := dr } 0 (onePar w.con ds)).ps.par 0 =
        number ds % 2 ^ 32 := onePar_zero w.con ds
    rw [atLeastOne_par, hzero, parameter]
  have hplace : (gotPars { w.con with dec := u, draws := dr } 0 (onePar w.con ds)).atLeastOne.place =
      w.con.place := place_atLeastOne _
  rw [heq, csiFinal_move, hpar]
  generalize (gotPars { w.con with dec := u, draws := dr } 0 (onePar w.con ds)).atLeastOne = s
    at hplace
  have hx : s.cur.x = w.con.cur.x := congrArg Place.x hplace
  have hy : s.cur.y = w.con.cur.y := congrArg Place.y hplace
  have hcols : s.geo.cols = w.con.geo.cols := congrArg Place.cols hplace
  have hrows : s.geo.rows = w.con.geo.rows := congrArg Place.rows hplace
  have hmar : s.mar = w.con.mar := congrArg Place.mar hplace
  have hdecom : s.modes.decom = w.con.modes.decom := congrArg Place.decom hplace
  constructor
  · show (clampX s _).toNat = _
    rw [clampX_eq, hx, hcols]
    cases m.home with
    | true =>
      have hpos : (0 : Int) ≤ w.con.geo.cols := Int.natCast_nonneg _
      rw [if_pos rfl, if_pos rfl, clampTo]
      omega
    | false => rfl
  · show (clampY s _).toNat = _
    rw [clampY_eq, hy, Con.firstRow, Con.rowEnd, hmar, hdecom, hrows]
    rfl

/-- **Cursor movement.**  Written with any digits, in any state of the parser and with any driver,
the six control functions move the cursor as far as they should exactly if the number fits. -/
theorem cursor_moves_iff {w : Writing} (h : Sound d N F w.con) (hi : Inside w.con) (hN : N < 2 ^ 31)
    {ds : List Nat} (hds : Digits ds) (m : Move) :
    ((w.typed d (csi ds m.final)).cur.x = (m.target w.con (number ds)).1 ∧
        (w.typed d (csi ds m.final)).cur.y = (m.target w.con (number ds)).2) ↔
      m.Fits w.con (number ds) := by
  obtain ⟨hlow, hhigh, hend⟩ := hi.limits h
  have hx := h.bounds.x_lt
  have hcols : w.con.geo.cols ≤ 2 ^ 31 := le_trans h.bounds.cols_le (Nat.le_of_lt hN)
  obtain ⟨hcol, hrow⟩ := typed_move (d := d) (w := w) hds m
  have hstayX := clampTo_stay (Nat.zero_le w.con.cur.x) hx hcols
  have hstayY := clampTo_stay hlow hhigh hend
  rw [hcol, hrow]
  cases m with
  | up => exact (and_iff_right hstayX).trans (clampTo_backward hlow hhigh hend)
  | down => exact (and_iff_right hstayX).trans (clampTo_forward hlow hhigh hend)
  | right => exact (and_iff_left hstayY).trans (clampTo_forward (Nat.zero_le _) hx hcols)
  | left => exact (and_iff_left hstayY).trans (clampTo_backward (Nat.zero_le _) hx hcols)
  | nextLine => exact (and_iff_right rfl).trans (clampTo_forward hlow hhigh hend)
  | prevLine => exact (and_iff_right rfl).trans (clampTo_backward hlow hhigh hend)

theorem inside_boot : Inside bootCon :=
  inside_vcInit (show 0 < 25 by decide) true

/-- Three lines down from home. -/
theorem cursor_moves_three :
    ((Writing.idle bootCon).typed dummyCon (csi [0x33] 0x42)).cur.x = 0 ∧
      ((Writing.idle bootCon).typed dummyCon (csi [0x33] 0x42)).cur.y = 3 :=
  (cursor_moves_iff (w := .idle bootCon) sound_boot inside_boot (by decide)
    (show Digits [0x33] by decide) .down).mpr (.inr (by decide))

/-- A stream that has gone to the second row of the screen. -/
def secondRow : Writing := run (writeStep dummyCon) (.idle bootCon) ((csi [] 0x42).map .byte)

/-- The digits of `2 ^ 32 - 1`. -/
def allOnes : List Nat := [0x34, 0x32, 0x39, 0x34, 0x39, 0x36, 0x37, 0x32, 0x39, 0x35]

/-- **Down by `2 ^ 32 - 1` lines** is up by one. -/
theorem cursor_goes_back : secondRow.con.cur.y = 1 ∧ Digits allOnes ∧ number allOnes = 4294967295 ∧
    (secondRow.typed dummyCon (csi allOnes Move.down.final)).cur.y = 0 ∧
    (Move.down.target secondRow.con (number allOnes)).2 = 24 ∧
    ¬((secondRow.typed dummyCon (csi allOnes Move.down.final)).cur.x =
        (Move.down.target secondRow.con (number allOnes)).1 ∧
      (secondRow.typed dummyCon (csi allOnes Move.down.final)).cur.y =
        (Move.down.target secondRow.con (number allOnes)).2) := by
  have hrow : (secondRow.typed dummyCon (csi allOnes Move.down.final)).cur.y = 0 := by
    decide +kernel
  have htarget : (Move.down.target secondRow.con (number allOnes)).2 = 24 := by decide +kernel
  refine ⟨by decide +kernel, by decide, by decide, hrow, htarget, fun h => ?_⟩
  rw [hrow, htarget] at h
  exact absurd h.2 (by decide)

end LinuxConsole

import LinuxConsole.Vc.Cells

/-!
# The displayed cells

A display driver that keeps a grid of displayed cells: `Grid.draw` is what a call of one of its
hooks makes of the grid.  `do_update_region` calls `con_putcs` for runs of cells of one attribute,
`updateRuns`, and **the runs put every cell in its place**, `putRuns_updateRuns`.

`Shows g s` says that the grid shows the screen of the console.
-/

namespace LinuxConsole

variable {d : Driver} {N : Nat} {F : List Fault} {s : Con}

/-! ### The hooks -/

/-- The displayed cells, by row and column. -/
abbrev Grid := Nat → Nat → Cell

/-- `con_putcs`. -/
def Grid.putcs (g : Grid) (chars : List Cell) (y x : Nat) : Grid := fun i j =>
  if i = y ∧ x ≤ j ∧ j < x + chars.length then chars.getD (j - x) 0 else g i j

/-- `con_clear`. -/
def Grid.clear (g : Grid) (sy sx height width : Nat) (erase : Cell) : Grid := fun i j =>
  if (sy ≤ i ∧ i < sy + height) ∧ sx ≤ j ∧ j < sx + width then erase else g i j

/-- `con_bmove`. -/
def Grid.bmove (g : Grid) (sy sx dy dx height width : Nat) : Grid := fun i j =>
  if (dy ≤ i ∧ i < dy + height) ∧ dx ≤ j ∧ j < dx + width then g (i - dy + sy) (j - dx + sx)
  else g i j

/-- `con_scroll_region`, which moves the rows and blanks those it leaves. -/
def Grid.scrollRegion (g : Grid) (t b : Nat) (dir : ScrollDir) (n : Nat) (erase : Cell) : Grid :=
  fun i j =>
    if t ≤ i ∧ i < b then
      match dir with
      | .up => if i + n < b then g (i + n) j else erase
      | .down => if t + n ≤ i then g (i - n) j else erase
    else g i j

/-- A call of `con_putcs` by `do_update_region`. -/
structure PutRun where
  chars : List Cell
  y : Nat
  x : Nat

/-- The call for a run that is not empty. -/
def putRun (run : List Cell) (y x : Nat) : List PutRun := if run.isEmpty then [] else [⟨run, y, x⟩]

/-- The loop of `do_update_region`: a run ends with the row, or where the attribute changes.  `run`
is the run so far, from column `x` of row `y`. -/
def updateRuns (cols : Nat) : List Cell → Nat → Nat → List Cell → List PutRun
  | run, y, x, [] => putRun run y x
  | run, y, x, c :: cs =>
    if x + run.length < cols then
      if run.headD c &&& 0xff00#16 = c &&& 0xff00#16 then updateRuns cols (run ++ [c]) y x cs
      else putRun run y x ++ updateRuns cols [c] y (x + run.length) cs
    else putRun run y x ++ updateRuns cols [c] (y + 1) 0 cs

def Grid.putRuns (g : Grid) (runs : List PutRun) : Grid :=
  runs.foldl (fun g r => g.putcs r.chars r.y r.x) g

/-- A call of a hook.  The hardware cursor and the palette are not cells. -/
def Grid.draw (geo : Geom) (g : Grid) : Draw → Grid
  | .putc ch y x => g.putcs [ch] y x
  | .putcs chars y x => g.putcs chars y x
  | .clear sy sx height width erase => g.clear sy sx height width erase
  | .scrollRegion t b dir n erase => g.scrollRegion t b dir n erase
  | .bmove sy sx dy dx height width => g.bmove sy sx dy dx height width
  | .updateRegion start chars =>
    let offset := (start - geo.origin) / 2
    g.putRuns (updateRuns geo.cols [] (offset / geo.cols) (offset % geo.cols) chars)
  | .cursorErase => g
  | .cursorDraw => g
  | .setPalette => g

/-- The calls one after the other. -/
def Grid.replay (geo : Geom) (g : Grid) (ds : List Draw) : Grid := ds.foldl (Grid.draw geo) g

theorem replay_append (geo : Geom) (g : Grid) (ds ds' : List Draw) :
    g.replay geo (ds ++ ds') = (g.replay geo ds).replay geo ds' := List.foldl_append

/-! ### Runs -/

theorem putRuns_putRun (g : Grid) (run : List Cell) (y x : Nat) (runs : List PutRun) :
    g.putRuns (putRun run y x ++ runs) = (g.putcs run y x).putRuns runs := by
  rw [putRun]
  split
  · next h =>
    rw [List.isEmpty_iff] at h
    have hnone : g.putcs run y x = g := by
      funext i j
      rw [Grid.putcs, if_neg]
      rw [h, List.length_nil]
      omega
    rw [hnone]
    rfl
  · rfl

/-- A run and the cells behind it. -/
theorem putcs_then {g g' : Grid} {cols y x i j : Nat} {run cs : List Cell} (hj : j < cols)
    (hrun : x + run.length ≤ cols)
    (h : g' i j = if y * cols + x + run.length ≤ i * cols + j ∧
        i * cols + j < y * cols + x + run.length + cs.length
      then cs.getD (i * cols + j - (y * cols + x + run.length)) 0 else g.putcs run y x i j) :
    g' i j = if y * cols + x ≤ i * cols + j ∧ i * cols + j < y * cols + x + (run ++ cs).length
      then (run ++ cs).getD (i * cols + j - (y * cols + x)) 0 else g i j := by
  have hrow := linear_row (i := i) (y := y) hj hrun
  rw [h, List.length_append]
  by_cases hin : y * cols + x ≤ i * cols + j ∧ i * cols + j < y * cols + x + run.length
  · obtain ⟨rfl, hx, hlt⟩ := hrow.mp hin
    have hindex : i * cols + j - (i * cols + x) = j - x := by omega
    rw [if_neg (by omega), if_pos (by omega), Grid.putcs, if_pos ⟨rfl, hx, hlt⟩, hindex,
      List.getD_append _ _ _ _ (by omega)]
  · rw [Grid.putcs, if_neg (fun hp => hin (hrow.mpr hp))]
    by_cases hout : y * cols + x + run.length ≤ i * cols + j ∧
        i * cols + j < y * cols + x + run.length + cs.length
    · have hindex : i * cols + j - (y * cols + x + run.length) =
          i * cols + j - (y * cols + x) - run.length := by omega
      rw [if_pos hout, if_pos (by omega), hindex, List.getD_append_right _ _ _ _ (by omega)]
    · rw [if_neg hout, if_neg (by omega)]

/-- **The runs put every cell in its place**, row by row. -/
theorem putRuns_updateRuns (cols : Nat) (cs : List Cell) :
    ∀ (run : List Cell) (y x : Nat) (g : Grid) (i j : Nat), j < cols → x + run.length ≤ cols →
      g.putRuns (updateRuns cols run y x cs) i j =
        if y * cols + x ≤ i * cols + j ∧ i * cols + j < y * cols + x + (run ++ cs).length
        then (run ++ cs).getD (i * cols + j - (y * cols + x)) 0 else g i j := by
  induction cs with
  | nil =>
    intro run y x g i j hj hrun
    refine putcs_then hj hrun ?_
    have hlast := putRuns_putRun g run y x []
    rw [List.append_nil] at hlast
    rw [updateRuns, hlast, if_neg (by rw [List.length_nil]; omega)]
    rfl
  | cons c cs ih =>
    intro run y x g i j hj hrun
    rw [updateRuns]
    split
    · next hroom =>
      split
      · have hnext := ih (run ++ [c]) y x g i j hj (by rw [List.length_append]; exact hroom)
        rw [List.append_assoc] at hnext
        exact hnext
      · rw [putRuns_putRun]
        refine putcs_then hj hrun ?_
        have hnext := ih [c] y (x + run.length) (g.putcs run y x) i j hj hroom
        rw [← Nat.add_assoc] at hnext
        exact hnext
    · next hfull =>
      rw [putRuns_putRun]
      refine putcs_then hj hrun ?_
      have hnext := ih [c] (y + 1) 0 (g.putcs run y x) i j hj
        (by rw [List.length_singleton]; omega)
      have hrow : (y + 1) * cols + 0 = y * cols + x + run.length := by
        rw [Nat.add_one_mul]
        omega
      rw [hrow] at hnext
      exact hnext

/-! ### The screen of a console -/

/-- **The grid shows the screen** of the console. -/
def Shows (g : Grid) (s : Con) : Prop :=
  ∀ y x, y < s.geo.rows → x < s.geo.cols → g y x = s.cellAt y x

end LinuxConsole

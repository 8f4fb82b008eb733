import LinuxConsole.Vc.Message
import Mathlib.Tactic.Ring

/-!
# The text in a new buffer

`copyRows` copies the rows of the old screen that fit into the new buffer, and blanks what is to the
right of them; `copyScreen` drops the rows at the top that do not fit, and blanks what is below.
`copyScreen_spec` says, for buffers apart from each other, what **every cell of the new buffer** is,
that nothing else is written, and that no access is outside the new buffer.

`refit` is a console that `vc_resize` has given a new buffer, before it is displayed: `refit_spec`.
`updateScreen_shown` says what displaying a console adds to this, for a driver that shows the buffer
in its window.
-/

namespace LinuxConsole

variable {d : Driver} {s : Con}

/-! ### The copy -/

theorem checkBuffer_of_le {lo hi a n : Nat} (hlo : lo ≤ a) (hhi : a + 2 * n ≤ hi) :
    s.checkBuffer lo hi a n = s := by
  have hin : (n == 0 || (decide (lo ≤ a) && decide (a + 2 * n ≤ hi))) = true := by
    rw [decide_eq_true hlo, decide_eq_true hhi, Bool.and_self, Bool.or_true]
  rw [Con.checkBuffer, Con.check, hin]
  rfl

/-- A row of `oc` cells copied into one of `nc` cells. -/
def copyScreenRow (oc nc ol nl : Nat) (erase : Cell) (mem : Nat → Cell) : Nat → Cell := fun a =>
  if nl ≤ a ∧ a < nl + 2 * nc ∧ (a - nl) % 2 = 0 then
    if a < nl + 2 * oc then mem (ol + (a - nl)) else erase
  else mem a

theorem copyRows_succ {lo hi oc nc ol nl : Nat} (hlt : ol < s.geo.scrEnd) (hlo : lo ≤ nl)
    (hhi : nl + 2 * nc ≤ hi) (fuel : Nat) :
    copyRows lo hi (2 * oc) (2 * nc) (fuel + 1) ol nl s =
      copyRows lo hi (2 * oc) (2 * nc) fuel (ol + 2 * oc) (nl + 2 * nc)
        { s with mem := copyScreenRow oc nc ol nl s.rend.videoEraseChar s.mem } := by
  have hhalf : min (2 * oc) (2 * nc) / 2 = min oc nc := by omega
  have hrow : min (2 * oc) (2 * nc) = 2 * min oc nc := by omega
  rw [copyRows, if_pos hlt]
  dsimp only
  rw [hhalf, Con.scrMemcpyw, checkBuffer_of_le hlo (by omega)]
  split
  · next hmore =>
    have hrest : (2 * nc - min (2 * oc) (2 * nc)) / 2 = nc - oc := by omega
    rw [hrest, hrow, Con.fillBuffer, checkBuffer_of_le (by omega) (by omega)]
    refine congrArg (copyRows _ _ _ _ fuel _ _) (congrArg (fun mem => { s with mem := mem }) ?_)
    funext a
    rw [copyScreenRow]
    split
    case isTrue hblank => rw [if_pos (by omega), if_neg (by omega)]
    case isFalse hblank =>
      dsimp only
      by_cases hin : nl ≤ a ∧ a < nl + 2 * nc ∧ (a - nl) % 2 = 0
      · rw [if_pos hin, if_pos (by omega), if_pos (by omega)]
      · rw [if_neg hin, if_neg (by omega)]
  · next hmore =>
    refine congrArg (copyRows _ _ _ _ fuel _ _) (congrArg (fun mem => { s with mem := mem }) ?_)
    funext a
    have hle : min oc nc = nc := by omega
    rw [copyScreenRow, hle]
    by_cases hin : nl ≤ a ∧ a < nl + 2 * nc ∧ (a - nl) % 2 = 0
    · rw [if_pos hin, if_pos hin, if_pos (by omega)]
    · rw [if_neg hin, if_neg hin]

theorem copyScreenRow_cell {oc nc ol nl : Nat} {erase : Cell} {mem : Nat → Cell} {c : Nat}
    (hc : c < nc) : copyScreenRow oc nc ol nl erase mem (nl + 2 * c) =
      if c < oc then mem (ol + 2 * c) else erase := by
  have hoffset : nl + 2 * c - nl = 2 * c := by omega
  rw [copyScreenRow, hoffset, if_pos (by omega)]
  exact ite_congr (propext (by omega)) (fun _ => rfl) fun _ => rfl

theorem copyScreenRow_other {oc nc ol nl : Nat} {erase : Cell} {mem : Nat → Cell} {a : Nat}
    (ha : ∀ c < nc, a ≠ nl + 2 * c) : copyScreenRow oc nc ol nl erase mem a = mem a := by
  refine if_neg fun hin => ha ((a - nl) / 2) ?_ ?_
  · omega
  · omega

/-- **The rows of the new buffer.**  `n` rows are left in the old one, and there is room for them in
the new one, which is somewhere else. -/
theorem copyRows_spec (lo hi nc : Nat) {oc : Nat} (hoc : 0 < oc) (n : Nat) :
    ∀ fuel ol nl s, n ≤ fuel →
    ol + n * (2 * oc) = s.geo.scrEnd → lo ≤ nl → nl + n * (2 * nc) ≤ hi →
    (nl + n * (2 * nc) ≤ ol ∨ s.geo.scrEnd ≤ nl) →
    ∃ mem, copyRows lo hi (2 * oc) (2 * nc) fuel ol nl s =
        ({ s with mem := mem }, nl + n * (2 * nc)) ∧
      (∀ r < n, ∀ c < nc, mem (nl + r * (2 * nc) + 2 * c) =
        if c < oc then s.mem (ol + r * (2 * oc) + 2 * c) else s.rend.videoEraseChar) ∧
      ∀ a, (∀ i < n * nc, a ≠ nl + 2 * i) → mem a = s.mem a := by
  induction n with
  | zero =>
    intro fuel ol nl s _ hend _ _ _
    refine ⟨s.mem, ?_, fun r hr => absurd hr (Nat.not_lt_zero r), fun _ _ => rfl⟩
    rw [Nat.zero_mul, Nat.add_zero] at hend ⊢
    cases fuel with
    | zero => rfl
    | succ fuel => exact if_neg (by omega)
  | succ n ih =>
    intro fuel ol nl s hfuel hend hlo hhi hapart
    obtain ⟨fuel, rfl⟩ : ∃ fuel', fuel = fuel' + 1 := Nat.exists_eq_add_one_of_ne_zero (by omega)
    have hrows : ∀ w, (n + 1) * w = n * w + w := fun w => Nat.succ_mul n w
    rw [hrows] at hend hhi hapart
    rw [copyRows_succ (by omega) hlo (by omega)]
    obtain ⟨mem, heq, hcells, hothers⟩ := ih fuel (ol + 2 * oc) (nl + 2 * nc)
      { s with mem := copyScreenRow oc nc ol nl s.rend.videoEraseChar s.mem } (by omega)
      (show _ = s.geo.scrEnd by omega) (by omega) (by omega)
      (show _ ∨ s.geo.scrEnd ≤ _ by omega)
    refine ⟨mem, ?_, fun r hr c hc => ?_, fun a ha => ?_⟩
    · rw [heq, hrows]
      exact Prod.ext rfl (by dsimp only; omega)
    · cases r with
      | zero =>
        have hcell := hothers (nl + 2 * c) fun i _ => by omega
        rw [Nat.zero_mul, Nat.zero_mul, Nat.add_zero, Nat.add_zero, hcell]
        exact copyScreenRow_cell hc
      | succ r =>
        have hcell := hcells r (by omega) c hc
        have hnewrow : (r + 1) * (2 * nc) = r * (2 * nc) + 2 * nc := Nat.succ_mul r _
        have holdrow : (r + 1) * (2 * oc) = r * (2 * oc) + 2 * oc := Nat.succ_mul r _
        have hnew : nl + 2 * nc + r * (2 * nc) + 2 * c = nl + (r + 1) * (2 * nc) + 2 * c := by omega
        have hold : ol + 2 * oc + r * (2 * oc) + 2 * c = ol + (r + 1) * (2 * oc) + 2 * c := by omega
        have hfits : (r + 1) * (2 * oc) ≤ n * (2 * oc) := Nat.mul_le_mul_right _ (by omega)
        rw [hnew, hold] at hcell
        rw [hcell]
        refine ite_congr rfl (fun hin => ?_) fun _ => rfl
        refine copyScreenRow_other fun i hi => ?_
        rw [← hold]
        omega
    · have hmul : (n + 1) * nc = n * nc + nc := Nat.succ_mul n nc
      rw [hothers a fun i hi => ?_]
      · exact copyScreenRow_other fun c hc => ha c (by omega)
      · have hne := ha (nc + i) (by omega)
        omega

theorem fillBuffer_spec {buf nl n : Nat} (hlo : buf ≤ nl) :
    (if nl + 2 * n > nl then s.fillBuffer buf (nl + 2 * n) nl s.rend.videoEraseChar n else s) =
      { s with mem := fun a => if nl ≤ a ∧ a < nl + 2 * n ∧ (a - nl) % 2 = 0
        then s.rend.videoEraseChar else s.mem a } := by
  split
  case isTrue => rw [Con.fillBuffer, checkBuffer_of_le hlo (Nat.le_refl _)]
  case isFalse hnone =>
    have hmem : (fun a => if nl ≤ a ∧ a < nl + 2 * n ∧ (a - nl) % 2 = 0
        then s.rend.videoEraseChar else s.mem a) = s.mem := by
      funext a
      exact if_neg (by omega)
    rw [hmem]

/-- **The new buffer.**  The cell in row `r` and column `c` is the one `oldRows - rows` rows further
down, if there is one, and blank otherwise. -/
theorem copyScreen_spec {oldRows oldCols buf : Nat} (hcols : 0 < oldCols)
    (hrow : s.geo.sizeRow = 2 * s.geo.cols)
    (hsize : s.geo.screenbufSize = s.geo.rows * (2 * s.geo.cols))
    (hend : s.geo.scrEnd = s.geo.origin + oldRows * (2 * oldCols))
    (hapart : buf + s.geo.screenbufSize ≤ s.geo.origin ∨ s.geo.scrEnd ≤ buf) :
    ∃ mem, copyScreen s oldRows (2 * oldCols) buf = { s with mem := mem } ∧
      (∀ r < s.geo.rows, ∀ c < s.geo.cols, mem (buf + r * (2 * s.geo.cols) + 2 * c) =
        if r + (oldRows - s.geo.rows) < oldRows ∧ c < oldCols then
          s.mem (s.geo.origin + (r + (oldRows - s.geo.rows)) * (2 * oldCols) + 2 * c)
        else s.rend.videoEraseChar) ∧
      ∀ a, (∀ i < s.geo.rows * s.geo.cols, a ≠ buf + 2 * i) → mem a = s.mem a := by
  have hskip : (if s.geo.rows < oldRows then (oldRows - s.geo.rows) * (2 * oldCols) else 0) =
      (oldRows - s.geo.rows) * (2 * oldCols) := by
    split
    · rfl
    · rw [Nat.sub_eq_zero_of_le (by omega), Nat.zero_mul]
  have hsplit : (oldRows - s.geo.rows) * (2 * oldCols) + min oldRows s.geo.rows * (2 * oldCols) =
      oldRows * (2 * oldCols) := by
    rw [← Nat.add_mul, show oldRows - s.geo.rows + min oldRows s.geo.rows = oldRows by omega]
  have hfuel : min oldRows s.geo.rows ≤ min oldRows s.geo.rows * (2 * oldCols) :=
    Nat.le_mul_of_pos_right _ (by omega)
  generalize hn : min oldRows s.geo.rows = n at hsplit hfuel
  -- the rows that are copied and the rows that are blank
  have hblank : s.geo.rows * (2 * s.geo.cols) =
      n * (2 * s.geo.cols) + 2 * ((s.geo.rows - n) * s.geo.cols) := by
    rw [Nat.mul_left_comm 2, ← Nat.add_mul, show n + (s.geo.rows - n) = s.geo.rows by omega]
  have hpage : s.geo.rows * s.geo.cols = n * s.geo.cols + (s.geo.rows - n) * s.geo.cols := by
    rw [← Nat.add_mul, show n + (s.geo.rows - n) = s.geo.rows by omega]
  have hhalf : n * (2 * s.geo.cols) = 2 * (n * s.geo.cols) := Nat.mul_left_comm n 2 _
  obtain ⟨mem, heq, hcells, hothers⟩ := copyRows_spec buf (buf + s.geo.screenbufSize)
    s.geo.cols hcols n
    (s.geo.scrEnd - (s.geo.origin + (oldRows - s.geo.rows) * (2 * oldCols)))
    (s.geo.origin + (oldRows - s.geo.rows) * (2 * oldCols)) buf s (by omega) (by omega)
    (Nat.le_refl _) (by omega) (by omega)
  rw [copyScreen]
  dsimp only
  rw [hskip, hrow, heq]
  dsimp only
  have hleft : (buf + s.geo.screenbufSize - (buf + n * (2 * s.geo.cols))) / 2 =
      (s.geo.rows - n) * s.geo.cols := by omega
  have hfinish : buf + s.geo.screenbufSize =
      buf + n * (2 * s.geo.cols) + 2 * ((s.geo.rows - n) * s.geo.cols) := by omega
  rw [hleft, hfinish]
  refine ⟨_, fillBuffer_spec (s := { s with mem := mem }) (Nat.le_add_right _ _),
    fun r hr c hc => ?_, fun a ha => ?_⟩
  · dsimp only
    have hrow' : r * (2 * s.geo.cols) = 2 * (r * s.geo.cols) := Nat.mul_left_comm r 2 _
    by_cases hkept : r < n
    · have hbound : (r + 1) * s.geo.cols ≤ n * s.geo.cols := Nat.mul_le_mul_right _ hkept
      rw [Nat.succ_mul] at hbound
      have haddr : s.geo.origin + (oldRows - s.geo.rows) * (2 * oldCols) + r * (2 * oldCols) =
          s.geo.origin + (r + (oldRows - s.geo.rows)) * (2 * oldCols) := by ring
      rw [if_neg (by omega), hcells r hkept c hc, haddr]
      exact ite_congr (propext (by omega)) (fun _ => rfl) fun _ => rfl
    · have hlow : n * s.geo.cols ≤ r * s.geo.cols := Nat.mul_le_mul_right _ (by omega)
      have hhigh : (r + 1) * s.geo.cols ≤ s.geo.rows * s.geo.cols := Nat.mul_le_mul_right _ hr
      rw [Nat.succ_mul] at hhigh
      rw [if_pos (by omega), if_neg (by omega)]
  · dsimp only
    rw [if_neg, hothers a fun i hi => ha i (by omega)]
    intro hin
    exact ha (n * s.geo.cols + (a - (buf + n * (2 * s.geo.cols))) / 2) (by omega) (by omega)

/-! ### A console in its new buffer -/

/-- `vc_resize` from the new buffer on, up to where it redraws the screen. -/
def refit (d : Driver) (s : Con) (cols rows buf : Nat) : Con :=
  let oldRows := s.geo.rows
  let oldRow := s.geo.sizeRow
  let s := copyScreen (updateAttr d (setSize s cols rows)) oldRows oldRow buf
  let s := setOrigin d { s with geo.screenbuf := buf, vt.kmalloced := true }
  let s := { s with mar := ⟨0, s.geo.rows⟩ }
  vteDecsc (gotoxy s s.cur.x s.cur.y)

/-- The cell that belongs into row `r` and column `c` of a screen of `rows` rows: the one of the
console `s`, less the rows at the top that there is no room for, and a blank one where `s` has
none. -/
def movedCell (s : Con) (rows : Nat) (erase : Cell) (r c : Nat) : Cell :=
  if r + (s.geo.rows - rows) < s.geo.rows ∧ c < s.geo.cols then
    s.mem (s.geo.origin + (r + (s.geo.rows - rows)) * s.geo.sizeRow + 2 * c)
  else erase

/-- The console `t` is `s` with the buffer at `buf`, for `cols` columns and `rows` rows. -/
structure Refitted (d : Driver) (s : Con) (cols rows buf : Nat) (t : Con) : Prop where
  geo : t.geo = ⟨cols, rows, 2 * cols, t.geo.origin, t.geo.origin + 2 * cols * rows, buf,
    2 * cols * rows⟩
  origin : ∃ u, u.vt.visible = s.vt.visible ∧ u.modes = s.modes ∧ u.geo.screenbuf = buf ∧
    u.geo.screenbufSize = 2 * cols * rows ∧ t.geo.origin = (setOrigin d u).geo.origin
  hidden : s.vt.visible = false → t.geo.origin = buf
  cells : ∀ r < rows, ∀ c < cols, t.mem (buf + r * (2 * cols) + 2 * c) =
    movedCell s rows t.rend.videoEraseChar r c
  others : ∀ a, (∀ i < rows * cols, a ≠ buf + 2 * i) → t.mem a = s.mem a
  mar : t.mar = ⟨0, rows⟩
  cursor : t.cur.x < cols ∧ t.cur.y < rows
  pos : t.cur.pos = t.geo.origin + t.cur.y * (2 * cols) + 2 * t.cur.x
  saved : t.saved.x = t.cur.x ∧ t.saved.y = t.cur.y
  rend : t.rend = (updateAttr d (setSize s cols rows)).rend
  modes : t.modes = s.modes
  vt : t.vt = { s.vt with kmalloced := true }
  faults : t.faults = s.faults

theorem clamp_inside (hc : 0 < s.geo.cols) (hr : 0 < s.geo.rows) (hmar : s.mar = ⟨0, s.geo.rows⟩)
    (x y : Int) : (clampX s x).toNat < s.geo.cols ∧ (clampY s y).toNat < s.geo.rows := by
  rw [clampX, clampY, hmar]
  dsimp only
  constructor
  · split_ifs <;> omega
  · split_ifs <;> omega

/-- **A console in its new buffer.** -/
theorem refit_spec {N cols rows buf : Nat} (hb : InBounds N s.geo s.cur s.mar)
    (hs : OnScreen s.geo s.cur) (hcols : 0 < cols) (hrows : 0 < rows)
    (hapart : buf + 2 * cols * rows ≤ s.geo.origin ∨ s.geo.scrEnd ≤ buf) :
    Refitted d s cols rows buf (refit d s cols rows buf) := by
  have hend : s.geo.scrEnd = s.geo.origin + s.geo.rows * (2 * s.geo.cols) := by
    rw [hs.scrEnd, hb.bufSize, hb.sizeRow]
  obtain ⟨mem, heq, hcells, hothers⟩ := @copyScreen_spec (updateAttr d (setSize s cols rows))
    s.geo.rows s.geo.cols buf hb.cols_pos rfl (Nat.mul_comm _ _) hend hapart
  rw [refit]
  dsimp only
  rw [hb.sizeRow, heq]
  have hinside := clamp_inside
    (s := { setOrigin d { updateAttr d (setSize s cols rows) with
      mem := mem, geo.screenbuf := buf, vt.kmalloced := true } with mar := ⟨0, rows⟩ })
    hcols hrows rfl
  exact
    { geo := rfl
      origin := ⟨{ updateAttr d (setSize s cols rows) with
        mem := mem
        geo.screenbuf := buf
        vt.kmalloced := true }, rfl, rfl, rfl, rfl, rfl⟩
      hidden := fun hv => by
        change (if s.vt.visible then _ else none).getD buf = buf
        rw [hv]
        rfl
      cells := fun r hr c hc => by
        rw [movedCell, hb.sizeRow]
        exact hcells r hr c hc
      others := fun a ha => hothers a ha
      mar := rfl
      cursor := hinside s.cur.x s.cur.y
      pos := rfl
      saved := ⟨rfl, rfl⟩
      rend := rfl
      modes := rfl
      vt := rfl
      faults := rfl }

/-! ### The redrawing -/

/-- `update_screen` between `set_origin` and `set_cursor`. -/
def redraw (d : Driver) (oldWasColor : Bool) (s : Con) : Con :=
  let (mem, canDoColor, update) := d.conSwitch s.seen
  let s := setPalette { s with mem := mem, rend.canDoColor := canDoColor }
  let s := if oldWasColor ≠ canDoColor then clearBufferAttributes (updateAttr d s) else s
  if update && s.modes.vcMode != .graphics then
    doUpdateRegion s s.geo.origin (s.geo.screenbufSize / 2) else s

theorem updateScreen_eq (d : Driver) (s : Con) : updateScreen d s =
    setCursor (redraw d s.rend.canDoColor (setOrigin d (hideCursor s))) := rfl

/-- **What `con_set_origin` and `con_switch` are for**: the window that the first one chooses shows
the buffer after the second one, and nothing else has changed. -/
structure ShowsWindow (d : Driver) (s : Con) : Prop where
  colour : (d.conSwitch (setOrigin d s).seen).2.1 = s.rend.canDoColor
  window : ∀ i < s.geo.screenbufSize / 2,
    (d.conSwitch (setOrigin d s).seen).1 ((setOrigin d s).geo.origin + 2 * i) =
      s.mem (s.geo.screenbuf + 2 * i)
  others : ∀ a, (∀ i < s.geo.screenbufSize / 2, a ≠ (setOrigin d s).geo.origin + 2 * i) →
    (d.conSwitch (setOrigin d s).seen).1 a = s.mem a

/-- The console `t` is `s` displayed. -/
structure Shown (d : Driver) (s t : Con) : Prop where
  origin : ∃ ds, t.geo.origin = (setOrigin d { s with draws := ds }).geo.origin
  geo : t.geo = { s.geo with origin := t.geo.origin
                             scrEnd := t.geo.origin + s.geo.screenbufSize }
  window : ∀ i < s.geo.screenbufSize / 2,
    t.logical (t.geo.origin + 2 * i) = s.mem (s.geo.screenbuf + 2 * i)
  others : ∀ a, (∀ i < s.geo.screenbufSize / 2, a ≠ t.geo.origin + 2 * i) → t.logical a = s.mem a
  cursor : t.cur.x = s.cur.x ∧ t.cur.y = s.cur.y
  mar : t.mar = s.mar
  saved : t.saved = s.saved
  rend : t.rend = s.rend
  faults : t.faults = s.faults

theorem setCursor_bare (hnone : s.vt.cursorOriginal = none) (hpos : s.inScreen s.cur.pos 1 = true) :
    ∃ mem o ds, setCursor s = { s with mem := mem, vt.cursorOriginal := o, draws := ds } := by
  have hadd : ∃ mem o ds,
      addSoftcursor s = { s with mem := mem, vt.cursorOriginal := o, draws := ds } := by
    have hcheck : ∀ o f, Con.check { s with vt.cursorOriginal := o } (s.inScreen s.cur.pos 1) f =
        { s with vt.cursorOriginal := o } := by
      intro o f
      rw [hpos]
      rfl
    rw [addSoftcursor]
    split
    · exact ⟨_, _, _, rfl⟩
    split
    · exact ⟨_, _, _, rfl⟩
    dsimp only [Con.scrWritew]
    have hin : ∀ o, Con.inScreen { s with vt.cursorOriginal := o } s.cur.pos 1 =
        s.inScreen s.cur.pos 1 := fun _ => rfl
    rw [hin, hcheck]
    split
    · exact ⟨_, _, _, rfl⟩
    · exact ⟨_, _, _, rfl⟩
  rw [setCursor]
  split
  · exact ⟨_, _, _, rfl⟩
  split
  · obtain ⟨mem, o, ds, h⟩ := hadd
    rw [h]
    dsimp only
    split
    · exact ⟨_, _, _, rfl⟩
    · exact ⟨_, _, _, rfl⟩
  · rw [hideCursor, hideSoftcursor]
    split
    · exact ⟨_, _, _, rfl⟩
    · next orig horig => exact absurd (hnone.symm.trans horig) (Option.some_ne_none orig).symm

/-- **A console is displayed**: the window shows its buffer. -/
theorem updateScreen_shown (hd : ∀ ds, ShowsWindow d { s with draws := ds })
    (hnone : s.vt.cursorOriginal = none) (hrow : s.geo.sizeRow = 2 * s.geo.cols)
    (hsize : s.geo.screenbufSize = 2 * s.geo.cols * s.geo.rows)
    (hx : s.cur.x < s.geo.cols) (hy : s.cur.y < s.geo.rows) :
    Shown d s (updateScreen d s) := by
  have hhide : hideCursor s = { s with draws := s.draws ++ [.cursorErase] } := by
    rw [hideCursor, hideSoftcursor]
    split
    · rfl
    · next orig horig => exact absurd (hnone.symm.trans horig) (Option.some_ne_none orig).symm
  rw [updateScreen_eq, hhide]
  obtain ⟨hcolour, hwindow, hothers⟩ := hd (s.draws ++ [.cursorErase])
  generalize hu : setOrigin d { s with draws := s.draws ++ [.cursorErase] } = u
    at hcolour hwindow hothers
  -- The console whose cells the driver has written.
  obtain ⟨ds, hredraw⟩ : ∃ ds, redraw d s.rend.canDoColor u =
      { u with mem := (d.conSwitch u.seen).1, draws := ds } := by
    have hsame : u.rend = s.rend := by
      rw [← hu]
      rfl
    have hcolours : { u.rend with canDoColor := (d.conSwitch u.seen).2.1 } = u.rend := by
      rw [hcolour, hsame]
    rw [redraw]
    dsimp only
    rw [hcolours, if_neg (not_not.mpr hcolour.symm), setPalette]
    split
    · split
      · exact ⟨_, rfl⟩
      · exact ⟨_, rfl⟩
    · split
      · exact ⟨_, rfl⟩
      · exact ⟨_, rfl⟩
  rw [hredraw]
  have hpos : Con.inScreen { u with mem := (d.conSwitch u.seen).1, draws := ds } u.cur.pos 1 =
      true := by
    have hrow' : s.cur.y * s.geo.sizeRow + s.geo.sizeRow ≤ s.geo.screenbufSize := by
      rw [hsize, hrow, ← Nat.succ_mul, Nat.mul_comm]
      exact Nat.mul_le_mul_left _ hy
    have hplace : u.cur.pos = u.geo.origin + s.geo.sizeRow * s.cur.y + 2 * s.cur.x := by
      rw [← hu]
      rfl
    have hend : u.geo.scrEnd = u.geo.origin + s.geo.screenbufSize := by
      rw [← hu]
      rfl
    have hlow : u.geo.origin ≤ u.cur.pos := by omega
    have hhigh : u.cur.pos + 2 * 1 ≤ u.geo.scrEnd := by
      rw [Nat.mul_comm] at hplace
      omega
    change ((1 : Nat) == 0 || (decide (u.geo.origin ≤ u.cur.pos) &&
      decide (u.cur.pos + 2 * 1 ≤ u.geo.scrEnd))) = true
    rw [decide_eq_true hlow, decide_eq_true hhigh]
    rfl
  obtain ⟨mem, o, ds', hcursor⟩ := setCursor_bare
    (s := { u with mem := (d.conSwitch u.seen).1, draws := ds })
    (by rw [← hu]; exact hnone) hpos
  have hlogical := (setCursor_agrees { u with mem := (d.conSwitch u.seen).1, draws := ds }).logical
  rw [logical_undrawn (s := { u with mem := (d.conSwitch u.seen).1, draws := ds })
    fun _ => by rw [← hu]; exact hnone] at hlogical
  have horigin : (setCursor { u with mem := (d.conSwitch u.seen).1, draws := ds }).geo.origin =
      u.geo.origin := by rw [hcursor]
  refine
    { origin := ⟨s.draws ++ [.cursorErase], by rw [horigin, ← hu]⟩
      geo := ?_
      window := fun i hi => ?_
      others := fun a ha => ?_
      cursor := ?_
      mar := ?_
      saved := ?_
      rend := ?_
      faults := ?_ }
  · rw [hcursor, ← hu]
    rfl
  · rw [hlogical, horigin]
    exact hwindow i hi
  · rw [hlogical]
    rw [horigin] at ha
    exact hothers a ha
  all_goals
    rw [hcursor, ← hu]
    first | rfl | exact ⟨rfl, rfl⟩

end LinuxConsole

import LinuxConsole.Vc.Geometry
import LinuxConsole.Vga.Card

/-!
# Scrolling by moving the origin

`vgacon_scroll_region` moves the origin of the screen through the video memory
where `scroll_region_up` and `scroll_region_down` move the text.  Both leave the
same rows: the text moved by `delta` bytes with blank cells behind or before it
(`upText` and `downText`).  **`hardware_scroll`** is the comparison, and it adds
that the cursor stays at its row and column and the screen in the video memory.
-/

namespace LinuxConsole.Vga

open Lib

/-! ### The text after a scroll -/

/-- The text moved up by `delta` bytes. -/
def upText (text : Nat → Cell) (size delta : Nat) (e : Cell) (i : Nat) : Cell :=
  if i + delta < size then text (i + delta) else e

/-- The text moved down by `delta` bytes. -/
def downText (text : Nat → Cell) (delta : Nat) (e : Cell) (i : Nat) : Cell :=
  if i < delta then e else text (i - delta)

variable {k : Card} {g : Globals} {s : Scroll} {delta : Nat}

/-- The bytes of the screen. -/
def Scroll.text (s : Scroll) (i : Nat) : Cell := s.mem (s.geo.origin + i)

/-! ### The hardware -/

/-- **The window that moved up shows the text moved up.** -/
theorem scrollUpTo_text (hdelta : delta ≤ s.geo.screenbufSize) {i : Nat}
    (hi : i < s.geo.screenbufSize) :
    (scrollUpTo k s delta).1 ((scrollUpTo k s delta).2 + i) =
      upText s.text s.geo.screenbufSize delta s.eraseChar i := by
  unfold scrollUpTo upText Scroll.text
  dsimp only
  by_cases hstay : i + delta < s.geo.screenbufSize
  · rw [if_pos hstay]
    split_ifs with hend
    · dsimp only
      rw [fillFrom_of_not (by omega), copyTo_at _ _ (by omega)]
      congr 1
      omega
    · dsimp only
      rw [fillFrom_of_not (by omega)]
      congr 1
      omega
  · rw [if_neg hstay]
    generalize (if s.geo.scrEnd + delta ≥ k.vramEnd then _ else _ : (Nat → Cell) × Nat) = r
    have hblank : r.2 + i = r.2 + s.geo.screenbufSize - delta +
        (i + delta - s.geo.screenbufSize) := by omega
    rw [hblank]
    exact fillFrom_at _ _ (by omega)

/-- **The window that moved down shows the text moved down.** -/
theorem scrollDownTo_text (hdelta : delta ≤ s.geo.screenbufSize) {i : Nat}
    (hi : i < s.geo.screenbufSize) :
    (scrollDownTo k s delta).1 ((scrollDownTo k s delta).2 + i) =
      downText s.text delta s.eraseChar i := by
  unfold scrollDownTo downText Scroll.text
  dsimp only
  by_cases hblank : i < delta
  · rw [if_pos hblank]
    exact fillFrom_at _ _ hblank
  · rw [if_neg hblank]
    split_ifs with hroom
    · dsimp only
      obtain ⟨j, rfl⟩ := Nat.exists_eq_add_of_le (Nat.le_of_not_lt hblank)
      rw [fillFrom_of_not (by omega), ← Nat.add_assoc, copyTo_at _ _ (by omega),
        Nat.add_sub_cancel_left]
    · dsimp only
      rw [fillFrom_of_not (by omega)]
      congr 1
      omega

theorem scrollUpTo_inside (delta : Nat) (hfit : s.geo.screenbufSize ≤ k.vramSize)
    (hbase : k.vramBase ≤ s.geo.origin)
    (hend : s.geo.scrEnd = s.geo.origin + s.geo.screenbufSize) :
    k.vramBase ≤ (scrollUpTo k s delta).2 ∧
      (scrollUpTo k s delta).2 + s.geo.screenbufSize ≤ k.vramEnd := by
  have hsize := k.base_le
  unfold Card.vramSize at hfit
  unfold scrollUpTo
  dsimp only
  split_ifs <;> exact ⟨by dsimp only; omega, by dsimp only; omega⟩

theorem scrollDownTo_base (hfit : s.geo.screenbufSize ≤ k.vramSize) :
    k.vramBase ≤ (scrollDownTo k s delta).2 := by
  have hsize := k.base_le
  unfold Card.vramSize at hfit
  unfold scrollDownTo
  dsimp only
  split_ifs <;> dsimp only <;> omega

theorem scrollDownTo_end (hin : s.geo.origin + s.geo.screenbufSize ≤ k.vramEnd) :
    (scrollDownTo k s delta).2 + s.geo.screenbufSize ≤ k.vramEnd := by
  unfold scrollDownTo
  dsimp only
  split_ifs <;> dsimp only <;> omega

theorem scrollTo_inside (delta : Nat) (dir : ScrollDir) (hfit : s.geo.screenbufSize ≤ k.vramSize)
    (hbase : k.vramBase ≤ s.geo.origin)
    (hend : s.geo.scrEnd = s.geo.origin + s.geo.screenbufSize) :
    k.vramBase ≤ (scrollTo k dir s delta).2 ∧
      (s.geo.scrEnd ≤ k.vramEnd →
        (scrollTo k dir s delta).2 + s.geo.screenbufSize ≤ k.vramEnd) := by
  cases dir with
  | up =>
    have hup := scrollUpTo_inside delta hfit hbase hend
    exact ⟨hup.1, fun _ => hup.2⟩
  | down =>
    refine ⟨scrollDownTo_base hfit, fun hin => ?_⟩
    rw [hend] at hin
    exact scrollDownTo_end hin

/-! ### The software -/

variable {c : Con} {N lines : Nat}

/-- What the driver is given of a console. -/
def conScroll (c : Con) : Scroll := ⟨c.mem, c.geo, c.cur.pos, c.rend.videoEraseChar⟩

@[simp] theorem conScroll_geo (c : Con) : (conScroll c).geo = c.geo := rfl

@[simp] theorem conScroll_pos (c : Con) : (conScroll c).pos = c.cur.pos := rfl

theorem scrollCount_small (hrows : c.geo.rows < 2 ^ 31) (hlines : lines < c.geo.rows) :
    scrollCount 0 c.geo.rows lines = lines := by
  have hu : u32 ((0 : Nat) + (lines : Int)) = lines := by
    unfold u32
    rw [BitVec.toNat_ofInt]
    omega
  unfold scrollCount
  rw [hu, if_neg (by omega)]

/-- The bytes of the rows that a scroll keeps and of those that it clears. -/
theorem rows_split (hb : InBounds N c.geo c.cur c.mar) (hlines : lines < c.geo.rows) :
    2 * ((c.geo.rows - 0 - lines) * c.geo.sizeRow / 2) =
        c.geo.screenbufSize - lines * c.geo.sizeRow ∧
      2 * (c.geo.sizeRow * lines / 2) = lines * c.geo.sizeRow ∧
      2 * ((c.geo.rows - 0 - lines) * c.geo.cols) =
        c.geo.screenbufSize - lines * c.geo.sizeRow ∧
      2 * (c.geo.cols * lines) = lines * c.geo.sizeRow ∧
      lines * c.geo.sizeRow ≤ c.geo.screenbufSize ∧ lines * c.geo.sizeRow % 2 = 0 := by
  rw [hb.bufSize, hb.sizeRow, Nat.sub_zero, ← Nat.sub_mul]
  have hkept : (c.geo.rows - lines) * (2 * c.geo.cols) =
      2 * ((c.geo.rows - lines) * c.geo.cols) := Nat.mul_left_comm _ _ _
  have hgone : lines * (2 * c.geo.cols) = 2 * (lines * c.geo.cols) := Nat.mul_left_comm _ _ _
  have hgone' : 2 * c.geo.cols * lines = 2 * (lines * c.geo.cols) := by
    rw [Nat.mul_assoc, Nat.mul_comm c.geo.cols]
  have hle : lines * (2 * c.geo.cols) ≤ c.geo.rows * (2 * c.geo.cols) :=
    Nat.mul_le_mul_right _ (Nat.le_of_lt hlines)
  rw [hkept, hgone']
  rw [hgone] at hle ⊢
  refine ⟨by omega, by omega, rfl, ?_, hle, by omega⟩
  rw [Nat.mul_comm c.geo.cols]

theorem scrollRegionUp_text (hb : InBounds N c.geo c.cur c.mar) (hlines : lines < c.geo.rows)
    {i : Nat} (hi : i < c.geo.screenbufSize) (heven : i % 2 = 0) :
    (scrollRegionUp dummyCon c 0 c.geo.rows lines).mem (c.geo.origin + i) =
      upText (conScroll c).text c.geo.screenbufSize (lines * c.geo.sizeRow)
        c.rend.videoEraseChar i := by
  obtain ⟨hkept, hgone, hkept', -, hle, hparity⟩ := rows_split hb hlines
  unfold scrollRegionUp upText Scroll.text conScroll
  dsimp only
  rw [scrollCount_small hb.rows_lt hlines]
  by_cases hzero : lines = 0
  · subst hzero
    rw [if_pos (by omega), Nat.zero_mul, Nat.add_zero, if_pos hi]
  rw [if_neg (by omega)]
  simp only [dummyCon, ite_self, Int.toNat_natCast, Con.scrMemsetw, Con.mapCells, Con.scrMemmovew,
    Con.check, Nat.mul_zero, Nat.add_zero, Nat.zero_add, hkept, hgone, hkept']
  rw [Nat.mul_comm c.geo.sizeRow lines]
  by_cases hstay : i + lines * c.geo.sizeRow < c.geo.screenbufSize
  · rw [if_pos hstay, if_neg (by omega), if_pos (by omega)]
    congr 1
    omega
  · rw [if_neg hstay, if_pos (by omega)]

theorem scrollRegionDown_text (hb : InBounds N c.geo c.cur c.mar) (hlines : lines < c.geo.rows)
    {i : Nat} (hi : i < c.geo.screenbufSize) (heven : i % 2 = 0) :
    (scrollRegionDown dummyCon c 0 c.geo.rows lines).mem (c.geo.origin + i) =
      downText (conScroll c).text (lines * c.geo.sizeRow) c.rend.videoEraseChar i := by
  obtain ⟨hkept, -, -, hgone, hle, hparity⟩ := rows_split hb hlines
  unfold scrollRegionDown downText Scroll.text conScroll
  dsimp only
  rw [scrollCount_small hb.rows_lt hlines]
  by_cases hzero : lines = 0
  · subst hzero
    rw [if_pos (by omega), Nat.zero_mul, if_neg (Nat.not_lt_zero _), Nat.sub_zero]
  rw [if_neg (by omega)]
  simp only [dummyCon, ite_self, Int.toNat_natCast, Con.scrMemsetw, Con.mapCells, Con.scrMemmovew,
    Con.check, Nat.mul_zero, Nat.add_zero, hkept, hgone]
  by_cases hblank : i < lines * c.geo.sizeRow
  · rw [if_pos hblank, if_pos (by omega)]
  · rw [if_neg hblank, if_neg (by omega), if_pos (by omega)]
    congr 1
    omega

/-! ### The comparison -/

/-- A scroll of the whole screen by the software, in the one direction or the
other. -/
def softScroll (c : Con) (dir : ScrollDir) (lines : Nat) : Con :=
  match dir with
  | .up => scrollRegionUp dummyCon c 0 c.geo.rows lines
  | .down => scrollRegionDown dummyCon c 0 c.geo.rows lines

theorem softScroll_up (c : Con) (lines : Nat) :
    softScroll c .up lines = scrollRegionUp dummyCon c 0 c.geo.rows lines := rfl

theorem softScroll_down (c : Con) (lines : Nat) :
    softScroll c .down lines = scrollRegionDown dummyCon c 0 c.geo.rows lines := rfl

/-- The hardware path is taken for the whole screen and less than half of it. -/
theorem vgaconScrollRegion_some {t b : Nat} {dir : ScrollDir} {r : Scrolled}
    (h : vgaconScrollRegion k g s t b dir lines = some r) :
    t = 0 ∧ b = s.geo.rows ∧ lines < s.geo.rows ∧
      r = ⟨(scrollTo k dir s (lines * s.geo.sizeRow)).1,
        (scrollTo k dir s (lines * s.geo.sizeRow)).2,
        (scrollTo k dir s (lines * s.geo.sizeRow)).2 + s.geo.screenbufSize,
        s.pos - s.geo.origin + (scrollTo k dir s (lines * s.geo.sizeRow)).2⟩ := by
  unfold vgaconScrollRegion at h
  split_ifs at h with hregion hlines
  simp only [not_or, not_not] at hregion
  simp only [not_or, not_le] at hlines
  exact ⟨hregion.1, hregion.2.1, by omega, (Option.some.inj h).symm⟩

theorem scrollTo_text (hb : InBounds N c.geo c.cur c.mar) (hlines : lines < c.geo.rows)
    (dir : ScrollDir) {i : Nat} (hi : i < c.geo.screenbufSize) (heven : i % 2 = 0) :
    (scrollTo k dir (conScroll c) (lines * c.geo.sizeRow)).1
        ((scrollTo k dir (conScroll c) (lines * c.geo.sizeRow)).2 + i) =
      (softScroll c dir lines).mem (c.geo.origin + i) := by
  have hle := (rows_split hb hlines).2.2.2.2.1
  cases dir with
  | up =>
    rw [softScroll_up, scrollRegionUp_text hb hlines hi heven]
    exact scrollUpTo_text hle hi
  | down =>
    rw [softScroll_down, scrollRegionDown_text hb hlines hi heven]
    exact scrollDownTo_text hle hi

theorem softScroll_cur (c : Con) (dir : ScrollDir) (lines : Nat) :
    (softScroll c dir lines).cur = c.cur ∧ (softScroll c dir lines).geo = c.geo := by
  unfold softScroll scrollRegionUp scrollRegionDown
  cases dir with
  | up =>
    simp only [dummyCon, ite_self, Con.scrMemsetw, Con.mapCells, Con.scrMemmovew, Con.check]
    split_ifs <;> simp only [and_self]
  | down =>
    simp only [dummyCon, ite_self, Con.scrMemsetw, Con.mapCells, Con.scrMemmovew, Con.check]
    split_ifs <;> simp only [and_self]

theorem cell_lt (hb : InBounds N c.geo c.cur c.mar) {x y : Nat} (hy : y < c.geo.rows)
    (hx : x < c.geo.cols) :
    y * c.geo.sizeRow + 2 * x < c.geo.screenbufSize ∧ (y * c.geo.sizeRow + 2 * x) % 2 = 0 := by
  have hrow : (y + 1) * c.geo.sizeRow ≤ c.geo.rows * c.geo.sizeRow := Nat.mul_le_mul_right _ hy
  rw [Nat.succ_mul] at hrow
  have heven : y * c.geo.sizeRow = 2 * (y * c.geo.cols) := by
    rw [hb.sizeRow, Nat.mul_left_comm]
  have hcols := hb.sizeRow
  rw [hb.bufSize]
  exact ⟨by omega, by omega⟩

/-- **Hardware scrolling refines software scrolling.**  Whenever the driver
scrolls a screen at an origin in the video memory, the rows, the cells that are
cleared and the place of the cursor are those of the software; the screen ends
where its origin says and stays in the video memory. -/
theorem hardware_scroll (k : Card) (g : Globals) (c : Con) (N : Nat)
    (hb : InBounds N c.geo c.cur c.mar) (ho : OnScreen c.geo c.cur)
    (hfit : c.geo.screenbufSize ≤ k.vramSize) (hbase : k.vramBase ≤ c.geo.origin)
    (t b : Nat) (dir : ScrollDir) (lines : Nat) (r : Scrolled)
    (hr : vgaconScrollRegion k g (conScroll c) t b dir lines = some r) :
    t = 0 ∧ b = c.geo.rows ∧
      (∀ y < c.geo.rows, ∀ x < c.geo.cols,
        r.mem (r.origin + (y * c.geo.sizeRow + 2 * x)) =
          (softScroll c dir lines).mem
            ((softScroll c dir lines).geo.origin + (y * c.geo.sizeRow + 2 * x))) ∧
      (softScroll c dir lines).cur = c.cur ∧
      r.pos = r.origin + c.cur.y * c.geo.sizeRow + 2 * c.cur.x ∧
      r.scrEnd = r.origin + c.geo.screenbufSize ∧ k.vramBase ≤ r.origin ∧
      (c.geo.scrEnd ≤ k.vramEnd → r.scrEnd ≤ k.vramEnd) := by
  obtain ⟨hcur, hgeo⟩ := softScroll_cur c dir lines
  have hscrEnd := ho.scrEnd
  have hpath := vgaconScrollRegion_some hr
  simp only [conScroll_geo, conScroll_pos] at hpath
  obtain ⟨ht, hrows, hlines, rfl⟩ := hpath
  have hinside := scrollTo_inside (s := conScroll c) (lines * c.geo.sizeRow) dir hfit hbase
    hscrEnd
  simp only [conScroll_geo] at hinside
  refine ⟨ht, hrows, fun y hy x hx => ?_, hcur, ?_, rfl, hinside.1, hinside.2⟩
  · obtain ⟨hi, heven⟩ := cell_lt hb hy hx
    rw [hgeo]
    exact scrollTo_text hb hlines dir hi heven
  · dsimp only
    rw [ho.pos, Nat.add_assoc c.geo.origin, Nat.add_sub_cancel_left, Nat.add_comm, Nat.add_assoc]

/-- A VGA card in colour text mode. -/
def colorCard : Card := ⟨0xb8000, 0xc0000, by decide, true, true⟩

/-- A card that is neither blanked nor in graphics. -/
def textGlobals : Globals := ⟨false, false, false⟩

/-- A console whose screen ends where the video memory ends. -/
def edgeCon : Con :=
  { bootCon with
    geo := ⟨80, 25, 160, 0xbf060, 0xc0000, 0x1000, 4000⟩
    cur := ⟨3, 24, 0xbf060 + 24 * 160 + 6, false⟩
    mar := ⟨0, 25⟩ }

/-- A line feed there starts again at the start of the video memory. -/
theorem hardware_scroll_edge :
    ∃ r, vgaconScrollRegion colorCard textGlobals (conScroll edgeCon) 0 25 .up 1 = some r ∧
      r.origin = 0xb8000 ∧ r.scrEnd ≤ 0xc0000 ∧
      ∀ y < 25, ∀ x < 80, r.mem (r.origin + (y * 160 + 2 * x)) =
        (softScroll edgeCon .up 1).mem
          ((softScroll edgeCon .up 1).geo.origin + (y * 160 + 2 * x)) := by
  have hbounds : InBounds 80 edgeCon.geo edgeCon.cur edgeCon.mar :=
    ⟨by decide, by decide, by decide, rfl, rfl, by decide, by decide, by decide, by decide⟩
  have h := hardware_scroll colorCard textGlobals edgeCon 80 hbounds ⟨rfl, rfl⟩ (by decide)
    (by decide) 0 25 .up 1 _ rfl
  exact ⟨_, rfl, rfl, h.2.2.2.2.2.2.2 (by decide), h.2.2.1⟩

end LinuxConsole.Vga

import LinuxConsole.Vga.Extent

/-!
# Consoles with a buffer of their own

A `Private` is a console whose screen stays where it is, in a memory of its own,
and which only its own writes change.  `Alike` says that a console of the display
shows what a private one shows: the same cells, the cursor at the same place and
the same blank cell.

A `Paint` done by the software keeps two consoles alike wherever they are
(`Alike.softPaint`), and so does a scroll of the whole screen that the driver
does in the video memory for the one and the software for the other
(`Alike.hardScroll`).
-/

namespace LinuxConsole.Vga

open Lib

/-- A console in a memory of its own. -/
structure Private where
  mem : Nat → Cell
  vc : Vc

/-- One `Paint`. -/
def Private.paint (p : Private) (a : Paint) : Private :=
  ⟨(softPaint p.mem p.vc a).1, (softPaint p.mem p.vc a).2⟩

/-- A write. -/
def Private.write (p : Private) (as : List Paint) : Private := as.foldl Private.paint p

/-- What the private console that goes with the console `i` does in a step. -/
def Private.step {ι : Type} [DecidableEq ι] (i : ι) (p : Private) : Op ι → Private
  | .write j as => if j = i then p.write as else p
  | _ => p

/-- The sizes belong together. -/
structure WellSized (geo : Geom) : Prop where
  sizeRow : geo.sizeRow = 2 * geo.cols
  size : geo.screenbufSize = geo.rows * geo.sizeRow

/-- **The console shows what the private one shows.** -/
structure Alike (mem : Nat → Cell) (c : Vc) (p : Private) : Prop where
  cols : p.vc.geo.cols = c.geo.cols
  rows : p.vc.geo.rows = c.geo.rows
  sizeRow : p.vc.geo.sizeRow = c.geo.sizeRow
  size : p.vc.geo.screenbufSize = c.geo.screenbufSize
  x : p.vc.x = c.x
  y : p.vc.y = c.y
  eraseChar : p.vc.eraseChar = c.eraseChar
  text : SameWindow mem c.geo.origin p.mem p.vc.geo.origin c.geo.screenbufSize

variable {mem mem' : Nat → Cell} {c : Vc} {p : Private}

theorem Alike.move {origin : Nat} (h : Alike mem c p)
    (htext : SameWindow mem' origin mem c.geo.origin c.geo.screenbufSize) :
    Alike mem' (c.at origin) p :=
  ⟨h.cols, h.rows, h.sizeRow, h.size, h.x, h.y, h.eraseChar, htext.trans h.text⟩

theorem Alike.frame (h : Alike mem c p)
    (htext : SameWindow mem' c.geo.origin mem c.geo.origin c.geo.screenbufSize) :
    Alike mem' c p :=
  ⟨h.cols, h.rows, h.sizeRow, h.size, h.x, h.y, h.eraseChar, htext.trans h.text⟩

/-! ### The software -/

theorem region_le {geo : Geom} (hg : WellSized geo) {t b n : Nat} (hb : b ≤ geo.rows)
    (hn : t + n ≤ b) :
    geo.sizeRow * (t + n) + (b - t - n) * geo.sizeRow ≤ geo.screenbufSize ∧
      geo.sizeRow * t + 2 * ((b - t - n) * geo.cols) + geo.sizeRow * n ≤ geo.screenbufSize ∧
      geo.sizeRow * t + 2 * (geo.cols * n) + (b - t - n) * geo.sizeRow ≤ geo.screenbufSize := by
  have hkept : 2 * ((b - t - n) * geo.cols) = geo.sizeRow * (b - t - n) := by
    rw [hg.sizeRow, Nat.mul_comm (b - t - n), Nat.mul_assoc]
  have hgone : 2 * (geo.cols * n) = geo.sizeRow * n := by rw [hg.sizeRow, Nat.mul_assoc]
  have hsum : geo.sizeRow * t + geo.sizeRow * n + geo.sizeRow * (b - t - n) =
      geo.sizeRow * b := by
    rw [← Nat.mul_add, ← Nat.mul_add]
    congr 1
    omega
  have hle : geo.sizeRow * b ≤ geo.screenbufSize := by
    rw [hg.size, Nat.mul_comm]
    exact Nat.mul_le_mul_right _ hb
  rw [hkept, hgone, Nat.mul_add, Nat.mul_comm (b - t - n)]
  omega

theorem scrollLines_le {t b : Nat} (nr : Nat) (h : t < b) : t + scrollLines t b nr ≤ b := by
  unfold scrollLines
  split_ifs <;> omega

theorem moveRegion_congr {geo geo' : Geom} (hg : WellSized geo) (hcols : geo'.cols = geo.cols)
    (hrow : geo'.sizeRow = geo.sizeRow) (eraseChar : Cell) (dir : ScrollDir) {t b n : Nat}
    (hb : b ≤ geo.rows) (hn : t + n ≤ b)
    (h : SameWindow mem geo.origin mem' geo'.origin geo.screenbufSize) :
    SameWindow (moveRegion mem geo eraseChar dir t b n) geo.origin
      (moveRegion mem' geo' eraseChar dir t b n) geo'.origin geo.screenbufSize := by
  obtain ⟨hsrc, -, hdst⟩ := region_le hg hb hn
  unfold moveRegion
  rw [hcols, hrow]
  cases dir with
  | up => exact (h.copyTo_congr _ _ hsrc).fillFrom_congr _ _ _
  | down => exact (h.copyTo_congr _ _ (by omega)).fillFrom_congr _ _ _

/-- **A `Paint` done by the software keeps the consoles alike.** -/
theorem Alike.softPaint (h : Alike mem c p) (hg : WellSized c.geo) (a : Paint) :
    Alike (softPaint mem c a).1 (softPaint mem c a).2 (p.paint a) := by
  obtain ⟨pmem, pvc⟩ := p
  have hsize : pvc.geo.screenbufSize = c.geo.screenbufSize := h.size
  have hrows : pvc.geo.rows = c.geo.rows := h.rows
  have hcols : pvc.geo.cols = c.geo.cols := h.cols
  unfold Private.paint
  cases a with
  | rewrite dst n f =>
    unfold LinuxConsole.Vga.softPaint
    dsimp only
    rw [hsize]
    split_ifs
    · exact { h with text := h.text.mapFrom_congr dst n f }
    · exact h
  | move dst src n =>
    unfold LinuxConsole.Vga.softPaint
    dsimp only
    rw [hsize]
    split_ifs with hin
    · exact { h with text := h.text.copyTo_congr dst src hin.2 }
    · exact h
  | scroll dir t b nr =>
    have hscrolls : Scrolls pvc.geo t b nr = Scrolls c.geo t b nr := by
      unfold Scrolls
      rw [hrows]
    unfold LinuxConsole.Vga.softPaint
    dsimp only
    simp only [hscrolls]
    split_ifs with hin
    · have herase : pvc.eraseChar = c.eraseChar := h.eraseChar
      rw [herase]
      exact { h with
        text := moveRegion_congr hg hcols h.sizeRow _ dir hin.1 (scrollLines_le nr hin.2.1) h.text }
    · exact h
  | goto x y =>
    unfold LinuxConsole.Vga.softPaint
    dsimp only
    rw [hcols, hrows]
    split_ifs
    · exact { h with x := rfl, y := rfl }
    · exact h
  | eraseChar e => exact { h with eraseChar := rfl }

theorem moveRegion_frame {geo : Geom} (hg : WellSized geo) (eraseChar : Cell) (dir : ScrollDir)
    {t b n : Nat} (hb : b ≤ geo.rows) (hn : t + n ≤ b) {o k : Nat}
    (hapart : Apart geo.origin geo.screenbufSize o k) :
    SameWindow (moveRegion mem geo eraseChar dir t b n) o mem o k := by
  obtain ⟨hsrc, hfill, hdst⟩ := region_le hg hb hn
  have hgone : 2 * (geo.cols * n) = geo.sizeRow * n := by rw [hg.sizeRow, Nat.mul_assoc]
  have hmul := Nat.mul_add geo.sizeRow t n
  unfold moveRegion
  cases dir with
  | up =>
    exact (SameWindow.fillFrom_apart _ (hapart.within (by omega) (by omega))).trans
      (SameWindow.copyTo_apart _ (hapart.within (by omega) (by omega)))
  | down =>
    exact (SameWindow.fillFrom_apart _ (hapart.within (by omega) (by omega))).trans
      (SameWindow.copyTo_apart _ (hapart.within (by omega) (by omega)))

theorem softPaint_frame (hg : WellSized c.geo) (a : Paint) {o n : Nat}
    (hapart : Apart c.geo.origin c.geo.screenbufSize o n) :
    SameWindow (softPaint mem c a).1 o mem o n := by
  cases a with
  | rewrite dst k f =>
    unfold LinuxConsole.Vga.softPaint
    dsimp only
    split_ifs with hin
    · exact SameWindow.mapFrom_apart f (hapart.within (by omega) (by omega))
    · exact .refl mem o n
  | move dst src k =>
    unfold LinuxConsole.Vga.softPaint
    dsimp only
    split_ifs with hin
    · exact SameWindow.copyTo_apart _ (hapart.within (by omega) (by omega))
    · exact .refl mem o n
  | scroll dir t b nr =>
    unfold LinuxConsole.Vga.softPaint
    dsimp only
    split_ifs with hin
    · exact moveRegion_frame hg _ dir hin.1 (scrollLines_le nr hin.2.1) hapart
    · exact .refl mem o n
  | goto x y =>
    unfold LinuxConsole.Vga.softPaint
    dsimp only
    split_ifs <;> exact .refl mem o n
  | eraseChar e => exact .refl mem o n

/-! ### The hardware -/

/-- **A move of the whole screen by the software.** -/
theorem moveRegion_text (mem : Nat → Cell) {geo : Geom} (hg : WellSized geo) (e : Cell) (dir : ScrollDir)
    {n : Nat} (hn : n ≤ geo.rows) {i : Nat} (hi : i < geo.screenbufSize) :
    moveRegion mem geo e dir 0 geo.rows n (geo.origin + i) =
      match dir with
      | .up => upText (fun j => mem (geo.origin + j)) geo.screenbufSize (n * geo.sizeRow) e i
      | .down => downText (fun j => mem (geo.origin + j)) (n * geo.sizeRow) e i := by
  have hkept : (geo.rows - 0 - n) * geo.sizeRow = geo.screenbufSize - n * geo.sizeRow := by
    rw [Nat.sub_zero, Nat.sub_mul, hg.size]
  have hcells : 2 * ((geo.rows - 0 - n) * geo.cols) = (geo.rows - 0 - n) * geo.sizeRow := by
    rw [hg.sizeRow, Nat.mul_left_comm]
  have hgone : 2 * (geo.cols * n) = n * geo.sizeRow := by
    rw [hg.sizeRow, Nat.mul_left_comm n, Nat.mul_comm n]
  have hle : n * geo.sizeRow ≤ geo.screenbufSize := by
    rw [hg.size]
    exact Nat.mul_le_mul_right _ hn
  unfold moveRegion
  cases dir with
  | up =>
    unfold upText
    dsimp only
    rw [hcells, hkept, Nat.mul_zero, Nat.zero_add, Nat.zero_add, Nat.mul_comm geo.sizeRow n,
      Nat.add_zero]
    by_cases hstay : i + n * geo.sizeRow < geo.screenbufSize
    · rw [if_pos hstay, fillFrom_of_not (by omega), copyTo_at _ _ (by omega)]
      congr 1
      omega
    · have hcleared : geo.origin + i = geo.origin + (geo.screenbufSize - n * geo.sizeRow) +
          (i + n * geo.sizeRow - geo.screenbufSize) := by omega
      rw [if_neg hstay, hcleared]
      exact fillFrom_at _ _ (by omega)
  | down =>
    unfold downText
    dsimp only
    rw [hkept, hgone, Nat.mul_zero, Nat.zero_add, Nat.add_zero]
    by_cases hcleared : i < n * geo.sizeRow
    · rw [if_pos hcleared]
      exact fillFrom_at _ _ hcleared
    · obtain ⟨j, rfl⟩ := Nat.exists_eq_add_of_le (Nat.le_of_not_lt hcleared)
      rw [if_neg hcleared, fillFrom_of_not (by omega), ← Nat.add_assoc,
        copyTo_at _ _ (by omega), Nat.add_sub_cancel_left]

/-- The text after a scroll depends on the text of the screen only. -/
theorem upText_congr {f f' : Nat → Cell} {n delta : Nat} (e : Cell) (i : Nat)
    (h : ∀ j < n, f j = f' j) : upText f n delta e i = upText f' n delta e i := by
  unfold upText
  split_ifs with hin
  · exact h _ hin
  · rfl

theorem downText_congr {f f' : Nat → Cell} {n delta : Nat} (e : Cell) {i : Nat} (hi : i < n)
    (h : ∀ j < n, f j = f' j) : downText f delta e i = downText f' delta e i := by
  unfold downText
  split_ifs
  · rfl
  · exact h _ (by omega)

theorem Alike.wellSized (h : Alike mem c p) (hg : WellSized c.geo) : WellSized p.vc.geo :=
  ⟨by rw [h.sizeRow, h.cols, hg.sizeRow], by rw [h.size, h.rows, h.sizeRow, hg.size]⟩

variable {k : Card}

theorem Alike.scrollTo (h : Alike mem c p) (hg : WellSized c.geo) (dir : ScrollDir) {n : Nat}
    (hn : n ≤ c.geo.rows) {s : Scroll} (hs : s = ⟨mem, c.geo, c.pos, c.eraseChar⟩) :
    SameWindow (scrollTo k dir s (n * c.geo.sizeRow)).1 (scrollTo k dir s (n * c.geo.sizeRow)).2
      (moveRegion p.mem p.vc.geo p.vc.eraseChar dir 0 c.geo.rows n) p.vc.geo.origin
      c.geo.screenbufSize := by
  intro i hi
  subst hs
  have hle : n * c.geo.sizeRow ≤ c.geo.screenbufSize := by
    rw [hg.size]
    exact Nat.mul_le_mul_right _ hn
  have hsoft := moveRegion_text p.mem (h.wellSized hg) p.vc.eraseChar dir
    (n := n) (by rw [h.rows]; exact hn) (i := i) (by rw [h.size]; exact hi)
  rw [h.rows, h.sizeRow, h.size, h.eraseChar] at hsoft
  rw [h.eraseChar, hsoft]
  cases dir with
  | up => exact (scrollUpTo_text hle hi).trans (upText_congr _ _ h.text)
  | down => exact (scrollDownTo_text hle hi).trans (downText_congr _ hi h.text)

theorem scrollTo_frame {s : Scroll} (dir : ScrollDir) {delta o n : Nat}
    (hdelta : delta ≤ s.geo.screenbufSize) (hbase : k.vramBase ≤ s.geo.origin)
    (hend : s.geo.scrEnd = s.geo.origin + s.geo.screenbufSize) (hin : s.geo.scrEnd ≤ k.vramEnd)
    (hapart : Apart k.vramBase k.vramSize o n) :
    SameWindow (scrollTo k dir s delta).1 o s.mem o n := by
  have hsize : k.vramBase + k.vramSize = k.vramEnd := Nat.add_sub_cancel' k.base_le
  have hpart : ∀ a w, k.vramBase ≤ a → a + w ≤ k.vramEnd → Apart a w o n :=
    fun a w ha hw => hapart.within ha (by omega)
  cases dir with
  | up =>
    unfold Vga.scrollTo scrollUpTo
    dsimp only
    split_ifs
    · exact (SameWindow.fillFrom_apart _ (hpart _ _ (by omega) (by omega))).trans
        (SameWindow.copyTo_apart _ (hpart _ _ (by omega) (by omega)))
    · exact SameWindow.fillFrom_apart _ (hpart _ _ (by dsimp only; omega) (by dsimp only; omega))
  | down =>
    unfold Vga.scrollTo scrollDownTo
    dsimp only
    split_ifs
    · exact (SameWindow.fillFrom_apart _ (hpart _ _ (by omega) (by omega))).trans
        (SameWindow.copyTo_apart _ (hpart _ _ (by omega) (by omega)))
    · exact SameWindow.fillFrom_apart _ (hpart _ _ (by dsimp only; omega) (by dsimp only; omega))

/-! ### A `Paint` of the display -/

variable {ι : Type} [DecidableEq ι] {m : Machine ι}

theorem hardScroll_cases {i : ι} {a : Paint} {r : Scrolled} (hr : m.hardScroll k i a = some r) :
    ∃ dir nr, a = .scroll dir 0 (m.vc i).geo.rows nr ∧ i = m.fg ∧
      Scrolls (m.vc i).geo 0 (m.vc i).geo.rows nr ∧
      (let s := scrollTo k dir (m.scrollOf i)
        (scrollLines 0 (m.vc i).geo.rows nr * (m.vc i).geo.sizeRow)
      r = ⟨s.1, s.2, s.2 + (m.vc i).geo.screenbufSize,
        (m.vc i).pos - (m.vc i).geo.origin + s.2⟩) := by
  cases a with
  | scroll dir t b nr =>
    unfold Machine.hardScroll at hr
    dsimp only at hr
    split_ifs at hr with hscrolls
    obtain ⟨rfl, hb, -, rfl⟩ := vgaconScrollRegion_some hr
    have hrows : b = (m.vc i).geo.rows := hb
    subst hrows
    exact ⟨dir, nr, rfl, hscrolls.2, hscrolls.1, rfl⟩
  | _ => exact absurd hr nofun

/-- **A scroll by the driver keeps the consoles alike.** -/
theorem Alike.hardScroll {i : ι} (h : Alike m.mem (m.vc i) p) (hg : WellSized (m.vc i).geo)
    {a : Paint} {r : Scrolled} (hr : m.hardScroll k i a = some r) :
    Alike r.mem
      { m.vc i with
        geo := { (m.vc i).geo with origin := r.origin, scrEnd := r.scrEnd }
        pos := r.pos }
      (p.paint a) := by
  obtain ⟨dir, nr, rfl, -, hscrolls, rfl⟩ := hardScroll_cases hr
  have hlines : scrollLines 0 (m.vc i).geo.rows nr ≤ (m.vc i).geo.rows := by
    have hle := scrollLines_le nr hscrolls.2.1
    omega
  have htext := h.scrollTo (k := k) hg dir hlines (s := m.scrollOf i) rfl
  have hscrolls' : Scrolls p.vc.geo 0 (m.vc i).geo.rows nr := by
    unfold Scrolls at hscrolls ⊢
    rw [h.rows]
    exact hscrolls
  unfold Private.paint LinuxConsole.Vga.softPaint
  dsimp only
  rw [if_pos hscrolls']
  exact ⟨h.cols, h.rows, h.sizeRow, h.size, h.x, h.y, h.eraseChar, htext⟩

end LinuxConsole.Vga

import LinuxConsole.Lib.Ring
import LinuxConsole.Lib.Run
import LinuxConsole.Vga.Scroll

/-!
# Looking back on the VGA

The video memory behind the screen holds what has been scrolled out of it, and `vgacon_scroll` moves
the displayed window there: `vc_visible_origin`.  When the text has started again at the start of the
video memory, `vga_rolled_over` is how far it had come, and the window moves in a ring of
`vga_rolled_over + vc_size_row` bytes that is cut behind the screen.

`View` adds to what `vgacon_scroll_region` works on where the window is.  `Meets` is what a step has
to meet: the place that a count asks for is not in the last row of the ring, where
the window would end past the video memory, and a positive count is neither so large that its bytes
overflow an `int` nor too small to leave the margin at the start.  **`scrollback_iff`** says that
the window stays inside the video memory along a run, and that every positive count takes it nearer
to the screen, exactly if every step of the run meets this.
-/

namespace LinuxConsole.Vga

open Lib

/-- A console in front, with the window that is displayed; `memTop` is what `vga_set_mem_top` has
written.  The video memory has at most 64 KiB, so that of the numbers that are stored in an `int`
only the one with the count can overflow. -/
structure View where
  scroll : Scroll
  visibleOrigin : Nat
  rolledOver : Nat
  memTop : Nat

namespace View

variable (k : Card) (g : Globals) (v : View)

/-- `vga_set_mem_top`. -/
def vgaSetMemTop : View := { v with memTop := (v.visibleOrigin - k.vramBase) / 2 }

/-- The text has started again at the start of the video memory, and there is room for more than a
margin between the screen and what is left behind it. -/
def RingUsed : Prop :=
  v.rolledOver > v.scroll.geo.scrEnd - k.vramBase + 4 * v.scroll.geo.sizeRow

instance : Decidable (v.RingUsed k) := inferInstanceAs (Decidable (_ < _))

/-- `ul`. -/
def ul : Nat := if v.RingUsed k then v.scroll.geo.scrEnd - k.vramBase else 0

/-- `we`. -/
def we : Nat := if v.RingUsed k then v.rolledOver + v.scroll.geo.sizeRow else k.vramSize

/-- `(a - vga_vram_base - ul + we) % we` for an address `a`. -/
def place (a : Nat) : Nat := ringPos (v.we k) (v.ul k) (a - k.vramBase)

/-- `st`. -/
def st : Nat := v.place k v.scroll.geo.origin

/-- `margin` after it has been cut to nothing where there is little to look back at. -/
def margin : Nat :=
  if v.st k < 2 * (v.scroll.geo.sizeRow * 4) then 0 else v.scroll.geo.sizeRow * 4

/-- `p` before it is compared with the margins: the `int` that the sum is stored in. -/
def asked (lines : Int) : Int :=
  s32 (v.place k v.visibleOrigin + lines * v.scroll.geo.sizeRow)

/-- `vgacon_scroll`. -/
def vgaconScroll (lines : BitVec 32) : View :=
  vgaSetMemTop k
    (if lines = 0 then { v with visibleOrigin := v.scroll.geo.origin }
    else
      let p := snap (v.margin k) (v.st k) (v.asked k lines.toInt)
      { v with visibleOrigin := k.vramBase + ringAddr (v.we k) (v.ul k) p.toNat })

/-- `vga_rolled_over` after the text has been moved by `delta`. -/
def rolledAfter (dir : ScrollDir) (delta : Nat) : Nat :=
  match dir with
  | .up =>
    if v.scroll.geo.scrEnd + delta ≥ k.vramEnd then v.scroll.geo.origin - k.vramBase
    else v.rolledOver
  | .down => if v.scroll.geo.origin < k.vramBase + delta then 0 else v.rolledOver

/-- The view of the text that has been moved. -/
def moved (dir : ScrollDir) (delta : Nat) (r : Scrolled) : View :=
  vgaSetMemTop k
    { scroll :=
        { v.scroll with
          mem := r.mem
          geo := { v.scroll.geo with origin := r.origin, scrEnd := r.scrEnd }
          pos := r.pos }
      visibleOrigin := r.origin
      rolledOver := v.rolledAfter k dir delta
      memTop := v.memTop }

/-- `vgacon_scroll_region` with the window. -/
def scrollRegion (t b : Nat) (dir : ScrollDir) (lines : Nat) : View :=
  if t ≠ 0 ∨ b ≠ v.scroll.geo.rows ∨ g.isGfx then v
  else
    let v := if v.scroll.geo.origin ≠ v.visibleOrigin then v.vgaconScroll k 0 else v
    match vgaconScrollRegion k g v.scroll t b dir lines with
    | none => v
    | some r => v.moved k dir (lines * v.scroll.geo.sizeRow) r

/-- `set_origin` for the console `s`, which has come to the front or has got another size, with
`vgacon_set_origin`; the screen is lit.  In graphics `set_origin` takes the console to its buffer,
of which nothing is displayed: the window is what it was. -/
def setOrigin (s : Scroll) : View :=
  match vgaconSetOrigin k g false with
  | none => v
  | some origin =>
    vgaSetMemTop k
      { scroll :=
          { s with
            geo := { s.geo with origin := origin, scrEnd := origin + s.geo.screenbufSize }
            pos := origin + (s.pos - s.geo.origin) }
        visibleOrigin := origin
        rolledOver := 0
        memTop := v.memTop }

/-- The screen has rows, and fits into the video memory. -/
structure Fits (geo : Geom) : Prop where
  rows : 0 < geo.rows
  sizeRow : 0 < geo.sizeRow
  size : geo.screenbufSize = geo.rows * geo.sizeRow
  fits : geo.screenbufSize ≤ k.vramSize

/-- What happens to the console in front, which has a screen that fits. -/
inductive Op (k : Card)
  | scroll (lines : BitVec 32)
  | scrollRegion (t b : Nat) (dir : ScrollDir) (lines : Nat)
  | setOrigin (s : Scroll) (fits : Fits k s.geo)

def step (v : View) : Op k → View
  | .scroll lines => v.vgaconScroll k lines
  | .scrollRegion t b dir lines => v.scrollRegion k g t b dir lines
  | .setOrigin s _ => v.setOrigin k g s

/-! ### What is wanted -/

/-- The displayed window is inside the video memory. -/
def Inside : Prop :=
  k.vramBase ≤ v.visibleOrigin ∧ v.visibleOrigin + v.scroll.geo.screenbufSize ≤ k.vramEnd

/-- How many bytes the view is behind the screen. -/
def behind : Nat := v.st k - v.place k v.visibleOrigin

/-- The count 0 shows the screen, and a positive count takes the view nearer to the screen, until it
shows it. -/
def Follows (v' : View) : Op k → Prop
  | .scroll lines =>
    (lines = 0 → v'.visibleOrigin = v'.scroll.geo.origin) ∧
      (0 < lines.toInt → v'.behind k < v.behind k ∨ v'.visibleOrigin = v'.scroll.geo.origin)
  | _ => True

/-! ### What a step has to meet -/

/-- The place that is asked for is in the last row of the ring, so near to its end that the window
would end past the video memory. -/
def PastEnd (lines : Int) : Prop :=
  v.RingUsed k ∧ v.margin k ≤ v.asked k lines ∧ v.asked k lines ≤ v.st k - v.margin k ∧
    v.asked k lines + v.ul k < v.we k ∧
      k.vramSize < v.asked k lines + v.ul k + v.scroll.geo.screenbufSize

/-- The count goes on, and leaves the margin at the start. -/
def GoesOn (lines : Int) : Prop :=
  v.st k = 0 ∨ v.margin k ≤ v.asked k lines ∧
    (v.place k v.visibleOrigin < v.asked k lines ∨ v.st k - v.margin k < v.asked k lines ∨
      v.asked k lines = v.st k)

/-- What a step has to meet. -/
def Meets : Op k → Prop
  | .scroll lines =>
    (lines ≠ 0 → ¬ v.PastEnd k lines.toInt) ∧ (0 < lines.toInt → v.GoesOn k lines.toInt)
  | _ => True

/-! ### The ring -/

variable {k g v}

/-- The screen is in the video memory, and so was the one that was left behind. -/
structure Laid (k : Card) (v : View) : Prop where
  fits : Fits k v.scroll.geo
  base : k.vramBase ≤ v.scroll.geo.origin
  end_le : v.scroll.geo.origin + v.scroll.geo.screenbufSize ≤ k.vramEnd
  scrEnd : v.scroll.geo.scrEnd = v.scroll.geo.origin + v.scroll.geo.screenbufSize
  rolled : v.rolledOver + v.scroll.geo.screenbufSize ≤ k.vramSize

/-- The window is inside the video memory and not past the screen in the ring. -/
structure Sound (k : Card) (v : View) : Prop extends v.Laid k where
  inside : v.Inside k
  behind : v.place k v.visibleOrigin ≤ v.st k
  ring : v.visibleOrigin - k.vramBase < v.we k

theorem Laid.sizes (h : v.Laid k) :
    0 < v.scroll.geo.screenbufSize ∧ v.scroll.geo.sizeRow ≤ v.scroll.geo.screenbufSize ∧
      0 < v.scroll.geo.sizeRow ∧ k.vramSize = k.vramEnd - k.vramBase ∧
        v.scroll.geo.screenbufSize ≤ k.vramSize ∧
          v.scroll.geo.origin - k.vramBase + v.scroll.geo.screenbufSize ≤ k.vramSize := by
  have hle := Nat.le_mul_of_pos_left v.scroll.geo.sizeRow h.fits.rows
  have hsize : k.vramSize = k.vramEnd - k.vramBase := rfl
  have hend := h.end_le
  have hbase := h.base
  rw [← h.fits.size] at hle
  exact ⟨Nat.lt_of_lt_of_le h.fits.sizeRow hle, hle, h.fits.sizeRow, hsize, h.fits.fits, by omega⟩

theorem Laid.ring_used (h : v.Laid k) (hused : v.RingUsed k) :
    v.ul k = v.scroll.geo.origin - k.vramBase + v.scroll.geo.screenbufSize ∧
      v.we k = v.rolledOver + v.scroll.geo.sizeRow ∧
        v.ul k + 4 * v.scroll.geo.sizeRow < v.rolledOver ∧
          v.st k = v.we k - v.scroll.geo.screenbufSize := by
  obtain ⟨hpos, hrow, -, -, -, -⟩ := h.sizes
  have hbase := h.base
  have hul : v.ul k = v.scroll.geo.origin - k.vramBase + v.scroll.geo.screenbufSize := by
    rw [ul, if_pos hused, h.scrEnd]
    omega
  have hwe : v.we k = v.rolledOver + v.scroll.geo.sizeRow := by rw [we, if_pos hused]
  have hused' : v.ul k + 4 * v.scroll.geo.sizeRow < v.rolledOver := by
    have hlt : v.scroll.geo.scrEnd - k.vramBase + 4 * v.scroll.geo.sizeRow < v.rolledOver := hused
    rw [h.scrEnd] at hlt
    omega
  refine ⟨hul, hwe, hused', ?_⟩
  rw [st, place, ringPos_of_lt (by omega) (by omega)]
  omega

theorem Laid.ring_whole (h : v.Laid k) (hused : ¬ v.RingUsed k) :
    v.ul k = 0 ∧ v.we k = k.vramSize ∧ v.st k = v.scroll.geo.origin - k.vramBase := by
  obtain ⟨hpos, -, -, -, -, hend⟩ := h.sizes
  have hul : v.ul k = 0 := by rw [ul, if_neg hused]
  have hwe : v.we k = k.vramSize := by rw [we, if_neg hused]
  refine ⟨hul, hwe, ?_⟩
  rw [st, place, ringPos_of_le (by omega) (by omega), hul, Nat.sub_zero]

theorem Laid.ring_spec (h : v.Laid k) :
    v.ul k < v.we k ∧ v.st k < v.we k ∧ v.scroll.geo.origin - k.vramBase < v.we k := by
  obtain ⟨hpos, hrow, hrowpos, -, hfits, hend⟩ := h.sizes
  by_cases hused : v.RingUsed k
  · obtain ⟨hul, hwe, hlt, hst⟩ := h.ring_used hused
    omega
  · obtain ⟨hul, hwe, hst⟩ := h.ring_whole hused
    omega

theorem Laid.window_end (h : v.Laid k) {q : Nat} (hq : q ≤ v.st k) :
    k.vramBase + ringAddr (v.we k) (v.ul k) q + v.scroll.geo.screenbufSize ≤ k.vramEnd ↔
      ¬ (v.RingUsed k ∧ q + v.ul k < v.we k ∧
        k.vramSize < q + v.ul k + v.scroll.geo.screenbufSize) := by
  obtain ⟨hpos, hrow, hrowpos, hsize, hfits, hend⟩ := h.sizes
  obtain ⟨hulwe, hstwe, -⟩ := h.ring_spec
  have hle := k.base_le
  by_cases hwrap : q + v.ul k < v.we k
  · rw [ringAddr_of_lt hwrap]
    by_cases hused : v.RingUsed k
    · simp only [hused, hwrap, true_and, Nat.not_lt]
      omega
    · obtain ⟨hul, hwe, hst⟩ := h.ring_whole hused
      simp only [hused, false_and, not_false_iff, iff_true]
      omega
  · rw [ringAddr_of_le (Nat.le_of_not_lt hwrap) (by omega) hulwe]
    simp only [hwrap, false_and, and_false, not_false_iff, iff_true]
    by_cases hused : v.RingUsed k
    · obtain ⟨hul, hwe, hlt, hst⟩ := h.ring_used hused
      omega
    · obtain ⟨hul, hwe, hst⟩ := h.ring_whole hused
      omega

/-! ### One scroll -/

@[simp] theorem vgaconScroll_scroll (lines : BitVec 32) :
    (v.vgaconScroll k lines).scroll = v.scroll := by
  rw [vgaconScroll, vgaSetMemTop]
  dsimp only
  split <;> rfl

@[simp] theorem vgaconScroll_rolledOver (lines : BitVec 32) :
    (v.vgaconScroll k lines).rolledOver = v.rolledOver := by
  rw [vgaconScroll, vgaSetMemTop]
  dsimp only
  split <;> rfl

theorem ring_congr {v' : View} (hscroll : v'.scroll = v.scroll)
    (hrolled : v'.rolledOver = v.rolledOver) :
    (v'.RingUsed k ↔ v.RingUsed k) ∧ v'.ul k = v.ul k ∧ v'.we k = v.we k := by
  have hused : v'.RingUsed k ↔ v.RingUsed k := by rw [RingUsed, RingUsed, hscroll, hrolled]
  refine ⟨hused, ?_, ?_⟩
  · rw [ul, ul, hscroll]
    exact if_congr hused rfl rfl
  · rw [we, we, hscroll, hrolled]
    exact if_congr hused rfl rfl

@[simp] theorem vgaconScroll_place (lines : BitVec 32) (a : Nat) :
    (v.vgaconScroll k lines).place k a = v.place k a := by
  obtain ⟨-, hul, hwe⟩ := @ring_congr k v (v.vgaconScroll k lines) (vgaconScroll_scroll lines)
    (vgaconScroll_rolledOver lines)
  rw [place, place, hul, hwe]

@[simp] theorem vgaconScroll_st (lines : BitVec 32) : (v.vgaconScroll k lines).st k = v.st k := by
  rw [st, st, vgaconScroll_place, vgaconScroll_scroll]

/-- The place that a count other than 0 leads to. -/
def landing (k : Card) (v : View) (lines : Int) : Nat :=
  (snap (v.margin k) (v.st k) (v.asked k lines)).toNat

theorem vgaconScroll_visible {lines : BitVec 32} (h : lines ≠ 0) :
    (v.vgaconScroll k lines).visibleOrigin =
      k.vramBase + ringAddr (v.we k) (v.ul k) (v.landing k lines.toInt) := by
  rw [vgaconScroll, if_neg h]
  rfl

theorem margin_le : 2 * (v.margin k : Int) ≤ v.st k := by
  rw [margin]
  split <;> omega

theorem landing_eq (lines : Int) :
    (v.landing k lines : Int) = snap (v.margin k) (v.st k) (v.asked k lines) :=
  Int.toNat_of_nonneg (snap_nonneg (Int.natCast_nonneg _) margin_le)

theorem landing_le (lines : Int) : v.landing k lines ≤ v.st k := by
  have hle := @snap_le (v.margin k) (v.st k) (v.asked k lines) (Int.natCast_nonneg _) margin_le
  rw [← landing_eq] at hle
  exact Int.ofNat_le.mp hle

/-- **The window that a count leads to** is inside the video memory exactly if the place that is
asked for is not past the end of the ring. -/
theorem Laid.scroll_inside (h : v.Laid k) {lines : BitVec 32} (hne : lines ≠ 0) :
    (v.vgaconScroll k lines).Inside k ↔ ¬ v.PastEnd k lines.toInt := by
  obtain ⟨hpos, hrow, hrowpos, hsize, hfits, hend⟩ := h.sizes
  rw [Inside, vgaconScroll_visible hne, vgaconScroll_scroll, and_iff_right (Nat.le_add_right _ _),
    h.window_end (landing_le _), not_iff_not, PastEnd]
  refine and_congr_right fun hused => ?_
  obtain ⟨hul, hwe, hlt, hst⟩ := h.ring_used hused
  have hroll := h.rolled
  have heq := @landing_eq k v lines.toInt
  constructor
  · rintro ⟨hring, hpast⟩
    rcases snap_eq_or (v.margin k) (v.st k) (v.asked k lines.toInt) with hz | ht | ⟨hx, hlow, hhigh⟩
    · omega
    · omega
    · rw [hx] at heq
      omega
  · rintro ⟨hlow, hhigh, hring, hpast⟩
    rw [snap_of_mem hlow hhigh] at heq
    omega

/-- Where the window is after a count, seen from the screen. -/
theorem Laid.scroll_place (h : v.Laid k) {lines : BitVec 32} (hne : lines ≠ 0) :
    v.place k (v.vgaconScroll k lines).visibleOrigin = v.landing k lines.toInt := by
  obtain ⟨hul, hst, -⟩ := h.ring_spec
  rw [vgaconScroll_visible hne, place, Nat.add_sub_cancel_left]
  exact ringPos_ringAddr (Nat.lt_of_le_of_lt (landing_le _) hst) hul

/-- The window shows the screen exactly if it is at the same place of the ring. -/
theorem Laid.shows_iff (h : v.Laid k) {a : Nat} (hbase : k.vramBase ≤ a)
    (hring : a - k.vramBase < v.we k) : a = v.scroll.geo.origin ↔ v.place k a = v.st k := by
  obtain ⟨hul, -, horigin⟩ := h.ring_spec
  refine ⟨fun heq => by rw [heq, st], fun heq => ?_⟩
  have haddr := congrArg (ringAddr (v.we k) (v.ul k)) heq
  rw [st, place, place, ringAddr_ringPos hring hul, ringAddr_ringPos horigin hul] at haddr
  have hbase' := h.base
  omega

theorem Laid.window (h : v.Laid k) {v' : View} (hscroll : v'.scroll = v.scroll)
    (hrolled : v'.rolledOver = v.rolledOver) (hinside : v'.Inside k)
    (hbehind : v.place k v'.visibleOrigin ≤ v.st k)
    (hring : v'.visibleOrigin - k.vramBase < v.we k) : v'.Sound k := by
  obtain ⟨-, hul, hwe⟩ := @ring_congr k v v' hscroll hrolled
  have hplace (a : Nat) : v'.place k a = v.place k a := by rw [place, place, hul, hwe]
  refine ⟨⟨?_, ?_, ?_, ?_, ?_⟩, hinside, ?_, ?_⟩
  · rw [hscroll]
    exact h.fits
  · rw [hscroll]
    exact h.base
  · rw [hscroll]
    exact h.end_le
  · rw [hscroll]
    exact h.scrEnd
  · rw [hscroll, hrolled]
    exact h.rolled
  · rw [st, hplace, hplace, hscroll]
    exact hbehind
  · rw [hwe]
    exact hring

theorem Laid.shown (h : v.Laid k) (hshows : v.visibleOrigin = v.scroll.geo.origin) : v.Sound k := by
  refine h.window rfl rfl ?_ ?_ ?_
  · rw [Inside, hshows]
    exact ⟨h.base, h.end_le⟩
  · rw [hshows, st]
  · rw [hshows]
    exact h.ring_spec.2.2

theorem Sound.scroll_zero (h : v.Sound k) : (v.vgaconScroll k 0).Sound k :=
  h.window (vgaconScroll_scroll 0) (vgaconScroll_rolledOver 0) ⟨h.base, h.end_le⟩ (Nat.le_refl _)
    h.ring_spec.2.2

theorem Sound.scroll (h : v.Sound k) {lines : BitVec 32}
    (hinside : (v.vgaconScroll k lines).Inside k) : (v.vgaconScroll k lines).Sound k := by
  by_cases hzero : lines = 0
  · rw [hzero]
    exact h.scroll_zero
  refine h.window (vgaconScroll_scroll _) (vgaconScroll_rolledOver _) hinside ?_ ?_
  · rw [h.scroll_place hzero]
    exact landing_le _
  · rw [vgaconScroll_visible hzero, Nat.add_sub_cancel_left]
    exact ringAddr_lt (Nat.lt_of_le_of_lt (Nat.zero_le _) h.ring_spec.1) _

/-- **A positive count** takes the view nearer to the screen, until it shows it, exactly if it goes
on. -/
theorem Sound.goesOn_iff (h : v.Sound k) {lines : BitVec 32} (hne : lines ≠ 0) :
    ((v.vgaconScroll k lines).behind k < v.behind k ∨
      (v.vgaconScroll k lines).visibleOrigin = v.scroll.geo.origin) ↔ v.GoesOn k lines.toInt := by
  have hle := @landing_le k v lines.toInt
  have hbehind := h.behind
  have hring : (v.vgaconScroll k lines).visibleOrigin - k.vramBase < v.we k := by
    rw [vgaconScroll_visible hne, Nat.add_sub_cancel_left]
    exact ringAddr_lt (Nat.lt_of_le_of_lt (Nat.zero_le _) h.ring_spec.1) _
  have hbase : k.vramBase ≤ (v.vgaconScroll k lines).visibleOrigin := by
    rw [vgaconScroll_visible hne]
    exact Nat.le_add_right _ _
  rw [h.shows_iff hbase hring, View.behind, View.behind, vgaconScroll_st, vgaconScroll_place,
    h.scroll_place hne]
  have hadv := @snap_advances (v.margin k) (v.st k) (v.asked k lines.toInt)
    (v.place k v.visibleOrigin) (Int.natCast_nonneg _) margin_le (Int.natCast_nonneg _)
    (Int.ofNat_le.mpr hbehind)
  rw [← landing_eq] at hadv
  rw [GoesOn, ← Int.natCast_eq_zero (n := v.st k), ← hadv]
  omega

/-! ### Moving the text -/

theorem Laid.rolledAfter_le (h : v.Laid k) (dir : ScrollDir) (delta : Nat) :
    v.rolledAfter k dir delta + v.scroll.geo.screenbufSize ≤ k.vramSize := by
  obtain ⟨-, -, -, -, hfits, hend⟩ := h.sizes
  have hrolled := h.rolled
  rw [rolledAfter.eq_def]
  cases dir with
  | up =>
    dsimp only
    split <;> omega
  | down =>
    dsimp only
    split <;> omega

theorem Laid.moved (h : v.Laid k) {t b lines : Nat} {dir : ScrollDir} {r : Scrolled}
    (hr : vgaconScrollRegion k g v.scroll t b dir lines = some r) :
    (v.moved k dir (lines * v.scroll.geo.sizeRow) r).Sound k := by
  obtain ⟨-, -, -, hmoved⟩ := vgaconScrollRegion_some hr
  have hinside := scrollTo_inside (lines * v.scroll.geo.sizeRow) dir h.fits.fits h.base h.scrEnd
  have hend : v.scroll.geo.scrEnd ≤ k.vramEnd := by
    rw [h.scrEnd]
    exact h.end_le
  refine Laid.shown ⟨⟨h.fits.rows, h.fits.sizeRow, h.fits.size, h.fits.fits⟩, ?_, ?_, ?_, ?_⟩ rfl
  · rw [hmoved]
    exact hinside.1
  · rw [hmoved]
    exact hinside.2 hend
  · rw [hmoved]
    rfl
  · exact h.rolledAfter_le dir _

theorem Sound.scrollRegion (h : v.Sound k) (t b : Nat) (dir : ScrollDir) (lines : Nat) :
    (v.scrollRegion k g t b dir lines).Sound k := by
  rw [View.scrollRegion]
  split
  · exact h
  · have hshown : (if v.scroll.geo.origin ≠ v.visibleOrigin then v.vgaconScroll k 0 else v).Sound k := by
      split
      · exact h.scroll_zero
      · exact h
    generalize (if v.scroll.geo.origin ≠ v.visibleOrigin then v.vgaconScroll k 0 else v) = w at *
    dsimp only
    split
    · exact hshown
    · next r hr => exact hshown.toLaid.moved hr

theorem Sound.setOrigin (h : v.Sound k) {s : Scroll} (hs : Fits k s.geo) :
    (v.setOrigin k g s).Sound k := by
  rw [View.setOrigin.eq_def]
  split
  · exact h
  · next origin horigin =>
    have hbase : origin = k.vramBase := by
      rw [vgaconSetOrigin] at horigin
      split at horigin
      · cases horigin
      · exact (Option.some.inj horigin).symm
    have hfits := hs.fits
    have hle := k.base_le
    rw [hbase]
    refine Laid.shown ⟨⟨hs.rows, hs.sizeRow, hs.size, hs.fits⟩, Nat.le_refl _, ?_, rfl, ?_⟩ rfl
    · rw [Card.vramSize] at hfits
      change k.vramBase + s.geo.screenbufSize ≤ k.vramEnd
      omega
    · change 0 + s.geo.screenbufSize ≤ k.vramSize
      omega

theorem Sound.step (h : v.Sound k) {o : Op k} (hinside : (v.step k g o).Inside k) :
    (v.step k g o).Sound k := by
  cases o with
  | scroll lines => exact h.scroll hinside
  | scrollRegion t b dir lines => exact h.scrollRegion t b dir lines
  | setOrigin s fits => exact h.setOrigin fits

/-- **One step** keeps the window inside and follows the count exactly if it meets what it has to
meet. -/
theorem Sound.step_iff (h : v.Sound k) (o : Op k) :
    ((v.step k g o).Inside k ∧ v.Follows k (v.step k g o) o) ↔ v.Meets k o := by
  cases o with
  | scroll lines =>
    by_cases hzero : lines = 0
    · subst hzero
      refine iff_of_true ⟨h.scroll_zero.inside, ?_, fun hno => absurd hno (by decide)⟩
        ⟨fun hne => absurd rfl hne, fun hno => absurd hno (by decide)⟩
      exact fun _ => congrArg (fun s : Scroll => s.geo.origin) (vgaconScroll_scroll 0).symm
    · refine and_congr ((h.scroll_inside hzero).trans ⟨fun hno _ => hno, fun hno => hno hzero⟩) ?_
      refine (and_iff_right fun hyes => absurd hyes hzero).trans (forall_congr' fun _ => ?_)
      change _ ∨ (v.vgaconScroll k lines).visibleOrigin =
        (v.vgaconScroll k lines).scroll.geo.origin ↔ _
      rw [vgaconScroll_scroll]
      exact h.goesOn_iff hzero
  | scrollRegion t b dir lines =>
    exact iff_of_true ⟨(h.scrollRegion t b dir lines).inside, trivial⟩ trivial
  | setOrigin s fits => exact iff_of_true ⟨(h.setOrigin fits).inside, trivial⟩ trivial

/-- A count that does not go on takes the view back, or leaves it where it is however often it is
given. -/
theorem Sound.stuck (h : v.Sound k) {lines : BitVec 32} (hne : lines ≠ 0)
    (hno : ¬ v.GoesOn k lines.toInt) :
    v.behind k < (v.vgaconScroll k lines).behind k ∨
      (v.vgaconScroll k lines).visibleOrigin = v.visibleOrigin := by
  have hback := mt (h.goesOn_iff hne).mp hno
  have hle := @landing_le k v lines.toInt
  have hbehind := h.behind
  rw [not_or] at hback
  rw [View.behind, View.behind, vgaconScroll_st, vgaconScroll_place, h.scroll_place hne] at *
  by_cases hplace : v.landing k lines.toInt = v.place k v.visibleOrigin
  · right
    rw [vgaconScroll_visible hne, hplace, place, ringAddr_ringPos h.ring h.ring_spec.1]
    exact Nat.add_sub_cancel' h.inside.1
  · left
    omega

/-- A count that leaves the window where it is changes nothing, however often it is given. -/
theorem run_stuck {lines : BitVec 32} (hmem : v.memTop = (v.visibleOrigin - k.vramBase) / 2)
    (hstuck : (v.vgaconScroll k lines).visibleOrigin = v.visibleOrigin) (n : Nat) :
    Lib.run (View.step k g) v (List.replicate n (Op.scroll lines)) = v := by
  have htop : (v.vgaconScroll k lines).memTop = v.memTop := by
    rw [hmem, ← hstuck]
    rfl
  have hsame : v.vgaconScroll k lines = v := by
    have hscroll := @vgaconScroll_scroll k v lines
    have hrolled := @vgaconScroll_rolledOver k v lines
    generalize v.vgaconScroll k lines = v' at *
    cases v'
    cases v
    simp only at *
    subst hscroll hrolled hstuck htop
    rfl
  induction n with
  | zero => rfl
  | succ n ih =>
    rw [List.replicate_succ, run_cons]
    exact (congrArg (fun w => Lib.run (View.step k g) w _) hsame).trans ih

theorem Sound.behind_eq_zero (h : v.Sound k) :
    v.behind k = 0 ↔ v.visibleOrigin = v.scroll.geo.origin := by
  rw [h.shows_iff h.inside.1 h.ring, View.behind, Nat.sub_eq_zero_iff_le]
  exact ⟨fun hle => Nat.le_antisymm h.behind hle, fun heq => heq.ge⟩

theorem Sound.run (h : v.Sound k) {os : List (Op k)}
    (hmeets : Along (View.step k g) (fun v o => v.Meets k o) v os) :
    (Lib.run (View.step k g) v os).Sound k :=
  Along.invariant (fun _ o h hmeets => h.step (h.step_iff o |>.mpr hmeets).1) h hmeets

/-- **Enough positive counts** show the screen. -/
theorem Sound.returns (h : v.Sound k) {counts : List (BitVec 32)} (hpos : ∀ n ∈ counts, 0 < n.toInt)
    (hmeets : Along (View.step k g) (fun v o => v.Meets k o) v (counts.map .scroll))
    (henough : v.behind k ≤ counts.length) :
    (Lib.run (View.step k g) v (counts.map .scroll)).behind k = 0 := by
  induction counts generalizing v with
  | nil => exact Nat.le_zero.mp henough
  | cons n counts ih =>
    obtain ⟨hinside, -, hnear⟩ := (h.step_iff (g := g) _).mpr hmeets.1
    have hnext := h.step hinside
    refine ih hnext (fun m hm => hpos m (List.mem_cons_of_mem n hm)) hmeets.2 ?_
    rcases hnear (hpos n List.mem_cons_self) with hnear | hshown
    · rw [List.length_cons] at henough
      exact Nat.le_of_lt_succ (Nat.lt_of_lt_of_le hnear henough)
    · rw [hnext.behind_eq_zero.mpr hshown]
      exact Nat.zero_le _

end View

/-- **Looking back.**  Along a run of the console in front, whatever has been scrolled and in
whichever direction the text has started again at an end of the video memory, the window stays
inside the video memory, the count 0 shows the screen, and every positive count takes the view
nearer to the screen until it shows it, if and only if every step meets what it has to meet.  After
such a run as many positive counts that meet it as the view is bytes behind show the screen. -/
theorem scrollback_iff (k : Card) (g : Globals) (v : View) (h : v.Sound k) (os : List (View.Op k)) :
    (Along (View.step k g)
        (fun v o => (v.step k g o).Inside k ∧ v.Follows k (v.step k g o) o) v os ↔
      Along (View.step k g) (fun v o => v.Meets k o) v os) ∧
    (Along (View.step k g) (fun v o => v.Meets k o) v os →
      ∀ counts : List (BitVec 32), (∀ n ∈ counts, 0 < n.toInt) →
        Along (View.step k g) (fun v o => v.Meets k o) (run (View.step k g) v os)
            (counts.map .scroll) →
          (run (View.step k g) v os).behind k ≤ counts.length →
            (run (View.step k g) v (os ++ counts.map .scroll)).visibleOrigin =
              (run (View.step k g) v (os ++ counts.map .scroll)).scroll.geo.origin) := by
  constructor
  · exact along_congr (I := fun v => v.Sound k) (fun _ o hv hkept => hv.step hkept.1)
      (fun _ o hv => hv.step_iff o) h
  · intro hmeets counts hpos hcounts henough
    have hrun := h.run hmeets
    rw [run_append, ← (hrun.run hcounts).behind_eq_zero]
    exact hrun.returns hpos hcounts henough

/-- A console of 25 rows and 80 columns at the start of the video memory. -/
def freshView : View where
  scroll := ⟨fun _ => blankCell, ⟨80, 25, 160, 0xb8000, 0xb8000 + 4000, 0x1000, 4000⟩, 0xb8000,
    blankCell⟩
  visibleOrigin := 0xb8000
  rolledOver := 0
  memTop := 0

theorem freshView_sound : freshView.Sound colorCard :=
  View.Laid.shown ⟨⟨by decide, by decide, rfl, by decide⟩, by decide, by decide, rfl, by decide⟩ rfl

/-- Twice eleven lines are scrolled out of the screen; the view goes back by twelve lines, on
by twelve, and to the screen. -/
theorem scrollback_fresh :
    let os : List (View.Op colorCard) :=
      [.scrollRegion 0 25 .up 11, .scrollRegion 0 25 .up 11, .scroll (-12), .scroll 12, .scroll 0]
    Along (View.step colorCard textGlobals)
        (fun v o => (v.step colorCard textGlobals o).Inside colorCard ∧
          v.Follows colorCard (v.step colorCard textGlobals o) o) freshView os ↔
      Along (View.step colorCard textGlobals) (fun v o => v.Meets colorCard o) freshView os :=
  (scrollback_iff colorCard textGlobals freshView freshView_sound _).1

/-- **The window past the end, and views that go the wrong way or nowhere.**  The text starts again
at the end of the video memory, 128 bytes past the start of a row, and then at its start: a look back
to the very beginning and 151 lines on ends 32 bytes past the video memory.  The bytes of 13421773
lines are too many for an `int`, and the view goes back to the beginning.  One line on from the
beginning, and the view is still at the beginning. -/
theorem scrollback_wrong :
    let around : List (View.Op colorCard) :=
      [.scrollRegion 0 25 .down 1, .scrollRegion 0 25 .up 1, .scrollRegion 0 25 .up 4,
        .scroll (-1000), .scroll 151]
    let up : List (View.Op colorCard) :=
      [.scrollRegion 0 25 .up 11, .scrollRegion 0 25 .up 11, .scroll (-12)]
    let past := run (View.step colorCard textGlobals) freshView around
    let back := run (View.step colorCard textGlobals) freshView up
    past.visibleOrigin + 4000 = colorCard.vramEnd + 32 ∧ ¬ past.Inside colorCard ∧
      back.behind colorCard = 12 * 160 ∧
      (back.vgaconScroll colorCard 13421773).behind colorCard = 22 * 160 ∧
      let first := back.vgaconScroll colorCard (-1000)
      first.behind colorCard = 22 * 160 ∧
        ∀ n, (run (View.step colorCard textGlobals) first
          (List.replicate n (View.Op.scroll 1))).behind colorCard = 22 * 160 := by
  intro around up past back
  have hpast : past.visibleOrigin + 4000 = colorCard.vramEnd + 32 := by decide +kernel
  have hsize : past.scroll.geo.screenbufSize = 4000 := by decide +kernel
  have hfirst : (back.vgaconScroll colorCard (-1000)).behind colorCard = 22 * 160 := by
    decide +kernel
  refine ⟨hpast, fun hinside => ?_, by decide +kernel, by decide +kernel, hfirst, fun n => ?_⟩
  · have hend := hinside.2
    rw [hsize, hpast] at hend
    exact absurd hend (by decide)
  · have hstuck : ((back.vgaconScroll colorCard (-1000)).vgaconScroll colorCard 1).visibleOrigin =
        (back.vgaconScroll colorCard (-1000)).visibleOrigin := by decide +kernel
    have hmem : (back.vgaconScroll colorCard (-1000)).memTop =
        ((back.vgaconScroll colorCard (-1000)).visibleOrigin - colorCard.vramBase) / 2 := rfl
    rw [View.run_stuck hmem hstuck n]
    exact hfirst

end LinuxConsole.Vga

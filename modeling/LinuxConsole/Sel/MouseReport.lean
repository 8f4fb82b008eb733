import Mathlib.Data.List.TakeWhile
import LinuxConsole.Sel.Bounds

/-!
# Mouse reports

`mouse_report` sends the button and the cell as single bytes at the end of a
string that ends at its first null byte.  A column or a row from 223 on does not
fit: at 223 the byte is null and cuts the report short, beyond that it wraps.
`readReport` is how a program reads the six bytes, `Reported` says that a console
reports every button on every cell so that it can be read, and **`reported_iff`**
that this holds of exactly the consoles with at most 223 columns and rows.
-/

namespace LinuxConsole

/-- `TIOCL_SELBUTTONMASK`. -/
def tioclSelbuttonmask : Nat := 15

/-- The first column or row whose byte does not fit: `'!' + n` is 256. -/
def mouseLimit : Nat := 223

/-- The button, column and row of the six bytes of a report. -/
def readReport : List Nat → Option (Nat × Nat × Nat)
  | [27, 91, 77, b, x, y] => some (b - 32, x - 33, y - 33)
  | _ => none

/-- **Every report of the console can be read**: it queues six bytes, they are
read as the button and the cell, and different reports are queued differently. -/
structure Reported (s : Con) : Prop where
  six : ∀ butt ≤ tioclSelbuttonmask, ∀ mrx < s.geo.cols, ∀ mry < s.geo.rows,
    ∃ bytes, (mouseReport s butt mrx mry).queue = s.queue ++ bytes ∧ bytes.length = 6 ∧
      readReport bytes = some (butt, mrx, mry)
  apart : ∀ butt ≤ tioclSelbuttonmask, ∀ mrx < s.geo.cols, ∀ mry < s.geo.rows,
    ∀ butt' ≤ tioclSelbuttonmask, ∀ mrx' < s.geo.cols, ∀ mry' < s.geo.rows,
      (mouseReport s butt mrx mry).queue = (mouseReport s butt' mrx' mry').queue →
        (butt, mrx, mry) = (butt', mrx', mry')

/-- A report whose bytes fit is queued whole. -/
theorem mouseReport_queue (s : Con) {butt mrx mry : Nat} (hbutt : butt ≤ tioclSelbuttonmask)
    (hx : mrx < mouseLimit) (hy : mry < mouseLimit) :
    (mouseReport s butt mrx mry).queue =
      s.queue ++ [27, 91, 77, 32 + butt, 33 + mrx, 33 + mry] := by
  have hb : (32 + butt) % 256 = 32 + butt :=
    Nat.mod_eq_of_lt (by rw [tioclSelbuttonmask] at hbutt; omega)
  have hx' : (33 + mrx) % 256 = 33 + mrx := Nat.mod_eq_of_lt (by rw [mouseLimit] at hx; omega)
  have hy' : (33 + mry) % 256 = 33 + mry := Nat.mod_eq_of_lt (by rw [mouseLimit] at hy; omega)
  have hbytes : (27 :: chars "[M" ++ [32 + butt, 33 + mrx, 33 + mry]).takeWhile (· ≠ 0) =
      [27, 91, 77, 32 + butt, 33 + mrx, 33 + mry] := by
    refine List.takeWhile_eq_self_iff.mpr fun b hb => decide_eq_true ?_
    simp only [chars, List.mem_append, List.mem_cons] at hb
    rcases hb with (rfl | hb) | rfl | rfl | rfl | hb
    · decide
    · revert hb b
      decide
    all_goals first | omega | exact absurd hb (List.not_mem_nil)
  rw [mouseReport, hb, hx', hy', hbytes]
  rfl

/-- **A null byte cuts the report short.** -/
theorem mouseReport_short (s : Con) {butt mrx mry : Nat}
    (h : (33 + mrx) % 256 = 0 ∨ (33 + mry) % 256 = 0) :
    ∃ bytes, (mouseReport s butt mrx mry).queue = s.queue ++ bytes ∧ bytes.length < 6 := by
  refine ⟨_, rfl, ?_⟩
  have hle := (List.takeWhile_sublist (· ≠ 0)
    (l := 27 :: chars "[M" ++ [(32 + butt) % 256, (33 + mrx) % 256, (33 + mry) % 256])).length_le
  refine lt_of_le_of_ne hle fun hlen => ?_
  have hself := List.takeWhile_eq_self_iff.mp
    ((List.takeWhile_sublist (· ≠ 0)).eq_of_length hlen)
  rcases h with h | h
  · exact absurd (hself ((33 + mrx) % 256) (by simp)) (by rw [h]; decide)
  · exact absurd (hself ((33 + mry) % 256) (by simp)) (by rw [h]; decide)

/-- **The consoles whose reports can be read** are those with at most 223
columns and rows. -/
theorem reported_iff (s : Con) (hcols : 0 < s.geo.cols) (hrows : 0 < s.geo.rows) :
    Reported s ↔ s.geo.cols ≤ mouseLimit ∧ s.geo.rows ≤ mouseLimit := by
  constructor
  · intro h
    have hcut : ∀ mrx < s.geo.cols, ∀ mry < s.geo.rows,
        ¬((33 + mrx) % 256 = 0 ∨ (33 + mry) % 256 = 0) := by
      intro mrx hx mry hy hzero
      obtain ⟨bytes, hqueue, hsix, _⟩ := h.six 0 (Nat.zero_le _) mrx hx mry hy
      obtain ⟨short, hqueue', hlt⟩ := @mouseReport_short s 0 mrx mry hzero
      have heq := List.append_cancel_left (hqueue.symm.trans hqueue')
      rw [heq] at hsix
      omega
    constructor
    · by_contra hbig
      exact hcut mouseLimit (by omega) 0 hrows (.inl rfl)
    · by_contra hbig
      exact hcut 0 hcols mouseLimit (by omega) (.inr rfl)
  · rintro ⟨hx, hy⟩
    refine ⟨fun butt hb mrx hmx mry hmy => ?_, fun butt hb mrx hmx mry hmy butt' hb' mrx' hmx'
      mry' hmy' heq => ?_⟩
    · refine ⟨_, mouseReport_queue s hb (by omega) (by omega), rfl, ?_⟩
      simp only [readReport, Nat.add_sub_cancel_left]
    · rw [mouseReport_queue s hb (by omega) (by omega),
        mouseReport_queue s hb' (by omega) (by omega)] at heq
      have hbytes := List.append_cancel_left heq
      simp only [List.cons.injEq] at hbytes
      obtain ⟨_, _, _, h₁, h₂, h₃, _⟩ := hbytes
      rw [Nat.add_left_cancel h₁, Nat.add_left_cancel h₂, Nat.add_left_cancel h₃]

/-- A console of 80 columns and 25 rows. -/
theorem reported_iff_boot : Reported bootCon :=
  (reported_iff bootCon (by decide) (by decide)).mpr (by decide)

/-- A console of 224 columns, which `vc_resize` accepts. -/
def wideCon : Con := (vcResize dummyCon bootCon 224 0 (some 0x9000)).1

/-- **In the last column the report ends after the button.** -/
theorem wideCon_not_reported :
    (vcResize dummyCon bootCon 224 0 (some 0x9000)).2 = 0 ∧ ¬Reported wideCon := by
  have hcols : wideCon.geo.cols = 224 := by decide +kernel
  have hrows : wideCon.geo.rows = 25 := by decide +kernel
  refine ⟨by decide +kernel, fun h => ?_⟩
  obtain ⟨bytes, hqueue, hlen, _⟩ :=
    h.six 0 (by decide) 223 (by rw [hcols]; decide) 0 (by rw [hrows]; decide)
  obtain ⟨short, hqueue', hlt⟩ := @mouseReport_short wideCon 0 223 0
    (.inl (by decide : (33 + 223) % 256 = 0))
  rw [List.append_cancel_left (hqueue.symm.trans hqueue')] at hlen
  omega

end LinuxConsole

import LinuxConsole.Jscal.Stages
import Mathlib.Algebra.Order.Floor.Ring
import Mathlib.Tactic.IntervalCases
import Mathlib.Tactic.Linarith
import Mathlib.Tactic.Positivity

/-!
# The slopes of a calibration

The correction is a broken line whose slopes are made of two differences of what was measured,
and nothing compares the positions before they are used.  **`calibrate_sound_iff`**: the slopes
exist, and fit, exactly if the course of the calibration does not come to its end or, in every
axis, each value seen at a position is below each seen at the next.
-/

namespace LinuxConsole.Jscal

open Lib

/-! ### Rounding -/

theorem le_rint {q : ℚ} {n : Int} (h : (n : ℚ) ≤ q) : n ≤ rint q := by
  have hfloor : n ≤ ⌊q⌋ := Int.le_floor.mpr h
  rw [rint]
  split_ifs <;> omega

theorem rint_le {q : ℚ} {n : Int} (h : q ≤ n) : rint q ≤ n := by
  have hfloor : ⌊q⌋ ≤ n := by exact_mod_cast (Int.floor_le q).trans h
  by_cases hdown : q - ⌊q⌋ < 1 / 2
  · rw [rint, if_pos hdown]
    exact hfloor
  · -- `q` is not its own floor, so neither is `n`
    have hlt : (⌊q⌋ : ℚ) < n := by linarith
    have hnext : ⌊q⌋ + 1 ≤ n := by exact_mod_cast hlt
    rw [rint]
    split_ifs <;> omega

theorem fits_slope {d : Int} (h : 0 < d) : Fits 32 (slope d) := by
  have hd : (1 : ℚ) ≤ d := by exact_mod_cast h
  have hle : 32767 / (d : ℚ) ≤ 32767 := div_le_self (by norm_num) hd
  have hpos : 0 ≤ 32767 / (d : ℚ) := by positivity
  have hup : rint ((32767 / (d : ℚ)) * 16384) ≤ 536854528 := by
    apply rint_le
    push_cast
    linarith
  have hdown : 0 ≤ rint ((32767 / (d : ℚ)) * 16384) := by
    apply le_rint
    push_cast
    linarith
  rw [slope, if_neg (by omega)]
  constructor <;> norm_num <;> omega

/-! ### What the joystick says -/

theorem fits_signExtend (v : BitVec 16) : Fits 16 (v.signExtend 32).toInt := by
  rw [BitVec.toInt_signExtend_of_le (by omega)]
  exact ⟨BitVec.le_toInt v, BitVec.toInt_lt⟩

variable {clock : Clock} {M : Shifts} {polls : List Ready} {axes : Nat}

/-- An event changes an axis to a value of 16 bits, if at all. -/
theorem axis_waitForEvent (js : JsInfo) (r : Ready) (i : Nat) :
    (waitForEvent M js r).axis i = js.axis i ∨
      ∃ v : BitVec 16, (waitForEvent M js r).axis i = v.signExtend 32 := by
  have hevent : ∀ ev : JsEvent, (js.event M ev).axis i = js.axis i ∨
      ∃ v : BitVec 16, (js.event M ev).axis i = v.signExtend 32 := by
    intro ev
    rw [event_axis]
    split_ifs
    · exact Or.inr ⟨ev.value, rfl⟩
    · exact Or.inl rfl
  cases r with
  | timeout => exact Or.inl rfl
  | ready ev key =>
    cases ev with
    | none => cases key <;> exact Or.inl rfl
    | some ev => cases key <;> exact hevent ev

theorem fits_valueAt (a n : Nat) : Fits 16 (valueAt M polls a n) := by
  induction n with
  | zero =>
    change Fits 16 (BitVec.toInt 0)
    decide
  | succ n ih =>
    cases hdrop : polls.drop n with
    | nil =>
      have hlast := length_le_of_drop hdrop
      rwa [valueAt, jsAt, List.take_of_length_le (by omega), ← List.take_of_length_le hlast]
    | cons r l =>
      rw [valueAt, jsAt_succ hdrop]
      rcases axis_waitForEvent (jsAt M polls n) r a with hsame | ⟨v, hv⟩
      · rwa [hsame]
      · rw [hv]
        exact fits_signExtend v

/-! ### What is seen -/

theorem bind_eq_ok {c : Except Walk Walk} {f : Walk → Except Walk Walk} {w' : Walk} :
    c >>= f = .ok w' ↔ ∃ w, c = .ok w ∧ f w = .ok w' := by
  cases c with
  | error w => exact ⟨fun h => (nomatch h), fun ⟨_, h, _⟩ => (nomatch h)⟩
  | ok w => exact ⟨fun h => ⟨w, rfl, h⟩, fun ⟨_, h, hf⟩ => by cases h; exact hf⟩

theorem until_held {w w' : Walk} {p : Nat → Bool} (h : w.until polls p = .ok w') :
    w'.held = w.held := by
  rw [Walk.until] at h
  split at h <;> cases h
  rfl

theorem through_held {w w' : Walk} {L : Timed} (h : w.through clock polls L = .ok w') :
    w'.held = w.held := by
  rw [Walk.through] at h
  dsimp only at h
  split at h <;> cases h
  rfl

/-- A place that is held has been seen, and the others are as they were. -/
theorem hold_held {w w' : Walk} {place : Nat × Nat} (h : w.hold clock M polls place = .ok w') :
    ∃ n k, w'.held = Function.update w.held place (seenFrom M polls place.1 n k) := by
  obtain ⟨w₁, hfirst, h⟩ := bind_eq_ok.mp h
  obtain ⟨w₂, hsecond, h⟩ := bind_eq_ok.mp h
  obtain ⟨w₃, hthrough, h⟩ := bind_eq_ok.mp h
  cases h
  rw [through_held hthrough, until_held hsecond, until_held hfirst]
  exact ⟨_, _, rfl⟩

theorem foldlM_held {ps : List (Nat × Nat)} : ∀ {w w' : Walk},
    ps.foldlM (Walk.hold clock M polls) w = .ok w' → ∀ q,
      (q ∈ ps ∨ ∃ n k, w.held q = seenFrom M polls q.1 n k) →
        ∃ n k, w'.held q = seenFrom M polls q.1 n k := by
  induction ps with
  | nil =>
    intro w w' h q hq
    cases h
    exact hq.resolve_left List.not_mem_nil
  | cons p ps ih =>
    intro w w' h q hq
    rw [List.foldlM_cons] at h
    obtain ⟨w₁, hhold, h⟩ := bind_eq_ok.mp h
    obtain ⟨n, k, hheld⟩ := hold_held hhold
    refine ih h q ?_
    by_cases hplace : q = p
    · rw [hheld, hplace, Function.update_self]
      exact .inr ⟨n, k, rfl⟩
    · rw [hheld, Function.update_of_ne hplace]
      rcases hq with hq | hq
      · exact .inl ((List.mem_cons.mp hq).resolve_left hplace)
      · exact .inr hq

theorem mem_places {axes a p : Nat} (ha : a < axes) (hp : p < 3) : (a, p) ∈ places axes :=
  List.mem_flatMap.mpr ⟨a, List.mem_range.mpr ha, List.mem_map.mpr ⟨p, List.mem_range.mpr hp, rfl⟩⟩

theorem course_held {w : Walk} (h : course clock M polls axes = .ok w) :
    ∀ q ∈ places axes, ∃ n k, w.held q = seenFrom M polls q.1 n k := by
  obtain ⟨_, -, h⟩ := bind_eq_ok.mp h
  obtain ⟨_, -, h⟩ := bind_eq_ok.mp h
  obtain ⟨_, -, h⟩ := bind_eq_ok.mp h
  obtain ⟨_, -, h⟩ := bind_eq_ok.mp h
  obtain ⟨_, -, h⟩ := bind_eq_ok.mp h
  exact fun q hq => foldlM_held h q (.inl hq)

/-! ### The slopes -/

/-- **The slopes of every axis exist**, and the four results fit in an `int`. -/
def Desk.Slopes (axes : Nat) (s : Desk) : Prop :=
  ∀ a < axes, 0 < (s.corda a 1).lo - (s.corda a 0).hi ∧ 0 < (s.corda a 2).lo - (s.corda a 1).hi ∧
    ∀ r ∈ solveBroken (s.corda a), Fits 32 r

/-- **The positions are in order**: each value seen at one is below each seen at the next. -/
def Walk.Ordered (axes : Nat) (w : Walk) : Prop :=
  ∀ a < axes, ∀ p < 2, ∀ x ∈ w.held (a, p), ∀ y ∈ w.held (a, p + 1), x < y

theorem Summarises.lt_iff {r r' : Range} {l l' : List Int} (h : Summarises r l)
    (h' : Summarises r' l') : r.hi < r'.lo ↔ ∀ x ∈ l, ∀ y ∈ l', x < y := by
  constructor
  · intro hlt x hx y hy
    have hxhi := (h.bounds x hx).2
    have hylo := (h'.bounds y hy).1
    omega
  · intro hall
    exact hall _ h.hi_mem _ h'.lo_mem

/-- At the end of the course the slopes exist if the positions are in order. -/
theorem Desk.At.slopes_iff {s : Desk} {w : Walk} (h : s.At M polls w)
    (hcourse : course clock M polls axes = .ok w) : s.Slopes axes ↔ w.Ordered axes := by
  have hheld := course_held hcourse
  have hsum : ∀ a < axes, ∀ p < 3, Summarises (s.corda a p) (w.held (a, p)) := by
    intro a ha p hp
    obtain ⟨n, k, hseen⟩ := hheld (a, p) (mem_places ha hp)
    exact h.corda (a, p) (by rw [hseen]; exact List.cons_ne_nil _ _)
  have happart : ∀ a < axes, ∀ p < 2, 0 < (s.corda a (p + 1)).lo - (s.corda a p).hi ↔
      ∀ x ∈ w.held (a, p), ∀ y ∈ w.held (a, p + 1), x < y := by
    intro a ha p hp
    rw [← (hsum a ha p (by omega)).lt_iff (hsum a ha (p + 1) (by omega))]
    omega
  constructor
  · intro hslopes a ha p hp
    obtain ⟨hlow, hhigh, -⟩ := hslopes a ha
    rw [← happart a ha p hp]
    interval_cases p
    · exact hlow
    · exact hhigh
  · intro hordered a ha
    have hlow := (happart a ha 0 (by omega)).mpr (hordered a ha 0 (by omega))
    have hhigh := (happart a ha 1 (by omega)).mpr (hordered a ha 1 (by omega))
    refine ⟨hlow, hhigh, fun r hr => ?_⟩
    -- the ends of the centre are values of 16 bits
    have hends : ∀ v ∈ w.held (a, 1), Fits 32 (rint (v : ℚ)) := by
      intro v hv
      obtain ⟨n, k, hseen⟩ := hheld (a, 1) (mem_places ha (by omega))
      rw [hseen, mem_seenFrom] at hv
      have hfits : Fits 16 v := by
        rcases hv with rfl | ⟨i, -, rfl⟩
        · exact fits_valueAt a n
        · exact fits_valueAt a (n + i)
      have heq : rint (v : ℚ) = v := le_antisymm (rint_le le_rfl) (le_rint le_rfl)
      rw [heq]
      constructor <;> norm_num [Fits] at hfits ⊢ <;> omega
    have hcentre := hsum a ha 1 (by omega)
    simp only [solveBroken, List.mem_cons, List.not_mem_nil, or_false] at hr
    rcases hr with rfl | rfl | rfl | rfl
    · exact hends _ hcentre.lo_mem
    · exact hends _ hcentre.hi_mem
    · exact fits_slope hlow
    · exact fits_slope hhigh

/-- **A calibration is sound**: if it has set a correction, the slopes exist. -/
def Sound (axes : Nat) (run : Except Halt Unit × Desk) : Prop :=
  run.1 = .ok () → run.2.Slopes axes

theorem ending_eq_ok {first last : Bool} {plan : Except Walk Walk} :
    ending first last plan = .ok () ↔ first = true ∧ last = true ∧ ∃ w, plan = .ok w := by
  cases first <;> cases last <;> cases plan <;> simp [ending]

/-- **A correction is sound exactly if the positions were in order**, for all events and
all readings of the clock. -/
theorem calibrate_sound_iff (clock : Clock) (M : Shifts) (axes : Nat) (first last : Bool)
    (corr : List Corr) (polls : List Ready) :
    Sound axes (calibration clock M axes first last corr polls) ↔
      (first = true → last = true →
        ∀ w, course clock M polls axes = .ok w → w.Ordered axes) := by
  have hgoes := calibration_goesThrough clock M polls axes first last corr
  rw [Sound, hgoes.status, ending_eq_ok]
  constructor
  · intro hsound hfirst hlast w hw
    exact ((hgoes.ends hfirst w hw).slopes_iff hw).mp (hsound ⟨hfirst, hlast, w, hw⟩)
  · rintro hordered ⟨hfirst, hlast, w, hw⟩
    exact ((hgoes.ends hfirst w hw).slopes_iff hw).mpr (hordered hfirst hlast w hw)

/-! ### A joystick that is not moved -/

/-- An event alone. -/
def happens (ev : JsEvent) : Ready := .ready (some ev) false

/-- A clock that is five seconds later whenever it is read. -/
def slowClock : Clock := fun n => ⟨5 * n, 0⟩

/-- The button is pushed three times, and the only axis stays where it is. -/
theorem calibrate_unmoved :
    ¬Sound 1 (calibration slowClock wrapping 1 true true [.zero]
      [.timeout, .timeout, .timeout, happens (press 0), happens (release 0), happens (press 0),
        happens (release 0), happens (press 0)]) := by
  intro h
  have hslopes := h (by decide +kernel) 0 (by decide)
  exact absurd hslopes.1 (by decide +kernel)

end LinuxConsole.Jscal

import LinuxConsole.Dev.Event
import Mathlib.Order.MinMax

/-!
# The filter of an axis

A joystick that lies still reports values that tremble.  `input_event` takes a new value that
is near the old one back towards it: closer than half the fuzz it is dropped, closer than the
fuzz it moves a quarter of the way, and closer than twice the fuzz half of the way.

**`filters_iff`**: the event is dropped or stores a value between the old one and the reported
one, except when the sums leave the range of `int`: when the bands around the old value do, or
when the weighted sum of a value inside them does.
-/

namespace LinuxConsole.Dev

/-! ### The condition -/

/-- `value` is in the band of a width around `old`. -/
def Near (old width value : Int) : Prop := old - width < value ∧ value < old + width

instance (old width value : Int) : Decidable (Near old width value) :=
  inferInstanceAs (Decidable (old - width < value ∧ value < old + width))

/-- The ends of a band are computed, the upper one only above the lower one. -/
def Fits (old width value : Int) : Prop :=
  IsInt (old - width) ∧ (Near old width value → IsInt (old + width))

instance (old width value : Int) : Decidable (Fits old width value) :=
  inferInstanceAs (Decidable (IsInt (old - width) ∧ (Near old width value → IsInt (old + width))))

/-- **The range is wide enough** for what is computed. -/
def Roomy (old fuzz value : Int) : Prop :=
  if Near old (shr fuzz 1) value then Fits old (shr fuzz 1) value
  else
    IsInt (shl fuzz 1) ∧ Fits old (shl fuzz 1) value ∧
      (Near old fuzz value → IsInt (old * 3) ∧ IsInt (old * 3 + value)) ∧
      (Near old (shl fuzz 1) value ∧ ¬Near old fuzz value → IsInt (old + value))

instance (old fuzz value : Int) : Decidable (Roomy old fuzz value) :=
  by delta Roomy; infer_instance

/-- The filter in unbounded arithmetic. -/
def filtered (old fuzz value : Int) : Option Int :=
  if Near old (shr fuzz 1) value then none
  else if Near old fuzz value then some (shr (old + shr (old * 3 + value) 2) 1)
  else if Near old (shl fuzz 1) value then some (shr (old + value) 1)
  else some value

/-! ### The bands -/

section Bands

variable {old width fuzz value : Int}

theorem within_eq (old : Int) (hwidth : 0 ≤ width) (hvalue : IsInt value) :
    within old width value =
      if Fits old width value then some (decide (Near old width value)) else none := by
  by_cases hlow : IsInt (old - width)
  · by_cases habove : old - width < value
    · by_cases hhigh : IsInt (old + width)
      · simp [within, int, Fits, Near, hlow, habove, hhigh]
      · have hbelow : value < old + width := by
          simp only [IsInt] at *
          omega
        simp [within, int, Fits, Near, hlow, habove, hhigh, hbelow]
    · simp [within, int, Fits, Near, hlow, habove]
  · simp [within, int, Fits, hlow]

theorem quarter_eq : quarter old value =
    if IsInt (old * 3) ∧ IsInt (old * 3 + value) then some (shr (old * 3 + value) 2) else none := by
  by_cases htriple : IsInt (old * 3)
  · by_cases hsum : IsInt (old * 3 + value)
    · simp [quarter, int, htriple, hsum]
    · simp [quarter, int, htriple, hsum]
  · simp [quarter, int, htriple]

theorem half_eq : half old value =
    if IsInt (old + value) then some (shr (old + value) 1) else none := by
  by_cases hsum : IsInt (old + value)
  · simp [half, int, hsum]
  · simp [half, int, hsum]

theorem shr_one_bounds (hfuzz : 0 < fuzz) : 0 ≤ shr fuzz 1 ∧ shr fuzz 1 ≤ fuzz := by
  rw [shr, Int.shiftRight_eq_div_pow]
  omega

theorem shl_one_nonneg (hfuzz : 0 < fuzz) : 0 ≤ shl fuzz 1 := by
  rw [shl, Int.shiftLeft_eq]
  omega

theorem Fits.of_twice (h : Fits old (shl fuzz 1) value) (hold : IsInt old) (hvalue : IsInt value)
    (hwidth : 0 ≤ width) (hle : width ≤ fuzz) : Fits old width value := by
  simp only [Fits, Near, IsInt, shl, Int.shiftLeft_eq] at *
  omega

/-- A value that is moved a quarter of the way from the second band is an `int` in the twofold
band, which fits for it as for the value itself, and its sum with the old one does. -/
theorem quarter_fits (hnear : Near old fuzz value)
    (hroom : IsInt (old * 3) ∧ IsInt (old * 3 + value)) :
    IsInt (shr (old * 3 + value) 2) ∧ Near old (shl fuzz 1) (shr (old * 3 + value) 2) ∧
      IsInt (old + shr (old * 3 + value) 2) ∧
      (Fits old (shl fuzz 1) (shr (old * 3 + value) 2) ↔ Fits old (shl fuzz 1) value) := by
  simp only [IsInt, Near, Fits, shr, shl, Int.shiftRight_eq_div_pow,
    Int.shiftLeft_eq] at *
  omega

/-! ### The filter -/

theorem defuzz_half (hfuzz : 0 < fuzz) (hvalue : IsInt value)
    (hhalf : Near old (shr fuzz 1) value) :
    defuzz old fuzz value =
      if Roomy old fuzz value then some (filtered old fuzz value) else none := by
  have hroomy : Roomy old fuzz value ↔ Fits old (shr fuzz 1) value := by
    rw [Roomy, if_pos hhalf]
  rw [defuzz, within_eq old (shr_one_bounds hfuzz).1 hvalue, filtered, if_pos hhalf]
  by_cases hfits : Fits old (shr fuzz 1) value
  · simp [hfits, hhalf, hroomy]
  · simp [hfits, hroomy]

/-- A value between the innermost band and the second one: what is computed for it. -/
theorem roomy_near (hfuzz : 0 < fuzz) (hold : IsInt old) (hvalue : IsInt value)
    (hhalf : ¬Near old (shr fuzz 1) value) (hnear : Near old fuzz value) :
    Roomy old fuzz value ↔ Fits old (shr fuzz 1) value ∧ Fits old fuzz value ∧
      (IsInt (old * 3) ∧ IsInt (old * 3 + value)) ∧ IsInt (shl fuzz 1) ∧
      Fits old (shl fuzz 1) (shr (old * 3 + value) 2) := by
  have hbounds := shr_one_bounds hfuzz
  simp only [Roomy, if_neg hhalf, hnear, not_true, and_false, false_implies, and_true,
    true_implies]
  constructor
  · rintro ⟨htwice, hfits, hroom⟩
    exact ⟨hfits.of_twice hold hvalue hbounds.1 hbounds.2,
      hfits.of_twice hold hvalue hfuzz.le le_rfl, hroom, htwice,
      (quarter_fits hnear hroom).2.2.2.mpr hfits⟩
  · rintro ⟨-, -, hroom, htwice, hfits⟩
    exact ⟨htwice, (quarter_fits hnear hroom).2.2.2.mp hfits, hroom⟩

theorem defuzz_near (hfuzz : 0 < fuzz) (hold : IsInt old) (hvalue : IsInt value)
    (hhalf : ¬Near old (shr fuzz 1) value) (hnear : Near old fuzz value) :
    defuzz old fuzz value =
      if Roomy old fuzz value then some (filtered old fuzz value) else none := by
  have hroomy := roomy_near hfuzz hold hvalue hhalf hnear
  rw [defuzz, within_eq old (shr_one_bounds hfuzz).1 hvalue, within_eq old hfuzz.le hvalue,
    quarter_eq, filtered, if_neg hhalf, if_pos hnear]
  by_cases hfitsHalf : Fits old (shr fuzz 1) value
  · by_cases hfits : Fits old fuzz value
    · by_cases hroom : IsInt (old * 3) ∧ IsInt (old * 3 + value)
      · by_cases htwice : IsInt (shl fuzz 1)
        · obtain ⟨hmoved, hnear', hlast, -⟩ := quarter_fits hnear hroom
          have hwithin := within_eq old (shl_one_nonneg hfuzz) hmoved
          by_cases hfits' : Fits old (shl fuzz 1) (shr (old * 3 + value) 2)
          · simp [*, int, half_eq]
          · simp [*, int]
        · simp [*, int]
      · simp [*]
    · simp [*]
  · simp [*]

theorem roomy_far (hfuzz : 0 < fuzz) (hold : IsInt old) (hvalue : IsInt value)
    (hhalf : ¬Near old (shr fuzz 1) value) (hnear : ¬Near old fuzz value) :
    Roomy old fuzz value ↔ Fits old (shr fuzz 1) value ∧ Fits old fuzz value ∧
      IsInt (shl fuzz 1) ∧ Fits old (shl fuzz 1) value ∧
      (Near old (shl fuzz 1) value → IsInt (old + value)) := by
  have hbounds := shr_one_bounds hfuzz
  simp only [Roomy, if_neg hhalf, hnear, not_false_iff, false_implies, and_true, true_and]
  constructor
  · rintro ⟨htwice, hfits, hsum⟩
    exact ⟨hfits.of_twice hold hvalue hbounds.1 hbounds.2,
      hfits.of_twice hold hvalue hfuzz.le le_rfl, htwice, hfits, hsum⟩
  · rintro ⟨-, -, hrest⟩
    exact hrest

theorem defuzz_far (hfuzz : 0 < fuzz) (hold : IsInt old) (hvalue : IsInt value)
    (hhalf : ¬Near old (shr fuzz 1) value) (hnear : ¬Near old fuzz value) :
    defuzz old fuzz value =
      if Roomy old fuzz value then some (filtered old fuzz value) else none := by
  have hroomy := roomy_far hfuzz hold hvalue hhalf hnear
  have hwithin := within_eq old (shl_one_nonneg hfuzz) hvalue
  rw [defuzz, within_eq old (shr_one_bounds hfuzz).1 hvalue, within_eq old hfuzz.le hvalue,
    filtered, if_neg hhalf, if_neg hnear]
  by_cases hfitsHalf : Fits old (shr fuzz 1) value
  · by_cases hfits : Fits old fuzz value
    · by_cases htwice : IsInt (shl fuzz 1)
      · by_cases hfits' : Fits old (shl fuzz 1) value
        · by_cases hnear' : Near old (shl fuzz 1) value
          · by_cases hsum : IsInt (old + value)
            · simp [*, int, half_eq]
            · simp [*, int, half_eq]
          · simp [*, int]
        · simp [*, int]
      · simp [*, int]
    · simp [*]
  · simp [*]

/-- **The filter computes what it means to** if the range is wide enough for it, and overflows
otherwise. -/
theorem defuzz_eq (hfuzz : 0 < fuzz) (hold : IsInt old) (hvalue : IsInt value) :
    defuzz old fuzz value =
      if Roomy old fuzz value then some (filtered old fuzz value) else none := by
  by_cases hhalf : Near old (shr fuzz 1) value
  · exact defuzz_half hfuzz hvalue hhalf
  · by_cases hnear : Near old fuzz value
    · exact defuzz_near hfuzz hold hvalue hhalf hnear
    · exact defuzz_far hfuzz hold hvalue hhalf hnear

/-- What is stored is on the way from the old value to the reported one. -/
theorem filtered_between {v : Int} (h : filtered old fuzz value = some v) :
    min old value ≤ v ∧ v ≤ max old value := by
  rw [filtered] at h
  split_ifs at h
  · simp only [Option.some.injEq, shr, Int.shiftRight_eq_div_pow] at h
    omega
  · simp only [Option.some.injEq, shr, Int.shiftRight_eq_div_pow] at h
    omega
  · simp only [Option.some.injEq] at h
    omega

end Bands

/-! ### The event -/

variable (L : Limits) (dev : InputDev) (code : Nat) (value : Int)

/-- The device has the axis. -/
def InputDev.HasAxis : Prop := dev.evbit .abs ∧ code ≤ L.absMax ∧ dev.absbit code

/-- **What a filter does**: the event is dropped, or a value between the old one and the
reported one is stored and delivered. -/
def Filters : Prop :=
  ∃ dev', inputEvent L dev code value .abs = some dev' ∧ (dev' = dev ∨
    ∃ v, (min (dev.abs code) value ≤ v ∧ v ≤ max (dev.abs code) value) ∧
      dev' = { dev with abs := Function.update dev.abs code v }.deliver ⟨.abs, code, v⟩)

variable {L dev code value}

theorem inputEvent_of_not_hasAxis (h : ¬dev.HasAxis L code) :
    inputEvent L dev code value .abs = some dev := by
  rw [inputEvent]
  split
  · rfl
  · rename_i hbit
    have hcode : code > L.absMax ∨ !dev.absbit code := by
      simp only [InputDev.HasAxis, Limits.beyond] at *
      grind
    rw [switchOn, absEvent, if_pos hcode]
    rfl

theorem inputEvent_of_hasAxis (h : dev.HasAxis L code) (hfuzz : dev.absfuzz code ≠ 0)
    (value : Int) :
    inputEvent L dev code value .abs =
      match defuzz (dev.abs code) (dev.absfuzz code) value with
      | none => none
      | some none => some dev
      | some (some v) => (dev.setAbs code v).finish dev code .abs := by
  obtain ⟨hbit, hmax, hcode⟩ := h
  have hguard : ¬(code > L.absMax ∨ !dev.absbit code) := by
    simp [hcode, Nat.not_lt.mpr hmax]
  rw [inputEvent, if_neg (by simp [Limits.beyond, hbit]), switchOn, absEvent, if_neg hguard,
    if_pos hfuzz]
  rcases defuzz (dev.abs code) (dev.absfuzz code) value with _ | _ | v <;> rfl

theorem finish_setAbs (dev : InputDev) (code : Nat) (v : Int) :
    ∃ dev', (dev.setAbs code v).finish dev code .abs = some dev' ∧ (dev' = dev ∨
      dev' = { dev with abs := Function.update dev.abs code v }.deliver ⟨.abs, code, v⟩) := by
  rw [InputDev.setAbs]
  split
  · exact ⟨dev, rfl, Or.inl rfl⟩
  · exact ⟨_, rfl, Or.inr rfl⟩

/-- **Axis defuzzing is a filter exactly if the range is wide enough.** -/
theorem filters_iff (hfuzz : 0 < dev.absfuzz code) (hold : IsInt (dev.abs code))
    (hvalue : IsInt value) :
    Filters L dev code value ↔
      (dev.HasAxis L code → Roomy (dev.abs code) (dev.absfuzz code) value) := by
  by_cases haxis : dev.HasAxis L code
  · have hevent := inputEvent_of_hasAxis haxis hfuzz.ne' value
    rw [defuzz_eq hfuzz hold hvalue] at hevent
    by_cases hroomy : Roomy (dev.abs code) (dev.absfuzz code) value
    · refine ⟨fun _ _ => hroomy, fun _ => ?_⟩
      rw [if_pos hroomy] at hevent
      cases hv : filtered (dev.abs code) (dev.absfuzz code) value with
      | none =>
        rw [hv] at hevent
        exact ⟨dev, hevent, Or.inl rfl⟩
      | some v =>
        rw [hv] at hevent
        obtain ⟨dev', hfinish, hdev'⟩ := finish_setAbs dev code v
        refine ⟨dev', hevent.trans hfinish, ?_⟩
        rcases hdev' with hsame | hstored
        · exact Or.inl hsame
        · exact Or.inr ⟨v, filtered_between hv, hstored⟩
    · rw [if_neg hroomy] at hevent
      constructor
      · rintro ⟨dev', hsome, -⟩
        rw [hevent] at hsome
        cases hsome
      · intro hroom
        exact absurd (hroom haxis) hroomy
  · refine ⟨fun _ h => absurd h haxis, fun _ => ?_⟩
    exact ⟨dev, inputEvent_of_not_hasAxis haxis, Or.inl rfl⟩

/-- The limits of `linux/input.h`. -/
def inputLimits : Limits where
  evMax := 0x1f
  keyMax := 0x1ff
  absMax := 0x3f
  relMax := 0xf
  mscMax := 0x7
  ledMax := 0xf
  sndMax := 0x7
  repMax := 0x1

/-- A device with one axis. -/
def slider (old fuzz : Int) : InputDev where
  evbit type := type = .abs
  keybit _ := false
  relbit _ := false
  absbit code := code = 0
  mscbit _ := false
  ledbit _ := false
  sndbit _ := false
  key _ := false
  led _ := false
  abs _ := old
  absfuzz _ := fuzz
  rep _ := 0
  sync := false
  repeatKey := 0
  timerData := false
  timer := none
  grab := none
  handles := [⟨0, 1⟩]
  hasEvent := false
  passed := []
  delivered := []

theorem filters_iff_slider : Filters inputLimits (slider 100 16) 0 110 ↔
    ((slider 100 16).HasAxis inputLimits 0 → Roomy 100 16 110) :=
  @filters_iff inputLimits (slider 100 16) 0 110 (by decide) (by decide) (by decide)

/-- An axis at `2^30` that moves by three: three times the old value is not an `int`. -/
theorem slider_overflows :
    0 < (slider (2 ^ 30) 4).absfuzz 0 ∧ IsInt ((slider (2 ^ 30) 4).absfuzz 0) ∧
      IsInt ((slider (2 ^ 30) 4).abs 0) ∧ IsInt (2 ^ 30 + 3) ∧
      inputEvent inputLimits (slider (2 ^ 30) 4) 0 (2 ^ 30 + 3) .abs = none ∧
      ¬Filters inputLimits (slider (2 ^ 30) 4) 0 (2 ^ 30 + 3) := by
  have hnone : inputEvent inputLimits (slider (2 ^ 30) 4) 0 (2 ^ 30 + 3) .abs = none := rfl
  refine ⟨by decide, by decide, by decide, by decide, hnone, ?_⟩
  rintro ⟨dev', hsome, -⟩
  rw [hnone] at hsome
  cases hsome

end LinuxConsole.Dev

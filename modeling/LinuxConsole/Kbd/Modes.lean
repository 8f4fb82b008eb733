import LinuxConsole.Kbd.Isolation
import LinuxConsole.Lib.Run

/-!
# Keys, modes and consoles together

The machine of the keyboards with what changes the mode of a console besides:
`KDSKBMODE`, which recomputes the modifiers where it leaves a raw mode, the
other calls and sequences that set a `struct kbd_struct`, and the calls that switch
consoles.

`kbd_keycode` can end in seven ways as far as the key maps are concerned;
`Xlate.fate` names them, and **`kbdKeycode_fate`** says what each does to the bitmap
of keys, to the modifiers and to what the console keeps of the keyboard.
-/

namespace LinuxConsole.Input

open Switch (KbdMode Pools)

/-! ### The ends of `kbd_keycode` -/

/-- Where `kbd_keycode` comes to: the SysRq hack takes the event, a repeat is
dropped, there is no map for the modifiers, the code is beyond `NR_KEYS`, the map
has a character, a raw mode filters the key, or a handler is called. -/
inductive Fate
  | taken
  | dropped
  | missing
  | beyond
  | char
  | filtered
  | handled (type value : Nat)
  deriving DecidableEq

/-- The counts of the modifiers and their state. -/
def Mods.shift (m : Mods) : (Nat → UInt8) × Nat := (m.shiftDown, m.shiftState)

theorem Mods.computeShiftstate_shift (m : Mods) (plainMap : Nat → Nat) (keyDown : Nat → Bool) :
    (m.computeShiftstate plainMap keyDown).shift = shiftstateOf plainMap keyDown := by
  rw [shift, computeShiftstate]

/-- The modifier that a key of type `KT_SHIFT` or `KT_SLOCK` is for. -/
def modifierOf (value : Nat) : Nat := if value = kgCapsshift then kgShift else value

/-- `k_shift` on the counts and the state. -/
def countShiftPair (s : (Nat → UInt8) × Nat) (w : Nat) (up : Bool) : (Nat → UInt8) × Nat :=
  let n := s.1 w
  let n := if up then if n ≠ 0 then n - 1 else n else n + 1
  (Function.update s.1 w n,
    if n ≠ 0 then s.2 ||| 1 <<< w else (s.2 ||| 1 <<< w) ^^^ 1 <<< w)

namespace Xlate

variable (e : Env) (keyDown : Nat → Bool) (x : Xlate)

/-- The SysRq hack takes the event. -/
def takenBySysrq (keycode down : Nat) : Bool :=
  let x := x.noteRepeat keycode down
  e.magicSysrq &&
    (decide (keycode = keySysrq ∧ (x.mods.sysrqDown ∨ (down = 1 ∧ x.mods.sysrqAlt))) ||
      decide (x.mods.sysrqDown ∧ down ≠ 0 ∧ !x.mods.rep))

/-- Where the lookup comes to. -/
def lookupFate (keycode : Nat) : Fate :=
  match keyMap e x.shiftFinal with
  | none => .missing
  | some m =>
    if keycode > e.nrKeys then .beyond
    else if m keycode >>> 8 < 0xf0 then .char
    else if x.rawMode ∧ m keycode >>> 8 - 0xf0 ≠ ktSpec ∧ m keycode >>> 8 - 0xf0 ≠ ktShift then
      .filtered
    else .handled (x.typeAndValue e (m keycode) keycode).1 (x.typeAndValue e (m keycode) keycode).2

/-- **Where the event comes to.** -/
def fate (keycode down : Nat) : Fate :=
  if x.takenBySysrq e keycode down then .taken
  else if down = 2 ∧ !x.con.getKbdMode vcRepeat then .dropped
  else x.lookupFate e keycode

/-- The handler is `k_spec` and calls `fn_null`. -/
def callsNull (type value down : Nat) : Bool :=
  decide (type = ktSpec ∧ value = 0 ∧ down ≠ 0) && !x.rawMode

/-- The counts and the state after an event, given where it comes to. -/
def shiftAfter (keyDown' : Nat → Bool) (down : Nat) : Fate → (Nat → UInt8) × Nat
  | .missing => shiftstateOf e.plainMap keyDown'
  | .handled type value =>
    if x.callsNull type value down then shiftstateOf e.plainMap keyDown'
    else if (type = ktShift ∨ type = ktSlock) ∧ down ≠ 2 then
      countShiftPair x.mods.shift (modifierOf value) (decide (down = 0))
    else x.mods.shift
  | _ => x.mods.shift

end Xlate

/-! ### The handlers and the modifiers -/

namespace Xlate

variable (e : Env) (keyDown : Nat → Bool) (x : Xlate)

theorem flushPad_shift (old : Nat) (up : Bool) : (x.flushPad old up).mods.shift = x.mods.shift := by
  rw [flushPad]
  split_ifs <;> rfl

theorem kShift_shift (value : Nat) (up : Bool) :
    (x.kShift value up).mods.shift =
      if x.mods.rep then x.mods.shift else countShiftPair x.mods.shift (modifierOf value) up := by
  rw [kShift, modifierOf]
  split_ifs
  · rfl
  · exact flushPad_shift _ _ _
  · exact flushPad_shift _ _ _
  · exact flushPad_shift _ _ _

theorem kSlock_shift (value : Nat) (up : Bool) :
    (x.kSlock e value up).mods.shift =
      if x.mods.rep then x.mods.shift else countShiftPair x.mods.shift (modifierOf value) up := by
  rw [← kShift_shift, kSlock]
  dsimp only
  split_ifs <;> rfl

theorem handleDiacr_shift (ch : UInt8) : (x.handleDiacr e ch).2.mods.shift = x.mods.shift := by
  rw [handleDiacr]
  dsimp only
  split
  · rfl
  · split_ifs <;> rfl

theorem kDead2_shift (value : Nat) (up : Bool) :
    (x.kDead2 e value up).mods.shift = x.mods.shift := by
  rw [kDead2]
  by_cases hup : up = true
  · rw [if_pos hup]
  · rw [if_neg hup]
    by_cases hdiacr : x.mods.diacr ≠ 0
    · rw [if_pos hdiacr]
      exact x.handleDiacr_shift e _
    · rw [if_neg hdiacr]
      rfl

theorem kSelf_shift (value : Nat) (up : Bool) : (x.kSelf e value up).mods.shift = x.mods.shift := by
  rw [kSelf]
  by_cases hup : up = true
  · rw [if_pos hup]
  · rw [if_neg hup]
    by_cases hdiacr : x.mods.diacr ≠ 0
    · rw [if_pos hdiacr]
      have h := x.handleDiacr_shift e (UInt8.ofNat value)
      dsimp only
      split_ifs
      · exact h
      · exact h
    · rw [if_neg hdiacr]
      dsimp only
      split_ifs <;> rfl

theorem kFn_shift (value : Nat) (up : Bool) : (x.kFn e value up).mods.shift = x.mods.shift := by
  rw [kFn]
  split_ifs
  · rfl
  · split <;> rfl

theorem kCur_shift (value : Nat) (up : Bool) : (x.kCur value up).mods.shift = x.mods.shift := by
  rw [kCur]
  split_ifs <;> rfl

theorem kPad_shift (value : Nat) (up : Bool) : (x.kPad e value up).mods.shift = x.mods.shift := by
  have hchar : ∀ y : Xlate, y.mods.shift = x.mods.shift →
      (if value = 14 ∧ y.con.getKbdMode vcCrlf then y.onCon (·.putQueue 10) else y).mods.shift =
        x.mods.shift := by
    intro y hy
    split_ifs <;> exact hy
  rw [kPad]
  by_cases hup : up = true
  · rw [if_pos hup]
  · rw [if_neg hup]
    by_cases happlic : x.con.getKbdMode vcApplic ∧ x.mods.shiftDown kgShift = 0
    · rw [if_pos happlic]
      rfl
    · rw [if_neg happlic]
      by_cases hnum : x.con.getKbdLed vcNumlock
      · rw [if_pos hnum]
        exact hchar _ rfl
      · rw [if_neg hnum]
        split
        · exact x.kFn_shift e _ _
        · exact x.kCur_shift _ _
        · split_ifs
          · rfl
          · exact hchar _ rfl

theorem fnHold_shift : x.fnHold.mods.shift = x.mods.shift := by
  rw [fnHold]
  split
  · rfl
  · split_ifs <;> rfl

theorem fnHandler_shift (value : Nat) :
    (x.fnHandler e keyDown value).mods.shift =
      if value = 0 then shiftstateOf e.plainMap keyDown else x.mods.shift := by
  have henter : x.fnEnter.mods.shift = x.mods.shift := by
    rw [fnEnter]
    dsimp only
    split_ifs <;> rfl
  have hcaps : x.fnCapsToggle.mods.shift = x.mods.shift := by
    rw [fnCapsToggle]
    split_ifs <;> rfl
  have hbare : x.fnBareNum.mods.shift = x.mods.shift := by
    rw [fnBareNum]
    split_ifs <;> rfl
  have hnum : x.fnNum.mods.shift = x.mods.shift := by
    rw [fnNum]
    split_ifs
    · rfl
    · exact hbare
  have hon : x.fnCapsOn.mods.shift = x.mods.shift := by
    rw [fnCapsOn]
    split_ifs <;> rfl
  rw [fnHandler.eq_def]
  split
  · rw [if_pos rfl]
    exact x.mods.computeShiftstate_shift _ _
  all_goals first
    | exact henter.trans (if_neg (by decide)).symm
    | exact hcaps.trans (if_neg (by decide)).symm
    | exact hnum.trans (if_neg (by decide)).symm
    | exact x.fnHold_shift.trans (if_neg (by decide)).symm
    | exact hon.trans (if_neg (by decide)).symm
    | exact hbare.trans (if_neg (by decide)).symm
    | exact (if_neg (by decide)).symm
    | exact (if_neg ‹_›).symm

theorem kSpec_shift (value down : Nat) :
    (x.kSpec e keyDown value (!decide (down ≠ 0))).mods.shift =
      if x.callsNull ktSpec value down then shiftstateOf e.plainMap keyDown else x.mods.shift := by
  rw [kSpec, callsNull]
  by_cases hup : down = 0
  · simp [hup]
  · by_cases hbig : value ≥ 20
    · have hne : value ≠ 0 := by omega
      simp [hup, hbig, hne]
    · by_cases hraw : x.rawMode = true ∧ value ≠ 15
      · simp [hup, hbig, hraw]
      · rw [if_neg (by simp [hup]), if_neg hbig, if_neg hraw, fnHandler_shift]
        by_cases hnull : value = 0
        · have hcooked : x.rawMode = false := by
            by_contra h
            exact hraw ⟨by simpa using h, by omega⟩
          simp [hnull, hup, hcooked]
        · simp [hnull]

/-- **What the handlers do to the modifiers.** -/
theorem kHandler_shift (type value down : Nat) (hrep : x.mods.rep = decide (down = 2)) :
    (x.kHandler e keyDown type value (!decide (down ≠ 0))).mods.shift =
      x.shiftAfter e keyDown down (.handled type value) := by
  have hup : (!decide (down ≠ 0)) = decide (down = 0) := by simp
  have hcount : ∀ y : Xlate, (y.mods.shift =
      if x.mods.rep then x.mods.shift
      else countShiftPair x.mods.shift (modifierOf value) (!decide (down ≠ 0))) →
      (type = ktShift ∨ type = ktSlock) →
        y.mods.shift = x.shiftAfter e keyDown down (.handled type value) := by
    intro y hy htype
    have hnull : x.callsNull type value down = false := by
      rw [callsNull, decide_eq_false fun h => ?_, Bool.false_and]
      rcases htype with rfl | rfl <;> exact absurd h.1 (by decide)
    rw [hy, shiftAfter, hnull, if_neg Bool.false_ne_true, hrep, hup]
    by_cases htwo : down = 2
    · rw [if_pos (decide_eq_true htwo), if_neg fun h => h.2 htwo]
    · rw [if_neg (by simpa using htwo), if_pos ⟨htype, htwo⟩]
  have hplain : ∀ y : Xlate, y.mods.shift = x.mods.shift → type ≠ ktSpec → type ≠ ktShift →
      type ≠ ktSlock → y.mods.shift = x.shiftAfter e keyDown down (.handled type value) := by
    intro y hy hspec hshift hslock
    rw [hy, shiftAfter, callsNull, decide_eq_false fun h => hspec h.1, Bool.false_and,
      if_neg Bool.false_ne_true, if_neg]
    rintro ⟨h | h, -⟩
    · exact hshift h
    · exact hslock h
  rw [kHandler.eq_def]
  split
  · exact hplain _ (x.kSelf_shift e _ _) (by decide) (by decide) (by decide)
  · exact hplain _ (x.kFn_shift e _ _) (by decide) (by decide) (by decide)
  · rw [kSpec_shift, shiftAfter]
    cases hnull : x.callsNull ktSpec value down with
    | true => rw [if_pos rfl, show x.callsNull 2 value down = true from hnull, if_pos rfl]
    | false =>
      rw [if_neg Bool.false_ne_true, show x.callsNull 2 value down = false from hnull,
        if_neg Bool.false_ne_true, if_neg]
      rintro ⟨h, -⟩
      exact absurd h (by decide)
  · exact hplain _ (x.kPad_shift e _ _) (by decide) (by decide) (by decide)
  · exact hplain _ (x.kDead2_shift e _ _) (by decide) (by decide) (by decide)
  · refine hplain _ ?_ (by decide) (by decide) (by decide)
    rw [kCons]
    split_ifs <;> rfl
  · exact hplain _ (x.kCur_shift _ _) (by decide) (by decide) (by decide)
  · exact hcount _ (x.kShift_shift _ _) (.inl rfl)
  · refine hplain _ ?_ (by decide) (by decide) (by decide)
    rw [kMeta]
    split_ifs <;> rfl
  · refine hplain _ ?_ (by decide) (by decide) (by decide)
    rw [kAscii]
    split_ifs <;> rfl
  · refine hplain _ ?_ (by decide) (by decide) (by decide)
    rw [kLock]
    split_ifs <;> rfl
  · exact hcount _ (x.kSlock_shift e _ _) (.inr rfl)
  · exact hplain _ (x.kDead2_shift e _ _) (by decide) (by decide) (by decide)
  · next h0 h1 h2 h3 h4 h5 h6 h7 h8 h9 h10 h12 h13 =>
    exact hplain _ rfl h2 h7 h12

/-! ### One event -/

/-- Two states of the translator with the same modifiers and the same
`struct kbd_struct`. -/
structure SameKbd (x y : Xlate) : Prop where
  shift : y.mods.shift = x.mods.shift
  kbd : y.con.kbd = x.con.kbd

theorem SameKbd.shiftFinal {x y : Xlate} (h : SameKbd x y) : y.shiftFinal = x.shiftFinal := by
  have hstate : y.mods.shiftState = x.mods.shiftState := congrArg Prod.snd h.shift
  rw [Xlate.shiftFinal, Xlate.shiftFinal, hstate, h.kbd]

theorem SameKbd.rawMode {x y : Xlate} (h : SameKbd x y) : y.rawMode = x.rawMode := by
  rw [Xlate.rawMode, Xlate.rawMode, h.kbd]

theorem SameKbd.getKbdMode {x y : Xlate} (h : SameKbd x y) (flag : Nat) :
    y.con.getKbdMode flag = x.con.getKbdMode flag := by
  rw [Console.getKbdMode, Console.getKbdMode, h.kbd]

theorem SameKbd.getKbdLed {x y : Xlate} (h : SameKbd x y) (flag : Nat) :
    y.con.getKbdLed flag = x.con.getKbdLed flag := by
  rw [Console.getKbdLed, Console.getKbdLed, h.kbd]

theorem SameKbd.typeAndValue {x y : Xlate} (h : SameKbd x y) (keysym keycode : Nat) :
    y.typeAndValue e keysym keycode = x.typeAndValue e keysym keycode := by
  rw [Xlate.typeAndValue, Xlate.typeAndValue, h.getKbdLed, h.shiftFinal]

theorem SameKbd.putRaw (x : Xlate) (keycode down : Nat) (hwRaw : Bool) :
    SameKbd x ((x.noteRepeat keycode down).putRaw keycode down hwRaw) := by
  rw [Xlate.putRaw]
  split_ifs
  · exact ⟨rfl, emulateRaw_kbd _ _ _ _⟩
  · exact ⟨rfl, rfl⟩

/-- The hack sees the flags that `noteRepeat` has set. -/
theorem putRaw_flags (keycode down : Nat) (hwRaw : Bool) :
    ((x.noteRepeat keycode down).putRaw keycode down hwRaw).mods =
      (x.noteRepeat keycode down).mods := by
  rw [putRaw]
  split_ifs <;> rfl

/-- What the lookup does to the modifiers. -/
theorem lookupKey_shift (keycode down : Nat) (hrep : x.mods.rep = decide (down = 2)) :
    (x.lookupKey e keyDown keycode (decide (down ≠ 0)) x.rawMode).mods.shift =
      x.shiftAfter e keyDown down (x.lookupFate e keycode) := by
  rw [lookupKey, lookupFate]
  cases hmap : keyMap e x.shiftFinal with
  | none => exact x.mods.computeShiftstate_shift _ _
  | some m =>
    dsimp only
    split_ifs with hbig hsym hdown hraw
    · rfl
    · rfl
    · rfl
    · rfl
    · have h := x.kHandler_shift e keyDown (x.typeAndValue e (m keycode) keycode).1
        (x.typeAndValue e (m keycode) keycode).2 down hrep
      rw [← h, handleKey]
      generalize x.kHandler e keyDown (x.typeAndValue e (m keycode) keycode).1
        (x.typeAndValue e (m keycode) keycode).2 (!decide (down ≠ 0)) = y
      dsimp only
      split_ifs <;> rfl

theorem lookupFate_ne_taken (keycode : Nat) : x.lookupFate e keycode ≠ .taken := by
  rw [lookupFate]
  split
  · exact Fate.noConfusion
  · split_ifs <;> exact Fate.noConfusion

/-- The type and value of a letter, and of any other key. -/
theorem typeAndValue_cases (keysym keycode : Nat) :
    (∃ value, x.typeAndValue e keysym keycode = (ktLatin, value)) ∨
      x.typeAndValue e keysym keycode = (keysym >>> 8 - 0xf0, kval keysym) := by
  rw [typeAndValue]
  split_ifs
  · split
    · exact .inl ⟨_, rfl⟩
    · exact .inl ⟨_, rfl⟩
  · exact .inl ⟨_, rfl⟩
  · exact .inr rfl

/-- **A handler is called for a keysym that is in the map.** -/
theorem lookupFate_handled {keycode type value : Nat}
    (h : x.lookupFate e keycode = .handled type value) :
    keycode ≤ e.nrKeys ∧ ∃ m, keyMap e x.shiftFinal = some m ∧ 0xf0 ≤ m keycode >>> 8 ∧
      x.typeAndValue e (m keycode) keycode = (type, value) := by
  rw [lookupFate] at h
  cases hmap : keyMap e x.shiftFinal with
  | none =>
    rw [hmap] at h
    exact Fate.noConfusion h
  | some m =>
    rw [hmap] at h
    dsimp only at h
    split_ifs at h with hbig hsym hraw
    obtain ⟨rfl, rfl⟩ := Fate.handled.inj h
    exact ⟨by omega, m, rfl, by omega, (Prod.eta _).symm⟩

/-- So is it where the event comes to a handler. -/
theorem fate_handled {keycode down type value : Nat}
    (h : x.fate e keycode down = .handled type value) :
    x.lookupFate e keycode = .handled type value := by
  rw [fate] at h
  split_ifs at h
  exact h

theorem lookupFate_congr {x y : Xlate} (h : SameKbd x y) (keycode : Nat) :
    y.lookupFate e keycode = x.lookupFate e keycode := by
  rw [lookupFate, lookupFate, h.shiftFinal, h.rawMode]
  simp only [h.typeAndValue e]

theorem shiftAfter_congr {x y : Xlate} (h : SameKbd x y) (down : Nat) (f : Fate) :
    y.shiftAfter e keyDown down f = x.shiftAfter e keyDown down f := by
  cases f with
  | handled type value => rw [shiftAfter, shiftAfter, callsNull, callsNull, h.rawMode, h.shift]
  | missing => rw [shiftAfter, shiftAfter]
  | taken => exact h.shift
  | dropped => exact h.shift
  | beyond => exact h.shift
  | char => exact h.shift
  | filtered => exact h.shift

theorem sameKbd_mediumraw (keycode down : Nat) :
    SameKbd x (if x.con.kbd.kbdmode = .mediumraw
        then x.onCon (·.putMediumraw keycode (upFlag down)) else x) ∧
      (if x.con.kbd.kbdmode = .mediumraw
        then x.onCon (·.putMediumraw keycode (upFlag down)) else x).mods = x.mods := by
  split_ifs
  · exact ⟨⟨rfl, putMediumraw_kbd x.con keycode _⟩, rfl⟩
  · exact ⟨⟨rfl, rfl⟩, rfl⟩

/-- What `kbd_keycode` does after the SysRq hack. -/
theorem translateKey_fate (keycode down : Nat) (hrep : x.mods.rep = decide (down = 2)) :
    (x.translateKey e keyDown keycode down).1 = setKey keyDown keycode down ∧
      (x.translateKey e keyDown keycode down).2.mods.shift =
        x.shiftAfter e (setKey keyDown keycode down) down
          (if down = 2 ∧ !x.con.getKbdMode vcRepeat then .dropped else x.lookupFate e keycode) := by
  obtain ⟨y, hy⟩ : ∃ y, y = if x.con.kbd.kbdmode = .mediumraw
      then x.onCon (·.putMediumraw keycode (upFlag down)) else x := ⟨_, rfl⟩
  obtain ⟨hsame, hmods⟩ : SameKbd x y ∧ y.mods = x.mods := hy ▸ x.sameKbd_mediumraw keycode down
  have hyrep : y.mods.rep = decide (down = 2) := by rw [hmods, hrep]
  rw [translateKey, ← hy, hyrep, hsame.getKbdMode, ← hsame.rawMode]
  by_cases hdrop : down = 2 ∧ !x.con.getKbdMode vcRepeat
  · rw [if_pos (by simpa using hdrop), if_pos hdrop]
    exact ⟨rfl, hsame.shift⟩
  · rw [if_neg (by simpa using hdrop), if_neg hdrop]
    refine ⟨rfl, ?_⟩
    rw [y.lookupKey_shift e _ keycode down hyrep, lookupFate_congr e hsame,
      shiftAfter_congr e _ hsame]

/-- The event that passes the two tests of the hack is not taken. -/
theorem not_takenBySysrq {x₁ : Xlate} {keycode down : Nat}
    (hflags : x₁.mods = (x.noteRepeat keycode down).mods)
    (hpress : ¬ (e.magicSysrq ∧ keycode = keySysrq ∧
      (x₁.mods.sysrqDown ∨ (down = 1 ∧ x₁.mods.sysrqAlt))))
    (hhandled : ¬ (e.magicSysrq ∧ x₁.mods.sysrqDown ∧ down ≠ 0 ∧ !x₁.mods.rep)) :
    x.takenBySysrq e keycode down = false := by
  rw [takenBySysrq, ← hflags, Bool.and_eq_false_iff, Bool.or_eq_false_iff, decide_eq_false_iff_not,
    decide_eq_false_iff_not]
  by_cases hmagic : e.magicSysrq = true
  · exact .inr ⟨fun h => hpress ⟨hmagic, h⟩, fun h => hhandled ⟨hmagic, h⟩⟩
  · exact .inl (by simpa using hmagic)

/-- **What a key event does** to the bitmap and to the modifiers. -/
theorem kbdKeycode_fate (keycode down : Nat) (hwRaw : Bool) :
    (x.kbdKeycode e keyDown keycode down hwRaw).1 =
        (if x.fate e keycode down = .taken then keyDown else setKey keyDown keycode down) ∧
      (x.kbdKeycode e keyDown keycode down hwRaw).2.mods.shift =
        x.shiftAfter e (setKey keyDown keycode down) down (x.fate e keycode down) := by
  obtain ⟨x₁, hx₁⟩ : ∃ y, y = (x.noteRepeat keycode down).putRaw keycode down hwRaw := ⟨_, rfl⟩
  have hsame : SameKbd x x₁ := hx₁ ▸ SameKbd.putRaw x keycode down hwRaw
  have hflags : x₁.mods = (x.noteRepeat keycode down).mods :=
    hx₁ ▸ x.putRaw_flags keycode down hwRaw
  have hrep : x₁.mods.rep = decide (down = 2) := by rw [hflags, noteRepeat]
  rw [kbdKeycode, ← hx₁]
  dsimp only
  by_cases hpress : e.magicSysrq ∧ keycode = keySysrq ∧
      (x₁.mods.sysrqDown ∨ (down = 1 ∧ x₁.mods.sysrqAlt))
  · have htaken : x.takenBySysrq e keycode down = true := by
      rw [takenBySysrq, ← hflags]
      simp [hpress.1, hpress.2.1, hpress.2.2]
    rw [if_pos hpress, fate, if_pos htaken, if_pos rfl]
    exact ⟨rfl, hsame.shift⟩
  rw [if_neg hpress]
  by_cases hhandled : e.magicSysrq ∧ x₁.mods.sysrqDown ∧ down ≠ 0 ∧ !x₁.mods.rep
  · have htaken : x.takenBySysrq e keycode down = true := by
      rw [takenBySysrq, ← hflags]
      simp [hhandled.1, hhandled.2.1, hhandled.2.2]
    rw [if_pos hhandled, fate, if_pos htaken, if_pos rfl]
    exact ⟨rfl, hsame.shift⟩
  rw [if_neg hhandled]
  have hleft := x.not_takenBySysrq e hflags hpress hhandled
  obtain ⟨hbits, hshift⟩ := x₁.translateKey_fate e keyDown keycode down hrep
  rw [hsame.getKbdMode, lookupFate_congr e hsame, shiftAfter_congr e _ hsame] at hshift
  have hfate : x.fate e keycode down =
      if down = 2 ∧ !x.con.getKbdMode vcRepeat then .dropped else x.lookupFate e keycode := by
    rw [fate, hleft, if_neg Bool.false_ne_true]
  have hnot : x.fate e keycode down ≠ .taken := by
    rw [hfate]
    split_ifs
    · exact Fate.noConfusion
    · exact x.lookupFate_ne_taken e keycode
  rw [if_neg hnot, hfate]
  exact ⟨hbits, hshift⟩

end Xlate

/-! ### The machine with its modes -/

/-- An event on a VT; `KDSKBMODE` on the console in a slot of a VT; any other
change of its `struct kbd_struct`; `VT_ACTIVATE` for the console in a slot, or a
sequence that shows it; a `VT_RELDISP` that lets the switch to it go on. -/
inductive ModeOp (N : Nat)
  | event (v : Fin N) (ev : Event)
  | kdskbmode (v : Fin N) (i : Nat) (mode : KbdMode)
  | setKbd (v : Fin N) (i : Nat) (kbd : KbdStruct)
  | activate (v : Fin N) (i : Nat)
  | reldisp (v : Fin N) (i : Nat)

namespace Machine

variable {N : Nat} (P : Pools N) (e : Env) (m : Machine N)

/-- Change the `struct kbd_struct` of a console. -/
def updKbd (v : Fin N) (i : Nat) (f : KbdStruct → KbdStruct) : Machine N :=
  m.updSeat v fun s =>
    { s with con := Function.update s.con i { s.con i with kbd := f (s.con i).kbd } }

/-- `compute_shiftstate`. -/
def recompute : Machine N := { m with mods := m.mods.computeShiftstate e.plainMap m.keyDown }

theorem recompute_keyDown : (m.recompute e).keyDown = m.keyDown := by
  rw [recompute]

/-- `KDSKBMODE`, for a caller that may. -/
def kdskbmode (v : Fin N) (i : Nat) (mode : KbdMode) : Machine N :=
  let m := m.updKbd v i fun k => { k with kbdmode := mode }
  if mode = .xlate ∨ mode = .unicode then m.recompute e else m

/-- `complete_change_console`. -/
def completeChange (v : Fin N) (i : Nat) : Machine N :=
  (m.updSeat v fun s => { s with fgConsole := i, lastConsole := s.fgConsole }).recompute e

/-- What happens. -/
def op (m : Machine N) : ModeOp N → Machine N
  | .event v ev => m.step P e (v, ev)
  | .kdskbmode v i mode => m.kdskbmode e v i mode
  | .setKbd v i kbd => m.updKbd v i fun _ => kbd
  | .activate v i => m.updSeat v fun s => { s with wantVc := i }
  | .reldisp v i => m.completeChange e v i

/-- **A key event** changes the bitmap and the modifiers by where it comes to. -/
theorem key_fate (v : Fin N) (keycode value : Nat) :
    (m.key P e v keycode value).keyDown =
        (if (m.xlate v).fate e keycode value = .taken then m.keyDown
        else Xlate.setKey m.keyDown keycode value) ∧
      (m.key P e v keycode value).mods.shift =
        (m.xlate v).shiftAfter e (Xlate.setKey m.keyDown keycode value) value
          ((m.xlate v).fate e keycode value) := by
  obtain ⟨hbits, hshift⟩ :=
    (m.xlate v).kbdKeycode_fate e m.keyDown keycode value (m.seat v).hwRaw
  rw [key]
  obtain ⟨hdown, hmods⟩ := serve_globals (P := P)
    ({ m with
      keyDown := ((m.xlate v).kbdKeycode e m.keyDown keycode value (m.seat v).hwRaw).1
      mods := ((m.xlate v).kbdKeycode e m.keyDown keycode value
        (m.seat v).hwRaw).2.mods }.onForeground v fun _ =>
          ((m.xlate v).kbdKeycode e m.keyDown keycode value (m.seat v).hwRaw).2.con) v
    ((m.xlate v).kbdKeycode e m.keyDown keycode value (m.seat v).hwRaw).2.request
  exact ⟨(hdown.trans rfl).trans hbits, (congrArg Mods.shift hmods).trans hshift⟩

/-- The switch to another console recomputes the modifiers. -/
theorem work_globals (v : Fin N) (goes : Bool) :
    (m.work e v goes).keyDown = m.keyDown ∧
      (m.work e v goes).mods.shift =
        if goes ∧ (m.seat v).wantVc ≠ (m.seat v).fgConsole then
          shiftstateOf e.plainMap m.keyDown
        else m.mods.shift := by
  rw [work]
  split_ifs
  · rw [updSeat_keyDown, updSeat_mods]
    exact ⟨rfl, m.mods.computeShiftstate_shift _ _⟩
  · exact ⟨rfl, rfl⟩

theorem kdskbmode_globals (v : Fin N) (i : Nat) (mode : KbdMode) :
    (m.kdskbmode e v i mode).keyDown = m.keyDown ∧
      (m.kdskbmode e v i mode).mods.shift =
        if mode = .xlate ∨ mode = .unicode then shiftstateOf e.plainMap m.keyDown
        else m.mods.shift := by
  rw [kdskbmode]
  split_ifs
  · exact ⟨recompute_keyDown e _, m.mods.computeShiftstate_shift _ _⟩
  · exact ⟨rfl, rfl⟩

theorem completeChange_globals (v : Fin N) (i : Nat) :
    (m.completeChange e v i).keyDown = m.keyDown ∧
      (m.completeChange e v i).mods.shift = shiftstateOf e.plainMap m.keyDown := by
  rw [completeChange]
  exact ⟨recompute_keyDown e _, m.mods.computeShiftstate_shift _ _⟩

end Machine

end LinuxConsole.Input

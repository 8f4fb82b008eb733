import Mathlib.Data.Finset.Card
import Mathlib.Data.Finset.Range
import LinuxConsole.Kbd.Modes

/-!
# The modifiers counted and recomputed

`shift_down` and `shift_state` are kept up by `k_shift` event by event, and
`compute_shiftstate` makes them anew from the bitmap of the keys that are down.

`heldCount` is the number of keys of a modifier that are down, and `Reads` says
that counts and state are those of a count for each modifier; `compute_shiftstate`
gives those of `heldCount` (`shiftstateOf_reads`).  A count is one byte, so that 256
keys of one modifier count as none.

`InStep` says that the two are the same and that no count wraps, and `agrees_iff`
that this is what `Agrees` asks of a machine.  One event leaves it so exactly if it is
in order (`StepInOrder`): a key that is counted goes down when it is up and up when it
is down, and one that is not counted is no modifier or stays where it is.  Two
keyboards with the same key, a `KT_SLOCK` key in a raw mode and a key that goes down
in one map and up in another break this.  **`shift_agree_iff`** says so of whole runs,
and `counted_own` what maps that agree on the modifiers leave of the condition.
-/

namespace LinuxConsole.Input

open Switch (Pools)
open Lib (Along)

/-! ### Keys that are down -/

/-- The key is down and of the modifier `w`. -/
def holds (plainMap : Nat → Nat) (keyDown : Nat → Bool) (w k : Nat) : Prop :=
  (keyDown k && isShiftKey plainMap k) = true ∧ shiftOf plainMap k = w

instance (plainMap : Nat → Nat) (keyDown : Nat → Bool) (w k : Nat) :
    Decidable (holds plainMap keyDown w k) := inferInstanceAs (Decidable (_ ∧ _))

/-- The number of keys below `n` that are down and of the modifier `w`. -/
def heldBelow (plainMap : Nat → Nat) (keyDown : Nat → Bool) (n w : Nat) : Nat :=
  ((Finset.range n).filter (holds plainMap keyDown w)).card

/-- **The number of keys of a modifier that are down.** -/
def heldCount (plainMap : Nat → Nat) (keyDown : Nat → Bool) (w : Nat) : Nat :=
  heldBelow plainMap keyDown keyBits w

/-- Counts and state are those of the count `c` of each modifier. -/
structure Reads (s : (Nat → UInt8) × Nat) (c : Nat → Nat) : Prop where
  count : ∀ w, s.1 w = UInt8.ofNat (c w)
  state : ∀ w, s.2.testBit w = decide (c w ≠ 0)

theorem Reads.unique {s s' : (Nat → UInt8) × Nat} {c : Nat → Nat} (h : Reads s c)
    (h' : Reads s' c) : s = s' := by
  refine Prod.ext (funext fun w => ?_) (Nat.eq_of_testBit_eq fun w => ?_)
  · rw [h.count, h'.count]
  · rw [h.state, h'.state]

/-- No modifier has so many keys down that its count, one byte, is 0. -/
def Unwrapped (c : Nat → Nat) : Prop := ∀ w, c w % 256 = 0 → c w = 0

theorem heldBelow_succ (plainMap : Nat → Nat) (keyDown : Nat → Bool) (n w : Nat) :
    heldBelow plainMap keyDown (n + 1) w =
      heldBelow plainMap keyDown n w + if holds plainMap keyDown w n then 1 else 0 := by
  rw [heldBelow, Finset.range_add_one, Finset.filter_insert]
  split_ifs
  · rw [Finset.card_insert_of_notMem (by simp), heldBelow]
  · rw [heldBelow, Nat.add_zero]

theorem testBit_bit (w v : Nat) : (1 <<< w).testBit v = decide (v = w) := by
  rw [Nat.one_shiftLeft, Nat.testBit_two_pow]
  exact decide_eq_decide.mpr eq_comm

theorem testBit_or_bit (s w v : Nat) :
    (s ||| 1 <<< w).testBit v = (s.testBit v || decide (v = w)) := by
  rw [Nat.testBit_or, testBit_bit]

theorem testBit_clear_bit (s w v : Nat) :
    ((s ||| 1 <<< w) ^^^ 1 <<< w).testBit v = (s.testBit v && !decide (v = w)) := by
  rw [Nat.testBit_xor, testBit_or_bit, testBit_bit]
  cases s.testBit v <;> cases decide (v = w) <;> rfl

/-- **`compute_shiftstate` counts the keys that are down.** -/
theorem shiftstateOf_reads (plainMap : Nat → Nat) (keyDown : Nat → Bool) :
    Reads (shiftstateOf plainMap keyDown) (heldCount plainMap keyDown) := by
  suffices h : ∀ n, Reads ((List.range n).foldl (fun s k =>
      if keyDown k && isShiftKey plainMap k then
        (Function.update s.1 (shiftOf plainMap k) (s.1 (shiftOf plainMap k) + 1),
          s.2 ||| 1 <<< shiftOf plainMap k)
      else s) ((fun _ => 0, 0) : (Nat → UInt8) × Nat)) (heldBelow plainMap keyDown n) from
    h keyBits
  intro n
  induction n with
  | zero => exact ⟨fun w => rfl, fun w => Nat.zero_testBit w⟩
  | succ n ih =>
    rw [List.range_succ, List.foldl_concat]
    generalize (List.range n).foldl _ _ = s at ih ⊢
    by_cases hkey : (keyDown n && isShiftKey plainMap n) = true
    · rw [if_pos hkey]
      refine ⟨fun w => ?_, fun w => ?_⟩
      · rw [heldBelow_succ]
        dsimp only
        by_cases hw : w = shiftOf plainMap n
        · rw [hw, Function.update_self, ih.count, if_pos ⟨hkey, rfl⟩, UInt8.ofNat_add]
          rfl
        · rw [Function.update_of_ne hw, ih.count, if_neg fun h => hw h.2.symm, Nat.add_zero]
      · rw [heldBelow_succ, testBit_or_bit, ih.state]
        by_cases hw : w = shiftOf plainMap n
        · rw [if_pos ⟨hkey, hw.symm⟩, decide_eq_true hw, Bool.or_true, decide_eq_true (by omega)]
        · rw [if_neg fun h => hw h.2.symm, decide_eq_false hw, Bool.or_false, Nat.add_zero]
    · rw [if_neg hkey]
      have hsame : heldBelow plainMap keyDown (n + 1) = heldBelow plainMap keyDown n := by
        funext w
        rw [heldBelow_succ, if_neg fun h => hkey h.1, Nat.add_zero]
      rw [hsame]
      exact ih

/-! ### One key of the bitmap -/

section

variable {plainMap : Nat → Nat} {keyDown : Nat → Bool} {k : Nat} {d : Bool}

/-- A key that is no modifier, or is where it was, changes no count. -/
theorem heldCount_same (h : isShiftKey plainMap k = true → keyDown k = d) :
    heldCount plainMap (Function.update keyDown k d) = heldCount plainMap keyDown := by
  have hkeys : ∀ w, holds plainMap (Function.update keyDown k d) w = holds plainMap keyDown w := by
    intro w
    funext j
    by_cases hj : j = k
    · rw [hj, holds, holds, Function.update_self]
      cases hkey : isShiftKey plainMap k with
      | true => rw [h hkey]
      | false => rw [Bool.and_false, Bool.and_false]
    · rw [holds, holds, Function.update_of_ne hj]
  funext w
  simp only [heldCount, heldBelow, hkeys]

theorem heldCount_press (hk : k < keyBits) (hkey : isShiftKey plainMap k = true)
    (hup : keyDown k = false) :
    heldCount plainMap (Function.update keyDown k true) =
      Function.update (heldCount plainMap keyDown) (shiftOf plainMap k)
        (heldCount plainMap keyDown (shiftOf plainMap k) + 1) := by
  funext w
  by_cases hw : w = shiftOf plainMap k
  · have hset : (Finset.range keyBits).filter
        (holds plainMap (Function.update keyDown k true) w) =
        insert k ((Finset.range keyBits).filter (holds plainMap keyDown w)) := by
      ext j
      rw [Finset.mem_insert, Finset.mem_filter, Finset.mem_filter, Finset.mem_range]
      by_cases hj : j = k
      · rw [hj, holds, Function.update_self, hkey]
        exact iff_of_true ⟨hk, rfl, hw.symm⟩ (.inl rfl)
      · rw [holds, Function.update_of_ne hj, ← holds]
        exact (or_iff_right hj).symm
    have hnot : k ∉ (Finset.range keyBits).filter (holds plainMap keyDown w) := by
      rw [Finset.mem_filter, holds, hup, Bool.false_and]
      exact fun h => Bool.false_ne_true h.2.1
    rw [heldCount, heldBelow, hset, Finset.card_insert_of_notMem hnot, ← hw, Function.update_self]
    rfl
  · rw [Function.update_of_ne hw, heldCount, heldCount, heldBelow, heldBelow]
    refine congrArg Finset.card (Finset.filter_congr fun j _ => ?_)
    by_cases hj : j = k
    · rw [hj]
      exact iff_of_false (fun h => hw h.2.symm) fun h => hw h.2.symm
    · rw [holds, holds, Function.update_of_ne hj]

theorem heldCount_release (hk : k < keyBits) (hkey : isShiftKey plainMap k = true)
    (hdown : keyDown k = true) :
    heldCount plainMap (Function.update keyDown k false) =
        Function.update (heldCount plainMap keyDown) (shiftOf plainMap k)
          (heldCount plainMap keyDown (shiftOf plainMap k) - 1) ∧
      heldCount plainMap keyDown (shiftOf plainMap k) ≠ 0 := by
  have hback : Function.update (Function.update keyDown k false) k true = keyDown := by
    rw [Function.update_idem, ← hdown, Function.update_eq_self]
  have h := @heldCount_press plainMap (Function.update keyDown k false) k hk hkey
    (Function.update_self ..)
  rw [hback] at h
  rw [h, Function.update_self]
  refine ⟨?_, Nat.succ_ne_zero _⟩
  rw [Nat.add_sub_cancel, Function.update_idem, Function.update_eq_self]

/-! ### In step -/

/-- **Counts and state are what `compute_shiftstate` would give, and tell which
modifiers are held.** -/
structure InStep (plainMap : Nat → Nat) (keyDown : Nat → Bool) (s : (Nat → UInt8) × Nat) :
    Prop where
  same : s = shiftstateOf plainMap keyDown
  unwrapped : Unwrapped (heldCount plainMap keyDown)

theorem ofNat_ne_zero_iff (n : Nat) : UInt8.ofNat n ≠ 0 ↔ n % 256 ≠ 0 := by
  rw [Ne, ← UInt8.toNat_inj, UInt8.toNat_ofNat']
  rfl

theorem inStep_uncounted {s : (Nat → UInt8) × Nat} (h : InStep plainMap keyDown s)
    (hk : k < keyBits) :
    InStep plainMap (Function.update keyDown k d) s ↔
      (isShiftKey plainMap k = true → keyDown k = d) := by
  have hread := shiftstateOf_reads plainMap keyDown
  rw [← h.same] at hread
  constructor
  · rintro ⟨hsame, -⟩ hkey
    have hread' := shiftstateOf_reads plainMap (Function.update keyDown k d)
    rw [← hsame] at hread'
    have hcount : ∀ w, heldCount plainMap keyDown w % 256 =
        heldCount plainMap (Function.update keyDown k d) w % 256 := by
      intro w
      have hw := congrArg UInt8.toNat ((hread.count w).symm.trans (hread'.count w))
      rwa [UInt8.toNat_ofNat', UInt8.toNat_ofNat'] at hw
    have hw := hcount (shiftOf plainMap k)
    by_contra hne
    cases d with
    | true =>
      rw [heldCount_press hk hkey (by simpa using hne), Function.update_self] at hw
      omega
    | false =>
      obtain ⟨hrel, hpos⟩ := heldCount_release hk hkey (by simpa using hne)
      rw [hrel, Function.update_self] at hw
      omega
  · intro hsame
    have hcount := @heldCount_same plainMap keyDown k d hsame
    refine ⟨?_, by rw [hcount]; exact h.unwrapped⟩
    have hread' := shiftstateOf_reads plainMap (Function.update keyDown k d)
    rw [hcount] at hread'
    exact hread.unique hread'

theorem Reads.countPress {s : (Nat → UInt8) × Nat} {c : Nat → Nat} (h : Reads s c) (w : Nat) :
    Reads (countShiftPair s w false) (Function.update c w (c w + 1)) ↔ (c w + 1) % 256 ≠ 0 := by
  have hn : s.1 w + 1 = UInt8.ofNat (c w + 1) := by
    rw [h.count, UInt8.ofNat_add]
    rfl
  rw [countShiftPair, if_neg Bool.false_ne_true, hn]
  constructor
  · intro hr hzero
    have hbit := hr.state w
    rw [Function.update_self, if_neg fun hne => (ofNat_ne_zero_iff _).mp hne hzero] at hbit
    rw [testBit_clear_bit, decide_eq_true rfl, decide_eq_true (Nat.succ_ne_zero _)] at hbit
    simp at hbit
  · intro hne
    rw [if_pos ((ofNat_ne_zero_iff _).mpr hne)]
    refine ⟨fun v => ?_, fun v => ?_⟩
    · dsimp only
      by_cases hv : v = w
      · rw [hv, Function.update_self, Function.update_self]
      · rw [Function.update_of_ne hv, Function.update_of_ne hv, h.count]
    · rw [testBit_or_bit]
      by_cases hv : v = w
      · rw [hv, Function.update_self, decide_eq_true rfl, Bool.or_true,
          decide_eq_true (Nat.succ_ne_zero _)]
      · rw [Function.update_of_ne hv, decide_eq_false hv, Bool.or_false, h.state]

theorem Reads.countRelease {s : (Nat → UInt8) × Nat} {c : Nat → Nat} (h : Reads s c) {w : Nat}
    (hw : c w % 256 ≠ 0) :
    Reads (countShiftPair s w true) (Function.update c w (c w - 1)) ↔
      ((c w - 1) % 256 = 0 → c w - 1 = 0) := by
  have hne : s.1 w ≠ 0 := by
    rw [h.count]
    exact (ofNat_ne_zero_iff _).mpr hw
  have hn : s.1 w - 1 = UInt8.ofNat (c w - 1) := by
    rw [h.count, UInt8.ofNat_sub (by omega)]
    rfl
  rw [countShiftPair, if_pos rfl, if_pos hne, hn]
  constructor
  · intro hr hzero
    have hbit := hr.state w
    rw [Function.update_self, if_neg fun h => (ofNat_ne_zero_iff _).mp h hzero, testBit_clear_bit,
      decide_eq_true rfl, Bool.not_true, Bool.and_false] at hbit
    simpa using hbit.symm
  · intro hone
    refine ⟨fun v => ?_, fun v => ?_⟩
    · dsimp only
      by_cases hv : v = w
      · rw [hv, Function.update_self, Function.update_self]
      · rw [Function.update_of_ne hv, Function.update_of_ne hv, h.count]
    · by_cases hzero : (c w - 1) % 256 = 0
      · rw [if_neg fun h => (ofNat_ne_zero_iff _).mp h hzero, testBit_clear_bit]
        by_cases hv : v = w
        · rw [hv, Function.update_self, decide_eq_true rfl, Bool.not_true, Bool.and_false,
            hone hzero]
          rfl
        · rw [Function.update_of_ne hv, decide_eq_false hv, Bool.not_false, Bool.and_true,
            h.state]
      · rw [if_pos ((ofNat_ne_zero_iff _).mpr hzero), testBit_or_bit]
        by_cases hv : v = w
        · have hpos : c w - 1 ≠ 0 := fun hc => hzero (by rw [hc])
          rw [hv, Function.update_self, decide_eq_true rfl, Bool.or_true, decide_eq_true hpos]
        · rw [Function.update_of_ne hv, decide_eq_false hv, Bool.or_false, h.state]

theorem ofNat_inj_iff (m n : Nat) : UInt8.ofNat m = UInt8.ofNat n ↔ m % 256 = n % 256 := by
  rw [← UInt8.toNat_inj, UInt8.toNat_ofNat', UInt8.toNat_ofNat']

theorem countShiftPair_press (s : (Nat → UInt8) × Nat) (w : Nat) :
    (countShiftPair s w false).1 w ≠ s.1 w := by
  rw [countShiftPair, if_neg Bool.false_ne_true]
  dsimp only
  rw [Function.update_self]
  intro h
  have hnat := congrArg UInt8.toNat h
  have hone : (1 : UInt8).toNat = 1 := rfl
  have hlt := UInt8.toNat_lt (s.1 w)
  rw [UInt8.toNat_add, hone] at hnat
  omega

theorem countShiftPair_release (s : (Nat → UInt8) × Nat) (w : Nat) :
    (countShiftPair s w true).1 w = s.1 w ↔ s.1 w = 0 := by
  rw [countShiftPair, if_pos rfl]
  dsimp only
  rw [Function.update_self]
  constructor
  · intro h
    by_contra hne
    rw [if_pos hne] at h
    have hnat := congrArg UInt8.toNat h
    have hone : (1 : UInt8).toNat = 1 := rfl
    have hlt := UInt8.toNat_lt (s.1 w)
    rw [UInt8.toNat_sub, hone] at hnat
    omega
  · intro h
    rw [if_neg (not_not_intro h)]

theorem Reads.countNone {s : (Nat → UInt8) × Nat} {c : Nat → Nat} (h : Reads s c) {w : Nat}
    (hw : c w = 0) : countShiftPair s w true = s := by
  have hzero : s.1 w = 0 := by
    rw [h.count, hw]
    rfl
  have hread : Reads (countShiftPair s w true) c := by
    rw [countShiftPair, if_pos rfl, hzero, if_neg (not_not_intro rfl)]
    refine ⟨fun v => ?_, fun v => ?_⟩
    · rw [← hzero, Function.update_eq_self, h.count]
    · dsimp only
      rw [if_neg (not_not_intro rfl), testBit_clear_bit, h.state]
      by_cases hv : v = w
      · rw [hv, hw]
        rfl
      · rw [decide_eq_false hv, Bool.not_false, Bool.and_true]
  exact hread.unique h

/-- The key goes to the other position and is of the modifier that is counted. -/
def Moves (plainMap : Nat → Nat) (keyDown : Nat → Bool) (k w : Nat) (d : Bool) : Prop :=
  keyDown k = !d ∧ isShiftKey plainMap k = true ∧ shiftOf plainMap k = w

theorem heldCount_moves (hk : k < keyBits) {w : Nat} (h : Moves plainMap keyDown k w d) :
    heldCount plainMap (Function.update keyDown k d) =
        Function.update (heldCount plainMap keyDown) w
          (if d then heldCount plainMap keyDown w + 1 else heldCount plainMap keyDown w - 1) ∧
      (d = false → heldCount plainMap keyDown w ≠ 0) := by
  obtain ⟨hpos, hkey, rfl⟩ := h
  cases d with
  | true => exact ⟨heldCount_press hk hkey hpos, fun h => absurd h (by decide)⟩
  | false =>
    obtain ⟨hcount, hne⟩ := heldCount_release hk hkey hpos
    exact ⟨hcount, fun _ => hne⟩

/-- **Where a key is counted, it moves**, or it goes up with no key of the modifier
down. -/
theorem inStep_counted {s : (Nat → UInt8) × Nat} (h : InStep plainMap keyDown s)
    (hk : k < keyBits) (w : Nat) :
    InStep plainMap (Function.update keyDown k d) (countShiftPair s w (!d)) ↔
      Unwrapped (heldCount plainMap (Function.update keyDown k d)) ∧
        (Moves plainMap keyDown k w d ∨
          d = false ∧ heldCount plainMap keyDown w = 0 ∧
            (isShiftKey plainMap k = true → keyDown k = d)) := by
  have hread := shiftstateOf_reads plainMap keyDown
  rw [← h.same] at hread
  have hread' := shiftstateOf_reads plainMap (Function.update keyDown k d)
  constructor
  · rintro ⟨hsame, hwrap⟩
    refine ⟨hwrap, ?_⟩
    rw [← hsame] at hread'
    have hother : ∀ v, v ≠ w → (countShiftPair s w (!d)).1 v = s.1 v := fun v hv =>
      Function.update_of_ne hv _ _
    by_cases hgoes : isShiftKey plainMap k = true ∧ keyDown k = !d
    · have hmoves : Moves plainMap keyDown k (shiftOf plainMap k) d := ⟨hgoes.2, hgoes.1, rfl⟩
      obtain ⟨hcount, hne⟩ := heldCount_moves hk hmoves
      by_cases hw : shiftOf plainMap k = w
      · exact .inl (hw ▸ hmoves)
      · have heq := (hread'.count _).symm.trans ((hother _ hw).trans (hread.count _))
        rw [hcount, Function.update_self, ofNat_inj_iff] at heq
        cases d with
        | true =>
          rw [if_pos rfl] at heq
          omega
        | false =>
          have hpos := hne rfl
          rw [if_neg Bool.false_ne_true] at heq
          omega
    · have hstays : isShiftKey plainMap k = true → keyDown k = d := fun hkey => by
        have hpos := fun h => hgoes ⟨hkey, h⟩
        cases d <;> simpa using hpos
      have heq := hread'.count w
      rw [heldCount_same hstays, ← hread.count] at heq
      cases d with
      | true => exact absurd heq (countShiftPair_press s w)
      | false =>
        have hzero := (countShiftPair_release s w).mp heq
        rw [hread.count, ← not_ne_iff, ofNat_ne_zero_iff, not_ne_iff] at hzero
        exact .inr ⟨rfl, h.unwrapped w hzero, hstays⟩
  · rintro ⟨hwrap, hmoves | ⟨rfl, hnone, hstays⟩⟩
    · refine ⟨?_, hwrap⟩
      obtain ⟨hcount, hne⟩ := heldCount_moves hk hmoves
      rw [hcount] at hread'
      have hwrapw := hwrap w
      rw [hcount, Function.update_self] at hwrapw
      cases d with
      | true =>
        rw [if_pos rfl] at hread' hwrapw
        exact ((hread.countPress w).mpr fun hzero => absurd (hwrapw hzero) (by omega)).unique hread'
      | false =>
        rw [if_neg Bool.false_ne_true] at hread' hwrapw
        exact ((hread.countRelease fun hzero => hne rfl (h.unwrapped w hzero)).mpr hwrapw).unique
          hread'
    · rw [Bool.not_false, hread.countNone hnone]
      exact (inStep_uncounted h hk).mpr hstays

/-- After `compute_shiftstate` only a count that wraps is out of step. -/
theorem inStep_recomputed :
    InStep plainMap keyDown (shiftstateOf plainMap keyDown) ↔
      Unwrapped (heldCount plainMap keyDown) :=
  ⟨InStep.unwrapped, fun h => ⟨rfl, h⟩⟩

end

/-! ### Events in order -/

namespace Xlate

/-- The modifier that the event is counted for. -/
def countsFor (down : Nat) : Fate → Option Nat
  | .handled type value =>
    if (type = ktShift ∨ type = ktSlock) ∧ down ≠ 2 then some (modifierOf value) else none
  | _ => none

/-- The event ends in `compute_shiftstate`. -/
def recomputes (x : Xlate) (down : Nat) : Fate → Bool
  | .missing => true
  | .handled type value => x.callsNull type value down
  | _ => false

theorem shiftAfter_recomputes (e : Env) (x : Xlate) (keyDown : Nat → Bool) (down : Nat) (f : Fate)
    (h : x.recomputes down f = true) :
    x.shiftAfter e keyDown down f = shiftstateOf e.plainMap keyDown := by
  cases f with
  | missing => rw [shiftAfter]
  | handled type value =>
    rw [recomputes] at h
    rw [shiftAfter, if_pos h]
  | _ => exact absurd h Bool.false_ne_true

theorem shiftAfter_counts (e : Env) (x : Xlate) (keyDown : Nat → Bool) (down : Nat) (f : Fate)
    (h : x.recomputes down f = false) :
    x.shiftAfter e keyDown down f = (countsFor down f).elim x.mods.shift
      fun w => countShiftPair x.mods.shift w (!decide (down ≠ 0)) := by
  cases f with
  | missing => exact absurd h.symm Bool.false_ne_true
  | handled type value =>
    have hup : (!decide (down ≠ 0)) = decide (down = 0) := by simp
    rw [recomputes] at h
    rw [shiftAfter, if_neg (Bool.eq_false_iff.mp h), countsFor, hup]
    split_ifs <;> rfl
  | _ => rfl

end Xlate

variable {N : Nat}

/-- **Counts and state agree with the keys that are down**: they are what
`compute_shiftstate` would give, and a bit is set where the count is not 0. -/
structure Agrees (e : Env) (m : Machine N) : Prop where
  settled : m.mods.Settled e.plainMap m.keyDown
  bits : ∀ v, m.mods.shiftState.testBit v = decide (m.mods.shiftDown v ≠ 0)

/-- **The event leaves counts and state in order.**  SysRq takes it; or no modifier has
256 keys down and the counts are made anew, or a counted key goes down when it is up
or up when it is down (or up with no key of the modifier down), or a key that is not
counted is no modifier or stays where it is. -/
def KeyInOrder (e : Env) (m : Machine N) (v : Fin N) (keycode value : Nat) : Prop :=
  let f := (m.xlate v).fate e keycode value
  let stays := isShiftKey e.plainMap keycode = true → m.keyDown keycode = decide (value ≠ 0)
  f = .taken ∨
    Unwrapped (heldCount e.plainMap (Xlate.setKey m.keyDown keycode value)) ∧
      ((m.xlate v).recomputes value f = true ∨
        (Xlate.countsFor value f).elim stays fun w =>
          Moves e.plainMap m.keyDown keycode w (decide (value ≠ 0)) ∨
            decide (value ≠ 0) = false ∧ heldCount e.plainMap m.keyDown w = 0 ∧ stays)

/-- What happens leaves counts and state in order. -/
def StepInOrder (e : Env) (m : Machine N) : ModeOp N → Prop
  | .event v (.key keycode value) => KeyInOrder e m v keycode value
  | _ => True

/-- The code of an event is a bit of `key_down`. -/
def InBitmap : ModeOp N → Prop
  | .event _ (.key keycode _) => keycode < keyBits
  | _ => True

theorem agrees_iff (e : Env) (m : Machine N) :
    Agrees e m ↔ InStep e.plainMap m.keyDown m.mods.shift := by
  have hread := shiftstateOf_reads e.plainMap m.keyDown
  constructor
  · rintro ⟨hset, hbits⟩
    have hsame : m.mods.shift = shiftstateOf e.plainMap m.keyDown := Eq.symm hset
    rw [← hsame] at hread
    refine ⟨hsame, fun w hzero => ?_⟩
    have hbit := hread.state w
    have hcount : m.mods.shiftDown w = UInt8.ofNat _ := hread.count w
    rw [show m.mods.shift.2 = m.mods.shiftState from rfl, hbits, hcount, decide_eq_decide,
      ofNat_ne_zero_iff] at hbit
    by_contra hne
    exact hbit.mpr hne hzero
  · rintro ⟨hsame, hwrap⟩
    rw [← hsame] at hread
    refine ⟨hsame.symm, fun w => ?_⟩
    have hcount : m.mods.shiftDown w = UInt8.ofNat _ := hread.count w
    rw [show m.mods.shiftState = m.mods.shift.2 from rfl, hread.state, hcount, decide_eq_decide,
      ofNat_ne_zero_iff]
    exact not_congr ⟨fun h => by rw [h], hwrap w⟩

namespace Machine

variable {P : Pools N} {e : Env} {m : Machine N}

/-- **One key event.** -/
theorem agrees_key (h : Agrees e m) (v : Fin N) {keycode : Nat} (hk : keycode < keyBits)
    (value : Nat) : Agrees e (m.key P e v keycode value) ↔ KeyInOrder e m v keycode value := by
  rw [agrees_iff] at h
  obtain ⟨hbits, hshift⟩ := key_fate P e m v keycode value
  rw [agrees_iff, hbits, hshift, KeyInOrder]
  have hmods : (m.xlate v).mods.shift = m.mods.shift := rfl
  generalize (m.xlate v).fate e keycode value = f
  by_cases htaken : f = .taken
  · rw [if_pos htaken, htaken]
    exact iff_of_true h (.inl rfl)
  rw [if_neg htaken, or_iff_right htaken]
  by_cases hrec : (m.xlate v).recomputes value f = true
  · rw [Xlate.shiftAfter_recomputes e _ _ _ _ hrec, inStep_recomputed]
    exact (and_iff_left (.inl hrec)).symm
  · rw [Xlate.shiftAfter_counts e _ _ _ _ (Bool.eq_false_iff.mpr hrec), or_iff_right hrec, hmods]
    cases Xlate.countsFor value f with
    | some w => exact inStep_counted h hk w
    | none =>
      refine (inStep_uncounted h hk).trans ⟨fun hstays => ⟨?_, hstays⟩, fun hboth => hboth.2⟩
      rw [Xlate.setKey, heldCount_same hstays]
      exact h.unwrapped

/-- What is no key event leaves the bitmap, and the counts as they are or anew. -/
theorem agrees_of_globals {m' : Machine N} (h : Agrees e m) (hkeys : m'.keyDown = m.keyDown)
    (hshift : m'.mods.shift = m.mods.shift ∨ m'.mods.shift = shiftstateOf e.plainMap m.keyDown) :
    Agrees e m' := by
  rw [agrees_iff] at h ⊢
  rw [hkeys]
  rcases hshift with hsame | hanew
  · rw [hsame]
    exact h
  · rw [hanew]
    exact inStep_recomputed.mpr h.unwrapped

/-- **One step.** -/
theorem agrees_op (h : Agrees e m) (o : ModeOp N) (hk : InBitmap o) :
    Agrees e (m.op P e o) ↔ StepInOrder e m o := by
  cases o with
  | event v ev =>
    cases ev with
    | key keycode value => exact agrees_key h v hk value
    | raw data =>
      refine iff_of_true ?_ trivial
      rw [op, step]
      dsimp only
      split_ifs
      · exact agrees_of_globals h rfl (.inl rfl)
      · exact h
    | work goes =>
      refine iff_of_true ?_ trivial
      obtain ⟨hkeys, hshift⟩ := work_globals e m v goes
      refine agrees_of_globals h hkeys ?_
      rw [op, step]
      dsimp only
      rw [hshift]
      split_ifs
      · exact .inr rfl
      · exact .inl rfl
  | kdskbmode v i mode =>
    refine iff_of_true ?_ trivial
    obtain ⟨hkeys, hshift⟩ := kdskbmode_globals e m v i mode
    refine agrees_of_globals h hkeys ?_
    rw [op, hshift]
    split_ifs
    · exact .inr rfl
    · exact .inl rfl
  | setKbd v i kbd => exact iff_of_true (agrees_of_globals h rfl (.inl rfl)) trivial
  | activate v i => exact iff_of_true (agrees_of_globals h rfl (.inl rfl)) trivial
  | reldisp v i =>
    obtain ⟨hkeys, hshift⟩ := completeChange_globals e m v i
    exact iff_of_true (agrees_of_globals h hkeys (.inr hshift)) trivial

/-- **Counts, state and keys agree all along a run exactly if every event of the run
leaves them in order.** -/
theorem shift_agree_iff (P : Pools N) (e : Env) (m : Machine N) (h : Agrees e m)
    (ops : List (ModeOp N)) (hops : ∀ o ∈ ops, InBitmap o) :
    Along (op P e) (fun m o => Agrees e (m.op P e o)) m ops ↔
      Along (op P e) (StepInOrder e) m ops := by
  rw [← Lib.along_and_mem hops, ← Lib.along_and_mem (P := StepInOrder e) hops]
  exact Lib.along_congr (I := Agrees e) (fun m o _ hnext => hnext.2)
    (fun m o hm => and_congr_right (agrees_op hm o)) h

end Machine

/-! ### Maps that agree on the modifiers -/

/-- The maps give each key the same modifier. -/
def SameModifiers (e : Env) : Prop :=
  ∀ i m, Xlate.keyMap e i = some m → ∀ k < e.nrKeys,
    isShiftKey m k = true ∨ isShiftKey e.plainMap k = true → m k = e.plainMap k

theorem ktyp_eq (sym : Nat) : ktyp sym = sym >>> 8 ^^^ 0xf0 := by
  rw [ktyp, Nat.shiftRight_xor_distrib]
  rfl

theorem Xlate.countsFor_some {f : Fate} {down w : Nat} (h : countsFor down f = some w) :
    ∃ type value, f = .handled type value ∧ (type = ktShift ∨ type = ktSlock) ∧ down ≠ 2 ∧
      w = modifierOf value := by
  cases f with
  | handled type value =>
    rw [countsFor] at h
    split_ifs at h with htype
    exact ⟨type, value, rfl, htype.1, htype.2, (Option.some.inj h).symm⟩
  | _ => exact absurd h (Option.some_ne_none w).symm

theorem Xlate.lookupFate_counts {e : Env} {x : Xlate} {keycode down w : Nat}
    (h : countsFor down (x.lookupFate e keycode) = some w) :
    keycode ≤ e.nrKeys ∧ ∃ m, keyMap e x.shiftFinal = some m ∧ isShiftKey m keycode = true ∧
      shiftOf m keycode = w := by
  obtain ⟨type, value, hf, htype, -, rfl⟩ := countsFor_some h
  obtain ⟨hle, m, hmap, hsym, htv⟩ := x.lookupFate_handled e hf
  refine ⟨hle, m, hmap, ?_⟩
  rcases x.typeAndValue_cases e (m keycode) keycode with ⟨letter, hlatin⟩ | hplain
  · obtain ⟨rfl, -⟩ := Prod.mk.inj (hlatin.symm.trans htv)
    exact absurd htype (by decide)
  · obtain ⟨rfl, rfl⟩ := Prod.mk.inj (hplain.symm.trans htv)
    have hhigh : m keycode >>> 8 = 0xf7 ∨ m keycode >>> 8 = 0xfc := by
      rw [ktShift, ktSlock] at htype
      omega
    refine ⟨?_, rfl⟩
    rw [isShiftKey, ktyp_eq]
    rcases hhigh with hhigh | hhigh <;> rw [hhigh] <;> rfl

/-- **With such maps a key that is counted is a key of that modifier**, but for the
code `NR_KEYS`, whose entry is behind the map. -/
theorem counted_own {e : Env} (he : SameModifiers e) {x : Xlate} {keycode down w : Nat}
    (hk : keycode ≠ e.nrKeys) (h : Xlate.countsFor down (x.fate e keycode down) = some w) :
    isShiftKey e.plainMap keycode = true ∧ shiftOf e.plainMap keycode = w := by
  rw [Xlate.fate] at h
  split_ifs at h
  · exact absurd h (Option.some_ne_none w).symm
  · exact absurd h (Option.some_ne_none w).symm
  · obtain ⟨hle, m, hmap, hkey, hw⟩ := Xlate.lookupFate_counts h
    have hsame := he _ m hmap keycode (by omega) (.inl hkey)
    rw [isShiftKey, hsame] at hkey
    rw [shiftOf, hsame] at hw
    exact ⟨hkey, hw⟩

/-! ### One Shift key -/

theorem heldCount_none (plainMap : Nat → Nat) (w : Nat) :
    heldCount plainMap (fun _ => false) w = 0 := by
  rw [heldCount, heldBelow, Finset.card_eq_zero, Finset.filter_eq_empty_iff]
  exact fun k _ h => Bool.false_ne_true h.1

theorem agrees_of_none {N : Nat} (e : Env) {m : Machine N} (hkeys : m.keyDown = fun _ => false)
    (hshift : m.mods.shift = (fun _ => 0, 0)) : Agrees e m := by
  rw [agrees_iff, hkeys, hshift]
  have hread := shiftstateOf_reads e.plainMap fun _ => false
  have hcount := funext (heldCount_none e.plainMap)
  rw [hcount] at hread
  refine ⟨Reads.unique ⟨fun _ => rfl, fun w => Nat.zero_testBit w⟩ hread, ?_⟩
  rw [hcount]
  exact fun _ _ => rfl

theorem unwrapped_of_few {plainMap : Nat → Nat}
    (h : ∀ w, heldCount plainMap (fun _ => true) w < 256) (keyDown : Nat → Bool) :
    Unwrapped (heldCount plainMap keyDown) := by
  intro w hzero
  have hle : heldCount plainMap keyDown w ≤ heldCount plainMap (fun _ => true) w := by
    rw [heldCount, heldCount, heldBelow, heldBelow]
    refine Finset.card_le_card fun k hk => ?_
    rw [Finset.mem_filter] at hk ⊢
    have hheld := hk.2
    rw [holds, Bool.and_eq_true] at hheld
    exact ⟨hk.1, hheld.1.2, hheld.2⟩
  have hlt := h w
  omega

theorem letterKeys_shiftKey {k : Nat} (h : isShiftKey letterKeys.plainMap k = true) : k = 42 := by
  by_contra hne
  have hsym : letterKeys.plainMap k = 0xfb61 ∨ letterKeys.plainMap k = 0xfb71 ∨
      letterKeys.plainMap k = 0xf200 := by
    rw [letterKeys]
    dsimp only
    rw [if_neg hne]
    split_ifs
    · exact .inl rfl
    · exact .inr (.inl rfl)
    · exact .inr (.inr rfl)
  rw [isShiftKey] at h
  rcases hsym with hsym | hsym | hsym <;> rw [hsym] at h <;> exact absurd h (by decide)

theorem letterKeys_few (w : Nat) : heldCount letterKeys.plainMap (fun _ => true) w < 256 := by
  have hone : heldCount letterKeys.plainMap (fun _ => true) w ≤ ({42} : Finset Nat).card := by
    rw [heldCount, heldBelow]
    refine Finset.card_le_card fun k hk => ?_
    rw [Finset.mem_filter] at hk
    exact Finset.mem_singleton.mpr (letterKeys_shiftKey hk.2.1)
  rw [Finset.card_singleton] at hone
  omega

theorem letterKeys_sameModifiers : SameModifiers letterKeys := by
  intro i m hmap k _ hkey
  rw [Xlate.keyMap] at hmap
  split_ifs at hmap
  · rw [← Option.some.inj hmap]
  · rw [letterKeys] at hmap
    dsimp only at hmap
    split_ifs at hmap
    have hm := Option.some.inj hmap
    have hother : k ≠ 30 ∧ k ≠ 16 := by
      constructor
      · rintro rfl
        rw [← hm] at hkey
        exact absurd hkey (by decide)
      · rintro rfl
        rw [← hm] at hkey
        exact absurd hkey (by decide)
    rw [← hm, letterKeys]
    dsimp only
    rw [if_neg hother.1, if_neg hother.2, if_neg hother.1, if_neg hother.2]

/-- Shift pressed and released. -/
def shiftTap (v : Fin N) : List (ModeOp N) := [.event v (.key 42 1), .event v (.key 42 0)]

/-- Shift pressed and released is counted as the keys say. -/
theorem shift_agree_iff_tap :
    Along (Machine.op twoPools letterKeys)
      (fun m o => Agrees letterKeys (m.op twoPools letterKeys o)) twoSeats (shiftTap 0) := by
  have hin : ∀ o ∈ shiftTap (0 : Fin 2), InBitmap o := by
    intro o ho
    rcases List.mem_pair.mp ho with rfl | rfl <;> exact (by decide : 42 < keyBits)
  refine (Machine.shift_agree_iff twoPools letterKeys twoSeats (agrees_of_none letterKeys rfl rfl)
    (shiftTap 0) hin).mpr ⟨?_, ?_, trivial⟩
  · refine .inr ⟨unwrapped_of_few letterKeys_few _, .inr ?_⟩
    rw [show Xlate.countsFor 1 ((twoSeats.xlate 0).fate letterKeys 42 1) = some 0 by decide +kernel]
    exact .inl ⟨by decide, by decide, by decide⟩
  · refine .inr ⟨unwrapped_of_few letterKeys_few _, .inr ?_⟩
    rw [show Xlate.countsFor 0 (((twoSeats.op twoPools letterKeys (.event 0 (.key 42 1))).xlate
      0).fate letterKeys 42 0) = some 0 by decide +kernel]
    exact .inl ⟨by decide +kernel, by decide, by decide⟩

/-- Shift pressed on two keyboards. -/
def twoShifts (v w : Fin N) : List (ModeOp N) := [.event v (.key 42 1), .event w (.key 42 1)]

/-- **Two Shift keys of two keyboards are counted as two and recomputed as one.** -/
theorem shift_disagrees :
    SameModifiers letterKeys ∧ Agrees letterKeys twoSeats ∧
      (∀ o ∈ twoShifts (0 : Fin 2) 1, InBitmap o) ∧
        ¬ Agrees letterKeys
          (Lib.run (Machine.op twoPools letterKeys) twoSeats (twoShifts 0 1)) := by
  refine ⟨letterKeys_sameModifiers, agrees_of_none letterKeys rfl rfl, ?_, fun h => ?_⟩
  · intro o ho
    rcases List.mem_pair.mp ho with rfl | rfl <;> exact (by decide : 42 < keyBits)
  · have hcount := congrFun (congrArg Prod.fst h.settled) 0
    revert hcount
    decide +kernel

end LinuxConsole.Input

import LinuxConsole.Lib.Run
import Mathlib.Logic.Function.Basic

/-!
# The keycode table of a keyboard

A keyboard translates scancodes by a table of keycodes, and `keybit` says which keys it
can have.  `setkeycode` replaces an entry of the table: it takes the old keycode out of
`keybit`, puts the new one in, and then puts the old one back if it is found anywhere in
the table.

`Keycodes` is what `INPUT_KEYCODE` and `SET_INPUT_KEYCODE` do with a table whose entries
can hold the keycodes that are stored; bytes hold those below 256.

**`keybit_follows`**: along every sequence of calls `keybit` has all keycodes of the
table, a keycode that the table no longer has is taken out, and nothing else changes.
-/

namespace LinuxConsole.Input

open Lib

/-! ### The table -/

/-- `INPUT_KEYCODE` reads an entry, and `SET_INPUT_KEYCODE` replaces it and returns the
old one. -/
structure Keycodes (T : Type) where
  inputKeycode : T → Nat → Nat
  setInputKeycode : T → Nat → Nat → Nat × T
  old : ∀ t i k, (setInputKeycode t i k).1 = inputKeycode t i
  read : ∀ t i k j, inputKeycode (setInputKeycode t i k).2 j = if j = i then k else inputKeycode t j

/-- A table that is a function. -/
def plainKeycodes : Keycodes (Nat → Nat) where
  inputKeycode t i := t i
  setInputKeycode t i k := (t i, Function.update t i k)
  old _ _ _ := rfl
  read t i k j := Function.update_apply t i k j

/-- What the functions use of a `struct input_dev`. -/
structure KeyDev (T : Type) where
  keycodesize : Nat
  keycodemax : Nat
  keycode : T
  keybit : Nat → Bool

/-- `KEY_MAX`. -/
def keyMax : Nat := 0x1ff

def enodev : Int := 19
def einval : Int := 22

variable {T : Type} (K : Keycodes T)

/-- `getkeycode`; `dev` is that of the handle, if it has one. -/
def getkeycode (dev : Option (KeyDev T)) (scancode : Nat) : Int :=
  match dev with
  | none => -enodev
  | some dev =>
    if dev.keycodesize = 0 ∨ scancode ≥ dev.keycodemax then -einval
    else K.inputKeycode dev.keycode scancode

/-- The end of `setkeycode`: the bit of the old key is set if the table has the key. -/
def KeyDev.findOldkey (dev : KeyDev T) (oldkey : Nat) : KeyDev T :=
  { dev with
    keybit := (List.range dev.keycodemax).foldl (fun keybit i =>
      if K.inputKeycode dev.keycode i = oldkey then Function.update keybit oldkey true
      else keybit) dev.keybit }

/-- `setkeycode` with the value that it returns. -/
def setkeycode (dev : Option (KeyDev T)) (scancode keycode : Nat) : Int × Option (KeyDev T) :=
  match dev with
  | none => (-enodev, none)
  | some dev =>
    if dev.keycodesize = 0 ∨ scancode ≥ dev.keycodemax ∨ keycode > keyMax then (-einval, some dev)
    else
      let (oldkey, table) := K.setInputKeycode dev.keycode scancode keycode
      let keybit := Function.update dev.keybit oldkey false
      let keybit := Function.update keybit keycode true
      (0, some ({ dev with keycode := table, keybit := keybit }.findOldkey K oldkey))

/-- The handle's device after a call with a scancode and a keycode. -/
def setkeycodeStep (dev : Option (KeyDev T)) (call : Nat × Nat) : Option (KeyDev T) :=
  (setkeycode K dev call.1 call.2).2

/-! ### What a call does -/

/-- The table of the device has the keycode. -/
def KeyDev.Has (dev : KeyDev T) (c : Nat) : Prop :=
  ∃ i < dev.keycodemax, K.inputKeycode dev.keycode i = c

/-- **`keybit` has every keycode of the table.** -/
def Covered (dev : Option (KeyDev T)) : Prop := ∀ d ∈ dev, ∀ c, d.Has K c → d.keybit c = true

/-- The call is carried out. -/
def Accepted (dev : KeyDev T) (call : Nat × Nat) : Prop :=
  dev.keycodesize ≠ 0 ∧ call.1 < dev.keycodemax ∧ call.2 ≤ keyMax

/-- **A call that is carried out**: the table has the new keycode in the place of the old
one, `keybit` has every keycode of the table, the old one no longer if the table has not,
and all others as before. -/
structure Replaced (call : Nat × Nat) (d d' : KeyDev T) : Prop where
  size : d'.keycodesize = d.keycodesize ∧ d'.keycodemax = d.keycodemax
  table : ∀ i, K.inputKeycode d'.keycode i =
    if i = call.1 then call.2 else K.inputKeycode d.keycode i
  covered : ∀ c, d'.Has K c → d'.keybit c = true
  removed : ¬d'.Has K (K.inputKeycode d.keycode call.1) →
    d'.keybit (K.inputKeycode d.keycode call.1) = false
  kept : ∀ c, c ≠ K.inputKeycode d.keycode call.1 → c ≠ call.2 → d'.keybit c = d.keybit c

/-- **What a call does**: it is carried out and returns 0, or it returns an error and
changes nothing. -/
def Follows (dev : Option (KeyDev T)) (call : Nat × Nat) : Prop :=
  (∃ d d', dev = some d ∧ Accepted d call ∧ setkeycode K dev call.1 call.2 = (0, some d') ∧
    Replaced K call d d') ∨
  ((∀ d ∈ dev, ¬Accepted d call) ∧ (setkeycode K dev call.1 call.2).1 < 0 ∧
    (setkeycode K dev call.1 call.2).2 = dev)

variable {K}

theorem foldl_findOldkey {f : Nat → Bool} {old : Nat} (n : Nat) (t : T) (c : Nat) :
    (List.range n).foldl (fun keybit i =>
      if K.inputKeycode t i = old then Function.update keybit old true else keybit) f c = true ↔
      (c = old ∧ ∃ i < n, K.inputKeycode t i = old) ∨ f c = true := by
  induction n with
  | zero => simp
  | succ n ih =>
    rw [List.range_succ, List.foldl_append, List.foldl_cons, List.foldl_nil]
    by_cases hn : K.inputKeycode t n = old
    · rw [if_pos hn]
      by_cases hc : c = old
      · subst hc
        rw [Function.update_self]
        exact iff_of_true rfl (.inl ⟨rfl, n, Nat.lt_succ_self n, hn⟩)
      · rw [Function.update_of_ne hc, ih]
        simp [hc]
    · have hiff : (∃ i < n + 1, K.inputKeycode t i = old) ↔ ∃ i < n, K.inputKeycode t i = old := by
        constructor
        · rintro ⟨i, hi, heq⟩
          rcases Nat.lt_succ_iff_lt_or_eq.mp hi with hlt | rfl
          · exact ⟨i, hlt, heq⟩
          · exact absurd heq hn
        · rintro ⟨i, hi, heq⟩
          exact ⟨i, Nat.lt_succ_of_lt hi, heq⟩
      rw [if_neg hn, ih, hiff]

/-- **The call in one piece**: what a device is after a call that is carried out. -/
theorem setkeycode_accepted {d : KeyDev T} {call : Nat × Nat} (h : Accepted d call) :
    ∃ d', setkeycode K (some d) call.1 call.2 = (0, some d') ∧
      d'.keycodesize = d.keycodesize ∧ d'.keycodemax = d.keycodemax ∧
      d'.keycode = (K.setInputKeycode d.keycode call.1 call.2).2 ∧
      ∀ c, d'.keybit c = true ↔ (c = K.inputKeycode d.keycode call.1 ∧ d'.Has K c) ∨
        c = call.2 ∨ (c ≠ K.inputKeycode d.keycode call.1 ∧ d.keybit c = true) := by
  obtain ⟨hsize, hscan, hkey⟩ := h
  have hok : ¬(d.keycodesize = 0 ∨ call.1 ≥ d.keycodemax ∨ call.2 > keyMax) := by omega
  rw [setkeycode]
  dsimp only
  rw [if_neg hok]
  refine ⟨_, rfl, rfl, rfl, rfl, fun c => ?_⟩
  rw [KeyDev.findOldkey]
  dsimp only
  rw [foldl_findOldkey, K.old]
  refine or_congr (and_congr_right fun hc => ?_) ?_
  · subst hc
    exact Iff.rfl
  · by_cases hnew : c = call.2
    · subst hnew
      rw [Function.update_self]
      exact iff_of_true rfl (.inl rfl)
    · rw [Function.update_of_ne hnew]
      by_cases hold : c = K.inputKeycode d.keycode call.1
      · subst hold
        rw [Function.update_self]
        simp [hnew]
      · rw [Function.update_of_ne hold]
        simp [hnew, hold]

/-- **One call** that is carried out. -/
theorem setkeycode_replaced {d d' : KeyDev T} {call : Nat × Nat} (h : Accepted d call)
    (hcovered : Covered K (some d)) (hcall : setkeycode K (some d) call.1 call.2 = (0, some d')) :
    Replaced K call d d' := by
  obtain ⟨d'', heq, hsize, hmax, htable, hbits⟩ := setkeycode_accepted (K := K) h
  obtain rfl : d'' = d' := by
    rw [heq] at hcall
    exact Option.some.inj (Prod.mk.inj hcall).2
  have hread : ∀ i, K.inputKeycode d''.keycode i =
      if i = call.1 then call.2 else K.inputKeycode d.keycode i := by
    intro i
    rw [htable, K.read]
  refine ⟨⟨hsize, hmax⟩, hread, fun c hhas => ?_, fun hgone => ?_, fun c hold hnew => ?_⟩
  · rw [hbits]
    by_cases hold : c = K.inputKeycode d.keycode call.1
    · exact .inl ⟨hold, hhas⟩
    · obtain ⟨i, hi, hc⟩ := hhas
      rw [hread] at hc
      split_ifs at hc with hplace
      · exact .inr (.inl hc.symm)
      · have hbit : d.keybit c = true := hcovered d rfl c ⟨i, hmax ▸ hi, hc⟩
        exact .inr (.inr ⟨hold, hbit⟩)
  · -- the new keycode is in the table, so it is not the old one
    have hne : K.inputKeycode d.keycode call.1 ≠ call.2 := by
      intro hsame
      apply hgone
      exact ⟨call.1, hmax ▸ h.2.1, by rw [hread, if_pos rfl, hsame]⟩
    rw [Bool.eq_false_iff, Ne, hbits]
    rintro (⟨-, hhas⟩ | hnew | ⟨hold, -⟩)
    · exact hgone hhas
    · exact hne hnew
    · exact hold rfl
  · rw [Bool.eq_iff_iff, hbits]
    simp [hold, hnew]

/-- **What is set is read back**, and nothing else changes for `getkeycode`. -/
theorem getkeycode_setkeycode {d : KeyDev T} {call : Nat × Nat} (h : Accepted d call)
    (scancode : Nat) :
    getkeycode K (setkeycodeStep K (some d) call) scancode =
      if scancode = call.1 then (call.2 : Int) else getkeycode K (some d) scancode := by
  obtain ⟨d', hcall, hsize, hmax, htable, -⟩ := setkeycode_accepted (K := K) h
  have hread : K.inputKeycode d'.keycode scancode =
      if scancode = call.1 then call.2 else K.inputKeycode d.keycode scancode := by
    rw [htable, K.read]
  rw [setkeycodeStep, hcall, getkeycode, getkeycode, hsize, hmax, hread]
  by_cases hplace : scancode = call.1
  · have hok : ¬(d.keycodesize = 0 ∨ scancode ≥ d.keycodemax) := by
      rw [hplace]
      exact fun hbad => hbad.elim h.1 (Nat.not_le.mpr h.2.1)
    rw [if_neg hok, if_pos hplace, if_pos hplace]
  · rw [if_neg hplace, if_neg hplace]

theorem setkeycode_rejected {dev : Option (KeyDev T)} {call : Nat × Nat}
    (h : ∀ d ∈ dev, ¬Accepted d call) :
    (setkeycode K dev call.1 call.2).1 < 0 ∧ (setkeycode K dev call.1 call.2).2 = dev := by
  cases dev with
  | none => exact ⟨show -enodev < 0 by decide, rfl⟩
  | some d =>
    have hbad : d.keycodesize = 0 ∨ call.1 ≥ d.keycodemax ∨ call.2 > keyMax := by
      have hno := h d rfl
      rw [Accepted] at hno
      omega
    rw [setkeycode]
    dsimp only
    rw [if_pos hbad]
    exact ⟨show -einval < 0 by decide, rfl⟩

/-- **Every call does what it should** where `keybit` has all keycodes of the table. -/
theorem setkeycode_follows {dev : Option (KeyDev T)} (h : Covered K dev) (call : Nat × Nat) :
    Follows K dev call := by
  by_cases haccepted : ∃ d ∈ dev, Accepted d call
  · obtain ⟨d, rfl, hd⟩ := haccepted
    obtain ⟨d', hcall, -⟩ := setkeycode_accepted (K := K) hd
    exact .inl ⟨d, d', rfl, hd, hcall, setkeycode_replaced hd h hcall⟩
  · have hnone : ∀ d ∈ dev, ¬Accepted d call := fun d hd hacc => haccepted ⟨d, hd, hacc⟩
    exact .inr ⟨hnone, setkeycode_rejected hnone⟩

theorem covered_step {dev : Option (KeyDev T)} (h : Covered K dev) (call : Nat × Nat) :
    Covered K (setkeycodeStep K dev call) := by
  rcases setkeycode_follows h call with ⟨d, d', -, -, hcall, hreplaced⟩ | ⟨-, -, hsame⟩
  · rw [setkeycodeStep, hcall]
    rintro d hd c hhas
    obtain rfl := Option.some.inj hd
    exact hreplaced.covered c hhas
  · rw [setkeycodeStep, hsame]
    exact h

variable (K)

/-- **Along every sequence of calls `keybit` follows the table.** -/
theorem keybit_follows {dev : Option (KeyDev T)} (h : Covered K dev) (calls : List (Nat × Nat)) :
    Along (setkeycodeStep K) (Follows K) dev calls ∧
      Covered K (run (setkeycodeStep K) dev calls) := by
  have hsteps : Along (setkeycodeStep K) (Follows K) dev calls :=
    Along.imp (I := Covered K) (fun s a hs _ => covered_step hs a)
      (fun s a hs _ => setkeycode_follows hs a) h (along_true calls)
  exact ⟨hsteps, run_invariant (I := Covered K) (fun s a hs => covered_step hs a) h calls⟩

/-! ### A table with a keycode twice -/

/-- Both scancodes are keycode 30. -/
def twoKeys : KeyDev (Nat → Nat) := ⟨1, 2, fun _ => 30, fun c => decide (c = 30)⟩

/-- The first is replaced, the bit of 30 stays; the second is replaced, and it goes; the
third call is for no entry. -/
theorem keybit_follows_twoKeys :
    Along (setkeycodeStep plainKeycodes) (Follows plainKeycodes) (some twoKeys)
        [(0, 31), (1, 31), (2, 31)] ∧
      Covered plainKeycodes
        (run (setkeycodeStep plainKeycodes) (some twoKeys) [(0, 31), (1, 31), (2, 31)]) := by
  refine keybit_follows plainKeycodes (fun d hd c hhas => ?_) _
  obtain rfl := Option.some.inj hd
  obtain ⟨i, -, rfl⟩ := hhas
  rfl

end LinuxConsole.Input

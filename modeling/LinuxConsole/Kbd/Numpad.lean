import Mathlib.Data.List.Induction
import Mathlib.Data.Nat.Prime.Basic
import Mathlib.Tactic.Ring
import LinuxConsole.Kbd.MediumRaw
import LinuxConsole.Kbd.Modes

/-!
# Numbers typed on the pad

With a modifier held, the keys of type `KT_ASCII` put a number together in
`npadch`, and the release of the modifier sends it.  `npadch` is an `int` that
wraps around, and -1 in it means that there is no number yet; a number that has
come to -1 is lost, and the next digit begins another.

`lastRun` are the digits from the last such beginning on, and `npadch` is their
value (`npadch_typed`).  What is lost with the digits before them changes the code
unless the base to the number of the digits after them makes up for it, because
the lost number is odd.  **`delivers_iff`** says when the code is the value of all
the digits.
-/

namespace LinuxConsole.Input

open Switch (KbdMode)

/-! ### Numbers -/

/-- The value of a list of digits. -/
def padValue (base : Nat) (ds : List Nat) : Nat := ds.foldl (fun n d => n * base + d) 0

/-- The value of an `int` that is -1. -/
def minusOne : Nat := 2 ^ 32 - 1

/-- **The digits since the number last began**: a digit after a number that has
come to -1 begins another. -/
def lastRun (base : Nat) (ds : List Nat) : List Nat :=
  ds.foldl
    (fun run d => if padValue base run % 2 ^ 32 = minusOne then [d] else run ++ [d]) []

section

variable {base : Nat}

theorem padValue_concat (ds : List Nat) (d : Nat) :
    padValue base (ds ++ [d]) = padValue base ds * base + d := by
  rw [padValue, List.foldl_concat, ← padValue]

theorem padValue_append (ds es : List Nat) :
    padValue base (ds ++ es) = padValue base ds * base ^ es.length + padValue base es := by
  induction es using List.reverseRecOn with
  | nil => simp [padValue]
  | append_singleton es e ih =>
    rw [← List.append_assoc, padValue_concat, padValue_concat, ih, List.length_append,
      List.length_singleton, Nat.pow_succ]
    ring

theorem lastRun_concat (ds : List Nat) (d : Nat) :
    lastRun base (ds ++ [d]) =
      if padValue base (lastRun base ds) % 2 ^ 32 = minusOne then [d]
      else lastRun base ds ++ [d] := by
  rw [lastRun, List.foldl_concat, ← lastRun]

theorem odd_of_minusOne {n : Nat} (h : n % 2 ^ 32 = minusOne) : n % 2 = 1 := by
  rw [minusOne] at h
  omega

/-- **What the last run leaves out is odd**, if it is anything. -/
theorem lastRun_split (heven : 2 ∣ base) (ds : List Nat) :
    ∃ lost, ds = lost ++ lastRun base ds ∧ (lost = [] ∨ padValue base lost % 2 = 1) := by
  induction ds using List.reverseRecOn with
  | nil => exact ⟨[], rfl, .inl rfl⟩
  | append_singleton ds d ih =>
    obtain ⟨lost, hds, hlost⟩ := ih
    rw [lastRun_concat]
    split_ifs with hrun
    · refine ⟨ds, rfl, .inr ?_⟩
      have hodd := odd_of_minusOne hrun
      rcases hlost with rfl | _
      · rw [List.nil_append] at hds
        rw [hds]
        exact hodd
      · have hne : (lastRun base ds).length ≠ 0 := by
          intro hzero
          rw [List.length_eq_zero_iff.mp hzero] at hodd
          exact Nat.zero_ne_one hodd
        have hpow : padValue base lost * base ^ (lastRun base ds).length % 2 = 0 :=
          Nat.mod_eq_zero_of_dvd (dvd_mul_of_dvd_right (dvd_pow heven hne) _)
        have hval := @padValue_append base lost (lastRun base ds)
        rw [← hds] at hval
        omega
    · exact ⟨lost, by rw [← List.append_assoc, ← hds], hlost⟩

/-- **The last run has the value of all the digits**, modulo a power of two, if
they are all in it or the base to the number of its digits is a multiple. -/
theorem padValue_lastRun (heven : 2 ∣ base) (k : Nat) (ds : List Nat) :
    padValue base (lastRun base ds) % 2 ^ k = padValue base ds % 2 ^ k ↔
      lastRun base ds = ds ∨ 2 ^ k ∣ base ^ (lastRun base ds).length := by
  obtain ⟨lost, hds, hlost⟩ := lastRun_split heven ds
  have hval := @padValue_append base lost (lastRun base ds)
  rw [← hds] at hval
  have hdvd : padValue base (lastRun base ds) % 2 ^ k = padValue base ds % 2 ^ k ↔
      2 ^ k ∣ padValue base lost * base ^ (lastRun base ds).length := by
    rw [hval]
    constructor
    · intro h
      have hmod : (padValue base lost * base ^ (lastRun base ds).length +
          padValue base (lastRun base ds)) ≡ 0 + padValue base (lastRun base ds) [MOD 2 ^ k] := by
        rw [Nat.zero_add]
        exact h.symm
      exact Nat.modEq_zero_iff_dvd.mp (Nat.ModEq.add_right_cancel' _ hmod)
    · rintro ⟨c, hc⟩
      rw [hc, Nat.mul_add_mod]
  rw [hdvd]
  rcases hlost with rfl | hodd
  · rw [List.nil_append] at hds
    exact iff_of_true (by rw [padValue, List.foldl_nil, Nat.zero_mul]; exact dvd_zero _)
      (.inl hds.symm)
  · have hcoprime : Nat.Coprime (2 ^ k) (padValue base lost) := by
      refine Nat.Coprime.pow_left k ((Nat.Prime.coprime_iff_not_dvd Nat.prime_two).mpr ?_)
      intro htwo
      omega
    rw [hcoprime.dvd_mul_left]
    refine (or_iff_right fun hsame => ?_).symm
    rw [hsame] at hds
    have hnil : lost = [] := by
      have := congrArg List.length hds
      rw [List.length_append] at this
      exact List.length_eq_zero_iff.mp (by omega)
    rw [hnil] at hodd
    exact Nat.zero_ne_one hodd

end

/-! ### Codes -/

/-- The bytes of `to_utf8`. -/
def utf8Bytes (ch : Nat) : List UInt8 :=
  if ch < 0x80 then [UInt8.ofNat ch]
  else if ch < 0x800 then [UInt8.ofNat (0xc0 ||| ch >>> 6), UInt8.ofNat (0x80 ||| (ch &&& 0x3f))]
  else
    [UInt8.ofNat (0xe0 ||| ch >>> 12), UInt8.ofNat (0x80 ||| (ch >>> 6 &&& 0x3f)),
      UInt8.ofNat (0x80 ||| (ch &&& 0x3f))]

theorem Console.flip_toUtf8 (c : Console) (ch : Nat) :
    (c.toUtf8 ch).flip = c.flip.map (· ++ (utf8Bytes ch).map fun b => (b, false)) := by
  rw [toUtf8, utf8Bytes]
  split_ifs
  · exact c.flip_putQueue ch
  · rw [flip_putQueue, flip_putQueue, Option.map_map]
    refine congrArg (Option.map · _) (funext fun l => ?_)
    simp only [Function.comp_apply, List.append_assoc, List.map_cons, List.map_nil,
      List.cons_append, List.nil_append]
  · rw [flip_putQueue, flip_putQueue, flip_putQueue, Option.map_map, Option.map_map]
    refine congrArg (Option.map · _) (funext fun l => ?_)
    simp only [Function.comp_apply, List.append_assoc, List.map_cons, List.map_nil,
      List.cons_append, List.nil_append]

theorem toNat_low (n : Nat) : (UInt8.ofNat (0x80 ||| (n &&& 0x3f))).toNat = 128 + n % 64 := by
  have hor : ∀ m < 64, (0x80 ||| m) % 256 = 128 + m := by decide
  have hand : n &&& 0x3f = n % 64 := Nat.and_two_pow_sub_one_eq_mod n 6
  rw [toNat_byte, hand, hor _ (Nat.mod_lt _ (by decide))]

theorem toNat_high {mark bits n : Nat} (h : ∀ m < bits, (mark ||| m) % 256 = mark + m)
    (hn : n < bits) : (UInt8.ofNat (mark ||| n)).toNat = mark + n := by
  rw [toNat_byte, h n hn]

/-- **Different characters have different bytes.** -/
theorem utf8Bytes_injective {a b : Nat} (ha : a < 65536) (hb : b < 65536)
    (h : utf8Bytes a = utf8Bytes b) : a = b := by
  have htwo : ∀ n, n < 0x800 → (UInt8.ofNat (0xc0 ||| n >>> 6)).toNat = 192 + n / 64 := by
    intro n hn
    rw [Nat.shiftRight_eq_div_pow]
    exact toNat_high (by decide : ∀ m < 32, (0xc0 ||| m) % 256 = 192 + m) (by omega)
  have hthree : ∀ n, n < 65536 → (UInt8.ofNat (0xe0 ||| n >>> 12)).toNat = 224 + n / 4096 := by
    intro n hn
    rw [Nat.shiftRight_eq_div_pow]
    exact toNat_high (by decide : ∀ m < 16, (0xe0 ||| m) % 256 = 224 + m) (by omega)
  rw [utf8Bytes, utf8Bytes] at h
  split_ifs at h
  · have h₁ := congrArg UInt8.toNat (List.cons.inj h).1
    rw [toNat_byte, toNat_byte] at h₁
    omega
  · exact absurd (congrArg List.length h) (by simp)
  · exact absurd (congrArg List.length h) (by simp)
  · exact absurd (congrArg List.length h) (by simp)
  · have h₁ := congrArg UInt8.toNat (List.cons.inj h).1
    have h₂ := congrArg UInt8.toNat (List.cons.inj (List.cons.inj h).2).1
    rw [htwo a (by omega), htwo b (by omega)] at h₁
    rw [toNat_low, toNat_low] at h₂
    omega
  · exact absurd (congrArg List.length h) (by simp)
  · exact absurd (congrArg List.length h) (by simp)
  · exact absurd (congrArg List.length h) (by simp)
  · have h₁ := congrArg UInt8.toNat (List.cons.inj h).1
    have h₂ := congrArg UInt8.toNat (List.cons.inj (List.cons.inj h).2).1
    have h₃ := congrArg UInt8.toNat (List.cons.inj (List.cons.inj (List.cons.inj h).2).2).1
    rw [hthree a ha, hthree b hb] at h₁
    rw [toNat_low, toNat_low, Nat.shiftRight_eq_div_pow, Nat.shiftRight_eq_div_pow] at h₂
    rw [toNat_low, toNat_low] at h₃
    omega

/-- How many codes the mode can send: bytes, or characters in Unicode mode. -/
def codeBits (unicode : Bool) : Nat := if unicode then 16 else 8

/-- The bytes of a code. -/
def codeBytes (unicode : Bool) (n : Nat) : List UInt8 :=
  if unicode then utf8Bytes n else [UInt8.ofNat n]

theorem codeBytes_injective {unicode : Bool} {a b : Nat} (ha : a < 2 ^ codeBits unicode)
    (hb : b < 2 ^ codeBits unicode) (h : codeBytes unicode a = codeBytes unicode b) : a = b := by
  cases unicode with
  | true => exact utf8Bytes_injective ha hb h
  | false =>
    have h₁ := congrArg UInt8.toNat (List.cons.inj h).1
    rw [toNat_byte, toNat_byte] at h₁
    have ha' : a < 256 := ha
    have hb' : b < 256 := hb
    omega

theorem codeBytes_ne_nil (unicode : Bool) (n : Nat) : codeBytes unicode n ≠ [] := by
  rw [codeBytes, utf8Bytes]
  split_ifs <;> exact List.cons_ne_nil _ _

/-! ### The keys -/

/-- The value of the key for a digit: `k_ascii` tells the base by it. -/
def padKey (base d : Nat) : Nat := if base = 16 then d + 10 else d

/-- Digit keys pressed, and `true` where they are released. -/
def Xlate.typeDigits (x : Xlate) (base : Nat) (keys : List (Nat × Bool)) : Xlate :=
  keys.foldl (fun x key => x.kAscii (padKey base key.1) key.2) x

/-- The digits of the keys that are pressed. -/
def digits (keys : List (Nat × Bool)) : List Nat :=
  keys.filterMap fun key => if key.2 then none else some key.1

theorem digits_concat (keys : List (Nat × Bool)) (key : Nat × Bool) :
    digits (keys ++ [key]) = if key.2 then digits keys else digits keys ++ [key.1] := by
  rw [digits, List.filterMap_append, ← digits]
  cases hup : key.2 <;> simp [hup]

theorem kAscii_digit (x : Xlate) {base d : Nat} (hbase : base = 10 ∨ base = 16) (hd : d < base) :
    x.kAscii (padKey base d) false = { x with
      mods.npadch := if x.mods.npadch = -1 then BitVec.ofNat 32 d
        else x.mods.npadch * BitVec.ofNat 32 base + BitVec.ofNat 32 d } := by
  rw [Xlate.kAscii, if_neg Bool.false_ne_true]
  rcases hbase with rfl | rfl
  · rw [show padKey 10 d = d from if_neg (by decide), if_pos hd, if_pos hd]
  · have hbig : ¬d + 10 < 10 := by omega
    rw [show padKey 16 d = d + 10 from if_pos rfl, if_neg hbig, if_neg hbig, Nat.add_sub_cancel]

theorem ofNat_eq_minusOne (n : Nat) : BitVec.ofNat 32 n = -1 ↔ n % 2 ^ 32 = minusOne := by
  rw [← BitVec.toNat_inj, BitVec.toNat_ofNat, show (-1 : BitVec 32).toNat = minusOne by decide]

/-- **The number on the pad** is the value of the last run, and nothing else has
changed. -/
theorem typeDigits_eq (x : Xlate) (hpad : x.mods.npadch = -1) {base : Nat}
    (hbase : base = 10 ∨ base = 16) {keys : List (Nat × Bool)}
    (hkeys : ∀ key ∈ keys, key.1 < base) :
    x.typeDigits base keys = { x with
      mods.npadch := if digits keys = [] then -1
        else BitVec.ofNat 32 (padValue base (lastRun base (digits keys))) } := by
  induction keys using List.reverseRecOn with
  | nil =>
    rw [if_pos (show digits [] = [] from rfl), ← hpad]
    rfl
  | append_singleton keys key ih =>
    have ih := ih fun key' h => hkeys key' (List.mem_append_left _ h)
    obtain ⟨d, up⟩ := key
    have hd : d < base := hkeys (d, up) (List.mem_append_right _ (List.mem_singleton_self _))
    rw [Xlate.typeDigits, List.foldl_concat, ← Xlate.typeDigits, ih, digits_concat]
    cases up with
    | true => rw [Xlate.kAscii, if_pos rfl, if_pos rfl]
    | false =>
      have hne : ¬digits keys ++ [d] = [] := by simp
      rw [kAscii_digit _ hbase hd, if_neg Bool.false_ne_true, if_neg hne, lastRun_concat]
      by_cases hnil : digits keys = []
      · rw [hnil]
        simp [lastRun, padValue, minusOne]
      · dsimp only
        rw [if_neg hnil]
        by_cases hrun : padValue base (lastRun base (digits keys)) % 2 ^ 32 = minusOne
        · rw [if_pos ((ofNat_eq_minusOne _).mpr hrun), if_pos hrun]
          simp [padValue]
        · rw [if_neg fun h => hrun ((ofNat_eq_minusOne _).mp h), if_neg hrun, padValue_concat,
            BitVec.ofNat_add, BitVec.ofNat_mul]

/-- **Releasing the last key of a modifier** sends the number, if there is one. -/
theorem kShift_release (y : Xlate) (hrep : y.mods.rep = false) {value : Nat}
    (hone : y.mods.shiftDown (modifierOf value) = 1)
    (hbit : y.mods.shiftState.testBit (modifierOf value)) :
    (y.kShift value true).con.flip =
        (if y.mods.npadch = -1 then y.con.flip
        else y.con.flip.map (· ++ (codeBytes (y.con.kbd.kbdmode = .unicode)
          (y.mods.npadch.toNat % 2 ^ codeBits (y.con.kbd.kbdmode = .unicode))).map
            fun b => (b, false))) ∧
      (y.kShift value true).mods.npadch = -1 := by
  obtain ⟨w, hw⟩ : ∃ w, w = modifierOf value := ⟨_, rfl⟩
  rw [← hw] at hone hbit
  rw [modifierOf] at hw
  have hshift : y.kShift value true =
      (y.countShift w true).flushPad y.mods.shiftState true := by
    rw [Xlate.kShift, if_neg (by rw [hrep]; decide)]
    by_cases hcaps : value = kgCapsshift
    · rw [if_pos hcaps] at hw ⊢
      rw [hw]
      rfl
    · rw [if_neg hcaps] at hw ⊢
      rw [hw]
  have hstate : (y.countShift w true).mods.shiftState ≠ y.mods.shiftState := by
    have hzero : (y.countShift w true).mods.shiftState =
        (y.mods.shiftState ||| 1 <<< w) ^^^ 1 <<< w := by
      simp [Xlate.countShift, hone]
    intro hsame
    rw [← hsame, hzero] at hbit
    simp [Nat.testBit_xor, Nat.testBit_or, Nat.testBit_shiftLeft] at hbit
  have hcon : (y.countShift w true).con = y.con := rfl
  have hpad : (y.countShift w true).mods.npadch = y.mods.npadch := rfl
  rw [hshift, Xlate.flushPad, hpad]
  by_cases hnone : y.mods.npadch = -1
  · rw [if_pos hnone, if_neg fun h => h.2.2 hnone]
    exact ⟨rfl, hnone⟩
  · rw [if_neg hnone, if_pos ⟨rfl, hstate, hnone⟩]
    refine ⟨?_, rfl⟩
    dsimp only [Xlate.onCon]
    rw [hcon]
    by_cases hunicode : y.con.kbd.kbdmode = .unicode
    · rw [if_pos hunicode, Console.flip_toUtf8, decide_eq_true hunicode,
        show (0xffff : Nat) = 2 ^ 16 - 1 from rfl, Nat.and_two_pow_sub_one_eq_mod]
      rfl
    · rw [if_neg hunicode, Console.flip_putQueue, decide_eq_false hunicode,
        show (0xff : Nat) = 2 ^ 8 - 1 from rfl, Nat.and_two_pow_sub_one_eq_mod]
      rfl

/-- A console with a tty, no number on the pad, and one key of the modifier held. -/
structure PadReady (x : Xlate) (value : Nat) : Prop where
  empty : x.mods.npadch = -1
  tty : x.con.vcTty.isSome
  once : x.mods.rep = false
  held : x.mods.shiftDown (modifierOf value) = 1
  state : x.mods.shiftState.testBit (modifierOf value)

/-- **One code is sent, it is the value of the digits, and the pad is empty.** -/
def Delivers (x : Xlate) (base : Nat) (keys : List (Nat × Bool)) (value : Nat) : Prop :=
  let unicode : Bool := x.con.kbd.kbdmode = .unicode
  let z := (x.typeDigits base keys).kShift value true
  z.con.flip = x.con.flip.map (· ++ (codeBytes unicode
      (padValue base (digits keys) % 2 ^ codeBits unicode)).map fun b => (b, false)) ∧
    z.mods.npadch = -1

/-- **A number from the pad is sent as it was typed** exactly if the digits since
it last began do not come to -1, and they are all the digits or the base to their
number is a multiple of the number of codes. -/
theorem delivers_iff {x : Xlate} {value : Nat} (hx : PadReady x value) {base : Nat}
    (hbase : base = 10 ∨ base = 16) {keys : List (Nat × Bool)} (hkeys : ∀ key ∈ keys, key.1 < base)
    (hne : digits keys ≠ []) :
    Delivers x base keys value ↔
      padValue base (lastRun base (digits keys)) % 2 ^ 32 ≠ minusOne ∧
        (lastRun base (digits keys) = digits keys ∨
          2 ^ codeBits (x.con.kbd.kbdmode = .unicode) ∣
            base ^ (lastRun base (digits keys)).length) := by
  have heven : 2 ∣ base := by rcases hbase with rfl | rfl <;> decide
  obtain ⟨run, hrun⟩ : ∃ run, run = padValue base (lastRun base (digits keys)) := ⟨_, rfl⟩
  have htyped := typeDigits_eq x hx.empty hbase hkeys
  rw [if_neg hne, ← hrun] at htyped
  have hmods : ∀ P : Mods → Prop, P { x.mods with npadch := BitVec.ofNat 32 run } →
      P (x.typeDigits base keys).mods := fun P h => by rw [htyped]; exact h
  have hcon : (x.typeDigits base keys).con = x.con := by rw [htyped]
  have hnumber : (x.typeDigits base keys).mods.npadch = BitVec.ofNat 32 run := by rw [htyped]
  obtain ⟨hflip, hempty⟩ := kShift_release (x.typeDigits base keys)
    (hmods (fun m => m.rep = false) hx.once)
    (hmods (fun m => m.shiftDown (modifierOf value) = 1) hx.held)
    (hmods (fun m => m.shiftState.testBit (modifierOf value)) hx.state)
  rw [hcon, hnumber] at hflip
  obtain ⟨unicode, hunicode⟩ : ∃ unicode : Bool, unicode = decide (x.con.kbd.kbdmode = .unicode) :=
    ⟨_, rfl⟩
  rw [← hunicode] at hflip
  rw [Delivers, ← hunicode, hflip, ← padValue_lastRun heven, ← hrun]
  obtain ⟨tty, htty⟩ := Option.isSome_iff_exists.mp hx.tty
  have hsome : x.con.flip = some tty.flip := by rw [Console.flip, htty, Option.map_some]
  have hcode : ∀ n, n % 2 ^ codeBits unicode < 2 ^ codeBits unicode := fun n =>
    Nat.mod_lt _ (Nat.two_pow_pos _)
  by_cases hlost : run % 2 ^ 32 = minusOne
  · rw [if_pos ((ofNat_eq_minusOne run).mpr hlost), hsome, Option.map_some]
    refine iff_of_false (fun h => ?_) fun h => h.1 hlost
    have hnil := List.self_eq_append_right.mp (Option.some.inj h.1)
    exact codeBytes_ne_nil unicode _ (List.map_eq_nil_iff.mp hnil)
  · rw [if_neg fun h => hlost ((ofNat_eq_minusOne run).mp h), hsome, Option.map_some,
      Option.map_some]
    have hwrap : (BitVec.ofNat 32 run).toNat % 2 ^ codeBits unicode =
        run % 2 ^ codeBits unicode := by
      rw [BitVec.toNat_ofNat]
      refine Nat.mod_mod_of_dvd run (pow_dvd_pow 2 ?_)
      cases unicode <;> decide
    rw [hwrap]
    constructor
    · intro h
      refine ⟨hlost, codeBytes_injective (hcode _) (hcode _) ?_⟩
      have hbytes := List.append_cancel_left (Option.some.inj h.1)
      exact (List.map_inj_right fun _ _ h => (Prod.mk.inj h).1).mp hbytes
    · rintro ⟨-, hsame⟩
      exact ⟨by rw [hsame], hempty⟩

/-- A console with Alt held. -/
def altHeld (mode : KbdMode) : Xlate where
  mods :=
    { shiftDown := fun v => if v = 3 then 1 else 0
      shiftState := 8
      deadKeyNext := false
      npadch := -1
      diacr := 0
      rep := false
      sysrqDown := false
      sysrqAlt := true }
  con :=
    { kbd := ⟨0, 0, 0, mode, 0⟩
      vcTty := some ⟨false, false, []⟩ }
  request := none

theorem altHeld_ready (mode : KbdMode) : PadReady (altHeld mode) 3 :=
  ⟨rfl, rfl, rfl, rfl, (by decide : Nat.testBit 8 3 = true)⟩

/-- The two digits of a letter. -/
theorem delivers_letter :
    Delivers (altHeld .xlate) 10 [(6, false), (6, true), (5, false), (5, true)] 3 :=
  (delivers_iff (altHeld_ready .xlate) (.inl rfl) (by decide) (by decide)).mpr
    ⟨by decide, .inl (by decide)⟩

/-- Eight hexadecimal digits that come to -1: nothing is sent. -/
def eightFs : List (Nat × Bool) := List.replicate 8 (15, false)

/-- **A number can be lost**: eight digits F come to -1, and nothing is sent for
them; after a ninth digit that one alone is sent. -/
theorem digits_lost :
    ¬Delivers (altHeld .xlate) 16 eightFs 3 ∧
      (((altHeld .xlate).typeDigits 16 eightFs).kShift 3 true).con.flip = some [] ∧
      (((altHeld .xlate).typeDigits 16 (eightFs ++ [(1, false)])).kShift 3 true).con.flip =
        some [(1, false)] := by
  have hnone : (((altHeld .xlate).typeDigits 16 eightFs).kShift 3 true).con.flip = some [] := by
    decide +kernel
  refine ⟨fun h => ?_, hnone, by decide +kernel⟩
  have hsent := h.1
  rw [hnone] at hsent
  exact absurd hsent (by decide +kernel)

end LinuxConsole.Input

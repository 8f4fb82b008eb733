import LinuxConsole.Kbd.Compose
import LinuxConsole.Kbd.MediumRaw
import LinuxConsole.Lib.PrefixCode

/-!
# The codes of raw mode

In raw mode `emulate_raw` sends the codes that a keyboard of a PC would.  Not every event can be
told from them: some keys share a code, Alt turns SysRq into another key, the Korean keys are silent
when they are released, and the codes of `Hangeul` and `Hanja` are those of two other keys that are
let go.  `told_iff` says which events are told from all others.

These events have a prefix code (`prefixCode_told`), and in raw mode `kbd_keycode` queues nothing
else, unless the SysRq hack takes an event or a number is still pending on the pad
(`kbdKeycodes_raw`).  **`raw_decodable`** puts these together.
-/

namespace LinuxConsole.Input

open Lib

/-! ### The codes -/

/-- An event with the state of `sysrq_alt` at it; `down` is a press or a repeat. -/
structure RawKey where
  keycode : Nat
  down : Bool
  sysrqAlt : Bool

/-- What `emulate_raw` queues. -/
def rawCode (sysrqAlt : Bool) (keycode upFlag : Nat) : List Nat :=
  let code := x86Keycodes.getD keycode 0
  if code = 0 then []
  else if keycode = keyPause then [0xe1, 0x1d ||| upFlag, 0x45 ||| upFlag]
  else if keycode = keyHanguel then if upFlag = 0 then [0xf1] else []
  else if keycode = keyHanja then if upFlag = 0 then [0xf2] else []
  else if keycode = keySysrq ∧ sysrqAlt then [0x54 ||| upFlag]
  else
    (if code &&& 0x100 ≠ 0 then [0xe0] else []) ++ [(code &&& 0x7f) ||| upFlag] ++
      if keycode = keySysrq then [0xe0, 0x37 ||| upFlag] else []

/-- The bytes of an event. -/
def RawKey.bytes (ev : RawKey) : List UInt8 :=
  (rawCode ev.sysrqAlt ev.keycode (if ev.down then 0 else 0x80)).map UInt8.ofNat

/-- The key and whether it is down. -/
def RawKey.key (ev : RawKey) : Nat × Bool := (ev.keycode, ev.down)

/-- **The event is told from all others** by its bytes. -/
def RawKey.Told (ev : RawKey) : Prop :=
  ev.bytes ≠ [] ∧ ∀ ev' : RawKey, ev'.bytes = ev.bytes → ev'.key = ev.key

/-- The events whose bytes are those of another one: two pairs of keys with one code, the SysRq key
under Alt, and the Korean keys with the two that are released as they are pressed. -/
def shared (ev : RawKey) : Bool :=
  ev.keycode ∈ [84, 93, 170, keyHanguel, keyHanja] || (ev.keycode ∈ [174, 175] && !ev.down) ||
    (ev.keycode = keySysrq && ev.sysrqAlt)

/-! ### The table -/

/-- No number occurs twice, or is in the set `seen`. -/
def noneTwice : Nat → List Nat → Bool
  | _, [] => true
  | seen, c :: l => !seen.testBit c && noneTwice (seen ||| 1 <<< c) l

theorem nodup_of_noneTwice {l : List Nat} : ∀ seen : Nat, noneTwice seen l = true →
    l.Nodup ∧ ∀ c ∈ l, seen.testBit c = false := by
  induction l with
  | nil => exact fun _ _ => ⟨List.nodup_nil, fun _ hc => absurd hc List.not_mem_nil⟩
  | cons c l ih =>
    intro seen h
    rw [noneTwice, Bool.and_eq_true, Bool.not_eq_true'] at h
    obtain ⟨hnodup, hseen⟩ := ih _ h.2
    have hbit (b : Nat) : (seen ||| 1 <<< c).testBit b = (seen.testBit b || decide (c = b)) := by
      rw [Nat.testBit_or, Nat.one_shiftLeft, Nat.testBit_two_pow]
    refine ⟨List.nodup_cons.mpr ⟨fun hmem => ?_, hnodup⟩, fun b hb => ?_⟩
    · have hc := hseen c hmem
      rw [hbit, decide_eq_true rfl, Bool.or_true] at hc
      exact Bool.noConfusion hc
    · rcases List.mem_cons.mp hb with rfl | hb
      · exact h.1
      · have hc := hseen b hb
        rw [hbit, Bool.or_eq_false_iff] at hc
        exact hc.1

/-- The code of a key. -/
def scancode (k : Nat) : Nat := x86Keycodes.getD k 0

theorem mem_x86Keycodes : ∀ c ∈ x86Keycodes,
    (c < 128 ∨ 256 ≤ c ∧ c < 384) ∧ c ≠ 0x60 ∧ c ≠ 0x61 := by decide +kernel

theorem nodup_x86Keycodes : ((x86Keycodes.set 170 384).set 122 385).Nodup :=
  (nodup_of_noneTwice 0 (by decide +kernel)).1

theorem scancode_lt {k : Nat} (h : scancode k ≠ 0) :
    (scancode k < 128 ∨ 256 ≤ scancode k ∧ scancode k < 384) ∧ scancode k ≠ 0x60 ∧
      scancode k ≠ 0x61 := by
  apply mem_x86Keycodes
  rw [scancode, List.getD_eq_getElem?_getD] at h ⊢
  cases hk : x86Keycodes[k]? with
  | none =>
    rw [hk] at h
    exact absurd rfl h
  | some c => exact List.mem_of_getElem? hk

/-- **The table tells two keys apart**, these two aside. -/
theorem scancode_inj {k k' : Nat} (h : scancode k = scancode k') (hne : scancode k ≠ 0)
    (hk : k ≠ 170 ∧ k ≠ 122) (hk' : k' ≠ 170 ∧ k' ≠ 122) : k = k' := by
  have hother {i : Nat} (hi : i ≠ 170 ∧ i ≠ 122) :
      ((x86Keycodes.set 170 384).set 122 385)[i]? = x86Keycodes[i]? := by
    rw [List.getElem?_set_ne (Ne.symm hi.2), List.getElem?_set_ne (Ne.symm hi.1)]
  have hsome {i : Nat} (hi : scancode i ≠ 0) : x86Keycodes[i]? = some (scancode i) := by
    rw [scancode, List.getD_eq_getElem?_getD] at hi ⊢
    cases hget : x86Keycodes[i]? with
    | none =>
      rw [hget] at hi
      exact absurd rfl hi
    | some c => rfl
  have heq : ((x86Keycodes.set 170 384).set 122 385)[k]? =
      ((x86Keycodes.set 170 384).set 122 385)[k']? := by
    rw [hother hk, hother hk', hsome hne, hsome (h ▸ hne), h]
  obtain ⟨hlt, _⟩ := List.getElem?_eq_some_iff.mp ((hother hk).trans (hsome hne))
  exact (List.getElem?_inj hlt nodup_x86Keycodes).mp heq

/-! ### The events that are told -/

/-- The up flag of an event. -/
def RawKey.up (ev : RawKey) : Nat := if ev.down then 0 else 128

/-- The key is in the table and shares no code. -/
def RawKey.Own (ev : RawKey) : Prop := scancode ev.keycode ≠ 0 ∧ shared ev = false

/-- Which prefix the bytes begin with, and the byte after it. -/
def rawMark : List UInt8 → Nat × Nat
  | [] => (3, 0)
  | b :: rest =>
    if b = 0xe1 then (2, (rest.headD 0).toNat)
    else if b = 0xe0 then (1, (rest.headD 0).toNat)
    else (0, b.toNat)

/-- The mark of a key. -/
def keyMark (k up : Nat) : Nat × Nat :=
  if k = keyPause then (2, 0x1d + up)
  else (if 256 ≤ scancode k then 1 else 0, scancode k % 128 + up)

theorem rawMark_pause (b : UInt8) (rest : List UInt8) :
    rawMark (0xe1 :: b :: rest) = (2, b.toNat) := rfl

theorem rawMark_extended (b : UInt8) (rest : List UInt8) :
    rawMark (0xe0 :: b :: rest) = (1, b.toNat) := rfl

theorem rawMark_plain {b : UInt8} (h : b ≠ 0xe0 ∧ b ≠ 0xe1) (rest : List UInt8) :
    rawMark (b :: rest) = (0, b.toNat) := (if_neg h.2).trans (if_neg h.1)

theorem RawKey.Own.ne {ev : RawKey} (h : ev.Own) :
    ev.keycode ≠ 84 ∧ ev.keycode ≠ 93 ∧ ev.keycode ≠ 170 ∧ ev.keycode ≠ 122 ∧
      ev.keycode ≠ 123 := by
  obtain ⟨_, h⟩ := h
  simp only [shared, Bool.or_eq_false_iff, decide_eq_false_iff_not, List.mem_cons, not_or] at h
  exact ⟨h.1.1.1, h.1.1.2.1, h.1.1.2.2.1, h.1.1.2.2.2.1, h.1.1.2.2.2.2.1⟩

theorem seven_bits (c : Nat) (down : Bool) :
    ((c &&& 0x7f) ||| if down then 0 else 0x80) % 256 = c % 128 + if down then 0 else 128 := by
  rw [show c &&& 0x7f = c % 128 from Nat.and_two_pow_sub_one_eq_mod c 7]
  cases down with
  | true =>
    rw [if_pos rfl, Nat.or_zero]
    exact Nat.mod_eq_of_lt (by omega)
  | false =>
    rw [if_neg Bool.false_ne_true, or_up_mod, Nat.mod_mod, Nat.add_comm]

theorem prefix_bit {c : Nat} (h : c < 128 ∨ 256 ≤ c ∧ c < 384) :
    c &&& 0x100 ≠ 0 ↔ 256 ≤ c := by
  have hall : ∀ c < 384, c < 128 ∨ 256 ≤ c → (c &&& 0x100 ≠ 0 ↔ 256 ≤ c) := by decide +kernel
  exact hall c (by omega) (by omega)

/-- **A key of its own bears its mark**, whatever follows. -/
theorem rawMark_bytes {ev : RawKey} (h : ev.Own) (rest : List UInt8) :
    rawMark (ev.bytes ++ rest) = keyMark ev.keycode ev.up := by
  obtain ⟨k, down, alt⟩ := ev
  have hne := h.ne
  obtain ⟨hcode, hshared⟩ := h
  change scancode k ≠ 0 at hcode
  change k ≠ 84 ∧ k ≠ 93 ∧ k ≠ 170 ∧ k ≠ 122 ∧ k ≠ 123 at hne
  have hsysrq : ¬(k = keySysrq ∧ alt = true) := by
    rintro ⟨rfl, rfl⟩
    rw [shared, Bool.or_eq_false_iff] at hshared
    exact Bool.noConfusion hshared.2
  obtain ⟨hrange, hprefix, hprefix'⟩ := scancode_lt hcode
  rw [RawKey.bytes, rawCode, keyMark, RawKey.up]
  dsimp only
  rw [← scancode, if_neg hcode]
  by_cases hpause : k = keyPause
  · rw [if_pos hpause, if_pos hpause, List.map_cons, List.map_cons, List.cons_append,
      List.cons_append]
    refine (rawMark_pause _ _).trans ?_
    rw [toNat_byte]
    exact congrArg (Prod.mk 2) (seven_bits 0x1d down)
  rw [if_neg hpause, if_neg hpause, if_neg (show ¬k = keyHanguel from hne.2.2.2.1),
    if_neg (show ¬k = keyHanja from hne.2.2.2.2), if_neg hsysrq,
    List.append_assoc, List.map_append, List.map_append, List.append_assoc]
  by_cases hext : 256 ≤ scancode k
  · rw [if_pos ((prefix_bit hrange).mpr hext), if_pos hext]
    refine (rawMark_extended _ _).trans ?_
    rw [toNat_byte, seven_bits]
  · rw [if_neg fun hbit => hext ((prefix_bit hrange).mp hbit), if_neg hext]
    have hsmall : scancode k < 128 := by omega
    refine (rawMark_plain ?_ _).trans ?_
    · constructor <;>
      · intro heq
        have hnat := congrArg UInt8.toNat heq
        rw [toNat_byte, seven_bits] at hnat
        cases down with
        | true =>
          change scancode k % 128 + 0 = _ at hnat
          simp only [UInt8.reduceToNat] at hnat
          omega
        | false =>
          change scancode k % 128 + 128 = _ at hnat
          simp only [UInt8.reduceToNat] at hnat
          omega
    · rw [toNat_byte, seven_bits]

theorem keyMark_inj {ev ev' : RawKey} (h : ev.Own) (h' : ev'.Own)
    (hmark : keyMark ev.keycode ev.up = keyMark ev'.keycode ev'.up) : ev.key = ev'.key := by
  have hup {n n' : Nat} (hn : n < 128) (hn' : n' < 128) (heq : n + ev.up = n' + ev'.up) :
      n = n' ∧ ev.down = ev'.down := by
    rw [RawKey.up, RawKey.up] at heq
    cases hdown : ev.down <;> cases hdown' : ev'.down <;> rw [hdown, hdown'] at heq <;>
      simp only [Bool.false_eq_true, if_false, if_true] at heq <;>
      simp only [reduceCtorEq, and_true, and_false] <;> omega
  suffices hboth : ev.keycode = ev'.keycode ∧ ev.down = ev'.down by
    rw [RawKey.key, RawKey.key, hboth.1, hboth.2]
  have hlt (k : Nat) : scancode k % 128 < 128 := Nat.mod_lt _ (by decide)
  rw [keyMark, keyMark] at hmark
  by_cases hpause : ev.keycode = keyPause <;> by_cases hpause' : ev'.keycode = keyPause
  · rw [if_pos hpause, if_pos hpause', Prod.mk.injEq] at hmark
    exact ⟨hpause.trans hpause'.symm, (hup (by decide) (by decide) hmark.2).2⟩
  · rw [if_pos hpause, if_neg hpause', Prod.mk.injEq] at hmark
    have hkind := hmark.1
    split_ifs at hkind
    omega
  · rw [if_neg hpause, if_pos hpause', Prod.mk.injEq] at hmark
    have hkind := hmark.1
    split_ifs at hkind
    omega
  · rw [if_neg hpause, if_neg hpause', Prod.mk.injEq] at hmark
    obtain ⟨hcode, hdown⟩ := hup (hlt _) (hlt _) hmark.2
    refine ⟨scancode_inj ?_ h.1 ⟨h.ne.2.2.1, h.ne.2.2.2.1⟩ ⟨h'.ne.2.2.1, h'.ne.2.2.2.1⟩, hdown⟩
    have hkind := hmark.1
    have hrange := (scancode_lt h.1).1
    have hrange' := (scancode_lt h'.1).1
    split_ifs at hkind <;> omega

theorem exists_same {ev : RawKey} (hcode : ev.bytes ≠ []) (h : shared ev = true) :
    ∃ ev' : RawKey, ev'.bytes = ev.bytes ∧ ev'.key ≠ ev.key := by
  obtain ⟨k, down, alt⟩ := ev
  simp only [shared, Bool.or_eq_true, Bool.and_eq_true, decide_eq_true_eq, List.mem_cons,
    List.not_mem_nil, or_false, Bool.not_eq_true'] at h
  rcases h with ((rfl | rfl | rfl | rfl | rfl) | ⟨rfl | rfl, rfl⟩) | ⟨rfl, rfl⟩
  · exact ⟨⟨keySysrq, down, true⟩, by cases down <;> cases alt <;> decide +kernel,
      by simp [RawKey.key, keySysrq]⟩
  · exact ⟨⟨170, down, alt⟩, by cases down <;> cases alt <;> decide +kernel, by simp [RawKey.key]⟩
  · exact ⟨⟨93, down, alt⟩, by cases down <;> cases alt <;> decide +kernel, by simp [RawKey.key]⟩
  · cases down with
    | true => exact ⟨⟨174, false, alt⟩, by cases alt <;> decide +kernel, by simp [RawKey.key]⟩
    | false => exact absurd (by cases alt <;> decide +kernel) hcode
  · cases down with
    | true => exact ⟨⟨175, false, alt⟩, by cases alt <;> decide +kernel, by simp [RawKey.key]⟩
    | false => exact absurd (by cases alt <;> decide +kernel) hcode
  · exact ⟨⟨keyHanguel, true, alt⟩, by cases alt <;> decide +kernel, by simp [RawKey.key]⟩
  · exact ⟨⟨keyHanja, true, alt⟩, by cases alt <;> decide +kernel, by simp [RawKey.key]⟩
  · exact ⟨⟨84, down, true⟩, by cases down <;> decide +kernel, by simp [RawKey.key, keySysrq]⟩

theorem RawKey.Own.code_of_byte {ev : RawKey} (h : ev.Own) {b : UInt8} (hbyte : ev.bytes = [b])
    (hb : b ≠ 0xe0 ∧ b ≠ 0xe1) : scancode ev.keycode = b.toNat % 128 ∧
      ev.down = decide (b.toNat < 128) := by
  have hmark := rawMark_bytes h []
  rw [hbyte, List.append_nil, rawMark_plain hb, keyMark] at hmark
  have hrange := (scancode_lt h.1).1
  split_ifs at hmark with hpause hext
  · rw [Prod.mk.injEq] at hmark
    omega
  · rw [Prod.mk.injEq] at hmark
    omega
  · rw [Prod.mk.injEq, RawKey.up] at hmark
    obtain ⟨_, hval⟩ := hmark
    cases hdown : ev.down with
    | true =>
      rw [hdown, if_pos rfl] at hval
      exact ⟨by omega, (decide_eq_true (by omega)).symm⟩
    | false =>
      rw [hdown, if_neg Bool.false_ne_true] at hval
      exact ⟨by omega, (decide_eq_false (by omega)).symm⟩

theorem RawKey.Own.bytes_ne_nil {ev : RawKey} (h : ev.Own) : ev.bytes ≠ [] := by
  intro hnil
  have hmark := rawMark_bytes h []
  rw [hnil, List.append_nil, rawMark, keyMark] at hmark
  split_ifs at hmark
  all_goals
    rw [Prod.mk.injEq] at hmark
    omega

/-- The bytes that are shared. -/
def sharedBytes : List UInt8 := [0x54, 0xd4, 0x70, 0xf0, 0xf1, 0xf2]

theorem bytes_of_shared {ev : RawKey} (h : shared ev = true) :
    ev.bytes = [] ∨ ∃ b ∈ sharedBytes, ev.bytes = [b] := by
  obtain ⟨k, down, alt⟩ := ev
  simp only [shared, Bool.or_eq_true, Bool.and_eq_true, decide_eq_true_eq, List.mem_cons,
    List.not_mem_nil, or_false, Bool.not_eq_true'] at h
  rcases h with ((rfl | rfl | rfl | rfl | rfl) | ⟨rfl | rfl, rfl⟩) | ⟨rfl, rfl⟩
  any_goals cases down
  any_goals cases alt
  all_goals decide +kernel

/-- **They are of no key of its own.** -/
theorem RawKey.Own.not_sharedBytes {ev : RawKey} (h : ev.Own) {b : UInt8} (hb : b ∈ sharedBytes) :
    ev.bytes ≠ [b] := by
  intro hbyte
  have hpre : b ≠ 0xe0 ∧ b ≠ 0xe1 := by
    simp only [sharedBytes, List.mem_cons, List.not_mem_nil, or_false] at hb
    rcases hb with rfl | rfl | rfl | rfl | rfl | rfl <;> decide
  obtain ⟨hcode, hdown⟩ := h.code_of_byte hbyte hpre
  obtain ⟨h84, h93, h170, h122, _⟩ := h.ne
  have hkey {k : Nat} (hk : k ≠ 170 ∧ k ≠ 122) (hk' : b.toNat % 128 = scancode k) :
      ev.keycode = k := scancode_inj (hcode.trans hk') h.1 ⟨h170, h122⟩ hk
  have hup {k : Nat} (hk : k ∈ [174, 175]) (hcode : ev.keycode = k) : ev.down = true := by
    by_contra hdown
    rw [Bool.not_eq_true] at hdown
    have hshared := h.2
    rw [shared, hcode, hdown, decide_eq_true hk] at hshared
    simp at hshared
  simp only [sharedBytes, List.mem_cons, List.not_mem_nil, or_false] at hb
  rcases hb with rfl | rfl | rfl | rfl | rfl | rfl
  · exact h84 (hkey (by decide) (by decide +kernel))
  · exact h84 (hkey (by decide) (by decide +kernel))
  · exact h93 (hkey (by decide) (by decide +kernel))
  · exact h93 (hkey (by decide) (by decide +kernel))
  · have hk := hkey (k := 174) (by decide) (by decide +kernel)
    exact absurd ((hup (by decide) hk).symm.trans hdown) (by decide)
  · have hk := hkey (k := 175) (by decide) (by decide +kernel)
    exact absurd ((hup (by decide) hk).symm.trans hdown) (by decide)

theorem RawKey.bytes_nil {ev : RawKey} (h : scancode ev.keycode = 0) : ev.bytes = [] := by
  rw [RawKey.bytes, rawCode]
  exact congrArg _ (if_pos h)

/-- **Which events are told**: those of a key in the table that shares no code. -/
theorem told_iff (ev : RawKey) : ev.Told ↔ scancode ev.keycode ≠ 0 ∧ shared ev = false := by
  constructor
  · rintro ⟨hne, hother⟩
    refine ⟨fun hcode => hne (RawKey.bytes_nil hcode), ?_⟩
    rw [← Bool.not_eq_true]
    intro hshared
    obtain ⟨ev', hbytes, hkey⟩ := exists_same hne hshared
    exact hkey (hother ev' hbytes)
  · intro h
    have hne := RawKey.Own.bytes_ne_nil h
    refine ⟨hne, fun ev' hbytes => ?_⟩
    have hown : ev'.Own := by
      refine ⟨fun hcode => hne (hbytes.symm.trans (RawKey.bytes_nil hcode)), ?_⟩
      rw [← Bool.not_eq_true]
      intro hshared
      rcases bytes_of_shared hshared with hnil | ⟨b, hb, hbyte⟩
      · exact hne (hbytes.symm.trans hnil)
      · exact RawKey.Own.not_sharedBytes h hb (hbytes.symm.trans hbyte)
    apply keyMark_inj hown h
    rw [← rawMark_bytes hown [], ← rawMark_bytes h [], hbytes]

/-! ### Streams of keys -/

/-- The bytes of a key without Alt. -/
def rawBytes (key : Nat × Bool) : List UInt8 := (⟨key.1, key.2, false⟩ : RawKey).bytes

/-- The key is told where Alt is up. -/
def ToldKey (key : Nat × Bool) : Prop := (⟨key.1, key.2, false⟩ : RawKey).Told

theorem RawKey.Told.rawBytes {ev : RawKey} (h : ev.Told) :
    ev.bytes = rawBytes ev.key ∧ ToldKey ev.key := by
  rw [told_iff] at h
  obtain ⟨hcode, hshared⟩ := h
  have hsysrq : ¬(ev.keycode = keySysrq ∧ ev.sysrqAlt = true) := by
    intro halt
    rw [shared, decide_eq_true halt.1, halt.2, Bool.true_and, Bool.or_true] at hshared
    exact Bool.noConfusion hshared
  have hplain : ¬(ev.keycode = keySysrq ∧ false = true) := fun h => Bool.noConfusion h.2
  constructor
  · rw [Input.rawBytes, RawKey.bytes, RawKey.bytes, RawKey.key, rawCode, rawCode]
    dsimp only
    rw [if_neg hsysrq, if_neg hplain]
  · rw [ToldKey, told_iff]
    refine ⟨hcode, ?_⟩
    rw [shared, Bool.or_eq_false_iff] at hshared ⊢
    exact ⟨hshared.1, Bool.and_false _⟩

/-- **The keys that are told have a prefix code.** -/
theorem prefixCode_told : PrefixCode rawBytes ToldKey := by
  apply PrefixCode.of_mark rawMark
  · intro key h
    exact h.1
  · intro key h rest
    rw [ToldKey, told_iff] at h
    rw [rawBytes, rawMark_bytes h, ← rawMark_bytes h [], List.append_nil]
  · intro key key' h h' hmark
    rw [ToldKey, told_iff] at h h'
    rw [rawBytes, rawBytes, ← List.append_nil (RawKey.bytes _), rawMark_bytes h,
      ← List.append_nil (RawKey.bytes _), rawMark_bytes h'] at hmark
    exact keyMark_inj h h' hmark

/-! ### What is queued -/

theorem Console.flip_putQueues (bytes : List Nat) (c : Console) :
    (bytes.foldl putQueue c).flip =
      c.flip.map (· ++ bytes.map fun ch => (UInt8.ofNat ch, false)) := by
  induction bytes generalizing c with
  | nil =>
    rw [List.map_nil]
    simp only [List.foldl_nil, List.append_nil, Option.map_id']
  | cons ch bytes ih =>
    rw [List.foldl_cons, ih, flip_putQueue, Option.map_map]
    refine congrArg (Option.map · _) (funext fun q => ?_)
    rw [Function.comp_apply, List.append_assoc, List.map_cons, List.cons_append, List.nil_append]

theorem Console.emulateRaw_eq (c : Console) (sysrqAlt : Bool) (keycode up : Nat) :
    c.emulateRaw sysrqAlt keycode up = (rawCode sysrqAlt keycode up).foldl putQueue c := by
  rw [emulateRaw, rawCode]
  dsimp only
  split_ifs <;> rfl

namespace Xlate

variable (e : Env) (keyDown : Nat → Bool) (x : Xlate)

/-- The event as `emulate_raw` is told of it. -/
def rawKey (ev : Nat × Nat) : RawKey :=
  ⟨ev.1, decide (ev.2 ≠ 0), (x.noteRepeat ev.1 ev.2).mods.sysrqAlt⟩

/-- **In raw mode an event queues its bytes** and nothing else, if the SysRq hack leaves it and no
number is pending. -/
theorem kbdKeycode_raw (hmode : x.con.kbd.kbdmode = .raw) (hpad : x.mods.npadch = -1)
    {keycode down : Nat} (hsysrq : ¬x.TakenBySysrq e keycode down) :
    (x.kbdKeycode e keyDown keycode down false).2.con.flip = x.con.flip.map
        (· ++ (x.rawKey (keycode, down)).bytes.map fun b => (b, false)) ∧
      (x.kbdKeycode e keyDown keycode down false).2.mods.npadch = -1 := by
  have hput : (x.noteRepeat keycode down).putRaw keycode down false =
      (x.noteRepeat keycode down).onCon (·.emulateRaw (x.noteRepeat keycode down).mods.sysrqAlt
        keycode (upFlag down)) := by
    rw [putRaw, if_pos ⟨hmode, rfl⟩]
  have hcode : (x.con.emulateRaw (x.noteRepeat keycode down).mods.sysrqAlt keycode
      (upFlag down)).flip =
        x.con.flip.map (· ++ (x.rawKey (keycode, down)).bytes.map fun b => (b, false)) := by
    have hup : (if decide (down ≠ 0) = true then 0 else 0x80) = upFlag down := by
      rw [upFlag]
      by_cases h : down = 0 <;> simp [h]
    rw [Console.emulateRaw_eq, Console.flip_putQueues, RawKey.bytes, rawKey, List.map_map]
    dsimp only
    rw [hup]
    rfl
  have hkbd := emulateRaw_kbd x.con (x.noteRepeat keycode down).mods.sysrqAlt keycode (upFlag down)
  rw [kbdKeycode, hput]
  dsimp only
  have hmode' : ((x.noteRepeat keycode down).onCon (·.emulateRaw
      (x.noteRepeat keycode down).mods.sysrqAlt keycode (upFlag down))).con.kbd.kbdmode = .raw := by
    exact (congrArg (·.kbdmode) hkbd).trans hmode
  rw [if_neg fun h => hsysrq ⟨h.1, .inl h.2⟩, if_neg fun h => hsysrq ⟨h.1, .inr h.2⟩, translateKey,
    if_neg fun h => absurd (hmode'.symm.trans h) (by decide)]
  have hraw : ((x.noteRepeat keycode down).onCon (·.emulateRaw
      (x.noteRepeat keycode down).mods.sysrqAlt keycode (upFlag down))).rawMode = true :=
    decide_eq_true (.inl hmode')
  split_ifs with hrep
  · exact ⟨hcode, hpad⟩
  · rw [hraw]
    have h := ((x.noteRepeat keycode down).onCon (·.emulateRaw
      (x.noteRepeat keycode down).mods.sysrqAlt keycode (upFlag down))).lookupKey_raw e
      (setKey keyDown keycode down) hraw hpad keycode (decide (down ≠ 0))
    exact ⟨h.1.trans hcode, h.2⟩

/-- The keyboard is in raw mode at every event, the SysRq hack takes none, and each is told. -/
def AllRaw : (Nat → Bool) × Xlate → List (Nat × Nat) → Prop
  | _, [] => True
  | s, ev :: events =>
    s.2.con.kbd.kbdmode = .raw ∧ ¬s.2.TakenBySysrq e ev.1 ev.2 ∧ (s.2.rawKey ev).Told ∧
      AllRaw (s.2.kbdKeycode e s.1 ev.1 ev.2 false) events

theorem allRaw_cons (s : (Nat → Bool) × Xlate) (ev : Nat × Nat) (events : List (Nat × Nat)) :
    AllRaw e s (ev :: events) = (s.2.con.kbd.kbdmode = .raw ∧ ¬s.2.TakenBySysrq e ev.1 ev.2 ∧
      (s.2.rawKey ev).Told ∧ AllRaw e (s.2.kbdKeycode e s.1 ev.1 ev.2 false) events) := rfl

/-- **A run in raw mode** queues the bytes of its keys. -/
theorem kbdKeycodes_raw {events : List (Nat × Nat)} {s : (Nat → Bool) × Xlate}
    (hpad : s.2.mods.npadch = -1) (h : AllRaw e s events) :
    (kbdKeycodes e false s events).2.con.flip = s.2.con.flip.map
        (· ++ ((pressed events).flatMap rawBytes).map fun b => (b, false)) ∧
      ∀ key ∈ pressed events, ToldKey key := by
  induction events generalizing s with
  | nil =>
    rw [pressed, List.map_nil, List.flatMap_nil, List.map_nil]
    refine ⟨?_, fun key hkey => absurd hkey List.not_mem_nil⟩
    simp only [kbdKeycodes, List.append_nil, Option.map_id']
  | cons ev events ih =>
    rw [allRaw_cons] at h
    obtain ⟨hmode, hsysrq, htold, hrest⟩ := h
    obtain ⟨hflip, hpad'⟩ := s.2.kbdKeycode_raw e s.1 hmode hpad hsysrq
    obtain ⟨hrun, hkeys⟩ := ih hpad' hrest
    obtain ⟨hbytes, hkey⟩ := htold.rawBytes
    rw [pressed_cons]
    constructor
    · rw [kbdKeycodes, hrun, hflip, Option.map_map, List.flatMap_cons, List.map_append, hbytes]
      refine congrArg (Option.map · _) (funext fun l => ?_)
      rw [Function.comp_apply, List.append_assoc]
      rfl
    · rw [List.forall_mem_cons]
      exact ⟨hkey, hkeys⟩

end Xlate

/-- **Raw mode is decodable but for these keys**: an event is told from all others exactly if its
key is in the table and shares no code, and of two runs whose events are all told one queues a
beginning of what the other does exactly if its keys are a beginning of the other's. -/
theorem raw_decodable :
    (∀ ev : RawKey, ev.Told ↔ scancode ev.keycode ≠ 0 ∧ shared ev = false) ∧
    ∀ (e e' : Env) (s s' : (Nat → Bool) × Xlate) (events events' : List (Nat × Nat)),
      s.2.mods.npadch = -1 → s'.2.mods.npadch = -1 → Xlate.AllRaw e s events →
      Xlate.AllRaw e' s' events' →
      ∃ bytes bytes' : List UInt8,
        (Xlate.kbdKeycodes e false s events).2.con.flip =
          s.2.con.flip.map (· ++ bytes.map fun b => (b, false)) ∧
        (Xlate.kbdKeycodes e' false s' events').2.con.flip =
          s'.2.con.flip.map (· ++ bytes'.map fun b => (b, false)) ∧
        (bytes <+: bytes' ↔ pressed events <+: pressed events') := by
  refine ⟨told_iff, fun e e' s s' events events' hpad hpad' h h' => ?_⟩
  obtain ⟨hrun, hkeys⟩ := Xlate.kbdKeycodes_raw e hpad h
  obtain ⟨hrun', hkeys'⟩ := Xlate.kbdKeycodes_raw e' hpad' h'
  exact ⟨_, _, hrun, hrun', prefixCode_told.prefix_iff hkeys hkeys'⟩

/-- A console in raw mode on which nothing has been typed. -/
def untypedRaw : (Nat → Bool) × Xlate :=
  (fun _ => false, untyped.onCon fun c => { c with kbd := { c.kbd with kbdmode := .raw } })

theorem raw_decodable_letters :
    ∃ bytes bytes' : List UInt8,
      (Xlate.kbdKeycodes acuteKeys false untypedRaw [(30, 1)]).2.con.flip =
        untypedRaw.2.con.flip.map (· ++ bytes.map fun b => (b, false)) ∧
      (Xlate.kbdKeycodes acuteKeys false untypedRaw [(30, 1), (48, 1)]).2.con.flip =
        untypedRaw.2.con.flip.map (· ++ bytes'.map fun b => (b, false)) ∧
      (bytes <+: bytes' ↔ pressed [(30, 1)] <+: pressed [(30, 1), (48, 1)]) := by
  have hsysrq : ∀ (x : Xlate) (keycode down : Nat), ¬x.TakenBySysrq acuteKeys keycode down :=
    fun x keycode down h => Bool.noConfusion h.1
  exact raw_decodable.2 acuteKeys acuteKeys untypedRaw untypedRaw [(30, 1)] [(30, 1), (48, 1)] rfl
    rfl ⟨rfl, hsysrq _ _ _, (told_iff _).mpr (by decide), trivial⟩
    ⟨rfl, hsysrq _ _ _, (told_iff _).mpr (by decide), by decide, hsysrq _ _ _,
      (told_iff _).mpr (by decide), trivial⟩

end LinuxConsole.Input

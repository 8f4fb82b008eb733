import LinuxConsole.Lib.Transducer
import LinuxConsole.Vc.Write

/-!
# The UTF-8 decoder

`decodeStep` is the decoding step of `do_con_write`: the byte above `0x7f` that `decodeByte` reads,
and the plain byte that drops a sequence under way.  It is what `translateByte` does with a byte
that passes the guard on the parser state, `translateByte_decodes`.

`utf8` is the shortest form of a code point below `2^31` in one to six bytes, `toUtf8` is what the
keyboard queues for a 16-bit code.  **From any state of the decoder** the shortest form of a code
point emits that code point and nothing else, `synchronizing_utf8`: its first byte is no
continuation byte, so whatever sequence was under way is dropped.  `decoder_synchronizes` is what
follows for whole texts, whatever came before them and however they are cut.
-/

namespace LinuxConsole

open Lib

/-- The decoding step: the decoder after a byte and the code point it completes. -/
def decodeStep (u : Utf) (c : Nat) : Utf × Option Nat :=
  if c > 0x7f then decodeByte u c else ({ u with utfCount := 0 }, some c)

theorem translateByte_decodes {s : Con} (hstate : s.ps.state ≠ .init) (hutf : s.dec.utf = true)
    (c : Nat) : translateByte s c =
      ({ s with dec := (decodeStep s.dec c).1 },
        (decodeStep s.dec c).2.map fun ch => (ch, ch)) := by
  rw [translateByte, if_neg hstate, if_pos hutf, decodeStep]
  split
  · rfl
  · rfl

/-! ### Shortest form -/

/-- The last `n` bytes of a sequence: six bits of the code point in each. -/
def contBytes : Nat → Nat → List Nat
  | 0, _ => []
  | n + 1, cp => (0x80 ||| ((cp >>> (6 * n)) &&& 0x3f)) :: contBytes n cp

/-- The shortest form of a code point below `2^31`. -/
def utf8 (cp : Nat) : List Nat :=
  if cp < 0x80 then [cp]
  else if cp < 0x800 then (0xc0 ||| (cp >>> 6)) :: contBytes 1 cp
  else if cp < 0x10000 then (0xe0 ||| (cp >>> 12)) :: contBytes 2 cp
  else if cp < 0x200000 then (0xf0 ||| (cp >>> 18)) :: contBytes 3 cp
  else if cp < 0x4000000 then (0xf8 ||| (cp >>> 24)) :: contBytes 4 cp
  else (0xfc ||| (cp >>> 30)) :: contBytes 5 cp

/-- `to_utf8`: the bytes the keyboard queues for a 16-bit code. -/
def toUtf8 (c : BitVec 16) : List Nat :=
  let c := c.toNat
  if c < 0x80 then [c]
  else if c < 0x800 then [0xc0 ||| (c >>> 6), 0x80 ||| (c &&& 0x3f)]
  else [0xe0 ||| (c >>> 12), 0x80 ||| ((c >>> 6) &&& 0x3f), 0x80 ||| (c &&& 0x3f)]

theorem toUtf8_eq (c : BitVec 16) : toUtf8 c = utf8 c.toNat := by
  have hlt : c.toNat < 0x10000 := c.isLt
  rw [toUtf8, utf8]
  simp only [if_pos hlt, contBytes, Nat.mul_zero, Nat.shiftRight_zero]

/-! ### One byte of a sequence -/

theorem decodeStep_cont {u : Utf} {n b : Nat} (hcount : u.utfCount = n + 1) (hb : b < 0x40) :
    decodeStep u (0x80 ||| b) =
      ({ u with utfChar := u.utfChar * 0x40 + b, utfCount := n },
        if n = 0 then some (u.utfChar * 0x40 + b) else none) := by
  have hbits : ∀ b < 0x40, (0x80 ||| b) > 0x7f ∧ (0x80 ||| b) &&& 0xc0 = 0x80 ∧
      (0x80 ||| b) &&& 0x3f = b := by decide
  obtain ⟨hhigh, htag, hlow⟩ := hbits b hb
  have hchar : (u.utfChar <<< 6) ||| b = u.utfChar * 0x40 + b := by
    rw [← Nat.shiftLeft_add_eq_or_of_lt (i := 6) hb, Nat.shiftLeft_eq]
  rw [decodeStep, if_pos hhigh, decodeByte, if_pos ⟨by omega, htag⟩, hlow, hchar, hcount]
  rfl

/-- The five kinds of lead bytes: the tag, how many values the bits below it take, and how many
bytes follow. -/
def leads : List (Nat × Nat × Nat) :=
  [(0xc0, 0x20, 1), (0xe0, 0x10, 2), (0xf0, 0x08, 3), (0xf8, 0x04, 4), (0xfc, 0x02, 5)]

theorem decodeStep_lead (u : Utf) {tag bits n : Nat} (hl : (tag, bits, n) ∈ leads) {b : Nat}
    (hb : b < bits) : decodeStep u (tag ||| b) = ({ u with utfCount := n, utfChar := b }, none) := by
  have hstart : ∀ l ∈ leads, ∀ b < l.2.1, (l.1 ||| b) > 0x7f ∧ (l.1 ||| b) &&& 0xc0 ≠ 0x80 := by
    decide
  obtain ⟨hhigh, htag⟩ := hstart _ hl b hb
  rw [decodeStep, if_pos hhigh, decodeByte, if_neg (fun h => htag h.2)]
  simp only [leads, List.mem_cons, List.not_mem_nil, or_false, Prod.mk.injEq] at hl
  rcases hl with ⟨rfl, rfl, rfl⟩ | ⟨rfl, rfl, rfl⟩ | ⟨rfl, rfl, rfl⟩ | ⟨rfl, rfl, rfl⟩ |
    ⟨rfl, rfl, rfl⟩
  · have hbits : ∀ b < 0x20, (0xc0 ||| b) &&& 0xe0 = 0xc0 ∧ (0xc0 ||| b) &&& 0x1f = b := by decide
    obtain ⟨h1, hlow⟩ := hbits b hb
    rw [if_pos h1, hlow]
  · have hbits : ∀ b < 0x10, (0xe0 ||| b) &&& 0xe0 ≠ 0xc0 ∧ (0xe0 ||| b) &&& 0xf0 = 0xe0 ∧
        (0xe0 ||| b) &&& 0x0f = b := by decide
    obtain ⟨h1, h2, hlow⟩ := hbits b hb
    rw [if_neg h1, if_pos h2, hlow]
  · have hbits : ∀ b < 0x08, (0xf0 ||| b) &&& 0xe0 ≠ 0xc0 ∧ (0xf0 ||| b) &&& 0xf0 ≠ 0xe0 ∧
        (0xf0 ||| b) &&& 0xf8 = 0xf0 ∧ (0xf0 ||| b) &&& 0x07 = b := by decide
    obtain ⟨h1, h2, h3, hlow⟩ := hbits b hb
    rw [if_neg h1, if_neg h2, if_pos h3, hlow]
  · have hbits : ∀ b < 0x04, (0xf8 ||| b) &&& 0xe0 ≠ 0xc0 ∧ (0xf8 ||| b) &&& 0xf0 ≠ 0xe0 ∧
        (0xf8 ||| b) &&& 0xf8 ≠ 0xf0 ∧ (0xf8 ||| b) &&& 0xfc = 0xf8 ∧ (0xf8 ||| b) &&& 0x03 = b := by
      decide
    obtain ⟨h1, h2, h3, h4, hlow⟩ := hbits b hb
    rw [if_neg h1, if_neg h2, if_neg h3, if_pos h4, hlow]
  · have hbits : ∀ b < 0x02, (0xfc ||| b) &&& 0xe0 ≠ 0xc0 ∧ (0xfc ||| b) &&& 0xf0 ≠ 0xe0 ∧
        (0xfc ||| b) &&& 0xf8 ≠ 0xf0 ∧ (0xfc ||| b) &&& 0xfc ≠ 0xf8 ∧
        (0xfc ||| b) &&& 0xfe = 0xfc ∧ (0xfc ||| b) &&& 0x01 = b := by
      decide
    obtain ⟨h1, h2, h3, h4, h5, hlow⟩ := hbits b hb
    rw [if_neg h1, if_neg h2, if_neg h3, if_neg h4, if_pos h5, hlow]

/-! ### Sequences -/

theorem shiftRight_six (cp n : Nat) :
    (cp >>> (6 * (n + 1))) * 0x40 + ((cp >>> (6 * n)) &&& 0x3f) = cp >>> (6 * n) := by
  have hand : (cp >>> (6 * n)) &&& 0x3f = (cp >>> (6 * n)) % 0x40 :=
    Nat.and_two_pow_sub_one_eq_mod _ 6
  have hshift : cp >>> (6 * (n + 1)) = (cp >>> (6 * n)) / 0x40 := by
    rw [Nat.mul_succ, Nat.shiftRight_add, Nat.shiftRight_eq_div_pow _ 6]
  rw [hand, hshift]
  exact Nat.div_add_mod' _ _

theorem feed_contBytes (cp : Nat) {n : Nat} {u : Utf} (hcount : u.utfCount = n + 1)
    (hchar : u.utfChar = cp >>> (6 * (n + 1))) :
    (feed decodeStep u (contBytes (n + 1) cp)).2 = [cp] := by
  induction n generalizing u with
  | zero =>
    have hlast := shiftRight_six cp 0
    rw [contBytes, feed_cons, decodeStep_cont hcount (Nat.and_lt_two_pow _ (n := 6) (by decide)),
      hchar, hlast, if_pos rfl]
    rfl
  | succ n ih =>
    have hnext : ∀ u : Utf, u.utfCount = n + 1 + 1 → u.utfChar = cp >>> (6 * (n + 1 + 1)) →
        decodeStep u (0x80 ||| ((cp >>> (6 * (n + 1))) &&& 0x3f)) =
          ({ u with utfChar := cp >>> (6 * (n + 1)), utfCount := n + 1 }, none) := by
      intro u hc hu
      rw [decodeStep_cont hc (Nat.and_lt_two_pow _ (n := 6) (by decide)), hu,
        shiftRight_six cp (n + 1), if_neg n.succ_ne_zero]
    rw [contBytes, feed_cons_none (by rw [hnext u hcount hchar]), hnext u hcount hchar]
    exact ih rfl rfl

theorem feed_lead (u : Utf) {tag bits n cp : Nat} (hl : (tag, bits, n + 1) ∈ leads)
    (hb : cp >>> (6 * (n + 1)) < bits) :
    (feed decodeStep u ((tag ||| (cp >>> (6 * (n + 1)))) :: contBytes (n + 1) cp)).2 = [cp] := by
  rw [feed_cons_none (by rw [decodeStep_lead u hl hb]), decodeStep_lead u hl hb]
  exact feed_contBytes cp rfl rfl

/-- **Synchronisation.**  From any state of the decoder the shortest form of a code point emits
that code point alone. -/
theorem synchronizing_utf8 : Synchronizing decodeStep utf8 (· < 2 ^ 31) := by
  intro u cp hcp
  have hshift : ∀ k m : Nat, cp < 2 ^ k * m → cp >>> k < m := fun k m h => by
    rw [Nat.shiftRight_eq_div_pow]
    exact Nat.div_lt_of_lt_mul h
  rw [utf8]
  split
  next h =>
    have hplain : decodeStep u cp = ({ u with utfCount := 0 }, some cp) := by
      rw [decodeStep, if_neg (by omega)]
    rw [feed_cons, hplain]
    rfl
  split
  next h => exact feed_lead u (n := 0) (by decide) (hshift 6 0x20 (by omega))
  split
  next h => exact feed_lead u (n := 1) (by decide) (hshift 12 0x10 (by omega))
  split
  next h => exact feed_lead u (n := 2) (by decide) (hshift 18 0x08 (by omega))
  split
  next h => exact feed_lead u (n := 3) (by decide) (hshift 24 0x04 (by omega))
  next h => exact feed_lead u (n := 4) (by decide) (hshift 30 0x02 (by omega))

/-! ### The decoder of a console -/

/-- A decoder whose code point fits the `int` it is kept in, with room for the bytes that are still
to come. -/
def Utf.Fits (u : Utf) : Prop := u.utfCount ≤ 5 ∧ u.utfChar < 2 ^ (31 - 6 * u.utfCount)

theorem Utf.Fits.decodeStep {u : Utf} (h : u.Fits) {c : Nat} (hc : c < 2 ^ 8) :
    (decodeStep u c).1.Fits ∧ ∀ ch ∈ (LinuxConsole.decodeStep u c).2, ch < 2 ^ 31 := by
  obtain ⟨hcount, hchar⟩ := h
  have hlead : ∀ n m, n ≤ 5 → m < 2 ^ (31 - 6 * n) →
      Utf.Fits { u with utfCount := n, utfChar := m } ∧ ∀ ch ∈ (none : Option Nat), ch < 2 ^ 31 :=
    fun n m hn hm => ⟨⟨hn, hm⟩, fun _ h => by contradiction⟩
  have hmask : ∀ k, c &&& (2 ^ k - 1) < 2 ^ k := fun k => by
    rw [Nat.and_two_pow_sub_one_eq_mod]
    exact Nat.mod_lt _ (Nat.two_pow_pos k)
  have hlow : u.utfChar < 2 ^ 31 := hchar.trans_le (Nat.pow_le_pow_right (by decide) (by omega))
  rw [LinuxConsole.decodeStep]
  split
  · rw [decodeByte]
    split
    next hb =>
      obtain ⟨n, hn⟩ : ∃ n, u.utfCount = n + 1 := ⟨u.utfCount - 1, by omega⟩
      have hsix : c &&& 0x3f < 2 ^ 6 := hmask 6
      have hor : (u.utfChar <<< 6) ||| (c &&& 0x3f) = u.utfChar * 0x40 + (c &&& 0x3f) := by
        rw [← Nat.shiftLeft_add_eq_or_of_lt hsix, Nat.shiftLeft_eq]
      have hpow : 2 ^ (31 - 6 * n) = 2 ^ (31 - 6 * (n + 1)) * 0x40 := by
        rw [show 31 - 6 * n = 31 - 6 * (n + 1) + 6 by omega, Nat.pow_add]
      have hnew : u.utfChar * 0x40 + (c &&& 0x3f) < 2 ^ (31 - 6 * n) := by
        rw [hn] at hchar
        rw [hpow]
        omega
      have hwhole : u.utfChar * 0x40 + (c &&& 0x3f) < 2 ^ 31 :=
        hnew.trans_le (Nat.pow_le_pow_right (by decide) (by omega))
      simp only [hor, hn, Nat.add_sub_cancel]
      refine ⟨⟨(by omega : n ≤ 5), hnew⟩, fun ch h => ?_⟩
      split at h
      · cases h
        exact hwhole
      · contradiction
    split
    · exact hlead 1 _ (by decide) ((hmask 5).trans_le (by decide))
    split
    · exact hlead 2 _ (by decide) ((hmask 4).trans_le (by decide))
    split
    · exact hlead 3 _ (by decide) ((hmask 3).trans_le (by decide))
    split
    · exact hlead 4 _ (by decide) ((hmask 2).trans_le (by decide))
    split
    · exact hlead 5 _ (by decide) ((hmask 1).trans_le (by decide))
    · exact hlead 0 _ (by decide) hlow
  · refine ⟨⟨Nat.zero_le 5, hlow⟩, fun ch h => ?_⟩
    cases h
    exact hc.trans (by decide)

theorem feed_translateByte {s : Con} (hstate : s.ps.state ≠ .init) (hutf : s.dec.utf = true)
    (text : List Nat) : (feed translateByte s text).2 =
      (feed decodeStep s.dec text).2.map fun ch => (ch, ch) := by
  have hkeeps : ∀ u c, u.utf = true → (decodeStep u c).1.utf = true := by
    intro u c hu
    rw [decodeStep]
    split
    · simp only [decodeByte, apply_ite Prod.fst, apply_ite Utf.utf, hu, ite_self]
    · exact hu
  have hsim : feed translateByte s text =
      ({ s with dec := (feed decodeStep s.dec text).1 },
        (feed decodeStep s.dec text).2.map fun ch => (ch, ch)) :=
    feed_map (fun u => { s with dec := u }) (fun ch => (ch, ch)) (fun u => u.utf = true)
      (fun u c hu => ⟨hkeeps u c hu,
        translateByte_decodes (s := { s with dec := u }) hstate hu c⟩) text hutf
  exact congrArg Prod.snd hsim

/-- **The decoder synchronizes itself.**  In UTF-8 mode and past the guard on `vc_state`, whatever
the decoder is in the middle of and whatever bytes come first, the code points that follow in
shortest form come out in order after what those bytes emit, in any chunks; and the bytes of
`to_utf8` give the 16-bit codes back. -/
theorem decoder_synchronizes (s : Con) (hstate : s.ps.state ≠ .init) (hutf : s.dec.utf = true) :
    (∀ (garbage cps : List Nat) (chunks : List (List Nat)), (∀ cp ∈ cps, cp < 2 ^ 31) →
      chunks.flatten = garbage ++ cps.flatMap utf8 →
        (feedAll translateByte s chunks).2 =
          (feed translateByte s garbage).2 ++ cps.map fun cp => (cp, cp)) ∧
    ∀ codes : List (BitVec 16), (feed translateByte s (codes.flatMap toUtf8)).2 =
      codes.map fun c => (c.toNat, c.toNat) := by
  constructor
  · intro garbage cps chunks hcps hchunks
    rw [feedAll_eq_feed, hchunks, feed_translateByte hstate hutf, feed_translateByte hstate hutf,
      synchronizing_utf8.feed_append _ _ hcps, List.map_append]
  · intro codes
    have hbytes : codes.flatMap toUtf8 = (codes.map BitVec.toNat).flatMap utf8 := by
      rw [List.flatMap_map]
      exact List.flatMap_congr fun c _ => toUtf8_eq c
    have hcodes : ∀ cp ∈ codes.map BitVec.toNat, cp < 2 ^ 31 := by
      intro cp hcp
      obtain ⟨c, -, rfl⟩ := List.mem_map.mp hcp
      exact c.isLt.trans (by decide)
    rw [feed_translateByte hstate hutf, hbytes, synchronizing_utf8.feed_flatMap _ hcodes,
      List.map_map]
    rfl

/-- A stray continuation byte, a sequence of three bytes cut after two of them and a letter; and the
euro sign from the keyboard. -/
theorem decoder_synchronizes_euro :
    (feedAll translateByte { bootCon with dec.utf := true, ps.state := .esc }
      [[0xbf, 0xe2, 0x82], [0xac, 0x41]]).2 = [(0x20ac, 0x20ac), (0x41, 0x41)] ∧
    (feed translateByte { bootCon with dec.utf := true, ps.state := .esc }
      ([0x20ac#16].flatMap toUtf8)).2 = [(0x20ac, 0x20ac)] := by
  have h := decoder_synchronizes { bootCon with dec.utf := true, ps.state := .esc } (by decide) rfl
  exact ⟨h.1 [0xbf] [0x20ac, 0x41] [[0xbf, 0xe2, 0x82], [0xac, 0x41]] (by decide) (by decide),
    h.2 [0x20ac#16]⟩

end LinuxConsole

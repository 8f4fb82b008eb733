import LinuxConsole.Attach.Serial
import Mathlib.Data.List.GetD
import Mathlib.Tactic.IntervalCases

/-!
# Two packets in step

A Twiddler and a Zhen Hua controller send packets of five bytes without being
asked, and their initialisers begin to read anywhere.  Both look for a header in
five bytes at most, read nine bytes more, and check what they have: the search and
the check are parameters here (`readPackets`).

`Sends good phase s` says that `s` is an endless sequence of good packets from the
byte `phase` of the first on.  **`packets_in_step`**: from any phase both
initialisers succeed, and they have then read up to the end of a packet.
**`twiddler_two`**: if `twiddler_init` succeeds, whatever was sent, the last ten
bytes that it has read are two good packets.
-/

namespace LinuxConsole.Attach

/-! ### The initialisers -/

/-- The first loop: at most so many bytes until one is a header.  Nothing if there is
none, or none in time. -/
def readHeader (header : Byte → Bool) : Nat → Answers → Progress (Option Byte)
  | 0, l => .returned none l
  | _ + 1, [] => .waiting
  | _ + 1, none :: l => .returned none l
  | n + 1, some b :: l => if header b then .returned (some b) l else readHeader header n l

/-- The second loop: so many bytes behind those in `c`. -/
def readBytes : Nat → List Byte → Answers → Progress (Option (List Byte))
  | 0, c, l => .returned (some c) l
  | _ + 1, _, [] => .waiting
  | _ + 1, _, none :: l => .returned none l
  | n + 1, c, some b :: l => readBytes n (c ++ [b]) l

/-- Both loops, the check and the result. -/
def readPackets (header : Byte → Bool) (check : List Byte → Bool) (l : Answers) : Progress Int :=
  match readHeader header 5 l with
  | .waiting => .waiting
  | .returned none l => .returned (-1) l
  | .returned (some b) l =>
    match readBytes 9 [b] l with
    | .waiting => .waiting
    | .returned none l => .returned (-1) l
    | .returned (some c) l => .returned (if check c then 0 else -1) l

/-- `TIOCM_DTR`. -/
def tiocmDtr : BitVec 32 := 0x002

/-- The byte after `count` others disobeys the rules of the Twiddler. -/
def invalid (c : List Byte) (count : Nat) : Bool :=
  (count % 5 = 0 && c.getD count 0 &&& 0x80 ≠ 0x00) ||
    (count % 5 = 4 && c.getD count 0 &&& 0xF0 ≠ 0x80) ||
    (count % 5 ≠ 0 && c.getD count 0 &&& 0x80 ≠ 0x80)

/-- `twiddler_init`.  `line` is what `TIOCMGET` finds, if it succeeds, and `set` whether
`TIOCMSET` does. -/
def twiddlerInit (line : Option (BitVec 32)) (set : BitVec 32 → Bool) (l : Answers) :
    Progress Int :=
  match line with
  | none => .returned (-1) l
  | some line =>
    if !set (line &&& ~~~tiocmDtr) then .returned (-1) l
    else
      readPackets (fun b => b &&& 0x80 = 0)
        (fun c => !(List.range' 1 9).any fun count => invalid c count) l

/-- `zhenhua_init`. -/
def zhenhuaInit (l : Answers) : Progress Int :=
  readPackets (fun b => b = 0xef) (fun c => c.getD 5 0 = 0xef) l

/-! ### Good packets -/

/-- **A packet of the Twiddler**: the MSB is 0 on the first and 1 on all other bytes,
and the high order nibble of the last byte is 8. -/
structure TwiddlerPacket (p : List Byte) : Prop where
  length : p.length = 5
  first : p.getD 0 0 &&& 0x80 = 0
  others : ∀ i, 0 < i → i < 5 → p.getD i 0 &&& 0x80 = 0x80
  last : p.getD 4 0 &&& 0xF0 = 0x80

/-- **A packet of the controller**, whose bits are reversed: the first byte is 0xF7 and
the next four are values between 50 and 200. -/
structure ZhenhuaPacket (p : List Byte) : Prop where
  length : p.length = 5
  first : (p.getD 0 0).reverse = 0xF7
  values : ∀ i, 0 < i → i < 5 →
    50 ≤ (p.getD i 0).reverse.toNat ∧ (p.getD i 0).reverse.toNat ≤ 200

/-- The packet `n` of a stream. -/
def packet (u : Nat → Byte) (n : Nat) : List Byte := (List.range 5).map fun i => u (5 * n + i)

/-- **Endless good packets**, from one of the five bytes of the first. -/
def Sends (good : List Byte → Prop) (phase : Nat) (s : Nat → Byte) : Prop :=
  phase < 5 ∧ ∃ u, (∀ n, good (packet u n)) ∧ ∀ i, s i = u (phase + i)

/-- The answers from `m` up to `n` when no byte is late. -/
def answers (s : Nat → Byte) (m n : Nat) : Answers :=
  (List.range' m (n - m)).map fun i => some (s i)

/-- **In step**: with enough of the stream the function returns 0, and it has read up to
the end of a packet. -/
def InStep (init : Answers → Progress Int) (phase : Nat) (s : Nat → Byte) : Prop :=
  ∃ m, (phase + m) % 5 = 0 ∧ ∀ n, m ≤ n → init (answers s 0 n) = .returned 0 (answers s m n)

/-! ### The loops -/

theorem readHeader_byte (header : Byte → Bool) (n : Nat) (b : Byte) (l : Answers) :
    readHeader header (n + 1) (some b :: l) =
      if header b then .returned (some b) l else readHeader header n l := rfl

theorem readBytes_byte (n : Nat) (c : List Byte) (b : Byte) (l : Answers) :
    readBytes (n + 1) c (some b :: l) = readBytes n (c ++ [b]) l := rfl

theorem readHeader_skip {header : Byte → Bool} {b : Byte} (hb : header b = true) (l : Answers) :
    ∀ {pre : List Byte} {n : Nat}, (∀ x ∈ pre, header x = false) → pre.length < n →
      readHeader header n (pre.map some ++ some b :: l) = .returned (some b) l := by
  intro pre
  induction pre with
  | nil =>
    intro n _ hn
    cases n with
    | zero => simp at hn
    | succ n =>
      rw [List.map_nil, List.nil_append, readHeader_byte]
      exact if_pos hb
  | cons x pre ih =>
    intro n hpre hn
    cases n with
    | zero => simp at hn
    | succ n =>
      have hx : header x = false := hpre x (List.mem_cons_self ..)
      rw [List.map_cons, List.cons_append, readHeader_byte, hx, if_neg Bool.false_ne_true]
      exact ih (fun y hy => hpre y (List.mem_cons_of_mem x hy)) (by simpa using hn)

theorem readBytes_all (l : Answers) :
    ∀ {cs c : List Byte}, readBytes cs.length c (cs.map some ++ l) =
      .returned (some (c ++ cs)) l := by
  intro cs
  induction cs with
  | nil =>
    intro c
    rw [List.append_nil]
    rfl
  | cons x cs ih =>
    intro c
    rw [List.length_cons, List.map_cons, List.cons_append, readBytes_byte, ih, List.append_assoc,
      List.singleton_append]

theorem readHeader_found {header : Byte → Bool} {b : Byte} {rest : Answers} :
    ∀ {n : Nat} {l : Answers}, readHeader header n l = .returned (some b) rest →
      header b = true ∧ ∃ pre, l = pre ++ some b :: rest := by
  intro n
  induction n with
  | zero => intro l h; simp [readHeader] at h
  | succ n ih =>
    intro l h
    cases l with
    | nil => simp [readHeader] at h
    | cons a l =>
      cases a with
      | none => simp [readHeader] at h
      | some x =>
        rw [readHeader_byte] at h
        split_ifs at h with hx
        · injection h with hb hl
          obtain rfl := Option.some.inj hb
          exact ⟨hx, [], by rw [hl, List.nil_append]⟩
        · obtain ⟨hb, pre, rfl⟩ := ih h
          exact ⟨hb, some x :: pre, rfl⟩

theorem readBytes_found {c' : List Byte} {rest : Answers} :
    ∀ {n : Nat} {c : List Byte} {l : Answers}, readBytes n c l = .returned (some c') rest →
      ∃ cs, cs.length = n ∧ c' = c ++ cs ∧ l = cs.map some ++ rest := by
  intro n
  induction n with
  | zero =>
    intro c l h
    rw [readBytes] at h
    injection h with hc hl
    exact ⟨[], rfl, by simpa using hc.symm, by simpa using hl⟩
  | succ n ih =>
    intro c l h
    cases l with
    | nil => simp [readBytes] at h
    | cons a l =>
      cases a with
      | none => simp [readBytes] at h
      | some x =>
        obtain ⟨cs, hlen, rfl, rfl⟩ := ih h
        exact ⟨x :: cs, by simp [hlen], by simp, rfl⟩

/-- **Success**: ten bytes were read last, the first of them a header, and they pass. -/
theorem readPackets_zero {header : Byte → Bool} {check : List Byte → Bool} {l rest : Answers}
    (h : readPackets header check l = .returned 0 rest) :
    ∃ pre c, l = pre ++ c.map some ++ rest ∧ c.length = 10 ∧ header (c.getD 0 0) = true ∧
      check c = true := by
  rw [readPackets] at h
  split at h
  · simp at h
  · simp at h
  · rename_i b l' hheader
    split at h
    · simp at h
    · simp at h
    · rename_i c l'' hbytes
      obtain ⟨hb, pre, rfl⟩ := readHeader_found hheader
      obtain ⟨cs, hlen, rfl, rfl⟩ := readBytes_found hbytes
      injection h with hvalue hrest
      subst hrest
      refine ⟨pre, b :: cs, by simp, by simp [hlen], by simpa using hb, ?_⟩
      by_contra hcheck
      rw [if_neg (by simpa using hcheck)] at hvalue
      exact absurd hvalue (by decide)

/-- The loops read up to the header, and nine bytes more. -/
theorem readPackets_of_header {header : Byte → Bool} {check : List Byte → Bool}
    {pre cs : List Byte} {b : Byte} (l : Answers) (hpre : ∀ x ∈ pre, header x = false)
    (hfew : pre.length < 5) (hb : header b = true) (hcs : cs.length = 9)
    (hcheck : check (b :: cs) = true) :
    readPackets header check (pre.map some ++ some b :: (cs.map some ++ l)) = .returned 0 l := by
  rw [readPackets, readHeader_skip hb _ hpre hfew]
  simp only
  rw [← hcs, readBytes_all]
  simp [hcheck]

/-! ### The checks -/

theorem passes_iff {c : List Byte} :
    (!(List.range' 1 9).any fun count => invalid c count) = true ↔
      ∀ count, 1 ≤ count → count < 10 → invalid c count = false := by
  rw [Bool.not_eq_true', List.any_eq_false]
  constructor
  · intro h count hone hten
    exact Bool.eq_false_iff.mpr (h count (by rw [List.mem_range'_1]; omega))
  · intro h count hcount
    rw [List.mem_range'_1] at hcount
    rw [h count hcount.1 (by omega)]
    exact Bool.false_ne_true

theorem invalid_eq_false {c : List Byte} {count : Nat} :
    invalid c count = false ↔
      (count % 5 = 0 → c.getD count 0 &&& 0x80 = 0) ∧
        (count % 5 = 4 → c.getD count 0 &&& 0xF0 = 0x80) ∧
          (count % 5 ≠ 0 → c.getD count 0 &&& 0x80 = 0x80) := by
  simp only [invalid, Bool.or_eq_false_iff, Bool.and_eq_false_imp, decide_eq_true_eq,
    decide_eq_false_iff_not, not_not, and_assoc]

theorem getD_take_of_lt {c : List Byte} {i n : Nat} (h : i < n) :
    (c.take n).getD i 0 = c.getD i 0 := by
  rw [List.getD_eq_getElem?_getD, List.getD_eq_getElem?_getD, List.getElem?_take_of_lt h]

theorem getD_drop_eq {c : List Byte} {i n : Nat} : (c.drop n).getD i 0 = c.getD (n + i) 0 := by
  rw [List.getD_eq_getElem?_getD, List.getD_eq_getElem?_getD, List.getElem?_drop]

/-- **Ten bytes that pass the check are two packets.** -/
theorem twiddlerPacket_of_passes {c : List Byte} (hlen : c.length = 10)
    (hheader : c.getD 0 0 &&& 0x80 = 0)
    (h : ∀ count, 1 ≤ count → count < 10 → invalid c count = false) :
    TwiddlerPacket (c.take 5) ∧ TwiddlerPacket (c.drop 5) := by
  have hrules := fun count hone hten => invalid_eq_false.mp (h count hone hten)
  constructor
  · constructor
    · rw [List.length_take, hlen]
      rfl
    · rwa [getD_take_of_lt (by omega)]
    · intro i hi hfive
      rw [getD_take_of_lt hfive]
      exact (hrules i (by omega) (by omega)).2.2 (by omega)
    · rw [getD_take_of_lt (by omega)]
      exact (hrules 4 (by omega) (by omega)).2.1 (by omega)
  · constructor
    · rw [List.length_drop, hlen]
    · rw [getD_drop_eq]
      exact (hrules 5 (by omega) (by omega)).1 (by omega)
    · intro i hi hfive
      rw [getD_drop_eq]
      exact (hrules (5 + i) (by omega) (by omega)).2.2 (by omega)
    · rw [getD_drop_eq]
      exact (hrules 9 (by omega) (by omega)).2.1 (by omega)

/-! ### The stream -/

theorem packet_getD (u : Nat → Byte) (n : Nat) {i : Nat} (h : i < 5) :
    (packet u n).getD i 0 = u (5 * n + i) := by
  rw [packet, List.getD_eq_getElem?_getD, List.getElem?_map, List.getElem?_range h]
  rfl

/-- A byte of the stream by its place in its packet. -/
theorem packet_byte (u : Nat → Byte) (j : Nat) : u j = (packet u (j / 5)).getD (j % 5) 0 := by
  rw [packet_getD u _ (Nat.mod_lt j (by omega)), Nat.div_add_mod]

theorem answers_split (s : Nat → Byte) {a b c : Nat} (hab : a ≤ b) (hbc : b ≤ c) :
    answers s a c = answers s a b ++ answers s b c := by
  rw [answers, answers, answers, ← List.map_append,
    show List.range' b (c - b) = List.range' (a + 1 * (b - a)) (c - b) by congr 1; omega,
    List.range'_append]
  congr 2
  omega

theorem answers_eq_map (s : Nat → Byte) (m n : Nat) :
    answers s m n = ((List.range' m (n - m)).map s).map some := by
  rw [answers, List.map_map]
  rfl

/-- **In step**: the first byte of a packet is a header and no other byte is, and two
good packets pass the check. -/
theorem readPackets_inStep {good : List Byte → Prop} {header : Byte → Bool}
    {check : List Byte → Bool} (hfirst : ∀ p, good p → header (p.getD 0 0) = true)
    (hothers : ∀ p, good p → ∀ i, 0 < i → i < 5 → header (p.getD i 0) = false)
    (hcheck : ∀ u : Nat → Byte, (∀ n, good (packet u n)) → ∀ n,
      check ((List.range' (5 * n) 10).map u) = true)
    {phase : Nat} {s : Nat → Byte} (h : Sends good phase s) :
    InStep (readPackets header check) phase s := by
  obtain ⟨hphase, u, hgood, hs⟩ := h
  -- the bytes before the first header
  obtain ⟨j, n, hj, hheader⟩ : ∃ j n, j < 5 ∧ phase + j = 5 * n := by
    by_cases hzero : phase = 0
    · exact ⟨0, 0, by omega, by omega⟩
    · exact ⟨5 - phase, 1, by omega, by omega⟩
  refine ⟨j + 10, by omega, fun k hk => ?_⟩
  have hpre : ∀ x ∈ (List.range' 0 j).map s, header x = false := by
    intro x hx
    obtain ⟨i, hi, rfl⟩ := List.mem_map.mp hx
    rw [List.mem_range'_1] at hi
    rw [hs, packet_byte u]
    exact hothers _ (hgood _) _ (by omega) (Nat.mod_lt _ (by omega))
  have hb : header (s j) = true := by
    rw [hs, packet_byte u, show (phase + j) % 5 = 0 by omega]
    exact hfirst _ (hgood _)
  have hten : s j :: (List.range' (j + 1) 9).map s = (List.range' (5 * n) 10).map u := by
    calc s j :: (List.range' (j + 1) 9).map s
        = (List.range' j 10).map s := rfl
      _ = (List.range' j 10).map fun i => u (phase + i) := List.map_congr_left fun i _ => hs i
      _ = ((List.range' j 10).map (phase + ·)).map u := by rw [List.map_map]; rfl
      _ = (List.range' (5 * n) 10).map u := by rw [List.map_add_range', hheader]
  have hsplit : answers s 0 k = ((List.range' 0 j).map s).map some ++
      some (s j) :: (((List.range' (j + 1) 9).map s).map some ++ answers s (j + 10) k) := by
    rw [answers_split s (Nat.zero_le j) (show j ≤ k by omega),
      answers_split s (show j ≤ j + 10 by omega) hk, answers_eq_map s 0 j, answers_eq_map s j]
    rw [Nat.sub_zero, show j + 10 - j = 9 + 1 by omega, List.range'_succ]
    simp
  rw [hsplit]
  have hpass : check (s j :: (List.range' (j + 1) 9).map s) = true := by
    rw [hten]
    exact hcheck u hgood n
  exact readPackets_of_header _ hpre (by simpa using hj) hb (by simp) hpass

/-! ### The two initialisers -/

/-- The ten bytes from the beginning of a packet on. -/
theorem getD_ten (u : Nat → Byte) (n : Nat) {i : Nat} (h : i < 10) :
    ((List.range' (5 * n) 10).map u).getD i 0 = (packet u (n + i / 5)).getD (i % 5) 0 := by
  rw [packet_getD u _ (Nat.mod_lt i (by omega)), List.getD_eq_getElem?_getD, List.getElem?_map,
    List.getElem?_range' h, show 5 * (n + i / 5) + i % 5 = 5 * n + 1 * i by omega]
  rfl

theorem TwiddlerPacket.valid {u : Nat → Byte} (h : ∀ n, TwiddlerPacket (packet u n)) (n : Nat) :
    (!(List.range' 1 9).any fun count => invalid ((List.range' (5 * n) 10).map u) count) =
      true := by
  rw [passes_iff]
  intro count _ hten
  rw [invalid_eq_false, getD_ten u n hten]
  have hp := h (n + count / 5)
  refine ⟨fun hmod => ?_, fun hmod => ?_, fun hmod => ?_⟩
  · rw [hmod]
    exact hp.first
  · rw [hmod]
    exact hp.last
  · exact hp.others _ (by omega) (by omega)

theorem twiddler_inStep {line : BitVec 32} {set : BitVec 32 → Bool}
    (hset : set (line &&& ~~~tiocmDtr) = true) {phase : Nat} {s : Nat → Byte}
    (h : Sends TwiddlerPacket phase s) : InStep (twiddlerInit (some line) set) phase s := by
  have hinit : twiddlerInit (some line) set = readPackets (fun b => b &&& 0x80 = 0)
      fun c => !(List.range' 1 9).any fun count => invalid c count := by
    funext l
    simp [twiddlerInit, hset]
  rw [hinit]
  apply readPackets_inStep _ _ (fun u hu n => TwiddlerPacket.valid hu n) h
  · intro p hp
    exact decide_eq_true hp.first
  · intro p hp i hi hfive
    refine decide_eq_false fun hzero => ?_
    rw [hp.others i hi hfive] at hzero
    exact absurd hzero (by decide)

theorem reverse_header {b : Byte} (h : b.reverse = 0xF7) : b = 0xef := by
  revert b
  decide +kernel

theorem reverse_value {b : Byte} (h : b.reverse.toNat ≤ 200) : b ≠ 0xef := by
  rintro rfl
  revert h
  decide

theorem zhenhua_inStep {phase : Nat} {s : Nat → Byte} (h : Sends ZhenhuaPacket phase s) :
    InStep zhenhuaInit phase s := by
  have hinit : zhenhuaInit = readPackets (fun b => b = 0xef) fun c => c.getD 5 0 = 0xef := rfl
  rw [hinit]
  apply readPackets_inStep _ _ _ h
  · intro p hp
    exact decide_eq_true (reverse_header hp.first)
  · intro p hp i hi hfive
    exact decide_eq_false (reverse_value (hp.values i hi hfive).2)
  · intro u hu n
    rw [getD_ten u n (by omega)]
    exact decide_eq_true (reverse_header (hu (n + 1)).first)

theorem twiddler_two {line : Option (BitVec 32)} {set : BitVec 32 → Bool} {l rest : Answers}
    (h : twiddlerInit line set l = .returned 0 rest) :
    ∃ pre p q, l = pre ++ (p ++ q).map some ++ rest ∧ TwiddlerPacket p ∧ TwiddlerPacket q := by
  cases line with
  | none => simp [twiddlerInit] at h
  | some line =>
    rw [twiddlerInit] at h
    split_ifs at h with hset
    · simp at h
    · obtain ⟨pre, c, hl, hlen, hheader, hcheck⟩ := readPackets_zero h
      obtain ⟨hp, hq⟩ := twiddlerPacket_of_passes hlen (of_decide_eq_true hheader)
        (passes_iff.mp hcheck)
      exact ⟨pre, c.take 5, c.drop 5, by rw [List.take_append_drop, hl], hp, hq⟩

/-- **The initialisers get in step** with a device of their own from any phase, and
`twiddler_init` succeeds only on two packets of a Twiddler. -/
theorem packets_in_step :
    (∀ (line : BitVec 32) (set : BitVec 32 → Bool) (phase : Nat) (s : Nat → Byte),
      set (line &&& ~~~tiocmDtr) = true → Sends TwiddlerPacket phase s →
        InStep (twiddlerInit (some line) set) phase s) ∧
      (∀ (phase : Nat) (s : Nat → Byte), Sends ZhenhuaPacket phase s →
        InStep zhenhuaInit phase s) ∧
      ∀ (line : Option (BitVec 32)) (set : BitVec 32 → Bool) (l rest : Answers),
        twiddlerInit line set l = .returned 0 rest →
          ∃ pre p q, l = pre ++ (p ++ q).map some ++ rest ∧ TwiddlerPacket p ∧ TwiddlerPacket q :=
  ⟨fun _ _ _ _ hset h => twiddler_inStep hset h, fun _ _ h => zhenhua_inStep h,
    fun _ _ _ _ h => twiddler_two h⟩

/-- A stream of one packet again and again. -/
def repeated (head tail : Byte) (i : Nat) : Byte := if i % 5 = 0 then head else tail

theorem packet_repeated (head tail : Byte) (n : Nat) :
    packet (repeated head tail) n = [head, tail, tail, tail, tail] := by
  have hbyte : ∀ i < 5, repeated head tail (5 * n + i) = if i = 0 then head else tail := by
    intro i hi
    rw [repeated, show (5 * n + i) % 5 = i by omega]
  have hhead : repeated head tail (5 * n) = head := hbyte 0 (by omega)
  simp [packet, List.range_succ, hbyte, hhead]

/-- A Twiddler heard from the fourth byte on, a controller from the third, and ten bytes
of a Twiddler behind one that is not. -/
theorem packets_in_step_repeated :
    InStep (twiddlerInit (some 0) fun _ => true) 3 (fun i => repeated 0x00 0x80 (3 + i)) ∧
      InStep zhenhuaInit 2 (fun i => repeated 0xef 0x01 (2 + i)) ∧
        ∃ pre p q, some 0xff :: answers (repeated 0x00 0x80) 0 12 =
          pre ++ (p ++ q).map some ++ answers (repeated 0x00 0x80) 10 12 ∧
            TwiddlerPacket p ∧ TwiddlerPacket q := by
  have htwiddler : ∀ n, TwiddlerPacket (packet (repeated 0x00 0x80) n) := by
    intro n
    rw [packet_repeated]
    refine ⟨rfl, by decide, fun i hi hfive => ?_, by decide⟩
    interval_cases i <;> decide
  have hzhenhua : ∀ n, ZhenhuaPacket (packet (repeated 0xef 0x01) n) := by
    intro n
    rw [packet_repeated]
    refine ⟨rfl, by decide, fun i hi hfive => ?_⟩
    interval_cases i <;> decide
  refine ⟨packets_in_step.1 0 _ 3 _ rfl ⟨by omega, _, htwiddler, fun _ => rfl⟩,
    packets_in_step.2.1 2 _ ⟨by omega, _, hzhenhua, fun _ => rfl⟩,
    packets_in_step.2.2 (some 0) (fun _ => true) _ _ (by decide)⟩

end LinuxConsole.Attach

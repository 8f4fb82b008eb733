import LinuxConsole.Lib.Run
import LinuxConsole.Lib.Slice

/-!
# Flip buffers

What a driver receives it puts in one half of a buffer, `tty_insert_flip_char`, while the line
discipline reads the other; `flush_to_ldisc` swaps the two.  The discipline reads one character
after the other, outside the lock, and what is put in meanwhile goes to the other half.

What the discipline receives is the beginning of what has been put in as long as no
`flush_to_ldisc` begins before another has ended.  Where one does it gives the half that is being
read to the driver, and characters are lost (`flip_conserves`).
-/

namespace LinuxConsole.FlipBuffer

open Lib

/-! ### The state -/

/-- A character and its flag, of `char_buf` and `flag_buf`. -/
abbrev FlipChar := UInt8 × UInt8

/-- A `flush_to_ldisc` under way: where `receive_buf` reads, and how many it has still to read. -/
structure Flush where
  cp : Nat
  left : Nat

/-- `tty_flip_buffer`, the flushes under way, what the discipline has received and what has been
put in. -/
structure Flip where
  buf : Nat → FlipChar
  bufNum : Bool
  ptr : Nat
  count : Nat
  flushing : Nat → Option Flush
  received : List FlipChar
  accepted : List FlipChar

def ttyFlipbufSize : Nat := 512

/-- The beginning of a half. -/
def half (bufNum : Bool) : Nat := if bufNum then ttyFlipbufSize else 0

/-! ### Steps -/

/-- A driver puts a character in, a `flush_to_ldisc` begins or reads on; `ready` says that the line
has its discipline and that `TTY_DONT_FLIP` is clear. -/
inductive Act where
  | insert (c : FlipChar)
  | flush (p : Nat) (ready : Bool)
  | receive (p : Nat)

/-- The character is put where the pointer is. -/
def Flip.put (s : Flip) (c : FlipChar) : Flip :=
  { s with
    buf := Function.update s.buf s.ptr c
    ptr := s.ptr + 1
    count := s.count + 1
    accepted := s.accepted ++ [c] }

/-- What `tty_insert_flip_char` is to do, which `flush_to_ldisc` relies on: it puts a character in
where there is room, and nothing where there is none. -/
structure Inserts (insertFlipChar : Flip → FlipChar → Flip) : Prop where
  room : ∀ {s} (c), s.count < ttyFlipbufSize → insertFlipChar s c = s.put c
  full : ∀ {s} (c), ttyFlipbufSize ≤ s.count → insertFlipChar s c = s

/-- `flush_to_ldisc` up to `receive_buf`. -/
def flushToLdisc (s : Flip) (p : Nat) (ready : Bool) : Flip :=
  if s.flushing p = none ∧ ready then
    { s with
      bufNum := !s.bufNum
      ptr := half (!s.bufNum)
      count := 0
      flushing := Function.update s.flushing p (some ⟨half s.bufNum, s.count⟩) }
  else s

/-- `receive_buf` reads one character, or it has read all. -/
def receiveBuf (s : Flip) (p : Nat) : Flip :=
  match s.flushing p with
  | none => s
  | some ⟨_, 0⟩ => { s with flushing := Function.update s.flushing p none }
  | some ⟨cp, left + 1⟩ =>
    { s with
      flushing := Function.update s.flushing p (some ⟨cp + 1, left⟩)
      received := s.received ++ [s.buf cp] }

def step (insertFlipChar : Flip → FlipChar → Flip) (s : Flip) : Act → Flip
  | .insert c => insertFlipChar s c
  | .flush p ready => flushToLdisc s p ready
  | .receive p => receiveBuf s p

/-- No flush is under way when one begins. -/
def Alone (s : Flip) : Act → Prop
  | .flush _ ready => ready = true → ∀ q, s.flushing q = none
  | _ => True

/-! ### The invariant -/

/-- What a flush has still to read. -/
def Flip.rest (s : Flip) (f : Flush) : List FlipChar := slice s.buf f.cp f.left

/-- What the driver has put in the half that is its own. -/
def Flip.pending (s : Flip) : List FlipChar := slice s.buf (half s.bufNum) s.count

/-- **Nothing is lost**: what has been put in has been received, is still to be read by the flush,
which is in the other half, or waits for one. -/
structure Intact (s : Flip) : Prop where
  count_le : s.count ≤ ttyFlipbufSize
  ptr : s.ptr = half s.bufNum + s.count
  one : ∀ {p q f f'}, s.flushing p = some f → s.flushing q = some f' → p = q
  inHalf : ∀ {p f}, s.flushing p = some f →
    half (!s.bufNum) ≤ f.cp ∧ f.cp + f.left ≤ half (!s.bufNum) + ttyFlipbufSize
  busy : ∀ {p f}, s.flushing p = some f → s.accepted = s.received ++ s.rest f ++ s.pending
  idle : (∀ p, s.flushing p = none) → s.accepted = s.received ++ s.pending

variable {insertFlipChar : Flip → FlipChar → Flip} {s : Flip}

/-- The two halves are apart. -/
theorem halves_apart (b : Bool) :
    half b + ttyFlipbufSize ≤ half (!b) ∨ half (!b) + ttyFlipbufSize ≤ half b := by
  cases b
  · exact .inl (Nat.le_refl _)
  · exact .inr (Nat.le_refl _)

theorem Intact.put (h : Intact s) (hroom : s.count < ttyFlipbufSize) (c : FlipChar) :
    Intact (s.put c) := by
  have hpending : (s.put c).pending = s.pending ++ [c] := by
    change slice (Function.update s.buf s.ptr c) (half s.bufNum) (s.count + 1) = s.pending ++ [c]
    rw [← slice_append, h.ptr, slice_succ, Function.update_self, slice_zero, Flip.pending]
    congr 1
    refine slice_congr fun i hi => Function.update_of_ne ?_ ..
    omega
  have hrest {p : Nat} {f : Flush} (hf : s.flushing p = some f) :
      (s.put c).rest f = s.rest f := by
    refine slice_congr fun i hi => Function.update_of_ne ?_ ..
    obtain ⟨hle, hlt⟩ := h.inHalf hf
    rw [h.ptr]
    rcases halves_apart s.bufNum with hapart | hapart <;> omega
  refine ⟨hroom, ?_, h.one, h.inHalf, fun hf => ?_, fun hidle => ?_⟩
  · change s.ptr + 1 = half s.bufNum + (s.count + 1)
    rw [h.ptr, Nat.add_assoc]
  · change s.accepted ++ [c] = s.received ++ (s.put c).rest _ ++ (s.put c).pending
    rw [hpending, hrest hf, h.busy hf, List.append_assoc]
  · change s.accepted ++ [c] = s.received ++ (s.put c).pending
    rw [hpending, h.idle hidle, List.append_assoc]

theorem Intact.insert (h : Intact s) (hinsert : Inserts insertFlipChar) (c : FlipChar) :
    Intact (insertFlipChar s c) := by
  rcases Nat.lt_or_ge s.count ttyFlipbufSize with hroom | hfull
  · rw [hinsert.room c hroom]
    exact h.put hroom c
  · rw [hinsert.full c hfull]
    exact h

theorem Intact.flush (h : Intact s) {p : Nat} {ready : Bool} (halone : Alone s (.flush p ready)) :
    Intact (flushToLdisc s p ready) := by
  rw [flushToLdisc]
  split_ifs with hbegins
  · replace halone := halone hbegins.2
    have hnew {q : Nat} {f : Flush} (hf : Function.update s.flushing p
        (some ⟨half s.bufNum, s.count⟩) q = some f) : q = p ∧ f = ⟨half s.bufNum, s.count⟩ := by
      rw [Function.update_apply] at hf
      split_ifs at hf with hq
      · exact ⟨hq, (Option.some.inj hf).symm⟩
      · rw [halone q] at hf
        cases hf
    refine ⟨Nat.zero_le _, rfl, fun hf hf' => (hnew hf).1.trans (hnew hf').1.symm, fun hf => ?_,
      fun hf => ?_, fun hidle => ?_⟩
    · obtain ⟨_, rfl⟩ := hnew hf
      dsimp only
      rw [Bool.not_not]
      exact ⟨Nat.le_refl _, Nat.add_le_add_left h.count_le _⟩
    · obtain ⟨_, rfl⟩ := hnew hf
      change s.accepted = s.received ++ s.pending ++ []
      rw [List.append_nil]
      exact h.idle halone
    · have hbusy := hidle p
      dsimp only at hbusy
      rw [Function.update_self] at hbusy
      cases hbusy
  · exact h

theorem Intact.receive (h : Intact s) (p : Nat) : Intact (receiveBuf s p) := by
  cases hf : s.flushing p with
  | none =>
    rw [receiveBuf, hf]
    exact h
  | some f =>
    obtain ⟨cp, left⟩ := f
    have honly {q : Nat} {f : Flush} (hq : s.flushing q = some f) : q = p := h.one hq hf
    cases left with
    | zero =>
      have heq : receiveBuf s p = { s with flushing := Function.update s.flushing p none } := by
        rw [receiveBuf, hf]
      have hnone (q : Nat) : Function.update s.flushing p none q = none := by
        rw [Function.update_apply]
        split_ifs with hq
        · rfl
        · cases hold : s.flushing q with
          | none => rfl
          | some f => exact absurd (honly hold) hq
      rw [heq]
      refine ⟨h.count_le, h.ptr, fun {q _ _ _} hq => ?_, fun {q _} hq => ?_, fun {q _} hq => ?_,
        fun _ => ?_⟩
      · exact absurd ((hnone q).symm.trans hq) (Option.some_ne_none _).symm
      · exact absurd ((hnone q).symm.trans hq) (Option.some_ne_none _).symm
      · exact absurd ((hnone q).symm.trans hq) (Option.some_ne_none _).symm
      · have hbusy := h.busy hf
        rw [Flip.rest, slice_zero, List.append_nil] at hbusy
        exact hbusy
    | succ left =>
      have heq : receiveBuf s p = { s with
          flushing := Function.update s.flushing p (some ⟨cp + 1, left⟩)
          received := s.received ++ [s.buf cp] } := by
        rw [receiveBuf, hf]
      have hnew {q : Nat} {f : Flush} (hq : Function.update s.flushing p
          (some ⟨cp + 1, left⟩) q = some f) : q = p ∧ f = ⟨cp + 1, left⟩ := by
        rw [Function.update_apply] at hq
        split_ifs at hq with heq
        · exact ⟨heq, (Option.some.inj hq).symm⟩
        · exact absurd (honly hq) heq
      obtain ⟨hle, hlt⟩ := h.inHalf hf
      rw [heq]
      refine ⟨h.count_le, h.ptr, fun hq hq' => (hnew hq).1.trans (hnew hq').1.symm, fun hq => ?_,
        fun hq => ?_, fun hidle => ?_⟩
      · obtain ⟨_, rfl⟩ := hnew hq
        dsimp only at hle hlt ⊢
        omega
      · obtain ⟨_, rfl⟩ := hnew hq
        have hbusy := h.busy hf
        rw [Flip.rest, slice_succ] at hbusy
        change s.accepted = s.received ++ [s.buf cp] ++ slice s.buf (cp + 1) left ++ s.pending
        rw [hbusy]
        simp only [List.append_assoc, List.cons_append, List.nil_append]
      · have hbusy := hidle p
        dsimp only at hbusy
        rw [Function.update_self] at hbusy
        cases hbusy

theorem Intact.step (h : Intact s) (hinsert : Inserts insertFlipChar) {act : Act}
    (halone : Alone s act) : Intact (step insertFlipChar s act) := by
  cases act with
  | insert c => exact h.insert hinsert c
  | flush p ready => exact h.flush halone
  | receive p => exact h.receive p

/-! ### Runs -/

/-- The buffer of a line that has just been opened. -/
def Fresh (s : Flip) : Prop :=
  s.bufNum = false ∧ s.ptr = 0 ∧ s.count = 0 ∧ (∀ p, s.flushing p = none) ∧ s.received = [] ∧
    s.accepted = []

theorem Fresh.intact (h : Fresh s) : Intact s := by
  obtain ⟨hnum, hptr, hcount, hidle, hreceived, haccepted⟩ := h
  refine ⟨?_, ?_, fun {p _ _ _} hf => ?_, fun {p _} hf => ?_, fun {p _} hf => ?_, fun _ => ?_⟩
  · rw [hcount]
    exact Nat.zero_le _
  · rw [hptr, hcount, hnum]
    rfl
  · exact absurd ((hidle p).symm.trans hf) (Option.some_ne_none _).symm
  · exact absurd ((hidle p).symm.trans hf) (Option.some_ne_none _).symm
  · exact absurd ((hidle p).symm.trans hf) (Option.some_ne_none _).symm
  · rw [haccepted, hreceived, Flip.pending, hcount]
    rfl

/-- The buffer of an open. -/
def opened : Flip where
  buf := fun _ => (0, 0)
  bufNum := false
  ptr := 0
  count := 0
  flushing := fun _ => none
  received := []
  accepted := []

/-- A `tty_insert_flip_char` that does this. -/
def ttyInsertFlipChar (s : Flip) (c : FlipChar) : Flip :=
  if s.count < ttyFlipbufSize then s.put c else s

theorem ttyInsertFlipChar_inserts : Inserts ttyInsertFlipChar :=
  ⟨fun _ hroom => if_pos hroom, fun _ hfull => if_neg (Nat.not_lt.mpr hfull)⟩

/-- A second flush begins before the first has read its character. -/
def overlapping : List Act :=
  [.insert (97, 0), .flush 0 true, .flush 1 true, .insert (98, 0), .receive 0]

/-- **Nothing is lost, doubled or out of order** where the flushes follow each other: what has been
received is a beginning of what has been put in, and all of it once the buffer is empty and no flush
is under way.  Where one begins before another has ended characters can be lost. -/
theorem flip_conserves :
    (∀ insertFlipChar s acts, Inserts insertFlipChar → Fresh s →
      Along (step insertFlipChar) Alone s acts →
      (run (step insertFlipChar) s acts).count ≤ ttyFlipbufSize ∧
      (run (step insertFlipChar) s acts).received <+:
        (run (step insertFlipChar) s acts).accepted ∧
      ((∀ p, (run (step insertFlipChar) s acts).flushing p = none) →
        (run (step insertFlipChar) s acts).count = 0 →
        (run (step insertFlipChar) s acts).received =
          (run (step insertFlipChar) s acts).accepted)) ∧
    ∃ insertFlipChar s acts, Inserts insertFlipChar ∧ Fresh s ∧
      ¬(run (step insertFlipChar) s acts).received <+:
        (run (step insertFlipChar) s acts).accepted := by
  constructor
  · intro insertFlipChar s acts hinsert hfresh halone
    have h : Intact (run (step insertFlipChar) s acts) :=
      halone.invariant (fun _ _ h => h.step hinsert) hfresh.intact
    refine ⟨h.count_le, ?_, fun hidle hcount => ?_⟩
    · by_cases hidle : ∀ p, (run (step insertFlipChar) s acts).flushing p = none
      · rw [h.idle hidle]
        exact List.prefix_append _ _
      · obtain ⟨p, hp⟩ := not_forall.mp hidle
        obtain ⟨f, hf⟩ := Option.ne_none_iff_exists'.mp hp
        rw [h.busy hf, List.append_assoc]
        exact List.prefix_append _ _
    · rw [h.idle hidle, Flip.pending, hcount, slice_zero, List.append_nil]
  · exact ⟨ttyInsertFlipChar, opened, overlapping, ttyInsertFlipChar_inserts,
      ⟨rfl, rfl, rfl, fun _ => rfl, rfl, rfl⟩, by decide⟩

/-- Two characters, a flush of both with a third put in between, and a flush of that one. -/
def inTurn : List Act :=
  [.insert (97, 0), .insert (98, 0), .flush 0 true, .receive 0, .insert (99, 0), .receive 0,
    .receive 0, .flush 1 true, .receive 1, .receive 1]

theorem flip_conserves_inTurn :
    (run (step ttyInsertFlipChar) opened inTurn).received = [(97, 0), (98, 0), (99, 0)] ∧
      (run (step ttyInsertFlipChar) opened inTurn).received =
        (run (step ttyInsertFlipChar) opened inTurn).accepted := by
  have hfirst (q : Nat) :
      (run (step ttyInsertFlipChar) opened (inTurn.take 7)).flushing q = none := by
    change Function.update (Function.update (Function.update (Function.update (fun _ => none) 0 _)
      0 _) 0 _) 0 none q = none
    rw [Function.update_idem, Function.update_idem, Function.update_idem, Function.update_apply,
      ite_self]
  have halone : Along (step ttyInsertFlipChar) Alone opened inTurn :=
    ⟨trivial, trivial, fun _ _ => rfl, trivial, trivial, trivial, trivial, fun _ => hfirst,
      trivial, trivial, trivial⟩
  have hidle (q : Nat) : (run (step ttyInsertFlipChar) opened inTurn).flushing q = none := by
    change Function.update (Function.update (Function.update
      (run (step ttyInsertFlipChar) opened (inTurn.take 7)).flushing 1 _) 1 _) 1 none q = none
    rw [Function.update_idem, Function.update_idem, Function.update_apply, hfirst, ite_self]
  exact ⟨by decide, (flip_conserves.1 ttyInsertFlipChar opened inTurn ttyInsertFlipChar_inserts
    ⟨rfl, rfl, rfl, fun _ => rfl, rfl, rfl⟩ halone).2.2 hidle (by decide)⟩

end LinuxConsole.FlipBuffer

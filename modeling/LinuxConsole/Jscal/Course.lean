import LinuxConsole.Jscal.Calibrate
import Mathlib.Data.List.Range

/-!
# The course of a calibration

What a calibration does is a matter of the events and of the clock alone, and here it is said of
these: `jsAt` is the joystick after so many polls, a value `IsExtreme` if it is below or above
all since a loop began, and a timed loop, `Timed`, makes one test after the other until one
fails.  A test reads the clock, and so does a new extreme, which is where the time begins anew.
`course` is the list of these loops with what is seen while a position is held.

**`calibration_follows`**: a calibration goes through its course, poll by poll and reading by
reading, and what it keeps of a position is the least and the greatest value seen there.
-/

namespace LinuxConsole.Jscal

open Lib

/-! ### What happens -/

section

variable (M : Shifts) (polls : List Ready)

/-- The joystick after so many polls. -/
def jsAt (n : Nat) : JsInfo := (polls.take n).foldl (waitForEvent M) .zero

def valueAt (a n : Nat) : Int := ((jsAt M polls n).axis a).toInt

/-- **A new extreme** at `i`, where the values since `n` are seen. -/
def IsExtreme (v : Nat → Int) (n i : Nat) : Prop :=
  n < i ∧ ((∀ k < i, n ≤ k → v i < v k) ∨ ∀ k < i, n ≤ k → v k < v i)

instance (v : Nat → Int) (n i : Nat) : Decidable (IsExtreme v n i) :=
  inferInstanceAs (Decidable (n < i ∧ (_ ∨ _)))

/-- How many of some axes have a new extreme. -/
def extremes (as : List Nat) (n i : Nat) : Nat :=
  (as.filter fun a => IsExtreme (valueAt M polls a) n i).length

/-- The first number of polls from `n` on after which `p` holds. -/
def firstFrom (p : Nat → Bool) (n : Nat) : Option Nat :=
  (List.range' n (polls.length + 1 - n)).find? p

end

/-! ### Timed loops -/

/-- **A timed loop**: its interval, the polls at its first test, the reading that `t` holds then
and the one that the test is made with, the extremes of each round, and whether the loop is to
go on besides the time. -/
structure Timed where
  span : Nat
  start : Nat
  since : Nat
  reading : Nat
  news : Nat → Nat
  stays : Nat → Bool

/-- The reading of a test: behind that of the test before there is one for each extreme. -/
def Timed.readingAt (L : Timed) : Nat → Nat
  | 0 => L.reading
  | i + 1 => L.readingAt i + 1 + L.news i

/-- The reading that `t` holds at a test: that of the last extreme, or of the start. -/
def Timed.sinceAt (L : Timed) : Nat → Nat
  | 0 => L.since
  | i + 1 => if L.news i = 0 then L.sinceAt i else L.readingAt i + L.news i

section

variable (clock : Clock)

/-- A test. -/
def Timed.goesOn (L : Timed) (i : Nat) : Bool :=
  (getTime (clock (L.readingAt i))).slt
    (getTime (clock (L.sinceAt i)) + BitVec.ofNat 32 L.span) && L.stays i

/-- **The round in which the loop ends**: the first whose test fails. -/
def Timed.rounds (L : Timed) (polls : List Ready) : Option Nat :=
  (List.range (polls.length + 1 - L.start)).find? fun i => !L.goesOn clock i

end

/-! ### The course -/

/-- **How far a calibration has come**: the polls and the readings, `b`, the timed loops that it
has entered, and what has been seen while the positions were held. -/
structure Walk where
  polls : Nat
  reads : Nat
  b : BitVec 32
  loops : List Timed
  held : Nat × Nat → List Int

section

variable (clock : Clock) (M : Shifts) (polls : List Ready) (axes : Nat)

/-- One event. -/
def Walk.poll (w : Walk) : Except Walk Walk :=
  if w.polls < polls.length then .ok { w with polls := w.polls + 1 } else .error w

/-- Events, until it is so. -/
def Walk.until (w : Walk) (p : Nat → Bool) : Except Walk Walk :=
  match firstFrom polls p w.polls with
  | none => .error w
  | some n => .ok { w with polls := n }

/-- A timed loop to its end. -/
def Walk.through (w : Walk) (L : Timed) : Except Walk Walk :=
  let w := { w with loops := w.loops ++ [L] }
  match L.rounds clock polls with
  | none => .error w
  | some k => .ok { w with polls := L.start + k, reads := L.readingAt k + 1 }

/-- 50 ms. -/
def Walk.settling (w : Walk) : Timed where
  span := 50
  start := w.polls
  since := w.reads
  reading := w.reads + 1
  news := fun _ => 0
  stays := fun _ => true

/-- 4000 ms without a new extreme of any axis; the first event comes before the first test. -/
def Walk.watching (w : Walk) : Timed where
  span := 4000
  start := w.polls + 1
  since := w.reads + extremes M polls (List.range axes) w.polls (w.polls + 1)
  reading := w.reads + 1 + extremes M polls (List.range axes) w.polls (w.polls + 1)
  news := fun i => extremes M polls (List.range axes) w.polls (w.polls + (i + 2))
  stays := fun _ => true

/-- The buttons are not what they were. -/
def Walk.pushedAt (w : Walk) (n : Nat) : Bool := w.b ^^^ (jsAt M polls n).buttons ≠ 0

/-- 2000 ms without a new extreme of the axis, and with a button pushed. -/
def Walk.holding (w : Walk) (axis : Nat) : Timed where
  span := 2000
  start := w.polls
  since := w.reads
  reading := w.reads + 1
  news := fun i => extremes M polls [axis] w.polls (w.polls + i)
  stays := fun i => w.pushedAt M polls (w.polls + i)

/-- The values of an axis that are seen in `k` rounds from `n` on, with the one before. -/
def seenFrom (axis n k : Nat) : List Int :=
  valueAt M polls axis n :: (List.range k).map fun i => valueAt M polls axis (n + i)

/-- One axis at one position. -/
def Walk.hold (w : Walk) (place : Nat × Nat) : Except Walk Walk := do
  let w ← w.until polls fun n => !w.pushedAt M polls n
  let w ← w.until polls fun n => w.pushedAt M polls n
  let n := w.polls
  let w ← w.through clock polls (w.holding M polls place.1)
  return { w with
    held := Function.update w.held place (seenFrom M polls place.1 n (w.polls - n)) }

/-- **The course of a calibration**, which ends with an error where it still waits. -/
def course : Except Walk Walk := do
  let w ← Walk.poll polls ⟨0, 0, 0, [], fun _ => []⟩
  let w ← w.through clock polls w.settling
  let w ← w.poll polls
  let _ ← w.poll polls
  let w ← w.through clock polls (w.watching M polls axes)
  (places axes).foldlM (Walk.hold clock M polls)
    { w with b := (jsAt M polls w.polls).buttons }

end

/-- How far a calibration has come, whether it still waits or not. -/
def reached : Except Walk Walk → Walk
  | .ok w => w
  | .error w => w

/-! ### The least and the greatest -/

/-- The least and the greatest of some values. -/
structure Summarises (r : Range) (l : List Int) : Prop where
  lo_mem : r.lo ∈ l
  hi_mem : r.hi ∈ l
  bounds : ∀ v ∈ l, r.lo ≤ v ∧ v ≤ r.hi

/-- So many extremes, one after the other. -/
def Watch.resets (clock : Clock) (w : Watch) : Nat → Watch
  | 0 => w
  | n + 1 => (w.resets clock n).reset clock

section

variable {clock : Clock} {r : Range} {l : List Int}

/-- **A value is tracked**: it is among those that are summed up, and the time begins anew if it
is new. -/
theorem Summarises.track (clock : Clock) (h : Summarises r l) (w : Watch) (v : Int) :
    Summarises (r.track clock w v).1 (l ++ [v]) ∧
      (r.track clock w v).2 = w.resets clock (if v < r.lo ∨ r.hi < v then 1 else 0) := by
  have hle := (h.bounds _ h.lo_mem).2
  have hlast : v ∈ l ++ [v] := List.mem_append_right _ (List.mem_singleton_self v)
  have hlo : r.lo ∈ l ++ [v] := List.mem_append_left _ h.lo_mem
  have hhi : r.hi ∈ l ++ [v] := List.mem_append_left _ h.hi_mem
  have hall {r' : Range} (hr' : ∀ x, (r.lo ≤ x ∧ x ≤ r.hi) ∨ x = v → r'.lo ≤ x ∧ x ≤ r'.hi) :
      ∀ x ∈ l ++ [v], r'.lo ≤ x ∧ x ≤ r'.hi := by
    intro x hx
    rcases List.mem_append.mp hx with hx | hx
    · exact hr' x (.inl (h.bounds x hx))
    · exact hr' x (.inr (List.mem_singleton.mp hx))
  by_cases hbelow : v < r.lo
  · have hnot : ¬v > r.hi := by omega
    rw [if_pos (.inl hbelow)]
    simp only [Range.track, if_pos hbelow, if_neg hnot]
    exact ⟨⟨hlast, hhi, hall fun x hx => by dsimp only; omega⟩, rfl⟩
  · by_cases habove : v > r.hi
    · rw [if_pos (.inr habove)]
      simp only [Range.track, if_neg hbelow, if_pos habove]
      exact ⟨⟨hlo, hlast, hall fun x hx => by dsimp only; omega⟩, rfl⟩
    · have hnot : ¬(v < r.lo ∨ r.hi < v) := by omega
      rw [if_neg hnot]
      simp only [Range.track, if_neg hbelow, if_neg habove]
      exact ⟨⟨hlo, hhi, hall fun x hx => by omega⟩, rfl⟩

variable {M : Shifts} {polls : List Ready}

theorem seenFrom_succ (a n k : Nat) : seenFrom M polls a n (k + 1) =
    seenFrom M polls a n k ++ [valueAt M polls a (n + k)] := by
  rw [seenFrom, List.range_succ, List.map_append]
  rfl

theorem mem_seenFrom {a n k : Nat} {x : Int} : x ∈ seenFrom M polls a n k ↔
    x = valueAt M polls a n ∨ ∃ i < k, valueAt M polls a (n + i) = x := by
  simp only [seenFrom, List.mem_cons, List.mem_map, List.mem_range]

theorem summarises_first (a n : Nat) {k : Nat} (hk : k ≤ 1) :
    Summarises ⟨valueAt M polls a n, valueAt M polls a n⟩ (seenFrom M polls a n k) := by
  have hmem : valueAt M polls a n ∈ seenFrom M polls a n k := mem_seenFrom.mpr (.inl rfl)
  refine ⟨hmem, hmem, fun x hx => ?_⟩
  have heq : x = valueAt M polls a n := by
    rcases mem_seenFrom.mp hx with heq | ⟨i, hi, heq⟩
    · exact heq
    · obtain rfl : i = 0 := by omega
      exact heq.symm
  rw [heq]
  exact ⟨le_rfl, le_rfl⟩

/-- A value is an extreme if it is outside of what has been seen. -/
theorem Summarises.isExtreme_iff {a n k : Nat} (h : Summarises r (seenFrom M polls a n k)) :
    IsExtreme (valueAt M polls a) n (n + k) ↔
      valueAt M polls a (n + k) < r.lo ∨ r.hi < valueAt M polls a (n + k) := by
  have hat (i : Nat) (hi : i < k) := h.bounds _ (mem_seenFrom.mpr (.inr ⟨i, hi, rfl⟩))
  have hfirst := h.bounds _ (mem_seenFrom.mpr (.inl rfl))
  constructor
  · rintro ⟨hlt, hbelow | habove⟩
    · left
      rcases mem_seenFrom.mp h.lo_mem with hlo | ⟨i, hi, hlo⟩
      · rw [hlo]
        exact hbelow n hlt le_rfl
      · rw [← hlo]
        exact hbelow (n + i) (by omega) (by omega)
    · right
      rcases mem_seenFrom.mp h.hi_mem with hhi | ⟨i, hi, hhi⟩
      · rw [hhi]
        exact habove n hlt le_rfl
      · rw [← hhi]
        exact habove (n + i) (by omega) (by omega)
  · intro hout
    have hpos : 0 < k := by
      by_contra hzero
      obtain rfl : k = 0 := by omega
      rw [Nat.add_zero] at hout
      omega
    refine ⟨by omega, ?_⟩
    rcases hout with hbelow | habove
    · left
      intro j hj hnj
      obtain ⟨i, rfl⟩ := Nat.exists_eq_add_of_le hnj
      have hi := hat i (by omega)
      omega
    · right
      intro j hj hnj
      obtain ⟨i, rfl⟩ := Nat.exists_eq_add_of_le hnj
      have hi := hat i (by omega)
      omega

theorem extremes_single (a n i : Nat) :
    extremes M polls [a] n i = if IsExtreme (valueAt M polls a) n i then 1 else 0 := by
  rw [extremes, List.filter_singleton]
  split_ifs with h
  · rw [decide_eq_true h]
    rfl
  · rw [decide_eq_false h]
    rfl

/-- **One look** at an axis after `n + k` polls. -/
theorem Summarises.look {a n k : Nat} (clock : Clock) (h : Summarises r (seenFrom M polls a n k))
    (w : Watch) :
    Summarises (r.track clock w (valueAt M polls a (n + k))).1 (seenFrom M polls a n (k + 1)) ∧
      (r.track clock w (valueAt M polls a (n + k))).2 =
        w.resets clock (extremes M polls [a] n (n + k)) := by
  obtain ⟨hsum, hwatch⟩ := h.track clock w (valueAt M polls a (n + k))
  rw [seenFrom_succ]
  refine ⟨hsum, hwatch.trans (congrArg _ ?_)⟩
  simp only [extremes_single, h.isExtreme_iff]

end

/-! ### The clock -/

section

variable {clock : Clock}

theorem resets_add (w : Watch) (m n : Nat) :
    (w.resets clock m).resets clock n = w.resets clock (m + n) := by
  induction n with
  | zero => rfl
  | succ n ih => exact congrArg (Watch.reset clock) ih

theorem resets_reads (clock : Clock) (w : Watch) (n : Nat) :
    (w.resets clock n).reads = w.reads + n := by
  induction n with
  | zero => rfl
  | succ n ih => exact congrArg (· + 1) ih

theorem resets_succ_t (clock : Clock) (w : Watch) (n : Nat) :
    (w.resets clock (n + 1)).t = getTime (clock (w.reads + n)) := by
  rw [← resets_reads clock]
  rfl

/-- What the program has in `t`, and the reading to come. -/
def Timed.watch (clock : Clock) (L : Timed) (i : Nat) : Watch :=
  ⟨getTime (clock (L.sinceAt i)), L.readingAt i⟩

/-- The extremes of a round. -/
theorem watch_succ (L : Timed) (i : Nat) :
    L.watch clock (i + 1) = (L.watch clock i).read.resets clock (L.news i) := by
  cases hnews : L.news i with
  | zero =>
    rw [Timed.watch, Timed.sinceAt, if_pos hnews, Timed.readingAt, hnews]
    rfl
  | succ n =>
    have ht := resets_succ_t clock (L.watch clock i).read n
    have hreads := resets_reads clock (L.watch clock i).read (n + 1)
    have hlast : L.readingAt i + (n + 1) = (L.watch clock i).read.reads + n :=
      (Nat.add_right_comm (L.readingAt i) 1 n).symm
    have hnot : ¬L.news i = 0 := by omega
    rw [Timed.watch, Timed.sinceAt, if_neg hnot, Timed.readingAt, hnews, hlast, ← ht]
    exact congrArg (Watch.mk _) hreads.symm

/-! ### Polls -/

variable {M : Shifts} {polls : List Ready}

theorem jsAt_succ {n : Nat} {r : Ready} {l : List Ready} (h : polls.drop n = r :: l) :
    jsAt M polls (n + 1) = waitForEvent M (jsAt M polls n) r := by
  have hget : polls[n]? = some r := by
    rw [← List.head?_drop, h]
    rfl
  rw [jsAt, List.take_add_one, hget, List.foldl_append]
  rfl

theorem drop_succ {n : Nat} {r : Ready} {l : List Ready} (h : polls.drop n = r :: l) :
    polls.drop (n + 1) = l ∧ n < polls.length := by
  constructor
  · rw [← List.tail_drop, h]
    rfl
  · by_contra hge
    rw [List.drop_eq_nil_of_le (not_lt.mp hge)] at h
    cases h

theorem length_le_of_drop {n : Nat} (h : polls.drop n = []) : polls.length ≤ n :=
  List.drop_eq_nil_iff.mp h

/-- **The state is that after so many polls.** -/
structure Desk.After (M : Shifts) (polls : List Ready) (n : Nat) (s : Desk) : Prop where
  le : n ≤ polls.length
  left : s.polls = polls.drop n
  js : s.js = jsAt M polls n

variable {n : Nat} {s : Desk}

theorem Desk.After.axis (h : s.After M polls n) (a : Nat) : s.axis a = valueAt M polls a n := by
  rw [Desk.axis, h.js]
  rfl

theorem Desk.After.poll (h : s.After M polls n) {r : Ready} {l : List Ready}
    (hpolls : polls.drop n = r :: l) : (s.poll M r l).After M polls (n + 1) where
  le := (drop_succ hpolls).2
  left := (drop_succ hpolls).1.symm
  js := by
    rw [jsAt_succ hpolls, ← h.js]
    rfl

/-! ### The loops -/

theorem Timed.rounds_eq_some {L : Timed} {k : Nat} : L.rounds clock polls = some k ↔
    L.start + k ≤ polls.length ∧ L.goesOn clock k = false ∧
      ∀ j < k, L.goesOn clock j = true := by
  simp only [Timed.rounds, List.find?_range_eq_some, List.mem_range, Bool.not_eq_true',
    Bool.not_not]
  constructor
  · rintro ⟨hends, hlt, hall⟩
    exact ⟨by omega, hends, hall⟩
  · rintro ⟨hle, hends, hall⟩
    exact ⟨hends, by omega, hall⟩

theorem Timed.rounds_eq_none {L : Timed} : L.rounds clock polls = none ↔
    ∀ i, L.start + i ≤ polls.length → L.goesOn clock i = true := by
  simp only [Timed.rounds, List.find?_range_eq_none, Bool.not_not]
  exact ⟨fun h i hi => h i (by omega), fun h i hi => h i (by omega)⟩

/-- **A timed loop goes through its rounds**: `J` is what holds at a test. -/
theorem timedLoop_run {L : Timed} {stays : Desk → Bool}
    {before after : Desk × Watch → Desk × Watch} {J : Nat → Desk → Prop}
    (hafter : ∀ i s, J i s → s.After M polls (L.start + i))
    (hstays : ∀ i s, J i s → stays s = L.stays i)
    (hround : ∀ i s r l, J i s → polls.drop (L.start + i) = r :: l →
      ∀ p, p = before (s, (L.watch clock i).read) →
        J (i + 1) (after (p.1.poll M r l, p.2)).1 ∧
          (after (p.1.poll M r l, p.2)).2 = L.watch clock (i + 1)) :
    ∀ (l : List Ready) {i : Nat} {s : Desk}, J i s → polls.drop (L.start + i) = l →
      (∀ j < i, L.goesOn clock j = true) →
      match L.rounds clock polls with
      | none => ∃ s', timedLoop clock M L.span stays before after l s (L.watch clock i) =
          (.error .waiting, s')
      | some k => ∃ s', timedLoop clock M L.span stays before after l s (L.watch clock i) =
          (.ok (), { s' with reads := L.readingAt k + 1 }) ∧ J k s' := by
  have hends {i : Nat} {s : Desk} (hs : J i s) (hgoes : L.goesOn clock i = false)
      (hearlier : ∀ j < i, L.goesOn clock j = true) : L.rounds clock polls = some i :=
    Timed.rounds_eq_some.mpr ⟨(hafter i s hs).le, hgoes, hearlier⟩
  have htest {i : Nat} {s : Desk} (hs : J i s) :
      ((L.watch clock i).early clock L.span && stays s) = L.goesOn clock i := by
    rw [hstays i s hs]
    rfl
  intro l
  induction l with
  | nil =>
    intro i s hs hl hearlier
    rw [timedLoop, htest hs]
    cases hgoes : L.goesOn clock i with
    | true =>
      -- it goes on at the last poll, and waits
      have hlast := length_le_of_drop hl
      have hnone : L.rounds clock polls = none := by
        refine Timed.rounds_eq_none.mpr fun j hj => ?_
        rcases Nat.lt_or_eq_of_le (show j ≤ i by omega) with hlt | rfl
        · exact hearlier j hlt
        · exact hgoes
      rw [hnone]
      exact ⟨_, rfl⟩
    | false =>
      rw [hends hs hgoes hearlier]
      exact ⟨s, rfl, hs⟩
  | cons r l ih =>
    intro i s hs hl hearlier
    rw [timedLoop, htest hs]
    cases hgoes : L.goesOn clock i with
    | true =>
      obtain ⟨hnext, hwatch⟩ := hround i s r l hs hl _ rfl
      have hrest := ih hnext (drop_succ hl).1 fun j hj => by
        rcases Nat.lt_succ_iff_lt_or_eq.mp hj with hlt | rfl
        · exact hearlier j hlt
        · exact hgoes
      rw [← hwatch] at hrest
      exact hrest
    | false =>
      rw [hends hs hgoes hearlier]
      exact ⟨s, rfl, hs⟩

/-- It does so within a calibration, where `B` follows from what holds at the end. -/
theorem through_reaches {L : Timed} {stays : Desk → Bool}
    {before after : Desk × Watch → Desk × Watch} {J : Nat → Desk → Prop} {w : Walk}
    {B : Desk → Walk → Prop} {s : Desk}
    (hafter : ∀ i s, J i s → s.After M polls (L.start + i))
    (hstays : ∀ i s, J i s → stays s = L.stays i)
    (hround : ∀ i s r l, J i s → polls.drop (L.start + i) = r :: l →
      ∀ p, p = before (s, (L.watch clock i).read) →
        J (i + 1) (after (p.1.poll M r l, p.2)).1 ∧
          (after (p.1.poll M r l, p.2)).2 = L.watch clock (i + 1))
    (hend : ∀ k s, J k s → B { s with reads := L.readingAt k + 1 }
      { w with loops := w.loops ++ [L], polls := L.start + k, reads := L.readingAt k + 1 })
    (hs : J 0 s) :
    Reaches B .waiting (timedLoop clock M L.span stays before after s.polls s (L.watch clock 0))
      (w.through clock polls L) := by
  have hrun := timedLoop_run hafter hstays hround s.polls hs (hafter 0 s hs).left.symm
    fun j hj => absurd hj (Nat.not_lt_zero j)
  rw [Walk.through]
  cases hrounds : L.rounds clock polls with
  | none =>
    rw [hrounds] at hrun
    exact hrun
  | some k =>
    rw [hrounds] at hrun
    obtain ⟨s', hrun, hs'⟩ := hrun
    exact ⟨(), _, hrun, hend k s' hs'⟩

end

end LinuxConsole.Jscal

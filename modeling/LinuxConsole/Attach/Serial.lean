import Mathlib.Data.List.Infix
import Mathlib.Data.List.TakeWhile
import Mathlib.Tactic.Common

/-!
# Talking to a serial device

`inputattach` asks a device who it is before it hands the line to the kernel.
Its functions read one byte at a time with a time limit, so what a device can do
to them is a list of answers: a byte, or none in time.  A function that has read
all answers of the list is still `waiting`.

**`t213_recognises`**: the acknowledgement of a TouchKit controller is found at
the first byte that completes it, however the answers are spread over the ten
rounds.

At the end `main` sleeps in a read until the line is given up.  The loop looks at
`errno`, which a successful read leaves as it was: **`finalWait_iff`** says that
it does what it should unless the read succeeds after it has been interrupted.
-/

namespace LinuxConsole.Attach

abbrev Byte := BitVec 8

/-- What `readchar` comes back with, one time after the other: a byte or nothing. -/
abbrev Answers := List (Option Byte)

/-- How far a function has come with some answers. -/
inductive Progress (α : Type)
  | waiting
  | returned (value : α) (rest : Answers)
  deriving DecidableEq

/-- The bytes among the answers. -/
def received (l : Answers) : List Byte := l.filterMap id

@[simp] theorem received_nil : received [] = [] := rfl

@[simp] theorem received_append (l m : Answers) : received (l ++ m) = received l ++ received m :=
  List.filterMap_append

@[simp] theorem received_byte (b : Byte) : received [some b] = [b] := rfl

@[simp] theorem received_timeout : received [none] = [] := rfl

/-- The rounds that the answers have ended. -/
def timeouts (l : Answers) : Nat := l.count none

@[simp] theorem timeouts_nil : timeouts [] = 0 := rfl

@[simp] theorem timeouts_append (l m : Answers) : timeouts (l ++ m) = timeouts l + timeouts m :=
  List.count_append ..

@[simp] theorem timeouts_byte (b : Byte) : timeouts [some b] = 0 := by simp [timeouts]

@[simp] theorem timeouts_timeout : timeouts [none] = 1 := by simp [timeouts]

/-! ### TouchKit -/

/-- `cmd`. -/
def t213Cmd : List Byte := [0x0a, 1, 0x41]

/-- The `switch` over `state`; nothing if it returns 0. -/
def t213Switch (state : Nat) (data : Byte) : Option Nat :=
  match state with
  | 0 => if data = 0x0a then some 1 else some 0
  | 1 => if data = 1 then some 2 else if data ≠ 0x0a then some 0 else some 1
  | 2 => if data = 0x41 then none else if data = 0x0a then some 1 else some 0
  | _ => some state

/-- The two loops of `t213_init`, from the inner one.  `write count` is what `write`
returns in the round of `count`. -/
def t213Read (write : Nat → List Byte → Int) : Nat → Nat → Answers → Progress Int
  | _, _, [] => .waiting
  | count, state, some data :: l =>
    match t213Switch state data with
    | none => .returned 0 l
    | some state => t213Read write count state l
  | count, state, none :: l =>
    let count := count - 1
    if count > 0 then
      if write count t213Cmd ≠ 3 then .returned (-1) l else t213Read write count state l
    else .returned (-1) l

/-- `t213_init`. -/
def t213Init (write : Nat → List Byte → Int) (l : Answers) : Progress Int :=
  if write 10 t213Cmd ≠ 3 then .returned (-1) l else t213Read write 10 0 l

/-- The bytes contain the command. -/
def Acknowledged (l : Answers) : Prop := t213Cmd <:+: received l

/-- **The acknowledgement is recognised**: `t213_init` returns 0 with the answer that
completes it, and -1 with the tenth timeout if there is none by then. -/
def Recognised (l : Answers) : Progress Int → Prop
  | .waiting => ¬Acknowledged l ∧ timeouts l < 10
  | .returned v rest =>
    ∃ m a, l = m ++ a :: rest ∧ ¬Acknowledged m ∧ timeouts m < 10 ∧
      ((v = 0 ∧ Acknowledged (m ++ [a])) ∨
        (v = -1 ∧ ¬Acknowledged (m ++ [a]) ∧ timeouts (m ++ [a]) = 10))

/-- What the state says of the bytes before: how much of the command they end with. -/
def Ends (state : Nat) (u : List Byte) : Prop :=
  (state = 0 ∧ ¬[0x0a] <:+ u ∧ ¬[0x0a, 1] <:+ u) ∨ (state = 1 ∧ [0x0a] <:+ u) ∨
    (state = 2 ∧ [0x0a, 1] <:+ u)

theorem suffix_pair_concat {a b d : Byte} {u : List Byte} :
    [a, b] <:+ u ++ [d] ↔ b = d ∧ [a] <:+ u := by
  rw [show [a, b] = [a] ++ [b] from rfl, List.suffix_concat_iff]
  constructor
  · intro h
    rcases h with h | ⟨t, ht, hu⟩
    · simp at h
    · obtain ⟨rfl, hbd⟩ := List.append_inj' ht rfl
      exact ⟨by simpa using hbd, hu⟩
  · rintro ⟨rfl, hu⟩
    exact Or.inr ⟨[a], rfl, hu⟩

theorem suffix_single_concat {a d : Byte} {u : List Byte} : [a] <:+ u ++ [d] ↔ a = d := by
  rw [List.suffix_concat_iff]
  constructor
  · intro h
    rcases h with h | ⟨t, ht, -⟩
    · simp at h
    · have hlast := congrArg List.getLast? ht
      simpa using hlast
  · rintro rfl
    exact Or.inr ⟨[], rfl, List.nil_suffix⟩

theorem suffix_cmd_concat {d : Byte} {u : List Byte} :
    t213Cmd <:+ u ++ [d] ↔ d = 0x41 ∧ [0x0a, 1] <:+ u := by
  rw [show t213Cmd = [0x0a, 1] ++ [0x41] from rfl, List.suffix_concat_iff]
  constructor
  · intro h
    rcases h with h | ⟨t, ht, hu⟩
    · simp at h
    · obtain ⟨rfl, hd⟩ := List.append_inj' ht rfl
      exact ⟨by simpa using hd.symm, hu⟩
  · rintro ⟨rfl, hu⟩
    exact Or.inr ⟨[0x0a, 1], rfl, hu⟩

/-- What a byte may make of the state. -/
def Advances (u : List Byte) (d : Byte) : Option Nat → Prop
  | none => t213Cmd <:+ u ++ [d]
  | some state => ¬t213Cmd <:+ u ++ [d] ∧ Ends state (u ++ [d])

/-- **One byte**: the `switch` returns if the byte completes the command, and else
keeps the state right. -/
theorem t213Switch_advances {state : Nat} {u : List Byte} (h : Ends state u) (d : Byte) :
    Advances u d (t213Switch state d) := by
  -- the bytes before do not end both with the first byte of the command and with its second
  have hnot : [(0x0a : Byte)] <:+ u → ¬[(0x0a : Byte), 1] <:+ u := by
    rintro hone ⟨t, rfl⟩
    rw [show t ++ [0x0a, 1] = (t ++ [0x0a]) ++ [1] by simp, suffix_single_concat] at hone
    exact absurd hone (by decide)
  have hfresh : d ≠ 0x0a → ¬(1 = d ∧ [(0x0a : Byte)] <:+ u) → Ends 0 (u ++ [d]) := by
    intro hd hpair
    refine Or.inl ⟨rfl, ?_, ?_⟩
    · rw [suffix_single_concat]
      exact hd.symm
    · rwa [suffix_pair_concat]
  have hnewline : d = 0x0a → Ends 1 (u ++ [d]) := by
    intro hd
    exact Or.inr (Or.inl ⟨rfl, suffix_single_concat.mpr hd.symm⟩)
  have hopen : ¬(d = 0x41 ∧ [(0x0a : Byte), 1] <:+ u) → ¬t213Cmd <:+ u ++ [d] := by
    rw [suffix_cmd_concat]
    exact id
  rcases h with ⟨rfl, hone, htwo⟩ | ⟨rfl, hone⟩ | ⟨rfl, htwo⟩
  · have hno := hopen fun h => htwo h.2
    rw [t213Switch]
    split_ifs with hd
    · exact ⟨hno, hnewline hd⟩
    · exact ⟨hno, hfresh hd fun h => hone h.2⟩
  · have hno := hopen fun h => hnot hone h.2
    rw [t213Switch]
    split_ifs with hd hnl
    · exact ⟨hno, Or.inr (Or.inr ⟨rfl, suffix_pair_concat.mpr ⟨hd.symm, hone⟩⟩)⟩
    · exact ⟨hno, hfresh hnl fun h => hd h.1.symm⟩
    · exact ⟨hno, hnewline (not_not.mp hnl)⟩
  · rw [t213Switch]
    split_ifs with hA hnl
    · exact suffix_cmd_concat.mpr ⟨hA, htwo⟩
    · exact ⟨hopen fun h => hA h.1, hnewline hnl⟩
    · exact ⟨hopen fun h => hA h.1, hfresh hnl fun h => hnot h.2 htwo⟩

theorem acknowledged_byte {m : Answers} {d : Byte} :
    Acknowledged (m ++ [some d]) ↔ t213Cmd <:+ received m ++ [d] ∨ Acknowledged m := by
  rw [Acknowledged, received_append, received_byte, List.infix_concat_iff, Acknowledged]

theorem acknowledged_timeout {m : Answers} : Acknowledged (m ++ [none]) ↔ Acknowledged m := by
  rw [Acknowledged, received_append, received_timeout, List.append_nil, Acknowledged]

/-- **A run**: from a round and a state that say what has been received, the loops
recognise the acknowledgement. -/
theorem t213Read_recognised {write : Nat → List Byte → Int} (hwrite : ∀ n, write n t213Cmd = 3)
    (l : Answers) : ∀ {m : Answers} {count state : Nat}, 0 < count → timeouts m + count = 10 →
      Ends state (received m) → ¬Acknowledged m →
      Recognised (m ++ l) (t213Read write count state l) := by
  induction l with
  | nil =>
    intro m count state hcount hm _ hack
    rw [List.append_nil, t213Read]
    exact ⟨hack, by omega⟩
  | cons a l ih =>
    intro m count state hcount hm hends hack
    have hsplit : m ++ a :: l = (m ++ [a]) ++ l := by simp
    cases a with
    | some d =>
      have hstep := t213Switch_advances hends d
      rw [t213Read]
      cases hstate : t213Switch state d with
      | none =>
        rw [hstate] at hstep
        exact ⟨m, some d, rfl, hack, by omega, Or.inl ⟨rfl, acknowledged_byte.mpr (Or.inl hstep)⟩⟩
      | some state' =>
        rw [hstate] at hstep
        obtain ⟨hno, hends'⟩ := hstep
        rw [hsplit]
        apply ih hcount
        · rwa [timeouts_append, timeouts_byte, Nat.add_zero]
        · rwa [received_append, received_byte]
        · rw [acknowledged_byte]
          exact fun h => h.elim hno hack
    | none =>
      have hack' : ¬Acknowledged (m ++ [none]) := by rwa [acknowledged_timeout]
      have hm' : timeouts (m ++ [none]) + (count - 1) = 10 := by
        rw [timeouts_append, timeouts_timeout]
        omega
      simp only [t213Read, hwrite, ne_eq, not_true_eq_false, if_false]
      split_ifs with hleft
      · rw [hsplit]
        apply ih hleft hm' _ hack'
        rwa [received_append, received_timeout, List.append_nil]
      · exact ⟨m, none, rfl, hack, by omega, Or.inr ⟨rfl, hack', by omega⟩⟩

/-- **`t213_init` returns 0 as soon as the command has been received**, and -1 after
its ten rounds if it has not. -/
theorem t213_recognises {write : Nat → List Byte → Int}
    (hwrite : ∀ n c, write n c = (c.length : Int)) (l : Answers) :
    Recognised l (t213Init write l) := by
  have hthree : ∀ n, write n t213Cmd = 3 := fun n => hwrite n t213Cmd
  rw [t213Init, if_neg fun h => h (hthree 10)]
  refine t213Read_recognised hthree l (m := []) (by omega) rfl ?_ ?_
  · exact Or.inl ⟨rfl, by simp, by simp⟩
  · simp [Acknowledged, t213Cmd]

/-- A second newline begins the command anew, and the timeout between two bytes of it
does not matter. -/
theorem t213_recognises_overlap :
    Recognised [some 0x0a, some 0x0a, none, some 1, some 0x41, some 7] (.returned 0 [some 7]) :=
  @t213_recognises (fun _ c => c.length) (fun _ _ => rfl)
    [some 0x0a, some 0x0a, none, some 1, some 0x41, some 7]

/-! ### The final wait -/

/-- An error number, which is never 0. -/
structure Errno where
  code : Int
  pos : 0 < code

/-- `EAGAIN`, `EWOULDBLOCK` and `EINTR`. -/
def eagain : Int := 11
def ewouldblock : Int := 11
def eintr : Int := 4

/-- `RETRY_ERROR`. -/
def retryError (x : Int) : Bool := x = eagain || x = ewouldblock || x = eintr

/-- What the reads come to: a success, or an error. -/
abbrev Reads := List (Option Errno)

/-- The loop at the end of `main`; the `errno` with which it ends, and the reads that
it has not made. -/
def finalLoop (errno : Int) : Reads → Option (Int × Reads)
  | [] => none
  | i :: l =>
    let errno := i.elim errno Errno.code
    if retryError errno then finalLoop errno l else some (errno, l)

/-- How `main` ends: whether it resets the line discipline, and the reads it has not
made; nothing while it waits. -/
def finalWait (l : Reads) : Option (Bool × Reads) :=
  (finalLoop 0 l).map fun (errno, rest) => (decide (errno = 0), rest)

/-- The read should be made again. -/
def again (i : Option Errno) : Bool := i.elim false fun e => retryError e.code

/-- **The first read that need not be made again ends the wait**, and the line
discipline is reset if it was a success. -/
def WaitsRight (l : Reads) : Prop :=
  finalWait l = (l.dropWhile again).head?.map fun i => (i.isNone, (l.dropWhile again).tail)

/-- The wait is interrupted, and the read then succeeds. -/
def SucceedsLate (l : Reads) : Prop :=
  l.takeWhile again ≠ [] ∧ (l.dropWhile again).head? = some none

theorem retryError_zero : retryError 0 = false := by decide

theorem Errno.code_ne_zero (e : Errno) : e.code ≠ 0 := Int.ne_of_gt e.pos

theorem finalLoop_cons (errno : Int) (i : Option Errno) (l : Reads) :
    finalLoop errno (i :: l) =
      if retryError (i.elim errno Errno.code) then finalLoop (i.elim errno Errno.code) l
      else some (i.elim errno Errno.code, l) := rfl

theorem finalLoop_success {errno : Int} (h : retryError errno = true) (l : Reads) :
    finalLoop errno (none :: l) = finalLoop errno l := by
  rw [finalLoop_cons]
  exact if_pos h

theorem finalLoop_again {e : Errno} (h : retryError e.code = true) (errno : Int) (l : Reads) :
    finalLoop errno (some e :: l) = finalLoop e.code l := by
  rw [finalLoop_cons]
  exact if_pos h

theorem finalLoop_error {e : Errno} (h : retryError e.code = false) (errno : Int) (l : Reads) :
    finalLoop errno (some e :: l) = some (e.code, l) := by
  rw [finalLoop_cons]
  exact if_neg (by simp [h])

/-- An `errno` that says to try again is not 0, and neither is any that follows it. -/
theorem finalLoop_ne_zero {errno : Int} (h : retryError errno = true) {l rest : Reads}
    {errno' : Int} (hend : finalLoop errno l = some (errno', rest)) : errno' ≠ 0 := by
  induction l generalizing errno with
  | nil => exact absurd (show none = some (errno', rest) from hend) (by simp)
  | cons i l ih =>
    cases i with
    | none =>
      rw [finalLoop_success h] at hend
      exact ih h hend
    | some e =>
      by_cases he : retryError e.code = true
      · rw [finalLoop_again he] at hend
        exact ih he hend
      · rw [finalLoop_error (Bool.eq_false_iff.mpr he)] at hend
        obtain ⟨rfl, -⟩ := Prod.mk.inj (Option.some.inj hend)
        exact e.code_ne_zero

/-- After an interrupted read the loop looks for the next error that is another one. -/
theorem finalLoop_interrupted {errno : Int} (h : retryError errno = true) {l : Reads}
    (hnone : (l.dropWhile again).head? ≠ some none) :
    (finalLoop errno l).map (fun (errno, rest) => (decide (errno = 0), rest)) =
      (l.dropWhile again).head?.map fun i => (i.isNone, (l.dropWhile again).tail) := by
  induction l generalizing errno with
  | nil => rfl
  | cons i l ih =>
    cases i with
    | none => exact absurd rfl hnone
    | some e =>
      by_cases he : retryError e.code = true
      · rw [List.dropWhile_cons_of_pos (show again (some e) = true from he)] at hnone ⊢
        rw [finalLoop_again he]
        exact ih he hnone
      · have hfirst : ¬again (some e) = true := he
        rw [List.dropWhile_cons_of_neg hfirst, finalLoop_error (Bool.eq_false_iff.mpr he)]
        simp [e.code_ne_zero]

/-- **The wait ends as it should unless the read succeeds after it was interrupted.** -/
theorem finalWait_iff (l : Reads) : WaitsRight l ↔ ¬SucceedsLate l := by
  cases l with
  | nil => simp [WaitsRight, finalWait, finalLoop, SucceedsLate]
  | cons i l =>
    cases i with
    | none =>
      have hfirst : again none = false := rfl
      simp [WaitsRight, finalWait, finalLoop, SucceedsLate, retryError_zero, hfirst]
    | some e =>
      cases he : retryError e.code with
      | false =>
        have hfirst : again (some e) = false := he
        simp [WaitsRight, finalWait, finalLoop_error he, SucceedsLate, hfirst, e.code_ne_zero]
      | true =>
        have hfirst : again (some e) = true := he
        rw [WaitsRight, SucceedsLate, finalWait, finalLoop_again he,
          List.dropWhile_cons_of_pos hfirst, List.takeWhile_cons_of_pos hfirst]
        by_cases hlate : (l.dropWhile again).head? = some none
        · refine iff_of_false (fun hright => ?_) fun hnot => hnot ⟨List.cons_ne_nil _ _, hlate⟩
          rw [hlate] at hright
          -- the wait would have to reset the line, which it does only with an `errno` of 0
          cases hend : finalLoop e.code l with
          | none =>
            rw [hend] at hright
            exact absurd hright (by simp)
          | some p =>
            rw [hend] at hright
            have hzero : decide (p.1 = 0) = true := congrArg Prod.fst (Option.some.inj hright)
            exact finalLoop_ne_zero he hend (of_decide_eq_true hzero)
        · exact iff_of_true (finalLoop_interrupted he hlate) fun h => hlate h.2

/-- A read that is interrupted once and then succeeds is made again. -/
theorem finalWait_sticks : ¬WaitsRight [some ⟨4, by decide⟩, none] := by
  intro h
  have hwaits : finalWait [some ⟨4, by decide⟩, none] = none := by decide
  rw [WaitsRight, hwaits] at h
  exact absurd h (by decide)

end LinuxConsole.Attach

import Mathlib.Algebra.Group.Int.Defs
import Mathlib.Data.List.Infix
import Mathlib.Tactic.Common

/-!
# Split writes

`do_tty_write` hands what a process writes to the line discipline in chunks, through the buffer
`write_buf` of the line.  The discipline takes a beginning of each chunk, and what it leaves is in
the next one.

What it has taken in all is a beginning of what was written, and its length is what the call
returns; no chunk is longer than the buffer (`do_tty_write_takes_prefix`).
-/

namespace LinuxConsole.TtyWrite

/-! ### The loop -/

/-- What a turn of the loop meets: the copy from the process, what `write` returns, and whether a
signal is pending then. -/
structure Turn where
  copied : Bool
  ret : Int
  signal : Bool

/-- A call of `write`: the bytes it is given and what it returns. -/
abbrev Call := List UInt8 × Int

/-- What a write returns, how many bytes have been taken and the calls of `write`. -/
structure Written where
  ret : Int
  written : Nat
  calls : List Call

def EFAULT : Int := -14
def ENOMEM : Int := -12
def ERESTARTSYS : Int := -512

/-- **The loop** of `do_tty_write`, from a turn on; `buf` is what is still to be written. -/
def writeLoop (turns : Nat → Turn) (chunk : Nat) (i : Nat) (buf : List UInt8) (written : Nat) :
    Written :=
  if !(turns i).copied then ⟨EFAULT, written, []⟩
  else if (turns i).ret ≤ 0 then ⟨(turns i).ret, written, [(buf.take chunk, (turns i).ret)]⟩
  else if _hrest : buf.drop (turns i).ret.toNat = [] then
    ⟨(turns i).ret, written + (turns i).ret.toNat, [(buf.take chunk, (turns i).ret)]⟩
  else if (turns i).signal then
    ⟨ERESTARTSYS, written + (turns i).ret.toNat, [(buf.take chunk, (turns i).ret)]⟩
  else
    let rest := writeLoop turns chunk (i + 1) (buf.drop (turns i).ret.toNat)
      (written + (turns i).ret.toNat)
    { rest with calls := (buf.take chunk, (turns i).ret) :: rest.calls }
termination_by buf.length
decreasing_by
  rw [List.drop_eq_nil_iff] at _hrest
  rw [List.length_drop]
  omega

/-! ### The call -/

/-- What a call meets: the semaphore, `TTY_NO_WRITE_SPLIT`, the buffer and the turns. -/
structure Outcome where
  down : Bool
  noWriteSplit : Bool
  kmalloc : Bool
  turns : Nat → Turn

/-- The longest chunk. -/
def splitSize (noWriteSplit : Bool) : Nat := if noWriteSplit then 65536 else 2048

/-- The chunk and the size of the buffer once it is large enough, `none` where there is no
memory. -/
def grown (o : Outcome) (writeCnt chunk : Nat) : Option (Nat × Nat) :=
  if writeCnt < chunk then
    if o.kmalloc then some (max chunk 1024, max chunk 1024) else none
  else some (chunk, writeCnt)

/-- `do_tty_write`; with it the size of `write_buf` that it leaves. -/
def doTtyWrite (o : Outcome) (writeCnt : Nat) (buf : List UInt8) : Written × Nat :=
  if !o.down then (⟨ERESTARTSYS, 0, []⟩, writeCnt)
  else
    match grown o writeCnt (min buf.length (splitSize o.noWriteSplit)) with
    | none => (⟨ENOMEM, 0, []⟩, writeCnt)
    | some (chunk, writeCnt) =>
      let result := writeLoop o.turns chunk 0 buf 0
      ({ result with ret := if result.written ≠ 0 then result.written else result.ret }, writeCnt)

/-! ### What is taken -/

/-- The bytes that the discipline has taken. -/
def taken (calls : List Call) : List UInt8 := calls.flatMap fun call => call.1.take call.2.toNat

/-- `write` returns at most as many bytes as it was given. -/
def Takes (calls : List Call) : Prop := ∀ call ∈ calls, call.2 ≤ call.1.length

theorem taken_cons (call : Call) (calls : List Call) :
    taken (call :: calls) = taken [call] ++ taken calls := by
  rw [taken, taken, taken, List.flatMap_cons, List.flatMap_singleton]

theorem taken_call {buf : List UInt8} {chunk : Nat} {ret : Int}
    (hret : ret ≤ (buf.take chunk).length) :
    taken [(buf.take chunk, ret)] = buf.take ret.toNat ∧
      (buf.take ret.toNat).length = ret.toNat := by
  rw [List.length_take] at hret
  rw [taken, List.flatMap_singleton, List.take_take, List.length_take]
  exact ⟨congrArg (buf.take ·) (by omega), by omega⟩

theorem oneChunk (buf : List UInt8) (chunk : Nat) (ret : Int) :
    ∀ call ∈ [((buf.take chunk, ret) : Call)], call.1.length ≤ chunk := by
  intro call hcall
  rw [List.mem_singleton.mp hcall]
  exact List.length_take_le _ _

/-- **The loop takes a beginning**, counts it, and gives the discipline no more than a chunk. -/
theorem writeLoop_spec (turns : Nat → Turn) (chunk i : Nat) (buf : List UInt8) (written : Nat)
    (htakes : Takes (writeLoop turns chunk i buf written).calls) :
    taken (writeLoop turns chunk i buf written).calls <+: buf ∧
      (writeLoop turns chunk i buf written).written =
        written + (taken (writeLoop turns chunk i buf written).calls).length ∧
      (∀ call ∈ (writeLoop turns chunk i buf written).calls, call.1.length ≤ chunk) ∧
      ((writeLoop turns chunk i buf written).written = 0 →
        (writeLoop turns chunk i buf written).ret ≤ 0) := by
  induction i, buf, written using writeLoop.induct turns chunk with
  | case1 i buf written hcopied =>
    rw [writeLoop, if_pos hcopied]
    exact ⟨List.nil_prefix, rfl, fun call hcall => absurd hcall List.not_mem_nil,
      fun _ => (by decide : EFAULT ≤ 0)⟩
  | case2 i buf written hcopied hret =>
    have hnone : taken [(buf.take chunk, (turns i).ret)] = [] := by
      rw [taken, List.flatMap_singleton, Int.toNat_of_nonpos hret, List.take_zero]
    rw [writeLoop, if_neg hcopied, if_pos hret, hnone]
    exact ⟨List.nil_prefix, rfl, oneChunk buf chunk _, fun _ => hret⟩
  | case3 i buf written hcopied hret hrest =>
    rw [writeLoop, if_neg hcopied, if_neg hret, dif_pos hrest] at htakes ⊢
    obtain ⟨htaken, hlength⟩ := taken_call (htakes _ List.mem_cons_self)
    rw [htaken, hlength]
    refine ⟨List.take_prefix _ _, rfl, oneChunk buf chunk _, fun hzero => ?_⟩
    dsimp only at hzero
    omega
  | case4 i buf written hcopied hret hrest hsignal =>
    rw [writeLoop, if_neg hcopied, if_neg hret, dif_neg hrest, if_pos hsignal] at htakes ⊢
    obtain ⟨htaken, hlength⟩ := taken_call (htakes _ List.mem_cons_self)
    rw [htaken, hlength]
    refine ⟨List.take_prefix _ _, rfl, oneChunk buf chunk _, fun hzero => ?_⟩
    dsimp only at hzero
    omega
  | case5 i buf written hcopied hret hrest hsignal ih =>
    rw [writeLoop, if_neg hcopied, if_neg hret, dif_neg hrest, if_neg hsignal] at htakes ⊢
    dsimp only at htakes ⊢
    obtain ⟨htaken, hlength⟩ := taken_call (htakes _ List.mem_cons_self)
    obtain ⟨hpre, hwritten, hchunks, hnone⟩ :=
      ih fun call hcall => htakes call (List.mem_cons_of_mem _ hcall)
    rw [taken_cons, htaken, List.length_append, hlength]
    refine ⟨?_, hwritten.trans (Nat.add_assoc ..), fun call hcall => ?_, hnone⟩
    · -- the next turn takes a beginning of what is left
      obtain ⟨left, hleft⟩ := hpre
      refine ⟨left, ?_⟩
      rw [List.append_assoc, hleft, List.take_append_drop]
    · rcases List.mem_cons.mp hcall with rfl | hcall
      · exact List.length_take_le _ _
      · exact hchunks call hcall

/-- The turns in which nothing stops the loop. -/
def Smooth (turns : Nat → Turn) : Prop :=
  ∀ i, (turns i).copied = true ∧ 0 < (turns i).ret ∧ (turns i).signal = false

/-- **Where nothing stops the loop it writes all.** -/
theorem writeLoop_all {turns : Nat → Turn} (hsmooth : Smooth turns) (chunk i : Nat)
    (buf : List UInt8) (written : Nat)
    (htakes : Takes (writeLoop turns chunk i buf written).calls) :
    taken (writeLoop turns chunk i buf written).calls = buf := by
  induction i, buf, written using writeLoop.induct turns chunk with
  | case1 i buf written hcopied =>
    rw [(hsmooth i).1] at hcopied
    exact absurd hcopied Bool.false_ne_true
  | case2 i buf written hcopied hret =>
    have hpos := (hsmooth i).2.1
    omega
  | case3 i buf written hcopied hret hrest =>
    rw [writeLoop, if_neg hcopied, if_neg hret, dif_pos hrest] at htakes ⊢
    rw [(taken_call (htakes _ List.mem_cons_self)).1]
    exact List.take_of_length_le (List.drop_eq_nil_iff.mp hrest)
  | case4 i buf written hcopied hret hrest hsignal =>
    rw [(hsmooth i).2.2] at hsignal
    exact absurd hsignal Bool.false_ne_true
  | case5 i buf written hcopied hret hrest hsignal ih =>
    rw [writeLoop, if_neg hcopied, if_neg hret, dif_neg hrest, if_neg hsignal] at htakes ⊢
    dsimp only at htakes ⊢
    rw [taken_cons, (taken_call (htakes _ List.mem_cons_self)).1,
      ih fun call hcall => htakes call (List.mem_cons_of_mem _ hcall), List.take_append_drop]

/-! ### Calls -/

theorem le_grown {o : Outcome} {writeCnt count chunk size : Nat}
    (h : grown o writeCnt (min count (splitSize o.noWriteSplit)) = some (chunk, size)) :
    chunk ≤ size ∧ chunk ≤ splitSize o.noWriteSplit := by
  have hsplit : 1024 ≤ splitSize o.noWriteSplit := by
    rw [splitSize]
    split_ifs <;> omega
  rw [grown] at h
  split_ifs at h
  · cases h
    omega
  · cases h
    omega

/-- **A write takes a beginning and says how long it is**: whatever stops it, the discipline has
taken a beginning of the bytes, in pieces that are no longer than the longest chunk and fit into the
buffer, and the call returns its length, or why it is empty.  Where nothing stops it all is
written. -/
theorem do_tty_write_takes_prefix :
    (∀ o writeCnt buf, Takes (doTtyWrite o writeCnt buf).1.calls →
      taken (doTtyWrite o writeCnt buf).1.calls <+: buf ∧
      (∀ call ∈ (doTtyWrite o writeCnt buf).1.calls,
        call.1.length ≤ splitSize o.noWriteSplit ∧
        call.1.length ≤ (doTtyWrite o writeCnt buf).2) ∧
      (taken (doTtyWrite o writeCnt buf).1.calls ≠ [] → (doTtyWrite o writeCnt buf).1.ret =
        (taken (doTtyWrite o writeCnt buf).1.calls).length) ∧
      (taken (doTtyWrite o writeCnt buf).1.calls = [] → (doTtyWrite o writeCnt buf).1.ret ≤ 0)) ∧
    ∀ o writeCnt buf, Takes (doTtyWrite o writeCnt buf).1.calls → Smooth o.turns →
      o.down = true → o.kmalloc = true → taken (doTtyWrite o writeCnt buf).1.calls = buf := by
  constructor
  · intro o writeCnt buf htakes
    rw [doTtyWrite] at htakes ⊢
    split_ifs at htakes ⊢ with hdown
    · exact ⟨List.nil_prefix, fun call hcall => absurd hcall List.not_mem_nil,
        fun hne => absurd rfl hne, fun _ => (by decide : ERESTARTSYS ≤ 0)⟩
    · dsimp only at htakes ⊢
      cases hgrown : grown o writeCnt (min buf.length (splitSize o.noWriteSplit)) with
      | none =>
        exact ⟨List.nil_prefix, fun call hcall => absurd hcall List.not_mem_nil,
          fun hne => absurd rfl hne, fun _ => (by decide : ENOMEM ≤ 0)⟩
      | some sizes =>
        obtain ⟨chunk, size⟩ := sizes
        rw [hgrown] at htakes
        dsimp only at htakes ⊢
        obtain ⟨hpre, hwritten, hchunks, hnone⟩ := writeLoop_spec _ _ _ _ _ htakes
        rw [Nat.zero_add] at hwritten
        obtain ⟨hfits, hsplit⟩ := le_grown hgrown
        refine ⟨hpre, fun call hcall => ⟨(hchunks call hcall).trans hsplit,
          (hchunks call hcall).trans hfits⟩, fun hne => ?_, fun hnil => ?_⟩
        · rw [if_pos, hwritten]
          rw [hwritten]
          exact fun hzero => hne (List.eq_nil_of_length_eq_zero hzero)
        · have hzero := hwritten
          rw [hnil, List.length_nil] at hzero
          rw [if_neg (not_not.mpr hzero)]
          exact hnone hzero
  · intro o writeCnt buf htakes hsmooth hdown hkmalloc
    obtain ⟨⟨chunk, size⟩, hgrown⟩ : ∃ sizes,
        grown o writeCnt (min buf.length (splitSize o.noWriteSplit)) = some sizes := by
      by_cases hsmall : writeCnt < min buf.length (splitSize o.noWriteSplit)
      · exact ⟨_, (if_pos hsmall).trans (if_pos hkmalloc)⟩
      · exact ⟨_, if_neg hsmall⟩
    rw [doTtyWrite, hdown] at htakes ⊢
    dsimp only at htakes ⊢
    rw [hgrown] at htakes ⊢
    exact writeLoop_all hsmooth _ _ _ _ htakes

/-- Nothing fails, and the discipline takes one byte at a time. -/
def byteByByte : Outcome := ⟨true, false, true, fun _ => ⟨true, 1, false⟩⟩

theorem do_tty_write_takes_prefix_all :
    taken (doTtyWrite byteByByte 0 [0x61, 0x62, 0x63]).1.calls = [0x61, 0x62, 0x63] :=
  do_tty_write_takes_prefix.2 byteByByte 0 [0x61, 0x62, 0x63]
    (by simp [doTtyWrite, byteByByte, grown, writeLoop, splitSize, Takes])
    (fun _ => ⟨rfl, Int.one_pos, rfl⟩) rfl rfl

end LinuxConsole.TtyWrite

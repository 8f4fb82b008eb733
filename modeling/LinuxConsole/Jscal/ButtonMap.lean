import Mathlib.Data.List.Induction
import Mathlib.Data.List.TakeWhile
import Mathlib.Tactic.Common

/-!
# Which ioctl for the button map

The size of the button map is part of the numbers of the two ioctls for it, and
has changed with the kernel.  `determine_ioctl` tries a list of numbers, and should go
on when the kernel does not know the one it has tried.  It compares `errno` with the
number of that error below zero, and `errno` is never below zero.

`Determines` is what the function should do with a list.  **`determineIoctl_iff`**: it
does so unless the kernel rejects the first of several numbers.  Whatever happens, a
number that has been recorded is one with which the kernel has complied, and
`getbtnmap` and `setbtnmap` use no other from then on (`run_known`).
-/

namespace LinuxConsole.Jscal

/-- The number of an ioctl, an `int`. -/
abbrev Ioctl := BitVec 32

/-- What an ioctl comes to: a value, or an error with its `errno`. -/
inductive Reply
  | done (value : Nat)
  | failed (errno : Nat)
  deriving DecidableEq

/-- What `ioctl` returns. -/
def Reply.ret : Reply → Int
  | .done n => n
  | .failed _ => -1

def einval : Nat := 22

/-- What `determine_ioctl` returns and leaves in `ioctl_used`, and the numbers it has
tried. -/
structure Determined where
  retval : Int
  ioctlUsed : Ioctl
  tried : List Ioctl
  deriving DecidableEq

/-- The loop of `determine_ioctl`; `reply i k` is what the kernel says to `k` when it
has been asked `i` times before. -/
def determine (reply : Nat → Ioctl → Reply) (i : Nat) (s : Determined) : List Ioctl → Determined
  | [] => s
  | k :: ioctls =>
    if k = 0 then s
    else
      let s := { s with retval := (reply i k).ret, tried := s.tried ++ [k] }
      match reply i k with
      | .done _ => { s with ioctlUsed := k }
      | .failed errno =>
        if (errno : Int) ≠ -(einval : Int) then s else determine reply (i + 1) s ioctls

def determineIoctl (reply : Nat → Ioctl → Reply) (ioctls : List Ioctl) (ioctlUsed : Ioctl) :
    Determined :=
  determine reply 0 ⟨0, ioctlUsed, []⟩ ioctls

/-! ### What it should do -/

/-- The numbers before the 0. -/
def numbers (ioctls : List Ioctl) : List Ioctl := ioctls.takeWhile (· ≠ 0)

/-- The kernel knows none of the numbers. -/
def Rejects (reply : Nat → Ioctl → Reply) (ks : List Ioctl) : Prop :=
  ∀ i k, ks[i]? = some k → reply i k = .failed einval

/-- **The numbers are tried in order** up to the first that the kernel does not reject; its
result is returned, and it is recorded if it is a success. -/
def Determines (reply : Nat → Ioctl → Reply) (ioctls : List Ioctl) (ioctlUsed : Ioctl)
    (s : Determined) : Prop :=
  (∃ pre k post, numbers ioctls = pre ++ k :: post ∧ Rejects reply pre ∧
    reply pre.length k ≠ .failed einval ∧ s.tried = pre ++ [k] ∧
    s.retval = (reply pre.length k).ret ∧
    s.ioctlUsed = if 0 ≤ (reply pre.length k).ret then k else ioctlUsed) ∨
  (Rejects reply (numbers ioctls) ∧ s.tried = numbers ioctls ∧ s.ioctlUsed = ioctlUsed ∧
    s.retval = if numbers ioctls = [] then 0 else -1)

/-- The first number is rejected, and there is another. -/
def FirstRejected (reply : Nat → Ioctl → Reply) (ioctls : List Ioctl) : Prop :=
  ∃ k ks, numbers ioctls = k :: ks ∧ ks ≠ [] ∧ reply 0 k = .failed einval

/-- **One number is tried**, whatever comes of it. -/
theorem determine_cons (reply : Nat → Ioctl → Reply) (i : Nat) (s : Determined) {k : Ioctl}
    (hk : k ≠ 0) (ioctls : List Ioctl) :
    determine reply i s (k :: ioctls) =
      { retval := (reply i k).ret
        ioctlUsed := if 0 ≤ (reply i k).ret then k else s.ioctlUsed
        tried := s.tried ++ [k] } := by
  rw [determine, if_neg hk]
  cases hreply : reply i k with
  | done n => simp [Reply.ret]
  | failed errno =>
    have hne : (errno : Int) ≠ -(einval : Int) := by
      rw [einval]
      omega
    simp [Reply.ret, hne]

theorem determineIoctl_of_nil {ioctls : List Ioctl} (h : numbers ioctls = [])
    (reply : Nat → Ioctl → Reply) (used : Ioctl) :
    determineIoctl reply ioctls used = ⟨0, used, []⟩ := by
  cases ioctls with
  | nil => rfl
  | cons k ioctls =>
    have hk : k = 0 := by
      by_contra hk
      rw [numbers, List.takeWhile_cons_of_pos (by simpa using hk)] at h
      exact absurd h (List.cons_ne_nil _ _)
    rw [determineIoctl, determine, if_pos hk]

theorem determineIoctl_of_cons {ioctls : List Ioctl} {k : Ioctl} {ks : List Ioctl}
    (h : numbers ioctls = k :: ks) (reply : Nat → Ioctl → Reply) (used : Ioctl) :
    determineIoctl reply ioctls used =
      { retval := (reply 0 k).ret
        ioctlUsed := if 0 ≤ (reply 0 k).ret then k else used
        tried := [k] } := by
  cases ioctls with
  | nil => exact absurd h (by simp [numbers])
  | cons k' ioctls =>
    by_cases hk : k' = 0
    · rw [numbers, List.takeWhile_cons_of_neg (by simpa using hk)] at h
      exact absurd h (by simp)
    · rw [numbers, List.takeWhile_cons_of_pos (by simpa using hk)] at h
      obtain ⟨rfl, -⟩ := List.cons.inj h
      exact determine_cons reply 0 _ hk ioctls

theorem rejects_nil (reply : Nat → Ioctl → Reply) : Rejects reply [] := by
  intro i k h
  simp at h

/-- **`determine_ioctl` is right unless the first of several numbers is rejected.** -/
theorem determineIoctl_iff (reply : Nat → Ioctl → Reply) (ioctls : List Ioctl) (used : Ioctl) :
    Determines reply ioctls used (determineIoctl reply ioctls used) ↔
      ¬FirstRejected reply ioctls := by
  cases hnumbers : numbers ioctls with
  | nil =>
    rw [determineIoctl_of_nil hnumbers]
    refine iff_of_true (Or.inr ?_) ?_
    · rw [hnumbers]
      exact ⟨rejects_nil reply, rfl, rfl, rfl⟩
    · rintro ⟨k, ks, h, -, -⟩
      rw [hnumbers] at h
      exact absurd h.symm (List.cons_ne_nil _ _)
  | cons k ks =>
    rw [determineIoctl_of_cons hnumbers]
    by_cases hfirst : reply 0 k = .failed einval
    · by_cases hks : ks = []
      · -- the only number is rejected
        subst hks
        refine iff_of_true (Or.inr ?_) ?_
        · rw [hnumbers]
          refine ⟨?_, rfl, by simp [hfirst, Reply.ret], by simp [hfirst, Reply.ret]⟩
          intro i k' hi
          cases i with
          | zero =>
            obtain rfl : k = k' := by simpa using hi
            exact hfirst
          | succ i => simp at hi
        · rintro ⟨k', ks', h, hne, -⟩
          rw [hnumbers] at h
          exact hne (List.cons.inj h).2.symm
      · refine iff_of_false ?_ (not_not.mpr ⟨k, ks, hnumbers, hks, hfirst⟩)
        rintro (⟨pre, k', post, hsplit, -, hreply, htried, -, -⟩ | ⟨-, htried, -, -⟩)
        · cases pre with
          | nil =>
            rw [hnumbers] at hsplit
            obtain ⟨rfl, -⟩ := List.cons.inj hsplit
            exact hreply hfirst
          | cons k'' pre => simp at htried
        · rw [hnumbers] at htried
          exact hks (List.cons.inj htried).2.symm
    · refine iff_of_true (Or.inl ⟨[], k, ks, hnumbers, rejects_nil reply, hfirst, rfl, rfl, rfl⟩) ?_
      rintro ⟨k', ks', h, -, hrejected⟩
      rw [hnumbers] at h
      obtain ⟨rfl, -⟩ := List.cons.inj h
      exact hfirst hrejected

/-- A kernel that knows the second number alone is not asked for it. -/
theorem determineIoctl_gives_up :
    ¬Determines (fun _ k => if k = 2 then .done 0 else .failed einval) [1, 2, 0] 0
      (determineIoctl (fun _ k => if k = 2 then .done 0 else .failed einval) [1, 2, 0] 0) := by
  have hgives : determineIoctl (fun _ k => if k = 2 then .done 0 else .failed einval) [1, 2, 0] 0 =
      ⟨-1, 0, [1]⟩ := by decide
  have hnumbers : numbers [1, 2, 0] = [1, 2] := by decide
  rw [hgives]
  rintro (⟨pre, k, post, hsplit, -, hreply, htried, -, -⟩ | ⟨-, htried, -, -⟩)
  · cases pre with
    | nil =>
      obtain rfl : 1 = k := by simpa using htried
      exact hreply (by decide)
    | cons k' pre => simp at htried
  · rw [hnumbers] at htried
    exact absurd htried (by decide)

/-! ### The calls -/

/-- `BTN_MISC`, and `KEY_MAX` of new kernels and of old ones. -/
def btnMisc : Nat := 0x100
def keyMaxLarge : Nat := 0x2FF
def keyMaxSmall : Nat := 0x1FF

/-- `_IOW` and `_IOR` of a button map of the joystick driver. -/
def iow (nr keyMax : Nat) : Ioctl :=
  (1 <<< 30) ||| BitVec.ofNat 32 (2 * (keyMax - btnMisc + 1)) <<< 16 ||| (0x6a <<< 8) |||
    BitVec.ofNat 32 nr

def ior (nr keyMax : Nat) : Ioctl :=
  (2 <<< 30) ||| BitVec.ofNat 32 (2 * (keyMax - btnMisc + 1)) <<< 16 ||| (0x6a <<< 8) |||
    BitVec.ofNat 32 nr

/-- What `getbtnmap` and `setbtnmap` do with their numbers and the one they know. -/
def btnmapIoctl (reply : Nat → Ioctl → Reply) (ioctls : List Ioctl) (known : Ioctl) :
    Determined :=
  if known ≠ 0 then ⟨(reply 0 known).ret, known, [known]⟩
  else determineIoctl reply ioctls known

/-- `getbtnmap`, where `KEY_MAX` is that of the headers. -/
def getbtnmap (keyMax : Nat) (reply : Nat → Ioctl → Reply) (jsiocgbtnmap : Ioctl) : Determined :=
  btnmapIoctl reply [ior 0x34 keyMax, ior 0x34 keyMaxLarge, ior 0x34 keyMaxSmall, 0] jsiocgbtnmap

/-- `setbtnmap`. -/
def setbtnmap (keyMax : Nat) (reply : Nat → Ioctl → Reply) (jsiocsbtnmap : Ioctl) : Determined :=
  btnmapIoctl reply [iow 0x33 keyMax, iow 0x33 keyMaxLarge, iow 0x33 keyMaxSmall, 0] jsiocsbtnmap

inductive MapCall
  | get
  | set

/-- The two static variables, and all that has been asked and answered. -/
structure Statics where
  jsiocgbtnmap : Ioctl
  jsiocsbtnmap : Ioctl
  answered : List (Ioctl × Reply)

def Statics.hear (s : Statics) (reply : Nat → Ioctl → Reply) (tried : List Ioctl) : Statics :=
  { s with answered := s.answered ++ tried.mapIdx fun i k => (k, reply i k) }

/-- One call, with what the kernel says to it. -/
def Statics.call (keyMax : Nat) (s : Statics) (c : MapCall × (Nat → Ioctl → Reply)) : Statics :=
  match c.1 with
  | .get =>
    let d := getbtnmap keyMax c.2 s.jsiocgbtnmap
    { s.hear c.2 d.tried with jsiocgbtnmap := d.ioctlUsed }
  | .set =>
    let d := setbtnmap keyMax c.2 s.jsiocsbtnmap
    { s.hear c.2 d.tried with jsiocsbtnmap := d.ioctlUsed }

/-- A number that is known is one with which the kernel has complied. -/
def Vouched (known : Ioctl) (answered : List (Ioctl × Reply)) : Prop :=
  known ≠ 0 → ∃ n, (known, .done n) ∈ answered

theorem Vouched.append {known : Ioctl} {answered : List (Ioctl × Reply)}
    (h : Vouched known answered) (more : List (Ioctl × Reply)) :
    Vouched known (answered ++ more) := by
  intro hknown
  obtain ⟨n, hn⟩ := h hknown
  exact ⟨n, List.mem_append_left _ hn⟩

/-- **One call** records a number only if the kernel complies. -/
theorem btnmapIoctl_vouched {reply : Nat → Ioctl → Reply} {ioctls : List Ioctl} {known : Ioctl}
    {answered : List (Ioctl × Reply)} (h : Vouched known answered) :
    Vouched (btnmapIoctl reply ioctls known).ioctlUsed
      (answered ++ (btnmapIoctl reply ioctls known).tried.mapIdx fun i k => (k, reply i k)) := by
  rw [btnmapIoctl]
  by_cases hknown : known = 0
  · rw [if_neg (not_not.mpr hknown)]
    cases hnumbers : numbers ioctls with
    | nil =>
      rw [determineIoctl_of_nil hnumbers]
      intro hne
      exact absurd hknown hne
    | cons k ks =>
      rw [determineIoctl_of_cons hnumbers]
      intro hne
      cases hreply : reply 0 k with
      | done n => exact ⟨n, List.mem_append_right _ (by simp [hreply, Reply.ret])⟩
      | failed errno =>
        simp only [hreply, Reply.ret] at hne
        exact absurd hknown hne
  · rw [if_pos hknown]
    exact h.append _

/-- **Every run of the two functions**: what is known has worked. -/
theorem run_known (keyMax : Nat) (calls : List (MapCall × (Nat → Ioctl → Reply))) :
    Vouched (calls.foldl (Statics.call keyMax) ⟨0, 0, []⟩).jsiocgbtnmap
        (calls.foldl (Statics.call keyMax) ⟨0, 0, []⟩).answered ∧
      Vouched (calls.foldl (Statics.call keyMax) ⟨0, 0, []⟩).jsiocsbtnmap
        (calls.foldl (Statics.call keyMax) ⟨0, 0, []⟩).answered := by
  induction calls using List.reverseRecOn with
  | nil => exact ⟨fun h => absurd rfl h, fun h => absurd rfl h⟩
  | append_singleton calls c ih =>
    obtain ⟨call, reply⟩ := c
    rw [List.foldl_append, List.foldl_cons, List.foldl_nil]
    cases call with
    | get => exact ⟨btnmapIoctl_vouched ih.1, ih.2.append _⟩
    | set => exact ⟨ih.1.append _, btnmapIoctl_vouched ih.2⟩

/-- **Choosing the ioctl**: `determine_ioctl` does as it should unless the first of several
numbers is rejected, and the calls use only numbers that have worked once one has. -/
theorem ioctl_selection (keyMax : Nat) :
    (∀ (reply : Nat → Ioctl → Reply) (ioctls : List Ioctl) (used : Ioctl),
      Determines reply ioctls used (determineIoctl reply ioctls used) ↔
        ¬FirstRejected reply ioctls) ∧
      ∀ calls : List (MapCall × (Nat → Ioctl → Reply)),
        Vouched (calls.foldl (Statics.call keyMax) ⟨0, 0, []⟩).jsiocgbtnmap
            (calls.foldl (Statics.call keyMax) ⟨0, 0, []⟩).answered ∧
          Vouched (calls.foldl (Statics.call keyMax) ⟨0, 0, []⟩).jsiocsbtnmap
            (calls.foldl (Statics.call keyMax) ⟨0, 0, []⟩).answered :=
  ⟨determineIoctl_iff, run_known keyMax⟩

end LinuxConsole.Jscal

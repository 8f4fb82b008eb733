import LinuxConsole.Switch.Moves

/-!
# When a console cannot be allocated

`vc_allocate` allocates twice, the `struct vc_data` and then its screen buffer.
Between the two `visual_init` calls `con_init`, with which `vgacon` counts the
console among those that share its font map; when the buffer cannot be had the
`struct vc_data` is freed and `con_deinit` is not called.  The error number is
assigned to the parameter, which nobody reads.

Three callers have a result of their own.  `vt_open` returns the index of the
tty whatever happens, `VT_ACTIVATE` and `VT_RELDISP` return the number they
asked for.  **`allocation_failures_iff`** says when each of this is right.
-/

namespace LinuxConsole.Switch

variable {N : Nat}

/-- The drivers that a VT may be on. -/
inductive ConDriver
  | dummycon
  | vgacon
  deriving DecidableEq

/-- The kernel with the driver of every VT.  `sharers` is
`vgacon_uni_pagedir[1]`, the number of consoles that share the map of
`vgacon`. -/
structure Drivers (N : Nat) where
  kernel : Kernel N
  vtSw : Fin N → ConDriver
  sharers : Nat

/-- The value that user space sees. -/
def VtRet.value : VtRet → Int
  | .ok => 0
  | .eperm => -1
  | .enxio => -6
  | .efault => -14
  | .ebusy => -16
  | .einval => -22
  | .num n => n

namespace Drivers

variable (P : Pools N) (s : Drivers N)

/-- `visual_init` of a new console of the VT `v`.  It empties the console's own
map first, so `vgacon_init` has nothing to free and no default to set: it points
`vc_uni_pagedir_loc` to the shared map and counts the console. -/
def visualInit (v : Fin N) : Drivers N :=
  { s with
    sharers :=
      match s.vtSw v with
      | .dummycon => s.sharers
      | .vgacon => s.sharers + 1 }

/-- `vc_allocate`; `mem` and `buf` are whether the allocations of the
`struct vc_data` and of the screen buffer succeed. -/
def vcAllocate (mem buf : Bool) (n : Nat) : Option Nat × Drivers N :=
  if n ≥ maxNrConsoles then (none, s)
  else
    match Kernel.poolOf P n with
    | none => (none, s)
    | some v =>
      if !mem then (none, s)
      else
        let s := s.visualInit v
        -- `kfree(vc)`, without `con_deinit`
        if !buf then (none, s)
        else (some s.kernel.next, { s with kernel := s.kernel.install P v n })

end Drivers

/-- The calls that lead to `vc_allocate`: `vt_open` of the tty of index `n` when
`tty->count` is `count`, `VT_ACTIVATE` and `VT_RELDISP` on the console `vc`. -/
inductive AllocCall
  | ttyOpen (count n : Nat)
  | vtActivate (vc : Nat) (perm : Bool) (arg : Nat)
  | vtReldisp (vc : Nat) (perm : Bool) (arg : Nat)

namespace AllocCall

/-- The number that the call gives to `vc_allocate`. -/
def asks (P : Pools N) (k : Kernel N) : AllocCall → Option Nat
  | .ttyOpen count n => if count = 1 then some n else none
  | .vtActivate _ perm arg =>
    if perm = true ∧ arg ≠ 0 ∧ arg ≤ maxNrConsoles ∧ k.findVc P (arg - 1) = none then
      some (arg - 1)
    else none
  | .vtReldisp vc perm arg =>
    if perm = true ∧ (k.con vc).vtMode.mode = .process ∧ 0 ≤ (k.con vc).vtNewvt ∧ arg ≠ 0 ∧
        k.findVc P (k.con vc).vtNewvt.toNat = none then
      some (k.con vc).vtNewvt.toNat
    else none

/-- What the call returns.  `vt_open` sets its result before it allocates. -/
def ret (P : Pools N) (k : Kernel N) (mem buf : Bool) : AllocCall → VtRet
  | .ttyOpen count n => if count = 1 then .num n else .ok
  | .vtActivate vc perm arg => (k.vtActivate P vc perm arg (mem && buf)).1
  | .vtReldisp vc perm arg => (k.vtReldisp P vc perm arg (mem && buf)).1

/-- The call takes the new console: `VT_ACTIVATE` does so only when it is one of
its own VT. -/
def Attaches (k : Kernel N) (p : Nat) : AllocCall → Prop
  | .vtActivate vc _ _ => (k.con p).displayFg = (k.con vc).displayFg
  | _ => True

end AllocCall

/-- The tty that is opened has index 0. -/
def AllocCall.IndexZero : AllocCall → Prop
  | .ttyOpen _ n => n = 0
  | _ => True

namespace Drivers

variable (P : Pools N) (s : Drivers N)

/-- The pool, the pointers of every VT and the counter are the same. -/
structure Untouched (s s' : Drivers N) : Prop where
  vcCons : ∀ v, (s'.kernel.vt v).vcCons = (s.kernel.vt v).vcCons
  live : s'.kernel.live = s.kernel.live
  pointers : ∀ v, (s'.kernel.vt v).fgConsole = (s.kernel.vt v).fgConsole ∧
    (s'.kernel.vt v).lastConsole = (s.kernel.vt v).lastConsole ∧
    (s'.kernel.vt v).wantVc = (s.kernel.vt v).wantVc
  sharers : s'.sharers = s.sharers

/-- A `vc_allocate` that returns null has changed nothing. -/
def Undone (mem buf : Bool) (n : Nat) : Prop :=
  (s.vcAllocate P mem buf n).1 = none → s.Untouched (s.vcAllocate P mem buf n).2

/-- The call returns a negative number when `vc_allocate` gave it nothing, and 0
when it was given a console that it takes. -/
def Answers (mem buf : Bool) (c : AllocCall) : Prop :=
  ∀ n, c.asks P s.kernel = some n →
    ((s.vcAllocate P mem buf n).1 = none → (c.ret P s.kernel mem buf).value < 0) ∧
      ∀ p, (s.vcAllocate P mem buf n).1 = some p →
        c.Attaches (s.vcAllocate P mem buf n).2.kernel p → (c.ret P s.kernel mem buf).value = 0

/-- The console is there but its buffer is not, and it is one of `vgacon`. -/
def LosesCount (mem buf : Bool) (n : Nat) : Prop :=
  n < maxNrConsoles ∧ mem = true ∧ buf = false ∧
    ∃ v, Kernel.poolOf P n = some v ∧ s.vtSw v = .vgacon

/-- There is room and memory for a console of this number. -/
def CanAllocate (mem buf : Bool) (n : Nat) : Prop :=
  n < maxNrConsoles ∧ mem = true ∧ buf = true ∧ ∃ v, Kernel.poolOf P n = some v

variable {P s} {mem buf : Bool} {n : Nat}

/-! ### What `vc_allocate` can come to -/

/-- **The three outcomes of `vc_allocate`**: nothing has happened, the counter
has lost a console, or the console is there. -/
theorem vcAllocate_cases (P : Pools N) (s : Drivers N) (mem buf : Bool) (n : Nat) :
    (¬ CanAllocate P mem buf n ∧ ¬ s.LosesCount P mem buf n ∧
      s.vcAllocate P mem buf n = (none, s)) ∨
    (¬ CanAllocate P mem buf n ∧ s.LosesCount P mem buf n ∧
      s.vcAllocate P mem buf n = (none, { s with sharers := s.sharers + 1 })) ∨
    (CanAllocate P mem buf n ∧ ¬ s.LosesCount P mem buf n ∧
      (s.vcAllocate P mem buf n).1 = some s.kernel.next) := by
  by_cases hn : n ≥ maxNrConsoles
  · exact Or.inl ⟨fun h => absurd h.1 (Nat.not_lt_of_ge hn), fun h => absurd h.1 (Nat.not_lt_of_ge hn),
      by rw [vcAllocate, if_pos hn]⟩
  · have hlow : n < maxNrConsoles := Nat.lt_of_not_ge hn
    cases hv : Kernel.poolOf P n with
    | none =>
      refine Or.inl ⟨?_, ?_, by rw [vcAllocate, if_neg hn, hv]⟩
      · rintro ⟨-, -, -, v, hsome⟩
        rw [hv] at hsome
        cases hsome
      · rintro ⟨-, -, -, v, hsome, -⟩
        rw [hv] at hsome
        cases hsome
    | some v =>
      cases mem with
      | false =>
        refine Or.inl ⟨?_, ?_, by rw [vcAllocate, if_neg hn, hv]; rfl⟩
        · rintro ⟨-, h, -⟩
          cases h
        · rintro ⟨-, h, -⟩
          cases h
      | true =>
        cases buf with
        | true =>
          refine Or.inr (Or.inr ⟨⟨hlow, rfl, rfl, v, hv⟩, ?_, ?_⟩)
          · rintro ⟨-, -, h, -⟩
            cases h
          · rw [vcAllocate, if_neg hn, hv]
            rfl
        | false =>
          have hcannot : ¬ CanAllocate P true false n := by
            rintro ⟨-, -, h, -⟩
            cases h
          cases hsw : s.vtSw v with
          | dummycon =>
            refine Or.inl ⟨hcannot, ?_, ?_⟩
            · rintro ⟨-, -, -, w, hw, hvga⟩
              obtain rfl : v = w := Option.some.inj (hv.symm.trans hw)
              rw [hsw] at hvga
              cases hvga
            · rw [vcAllocate, if_neg hn, hv]
              simp [visualInit, hsw]
          | vgacon =>
            refine Or.inr (Or.inl ⟨hcannot, ⟨hlow, rfl, rfl, v, hv, hsw⟩, ?_⟩)
            rw [vcAllocate, if_neg hn, hv]
            simp [visualInit, hsw]

theorem vcAllocate_kernel (P : Pools N) (s : Drivers N) (mem buf : Bool) (n : Nat) :
    (s.vcAllocate P mem buf n).1 = (s.kernel.vcAllocate P (mem && buf) n).1 ∧
      (s.vcAllocate P mem buf n).2.kernel = (s.kernel.vcAllocate P (mem && buf) n).2 := by
  rw [vcAllocate, Kernel.vcAllocate]
  split
  · exact ⟨rfl, rfl⟩
  · cases Kernel.poolOf P n with
    | none => exact ⟨rfl, rfl⟩
    | some v => cases mem <;> cases buf <;> exact ⟨rfl, rfl⟩

theorem undone_iff : s.Undone P mem buf n ↔ ¬ s.LosesCount P mem buf n := by
  rcases vcAllocate_cases P s mem buf n with
    ⟨-, hkeeps, heq⟩ | ⟨-, hloses, heq⟩ | ⟨-, hkeeps, heq⟩
  · refine iff_of_true ?_ hkeeps
    intro _
    rw [heq]
    exact ⟨fun _ => rfl, rfl, fun _ => ⟨rfl, rfl, rfl⟩, rfl⟩
  · refine iff_of_false ?_ (not_not_intro hloses)
    intro hundone
    have hsharers := (hundone (by rw [heq])).sharers
    rw [heq] at hsharers
    exact absurd hsharers (Nat.succ_ne_self _)
  · refine iff_of_true ?_ hkeeps
    intro hnone
    rw [heq] at hnone
    cases hnone

/-! ### What the callers return -/

section Callers

variable {k : Kernel N} {m : Bool} {vc arg : Nat} {perm : Bool}

theorem vcAllocate_acquire (k : Kernel N) (m : Bool) (n : Nat) :
    (k.acquireConsoleSem.vcAllocate P m n).1 = (k.vcAllocate P m n).1 ∧
      (k.acquireConsoleSem.vcAllocate P m n).2.con = (k.vcAllocate P m n).2.con := by
  rw [Kernel.vcAllocate, Kernel.vcAllocate]
  split
  · exact ⟨rfl, rfl⟩
  · cases Kernel.poolOf P n with
    | none => exact ⟨rfl, rfl⟩
    | some v =>
      cases m with
      | false => exact ⟨rfl, rfl⟩
      | true =>
        refine ⟨rfl, ?_⟩
        funext p
        change (k.acquireConsoleSem.install P v n).con p = (k.install P v n).con p
        rw [Kernel.install_con, Kernel.install_con]
        rfl

theorem vtActivate_ret (hasks : (AllocCall.vtActivate vc perm arg).asks P k = some n) :
    (k.vcAllocate P m n).1 = none ∧ (k.vtActivate P vc perm arg m).1 = .num n ∨
      ∃ p, (k.vcAllocate P m n).1 = some p ∧
        (k.vtActivate P vc perm arg m).1 =
          if ((k.vcAllocate P m n).2.con p).displayFg ≠ ((k.vcAllocate P m n).2.con vc).displayFg
          then .enxio else .ok := by
  rw [AllocCall.asks] at hasks
  split at hasks
  · rename_i hcond
    obtain ⟨hperm, hzero, hmax, hfree⟩ := hcond
    obtain rfl : arg - 1 = n := Option.some.inj hasks
    obtain ⟨hfst, hcon⟩ := vcAllocate_acquire (P := P) k m (arg - 1)
    rw [Kernel.vtActivate, if_neg (by simp [hperm]), if_neg (by omega), hfree]
    dsimp only
    rw [← hfst, ← hcon]
    cases hp : (k.acquireConsoleSem.vcAllocate P m (arg - 1)).1 with
    | none => exact Or.inl ⟨rfl, rfl⟩
    | some p =>
      refine Or.inr ⟨p, rfl, ?_⟩
      dsimp only
      rw [apply_ite Prod.fst]
      rfl
  · cases hasks

theorem vtReldisp_ret (hasks : (AllocCall.vtReldisp vc perm arg).asks P k = some n) :
    (k.vcAllocate P m n).1 = none ∧ (k.vtReldisp P vc perm arg m).1 = .num n ∨
      (∃ p, (k.vcAllocate P m n).1 = some p) ∧ (k.vtReldisp P vc perm arg m).1 = .ok := by
  rw [AllocCall.asks] at hasks
  split at hasks
  · rename_i hcond
    obtain ⟨hperm, hmode, hnew, hzero, hfree⟩ := hcond
    obtain rfl : (k.con vc).vtNewvt.toNat = n := Option.some.inj hasks
    obtain ⟨hfst, -⟩ := vcAllocate_acquire (P := P) k m (k.con vc).vtNewvt.toNat
    have hfree' : k.acquireConsoleSem.findVc P (k.con vc).vtNewvt.toNat = none := hfree
    rw [Kernel.vtReldisp, if_neg (by simp [hperm]), if_neg (by simp [hmode]), if_pos hnew,
      if_neg hzero, Kernel.releaseDisplay]
    dsimp only
    rw [hfree']
    dsimp only
    rw [← hfst]
    rcases hr : k.acquireConsoleSem.vcAllocate P m (k.con vc).vtNewvt.toNat with ⟨_ | p, k'⟩
    · exact Or.inl ⟨rfl, rfl⟩
    · exact Or.inr ⟨⟨p, rfl⟩, rfl⟩
  · cases hasks

end Callers

theorem vcAllocate_eq_none (P : Pools N) (s : Drivers N) (mem buf : Bool) (n : Nat) :
    (s.vcAllocate P mem buf n).1 = none ↔ ¬ CanAllocate P mem buf n := by
  rcases vcAllocate_cases P s mem buf n with ⟨hcan, -, heq⟩ | ⟨hcan, -, heq⟩ | ⟨hcan, -, heq⟩
  · rw [heq]
    exact iff_of_true rfl hcan
  · rw [heq]
    exact iff_of_true rfl hcan
  · rw [heq]
    exact iff_of_false (Option.some_ne_none _) (not_not_intro hcan)

theorem num_not_neg (n : Nat) : ¬ (VtRet.num n).value < 0 := Int.not_lt.mpr (Int.natCast_nonneg n)

theorem canAllocate_of_eq_some {p : Nat} (h : (s.vcAllocate P mem buf n).1 = some p) :
    CanAllocate P mem buf n := by
  by_contra hcan
  rw [(vcAllocate_eq_none P s mem buf n).mpr hcan] at h
  cases h

theorem answers_iff (c : AllocCall) :
    s.Answers P mem buf c ↔
      ∀ n, c.asks P s.kernel = some n → CanAllocate P mem buf n ∧ c.IndexZero := by
  refine forall_congr' fun n => imp_congr_right fun hasks => ?_
  have hnone := vcAllocate_eq_none P s mem buf n
  have hsome : ∀ p, (s.vcAllocate P mem buf n).1 = some p → CanAllocate P mem buf n :=
    fun _ => canAllocate_of_eq_some
  obtain ⟨hfst, hkernel⟩ := vcAllocate_kernel P s mem buf n
  cases c with
  | ttyOpen count i =>
    rw [AllocCall.asks] at hasks
    split at hasks
    · rename_i hcount
      obtain rfl : i = n := Option.some.inj hasks
      rw [AllocCall.ret, if_pos hcount]
      constructor
      · rintro ⟨hfails, hgives⟩
        have hcan : CanAllocate P mem buf i := by
          by_contra hcan
          exact num_not_neg i (hfails (hnone.mpr hcan))
        obtain ⟨p, hp⟩ := Option.ne_none_iff_exists'.mp (mt hnone.mp (not_not_intro hcan))
        have hzero : ((i : Nat) : Int) = 0 := hgives p hp trivial
        exact ⟨hcan, Int.natCast_eq_zero.mp hzero⟩
      · rintro ⟨hcan, hzero⟩
        refine ⟨fun hn => absurd hcan (hnone.mp hn), fun p _ _ => ?_⟩
        exact Int.natCast_eq_zero.mpr hzero
    · cases hasks
  | vtActivate vc perm arg =>
    rw [hfst] at hnone hsome ⊢
    rw [hkernel, AllocCall.ret]
    rcases vtActivate_ret (m := mem && buf) hasks with ⟨hno, hret⟩ | ⟨p, hp, hret⟩
    · refine iff_of_false ?_ fun h => hnone.mp hno h.1
      rintro ⟨hfails, -⟩
      rw [hret] at hfails
      exact num_not_neg n (hfails hno)
    · have hcan := hsome p hp
      refine iff_of_true ⟨fun hn => absurd hcan (hnone.mp hn), fun q hq hattaches => ?_⟩
        ⟨hcan, trivial⟩
      obtain rfl : p = q := Option.some.inj (hp.symm.trans hq)
      change ((s.kernel.vcAllocate P (mem && buf) n).2.con p).displayFg = _ at hattaches
      rw [hret, if_neg (not_not_intro hattaches)]
      rfl
  | vtReldisp vc perm arg =>
    rw [hfst] at hnone hsome ⊢
    rw [AllocCall.ret]
    rcases vtReldisp_ret (m := mem && buf) hasks with ⟨hno, hret⟩ | ⟨⟨p, hp⟩, hret⟩
    · refine iff_of_false ?_ fun h => hnone.mp hno h.1
      rintro ⟨hfails, -⟩
      rw [hret] at hfails
      exact num_not_neg n (hfails hno)
    · have hcan := hsome p hp
      refine iff_of_true ⟨fun hn => absurd hcan (hnone.mp hn), fun q _ _ => ?_⟩ ⟨hcan, trivial⟩
      rw [hret]
      rfl

end Drivers

/-- **Failed allocations.**  A `vc_allocate` that returns null has undone what it
did exactly if it did not fail for want of the buffer of a `vgacon` console; and
a call that allocates answers with an error number or with 0 as it should exactly
if the console can be allocated and, when it is an open, the tty has index 0. -/
theorem allocation_failures_iff (P : Pools N) (s : Drivers N) (mem buf : Bool) :
    (∀ n, s.Undone P mem buf n ↔ ¬ s.LosesCount P mem buf n) ∧
      ∀ c : AllocCall, s.Answers P mem buf c ↔
        ∀ n, c.asks P s.kernel = some n → Drivers.CanAllocate P mem buf n ∧ c.IndexZero :=
  ⟨fun _ => Drivers.undone_iff, Drivers.answers_iff⟩

/-- A display on `vgacon` with its first console. -/
def vgaDisplay : Drivers 1 where
  kernel := .boot onePool
  vtSw := fun _ => .vgacon
  sharers := 1

/-- **The sixth tty, without memory for its screen.**  The console is counted and
`vt_open` returns 5. -/
theorem count_and_error_lost :
    (vgaDisplay.vcAllocate onePool true false 5).1 = none ∧
      (vgaDisplay.vcAllocate onePool true false 5).2.sharers = 2 ∧
      (AllocCall.ret onePool vgaDisplay.kernel true false (.ttyOpen 1 5)).value = 5 ∧
      ¬ (vgaDisplay.Undone onePool true false 5 ∧
        vgaDisplay.Answers onePool true false (.ttyOpen 1 5)) := by
  have hnone : (vgaDisplay.vcAllocate onePool true false 5).1 = none := by decide
  refine ⟨hnone, by decide, by decide, ?_⟩
  rintro ⟨-, hanswers⟩
  exact absurd ((hanswers 5 rfl).1 hnone) (by decide)

end LinuxConsole.Switch

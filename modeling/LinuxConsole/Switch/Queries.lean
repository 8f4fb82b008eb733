import LinuxConsole.Switch.Disallocate

/-!
# Asking which consoles are in use

`VT_GETSTATE` walks through the consoles of the VT with a bit that moves along, and `VT_OPENQRY`
looks for the first number whose console is not in use.

The bit starts as 0, so the walk of `VT_GETSTATE` ends before it begins and no console is ever
reported.  The answer of `VT_OPENQRY` goes through an `unsigned char`, which makes 255 of the -1 for
a VT whose consoles are all in use.  **`console_queries_iff`** says that these two are all that goes
wrong.
-/

namespace LinuxConsole.Switch

/-- `struct vt_stat`, as far as it has been written. -/
structure VtStat where
  vActive : Option (BitVec 16)
  vState : Option (BitVec 16)
  deriving DecidableEq

namespace Kernel

variable {N : Nat} (P : Pools N) (k : Kernel N)

/-- `VT_IS_IN_USE`. -/
def vtIsInUse (p : Nat) : Bool :=
  match (k.con p).vcTty with
  | some count => decide (count ≠ 0)
  | none => false

/-- `tmp && VT_IS_IN_USE(tmp)` for the console of a number. -/
def numberInUse (n : Nat) : Bool :=
  match findVc P k n with
  | some tmp => k.vtIsInUse tmp
  | none => false

/-- The loop of `VT_GETSTATE` when `n` consoles are left. -/
def getstateLoop (v : Fin N) : Nat → Nat → BitVec 16 → BitVec 16 → BitVec 16
  | 0, _, _, state => state
  | n + 1, i, mask, state =>
    if mask = 0 then state
    else
      let state := if k.numberInUse P (i + P.firstVc v) then state ||| mask else state
      getstateLoop v n (i + 1) (mask <<< 1) state

/-- `VT_GETSTATE`; `active` and `state` are whether the two fields of the user's `vt_stat` can be
written. -/
def vtGetstate (vc : Nat) (active state : Bool) : VtRet × VtStat :=
  let v := (k.con vc).displayFg
  if !active then (.efault, ⟨none, none⟩)
  else
    let vActive := BitVec.ofNat 16 ((k.con (k.vt v).fgConsole).vcNum + 1)
    let mask := 0
    let vState := k.getstateLoop P v (P.vcCount v) 0 mask 0
    if state then (.ok, ⟨some vActive, some vState⟩) else (.efault, ⟨some vActive, none⟩)

/-- The loop of `VT_OPENQRY` when `n` consoles are left: the place at which it ends. -/
def openqryLoop (v : Fin N) : Nat → Nat → Nat
  | 0, i => i
  | n + 1, i => if k.numberInUse P (i + P.firstVc v) then openqryLoop v n (i + 1) else i

/-- `VT_OPENQRY`: what is put into the user's `int`, if it can be written. -/
def vtOpenqry (vc : Nat) (writable : Bool) : VtRet × Option Int :=
  let v := (k.con vc).displayFg
  let i := k.openqryLoop P v (P.vcCount v) 0
  let j : Int := P.firstVc v + i
  let ucval := BitVec.ofInt 8 (if i < P.vcCount v then j + 1 else -1)
  if writable then (.ok, some ucval.toNat) else (.efault, none)

/-! ### What the answers should be -/

/-- The console at the place `i` of the pool is in use. -/
def UsedAt (v : Fin N) (i : Nat) : Prop :=
  ∃ p, k.findVc P (P.firstVc v + i) = some p ∧ k.InUse p

/-- `VT_GETSTATE` on the console `vc` reports the number of the foreground console plus one, and a
mask that has the bit of each of the first sixteen consoles of the VT exactly if it is in use. -/
def ReportsState (vc : Nat) : Prop :=
  let v := (k.con vc).displayFg
  ∃ active mask : BitVec 16, k.vtGetstate P vc true true = (.ok, ⟨some active, some mask⟩) ∧
    active.toNat = (k.con (k.vt v).fgConsole).vcNum + 1 ∧
      ∀ i < 16, i < P.vcCount v → (mask.getLsbD i = true ↔ k.UsedAt P v i)

/-- `VT_OPENQRY` on the console `vc` returns the smallest tty number of the VT's pool that is not in
use, or -1 when all of them are. -/
def ReportsFree (vc : Nat) : Prop :=
  let v := (k.con vc).displayFg
  ∃ r : Int, k.vtOpenqry P vc true = (.ok, some r) ∧
    ((∃ i < P.vcCount v, ¬ k.UsedAt P v i ∧ (∀ j < i, k.UsedAt P v j) ∧
        r = ((P.firstVc v + i + 1 : Nat) : Int)) ∨
      (∀ i < P.vcCount v, k.UsedAt P v i) ∧ r = -1)

variable {P k}

/-! ### The loops -/

theorem vtIsInUse_iff (p : Nat) : k.vtIsInUse p = true ↔ k.InUse p := by
  rw [vtIsInUse, InUse]
  cases (k.con p).vcTty with
  | none => simp
  | some count => simp

theorem numberInUse_iff (v : Fin N) (i : Nat) :
    k.numberInUse P (i + P.firstVc v) = true ↔ k.UsedAt P v i := by
  rw [numberInUse, UsedAt, Nat.add_comm]
  cases k.findVc P (P.firstVc v + i) with
  | none => simp
  | some p => simp [vtIsInUse_iff]

/-- **The walk of `VT_GETSTATE` with the bit 0** reports nothing. -/
theorem getstateLoop_zero (v : Fin N) (n i : Nat) (state : BitVec 16) :
    k.getstateLoop P v n i 0 state = state := by
  cases n with
  | zero => rfl
  | succ n => rw [getstateLoop, if_pos rfl]

/-- **The walk of `VT_OPENQRY`**: it ends at the first place whose console is not in use. -/
theorem openqryLoop_spec (v : Fin N) (n i : Nat) :
    (∀ j, i ≤ j → j < k.openqryLoop P v n i → k.UsedAt P v j) ∧
      (k.openqryLoop P v n i < i + n ∧ ¬ k.UsedAt P v (k.openqryLoop P v n i) ∨
        k.openqryLoop P v n i = i + n) := by
  induction n generalizing i with
  | zero => exact ⟨fun j hle hlt => absurd hlt (Nat.not_lt.mpr hle), Or.inr rfl⟩
  | succ n ih =>
    rw [openqryLoop]
    by_cases hused : k.numberInUse P (i + P.firstVc v) = true
    · rw [if_pos hused]
      obtain ⟨hbelow, hend⟩ := ih (i + 1)
      constructor
      · intro j hle hlt
        rcases Nat.eq_or_lt_of_le hle with rfl | hlt'
        · exact (numberInUse_iff v i).mp hused
        · exact hbelow j hlt' hlt
      · rcases hend with ⟨hlt, hfree⟩ | heq
        · exact Or.inl ⟨by omega, hfree⟩
        · exact Or.inr (by omega)
    · rw [if_neg hused]
      refine ⟨fun j hle hlt => absurd hlt (Nat.not_lt.mpr hle), Or.inl ⟨by omega, ?_⟩⟩
      rwa [numberInUse_iff] at hused

/-! ### The answers -/

theorem reportsState_iff (h : Consistent P k)
    (hfits : ∀ v, P.firstVc v + P.vcCount v ≤ maxNrConsoles + 1) (vc : Nat) :
    k.ReportsState P vc ↔
      ∀ i < 16, i < P.vcCount (k.con vc).displayFg → ¬ k.UsedAt P (k.con vc).displayFg i := by
  have hcall : k.vtGetstate P vc true true =
      (.ok, ⟨some (BitVec.ofNat 16
        ((k.con (k.vt (k.con vc).displayFg).fgConsole).vcNum + 1)), some 0⟩) := by
    rw [vtGetstate]
    dsimp only
    rw [getstateLoop_zero]
    rfl
  have hactive : (BitVec.ofNat 16
      ((k.con (k.vt (k.con vc).displayFg).fgConsole).vcNum + 1)).toNat =
        (k.con (k.vt (k.con vc).displayFg).fgConsole).vcNum + 1 := by
    obtain ⟨hlt, hdisp⟩ := h.fg (k.con vc).displayFg
    have hhas := (h.num _ hlt).2
    rw [hdisp] at hhas
    have hle := hfits (k.con vc).displayFg
    rw [maxNrConsoles] at hle
    rw [BitVec.toNat_ofNat]
    omega
  rw [ReportsState]
  constructor
  · rintro ⟨active, mask, heq, -, hmask⟩ i hi hcount hused
    have hzero : mask = 0 := by
      rw [hcall] at heq
      simpa using (congrArg (fun r => r.2.vState) heq).symm
    have hbit := (hmask i hi hcount).mpr hused
    rw [hzero] at hbit
    simp at hbit
  · intro hnone
    refine ⟨_, _, hcall, hactive, fun i hi hcount => ?_⟩
    simp [hnone i hi hcount]

theorem vtOpenqry_cases (hfits : ∀ v, P.firstVc v + P.vcCount v ≤ maxNrConsoles + 1) (vc : Nat) :
    (∃ i < P.vcCount (k.con vc).displayFg, ¬ k.UsedAt P (k.con vc).displayFg i ∧
        (∀ j < i, k.UsedAt P (k.con vc).displayFg j) ∧
        k.vtOpenqry P vc true =
          (.ok, some ((P.firstVc (k.con vc).displayFg + i + 1 : Nat) : Int))) ∨
      (∀ i < P.vcCount (k.con vc).displayFg, k.UsedAt P (k.con vc).displayFg i) ∧
        k.vtOpenqry P vc true = (.ok, some 255) := by
  generalize hv : (k.con vc).displayFg = v
  obtain ⟨hbelow, hend⟩ := openqryLoop_spec (P := P) (k := k) v (P.vcCount v) 0
  rw [Nat.zero_add] at hend
  have hcall : k.vtOpenqry P vc true = (.ok, some ((BitVec.ofInt 8
      (if k.openqryLoop P v (P.vcCount v) 0 < P.vcCount v then
        (P.firstVc v : Int) + k.openqryLoop P v (P.vcCount v) 0 + 1 else -1)).toNat : Int)) := by
    rw [← hv, vtOpenqry]
    rfl
  rw [hcall]
  generalize k.openqryLoop P v (P.vcCount v) 0 = i at hbelow hend
  rcases hend with ⟨hlt, hfree⟩ | heq
  · refine Or.inl ⟨i, hlt, hfree, fun j hj => hbelow j (Nat.zero_le j) hj, ?_⟩
    have hle := hfits v
    rw [maxNrConsoles] at hle
    have hcast : (P.firstVc v : Int) + i + 1 = ((P.firstVc v + i + 1 : Nat) : Int) := by
      push_cast
      rfl
    rw [if_pos hlt, hcast, BitVec.ofInt_natCast, BitVec.toNat_ofNat, Nat.mod_eq_of_lt (by omega)]
  · subst heq
    refine Or.inr ⟨fun i hi => hbelow i (Nat.zero_le i) hi, ?_⟩
    rw [if_neg (Nat.lt_irrefl _)]
    rfl

theorem reportsFree_iff (hfits : ∀ v, P.firstVc v + P.vcCount v ≤ maxNrConsoles + 1) (vc : Nat) :
    k.ReportsFree P vc ↔
      ∃ i < P.vcCount (k.con vc).displayFg, ¬ k.UsedAt P (k.con vc).displayFg i := by
  rw [ReportsFree]
  rcases vtOpenqry_cases (k := k) hfits vc with ⟨i, hi, hfree, hbelow, hcall⟩ | ⟨hall, hcall⟩
  · exact ⟨fun _ => ⟨i, hi, hfree⟩, fun _ => ⟨_, hcall, Or.inl ⟨i, hi, hfree, hbelow, rfl⟩⟩⟩
  · constructor
    · rintro ⟨r, heq, ⟨i, hi, hfree, -⟩ | ⟨-, hneg⟩⟩
      · exact absurd (hall i hi) hfree
      · rw [hcall] at heq
        have hr : (255 : Int) = r := by simpa using congrArg Prod.snd heq
        omega
    · rintro ⟨i, hi, hfree⟩
      exact absurd (hall i hi) hfree

end Kernel

/-- **The consoles are reported right exactly if none of the first sixteen is in use and one of the
pool is free.**  The pools end where `vt_map_display` lets them. -/
theorem console_queries_iff {N : Nat} (P : Pools N)
    (hfits : ∀ v, P.firstVc v + P.vcCount v ≤ maxNrConsoles + 1) (k : Kernel N)
    (h : Consistent P k) (vc : Nat) :
    (k.ReportsState P vc ↔
      ∀ i < 16, i < P.vcCount (k.con vc).displayFg → ¬ k.UsedAt P (k.con vc).displayFg i) ∧
      (k.ReportsFree P vc ↔
        ∃ i < P.vcCount (k.con vc).displayFg, ¬ k.UsedAt P (k.con vc).displayFg i) :=
  ⟨Kernel.reportsState_iff h hfits vc, Kernel.reportsFree_iff hfits vc⟩

/-- The queries of the first console of the machine with two consoles. -/
theorem console_queries_activated :
    (Kernel.activated.ReportsState onePool 0 ↔
      ∀ i < 16, i < onePool.vcCount (Kernel.activated.con 0).displayFg →
        ¬ Kernel.activated.UsedAt onePool (Kernel.activated.con 0).displayFg i) ∧
      (Kernel.activated.ReportsFree onePool 0 ↔
        ∃ i < onePool.vcCount (Kernel.activated.con 0).displayFg,
          ¬ Kernel.activated.UsedAt onePool (Kernel.activated.con 0).displayFg i) :=
  console_queries_iff onePool (by decide) Kernel.activated activated_consistent 0

/-- A pool of one console. -/
def singlePool : Pools 1 where
  firstVc _ := 0
  vcCount _ := 1
  count_pos _ := by decide
  count_le _ := by decide
  apart v w _ _ _ _ _ := Subsingleton.elim v w

/-- **An open console that is not reported, and -1 as 255.**  The VT has one console and its tty is
open. -/
theorem console_queries_wrong :
    let k := (Kernel.boot singlePool).step singlePool (.ttyOpen 0 true)
    k.UsedAt singlePool 0 0 ∧
      k.vtGetstate singlePool 1 true true = (.ok, ⟨some 1, some 0⟩) ∧
      ¬ k.ReportsState singlePool 1 ∧
      k.vtOpenqry singlePool 1 true = (.ok, some 255) ∧ ¬ k.ReportsFree singlePool 1 := by
  have hrun :
      let k := (Kernel.boot singlePool).step singlePool (.ttyOpen 0 true)
      k.findVc singlePool 0 = some 1 ∧ (k.con 1).vcTty = some 1 ∧ (k.con 1).displayFg = 0 ∧
        k.vtGetstate singlePool 1 true true = (.ok, ⟨some 1, some 0⟩) ∧
        k.vtOpenqry singlePool 1 true = (.ok, some 255) := by
    decide +kernel
  intro k
  obtain ⟨hfind, htty, hdisp, hstate, hfree⟩ := hrun
  have hused : k.UsedAt singlePool 0 0 := ⟨1, hfind, 1, htty, one_ne_zero⟩
  refine ⟨hused, hstate, ?_, hfree, ?_⟩
  · rintro ⟨active, mask, heq, -, hmask⟩
    have hzero : (0 : BitVec 16) = mask := by
      simpa using congrArg (fun r => r.2.vState) (hstate.symm.trans heq)
    rw [hdisp] at hmask
    have hbit := (hmask 0 (by decide) (by decide)).mpr hused
    rw [← hzero] at hbit
    simp at hbit
  · rintro ⟨r, heq, hor⟩
    have hr : (255 : Int) = r := by
      simpa using congrArg Prod.snd (hfree.symm.trans heq)
    rw [hdisp] at hor
    rcases hor with ⟨i, hi, hnot, -⟩ | ⟨-, hneg⟩
    · obtain rfl : i = 0 := Nat.lt_one_iff.mp hi
      exact hnot hused
    · omega

end LinuxConsole.Switch

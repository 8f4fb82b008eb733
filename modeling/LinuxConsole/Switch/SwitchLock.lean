import LinuxConsole.Switch.Requests

/-!
# The console-switch lock

`VT_LOCKSWITCH` sets `vt_dont_switch`, and `vt_callback` is the only function
that tests it.  Each operation that can change a foreground console is followed
to the foreground it leaves (`vcAllocate_fgConsole`, `releaseDisplay_fgConsole`);
from these **`lock_honoured_iff`** reads off when a run changes the foreground
of a locked VT: when a `VT_RELDISP` completes a switch that was pending, or when
the first console of the VT is allocated.
-/

namespace LinuxConsole.Switch

variable {N : Nat} {P : Pools N}

/-- The console that the VT shows. -/
def Kernel.foreground (k : Kernel N) (w : Fin N) : Nat := (k.vt w).fgConsole

/-- `vc_allocate` makes the first console of a pool the foreground console. -/
def Allocates (P : Pools N) (w : Fin N) (n : Nat) (mem : Bool) : Prop :=
  mem = true ∧ n < maxNrConsoles ∧ P.firstVc w = n

/-- The operation takes the foreground of `w` to another console without a look
at the lock. -/
def Kernel.SwitchesAnyway (P : Pools N) (k : Kernel N) (w : Fin N) : Op N → Prop
  | .ioctl vc perm _ (.vtReldisp arg mem) =>
    k.live vc ∧ (k.con vc).displayFg = w ∧ perm = true ∧ (k.con vc).vtMode.mode = .process ∧
      0 ≤ (k.con vc).vtNewvt ∧ arg ≠ 0 ∧
      match k.findVc P (k.con vc).vtNewvt.toNat with
      | some q => q ≠ (k.vt w).fgConsole
      | none => mem = true ∧ (k.con vc).vtNewvt.toNat < maxNrConsoles
  | .ioctl vc perm _ (.vtActivate arg mem) =>
    k.live vc ∧ perm = true ∧ arg ≠ 0 ∧ arg ≤ maxNrConsoles ∧ k.findVc P (arg - 1) = none ∧
      Allocates P w (arg - 1) mem
  | .ttyOpen n mem =>
    (∀ q, k.findVc P n = some q → (k.con q).vcTty = none) ∧ Allocates P w n mem
  | _ => False

/-! ### The foreground after each function -/

namespace Kernel

variable {k : Kernel N}

theorem setConsole_fgConsole (v w : Fin N) (tmp : Option Nat) :
    ((k.setConsole v tmp).vt w).fgConsole = (k.vt w).fgConsole := by
  cases tmp with
  | none => rfl
  | some p =>
    unfold setConsole
    dsimp only
    rw [updVt_vt]
    split_ifs with hw
    · rw [hw]; rfl
    · rfl

theorem completeChangeConsole_fgConsole (new old : Nat) (w : Fin N)
    (hold : old = (k.vt (k.con new).displayFg).fgConsole) :
    ((k.completeChangeConsole new old).vt w).fgConsole =
      if w = (k.con new).displayFg then new else (k.vt w).fgConsole := by
  have hvt : ((k.completeChangeConsole new old).vt w).fgConsole =
      if w = (k.con new).displayFg then (if old ≠ new then new else (k.vt w).fgConsole)
      else (k.vt w).fgConsole := by
    obtain ⟨s, hs⟩ := k.completeChangeConsole_eq new old
    have hswitched : ((k.switched new old s).vt w).fgConsole =
        if w = (k.con new).displayFg then (if old ≠ new then new else (k.vt w).fgConsole)
        else (k.vt w).fgConsole := by
      simp only [switched, Function.update_apply]
      split_ifs with hw
      · rfl
      · rw [← hw]
      · rfl
    rw [hs]
    split_ifs at hswitched ⊢ <;> exact hswitched
  rw [hvt]
  by_cases hw : w = (k.con new).displayFg
  · rw [if_pos hw, if_pos hw]
    by_cases heq : old = new
    · rw [if_neg (not_not.mpr heq), hw, ← hold, heq]
    · rw [if_pos heq]
  · rw [if_neg hw, if_neg hw]

theorem changeConsole_fgConsole {v w : Fin N} {new : Nat} (hnew : (k.con new).displayFg = v)
    (hw : w ≠ v) : ((k.changeConsole new (k.vt v).fgConsole).vt w).fgConsole =
      (k.vt w).fgConsole := by
  have hauto : ∀ k' : Kernel N, k'.vt = k.vt → (k'.con new).displayFg = v →
      ((k'.changeConsoleAuto new (k.vt v).fgConsole).vt w).fgConsole = (k.vt w).fgConsole := by
    intro k' hvt hdisp
    unfold changeConsoleAuto
    split_ifs
    · rw [hvt]
    · rw [completeChangeConsole_fgConsole _ _ _ (by rw [hdisp, hvt]), hdisp, if_neg hw, hvt]
  unfold changeConsole
  dsimp only
  split_ifs
  · simp only [awaitRelease, updCon_vt, updVt_vt]
    split_ifs with hv
    · rw [hv]
    · rfl
  · exact hauto _ rfl ((resetVc_displayFg _ new).trans hnew)
  · exact hauto k rfl hnew

/-- **`vt_callback` leaves the foreground of a locked VT alone.** -/
theorem vtCallback_fgConsole (h : Consistent P k) (v w : Fin N)
    (hlock : (k.vt w).vtDontSwitch = true) :
    ((k.vtCallback v).vt w).fgConsole = (k.vt w).fgConsole := by
  unfold vtCallback
  split_ifs
  · rfl
  · change (((k.acquireConsoleSem.switchToWanted v)).vt w).fgConsole = _
    unfold switchToWanted
    dsimp only
    split_ifs with hswitch
    · have hw : w ≠ v := by
        rintro rfl
        have hopen : (k.vt w).vtDontSwitch = false := hswitch.2
        rw [hlock] at hopen
        cases hopen
      exact changeConsole_fgConsole
        (k := k.acquireConsoleSem.hand v (some (k.vt v).wantVc)) (h.want v).2 hw
    · rfl

theorem vcAllocate_fgConsole (mem : Bool) (n : Nat) (w : Fin N) :
    ((k.vcAllocate P mem n).2.vt w).fgConsole =
      if mem = true ∧ n < maxNrConsoles ∧ P.firstVc w = n then k.next else (k.vt w).fgConsole := by
  have hpool : P.firstVc w = n → poolOf P n = some w := fun heq =>
    poolOf_eq_some.mpr ⟨heq.le, by have := P.count_pos w; omega⟩
  unfold vcAllocate
  by_cases hn : n ≥ maxNrConsoles
  · rw [if_pos hn, if_neg (fun hc => absurd hc.2.1 (Nat.not_lt_of_le hn))]
  · rw [if_neg hn]
    cases hv : poolOf P n with
    | none =>
      rw [if_neg]
      intro hc
      rw [hpool hc.2.2] at hv
      cases hv
    | some v =>
      cases mem with
      | false => simp
      | true =>
        simp only [if_true, true_and, Nat.lt_of_not_le hn]
        rw [install_vt]
        by_cases hw : w = v
        · subst hw
          simp
        · rw [if_neg hw, if_neg]
          intro hc
          rw [hpool hc] at hv
          exact hw (Option.some.inj hv)

theorem releaseDisplay_fgConsole (h : Consistent P k) {vc : Nat} (hvc : vc < k.next)
    (hnewvt : 0 ≤ (k.con vc).vtNewvt) (mem : Bool) (w : Fin N) :
    ((k.releaseDisplay P vc mem).2.vt w).fgConsole =
      if (k.con vc).displayFg = w then
        match k.findVc P (k.con vc).vtNewvt.toNat with
        | some q => q
        | none =>
          if mem = true ∧ (k.con vc).vtNewvt.toNat < maxNrConsoles then k.next
          else (k.vt w).fgConsole
      else (k.vt w).fgConsole := by
  rcases k.releaseDisplay_cases h hvc hnewvt mem with
    ⟨k', q, hrel, hq, hdisp, heq⟩ | ⟨hfind, hidle, heq⟩
  · -- The switch brings `q` to the front, whatever was there.
    have hswitch : ((k.releaseDisplay P vc mem).2.vt w).fgConsole =
        if (k.con vc).displayFg = w then q else (k'.vt w).fgConsole := by
      rw [heq]
      have hq' : ((k'.clearNewvt vc).con q).displayFg = (k.con vc).displayFg :=
        (k'.clearNewvt_displayFg vc q).trans hq.2
      refine (completeChangeConsole_fgConsole _ _ _ (by rw [hq']; rfl)).trans ?_
      rw [hq']
      simp only [eq_comm (a := w)]
      rfl
    rw [hswitch]
    cases hrel with
    | found hfind =>
      rw [hfind]
      rfl
    | allocated hfind hmem hlt =>
      rw [hfind]
      by_cases hw : (k.con vc).displayFg = w
      · rw [if_pos hw, if_pos hw]
        exact (if_pos ⟨hmem, hlt⟩).symm
      · rw [if_neg hw, if_neg hw, install_vt, if_neg (Ne.symm hw)]
        rfl
  · rw [heq, hfind]
    dsimp only
    rw [if_neg hidle, ite_self]
    rfl

theorem vtActivate_fgConsole (vc : Nat) (arg : Nat) (mem : Bool) (w : Fin N)
    (hperm : arg ≠ 0) (harg : arg ≤ maxNrConsoles) :
    ((k.vtActivate P vc true arg mem).2.vt w).fgConsole =
      if k.findVc P (arg - 1) = none then ((k.vcAllocate P mem (arg - 1)).2.vt w).fgConsole
      else (k.vt w).fgConsole := by
  have hskip : ¬ (arg = 0 ∨ arg > maxNrConsoles) := by omega
  have hacq : ((k.acquireConsoleSem.vcAllocate P mem (arg - 1)).2.vt w).fgConsole =
      ((k.vcAllocate P mem (arg - 1)).2.vt w).fgConsole := by
    rw [vcAllocate_fgConsole, vcAllocate_fgConsole]; rfl
  unfold vtActivate
  rw [if_neg (by decide), if_neg hskip]
  cases hfind : k.findVc P (arg - 1) with
  | some q =>
    rw [if_neg (Option.some_ne_none q)]
    dsimp only
    split_ifs
    · rfl
    · dsimp only
      exact setConsole_fgConsole _ w _
  | none =>
    rw [if_pos rfl, ← hacq]
    dsimp only
    cases hq : (k.acquireConsoleSem.vcAllocate P mem (arg - 1)).1 with
    | none => rfl
    | some q =>
      dsimp only
      split_ifs
      · rfl
      · dsimp only
        exact setConsole_fgConsole _ w _

theorem vtOpenFirst_fgConsole (n : Nat) (mem : Bool) (w : Fin N) :
    ((k.vtOpenFirst P n mem).vt w).fgConsole = ((k.vcAllocate P mem n).2.vt w).fgConsole := by
  have hacq : ((k.acquireConsoleSem.vcAllocate P mem n).2.vt w).fgConsole =
      ((k.vcAllocate P mem n).2.vt w).fgConsole := by
    rw [vcAllocate_fgConsole, vcAllocate_fgConsole]; rfl
  rw [← hacq]
  unfold vtOpenFirst
  rcases hr : k.acquireConsoleSem.vcAllocate P mem n with ⟨r, k'⟩
  cases r <;> rfl

theorem vcDisallocate_fgConsole (p : Nat) (w : Fin N) :
    ((k.vcDisallocate P p).vt w).fgConsole = (k.vt w).fgConsole := by
  unfold vcDisallocate
  dsimp only
  split_ifs
  · dsimp only
    rw [updVt_vt]
    split_ifs with hw
    · rw [hw]
    · rfl
  · rfl

theorem vtDisallocate_fgConsole (vc arg : Nat) (w : Fin N) :
    ((k.vtDisallocate P vc arg).2.vt w).fgConsole = (k.vt w).fgConsole := by
  have hround : ∀ (k : Kernel N) (i : Nat),
      ((disallocateUnused P vc k i).vt w).fgConsole = (k.vt w).fgConsole := by
    intro k i
    unfold disallocateUnused
    split
    · split_ifs
      · rfl
      · exact vcDisallocate_fgConsole _ w
    · rfl
  have hloop : ∀ (l : List Nat) (k : Kernel N),
      ((l.foldl (disallocateUnused P vc) k).vt w).fgConsole = (k.vt w).fgConsole := by
    intro l
    induction l with
    | nil => intro k; rfl
    | cons i l ih => intro k; exact (ih _).trans (hround k i)
  unfold vtDisallocate
  split_ifs
  · rfl
  · exact hloop _ k.acquireConsoleSem
  · split
    · rfl
    · split_ifs
      · rfl
      · exact vcDisallocate_fgConsole (k := k.acquireConsoleSem) _ w

theorem vtReldisp_pending {vc arg : Nat} (hmode : (k.con vc).vtMode.mode = .process)
    (hnewvt : 0 ≤ (k.con vc).vtNewvt) (harg : arg ≠ 0) (mem : Bool) :
    k.vtReldisp P vc true arg mem = k.releaseDisplay P vc mem := by
  unfold vtReldisp
  rw [if_neg (by decide), if_neg (not_not_intro hmode), if_pos hnewvt, if_neg harg]

theorem vtReldisp_idle {vc arg : Nat} {perm : Bool} (hpend : ¬(perm = true ∧
    (k.con vc).vtMode.mode = .process ∧ 0 ≤ (k.con vc).vtNewvt ∧ arg ≠ 0)) (mem : Bool) :
    (k.vtReldisp P vc perm arg mem).2.vt = k.vt ∧
      (k.vtReldisp P vc perm arg mem).2.sem = k.sem := by
  unfold vtReldisp
  split_ifs with hperm hmode hnewvt harg
  · exact ⟨rfl, rfl⟩
  · exact ⟨rfl, rfl⟩
  · exact ⟨rfl, rfl⟩
  · exact absurd ⟨by simpa using hperm, not_not.mp hmode, hnewvt, harg⟩ hpend
  · exact ⟨rfl, rfl⟩
  · exact ⟨rfl, rfl⟩

theorem dead_of_tty {op : Op N} (htty : ¬ ∀ vc ∈ op.tty, k.live vc) {vc : Nat}
    (hvc : op.tty = some vc) : ¬ k.live vc := by
  refine fun hlive => htty fun q hq => ?_
  rw [hvc] at hq
  rw [← Option.some.inj hq]
  exact hlive

end Kernel

/-! ### Steps and runs -/

/-- **One operation on a locked VT**: it keeps the foreground if and only if it is
not one of those that switch without a look at the lock. -/
theorem exec_foreground {k : Kernel N} (h : Consistent P k) (op : Op N)
    (htty : ∀ vc ∈ op.tty, k.live vc) (w : Fin N) (hlock : (k.vt w).vtDontSwitch = true) :
    (k.exec P op).foreground w = k.foreground w ↔ ¬ k.SwitchesAnyway P w op := by
  have hnew : k.next ≠ (k.vt w).fgConsole := Nat.ne_of_gt (h.fg w).1
  by_cases hstill : ¬ op.MaySwitch ∧ ¬ op.Disallocates
  · -- Neither a switch nor a new console.
    have hopen : ¬ op.Reopens P k := by
      cases op with
      | ttyOpen n mem => exact absurd trivial hstill.1
      | _ => exact id
    have hpath : Path P false k (k.exec P op) :=
      exec_path h op (fun hm => absurd hm hstill.1) htty hstill.2 hopen
    refine iff_of_true (hpath.fgConsole w) ?_
    cases op with
    | ttyOpen n mem => exact absurd trivial hstill.1
    | ioctl vc perm cap cmd =>
      cases cmd with
      | vtActivate arg mem => exact absurd trivial hstill.1
      | vtReldisp arg mem => exact absurd trivial hstill.1
      | _ => exact id
    | _ => exact id
  · unfold Kernel.foreground
    cases op with
    | work v => exact iff_of_true (Kernel.vtCallback_fgConsole h v w hlock) id
    | ttyOpen n mem =>
      have hfirst : ((k.vtOpenFirst P n mem).vt w).fgConsole = (k.vt w).fgConsole ↔
          ¬ Allocates P w n mem := by
        rw [Kernel.vtOpenFirst_fgConsole, Kernel.vcAllocate_fgConsole]
        unfold Allocates
        split_ifs with halloc
        · simp [hnew, halloc]
        · simp [halloc]
      change ((k.vtOpen P n mem).vt w).fgConsole = _ ↔ ¬ (_ ∧ Allocates P w n mem)
      unfold Kernel.vtOpen
      cases hfind : k.findVc P n with
      | none => simpa using hfirst
      | some q =>
        cases htty : (k.con q).vcTty with
        | none => simpa [htty] using hfirst
        | some c => simp [htty, Kernel.countUser]
    | ioctl vc perm cap cmd =>
      have hvc : k.live vc := htty vc rfl
      cases cmd with
      | vtDisallocate arg => exact iff_of_true (Kernel.vtDisallocate_fgConsole vc arg w) id
      | vtActivate arg mem =>
        change ((k.vtActivate P vc perm arg mem).2.vt w).fgConsole = _ ↔ _
        by_cases hskip : perm = true ∧ arg ≠ 0 ∧ arg ≤ maxNrConsoles
        · obtain ⟨rfl, hzero, hmax⟩ := hskip
          rw [Kernel.vtActivate_fgConsole vc arg mem w hzero hmax, Kernel.vcAllocate_fgConsole]
          unfold Kernel.SwitchesAnyway Allocates
          by_cases hfind : k.findVc P (arg - 1) = none
          · rw [if_pos hfind]
            split_ifs with halloc
            · simp [hnew, hvc, hzero, hmax, hfind, halloc]
            · simp [halloc]
          · simp [hfind]
        · have hidle : (k.vtActivate P vc perm arg mem).2 = k := by
            unfold Kernel.vtActivate
            by_cases hperm : perm = true
            · have hbad : arg = 0 ∨ arg > maxNrConsoles := by
                by_contra hgood
                exact hskip ⟨hperm, by omega, by omega⟩
              rw [if_neg (by simp [hperm]), if_pos hbad]
            · rw [if_pos (by simpa using hperm)]
          rw [hidle]
          exact iff_of_true rfl fun hs => hskip ⟨hs.2.1, hs.2.2.1, hs.2.2.2.1⟩
      | vtReldisp arg mem =>
        change ((k.vtReldisp P vc perm arg mem).2.vt w).fgConsole = _ ↔ _
        by_cases hpend : perm = true ∧ (k.con vc).vtMode.mode = .process ∧
            0 ≤ (k.con vc).vtNewvt ∧ arg ≠ 0
        · obtain ⟨rfl, hmode, hnewvt, harg⟩ := hpend
          rw [Kernel.vtReldisp_pending hmode hnewvt harg, Kernel.releaseDisplay_fgConsole h (h.live vc hvc) hnewvt]
          unfold Kernel.SwitchesAnyway
          by_cases hw : (k.con vc).displayFg = w
          · rw [if_pos hw]
            cases hfind : k.findVc P (k.con vc).vtNewvt.toNat with
            | some q => simp [hvc, hw, hmode, hnewvt, harg, hfind]
            | none =>
              by_cases halloc : mem = true ∧ (k.con vc).vtNewvt.toNat < maxNrConsoles
              · simp [-Int.toNat_lt', hvc, hw, hmode, hnewvt, harg, hnew, halloc, hfind]
              · simp only [halloc, hfind, if_false, and_false, not_false_eq_true]
          · simp [hw]
        · have hidle : ((k.vtReldisp P vc perm arg mem).2.vt w).fgConsole =
              (k.vt w).fgConsole := by
            rw [(Kernel.vtReldisp_idle hpend mem).1]
          exact iff_of_true hidle fun hs =>
            hpend ⟨hs.2.2.1, hs.2.2.2.1, hs.2.2.2.2.1, hs.2.2.2.2.2.1⟩
      | _ => exact absurd ⟨id, id⟩ hstill
    | _ => exact absurd ⟨id, id⟩ hstill

theorem step_foreground {k : Kernel N} (h : Consistent P k) (op : Op N) (w : Fin N)
    (hlock : (k.vt w).vtDontSwitch = true) :
    (k.step P op).foreground w = k.foreground w ↔ ¬ k.SwitchesAnyway P w op := by
  have hfresh : Consistent P k.fresh := h.quiet rfl rfl rfl rfl
  unfold Kernel.step
  split_ifs with htty
  · exact exec_foreground hfresh op htty w hlock
  · refine iff_of_true rfl ?_
    have hdead : ∀ vc, op.tty = some vc → ¬ k.live vc := fun _ => Kernel.dead_of_tty htty
    cases op with
    | ioctl vc perm cap cmd =>
      cases cmd with
      | vtActivate arg mem => exact fun hs => hdead vc rfl hs.1
      | vtReldisp arg mem => exact fun hs => hdead vc rfl hs.1
      | _ => exact id
    | ttyOpen n mem => exact absurd (fun _ hq => by cases hq) htty
    | _ => exact id

/-- **The lock is honoured along a run if and only if no operation of the run
switches a locked VT without a look at the lock.** -/
theorem lock_honoured_iff (P : Pools N) (k : Kernel N) (h : Consistent P k) (ops : List (Op N)) :
    Lib.Along (Kernel.step P)
        (fun k op => ∀ w, (k.vt w).vtDontSwitch = true →
          (k.step P op).foreground w = k.foreground w) k ops ↔
      Lib.Along (Kernel.step P)
        (fun k op => ∀ w, (k.vt w).vtDontSwitch = true → ¬ k.SwitchesAnyway P w op) k ops := by
  refine Lib.along_congr (I := Consistent P) (fun _ op hk _ => hk.step op) ?_ h
  intro k op hk
  exact forall_congr' fun w => imp_congr_right fun hlock => step_foreground hk op w hlock

/-- A run in which the lock is honoured: the display is locked, the second
console is opened and asked for, and the callback runs. -/
theorem lock_honoured_iff_onePool :
    let ops : List (Op 1) :=
      [.ioctl 0 true true .vtLockswitch, .ttyOpen 1 true, .ioctl 0 true true (.vtActivate 2 true),
        .work 0]
    Lib.Along (Kernel.step onePool)
        (fun k op => ∀ w, (k.vt w).vtDontSwitch = true →
          (k.step onePool op).foreground w = k.foreground w) (Kernel.boot onePool) ops ↔
      Lib.Along (Kernel.step onePool)
        (fun k op => ∀ w, (k.vt w).vtDontSwitch = true → ¬ k.SwitchesAnyway onePool w op)
        (Kernel.boot onePool) ops :=
  lock_honoured_iff onePool (Kernel.boot onePool) (boot_consistent onePool)
    [.ioctl 0 true true .vtLockswitch, .ttyOpen 1 true, .ioctl 0 true true (.vtActivate 2 true),
      .work 0]

/-- **A switch that was pending when the lock was taken.**  Console 0 is put
under process control, console 1 is asked for and the release signal is sent;
then the display is locked, and `VT_RELDISP` switches all the same. -/
theorem locked_display_switched :
    let before : List (Op 1) :=
      [.processes (fun _ _ => true), .ttyOpen 1 true,
        .ioctl 0 true true (.vtSetmode (some ⟨1, 0, 10, 12, 0⟩) 100),
        .ioctl 0 true true (.vtActivate 2 true), .work 0, .ioctl 0 true true .vtLockswitch]
    let k := Lib.run (Kernel.step onePool) (Kernel.boot onePool) before
    (k.vt 0).vtDontSwitch = true ∧ k.foreground 0 = 0 ∧
      (k.step onePool (.ioctl 0 true true (.vtReldisp 1 true))).foreground 0 = 1 := by
  decide +kernel

end LinuxConsole.Switch

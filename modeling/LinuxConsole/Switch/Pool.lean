import LinuxConsole.Switch.Disallocate

/-!
# Pools, pointers and ttys

Every VT has a pool of slots for its consoles and three pointers into it.  They
agree when each of `fg_console`, `last_console` and `want_vc` is the console in
the slot of its own number (`Pooled`).

Allocation has three callers.  `VT_ACTIVATE` and `VT_RELDISP` allocate only when
`find_vc` finds nothing; `vt_open` allocates whenever nobody had the tty open,
and so replaces a console that a close had left in its slot.  And whoever
allocates the first console of a pool makes it the foreground console.
**`pool_consistent_iff`** says that these two and the freeing of a console that
is pointed to are all that goes wrong.
-/

namespace LinuxConsole.Switch

variable {N : Nat} {P : Pools N}

/-- The operation is one that completes switches. -/
def Op.Completes : Op N → Prop
  | .work _ | .ioctl _ _ _ (.vtReldisp _ _) => True
  | _ => False

namespace Kernel

/-- The console is the one in the slot for its number. -/
def InSlot (P : Pools N) (k : Kernel N) (v : Fin N) (p : Nat) : Prop :=
  (k.vt v).vcCons ((k.con p).vcNum - P.firstVc v) = some p

/-- The pool and the three pointers of every VT agree. -/
def Pooled (P : Pools N) (k : Kernel N) : Prop :=
  ∀ v, k.InSlot P v (k.vt v).fgConsole ∧ k.InSlot P v (k.vt v).lastConsole ∧
    k.InSlot P v (k.vt v).wantVc

/-- The console `q` has one more user and nothing else has changed. -/
def AttachedTo (k k' : Kernel N) (q : Nat) : Prop :=
  k'.con = Function.update k.con q
      { k.con q with vcTty := some ((k.con q).vcTty.getD 0 + 1) } ∧
    k'.vt = k.vt ∧ k'.live = k.live ∧ k'.screen = k.screen

/-- Opening a tty whose console is allocated attaches to that console. -/
def Attaches (P : Pools N) (k k' : Kernel N) : Op N → Prop
  | .ttyOpen n _ => ∀ q, k.findVc P n = some q → k.AttachedTo k' q
  | _ => True

/-- The foreground of every VT stays what it is, or a switch is completed and the
console that was left is now the last one. -/
def SwitchedOnly (k k' : Kernel N) (op : Op N) : Prop :=
  ∀ v, (k'.vt v).fgConsole ≠ (k.vt v).fgConsole →
    op.Completes ∧ (k'.vt v).lastConsole = (k.vt v).fgConsole

/-- What an operation needs of the state: no tty is opened for the first time
while its console is allocated, no first console of a pool is allocated, and no
console is freed that a VT points to. -/
def PoolSafe (P : Pools N) (k : Kernel N) : Op N → Prop
  | .ttyOpen n mem =>
    (∀ q, k.findVc P n = some q → (k.con q).vcTty ≠ none) ∧
      (k.findVc P n = none → ∀ w, ¬ Allocates P w n mem)
  | .ioctl vc perm _ (.vtActivate arg mem) =>
    k.live vc → perm = true → arg ≠ 0 → arg ≤ maxNrConsoles → k.findVc P (arg - 1) = none →
      ∀ w, ¬ Allocates P w (arg - 1) mem
  | .ioctl vc perm _ (.vtReldisp arg mem) =>
    k.live vc → perm = true → (k.con vc).vtMode.mode = .process → 0 ≤ (k.con vc).vtNewvt →
      arg ≠ 0 → k.findVc P (k.con vc).vtNewvt.toNat = none →
        ¬ Allocates P (k.con vc).displayFg (k.con vc).vtNewvt.toNat mem
  | .ioctl vc _ _ (.vtDisallocate arg) =>
    k.live vc → ∀ q, k.Freed P vc arg q → ∀ v,
      q ≠ (k.vt v).fgConsole ∧ q ≠ (k.vt v).lastConsole ∧ q ≠ (k.vt v).wantVc
  | _ => True

variable {k : Kernel N}

/-! ### Pointers into the pool -/

theorem Holds.inSlot (h : Consistent P k) (hpool : k.Pooled P) {v : Fin N} {p : Nat}
    (hp : k.Holds v p) : k.InSlot P v p := by
  rcases hp with ⟨i, hi⟩ | rfl | rfl
  · obtain ⟨-, -, hnum⟩ := h.slot v i p hi
    unfold InSlot
    rw [hnum, Nat.add_sub_cancel_left, hi]
  · exact (hpool v).2.1
  · exact (hpool v).2.2

theorem Pooled.of_eq {k' : Kernel N} (hslot : ∀ v, (k'.vt v).vcCons = (k.vt v).vcCons)
    (hnum : ∀ p, (k'.con p).vcNum = (k.con p).vcNum)
    (hptr : ∀ v, k.InSlot P v (k'.vt v).fgConsole ∧ k.InSlot P v (k'.vt v).lastConsole ∧
      k.InSlot P v (k'.vt v).wantVc) : k'.Pooled P := by
  have hin : ∀ v p, k.InSlot P v p → k'.InSlot P v p := by
    intro v p hp
    unfold InSlot
    rw [hslot, hnum]
    exact hp
  exact fun v => ⟨hin v _ (hptr v).1, hin v _ (hptr v).2.1, hin v _ (hptr v).2.2⟩

theorem Pooled.updVt (hpool : k.Pooled P) {v : Fin N} {f : Vt → Vt}
    (hslot : (f (k.vt v)).vcCons = (k.vt v).vcCons)
    (hfg : k.InSlot P v (f (k.vt v)).fgConsole) (hlast : k.InSlot P v (f (k.vt v)).lastConsole)
    (hwant : k.InSlot P v (f (k.vt v)).wantVc) : (k.updVt v f).Pooled P := by
  refine Pooled.of_eq (k := k) ?_ (fun _ => rfl) ?_
  · intro w
    rw [updVt_vt]
    split_ifs with hw
    · rw [hslot, hw]
    · rfl
  · intro w
    rw [updVt_vt]
    split_ifs with hw
    · subst hw
      exact ⟨hfg, hlast, hwant⟩
    · exact hpool w

theorem Pooled.install (h : Consistent P k) (hpool : k.Pooled P) {v : Fin N} {n : Nat}
    (hn : P.Has v n) (hfree : k.findVc P n = none) : (k.install P v n).Pooled P := by
  have hnew : (k.install P v n).InSlot P v k.next := by
    unfold InSlot
    rw [install_con, if_pos rfl, install_vt, if_pos rfl]
    exact Function.update_self ..
  have hold : ∀ {w p}, k.Belongs w p → k.InSlot P w p → (k.install P v n).InSlot P w p := by
    intro w p hbelongs hp
    unfold InSlot at hp ⊢
    rw [install_con, if_neg (Nat.ne_of_lt hbelongs.1), install_vt]
    by_cases hw : w = v
    · subst hw
      rw [if_pos rfl]
      have hne : (k.con p).vcNum - P.firstVc w ≠ n - P.firstVc w := by
        intro heq
        rw [findVc_of_has hn, ← heq, hp] at hfree
        cases hfree
      dsimp only
      rw [Function.update_of_ne hne]
      exact hp
    · rw [if_neg hw]
      exact hp
  intro w
  obtain ⟨hfg, hlast, hwant⟩ := hpool w
  have hfg' := hold (h.fg w) hfg
  have hlast' := hold (h.last w) hlast
  have hwant' := hold (h.want w) hwant
  by_cases hw : w = v
  · subst hw
    by_cases hfirst : P.firstVc w = n
    · have hvt : ((k.install P w n).vt w).fgConsole = k.next ∧
          ((k.install P w n).vt w).lastConsole = k.next ∧
          ((k.install P w n).vt w).wantVc = k.next := by
        rw [install_vt, if_pos rfl]
        exact ⟨if_pos hfirst, if_pos hfirst, if_pos hfirst⟩
      rw [hvt.1, hvt.2.1, hvt.2.2]
      exact ⟨hnew, hnew, hnew⟩
    · have hvt : ((k.install P w n).vt w).fgConsole = (k.vt w).fgConsole ∧
          ((k.install P w n).vt w).lastConsole = (k.vt w).lastConsole ∧
          ((k.install P w n).vt w).wantVc = (k.vt w).wantVc := by
        rw [install_vt, if_pos rfl]
        exact ⟨if_neg hfirst, if_neg hfirst, if_neg hfirst⟩
      rw [hvt.1, hvt.2.1, hvt.2.2]
      exact ⟨hfg', hlast', hwant'⟩
  · have hvt : (k.install P v n).vt w = k.vt w := by rw [install_vt, if_neg hw]
    rw [hvt]
    exact ⟨hfg', hlast', hwant'⟩

/-- **Every elementary change keeps pools and pointers in agreement.** -/
theorem Pooled.move {b : Bool} {k' : Kernel N} (h : Consistent P k) (hpool : k.Pooled P)
    (hm : Move P b k k') : k'.Pooled P := by
  cases hm with
  | quiet hcon _ _ hvt _ _ =>
    refine Pooled.of_eq (k := k) (fun v => by rw [hvt]) (fun p => by rw [hcon]) fun v => ?_
    rw [hvt]
    exact hpool v
  | updCon p f hf =>
    refine Pooled.of_eq (k := k) (fun _ => rfl) ?_ hpool
    intro q
    rw [updCon_con]
    split_ifs with hq
    · rw [hf.1, hq]
    · rfl
  | lock v l => exact hpool.updVt rfl (hpool v).1 (hpool v).2.1 (hpool v).2.2
  | want v p hp => exact hpool.updVt rfl (hpool v).1 (hpool v).2.1 (hp.inSlot h hpool)
  | switch v p _ hp => exact hpool.updVt rfl (hp.inSlot h hpool) (hpool v).1 (hpool v).2.2
  | awaitRelease v p _ _ =>
    have hnoted : (k.updVt (k.con (k.vt v).fgConsole).displayFg fun t =>
        { t with releasedTo := some p }).Pooled P :=
      hpool.updVt rfl (hpool _).1 (hpool _).2.1 (hpool _).2.2
    refine Pooled.of_eq (k := k.updVt (k.con (k.vt v).fgConsole).displayFg fun t =>
      { t with releasedTo := some p }) (fun _ => rfl) ?_ hnoted
    intro q
    simp only [Kernel.awaitRelease, updCon_con, updVt_con]
    split_ifs with hq
    · rw [hq]
    · rfl
  | install v n _ hn hfree => exact Pooled.install h hpool hn hfree
  | select v => exact hpool
  | vcsOpen f v i p _ => exact hpool
  | vcsClose f => exact hpool

theorem Pooled.path {b : Bool} {k' : Kernel N} (h : Consistent P k) (hpool : k.Pooled P)
    (hp : Path P b k k') : k'.Pooled P :=
  (hp.keeps (I := fun k => Consistent P k ∧ k.Pooled P)
    (fun _ _ hk hm => ⟨hk.1.move hm, hk.2.move hk.1 hm⟩) ⟨h, hpool⟩).2

theorem free_pooled_iff (hpool : k.Pooled P) (s : Nat → Bool) :
    (k.free s).Pooled P ↔ ∀ q, s q = true → ∀ v,
      q ≠ (k.vt v).fgConsole ∧ q ≠ (k.vt v).lastConsole ∧ q ≠ (k.vt v).wantVc := by
  have hslot : ∀ v p, k.InSlot P v p → ((k.free s).InSlot P v p ↔ ¬ s p = true) := by
    intro v p hp
    unfold InSlot at hp ⊢
    simp only [free, hp]
    cases hs : s p with
    | true => simp [hs]
    | false => simp [hs]
  have hptr : ∀ v, ((k.free s).InSlot P v (k.vt v).fgConsole ∧
      (k.free s).InSlot P v (k.vt v).lastConsole ∧ (k.free s).InSlot P v (k.vt v).wantVc) ↔
        ∀ q, s q = true →
          q ≠ (k.vt v).fgConsole ∧ q ≠ (k.vt v).lastConsole ∧ q ≠ (k.vt v).wantVc := by
    intro v
    rw [hslot v _ (hpool v).1, hslot v _ (hpool v).2.1, hslot v _ (hpool v).2.2]
    constructor
    · rintro ⟨hfg, hlast, hwant⟩ q hq
      exact ⟨fun e => hfg (e ▸ hq), fun e => hlast (e ▸ hq), fun e => hwant (e ▸ hq)⟩
    · intro hall
      exact ⟨fun hs => (hall _ hs).1 rfl, fun hs => (hall _ hs).2.1 rfl,
        fun hs => (hall _ hs).2.2 rfl⟩
  constructor
  · intro hfree q hq v
    exact (hptr v).mp (hfree v) q hq
  · intro hall v
    exact (hptr v).mpr fun q hq => hall q hq v

/-! ### The console that a switch leaves -/

theorem completeChangeConsole_lastConsole (new old : Nat) (w : Fin N) :
    ((k.completeChangeConsole new old).vt w).lastConsole =
      if w = (k.con new).displayFg then old else (k.vt w).lastConsole := by
  obtain ⟨s, hs⟩ := k.completeChangeConsole_eq new old
  have hswitched : ((k.switched new old s).vt w).lastConsole =
      if w = (k.con new).displayFg then old else (k.vt w).lastConsole := by
    simp only [switched, Function.update_apply]
    split_ifs <;> rfl
  rw [hs]
  split_ifs at hswitched ⊢ <;> exact hswitched

theorem completeChangeConsole_switched {v : Fin N} {new : Nat} (hnew : (k.con new).displayFg = v)
    (w : Fin N) :
    ((k.completeChangeConsole new (k.vt v).fgConsole).vt w).fgConsole = (k.vt w).fgConsole ∨
      ((k.completeChangeConsole new (k.vt v).fgConsole).vt w).lastConsole =
        (k.vt w).fgConsole := by
  rw [completeChangeConsole_fgConsole _ _ _ (by rw [hnew]), completeChangeConsole_lastConsole, hnew]
  by_cases hw : w = v
  · rw [if_pos hw, if_pos hw, hw]
    exact .inr rfl
  · rw [if_neg hw]
    exact .inl rfl

theorem changeConsole_switched {v : Fin N} {new : Nat} (hnew : (k.con new).displayFg = v)
    (w : Fin N) :
    ((k.changeConsole new (k.vt v).fgConsole).vt w).fgConsole = (k.vt w).fgConsole ∨
      ((k.changeConsole new (k.vt v).fgConsole).vt w).lastConsole = (k.vt w).fgConsole := by
  have hauto : ∀ k' : Kernel N, k'.vt = k.vt → (k'.con new).displayFg = v →
      ((k'.changeConsoleAuto new (k.vt v).fgConsole).vt w).fgConsole = (k.vt w).fgConsole ∨
        ((k'.changeConsoleAuto new (k.vt v).fgConsole).vt w).lastConsole =
          (k.vt w).fgConsole := by
    intro k' hvt hdisp
    unfold changeConsoleAuto
    split_ifs
    · rw [hvt]; exact .inl rfl
    · have hdone := k'.completeChangeConsole_switched hdisp w
      rw [hvt] at hdone
      exact hdone
  unfold changeConsole
  dsimp only
  split_ifs
  · refine .inl ?_
    simp only [awaitRelease, updCon_vt, updVt_vt]
    split_ifs with hv
    · rw [hv]
    · rfl
  · exact hauto _ rfl ((resetVc_displayFg _ new).trans hnew)
  · exact hauto k rfl hnew

theorem vtCallback_switched (h : Consistent P k) (v w : Fin N) :
    ((k.vtCallback v).vt w).fgConsole = (k.vt w).fgConsole ∨
      ((k.vtCallback v).vt w).lastConsole = (k.vt w).fgConsole := by
  unfold vtCallback
  split_ifs
  · exact .inl rfl
  · change ((k.acquireConsoleSem.switchToWanted v).vt w).fgConsole = _ ∨
      ((k.acquireConsoleSem.switchToWanted v).vt w).lastConsole = _
    unfold switchToWanted
    dsimp only
    split_ifs
    · exact changeConsole_switched (k := k.acquireConsoleSem.hand v (some (k.vt v).wantVc))
        (h.want v).2 w
    · exact .inl rfl

theorem releaseDisplay_switched (h : Consistent P k) {vc : Nat} (hvc : vc < k.next)
    (hnewvt : 0 ≤ (k.con vc).vtNewvt) (mem : Bool) :
    (∀ w, ((k.releaseDisplay P vc mem).2.vt w).fgConsole ≠ (k.vt w).fgConsole →
      ((k.releaseDisplay P vc mem).2.vt w).lastConsole = (k.vt w).fgConsole) ↔
    (k.findVc P (k.con vc).vtNewvt.toNat = none →
      ¬ Allocates P (k.con vc).displayFg (k.con vc).vtNewvt.toNat mem) := by
  rcases k.releaseDisplay_cases h hvc hnewvt mem with
    ⟨k', q, hrel, hq, hdisp, heq⟩ | ⟨hfind, hidle, heq⟩
  · have hdone := (k'.clearNewvt vc).completeChangeConsole_switched
      ((k'.clearNewvt_displayFg vc q).trans hq.2)
    cases hrel with
    | found hfind =>
      refine iff_of_true (fun w hne => ?_) fun hnone => ?_
      · rw [heq] at hne ⊢
        exact (hdone w).resolve_left hne
      · rw [hfind] at hnone
        cases hnone
    | allocated hfind hmem hlt =>
      by_cases hfirst : P.firstVc (k.con vc).displayFg = (k.con vc).vtNewvt.toNat
      · refine iff_of_false (fun hall => ?_) fun hcond => hcond hfind ⟨hmem, hlt, hfirst⟩
        -- The new console is in the foreground before the switch to it.
        have hold : k.next ≠ (k.vt (k.con vc).displayFg).fgConsole := Nat.ne_of_gt (h.fg _).1
        have hfg := releaseDisplay_fgConsole h hvc hnewvt mem (k.con vc).displayFg
        rw [if_pos rfl, hfind] at hfg
        have hfg' : ((k.releaseDisplay P vc mem).2.vt (k.con vc).displayFg).fgConsole = k.next :=
          hfg.trans (if_pos ⟨hmem, hlt⟩)
        have hlast := hall (k.con vc).displayFg (by rw [hfg']; exact hold)
        rw [heq] at hlast
        change (((_ : Kernel N).completeChangeConsole _ _).vt _).lastConsole = _ at hlast
        rw [completeChangeConsole_lastConsole, clearNewvt_displayFg, hq.2, if_pos rfl, install_vt,
          if_pos rfl, if_pos hfirst] at hlast
        exact hold hlast
      · have hsame : ∀ w, ((k.acquireConsoleSem.install P (k.con vc).displayFg
            (k.con vc).vtNewvt.toNat).vt w).fgConsole = (k.vt w).fgConsole := by
          intro w
          rw [install_vt]
          split_ifs with hw
          · rw [hw]; rfl
          · rfl
        refine iff_of_true (fun w hne => ?_) fun _ hall => hfirst hall.2.2
        have hdone' := hdone w
        change _ = ((k.acquireConsoleSem.install P (k.con vc).displayFg
            (k.con vc).vtNewvt.toNat).vt w).fgConsole ∨ _ =
          ((k.acquireConsoleSem.install P (k.con vc).displayFg
            (k.con vc).vtNewvt.toNat).vt w).fgConsole at hdone'
        rw [hsame] at hdone'
        rw [heq] at hne ⊢
        exact hdone'.resolve_left hne
  · refine iff_of_true (fun w hne => ?_) fun _ hall => hidle ⟨hall.1, hall.2.1⟩
    rw [heq] at hne
    exact absurd rfl hne

theorem vtReldisp_switched (h : Consistent P k) {vc : Nat} (hvc : k.live vc) (perm : Bool)
    (arg : Nat) (mem : Bool) :
    (∀ w, ((k.vtReldisp P vc perm arg mem).2.vt w).fgConsole ≠ (k.vt w).fgConsole →
      ((k.vtReldisp P vc perm arg mem).2.vt w).lastConsole = (k.vt w).fgConsole) ↔
    (perm = true → (k.con vc).vtMode.mode = .process → 0 ≤ (k.con vc).vtNewvt → arg ≠ 0 →
      k.findVc P (k.con vc).vtNewvt.toNat = none →
        ¬ Allocates P (k.con vc).displayFg (k.con vc).vtNewvt.toNat mem) := by
  by_cases hpend : perm = true ∧ (k.con vc).vtMode.mode = .process ∧
      0 ≤ (k.con vc).vtNewvt ∧ arg ≠ 0
  · obtain ⟨rfl, hmode, hnewvt, harg⟩ := hpend
    rw [vtReldisp_pending hmode hnewvt harg, releaseDisplay_switched h (h.live vc hvc) hnewvt]
    exact ⟨fun hno _ _ _ _ => hno, fun hno => hno rfl hmode hnewvt harg⟩
  · rw [(vtReldisp_idle hpend mem).1]
    exact iff_of_true (fun w hne => absurd rfl hne) fun hperm hmode hnewvt harg =>
      absurd ⟨hperm, hmode, hnewvt, harg⟩ hpend

theorem vcAllocate_keeps_foreground (h : Consistent P k) (mem : Bool) (n : Nat) :
    (∀ w, ((k.vcAllocate P mem n).2.vt w).fgConsole = (k.vt w).fgConsole) ↔
      ∀ w, ¬ Allocates P w n mem := by
  refine forall_congr' fun w => ?_
  have hnew : k.next ≠ (k.vt w).fgConsole := Nat.ne_of_gt (h.fg w).1
  rw [vcAllocate_fgConsole]
  unfold Allocates
  split_ifs with halloc
  · exact iff_of_false hnew fun hno => hno halloc
  · exact iff_of_true rfl halloc

theorem vtActivate_keeps_foreground (h : Consistent P k) (vc : Nat) (perm : Bool) (arg : Nat)
    (mem : Bool) :
    (∀ w, ((k.vtActivate P vc perm arg mem).2.vt w).fgConsole = (k.vt w).fgConsole) ↔
      (perm = true → arg ≠ 0 → arg ≤ maxNrConsoles → k.findVc P (arg - 1) = none →
        ∀ w, ¬ Allocates P w (arg - 1) mem) := by
  by_cases hgo : perm = true ∧ arg ≠ 0 ∧ arg ≤ maxNrConsoles
  · obtain ⟨rfl, hzero, hmax⟩ := hgo
    simp only [vtActivate_fgConsole vc arg mem _ hzero hmax]
    by_cases hfind : k.findVc P (arg - 1) = none
    · simp only [if_pos hfind]
      rw [vcAllocate_keeps_foreground h]
      simp [hzero, hmax, hfind]
    · simp only [if_neg hfind]
      exact iff_of_true (fun _ => trivial) fun _ _ _ hnone => absurd hnone hfind
  · have hidle : (k.vtActivate P vc perm arg mem).2 = k := by
      unfold vtActivate
      by_cases hperm : perm = true
      · rw [if_neg (by simp [hperm])]
        refine congrArg Prod.snd (if_pos ?_)
        by_contra hgood
        exact hgo ⟨hperm, by omega, by omega⟩
      · rw [if_pos (by simpa using hperm)]
    rw [hidle]
    exact iff_of_true (fun _ => rfl) fun hperm hzero hmax => absurd ⟨hperm, hzero, hmax⟩ hgo

/-- **Opening a tty.** -/
theorem vtOpen_pooled (h : Consistent P k) (hpool : k.Pooled P) (n : Nat) (mem : Bool) :
    ((k.vtOpen P n mem).Pooled P ∧
      (∀ q, k.findVc P n = some q → k.AttachedTo (k.vtOpen P n mem) q) ∧
      ∀ w, ((k.vtOpen P n mem).vt w).fgConsole = (k.vt w).fgConsole) ↔
    (∀ q, k.findVc P n = some q → (k.con q).vcTty ≠ none) ∧
      (k.findVc P n = none → ∀ w, ¬ Allocates P w n mem) := by
  cases hfind : k.findVc P n with
  | none =>
    have hpath : Path P true k (k.vtOpen P n mem) :=
      k.vtOpen_path n mem fun q hq => by rw [hfind] at hq; cases hq
    have hopen : k.vtOpen P n mem = k.vtOpenFirst P n mem := by
      unfold vtOpen
      rw [hfind]
    have hfg : (∀ w, ((k.vtOpen P n mem).vt w).fgConsole = (k.vt w).fgConsole) ↔
        ∀ w, ¬ Allocates P w n mem := by
      rw [hopen]
      simp only [vtOpenFirst_fgConsole]
      exact vcAllocate_keeps_foreground h mem n
    rw [hfg]
    constructor
    · rintro ⟨-, -, hno⟩
      exact ⟨fun q hq => (Option.some_ne_none q hq.symm).elim, fun _ => hno⟩
    · rintro ⟨-, hno⟩
      exact ⟨hpool.path h hpath, fun q hq => (Option.some_ne_none q hq.symm).elim, hno rfl⟩
  | some q =>
    simp only [Option.some.injEq, forall_eq', reduceCtorEq, false_implies, and_true]
    cases htty : (k.con q).vcTty with
    | none =>
      have hopen : k.vtOpen P n mem = k.vtOpenFirst P n mem := by
        unfold vtOpen
        rw [hfind]
        simp [htty]
      refine iff_of_false ?_ fun hne => hne rfl
      rintro ⟨-, ⟨hcon, -, hlive, -⟩, -⟩
      rw [hopen] at hcon hlive
      unfold vtOpenFirst at hcon hlive
      rcases k.acquireConsoleSem.vcAllocate_cases (P := P) mem n with heq | ⟨v, -, -, -, heq⟩
      · -- Nothing is allocated and the console gets no user.
        rw [heq] at hcon
        have hq := congrArg VcData.vcTty (congrFun hcon q)
        rw [Function.update_self] at hq
        have hq' : (k.con q).vcTty = some ((k.con q).vcTty.getD 0 + 1) := hq
        rw [htty] at hq'
        cases hq'
      · -- Another console is allocated.
        rw [heq] at hlive
        have hnext := congrFun hlive k.next
        have hdead : k.live k.next = false := by
          by_contra hlive'
          exact absurd (h.live _ (by simpa using hlive')) (Nat.lt_irrefl _)
        rw [hdead] at hnext
        change (k.acquireConsoleSem.install P v n).live k.next = false at hnext
        rw [install_live, Function.update_apply,
          if_pos (show k.next = k.acquireConsoleSem.next from rfl)] at hnext
        cases hnext
    | some count =>
      have hopen : k.vtOpen P n mem = k.countUser q := by
        unfold vtOpen
        rw [hfind]
        simp [htty]
      have hpath : Path P true k (k.vtOpen P n mem) :=
        k.vtOpen_path n mem fun p hp => by
          rw [hfind] at hp
          obtain rfl := Option.some.inj hp
          rw [htty]
          rfl
      refine iff_of_true ⟨hpool.path h hpath, ?_, ?_⟩ (Option.some_ne_none count)
      · rw [hopen]
        refine ⟨?_, rfl, rfl, rfl⟩
        unfold countUser updCon
        dsimp only
        rw [htty]
        rfl
      · intro w
        rw [hopen]
        rfl

/-! ### Steps and runs -/

/-- **One operation on pools and pointers that agree.** -/
theorem exec_pooled (h : Consistent P k) (hpool : k.Pooled P) (op : Op N)
    (htty : ∀ vc ∈ op.tty, k.live vc) :
    ((k.exec P op).Pooled P ∧ k.Attaches P (k.exec P op) op ∧ k.SwitchedOnly (k.exec P op) op) ↔
      k.PoolSafe P op := by
  by_cases hstill : ¬ op.MaySwitch ∧ ¬ op.Disallocates
  · have hopen : ¬ op.Reopens P k := by
      cases op with
      | ttyOpen n mem => exact absurd trivial hstill.1
      | _ => exact id
    have hpath : Path P false k (k.exec P op) :=
      exec_path h op (fun hm => absurd hm hstill.1) htty hstill.2 hopen
    refine iff_of_true ⟨hpool.path h hpath, ?_, fun v hne => absurd (hpath.fgConsole v) hne⟩ ?_
    · cases op with
      | ttyOpen n mem => exact absurd trivial hstill.1
      | _ => trivial
    · cases op with
      | ttyOpen n mem => exact absurd trivial hstill.1
      | ioctl vc perm cap cmd =>
        cases cmd with
        | vtActivate arg mem => exact absurd trivial hstill.1
        | vtReldisp arg mem => exact absurd trivial hstill.1
        | vtDisallocate arg => exact absurd trivial hstill.2
        | _ => trivial
      | _ => trivial
  · -- An operation that completes no switch must leave every foreground alone.
    have hkept : ∀ {op : Op N} {k' : Kernel N}, ¬ op.Completes →
        (k.SwitchedOnly k' op ↔ ∀ w, (k'.vt w).fgConsole = (k.vt w).fgConsole) := by
      intro op k' hop
      refine forall_congr' fun w => ?_
      simp only [hop, false_and, imp_false, not_not]
    cases op with
    | work v =>
      have hpath : Path P true k (k.exec P (.work v)) := k.vtCallback_path h v
      refine iff_of_true ⟨hpool.path h hpath, trivial, fun w hne => ⟨trivial, ?_⟩⟩ trivial
      exact (vtCallback_switched h v w).resolve_left hne
    | ttyOpen n mem =>
      rw [hkept id]
      exact vtOpen_pooled h hpool n mem
    | ioctl vc perm cap cmd =>
      have hvc : k.live vc := htty vc rfl
      cases cmd with
      | vtActivate arg mem =>
        have hpath : Path P true k (k.exec P (.ioctl vc perm cap (.vtActivate arg mem))) :=
          k.vtActivate_path h vc perm arg mem
        have hfg := vtActivate_keeps_foreground h vc perm arg mem
        rw [hkept id]
        constructor
        · rintro ⟨-, -, hall⟩ -
          exact hfg.mp hall
        · intro hsafe
          exact ⟨hpool.path h hpath, trivial, hfg.mpr (hsafe hvc)⟩
      | vtReldisp arg mem =>
        have hpath : Path P true k (k.exec P (.ioctl vc perm cap (.vtReldisp arg mem))) :=
          k.vtReldisp_path h (h.live vc hvc) perm arg mem
        have hfg := vtReldisp_switched h hvc perm arg mem
        constructor
        · rintro ⟨-, -, hall⟩ -
          exact hfg.mp fun w hne => (hall w hne).2
        · intro hsafe
          exact ⟨hpool.path h hpath, trivial, fun w hne => ⟨trivial, hfg.mpr (hsafe hvc) w hne⟩⟩
      | vtDisallocate arg =>
        obtain ⟨s, sem, hs, heq⟩ := k.vtDisallocate_eq h vc arg
        have hpooled : (k.vtDisallocate P vc arg).2.Pooled P ↔ ∀ q, k.Freed P vc arg q → ∀ v,
            q ≠ (k.vt v).fgConsole ∧ q ≠ (k.vt v).lastConsole ∧ q ≠ (k.vt v).wantVc := by
          rw [heq]
          simp only [← hs]
          exact free_pooled_iff hpool s
        constructor
        · rintro ⟨hp, -, -⟩ -
          exact hpooled.mp hp
        · intro hsafe
          exact ⟨hpooled.mpr (hsafe hvc), trivial,
            fun w hne => absurd (vtDisallocate_fgConsole vc arg w) hne⟩
      | _ => exact absurd ⟨id, id⟩ hstill
    | _ => exact absurd ⟨id, id⟩ hstill

theorem step_pooled (h : Consistent P k) (hpool : k.Pooled P) (op : Op N) :
    ((k.step P op).Pooled P ∧ k.Attaches P (k.step P op) op ∧ k.SwitchedOnly (k.step P op) op) ↔
      k.PoolSafe P op := by
  have hfresh : Consistent P k.fresh := h.quiet rfl rfl rfl rfl
  unfold Kernel.step
  split_ifs with htty
  · exact exec_pooled (k := k.fresh) hfresh hpool op htty
  · have hdead : ∀ vc, op.tty = some vc → ¬ k.live vc := fun _ => dead_of_tty htty
    refine iff_of_true ⟨hpool, ?_, fun w hne => absurd rfl hne⟩ ?_
    · cases op with
      | ttyOpen n mem => exact absurd (fun _ hq => by cases hq) htty
      | _ => trivial
    · cases op with
      | ttyOpen n mem => exact absurd (fun _ hq => by cases hq) htty
      | ioctl vc perm cap cmd =>
        cases cmd with
        | vtActivate arg mem => exact fun hlive => absurd hlive (hdead vc rfl)
        | vtReldisp arg mem => exact fun hlive => absurd hlive (hdead vc rfl)
        | vtDisallocate arg => exact fun hlive => absurd hlive (hdead vc rfl)
        | _ => trivial
      | _ => trivial

end Kernel

/-- **Along a run pools and pointers agree, an open attaches to the console that
is there and only switches change a foreground, if and only if the operations of
the run are safe for the pools.** -/
theorem pool_consistent_iff (P : Pools N) (k : Kernel N) (h : Consistent P k)
    (hpool : k.Pooled P) (ops : List (Op N)) :
    Lib.Along (Kernel.step P)
        (fun k op => (k.step P op).Pooled P ∧ k.Attaches P (k.step P op) op ∧
          k.SwitchedOnly (k.step P op) op) k ops ↔
      Lib.Along (Kernel.step P) (fun k op => k.PoolSafe P op) k ops :=
  Lib.along_congr (I := fun k => Consistent P k ∧ k.Pooled P)
    (fun _ op hk hop => ⟨hk.1.step op, hop.1⟩) (fun _ op hk => Kernel.step_pooled hk.1 hk.2 op)
    ⟨h, hpool⟩

theorem boot_pooled (P : Pools (N + 1)) : (Kernel.boot P).Pooled P := by
  have hslot : ∀ v : Fin (N + 1), (Kernel.boot P).InSlot P v v.val := by
    intro v
    have hself : Fin.ofNat (N + 1) v.val = v := by
      ext
      exact Nat.mod_eq_of_lt v.isLt
    have hnum : ((Kernel.boot P).con v.val).vcNum = P.firstVc v := by
      change P.firstVc (Fin.ofNat (N + 1) v.val) = _
      rw [hself]
    unfold Kernel.InSlot
    rw [hnum, Nat.sub_self]
    rfl
  exact fun v => ⟨hslot v, hslot v, hslot v⟩

/-- A tty is opened twice, asked for and closed. -/
theorem pool_consistent_iff_onePool :
    let ops : List (Op 1) :=
      [.ttyOpen 2 true, .ttyOpen 2 true, .ioctl 1 true true (.vtActivate 3 true), .work 0,
        .ttyClose 1]
    Lib.Along (Kernel.step onePool)
        (fun k op => (k.step onePool op).Pooled onePool ∧
          k.Attaches onePool (k.step onePool op) op ∧ k.SwitchedOnly (k.step onePool op) op)
        (Kernel.boot onePool) ops ↔
      Lib.Along (Kernel.step onePool) (fun k op => k.PoolSafe onePool op)
        (Kernel.boot onePool) ops :=
  pool_consistent_iff onePool (Kernel.boot onePool) (boot_consistent onePool)
    (boot_pooled onePool)
    [.ttyOpen 2 true, .ttyOpen 2 true, .ioctl 1 true true (.vtActivate 3 true), .work 0,
      .ttyClose 1]

/-- **A tty that is opened again gets another console.**  Tty 2 is opened, put in
graphics mode and closed, which leaves console 1 in its slot; when it is opened
again the slot holds console 2, in text mode. -/
theorem reopened_tty_replaced :
    let before : List (Op 1) :=
      [.ttyOpen 2 true, .ioctl 1 true true (.kdSetmode 1), .ttyClose 1]
    let k := Lib.run (Kernel.step onePool) (Kernel.boot onePool) before
    let k' := k.step onePool (.ttyOpen 2 true)
    k.findVc onePool 2 = some 1 ∧ (k.con 1).vcMode = .graphics ∧
      k'.findVc onePool 2 = some 2 ∧ (k'.con 2).vcMode = .text ∧
      ¬ k.Attaches onePool k' (.ttyOpen 2 true) := by
  have hrun :
      let before : List (Op 1) :=
        [.ttyOpen 2 true, .ioctl 1 true true (.kdSetmode 1), .ttyClose 1]
      let k := Lib.run (Kernel.step onePool) (Kernel.boot onePool) before
      let k' := k.step onePool (.ttyOpen 2 true)
      (k.findVc onePool 2 = some 1 ∧ (k.con 1).vcMode = .graphics ∧
        k'.findVc onePool 2 = some 2 ∧ (k'.con 2).vcMode = .text) ∧
        k.live 2 = false ∧ k'.live 2 = true := by
    decide +kernel
  obtain ⟨⟨hfind, hmode, hfind', hmode'⟩, hdead, hlive⟩ := hrun
  refine ⟨hfind, hmode, hfind', hmode', fun hatt => ?_⟩
  obtain ⟨-, -, hsame, -⟩ := hatt 1 hfind
  rw [hsame, hdead] at hlive
  cases hlive

end LinuxConsole.Switch

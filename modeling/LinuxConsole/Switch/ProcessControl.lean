import LinuxConsole.Switch.Pool

/-!
# Switching under process control

A console in `VT_PROCESS` mode is left only when its process agrees:
`change_console` sends the release signal and notes the number of the console
that is asked for in `vt_newvt`, and `VT_RELDISP` completes the switch.

`Settled` is the invariant that ties the two ends together: a console with a
number noted is the foreground console of its VT and still in `VT_PROCESS` mode,
and the number is that of the console for which the signal was sent last.  The
number alone is noted, so this is about runs in which no number changes hands: no
console is freed and none is put in the place of another.  **`process_control`**
says that along such a run a process that is alive is never switched away from
without its `VT_RELDISP`, and that this goes where the last signal said.
-/

namespace LinuxConsole.Switch

variable {N : Nat} {P : Pools N}

namespace Kernel

/-- A number is noted in `vt_newvt` only on a foreground console in `VT_PROCESS`
mode. -/
def WaitsInFront (k : Kernel N) : Prop :=
  ∀ p, k.live p → 0 ≤ (k.con p).vtNewvt →
    k.isVisible p ∧ (k.con p).vtMode.mode = .process

/-- The process that controls the console gets the release signal. -/
def Controlled (k : Kernel N) (p : Nat) : Prop :=
  (k.con p).vtMode.mode = .process ∧
    k.killProc (k.con p).vtPid (k.con p).vtMode.relsig = true

/-- Where a foreground console under control is left, it is by its own
`VT_RELDISP` with an argument that is not 0, for the console of the latest
request for which the release signal was sent. -/
def LeftOnRelease (k k' : Kernel N) (op : Op N) : Prop :=
  ∀ v, k.Controlled (k.vt v).fgConsole → (k'.vt v).fgConsole ≠ (k.vt v).fgConsole →
    (∃ perm cap arg mem,
      op = .ioctl (k.vt v).fgConsole perm cap (.vtReldisp arg mem) ∧ arg ≠ 0) ∧
    (k.vt v).releasedTo = some (k'.vt v).fgConsole

/-- The number that the console `p` waits for is that of a console in its slot,
the one for which the release signal was sent last. -/
def Awaits (P : Pools N) (k : Kernel N) (p : Nat) : Prop :=
  p = (k.vt (k.con p).displayFg).fgConsole ∧ (k.con p).vtMode.mode = .process ∧
    ∃ q, k.findVc P (k.con p).vtNewvt.toNat = some q ∧
      (k.vt (k.con p).displayFg).releasedTo = some q

/-- Every console that waits for a switch awaits a console that is there. -/
def Waiting (P : Pools N) (k : Kernel N) : Prop :=
  ∀ p < k.next, 0 ≤ (k.con p).vtNewvt → k.Awaits P p

/-- No console of the VT waits for a switch. -/
def NoneWaits (k : Kernel N) (v : Fin N) : Prop :=
  ∀ p < k.next, (k.con p).displayFg = v → ¬ 0 ≤ (k.con p).vtNewvt

end Kernel

/-- **The invariant**: pools and pointers agree, no pool is without its first
console, and what is waited for is there. -/
structure Settled (P : Pools N) (k : Kernel N) : Prop where
  consistent : Consistent P k
  pooled : k.Pooled P
  first : ∀ v, (k.vt v).vcCons 0 ≠ none
  waiting : k.Waiting P

namespace Kernel

variable {k : Kernel N}

theorem Waiting.noneWaits (hwait : k.Waiting P) {v : Fin N}
    (hfg : ¬ 0 ≤ (k.con (k.vt v).fgConsole).vtNewvt) : k.NoneWaits v := by
  intro p hp hdisp hnewvt
  obtain ⟨hvis, -, -⟩ := hwait p hp hnewvt
  rw [hdisp] at hvis
  rw [hvis] at hnewvt
  exact hfg hnewvt

/-- A state in which whoever waits did so before, under the same pointers. -/
theorem Waiting.of_eq {k' : Kernel N} (hwait : k.Waiting P) (hnext : k'.next = k.next)
    (hcon : ∀ p, 0 ≤ (k'.con p).vtNewvt →
      (k'.con p).displayFg = (k.con p).displayFg ∧ (k'.con p).vtNewvt = (k.con p).vtNewvt ∧
        (k'.con p).vtMode = (k.con p).vtMode)
    (hslot : ∀ v, (k'.vt v).vcCons = (k.vt v).vcCons)
    (hptr : ∀ p, 0 ≤ (k'.con p).vtNewvt →
      (k'.vt (k.con p).displayFg).fgConsole = (k.vt (k.con p).displayFg).fgConsole ∧
        (k'.vt (k.con p).displayFg).releasedTo = (k.vt (k.con p).displayFg).releasedTo) :
    k'.Waiting P := by
  intro p hp hnewvt
  obtain ⟨hdisp, hsame, hmode⟩ := hcon p hnewvt
  obtain ⟨hfg, hto⟩ := hptr p hnewvt
  obtain ⟨hvis, hproc, q, hfind, hrel⟩ := hwait p (hnext ▸ hp) (hsame ▸ hnewvt)
  unfold Awaits
  rw [hdisp, hfg, hmode, hto, hsame]
  refine ⟨hvis, hproc, q, ?_, hrel⟩
  obtain ⟨v, hv, hq⟩ := findVc_eq_some.mp hfind
  exact findVc_eq_some.mpr ⟨v, hv, by rw [hslot]; exact hq⟩

/-! ### Elementary changes -/

/-- Changes that bring nobody to the front keep what is waited for. -/
theorem Waiting.path {k' : Kernel N} (hwait : k.Waiting P) (hp : Path P false k k') :
    k'.Waiting P := by
  refine hp.keeps (I := fun k => k.Waiting P) ?_ hwait
  intro k₁ k₂ hk hm
  have hpointers : ∀ (v : Fin N) (f : Vt → Vt), (∀ t, (f t).vcCons = t.vcCons) →
      (∀ t, (f t).fgConsole = t.fgConsole) → (∀ t, (f t).releasedTo = t.releasedTo) →
        (k₁.updVt v f).Waiting P := by
    intro v f hslot hfg hto
    refine hk.of_eq rfl (fun p _ => ⟨rfl, rfl, rfl⟩) ?_ ?_
    · intro w
      rw [updVt_vt]
      split_ifs with hw
      · rw [hslot, hw]
      · rfl
    · intro p _
      rw [updVt_vt]
      split_ifs with hw
      · rw [hfg, hto, hw]
        exact ⟨rfl, rfl⟩
      · exact ⟨rfl, rfl⟩
  cases hm with
  | quiet hcon _ hnext hvt _ _ =>
    refine hk.of_eq hnext (fun p _ => ?_) (fun v => by rw [hvt]) fun p _ => by rw [hvt]; exact ⟨rfl, rfl⟩
    rw [hcon]
    exact ⟨rfl, rfl, rfl⟩
  | updCon p f hf =>
    obtain ⟨-, hdisp, hnewvt⟩ := hf
    refine hk.of_eq rfl (fun q hq => ?_) (fun _ => rfl) fun _ _ => ⟨rfl, rfl⟩
    rw [updCon_con] at hq ⊢
    split_ifs at hq ⊢ with hqp
    · subst hqp
      rcases hnewvt with ⟨hsame, hmode⟩ | hneg
      · exact ⟨hdisp, hsame, hmode⟩
      · omega
    · exact ⟨rfl, rfl, rfl⟩
  | lock v l => exact hpointers v _ (fun _ => rfl) (fun _ => rfl) fun _ => rfl
  | want v p _ => exact hpointers v _ (fun _ => rfl) (fun _ => rfl) fun _ => rfl
  | switch v p hb _ => cases hb
  | awaitRelease v p hb _ => cases hb
  | install v n hb _ _ => cases hb
  | select v => exact hk
  | vcsOpen f v i p _ => exact hk
  | vcsClose f => exact hk

/-- A new console waits for nothing and takes no number that is waited for. -/
theorem Waiting.install (hwait : k.Waiting P) {v : Fin N} {n : Nat}
    (hn : P.Has v n) (hfree : k.findVc P n = none) (hfirst : P.firstVc v ≠ n) :
    (k.install P v n).Waiting P := by
  intro p hp hnewvt
  rw [install_con] at hnewvt
  split_ifs at hnewvt with hpn
  · exact absurd hnewvt (by simp [newVc])
  · rw [install_next] at hp
    have hlt : p < k.next := by omega
    obtain ⟨hvis, hproc, q, hfind, hrel⟩ := hwait p hlt hnewvt
    unfold Awaits
    rw [install_con, if_neg hpn]
    have hvt : ((k.install P v n).vt (k.con p).displayFg).fgConsole =
          (k.vt (k.con p).displayFg).fgConsole ∧
        ((k.install P v n).vt (k.con p).displayFg).releasedTo =
          (k.vt (k.con p).displayFg).releasedTo := by
      rw [install_vt]
      split_ifs with hw
      · rw [hw]
        exact ⟨rfl, rfl⟩
      · exact ⟨rfl, rfl⟩
    rw [hvt.1, hvt.2]
    refine ⟨hvis, hproc, q, ?_, hrel⟩
    obtain ⟨w, hw, hq⟩ := findVc_eq_some.mp hfind
    rw [findVc_of_has hw, install_vt]
    split_ifs with hwv
    · subst hwv
      have hne : (k.con p).vtNewvt.toNat - P.firstVc w ≠ n - P.firstVc w := by
        intro heq
        rw [findVc_of_has hn, ← heq, hq] at hfree
        cases hfree
      dsimp only
      rw [Function.update_of_ne hne]
      exact hq
    · exact hq

theorem Waiting.completeChangeConsole (hwait : k.Waiting P) {v : Fin N} {new : Nat} (old : Nat)
    (hnew : (k.con new).displayFg = v) (hnone : k.NoneWaits v) :
    (k.completeChangeConsole new old).Waiting P := by
  have hswitched : ∀ s, (k.switched new old s).Waiting P := by
    intro s p hp hnewvt
    have hother : (k.con p).displayFg ≠ v := fun hdisp => hnone p hp hdisp hnewvt
    obtain ⟨hvis, hproc, q, hfind, hrel⟩ := hwait p hp hnewvt
    have hvt : ∀ w, w ≠ v → (k.switched new old s).vt w = k.vt w := by
      intro w hw
      unfold switched
      rw [hnew]
      exact Function.update_of_ne hw ..
    have hslot : ∀ w, ((k.switched new old s).vt w).vcCons = (k.vt w).vcCons := by
      intro w
      unfold switched
      simp only [Function.update_apply]
      split_ifs with hw <;> simp [hw]
    refine ⟨?_, hproc, q, ?_, ?_⟩
    · change p = ((k.switched new old s).vt (k.con p).displayFg).fgConsole
      rw [hvt _ hother]
      exact hvis
    · obtain ⟨w, hw, hq⟩ := findVc_eq_some.mp hfind
      exact findVc_eq_some.mpr ⟨w, hw, by rw [hslot]; exact hq⟩
    · change ((k.switched new old s).vt (k.con p).displayFg).releasedTo = some q
      rw [hvt _ hother]
      exact hrel
  obtain ⟨s, hs⟩ := k.completeChangeConsole_eq new old
  rw [hs]
  split_ifs
  · exact (hswitched s).path ((k.switched new old s).resetVc_path new)
  · exact hswitched s

theorem Waiting.awaitRelease (h : Consistent P k) (hwait : k.Waiting P) {v : Fin N} {new : Nat}
    (hnew : k.Belongs v new) (hslot : k.InSlot P v new)
    (hproc : (k.con (k.vt v).fgConsole).vtMode.mode = .process) :
    (k.awaitRelease new (k.vt v).fgConsole).Waiting P := by
  obtain ⟨hfgnext, hfg⟩ := h.fg v
  have hvt : ∀ w, (k.awaitRelease new (k.vt v).fgConsole).vt w =
      if w = v then { k.vt v with releasedTo := some new } else k.vt w := by
    intro w
    simp only [Kernel.awaitRelease, updCon_vt, updVt_vt, hfg]
  have hcon : ∀ p, (k.awaitRelease new (k.vt v).fgConsole).con p =
      if p = (k.vt v).fgConsole then
        { k.con (k.vt v).fgConsole with vtNewvt := (k.con new).vcNum }
      else k.con p := by
    intro p
    simp only [Kernel.awaitRelease, updCon_con, updVt_con]
  have hfind : ∀ n, (k.awaitRelease new (k.vt v).fgConsole).findVc P n = k.findVc P n := by
    intro n
    unfold findVc
    cases poolOf P n with
    | none => rfl
    | some w =>
      dsimp only
      rw [hvt]
      split_ifs with hw
      · rw [hw]
      · rfl
  intro p hp hnewvt
  by_cases hpfg : p = (k.vt v).fgConsole
  · subst hpfg
    have hself : (k.awaitRelease new (k.vt v).fgConsole).con (k.vt v).fgConsole =
        { k.con (k.vt v).fgConsole with vtNewvt := (k.con new).vcNum } := by
      rw [hcon, if_pos rfl]
    unfold Awaits
    rw [hself, hfind, hfg, hvt, if_pos rfl]
    refine ⟨rfl, hproc, new, ?_, rfl⟩
    rw [Int.toNat_natCast]
    have hpool := h.num new hnew.1
    rw [hnew.2] at hpool
    rw [findVc_of_has hpool]
    exact hslot
  · have hother : (k.awaitRelease new (k.vt v).fgConsole).con p = k.con p := by
      rw [hcon, if_neg hpfg]
    rw [hother] at hnewvt
    obtain ⟨hvis, hmode, q, hq, hrel⟩ := hwait p hp hnewvt
    have hdisp : (k.con p).displayFg ≠ v := by
      intro hdisp
      rw [hdisp] at hvis
      exact hpfg hvis
    unfold Awaits
    rw [hother, hfind, hvt, if_neg hdisp]
    exact ⟨hvis, hmode, q, hq, hrel⟩

/-! ### Operations -/

theorem slot_path {b : Bool} {k' : Kernel N} {v : Fin N} {i : Nat} (hslot : (k.vt v).vcCons i ≠ none)
    (hp : Path P b k k') : (k'.vt v).vcCons i ≠ none := by
  refine hp.keeps (I := fun k => (k.vt v).vcCons i ≠ none) ?_ hslot
  intro k₁ k₂ hk hm
  have hpointers : ∀ (w : Fin N) (f : Vt → Vt), (∀ t, (f t).vcCons = t.vcCons) →
      ((k₁.updVt w f).vt v).vcCons i ≠ none := by
    intro w f hf
    rw [updVt_vt]
    split_ifs with hw
    · rw [hf, ← hw]
      exact hk
    · exact hk
  cases hm with
  | quiet _ _ _ hvt _ _ => rw [hvt]; exact hk
  | updCon p f _ => exact hk
  | lock w l => exact hpointers w _ fun _ => rfl
  | want w p _ => exact hpointers w _ fun _ => rfl
  | switch w p _ _ => exact hpointers w _ fun _ => rfl
  | awaitRelease w p _ _ =>
    change ((k₁.updVt (k₁.con (k₁.vt w).fgConsole).displayFg fun t =>
      { t with releasedTo := some p }).vt v).vcCons i ≠ none
    exact hpointers _ _ fun _ => rfl
  | install w n _ _ _ =>
    rw [install_vt]
    by_cases hw : v = w
    · subst hw
      rw [if_pos rfl]
      dsimp only
      rw [Function.update_apply]
      split_ifs
      · exact Option.some_ne_none _
      · exact hk
    · rw [if_neg hw]
      exact hk
  | select w => exact hk
  | vcsOpen f w j p _ => exact hk
  | vcsClose f => exact hk

end Kernel

namespace Settled

open Kernel

variable {k : Kernel N}

theorem not_first (h : Settled P k) {n : Nat} (hfree : k.findVc P n = none) (v : Fin N) :
    P.firstVc v ≠ n := by
  rintro rfl
  have hfirst : P.Has v (P.firstVc v) :=
    ⟨Nat.le_refl _, Nat.lt_add_of_pos_right (P.count_pos v)⟩
  rw [findVc_of_has hfirst, Nat.sub_self] at hfree
  exact h.first v hfree

theorem not_allocates (h : Settled P k) {n : Nat} (hfree : k.findVc P n = none) (v : Fin N)
    (mem : Bool) : ¬ Allocates P v n mem := fun hall => h.not_first hfree v hall.2.2

theorem path {k' : Kernel N} (h : Settled P k) (hp : Path P false k k') : Settled P k' where
  consistent := hp.consistent h.consistent
  pooled := h.pooled.path h.consistent hp
  first v := slot_path (h.first v) hp
  waiting := h.waiting.path hp

theorem vcAllocate_waiting (h : Settled P k) (mem : Bool) {n : Nat}
    (hfree : k.findVc P n = none) : (k.vcAllocate P mem n).2.Waiting P := by
  rcases k.vcAllocate_cases (P := P) mem n with heq | ⟨v, hv, -, -, heq⟩
  · rw [heq]
    exact h.waiting
  · rw [heq]
    exact h.waiting.install hv hfree (h.not_first hfree v)

theorem changeConsole_waiting (h : Settled P k) (v : Fin N) :
    (k.changeConsole (k.vt v).wantVc (k.vt v).fgConsole).Waiting P := by
  have hwant := h.consistent.want v
  have hauto : ∀ k' : Kernel N, k'.Waiting P → k'.vt = k.vt →
      (k'.con (k.vt v).wantVc).displayFg = v → ¬ 0 ≤ (k'.con (k.vt v).fgConsole).vtNewvt →
        (k'.changeConsoleAuto (k.vt v).wantVc (k.vt v).fgConsole).Waiting P := by
    intro k' hwait hvt hdisp hfg
    unfold changeConsoleAuto
    split_ifs
    · exact hwait
    · exact hwait.completeChangeConsole _ hdisp (hwait.noneWaits (by rw [hvt]; exact hfg))
  unfold changeConsole
  dsimp only
  split_ifs with hproc _
  · exact h.waiting.awaitRelease h.consistent hwant (h.pooled v).2.2 hproc
  · refine hauto _ (h.waiting.path (k.resetVc_path _)) rfl
      ((resetVc_displayFg _ _).trans hwant.2) ?_
    unfold Kernel.resetVc
    rw [updCon_con, if_pos rfl]
    exact fun hneg => absurd hneg (by decide : ¬ (0 : Int) ≤ -1)
  · refine hauto k h.waiting rfl hwant.2 fun hnewvt => hproc ?_
    exact (h.waiting _ (h.consistent.fg v).1 hnewvt).2.1

theorem vtCallback_waiting (h : Settled P k) (v : Fin N) : (k.vtCallback v).Waiting P := by
  have hquiet : ∀ {k₁ k₂ : Kernel N}, k₁.Waiting P → k₂.con = k₁.con → k₂.live = k₁.live →
      k₂.next = k₁.next → k₂.vt = k₁.vt → k₂.selCons = k₁.selCons → k₂.vcs = k₁.vcs →
        k₂.Waiting P :=
    fun hwait hcon hlive hnext hvt hsel hvcs =>
      hwait.path (Path.quiet hcon hlive hnext hvt hsel hvcs)
  unfold vtCallback
  split_ifs
  · exact h.waiting
  · have hswitch : (k.acquireConsoleSem.switchToWanted v).Waiting P := by
      unfold switchToWanted
      dsimp only
      split_ifs
      · have hhand : Settled P (k.acquireConsoleSem.hand v (some (k.vt v).wantVc)) :=
          h.path (.quiet rfl rfl rfl rfl rfl rfl)
        exact hhand.changeConsole_waiting v
      · exact hquiet h.waiting rfl rfl rfl rfl rfl rfl
    exact hquiet hswitch rfl rfl rfl rfl rfl rfl

theorem vtActivate_waiting (h : Settled P k) (vc : Nat) (perm : Bool) (arg : Nat) (mem : Bool) :
    (k.vtActivate P vc perm arg mem).2.Waiting P := by
  have hacq : Settled P k.acquireConsoleSem := h.path (.quiet rfl rfl rfl rfl rfl rfl)
  unfold vtActivate
  split_ifs
  · exact h.waiting
  · exact h.waiting
  · cases hfind : k.findVc P (arg - 1) with
    | some q =>
      dsimp only
      split_ifs
      · exact h.waiting
      · dsimp only
        refine h.waiting.path (k.setConsole_path _ _ fun p hp => ?_)
        obtain rfl := Option.some.inj hp
        exact h.consistent.holds_found hfind
    | none =>
      have halloc := hacq.vcAllocate_waiting mem hfind
      have hrel : ((k.acquireConsoleSem.vcAllocate P mem (arg - 1)).2.releaseConsoleSem).Waiting P :=
        halloc.path (.quiet rfl rfl rfl rfl rfl rfl)
      dsimp only
      cases hq : (k.acquireConsoleSem.vcAllocate P mem (arg - 1)).1 with
      | none => exact hrel
      | some q =>
        dsimp only
        split_ifs
        · exact hrel
        · dsimp only
          refine hrel.path (setConsole_path _ _ _ fun p hp => ?_)
          obtain rfl := Option.some.inj hp
          exact (vcAllocate_holds _ hq).1

theorem vtOpen_waiting (h : Settled P k) (n : Nat) (mem : Bool)
    (hopen : ∀ q, k.findVc P n = some q → (k.con q).vcTty.isSome) :
    (k.vtOpen P n mem).Waiting P := by
  unfold vtOpen
  cases hfind : k.findVc P n with
  | some q =>
    dsimp only
    rw [if_pos (hopen q hfind)]
    exact h.waiting.path (.single (.updCon k q _ ⟨rfl, rfl, .inl ⟨rfl, rfl⟩⟩))
  | none =>
    have hacq : Settled P k.acquireConsoleSem := h.path (.quiet rfl rfl rfl rfl rfl rfl)
    have halloc := hacq.vcAllocate_waiting mem hfind
    dsimp only
    unfold vtOpenFirst
    rcases hr : k.acquireConsoleSem.vcAllocate P mem n with ⟨r, k'⟩
    rw [hr] at halloc
    cases r with
    | none => exact halloc.path (.quiet rfl rfl rfl rfl rfl rfl)
    | some p =>
      have hset : Path P false k' (k'.updCon p fun c => { c with vcTty := some 1 }) :=
        .single (.updCon k' p _ ⟨rfl, rfl, .inl ⟨rfl, rfl⟩⟩)
      exact (halloc.path hset).path (.quiet rfl rfl rfl rfl rfl rfl)

theorem vtReldisp_waiting (h : Settled P k) {vc : Nat} (hvc : vc < k.next) (perm : Bool)
    (arg : Nat) (mem : Bool) : (k.vtReldisp P vc perm arg mem).2.Waiting P := by
  have hclear : ∀ k' : Kernel N, Path P false k' (k'.clearNewvt vc) := fun k' =>
    .single (.updCon k' vc _ ⟨rfl, rfl, .inr rfl⟩)
  unfold vtReldisp
  split_ifs with _ _ hnewvt
  · exact h.waiting
  · exact h.waiting
  · exact h.waiting.path (hclear k)
  · obtain ⟨hvis, -, q', hq', -⟩ := h.waiting vc hvc hnewvt
    rcases k.releaseDisplay_cases h.consistent hvc hnewvt mem with
      ⟨k', q, hrel, hq, hdisp, heq⟩ | ⟨hnone, -, -⟩
    · cases hrel with
      | found hfind =>
        rw [heq]
        have hacq : Path P false k k.acquireConsoleSem := .quiet rfl rfl rfl rfl rfl rfl
        have hwait : (k.acquireConsoleSem.clearNewvt vc).Waiting P :=
          h.waiting.path (hacq.trans (hclear _))
        have hgone : ((k.acquireConsoleSem.clearNewvt vc).con vc).vtNewvt = -1 := by
          unfold clearNewvt
          rw [updCon_con, if_pos rfl]
        have hnone : (k.acquireConsoleSem.clearNewvt vc).NoneWaits (k.con vc).displayFg := by
          refine hwait.noneWaits fun hstill => ?_
          change 0 ≤ ((k.acquireConsoleSem.clearNewvt vc).con
            (k.vt (k.con vc).displayFg).fgConsole).vtNewvt at hstill
          rw [← hvis, hgone] at hstill
          exact absurd hstill (by decide)
        exact (hwait.completeChangeConsole _ ((clearNewvt_displayFg _ vc q).trans hq.2) hnone).path
          (.quiet rfl rfl rfl rfl rfl rfl)
      | allocated hnone _ _ =>
        rw [hnone] at hq'
        cases hq'
    · rw [hnone] at hq'
      cases hq'
  · exact h.waiting
  · exact h.waiting

/-- **Every operation that takes no console from its slot keeps the
invariant.** -/
theorem exec (h : Settled P k) (op : Op N) (htty : ∀ vc ∈ op.tty, k.live vc)
    (hfree : ¬ op.Disallocates) (hopen : ¬ op.Reopens P k) : Settled P (k.exec P op) := by
  have hpath : Path P true k (k.exec P op) :=
    exec_path h.consistent op (fun _ => rfl) htty hfree hopen
  refine ⟨hpath.consistent h.consistent, h.pooled.path h.consistent hpath,
    fun v => slot_path (h.first v) hpath, ?_⟩
  by_cases hstill : op.MaySwitch
  · cases op with
    | work v => exact h.vtCallback_waiting v
    | ttyOpen n mem =>
      refine h.vtOpen_waiting n mem fun q hq => ?_
      rw [Option.isSome_iff_ne_none]
      exact fun hnone => hopen ⟨q, hq, hnone⟩
    | ioctl vc perm cap cmd =>
      cases cmd with
      | vtActivate arg mem => exact h.vtActivate_waiting vc perm arg mem
      | vtReldisp arg mem =>
        exact h.vtReldisp_waiting (h.consistent.live vc (htty vc rfl)) perm arg mem
      | _ => exact absurd hstill id
    | _ => exact absurd hstill id
  · exact h.waiting.path
      (exec_path h.consistent op (fun hm => absurd hm hstill) htty hfree hopen)

/-! ### Who leaves the foreground -/

theorem changeConsole_controlled (k : Kernel N) (new old : Nat) (w : Fin N)
    (hctl : k.Controlled old) :
    ((k.changeConsole new old).vt w).fgConsole = (k.vt w).fgConsole := by
  unfold changeConsole
  dsimp only
  rw [if_pos hctl.1, if_pos hctl.2]
  simp only [Kernel.awaitRelease, updCon_vt, updVt_vt]
  split_ifs with hdisp
  · rw [hdisp]
  · rfl

theorem vtCallback_controlled (h : Settled P k) (v w : Fin N)
    (hctl : k.Controlled (k.vt w).fgConsole) :
    ((k.vtCallback v).vt w).fgConsole = (k.vt w).fgConsole := by
  unfold vtCallback
  split_ifs
  · rfl
  · change ((k.acquireConsoleSem.switchToWanted v).vt w).fgConsole = _
    unfold switchToWanted
    dsimp only
    split_ifs
    · by_cases hw : w = v
      · subst hw
        exact changeConsole_controlled (k.acquireConsoleSem.hand w (some (k.vt w).wantVc))
          (k.vt w).wantVc (k.vt w).fgConsole w hctl
      · exact changeConsole_fgConsole
          (k := k.acquireConsoleSem.hand v (some (k.vt v).wantVc)) (h.consistent.want v).2 hw
    · rfl

/-- **One operation**: a console under control is left by its own `VT_RELDISP`. -/
theorem exec_leftOnRelease (h : Settled P k) (op : Op N) (htty : ∀ vc ∈ op.tty, k.live vc)
    (hfree : ¬ op.Disallocates) (hopen : ¬ op.Reopens P k) : k.LeftOnRelease (k.exec P op) op := by
  intro w hctl hne
  by_cases hstill : op.MaySwitch
  · cases op with
    | work v => exact absurd (h.vtCallback_controlled v w hctl) hne
    | ttyOpen n mem =>
      refine absurd ?_ hne
      have hpooled := (exec_pooled h.consistent h.pooled (.ttyOpen n mem) htty).mpr
        ⟨fun q hq hnone => hopen ⟨q, hq, hnone⟩, fun hnone v => h.not_allocates hnone v mem⟩
      by_contra hmoved
      exact (hpooled.2.2 w hmoved).1
    | ioctl vc perm cap cmd =>
      have hvc : k.live vc := htty vc rfl
      cases cmd with
      | vtActivate arg mem =>
        refine absurd ?_ hne
        exact (vtActivate_keeps_foreground h.consistent vc perm arg mem).mpr
          (fun _ _ _ hnone v => h.not_allocates hnone v mem) w
      | vtReldisp arg mem =>
        change ((k.vtReldisp P vc perm arg mem).2.vt w).fgConsole ≠ _ at hne
        change _ ∧ (k.vt w).releasedTo = some ((k.vtReldisp P vc perm arg mem).2.vt w).fgConsole
        unfold vtReldisp at hne ⊢
        split_ifs at hne ⊢ with hperm hmode hnewvt harg
        · exact absurd rfl hne
        · exact absurd rfl hne
        · exact absurd rfl hne
        · obtain ⟨hvis, -, q, hq, hrel⟩ :=
            h.waiting vc (h.consistent.live vc hvc) hnewvt
          rw [releaseDisplay_fgConsole h.consistent (h.consistent.live vc hvc) hnewvt, hq] at hne ⊢
          by_cases hw : (k.con vc).displayFg = w
          · rw [hw] at hvis hrel
            rw [if_pos hw]
            exact ⟨⟨perm, cap, arg, mem, by rw [← hvis], harg⟩, hrel⟩
          · rw [if_neg hw] at hne
            exact absurd rfl hne
        · exact absurd rfl hne
        · exact absurd rfl hne
      | _ => exact absurd hstill id
    | _ => exact absurd hstill id
  · have hpath : Path P false k (k.exec P op) :=
      exec_path h.consistent op (fun hm => absurd hm hstill) htty hfree hopen
    exact absurd (hpath.fgConsole w) hne

theorem waitsInFront (h : Settled P k) : k.WaitsInFront := by
  intro p hlive hnewvt
  obtain ⟨hvis, hproc, -⟩ := h.waiting p (h.consistent.live p hlive) hnewvt
  exact ⟨hvis, hproc⟩

theorem step (h : Settled P k) (op : Op N) (hop : ¬ op.Disallocates ∧ ¬ op.Reopens P k) :
    Settled P (k.step P op) ∧ k.LeftOnRelease (k.step P op) op := by
  have hfresh : Settled P k.fresh := h.path (.quiet rfl rfl rfl rfl rfl rfl)
  unfold Kernel.step
  split_ifs with htty
  · exact ⟨hfresh.exec op htty hop.1 hop.2, hfresh.exec_leftOnRelease op htty hop.1 hop.2⟩
  · exact ⟨hfresh, fun w _ hne => absurd rfl hne⟩

end Settled

/-- **Process-controlled switching.**  Along every run in which no console is
freed and none is put in the place of another, a number is noted only on a
foreground console in `VT_PROCESS` mode, and a console whose process is alive is
left only by its own `VT_RELDISP`, for the console of the latest request for
which the release signal was sent. -/
theorem process_control (P : Pools N) (k : Kernel N) (h : Settled P k) (ops : List (Op N))
    (hops : Lib.Along (Kernel.step P) (fun k op => ¬ op.Disallocates ∧ ¬ op.Reopens P k) k ops) :
    k.WaitsInFront ∧
      Lib.Along (Kernel.step P)
        (fun k op => (k.step P op).WaitsInFront ∧ k.LeftOnRelease (k.step P op) op) k ops :=
  ⟨h.waitsInFront,
    Lib.Along.imp (I := Settled P) (fun _ op hk hop => (hk.step op hop).1)
      (fun _ op hk hop => ⟨(hk.step op hop).1.waitsInFront, (hk.step op hop).2⟩) h hops⟩

theorem boot_settled (P : Pools (N + 1)) : Settled P (Kernel.boot P) where
  consistent := boot_consistent P
  pooled := boot_pooled P
  first v := by simp [Kernel.boot]
  waiting p _ hnewvt := by simp [Kernel.boot, Kernel.newVc] at hnewvt

/-- Console 1 is opened, console 0 is put under process control, console 1 is
asked for, the callback sends the signal and the process lets go. -/
theorem process_control_onePool :
    let ops : List (Op 1) :=
      [.processes (fun _ _ => true), .ttyOpen 1 true,
        .ioctl 0 true true (.vtSetmode (some ⟨1, 0, 10, 12, 0⟩) 100),
        .ioctl 0 true true (.vtActivate 2 true), .work 0, .ioctl 0 true true (.vtReldisp 1 true)]
    (Kernel.boot onePool).WaitsInFront ∧
      Lib.Along (Kernel.step onePool)
        (fun k op => (k.step onePool op).WaitsInFront ∧ k.LeftOnRelease (k.step onePool op) op)
        (Kernel.boot onePool) ops := by
  refine process_control onePool (Kernel.boot onePool) (boot_settled onePool) _ ?_
  refine ⟨⟨id, id⟩, ⟨id, ?_⟩, ⟨id, id⟩, ⟨id, id⟩, ⟨id, id⟩, ⟨id, id⟩, trivial⟩
  -- Nothing is under the number 1 when its tty is opened.
  rintro ⟨q, hq, -⟩
  have hnone : ((Kernel.boot onePool).step onePool (.processes fun _ _ => true)).findVc onePool 1 =
      none := by decide +kernel
  rw [hnone] at hq
  cases hq

end LinuxConsole.Switch

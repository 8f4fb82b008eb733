import LinuxConsole.Switch.Moves

/-!
# The operations are sequences of elementary changes

Every operation but `VT_DISALLOCATE` and the opening of a tty whose console is
allocated is a sequence of the changes that `Move` lists (`exec_path`), so what
these keep, it keeps.  The two that are left put a console in a slot and take
consoles out, and with them every operation leaves a consistent state
(`Consistent.step`).
-/

namespace LinuxConsole.Switch

variable {N : Nat} {P : Pools N}

/-! ### Switching -/

namespace Kernel

variable {b : Bool} (k : Kernel N)

theorem setConsole_path (v : Fin N) (tmp : Option Nat)
    (htmp : ∀ p, tmp = some p → k.Holds (k.con p).displayFg p) : Path P b k (k.setConsole v tmp) := by
  cases tmp with
  | none => exact .quiet rfl rfl rfl rfl rfl rfl
  | some p =>
    have hhand : Path P b k (k.hand v (some p)) := .quiet rfl rfl rfl rfl rfl rfl
    exact hhand.tail (.want _ _ p (htmp p rfl))

theorem resetVc_path (p : Nat) : Path P b k (k.resetVc p) :=
  .single (.updCon k p _ ⟨rfl, rfl, .inr rfl⟩)

theorem completeChangeConsole_path {v : Fin N} {new : Nat} (hnew : k.Holds v new)
    (hdisp : (k.con new).displayFg = v) :
    Path P true k (k.completeChangeConsole new (k.vt v).fgConsole) := by
  obtain ⟨s, hs⟩ := k.completeChangeConsole_eq new (k.vt v).fgConsole
  have hswitch : Path P true k (k.switched new (k.vt v).fgConsole s) := by
    have hmove := Move.switch (P := P) k v new rfl hnew
    refine (Relation.ReflTransGen.single hmove).trans (Path.quiet rfl rfl rfl ?_ rfl rfl)
    unfold switched updVt
    rw [hdisp]
    by_cases heq : (k.vt v).fgConsole = new
    · simp [heq]
    · simp [heq]
  rw [hs]
  split_ifs
  · exact hswitch.trans (resetVc_path _ new)
  · exact hswitch

theorem changeConsoleAuto_path {v : Fin N} {new : Nat} (hnew : k.Holds v new)
    (hdisp : (k.con new).displayFg = v) :
    Path P true k (k.changeConsoleAuto new (k.vt v).fgConsole) := by
  unfold changeConsoleAuto
  split_ifs
  · exact .refl
  · exact k.completeChangeConsole_path hnew hdisp

theorem changeConsole_path {v : Fin N} {new : Nat} (hnew : k.Holds v new)
    (hdisp : (k.con new).displayFg = v) : Path P true k (k.changeConsole new (k.vt v).fgConsole) := by
  unfold changeConsole
  dsimp only
  split_ifs
  · exact .single (.awaitRelease k v new rfl hnew)
  · have hreset : Path P true k (k.resetVc (k.vt v).fgConsole) := k.resetVc_path _
    refine hreset.trans (changeConsoleAuto_path (v := v) _ hnew ?_)
    unfold resetVc
    rw [updCon_con]
    split_ifs with hq
    · rw [← hq]; exact hdisp
    · exact hdisp
  · exact k.changeConsoleAuto_path hnew hdisp

theorem vtCallback_path (h : Consistent P k) (v : Fin N) : Path P true k (k.vtCallback v) := by
  unfold vtCallback
  split_ifs
  · exact .refl
  · have hswitch : Path P true k.acquireConsoleSem (k.acquireConsoleSem.switchToWanted v) := by
      unfold switchToWanted
      dsimp only
      split_ifs
      · have hhand : Path P true k.acquireConsoleSem
            (k.acquireConsoleSem.hand v (some (k.vt v).wantVc)) := .quiet rfl rfl rfl rfl rfl rfl
        exact hhand.trans
          (changeConsole_path (k.acquireConsoleSem.hand v (some (k.vt v).wantVc))
            (.inr (.inr rfl)) (h.want v).2)
      · exact .refl
    have hlate : Path P true (k.acquireConsoleSem.switchToWanted v)
        ((k.acquireConsoleSem.switchToWanted v).lateWork v) := .quiet rfl rfl rfl rfl rfl rfl
    exact Path.locked (hswitch.trans hlate)

theorem kCons_path (h : Consistent P k) (vc value : Nat) (up : Bool) :
    Path P b k (k.kCons P vc value up) := by
  unfold kCons
  dsimp only
  split_ifs
  · exact .refl
  · exact k.setConsole_path _ _ fun p hp => h.holds_found hp

theorem fnLastcons_path (h : Consistent P k) (vc : Nat) : Path P b k (k.fnLastcons vc) := by
  unfold fnLastcons
  refine k.setConsole_path _ _ fun p hp => ?_
  obtain rfl := Option.some.inj hp
  rw [(h.last _).2]
  exact .inr (.inl rfl)

theorem scanCons_slot {cons : Nat → Option Nat} {j d edge back : Int} {n : Nat} {i : Int} {p : Nat}
    (h : scanCons cons j d edge back n i = some p) : ∃ i, cons i = some p := by
  induction n generalizing i with
  | zero => cases h
  | succ n ih =>
    unfold scanCons at h
    dsimp only at h
    split at h
    · cases h
    · split at h
      · rename_i q hq
        obtain rfl := Option.some.inj h
        exact ⟨_, hq⟩
      · exact ih h

theorem fnScan_path (h : Consistent P k) (vc : Nat) (d : Int) (edge back : Fin N → Int) :
    Path P b k (k.fnScan P vc d edge back) := by
  unfold fnScan
  dsimp only
  split
  · rename_i p hp
    refine k.setConsole_path _ _ fun q hq => ?_
    obtain rfl := Option.some.inj hq
    obtain ⟨i, hi⟩ := scanCons_slot hp
    rw [(h.belongs_slot hi).2]
    exact .inl ⟨i, hi⟩
  · exact .refl

theorem kSpec_path (h : Consistent P k) (vc value : Nat) (up : Bool) :
    Path P b k (k.kSpec P vc value up) := by
  unfold kSpec
  split_ifs
  · exact .refl
  · exact .refl
  · exact .refl
  · split
    · exact k.fnLastcons_path h vc
    · exact k.resetVc_path vc
    · exact k.fnScan_path h vc _ _ _
    · exact k.fnScan_path h vc _ _ _
    · exact .refl

theorem kbdEvent_path (h : Consistent P k) (v : Fin N) (sym : Keysym) (up : Bool) :
    Path P b k (k.kbdEvent P v sym up) := by
  have hpoke : ∀ k' : Kernel N,
      Path P b k' { k' with screen.doPokeBlankedConsole := true } :=
    fun _ => .quiet rfl rfl rfl rfl rfl rfl
  cases sym with
  | cons value =>
    unfold kbdEvent
    dsimp only
    split_ifs
    · exact hpoke k
    · exact (k.kCons_path h _ _ _).trans (hpoke _)
  | spec value => exact (k.kSpec_path h _ _ _).trans (hpoke _)

theorem settermCommand_path (h : Consistent P k) (vc par0 par1 : Nat) :
    Path P b k (k.settermCommand P vc par0 par1) := by
  unfold settermCommand
  dsimp only
  split
  · exact .quiet rfl rfl rfl rfl rfl rfl
  · exact k.setConsole_path _ _ fun p hp => h.holds_found hp
  · exact .quiet rfl rfl rfl rfl rfl rfl
  · exact .quiet rfl rfl rfl rfl rfl rfl
  · exact k.fnLastcons_path h vc
  · exact .refl

theorem emulate_path (vc : Nat) (cmds : List (Nat × Nat)) (k : Kernel N) (h : Consistent P k) :
    Path P b k (emulate P vc cmds k) := by
  induction cmds generalizing k with
  | nil => exact .quiet rfl rfl rfl rfl rfl rfl
  | cons c cmds ih =>
    have hcmd := k.settermCommand_path (b := b) h vc c.1 c.2
    unfold emulate
    dsimp only
    split_ifs
    · exact hcmd
    · exact hcmd.trans (ih _ (hcmd.consistent h))

theorem vtWrite_path (h : Consistent P k) (irq : Bool) (vc : Option Nat)
    (cmds : List (Nat × Nat)) : Path P b k (k.vtWrite P irq vc cmds) := by
  have hwrite : Path P b k (k.doConWrite P irq vc cmds) := by
    unfold doConWrite
    dsimp only
    split_ifs
    · exact .refl
    · split
      · exact .quiet rfl rfl rfl rfl rfl rfl
      · rename_i vc'
        have hsem : Path P b k k.acquireConsoleSem.releaseConsoleSem.acquireConsoleSem :=
          .quiet rfl rfl rfl rfl rfl rfl
        exact hsem.trans (emulate_path vc' cmds _ (hsem.consistent h))
  unfold vtWrite vtFlushChars
  dsimp only
  split_ifs
  · exact hwrite
  · exact hwrite
  · exact hwrite.trans (Path.quiet rfl rfl rfl rfl rfl rfl)

/-! ### Ioctls -/

theorem kdSetmodeTo_path (vc : Nat) (mode : KdMode) : Path P b k (k.kdSetmodeTo vc mode).2 := by
  have hmode : Path P b k (k.updCon vc fun c => { c with vcMode := mode }) :=
    .single (.updCon k vc _ ⟨rfl, rfl, .inl ⟨rfl, rfl⟩⟩)
  unfold kdSetmodeTo
  dsimp only
  split_ifs
  · exact .refl
  · obtain ⟨s, hs⟩ := blankForMode_eq
      (k.updCon vc fun c => { c with vcMode := mode }).acquireConsoleSem vc
    dsimp only
    rw [hs]
    exact hmode.trans (Path.quiet rfl rfl rfl rfl rfl rfl)
  · exact hmode

theorem kdSetmode_path (vc : Nat) (perm : Bool) (arg : Nat) :
    Path P b k (k.kdSetmode vc perm arg).2 := by
  unfold kdSetmode
  split_ifs
  · exact .refl
  · split
    · exact k.kdSetmodeTo_path vc _
    · exact k.kdSetmodeTo_path vc _
    · exact k.kdSetmodeTo_path vc _
    · exact k.kdSetmodeTo_path vc _
    · exact .refl

theorem vtSetmode_path (vc : Nat) (perm : Bool) (tmp : Option UserVtMode) (pid : Int) :
    Path P b k (k.vtSetmode vc perm tmp pid).2 := by
  have hset : ∀ mode t, Path P b k (k.vtSetmodeTo vc mode t pid) := fun mode t =>
    Path.locked (.single (.updCon _ vc _ ⟨rfl, rfl, .inr rfl⟩))
  unfold vtSetmode
  split_ifs
  · exact .refl
  · split
    · exact .refl
    · split_ifs
      · exact hset _ _
      · exact hset _ _
      · exact .refl

/-- `vc_allocate` of a number under which there is no console. -/
theorem vcAllocate_path (mem : Bool) (n : Nat) (hfree : k.findVc P n = none) :
    Path P true k (k.vcAllocate P mem n).2 := by
  rcases k.vcAllocate_cases (P := P) mem n with heq | ⟨v, hv, -, -, heq⟩
  · rw [heq]
  · rw [heq]; exact .single (.install k v n rfl hv hfree)

/-- The console that `vc_allocate` returns is held by the VT of its number. -/
theorem vcAllocate_holds {mem : Bool} {n p : Nat} (hp : (k.vcAllocate P mem n).1 = some p) :
    (k.vcAllocate P mem n).2.Holds ((k.vcAllocate P mem n).2.con p).displayFg p ∧
      P.Has ((k.vcAllocate P mem n).2.con p).displayFg n := by
  rcases k.vcAllocate_cases (P := P) mem n with heq | ⟨v, hv, -, -, heq⟩
  · rw [heq] at hp; cases hp
  · rw [heq] at hp ⊢
    obtain rfl := Option.some.inj hp
    have hdisp : ((k.install P v n).con k.next).displayFg = v := by
      rw [install_con, if_pos rfl, newVc, zeroed]
    dsimp only
    rw [hdisp]
    refine ⟨.inl ⟨n - P.firstVc v, ?_⟩, hv⟩
    rw [install_vt, if_pos rfl]
    exact Function.update_self ..

theorem vtActivate_path (h : Consistent P k) (vc : Nat) (perm : Bool) (arg : Nat) (mem : Bool) :
    Path P true k (k.vtActivate P vc perm arg mem).2 := by
  unfold vtActivate
  split_ifs
  · exact .refl
  · exact .refl
  · cases hfind : k.findVc P (arg - 1) with
    | some q =>
      dsimp only
      split_ifs
      · exact .refl
      · exact k.setConsole_path _ _ fun p hp => by
          obtain rfl := Option.some.inj hp
          exact h.holds_found hfind
    | none =>
      have halloc : Path P true k
          (k.acquireConsoleSem.vcAllocate P mem (arg - 1)).2.releaseConsoleSem :=
        Path.locked (vcAllocate_path _ mem (arg - 1) hfind)
      dsimp only
      cases hq : (k.acquireConsoleSem.vcAllocate P mem (arg - 1)).1 with
      | none => exact halloc
      | some q =>
        dsimp only
        split_ifs
        · exact halloc
        · dsimp only
          refine halloc.trans (setConsole_path _ _ _ fun p hp => ?_)
          obtain rfl := Option.some.inj hp
          exact (vcAllocate_holds _ hq).1

/-- A console of the number that `vc` waits to switch to is of the VT of `vc`. -/
theorem displayFg_of_newvt (h : Consistent P k) {vc : Nat} (hvc : vc < k.next)
    (hnewvt : 0 ≤ (k.con vc).vtNewvt) {v : Fin N} (hv : P.Has v (k.con vc).vtNewvt.toNat) :
    v = (k.con vc).displayFg := by
  have hown := h.newvt vc hvc hnewvt
  exact P.apart _ _ _ hv.1 hv.2 hown.1 hown.2

theorem clearNewvt_displayFg (vc p : Nat) :
    ((k.clearNewvt vc).con p).displayFg = (k.con p).displayFg := by
  unfold clearNewvt
  rw [updCon_con]
  split_ifs with hp
  · rw [hp]
  · rfl

/-- The console that `VT_RELDISP` switches to and the state in which it does: it
is found, or it is allocated. -/
inductive Released (P : Pools N) (k : Kernel N) (vc : Nat) (mem : Bool) : Kernel N → Nat → Prop
  | found {q : Nat} (hfind : k.findVc P (k.con vc).vtNewvt.toNat = some q) :
      Released P k vc mem k.acquireConsoleSem q
  | allocated (hfind : k.findVc P (k.con vc).vtNewvt.toNat = none) (hmem : mem = true)
      (hlt : (k.con vc).vtNewvt.toNat < maxNrConsoles) :
      Released P k vc mem
        (k.acquireConsoleSem.install P (k.con vc).displayFg (k.con vc).vtNewvt.toNat) k.next

/-- **All that `VT_RELDISP` does when a switch was pending**: it switches to a
console of the VT, or there is none and no memory for one. -/
theorem releaseDisplay_cases (h : Consistent P k) {vc : Nat} (hvc : vc < k.next)
    (hnewvt : 0 ≤ (k.con vc).vtNewvt) (mem : Bool) :
    (∃ k' q, Released P k vc mem k' q ∧ k'.Belongs (k.con vc).displayFg q ∧
      (k'.con vc).displayFg = (k.con vc).displayFg ∧
      (k.releaseDisplay P vc mem).2 = ((k'.clearNewvt vc).completeChangeConsole q
        (k'.vt (k.con vc).displayFg).fgConsole).releaseConsoleSem) ∨
    (k.findVc P (k.con vc).vtNewvt.toNat = none ∧
      ¬ (mem = true ∧ (k.con vc).vtNewvt.toNat < maxNrConsoles) ∧
      (k.releaseDisplay P vc mem).2 = (k.acquireConsoleSem.clearNewvt vc).releaseConsoleSem) := by
  have hpool := h.newvt vc hvc hnewvt
  unfold releaseDisplay
  dsimp only
  cases hfind : k.findVc P (k.con vc).vtNewvt.toNat with
  | some q =>
    have hacq : k.acquireConsoleSem.findVc P (k.con vc).vtNewvt.toNat = some q := hfind
    rw [hacq]
    obtain ⟨hlive, -, hhas, -⟩ := h.found hfind
    refine .inl ⟨_, q, .found hfind, ⟨h.live q hlive, ?_⟩, rfl, ?_⟩
    · exact k.displayFg_of_newvt h hvc hnewvt hhas
    · dsimp only
      rw [clearNewvt_displayFg]
      rfl
  | none =>
    have hacq : k.acquireConsoleSem.findVc P (k.con vc).vtNewvt.toNat = none := hfind
    rw [hacq]
    dsimp only
    rcases k.acquireConsoleSem.vcAllocate_cases (P := P) mem (k.con vc).vtNewvt.toNat
      with heq | ⟨v, hv, hlt, hmem, heq⟩
    · rw [heq]
      refine .inr ⟨rfl, ?_, rfl⟩
      -- A number of the pool for which there is memory is allocated.
      rintro ⟨rfl, hlt⟩
      unfold vcAllocate at heq
      rw [if_neg (Nat.not_le_of_lt hlt), poolOf_eq_some.mpr hpool] at heq
      cases heq
    · rw [heq]
      obtain rfl : v = (k.con vc).displayFg := k.displayFg_of_newvt h hvc hnewvt hv
      have hne : vc ≠ k.acquireConsoleSem.next := Nat.ne_of_lt hvc
      have hsame : ((k.acquireConsoleSem.install P (k.con vc).displayFg
          (k.con vc).vtNewvt.toNat).con vc).displayFg = (k.con vc).displayFg := by
        rw [install_con, if_neg hne]
        rfl
      refine .inl ⟨_, k.next, .allocated hfind hmem hlt, ⟨?_, ?_⟩, hsame, ?_⟩
      · rw [install_next]
        exact Nat.lt_succ_self _
      · rw [install_con, if_pos (show k.next = k.acquireConsoleSem.next from rfl)]
        rfl
      · dsimp only
        rw [clearNewvt_displayFg, hsame]
        rfl

theorem releaseDisplay_path (h : Consistent P k) {vc : Nat} (hvc : vc < k.next)
    (hnewvt : 0 ≤ (k.con vc).vtNewvt) (mem : Bool) :
    Path P true k (k.releaseDisplay P vc mem).2 := by
  have hclear : ∀ k' : Kernel N, Path P true k' (k'.clearNewvt vc) := fun k' =>
    .single (.updCon k' vc _ ⟨rfl, rfl, .inr rfl⟩)
  rcases k.releaseDisplay_cases h hvc hnewvt mem with ⟨k', q, hrel, hq, hdisp, heq⟩ | ⟨-, -, heq⟩
  · rw [heq]
    have hready : Path P true k.acquireConsoleSem k' ∧ k'.Holds (k.con vc).displayFg q := by
      cases hrel with
      | found hfind =>
        refine ⟨.refl, ?_⟩
        have hholds := h.holds_found hfind
        rw [show (k.con q).displayFg = (k.con vc).displayFg from hq.2] at hholds
        exact hholds
      | allocated hfind _ _ =>
        refine ⟨.single (.install _ _ _ rfl (h.newvt vc hvc hnewvt) hfind),
          .inl ⟨(k.con vc).vtNewvt.toNat - P.firstVc (k.con vc).displayFg, ?_⟩⟩
        rw [install_vt, if_pos rfl]
        exact Function.update_self ..
    refine Path.locked ((hready.1.trans (hclear k')).trans ?_)
    exact completeChangeConsole_path _ hready.2 ((k'.clearNewvt_displayFg vc q).trans hq.2)
  · rw [heq]
    exact Path.locked (hclear _)

theorem vtReldisp_path (h : Consistent P k) {vc : Nat} (hvc : vc < k.next) (perm : Bool)
    (arg : Nat) (mem : Bool) : Path P true k (k.vtReldisp P vc perm arg mem).2 := by
  have hclear : Path P true k (k.clearNewvt vc) := .single (.updCon k vc _ ⟨rfl, rfl, .inr rfl⟩)
  unfold vtReldisp
  split_ifs with _ _ hnewvt
  · exact .refl
  · exact .refl
  · exact hclear
  · exact k.releaseDisplay_path h hvc hnewvt mem
  · exact .refl
  · exact .refl

theorem vtResize_path (vc : Nat) (perm : Bool) (sizes : Option (Nat × Nat)) :
    Path P b k (k.vtResize P vc perm sizes).2 := by
  unfold vtResize
  split_ifs
  · exact .refl
  · exact .refl
  · dsimp only
    generalize List.range _ = l
    induction l generalizing k with
    | nil => exact .refl
    | cons i l ih =>
      have hsem : Path P b k k.acquireConsoleSem.releaseConsoleSem := .quiet rfl rfl rfl rfl rfl rfl
      exact hsem.trans (ih _)

theorem setDontSwitch_path (vc : Nat) (cap l : Bool) : Path P b k (k.setDontSwitch vc cap l).2 := by
  unfold setDontSwitch
  split_ifs
  · exact .refl
  · exact .single (.lock k _ l)

theorem vtOpenFirst_path (n : Nat) (mem : Bool) (hfree : k.findVc P n = none) :
    Path P true k (k.vtOpenFirst P n mem) := by
  have halloc := vcAllocate_path k.acquireConsoleSem mem n hfree
  unfold vtOpenFirst
  rcases hr : k.acquireConsoleSem.vcAllocate P mem n with ⟨r, k'⟩
  rw [hr] at halloc
  cases r with
  | none => exact Path.locked halloc
  | some p => exact Path.locked (halloc.tail (.updCon k' p _ ⟨rfl, rfl, .inl ⟨rfl, rfl⟩⟩))

theorem vtOpen_path (n : Nat) (mem : Bool)
    (hfree : ∀ q, k.findVc P n = some q → (k.con q).vcTty.isSome) :
    Path P true k (k.vtOpen P n mem) := by
  unfold vtOpen
  cases hfind : k.findVc P n with
  | some q =>
    have hset := Move.updCon (P := P) (b := true) k q
      (fun c => { c with vcTty := c.vcTty.map (· + 1) }) ⟨rfl, rfl, .inl ⟨rfl, rfl⟩⟩
    dsimp only
    rw [if_pos (hfree q hfind)]
    exact .single hset
  | none => exact k.vtOpenFirst_path n mem hfind

end Kernel

/-! ### Every operation -/

/-- `VT_DISALLOCATE`. -/
def Op.Disallocates : Op N → Prop
  | .ioctl _ _ _ (.vtDisallocate _) => True
  | _ => False

/-- The operation opens a tty that nobody has open and whose console is
allocated. -/
def Op.Reopens (P : Pools N) (k : Kernel N) : Op N → Prop
  | .ttyOpen n _ => ∃ q, k.findVc P n = some q ∧ (k.con q).vcTty = none
  | _ => False

/-- The operations that can complete a switch or allocate a console. -/
def Op.MaySwitch : Op N → Prop
  | .work _ | .ioctl _ _ _ (.vtActivate _ _) | .ioctl _ _ _ (.vtReldisp _ _) | .ttyOpen _ _ => True
  | _ => False

/-- **Every operation that does not free a console and does not put one in the
place of another is a sequence of elementary changes**, and unless it is one of
four it leaves the foreground consoles alone. -/
theorem exec_path {b : Bool} {k : Kernel N} (h : Consistent P k) (op : Op N)
    (hb : op.MaySwitch → b = true) (htty : ∀ vc ∈ op.tty, k.live vc) (hfree : ¬ op.Disallocates)
    (hopen : ¬ op.Reopens P k) : Path P b k (k.exec P op) := by
  cases op with
  | write irq vc cmds => exact k.vtWrite_path h irq vc cmds
  | key v sym up => exact k.kbdEvent_path h v sym up
  | scroll v lines => exact .quiet rfl rfl rfl rfl rfl rfl
  | work v =>
    obtain rfl := hb trivial
    exact k.vtCallback_path h v
  | blankTimer v keventd =>
    change Path P b k (k.blankScreenT v keventd)
    unfold Kernel.blankScreenT
    split_ifs
    · exact .quiet rfl rfl rfl rfl rfl rfl
    · exact .refl
  | ioctl vc perm cap cmd =>
    have hvc : vc < k.next := h.live vc (htty vc rfl)
    cases cmd with
    | kdSetmode arg => exact k.kdSetmode_path vc perm arg
    | vtSetmode tmp pid => exact k.vtSetmode_path vc perm tmp pid
    | vtGetmode => exact .quiet rfl rfl rfl rfl rfl rfl
    | vtActivate arg mem =>
      obtain rfl := hb trivial
      exact k.vtActivate_path h vc perm arg mem
    | vtReldisp arg mem =>
      obtain rfl := hb trivial
      exact k.vtReldisp_path h hvc perm arg mem
    | vtDisallocate arg => exact absurd trivial hfree
    | vtResize sizes => exact k.vtResize_path vc perm sizes
    | vtLockswitch => exact k.setDontSwitch_path vc cap true
    | vtUnlockswitch => exact k.setDontSwitch_path vc cap false
  | ttyOpen n mem =>
    obtain rfl := hb trivial
    refine k.vtOpen_path n mem fun q hq => ?_
    rw [Option.isSome_iff_ne_none]
    exact fun hnone => hopen ⟨q, hq, hnone⟩
  | ttyClose vc => exact Path.locked (.single (.updCon _ vc _ ⟨rfl, rfl, .inl ⟨rfl, rfl⟩⟩))
  | resetVc vc => exact k.resetVc_path vc
  | setSelection vc =>
    have hpoke : Path P b k (k.acquireConsoleSem.pokeBlankedConsole (k.con vc).displayFg) :=
      .quiet rfl rfl rfl rfl rfl rfl
    exact (hpoke.tail (.select _ (k.con vc).displayFg)).trans
      (Path.quiet rfl rfl rfl rfl rfl rfl)
  | vcsOpen f minor =>
    change Path P b k (k.vcsOpen P f minor)
    unfold Kernel.vcsOpen
    split
    · exact .refl
    · rename_i p hp
      exact .single (.vcsOpen k f _ _ p (h.found hp).2.2.2)
  | vcsClose f => exact .single (.vcsClose k f)
  | processes killProc => exact .quiet rfl rfl rfl rfl rfl rfl

/-- What a tty is opened on is a state as consistent as the one before. -/
theorem Consistent.vtOpen {k : Kernel N} (h : Consistent P k) (n : Nat) (mem : Bool) :
    Consistent P (k.vtOpen P n mem) := by
  have hacq : Consistent P k.acquireConsoleSem := h.quiet rfl rfl rfl rfl
  have hfirst : Consistent P (k.vtOpenFirst P n mem) := by
    unfold Kernel.vtOpenFirst
    rcases k.acquireConsoleSem.vcAllocate_cases (P := P) mem n with heq | ⟨v, hv, -, -, heq⟩
    · rw [heq]; exact hacq.quiet rfl rfl rfl rfl
    · rw [heq]
      have hset := (hacq.install hv).updCon (p := k.next)
        (f := fun c => { c with vcTty := some 1 }) ⟨rfl, rfl, .inl ⟨rfl, rfl⟩⟩
      exact hset.quiet rfl rfl rfl rfl
  unfold Kernel.vtOpen
  split
  · split_ifs
    · exact h.updCon ⟨rfl, rfl, .inl ⟨rfl, rfl⟩⟩
    · exact hfirst
  · exact hfirst

theorem Consistent.disallocateUnused {k : Kernel N} (h : Consistent P k) (vc i : Nat) :
    Consistent P (k.disallocateUnused P vc i) := by
  unfold Kernel.disallocateUnused
  split
  · rename_i tmp htmp
    split_ifs
    · exact h
    · exact h.vcDisallocate (h.found htmp).2.2.2
  · exact h

theorem Consistent.vtDisallocate {k : Kernel N} (h : Consistent P k) (vc arg : Nat) :
    Consistent P (k.vtDisallocate P vc arg).2 := by
  have hacq : Consistent P k.acquireConsoleSem := h.quiet rfl rfl rfl rfl
  unfold Kernel.vtDisallocate
  split_ifs
  · exact h
  · have hloop : ∀ l : List Nat,
        Consistent P (l.foldl (Kernel.disallocateUnused P vc) k.acquireConsoleSem) := fun l =>
      List.foldlRecOn l _ hacq fun k hk i _ => hk.disallocateUnused vc i
    exact (hloop _).quiet rfl rfl rfl rfl
  · split
    · exact h
    · rename_i tmp htmp
      split_ifs
      · exact h
      · exact (hacq.vcDisallocate (h.found htmp).2.2.2).quiet rfl rfl rfl rfl

/-- **Every operation leaves a consistent state.** -/
theorem Consistent.step {k : Kernel N} (h : Consistent P k) (op : Op N) :
    Consistent P (k.step P op) := by
  have hfresh : Consistent P k.fresh := h.quiet rfl rfl rfl rfl
  unfold Kernel.step
  split_ifs with htty
  · by_cases hdis : op.Disallocates
    · cases op with
      | ioctl vc perm cap cmd =>
        cases cmd with
        | vtDisallocate arg => exact hfresh.vtDisallocate vc arg
        | _ => exact absurd hdis id
      | _ => exact absurd hdis id
    · by_cases hopen : op.Reopens P k.fresh
      · cases op with
        | ttyOpen n mem => exact hfresh.vtOpen n mem
        | _ => exact absurd hopen id
      · exact (exec_path hfresh op (fun _ => rfl) htty hdis hopen).consistent hfresh
  · exact hfresh

theorem boot_consistent (P : Pools (N + 1)) : Consistent P (Kernel.boot P) := by
  have hself : ∀ v : Fin (N + 1), Fin.ofNat (N + 1) v.val = v := fun v => by
    ext; exact Nat.mod_eq_of_lt v.isLt
  have hfirst : ∀ v, P.Has v (P.firstVc v) := fun v =>
    ⟨Nat.le_refl _, Nat.lt_add_of_pos_right (P.count_pos v)⟩
  have hbelongs : ∀ v : Fin (N + 1), (Kernel.boot P).Belongs v v := fun v => ⟨v.isLt, hself v⟩
  refine ⟨fun p _ => hfirst _, ?_, ?_, hbelongs, hbelongs, hbelongs, ?_⟩
  · intro p hp
    simpa [Kernel.boot] using hp
  · intro v i p hp
    simp only [Kernel.boot] at hp
    split_ifs at hp with hi
    obtain rfl := Option.some.inj hp
    subst hi
    refine ⟨decide_eq_true v.isLt, hself v, ?_⟩
    change P.firstVc (Fin.ofNat (N + 1) v.val) = _
    rw [hself]
    rfl
  · intro p _ hn
    simp [Kernel.boot, Kernel.newVc] at hn

theorem activated_consistent : Consistent onePool Kernel.activated :=
  (boot_consistent onePool).step _

end LinuxConsole.Switch

import LinuxConsole.Switch.SwitchLock

/-!
# The console semaphore

The events of `console_sem` on the path of an operation.  `complete_change_console`
takes the semaphore to blank or unblank the screen when the modes of the two
consoles differ, and both its callers, `vt_callback` and `VT_RELDISP`, hold it
already.  A write that reads through a null pointer never gives it back.

**`semaphore_iff`** says that nothing else goes wrong: a path is disciplined
(`Lib.Disciplined`) exactly when it completes no switch between consoles of
different modes and asks for no console that is not there.
-/

namespace LinuxConsole.Switch

open Lib (LockEvent Disciplined lockAfter)

variable {N : Nat} {P : Pools N}

/-- `change_console` does not wait for the console that is shown: it is in text
mode, or under the control of a process that is gone. -/
def Kernel.LeavesAtOnce (k : Kernel N) (old : Nat) : Prop :=
  let c := k.con old
  (c.vtMode.mode = .process ∧ k.killProc c.vtPid c.vtMode.relsig = false) ∨
    (c.vtMode.mode ≠ .process ∧ c.vcMode = .text)

instance (k : Kernel N) (old : Nat) : Decidable (k.LeavesAtOnce old) :=
  inferInstanceAs (Decidable (_ ∨ _))

/-- `vt_callback` gets as far as completing a switch. -/
def Kernel.CallbackSwitches (k : Kernel N) (v : Fin N) : Prop :=
  (k.con (k.vt v).wantVc).vcTty ≠ none ∧ (k.vt v).wantVc ≠ (k.vt v).fgConsole ∧
    (k.vt v).vtDontSwitch = false ∧ k.LeavesAtOnce (k.vt v).fgConsole

instance (k : Kernel N) (v : Fin N) : Decidable (k.CallbackSwitches v) :=
  inferInstanceAs (Decidable (_ ∧ _))

/-- What an operation needs of the state for its path to be disciplined. -/
def Kernel.SafePath (P : Pools N) (k : Kernel N) : Op N → Prop
  | .write irq vc cmds =>
    irq = false → ∀ p ∈ vc, k.live p → ∀ c ∈ cmds, c.1 = 12 → (k.findVc P c.2).isSome
  | .work v => k.CallbackSwitches v → (k.con (k.vt v).wantVc).vcMode = .text
  | .ioctl vc perm _ (.vtReldisp arg mem) =>
    k.live vc → perm = true → (k.con vc).vtMode.mode = .process → 0 ≤ (k.con vc).vtNewvt →
      arg ≠ 0 →
      match k.findVc P (k.con vc).vtNewvt.toNat with
      | some q => (k.con q).vcMode = k.fgMode (k.con vc).displayFg
      | none =>
        mem = true → (k.con vc).vtNewvt.toNat < maxNrConsoles →
          P.firstVc (k.con vc).displayFg = (k.con vc).vtNewvt.toNat ∨
            k.fgMode (k.con vc).displayFg = .text
  | _ => True

/-! ### The events of each function -/

namespace Kernel

variable (k : Kernel N)

theorem setConsole_sem (v : Fin N) (tmp : Option Nat) : (k.setConsole v tmp).sem = k.sem := by
  cases tmp <;> rfl

theorem vcAllocate_sem (mem : Bool) (n : Nat) : (k.vcAllocate P mem n).2.sem = k.sem := by
  rcases k.vcAllocate_cases (P := P) mem n with heq | ⟨v, -, -, -, heq⟩
  · rw [heq]
  · rw [heq]
    exact k.install_sem v n

theorem completeChangeConsole_sem (new old : Nat) :
    (k.completeChangeConsole new old).sem =
      k.sem ++ if (k.con old).vcMode = (k.con new).vcMode then [] else [.acquire, .release] := by
  obtain ⟨s, hs⟩ := k.completeChangeConsole_eq new old
  rw [hs]
  split_ifs <;> simp_all [switched, resetVc, updCon]

/-- `change_console` completes the switch at once only from a console in text
mode, or in the text mode that the reset leaves. -/
theorem changeConsole_sem {new old : Nat} (hne : new ≠ old) :
    (k.changeConsole new old).sem =
      k.sem ++ if k.LeavesAtOnce old ∧ (k.con new).vcMode ≠ .text then [.acquire, .release]
        else [] := by
  have hauto : ∀ k' : Kernel N, k'.sem = k.sem → (k'.con new).vcMode = (k.con new).vcMode →
      (k'.changeConsoleAuto new old).sem =
        k.sem ++ if (k'.con old).vcMode = .text ∧ (k.con new).vcMode ≠ .text
          then [.acquire, .release] else [] := by
    intro k' hsem hmode
    unfold changeConsoleAuto
    by_cases hgfx : (k'.con old).vcMode = .graphics
    · rw [if_pos hgfx, if_neg (by rw [hgfx]; rintro ⟨h, -⟩; cases h), hsem, List.append_nil]
    · have htext : (k'.con old).vcMode = .text := by
        cases hm : (k'.con old).vcMode with
        | text => rfl
        | graphics => exact absurd hm hgfx
      rw [if_neg hgfx, completeChangeConsole_sem, hsem, hmode, htext]
      by_cases hnew : (k.con new).vcMode = .text
      · simp [hnew]
      · rw [if_neg (fun h => hnew h.symm), if_pos ⟨rfl, hnew⟩]
  unfold changeConsole
  dsimp only
  by_cases hproc : (k.con old).vtMode.mode = .process
  · rw [if_pos hproc]
    cases hkill : k.killProc (k.con old).vtPid (k.con old).vtMode.relsig with
    | true => simp [LeavesAtOnce, hproc, hkill, awaitRelease, updCon, updVt]
    | false =>
      have hreset := hauto (k.resetVc old) rfl (by
        unfold resetVc
        rw [updCon_con, if_neg hne])
      rw [if_neg (by decide), hreset]
      simp [LeavesAtOnce, hproc, hkill, resetVc, updCon_con]
  · rw [if_neg hproc, hauto k rfl rfl]
    simp [LeavesAtOnce, hproc]

theorem vtCallback_sem (v : Fin N) :
    (k.vtCallback v).sem =
      if (k.con (k.vt v).wantVc).vcTty = none then k.sem
      else k.sem ++ .acquire ::
        ((if k.CallbackSwitches v ∧ (k.con (k.vt v).wantVc).vcMode ≠ .text
          then [.acquire, .release] else []) ++ [.release]) := by
  have hasked : (k.vt v).wantVc ≠ (k.vt v).fgConsole ∧ (k.vt v).vtDontSwitch = false →
      (k.acquireConsoleSem.switchToWanted v).sem =
        (k.sem ++ [.acquire]) ++
          if k.LeavesAtOnce (k.vt v).fgConsole ∧ (k.con (k.vt v).wantVc).vcMode ≠ .text
            then [.acquire, .release] else [] := by
    intro hswitch
    have heq : k.acquireConsoleSem.switchToWanted v =
        (k.acquireConsoleSem.hand v (some (k.vt v).wantVc)).changeConsole (k.vt v).wantVc
          (k.vt v).fgConsole := if_pos hswitch
    rw [heq]
    exact changeConsole_sem _ hswitch.1
  unfold vtCallback
  by_cases htty : (k.con (k.vt v).wantVc).vcTty = none
  · rw [if_pos htty, if_pos htty]
  · rw [if_neg htty, if_neg htty]
    change (k.acquireConsoleSem.switchToWanted v).sem ++ [.release] = _
    by_cases hswitch : (k.vt v).wantVc ≠ (k.vt v).fgConsole ∧ (k.vt v).vtDontSwitch = false
    · have hsame : (k.CallbackSwitches v ∧ (k.con (k.vt v).wantVc).vcMode ≠ .text) ↔
          (k.LeavesAtOnce (k.vt v).fgConsole ∧ (k.con (k.vt v).wantVc).vcMode ≠ .text) := by
        unfold CallbackSwitches
        simp [htty, hswitch]
      rw [hasked hswitch]
      simp only [hsame, List.append_assoc, List.cons_append, List.nil_append]
    · have heq : k.acquireConsoleSem.switchToWanted v = k.acquireConsoleSem := if_neg hswitch
      have hnot : ¬ (k.CallbackSwitches v ∧ (k.con (k.vt v).wantVc).vcMode ≠ .text) :=
        fun hc => hswitch ⟨hc.1.2.1, hc.1.2.2.1⟩
      rw [heq, if_neg hnot]
      simp [acquireConsoleSem]

/-! ### The events of a write -/

theorem settermCommand_sem (vc par0 par1 : Nat) :
    (k.settermCommand P vc par0 par1).sem = k.sem := by
  unfold settermCommand
  dsimp only
  split <;> first | rfl | exact k.setConsole_sem _ _

/-- A command reads through a null pointer when it asks for a console that is
not there. -/
theorem settermCommand_oops_iff {k : Kernel N} (hoops : k.oops = false) (vc par0 par1 : Nat) :
    (k.settermCommand P vc par0 par1).oops = true ↔ par0 = 12 ∧ k.findVc P par1 = none := by
  by_cases h12 : par0 = 12
  · subst h12
    simp only [settermCommand, true_and]
    cases k.findVc P par1 with
    | none => simp [setConsole]
    | some p => simpa [setConsole, hand, updVt] using hoops
  · have hsame : (k.settermCommand P vc par0 par1).oops = k.oops := by
      unfold settermCommand
      split <;> first | rfl | contradiction
    rw [hsame, hoops]
    simp [h12]

theorem settermCommand_findVc (vc par0 par1 n : Nat) :
    (k.settermCommand P vc par0 par1).findVc P n = k.findVc P n := by
  obtain ⟨-, -, hvt⟩ := k.settermCommand_frame (P := P) vc par0 par1
  unfold findVc
  simp only [(hvt _).1]

/-- The loop of a write ends with the semaphore given back, or it reads through
a null pointer and does not give it back. -/
theorem emulate_sem (vc : Nat) (cmds : List (Nat × Nat)) (k : Kernel N) (hoops : k.oops = false) :
    if ∀ c ∈ cmds, c.1 = 12 → (k.findVc P c.2).isSome then
      (emulate P vc cmds k).sem = k.sem ++ [.release] ∧ (emulate P vc cmds k).oops = false
    else (emulate P vc cmds k).sem = k.sem ∧ (emulate P vc cmds k).oops = true := by
  induction cmds generalizing k with
  | nil =>
    rw [if_pos (fun c hc => by cases hc)]
    exact ⟨rfl, hoops⟩
  | cons c cmds ih =>
    obtain ⟨par0, par1⟩ := c
    have hbad := settermCommand_oops_iff (P := P) hoops vc par0 par1
    unfold emulate
    dsimp only
    by_cases hoops' : (k.settermCommand P vc par0 par1).oops = true
    · obtain ⟨h12, hnone⟩ := hbad.mp hoops'
      rw [if_pos hoops', if_neg]
      · exact ⟨k.settermCommand_sem vc par0 par1, hoops'⟩
      · intro hall
        have := hall _ List.mem_cons_self h12
        rw [hnone] at this
        cases this
    · have hgood : par0 = 12 → (k.findVc P par1).isSome := fun h12 => by
        rw [Option.isSome_iff_ne_none]
        exact fun hnone => hoops' (hbad.mpr ⟨h12, hnone⟩)
      have hrest := ih _ (by simpa using hoops')
      simp only [settermCommand_findVc, settermCommand_sem] at hrest
      rw [if_neg hoops']
      by_cases hall : ∀ c ∈ cmds, c.1 = 12 → (k.findVc P c.2).isSome
      · rw [if_pos hall] at hrest
        rw [if_pos (List.forall_mem_cons.mpr ⟨hgood, hall⟩)]
        exact hrest
      · rw [if_neg hall] at hrest
        rw [if_neg fun h => hall (List.forall_mem_cons.mp h).2]
        exact hrest

/-- **A write is disciplined when it asks for no console that is not there.** -/
theorem vtWrite_disciplined {k : Kernel N} (hoops : k.oops = false) (hsem : k.sem = [])
    (irq : Bool) (vc : Option Nat) (cmds : List (Nat × Nat)) :
    Disciplined (k.vtWrite P irq vc cmds).sem ↔
      (irq = false → ∀ p ∈ vc, ∀ c ∈ cmds, c.1 = 12 → (k.findVc P c.2).isSome) := by
  rw [Lib.disciplined_iff]
  unfold vtWrite vtFlushChars doConWrite
  cases irq with
  | true => simp [hsem, hoops]
  | false =>
    cases vc with
    | none => simp [hsem, hoops, acquireConsoleSem, releaseConsoleSem]
    | some p =>
      have hloop := emulate_sem (P := P) p cmds
        k.acquireConsoleSem.releaseConsoleSem.acquireConsoleSem hoops
      have hfind : ∀ n, k.acquireConsoleSem.releaseConsoleSem.acquireConsoleSem.findVc P n =
          k.findVc P n := fun _ => rfl
      simp only [hfind] at hloop
      simp only [Bool.false_eq_true, if_false, true_implies, Option.mem_some_iff, forall_eq']
      by_cases hall : ∀ c ∈ cmds, c.1 = 12 → (k.findVc P c.2).isSome
      · rw [if_pos hall] at hloop
        refine iff_of_true ?_ hall
        rw [if_neg (by simp [hloop.2])]
        change lockAfter false (((emulate P p cmds _).sem ++ [_]) ++ [_]) = _
        rw [hloop.1]
        simp [acquireConsoleSem, releaseConsoleSem, hsem]
      · rw [if_neg hall] at hloop
        refine iff_of_false ?_ hall
        rw [if_pos hloop.2, hloop.1]
        simp [acquireConsoleSem, releaseConsoleSem, hsem]

/-! ### The events of the ioctls -/

theorem kdSetmode_sem (vc : Nat) (perm : Bool) (arg : Nat) :
    (k.kdSetmode vc perm arg).2.sem = k.sem ∨
      (k.kdSetmode vc perm arg).2.sem = k.sem ++ [.acquire, .release] := by
  have hto : ∀ mode, (k.kdSetmodeTo vc mode).2.sem = k.sem ∨
      (k.kdSetmodeTo vc mode).2.sem = k.sem ++ [.acquire, .release] := by
    intro mode
    unfold kdSetmodeTo
    dsimp only
    split_ifs
    · exact .inl rfl
    · obtain ⟨s, hs⟩ := blankForMode_eq
        (k.updCon vc fun c => { c with vcMode := mode }).acquireConsoleSem vc
      dsimp only
      rw [hs]
      exact .inr (by simp [acquireConsoleSem, releaseConsoleSem, updCon])
    · exact .inl rfl
  unfold kdSetmode
  split_ifs
  · exact .inl rfl
  · split
    · exact hto _
    · exact hto _
    · exact hto _
    · exact hto _
    · exact .inl rfl

theorem vtSetmode_sem (vc : Nat) (perm : Bool) (tmp : Option UserVtMode) (pid : Int) :
    (k.vtSetmode vc perm tmp pid).2.sem = k.sem ∨
      (k.vtSetmode vc perm tmp pid).2.sem = k.sem ++ [.acquire, .release] := by
  have hto : ∀ mode t, (k.vtSetmodeTo vc mode t pid).sem = k.sem ++ [.acquire, .release] := by
    intro mode t
    simp [vtSetmodeTo, acquireConsoleSem, releaseConsoleSem, updCon]
  unfold vtSetmode
  split_ifs
  · exact .inl rfl
  · split
    · exact .inl rfl
    · split_ifs
      · exact .inr (hto _ _)
      · exact .inr (hto _ _)
      · exact .inl rfl

theorem vtActivate_sem (vc : Nat) (perm : Bool) (arg : Nat) (mem : Bool) :
    (k.vtActivate P vc perm arg mem).2.sem = k.sem ∨
      (k.vtActivate P vc perm arg mem).2.sem = k.sem ++ [.acquire, .release] := by
  have halloc : (k.acquireConsoleSem.vcAllocate P mem (arg - 1)).2.releaseConsoleSem.sem =
      k.sem ++ [.acquire, .release] := by
    change (k.acquireConsoleSem.vcAllocate P mem (arg - 1)).2.sem ++ [.release] = _
    rw [vcAllocate_sem]
    simp [acquireConsoleSem]
  unfold vtActivate
  split_ifs
  · exact .inl rfl
  · exact .inl rfl
  · cases k.findVc P (arg - 1) with
    | some q =>
      dsimp only
      split_ifs
      · exact .inl rfl
      · exact .inl (k.setConsole_sem _ _)
    | none =>
      dsimp only
      cases (k.acquireConsoleSem.vcAllocate P mem (arg - 1)).1 with
      | none => exact .inr halloc
      | some q =>
        dsimp only
        split_ifs
        · exact .inr halloc
        · exact .inr ((setConsole_sem _ _ _).trans halloc)

theorem vcDisallocate_sem (p : Nat) : (k.vcDisallocate P p).sem = k.sem := by
  unfold vcDisallocate
  dsimp only
  split_ifs <;> rfl

theorem vtDisallocate_sem (vc arg : Nat) :
    (k.vtDisallocate P vc arg).2.sem = k.sem ∨
      (k.vtDisallocate P vc arg).2.sem = k.sem ++ [.acquire, .release] := by
  have hround : ∀ (k : Kernel N) (i : Nat), (disallocateUnused P vc k i).sem = k.sem := by
    intro k i
    unfold disallocateUnused
    split
    · split_ifs
      · rfl
      · exact k.vcDisallocate_sem _
    · rfl
  have hloop : ∀ (l : List Nat) (k : Kernel N),
      (l.foldl (disallocateUnused P vc) k).sem = k.sem := by
    intro l
    induction l with
    | nil => intro k; rfl
    | cons i l ih => intro k; exact (ih _).trans (hround k i)
  unfold vtDisallocate
  split_ifs
  · exact .inl rfl
  · refine .inr ?_
    change (List.foldl _ k.acquireConsoleSem _).sem ++ [.release] = _
    rw [hloop]
    simp [acquireConsoleSem]
  · split
    · exact .inl rfl
    · split_ifs
      · exact .inl rfl
      · refine .inr ?_
        change (k.acquireConsoleSem.vcDisallocate P _).sem ++ [.release] = _
        rw [vcDisallocate_sem]
        simp [acquireConsoleSem]

theorem vtOpen_sem (n : Nat) (mem : Bool) :
    (k.vtOpen P n mem).sem = k.sem ∨ (k.vtOpen P n mem).sem = k.sem ++ [.acquire, .release] := by
  have hfirst : (k.vtOpenFirst P n mem).sem = k.sem ++ [.acquire, .release] := by
    have halloc := k.acquireConsoleSem.vcAllocate_sem (P := P) mem n
    unfold vtOpenFirst
    rcases hr : k.acquireConsoleSem.vcAllocate P mem n with ⟨r, k'⟩
    rw [hr] at halloc
    have hrel : k'.sem ++ [.release] = k.sem ++ [.acquire, .release] := by
      rw [show k'.sem = k.sem ++ [.acquire] from halloc]
      simp
    cases r <;> exact hrel
  unfold vtOpen
  split
  · split_ifs
    · exact .inl rfl
    · exact .inr hfirst
  · exact .inr hfirst

theorem vtResize_disciplined {k : Kernel N} (hsem : k.sem = []) (vc : Nat) (perm : Bool)
    (sizes : Option (Nat × Nat)) : Disciplined (k.vtResize P vc perm sizes).2.sem := by
  rw [Lib.disciplined_iff]
  have hloop : ∀ (l : List Nat) (k : Kernel N), lockAfter false k.sem = some false →
      lockAfter false
        (l.foldl (fun k _ => k.acquireConsoleSem.releaseConsoleSem) k).sem = some false := by
    intro l
    induction l with
    | nil => intro k hk; exact hk
    | cons i l ih =>
      intro k hk
      refine ih _ ?_
      simp [acquireConsoleSem, releaseConsoleSem, Lib.lockAfter_append, hk]
  unfold vtResize
  split_ifs
  · rw [hsem]; rfl
  · rw [hsem]; rfl
  · exact hloop _ k (by rw [hsem]; rfl)

theorem releaseDisplay_sem (h : Consistent P k) {vc : Nat} (hvc : vc < k.next)
    (hnewvt : 0 ≤ (k.con vc).vtNewvt) (mem : Bool) :
    (k.releaseDisplay P vc mem).2.sem =
      k.sem ++ .acquire ::
        ((match k.findVc P (k.con vc).vtNewvt.toNat with
          | some q =>
            if k.fgMode (k.con vc).displayFg = (k.con q).vcMode then []
            else [.acquire, .release]
          | none =>
            if mem = true ∧ (k.con vc).vtNewvt.toNat < maxNrConsoles ∧
                P.firstVc (k.con vc).displayFg ≠ (k.con vc).vtNewvt.toNat ∧
                k.fgMode (k.con vc).displayFg ≠ .text
              then [.acquire, .release]
            else []) ++ [.release]) := by
  have hmode : ∀ (k' : Kernel N) (p : Nat),
      ((k'.clearNewvt vc).con p).vcMode = (k'.con p).vcMode := by
    intro k' p
    unfold clearNewvt
    rw [updCon_con]
    split_ifs with hp
    · rw [hp]
    · rfl
  rcases k.releaseDisplay_cases h hvc hnewvt mem with
    ⟨k', q, hrel, hq, hdisp, heq⟩ | ⟨hfind, hidle, heq⟩
  · have hswitch : (k.releaseDisplay P vc mem).2.sem =
        k'.sem ++ ((if k'.fgMode (k.con vc).displayFg = (k'.con q).vcMode then []
          else [.acquire, .release]) ++ [.release]) := by
      rw [heq]
      change ((k'.clearNewvt vc).completeChangeConsole q _).sem ++ [.release] = _
      rw [completeChangeConsole_sem, hmode, hmode, List.append_assoc]
      rfl
    rw [hswitch]
    cases hrel with
    | found hfind =>
      rw [hfind]
      change (k.sem ++ [.acquire]) ++ _ = _
      rw [List.append_assoc]
      rfl
    | allocated hfind hmem hlt =>
      rw [hfind]
      have hsem := k.acquireConsoleSem.vcAllocate_sem (P := P) mem (k.con vc).vtNewvt.toNat
      have hnew : ((k.acquireConsoleSem.install P (k.con vc).displayFg
          (k.con vc).vtNewvt.toNat).con k.next).vcMode = .text := by
        rw [install_con, if_pos (show k.next = k.acquireConsoleSem.next from rfl)]
        rfl
      have hfg : (k.vt (k.con vc).displayFg).fgConsole ≠ k.acquireConsoleSem.next :=
        Nat.ne_of_lt (h.fg _).1
      rw [install_sem, hnew]
      change (k.sem ++ [.acquire]) ++ _ = _
      rw [List.append_assoc]
      -- The new console is the foreground already, or the old one still is.
      by_cases hfirst : P.firstVc (k.con vc).displayFg = (k.con vc).vtNewvt.toNat
      · have hsame : (k.acquireConsoleSem.install P (k.con vc).displayFg
            (k.con vc).vtNewvt.toNat).fgMode (k.con vc).displayFg = .text := by
          unfold fgMode
          rw [install_vt, if_pos rfl, if_pos hfirst]
          exact hnew
        rw [if_pos hsame, if_neg (fun hc => hc.2.2.1 hfirst)]
        rfl
      · have hsame : (k.acquireConsoleSem.install P (k.con vc).displayFg
            (k.con vc).vtNewvt.toNat).fgMode (k.con vc).displayFg =
            k.fgMode (k.con vc).displayFg := by
          unfold fgMode
          rw [install_vt, if_pos rfl, if_neg hfirst, install_con]
          exact congrArg VcData.vcMode (if_neg hfg)
        rw [hsame]
        by_cases htext : k.fgMode (k.con vc).displayFg = .text
        · rw [if_pos htext, if_neg (fun hc => hc.2.2.2 htext)]
          rfl
        · rw [if_neg htext, if_pos ⟨hmem, hlt, hfirst, htext⟩]
          rfl
  · rw [heq, hfind, if_neg (fun hc => hidle ⟨hc.1, hc.2.1⟩)]
    change (k.sem ++ [.acquire]) ++ [.release] = _
    rw [List.append_assoc]
    rfl

end Kernel

/-! ### Steps and runs -/

private theorem disciplined_of_sections {k k' : Kernel N} (hsem : k.sem = [])
    (h : k'.sem = k.sem ∨ k'.sem = k.sem ++ [.acquire, .release]) : Disciplined k'.sem := by
  rw [hsem] at h
  rcases h with h | h
  · rw [h]; decide
  · rw [h]; decide

theorem vtCallback_disciplined {k : Kernel N} (hsem : k.sem = []) (v : Fin N) :
    Disciplined (k.vtCallback v).sem ↔ k.SafePath P (.work v) := by
  have hevents := k.vtCallback_sem v
  unfold Kernel.SafePath
  by_cases htty : (k.con (k.vt v).wantVc).vcTty = none
  · rw [if_pos htty, hsem] at hevents
    rw [hevents]
    exact iff_of_true (by decide) fun hc => absurd htty hc.1
  · rw [if_neg htty, hsem] at hevents
    by_cases hclash : k.CallbackSwitches v ∧ (k.con (k.vt v).wantVc).vcMode ≠ .text
    · rw [if_pos hclash] at hevents
      rw [hevents]
      exact iff_of_false (by decide) fun hs => hclash.2 (hs hclash.1)
    · rw [if_neg hclash] at hevents
      rw [hevents]
      exact iff_of_true (by decide) fun hc => by_contra fun hne => hclash ⟨hc, hne⟩

theorem vtReldisp_disciplined {k : Kernel N} (h : Consistent P k) (hsem : k.sem = []) {vc : Nat}
    (hvc : k.live vc) (perm cap : Bool) (arg : Nat) (mem : Bool) :
    Disciplined (k.vtReldisp P vc perm arg mem).2.sem ↔
      k.SafePath P (.ioctl vc perm cap (.vtReldisp arg mem)) := by
  by_cases hpend : perm = true ∧ (k.con vc).vtMode.mode = .process ∧ 0 ≤ (k.con vc).vtNewvt ∧
      arg ≠ 0
  · obtain ⟨rfl, hmode, hnewvt, harg⟩ := hpend
    have heq : k.vtReldisp P vc true arg mem = k.releaseDisplay P vc mem :=
      Kernel.vtReldisp_pending hmode hnewvt harg mem
    have hevents := k.releaseDisplay_sem h (h.live vc hvc) hnewvt mem
    rw [hsem] at hevents
    rw [heq, hevents]
    have hsafe : k.SafePath P (.ioctl vc true cap (.vtReldisp arg mem)) ↔
        match k.findVc P (k.con vc).vtNewvt.toNat with
        | some q => (k.con q).vcMode = k.fgMode (k.con vc).displayFg
        | none =>
          mem = true → (k.con vc).vtNewvt.toNat < maxNrConsoles →
            P.firstVc (k.con vc).displayFg = (k.con vc).vtNewvt.toNat ∨
              k.fgMode (k.con vc).displayFg = .text := by
      constructor
      · intro hs; exact hs hvc rfl hmode hnewvt harg
      · intro hs _ _ _ _ _; exact hs
    rw [hsafe]
    cases k.findVc P (k.con vc).vtNewvt.toNat with
    | some q =>
      dsimp only
      by_cases hsame : k.fgMode (k.con vc).displayFg = (k.con q).vcMode
      · rw [if_pos hsame]
        exact iff_of_true (by decide) hsame.symm
      · rw [if_neg hsame]
        exact iff_of_false (by decide) fun hs => hsame hs.symm
    | none =>
      dsimp only
      by_cases hclash : mem = true ∧ (k.con vc).vtNewvt.toNat < maxNrConsoles ∧
          P.firstVc (k.con vc).displayFg ≠ (k.con vc).vtNewvt.toNat ∧
          k.fgMode (k.con vc).displayFg ≠ .text
      · rw [if_pos hclash]
        refine iff_of_false (by decide) fun hs => ?_
        rcases hs hclash.1 hclash.2.1 with hfirst | htext
        · exact hclash.2.2.1 hfirst
        · exact hclash.2.2.2 htext
      · rw [if_neg hclash]
        refine iff_of_true (by decide) fun hmem hlt => ?_
        by_contra hboth
        obtain ⟨hfirst, htext⟩ := not_or.mp hboth
        exact hclash ⟨hmem, hlt, hfirst, htext⟩
  · rw [(Kernel.vtReldisp_idle hpend mem).2, hsem]
    exact iff_of_true (by decide) fun _ hperm hmode hnewvt harg =>
      absurd ⟨hperm, hmode, hnewvt, harg⟩ hpend

theorem exec_disciplined {k : Kernel N} (h : Consistent P k) (hoops : k.oops = false)
    (hsem : k.sem = []) (op : Op N) (htty : ∀ vc ∈ op.tty, k.live vc) :
    Disciplined (k.exec P op).sem ↔ k.SafePath P op := by
  have hidle : ∀ k' : Kernel N, k'.sem = k.sem → Disciplined k'.sem := fun k' hk' =>
    disciplined_of_sections hsem (.inl hk')
  cases op with
  | write irq vc cmds =>
    change Disciplined (k.vtWrite P irq vc cmds).sem ↔ _
    rw [Kernel.vtWrite_disciplined hoops hsem]
    constructor
    · intro hh hirq p hp _; exact hh hirq p hp
    · intro hh hirq p hp; exact hh hirq p hp (htty p hp)
  | key v sym up =>
    refine iff_of_true (hidle _ ?_) trivial
    change (k.kbdEvent P v sym up).sem = k.sem
    have hscan : ∀ vc d edge back, (k.fnScan P vc d edge back).sem = k.sem := by
      intro vc d edge back
      unfold Kernel.fnScan
      dsimp only
      split
      · exact k.setConsole_sem _ _
      · rfl
    cases sym with
    | cons value =>
      unfold Kernel.kbdEvent Kernel.kCons
      dsimp only
      split_ifs
      · rfl
      · rfl
      · exact k.setConsole_sem _ _
    | spec value =>
      change (k.kSpec P _ value up).sem = k.sem
      unfold Kernel.kSpec
      split_ifs
      · rfl
      · rfl
      · rfl
      · split
        · exact k.setConsole_sem _ _
        · rfl
        · exact hscan _ _ _ _
        · exact hscan _ _ _ _
        · rfl
  | work v => exact vtCallback_disciplined hsem v
  | blankTimer v keventd =>
    refine iff_of_true (hidle _ ?_) trivial
    change (k.blankScreenT v keventd).sem = k.sem
    unfold Kernel.blankScreenT
    split_ifs <;> rfl
  | ioctl vc perm cap cmd =>
    have hlock : ∀ l, (k.setDontSwitch vc cap l).2.sem = k.sem := by
      intro l
      unfold Kernel.setDontSwitch
      split_ifs <;> rfl
    cases cmd with
    | kdSetmode arg =>
      exact iff_of_true (disciplined_of_sections hsem (k.kdSetmode_sem vc perm arg)) trivial
    | vtSetmode tmp pid =>
      exact iff_of_true (disciplined_of_sections hsem (k.vtSetmode_sem vc perm tmp pid)) trivial
    | vtGetmode =>
      refine iff_of_true (disciplined_of_sections hsem (.inr ?_)) trivial
      change (k.sem ++ _) ++ _ = _
      simp
    | vtActivate arg mem =>
      exact iff_of_true (disciplined_of_sections hsem (k.vtActivate_sem vc perm arg mem)) trivial
    | vtReldisp arg mem => exact vtReldisp_disciplined h hsem (htty vc rfl) perm cap arg mem
    | vtDisallocate arg =>
      exact iff_of_true (disciplined_of_sections hsem (k.vtDisallocate_sem vc arg)) trivial
    | vtResize sizes => exact iff_of_true (Kernel.vtResize_disciplined hsem vc perm sizes) trivial
    | vtLockswitch => exact iff_of_true (hidle _ (hlock true)) trivial
    | vtUnlockswitch => exact iff_of_true (hidle _ (hlock false)) trivial
  | ttyOpen n mem =>
    exact iff_of_true (disciplined_of_sections hsem (k.vtOpen_sem n mem)) trivial
  | ttyClose vc =>
    refine iff_of_true (disciplined_of_sections hsem (.inr ?_)) trivial
    change (k.sem ++ _) ++ _ = _
    simp
  | setSelection vc =>
    refine iff_of_true (disciplined_of_sections hsem (.inr ?_)) trivial
    change (k.sem ++ _) ++ _ = _
    simp
  | vcsOpen f minor =>
    refine iff_of_true (hidle _ ?_) trivial
    change (k.vcsOpen P f minor).sem = k.sem
    unfold Kernel.vcsOpen
    split <;> rfl
  | scroll v lines => exact iff_of_true (hidle _ rfl) trivial
  | resetVc vc => exact iff_of_true (hidle _ rfl) trivial
  | vcsClose f => exact iff_of_true (hidle _ rfl) trivial
  | processes killProc => exact iff_of_true (hidle _ rfl) trivial

theorem step_disciplined {k : Kernel N} (h : Consistent P k) (op : Op N) :
    Disciplined (k.step P op).sem ↔ k.SafePath P op := by
  have hfresh : Consistent P k.fresh := h.quiet rfl rfl rfl rfl
  unfold Kernel.step
  split_ifs with htty
  · exact exec_disciplined hfresh rfl rfl op htty
  · have hdead : ∀ vc, op.tty = some vc → ¬ k.live vc := fun _ => Kernel.dead_of_tty htty
    refine iff_of_true (show Disciplined [] by decide) ?_
    cases op with
    | write irq vc cmds =>
      intro _ p hp hlive
      exact absurd hlive (hdead p hp)
    | work v => exact absurd (fun _ hq => by cases hq) htty
    | ioctl vc perm cap cmd =>
      cases cmd with
      | vtReldisp arg mem => exact fun hlive => absurd hlive (hdead vc rfl)
      | _ => exact trivial
    | _ => exact trivial

/-- **Every path of a run takes `console_sem` only when it does not hold it, and
gives it back as often as it takes it, if and only if every operation of the run
is safe where it is made.** -/
theorem semaphore_iff (P : Pools N) (k : Kernel N) (h : Consistent P k) (ops : List (Op N)) :
    Lib.Along (Kernel.step P) (fun k op => Disciplined (k.step P op).sem) k ops ↔
      Lib.Along (Kernel.step P) (fun k op => k.SafePath P op) k ops :=
  Lib.along_congr (I := Consistent P) (fun _ op hk _ => hk.step op)
    (fun _ op hk => step_disciplined hk op) h

/-- A run between two consoles in text mode. -/
theorem semaphore_iff_onePool :
    let ops : List (Op 1) :=
      [.ttyOpen 1 true, .ioctl 0 true true (.vtActivate 2 true), .work 0,
        .write false (some 1) [(15, 0)]]
    Lib.Along (Kernel.step onePool) (fun k op => Disciplined (k.step onePool op).sem)
        (Kernel.boot onePool) ops ↔
      Lib.Along (Kernel.step onePool) (fun k op => k.SafePath onePool op)
        (Kernel.boot onePool) ops :=
  semaphore_iff onePool (Kernel.boot onePool) (boot_consistent onePool)
    [.ttyOpen 1 true, .ioctl 0 true true (.vtActivate 2 true), .work 0,
      .write false (some 1) [(15, 0)]]

/-- **The callback waits for itself.**  Console 1 is put in graphics mode while
console 0 is shown, and is then asked for: the callback takes the semaphore that
it holds. -/
theorem callback_deadlock :
    let k := Lib.run (Kernel.step onePool) (Kernel.boot onePool)
      [.ttyOpen 1 true, .ioctl 1 true true (.kdSetmode 1),
        .ioctl 0 true true (.vtActivate 2 true)]
    (k.step onePool (.work 0)).sem = [.acquire, .acquire, .release, .release] ∧
      ¬ Disciplined (k.step onePool (.work 0)).sem := by
  decide +kernel

end LinuxConsole.Switch

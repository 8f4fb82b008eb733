import LinuxConsole.Lib.Run
import LinuxConsole.Switch.Paths
import LinuxConsole.Vc.Write

/-!
# The consoles that switches are requested to

Which pointers reach `set_console` and `change_console`.  A pointer that is
handed over is good when it is not null, points to an allocated console and that
console is of the VT on which the request was made (`GoodHand`).

`VT_ACTIVATE` compares the VTs, and the keys for the next and the previous
console take theirs from a slot.  The others check less: `CSI 12 ; n ]` takes
whatever `find_vc` returns, `KT_CONS` a console of any VT, and the last console
and the wanted one may have been freed.  **`requests_iff`** says that these are
all the ways in which a bad pointer gets through.
-/

namespace LinuxConsole.Switch

variable {N : Nat} {P : Pools N}

/-- The pointer is what a request on the VT `v` may hand over. -/
def Kernel.GoodHand (k : Kernel N) (v : Fin N) (tmp : Option Nat) : Prop :=
  ∃ p, tmp = some p ∧ k.live p ∧ (k.con p).displayFg = v

/-- Everything handed over on the last path is good. -/
def Kernel.HandedGood (k : Kernel N) : Prop := ∀ e ∈ k.handed, k.GoodHand e.1 e.2

/-! ### When a request is sound -/

/-- The number is of the pool of `v` and there is a console under it. -/
def Kernel.OwnNumber (P : Pools N) (k : Kernel N) (v : Fin N) (n : Nat) : Prop :=
  P.Has v n ∧ (k.findVc P n).isSome

/-- What `CSI 12 ; n ]` and `CSI 15 ]` need of the state. -/
def Kernel.SoundCommand (P : Pools N) (k : Kernel N) (vc : Nat) (c : Nat × Nat) : Prop :=
  (c.1 = 12 → k.OwnNumber P (k.con vc).displayFg c.2) ∧
    (c.1 = 15 → k.live (k.vt (k.con vc).displayFg).lastConsole)

/-- What a key needs of the state: `KT_CONS` with the number of a console of
another VT is not pressed, and the last console is there when it is asked
for. -/
def Kernel.SoundKey (P : Pools N) (k : Kernel N) (v : Fin N) (up : Bool) : Keysym → Prop
  | .cons value =>
    up = false → k.rawMode (k.vt v).fgConsole = false →
      (k.findVc P (value + P.firstVc v)).isSome → P.Has v (value + P.firstVc v)
  | .spec value =>
    up = false → k.rawMode (k.vt v).fgConsole = false → value = 6 → k.live (k.vt v).lastConsole

/-- What an operation needs of the state for every pointer that it hands over to
be good. -/
def Kernel.SoundRequest (P : Pools N) (k : Kernel N) : Op N → Prop
  | .write irq vc cmds => irq = false → ∀ p ∈ vc, k.live p → ∀ c ∈ cmds, k.SoundCommand P p c
  | .key v sym up => k.SoundKey P v up sym
  | .work v =>
    (k.con (k.vt v).wantVc).vcTty ≠ none → (k.vt v).wantVc ≠ (k.vt v).fgConsole →
      (k.vt v).vtDontSwitch = false → k.live (k.vt v).wantVc
  | _ => True

/-! ### What each function hands over -/

namespace Kernel

variable (k : Kernel N)

@[simp] theorem setConsole_handed (v : Fin N) (tmp : Option Nat) :
    (k.setConsole v tmp).handed = k.handed ++ [(v, tmp)] := by
  cases tmp <;> rfl

@[simp] theorem setConsole_live (v : Fin N) (tmp : Option Nat) :
    (k.setConsole v tmp).live = k.live := by
  cases tmp <;> rfl

@[simp] theorem setConsole_con (v : Fin N) (tmp : Option Nat) :
    (k.setConsole v tmp).con = k.con := by
  cases tmp <;> rfl

theorem completeChangeConsole_handed (new old : Nat) :
    (k.completeChangeConsole new old).handed = k.handed := by
  obtain ⟨s, hs⟩ := k.completeChangeConsole_eq new old
  rw [hs]
  split_ifs <;> rfl

theorem changeConsole_handed (new old : Nat) : (k.changeConsole new old).handed = k.handed := by
  have hauto : ∀ k : Kernel N, (k.changeConsoleAuto new old).handed = k.handed := by
    intro k
    unfold changeConsoleAuto
    split_ifs
    · rfl
    · exact k.completeChangeConsole_handed new old
  unfold changeConsole
  dsimp only
  split_ifs
  · rfl
  · exact hauto _
  · exact hauto _

theorem vcAllocate_handed (mem : Bool) (n : Nat) :
    (k.vcAllocate P mem n).2.handed = k.handed := by
  rcases k.vcAllocate_cases (P := P) mem n with heq | ⟨v, -, -, -, heq⟩
  · rw [heq]
  · rw [heq]
    exact k.install_handed v n

theorem vcDisallocate_handed (p : Nat) : (k.vcDisallocate P p).handed = k.handed := by
  unfold vcDisallocate
  dsimp only
  split_ifs <;> rfl

theorem kdSetmode_handed (vc : Nat) (perm : Bool) (arg : Nat) :
    (k.kdSetmode vc perm arg).2.handed = k.handed := by
  have hto : ∀ mode, (k.kdSetmodeTo vc mode).2.handed = k.handed := by
    intro mode
    unfold kdSetmodeTo
    dsimp only
    split_ifs
    · rfl
    · obtain ⟨s, hs⟩ := blankForMode_eq
        (k.updCon vc fun c => { c with vcMode := mode }).acquireConsoleSem vc
      dsimp only
      rw [hs]
      rfl
    · rfl
  unfold kdSetmode
  split_ifs
  · rfl
  · split
    · exact hto _
    · exact hto _
    · exact hto _
    · exact hto _
    · rfl

theorem vtSetmode_handed (vc : Nat) (perm : Bool) (tmp : Option UserVtMode) (pid : Int) :
    (k.vtSetmode vc perm tmp pid).2.handed = k.handed := by
  unfold vtSetmode vtSetmodeTo
  cases tmp
  · split_ifs <;> rfl
  · dsimp only
    split_ifs <;> rfl

theorem releaseDisplay_handed (vc : Nat) (mem : Bool) :
    (k.releaseDisplay P vc mem).2.handed = k.handed := by
  have hfinish : ∀ (k : Kernel N) (q old : Nat),
      (((k.clearNewvt vc).completeChangeConsole q old).releaseConsoleSem).handed = k.handed :=
    fun k q old => completeChangeConsole_handed _ q old
  have halloc := k.acquireConsoleSem.vcAllocate_handed (P := P) mem (k.con vc).vtNewvt.toNat
  unfold releaseDisplay
  dsimp only
  cases k.acquireConsoleSem.findVc P (k.con vc).vtNewvt.toNat with
  | some q => exact hfinish _ q _
  | none =>
    rcases hr : k.acquireConsoleSem.vcAllocate P mem (k.con vc).vtNewvt.toNat with ⟨r, k'⟩
    rw [hr] at halloc
    cases r with
    | none => exact halloc
    | some q => exact (hfinish k' q _).trans halloc

theorem vtReldisp_handed (vc : Nat) (perm : Bool) (arg : Nat) (mem : Bool) :
    (k.vtReldisp P vc perm arg mem).2.handed = k.handed := by
  unfold vtReldisp
  split_ifs
  · rfl
  · rfl
  · rfl
  · exact k.releaseDisplay_handed vc mem
  · rfl
  · rfl

theorem vtDisallocate_handed (vc arg : Nat) :
    (k.vtDisallocate P vc arg).2.handed = k.handed := by
  have hround : ∀ (k : Kernel N) (i : Nat),
      (disallocateUnused P vc k i).handed = k.handed := by
    intro k i
    unfold disallocateUnused
    split
    · split_ifs
      · rfl
      · exact k.vcDisallocate_handed _
    · rfl
  have hloop : ∀ (l : List Nat) (k : Kernel N),
      (l.foldl (disallocateUnused P vc) k).handed = k.handed := by
    intro l
    induction l with
    | nil => intro k; rfl
    | cons i l ih => intro k; exact (ih _).trans (hround k i)
  unfold vtDisallocate
  split_ifs
  · rfl
  · exact hloop _ k.acquireConsoleSem
  · split
    · rfl
    · split_ifs
      · rfl
      · exact k.acquireConsoleSem.vcDisallocate_handed _

theorem vtResize_handed (vc : Nat) (perm : Bool) (sizes : Option (Nat × Nat)) :
    (k.vtResize P vc perm sizes).2.handed = k.handed := by
  unfold vtResize
  split_ifs
  · rfl
  · rfl
  · dsimp only
    generalize List.range _ = l
    induction l generalizing k with
    | nil => rfl
    | cons i l ih => exact ih _

theorem vtOpen_handed (n : Nat) (mem : Bool) : (k.vtOpen P n mem).handed = k.handed := by
  have hfirst : (k.vtOpenFirst P n mem).handed = k.handed := by
    have halloc := k.acquireConsoleSem.vcAllocate_handed (P := P) mem n
    unfold vtOpenFirst
    rcases hr : k.acquireConsoleSem.vcAllocate P mem n with ⟨r, k'⟩
    rw [hr] at halloc
    cases r <;> exact halloc
  unfold vtOpen
  split
  · split_ifs
    · rfl
    · exact hfirst
  · exact hfirst

/-! ### When what is handed over is good -/

variable {k}

theorem goodHand_findVc (h : Consistent P k) {v : Fin N} {n : Nat} :
    k.GoodHand v (k.findVc P n) ↔ k.OwnNumber P v n := by
  constructor
  · rintro ⟨p, hp, -, hdisp⟩
    have hhas := (h.found hp).2.2.1
    rw [hdisp] at hhas
    exact ⟨hhas, by rw [hp]; rfl⟩
  · rintro ⟨hhas, hsome⟩
    obtain ⟨p, hp⟩ := Option.isSome_iff_exists.mp hsome
    obtain ⟨hlive, -, hpool, -⟩ := h.found hp
    exact ⟨p, hp, hlive, P.apart _ _ _ hpool.1 hpool.2 hhas.1 hhas.2⟩

theorem goodHand_some {v : Fin N} {p : Nat} (hp : k.Belongs v p) :
    k.GoodHand v (some p) ↔ k.live p := by
  constructor
  · rintro ⟨q, hq, hlive, -⟩
    obtain rfl := Option.some.inj hq
    exact hlive
  · intro hlive
    exact ⟨p, rfl, hlive, hp.2⟩

/-- One more pointer handed over, the consoles being what they were. -/
theorem handedGood_append {k' : Kernel N} {v : Fin N} {tmp : Option Nat}
    (hhanded : k'.handed = k.handed ++ [(v, tmp)])
    (hdisp : ∀ p, (k'.con p).displayFg = (k.con p).displayFg) (hlive : k'.live = k.live) :
    k'.HandedGood ↔ k.HandedGood ∧ k.GoodHand v tmp := by
  have hgood : ∀ w t, k'.GoodHand w t ↔ k.GoodHand w t := by
    intro w t
    unfold GoodHand
    simp only [hdisp, hlive]
  unfold HandedGood
  rw [hhanded]
  simp only [List.mem_append, List.mem_singleton, hgood]
  constructor
  · intro h
    exact ⟨fun e he => h e (.inl he), h (v, tmp) (.inr rfl)⟩
  · rintro ⟨h, hnew⟩ e (he | rfl)
    · exact h e he
    · exact hnew

/-- A path that hands nothing over. -/
theorem handedGood_of_nil {k' : Kernel N} (h : k'.handed = []) : k'.HandedGood := by
  intro e he
  rw [h] at he
  cases he

theorem setConsole_good (v : Fin N) (tmp : Option Nat) :
    (k.setConsole v tmp).HandedGood ↔ k.HandedGood ∧ k.GoodHand v tmp :=
  handedGood_append (k.setConsole_handed v tmp) (fun p => by rw [k.setConsole_con])
    (k.setConsole_live v tmp)

/-! ### Writing -/

/-- A command changes nothing that the soundness of the next one depends on. -/
theorem settermCommand_frame (vc par0 par1 : Nat) :
    (k.settermCommand P vc par0 par1).con = k.con ∧
      (k.settermCommand P vc par0 par1).live = k.live ∧
      ∀ v, ((k.settermCommand P vc par0 par1).vt v).vcCons = (k.vt v).vcCons ∧
        ((k.settermCommand P vc par0 par1).vt v).lastConsole = (k.vt v).lastConsole := by
  have hset : ∀ (v : Fin N) (tmp : Option Nat) (w : Fin N),
      ((k.setConsole v tmp).vt w).vcCons = (k.vt w).vcCons ∧
        ((k.setConsole v tmp).vt w).lastConsole = (k.vt w).lastConsole := by
    intro v tmp w
    cases tmp with
    | none => exact ⟨rfl, rfl⟩
    | some p =>
      unfold setConsole
      dsimp only
      rw [updVt_vt]
      split_ifs with hw
      · rw [hw]; exact ⟨rfl, rfl⟩
      · exact ⟨rfl, rfl⟩
  unfold settermCommand
  dsimp only
  split
  · exact ⟨rfl, rfl, fun _ => ⟨rfl, rfl⟩⟩
  · exact ⟨k.setConsole_con _ _, k.setConsole_live _ _, hset _ _⟩
  · exact ⟨rfl, rfl, fun _ => ⟨rfl, rfl⟩⟩
  · exact ⟨rfl, rfl, fun _ => ⟨rfl, rfl⟩⟩
  · exact ⟨rfl, rfl, hset _ _⟩
  · exact ⟨rfl, rfl, fun _ => ⟨rfl, rfl⟩⟩

theorem settermCommand_sound (vc par0 par1 : Nat) (c : Nat × Nat) :
    (k.settermCommand P vc par0 par1).SoundCommand P vc c ↔ k.SoundCommand P vc c := by
  obtain ⟨hcon, hlive, hvt⟩ := k.settermCommand_frame (P := P) vc par0 par1
  unfold SoundCommand OwnNumber findVc
  simp only [hcon, hlive, (hvt _).1, (hvt _).2]

theorem settermCommand_good (h : Consistent P k) (vc par0 par1 : Nat) :
    (k.settermCommand P vc par0 par1).HandedGood ↔
      k.HandedGood ∧ k.SoundCommand P vc (par0, par1) := by
  unfold SoundCommand
  by_cases h12 : par0 = 12
  · subst h12
    simp only [settermCommand, true_implies]
    rw [setConsole_good, goodHand_findVc h]
    simp
  · by_cases h15 : par0 = 15
    · subst h15
      simp only [settermCommand, true_implies]
      rw [setConsole_good, goodHand_some (h.last _)]
      simp
    · have hsame : (k.settermCommand P vc par0 par1).HandedGood ↔ k.HandedGood := by
        unfold settermCommand
        split <;> first | rfl | contradiction
      simp [hsame, h12, h15]

/-- A command reads through a null pointer only when it is not sound. -/
theorem settermCommand_oops (hoops : k.oops = false) {vc par0 par1 : Nat}
    (h : (k.settermCommand P vc par0 par1).oops = true) :
    ¬ k.SoundCommand P vc (par0, par1) := by
  intro hsound
  unfold settermCommand at h
  dsimp only at h
  split at h
  · exact Bool.false_ne_true (hoops.symm.trans h)
  · obtain ⟨p, hp⟩ := Option.isSome_iff_exists.mp (hsound.1 rfl).2
    rw [hp] at h
    exact Bool.false_ne_true (hoops.symm.trans h)
  · exact Bool.false_ne_true (hoops.symm.trans h)
  · exact Bool.false_ne_true (hoops.symm.trans h)
  · exact Bool.false_ne_true (hoops.symm.trans h)
  · exact Bool.false_ne_true (hoops.symm.trans h)

theorem emulate_good (vc : Nat) (cmds : List (Nat × Nat)) (k : Kernel N) (h : Consistent P k)
    (hoops : k.oops = false) :
    (emulate P vc cmds k).HandedGood ↔ k.HandedGood ∧ ∀ c ∈ cmds, k.SoundCommand P vc c := by
  induction cmds generalizing k with
  | nil => simp [emulate, HandedGood, releaseConsoleSem, GoodHand]
  | cons c cmds ih =>
    obtain ⟨par0, par1⟩ := c
    have hcmd := k.settermCommand_good h vc par0 par1
    unfold emulate
    dsimp only
    split_ifs with hbad
    · have hunsound := settermCommand_oops hoops hbad
      rw [hcmd]
      constructor
      · intro hh; exact absurd hh.2 hunsound
      · intro hh; exact absurd (hh.2 _ List.mem_cons_self) hunsound
    · rw [ih _ ((k.settermCommand_path (b := false) h vc par0 par1).consistent h) (by simpa using hbad), hcmd]
      simp only [settermCommand_sound, List.forall_mem_cons, and_assoc]

theorem vtWrite_good (h : Consistent P k) (hoops : k.oops = false) (hnil : k.handed = [])
    (irq : Bool) (vc : Option Nat) (cmds : List (Nat × Nat)) :
    (k.vtWrite P irq vc cmds).HandedGood ↔
      (irq = false → ∀ p ∈ vc, ∀ c ∈ cmds, k.SoundCommand P p c) := by
  have hflush : (k.vtWrite P irq vc cmds).HandedGood ↔ (k.doConWrite P irq vc cmds).HandedGood := by
    unfold vtWrite vtFlushChars
    dsimp only
    split_ifs
    · rfl
    · rfl
    · rfl
  rw [hflush]
  unfold doConWrite
  cases irq with
  | true => simpa using handedGood_of_nil hnil
  | false =>
    cases vc with
    | none =>
      have hidle : k.acquireConsoleSem.releaseConsoleSem.HandedGood := handedGood_of_nil hnil
      simpa using hidle
    | some p =>
      have hgood : k.HandedGood := handedGood_of_nil hnil
      have hemulate := emulate_good p cmds
        k.acquireConsoleSem.releaseConsoleSem.acquireConsoleSem (h.quiet rfl rfl rfl rfl) hoops
      simp only [Bool.false_eq_true, if_false, true_implies, Option.mem_some_iff, forall_eq']
      rw [hemulate]
      constructor
      · intro hh; exact hh.2
      · intro hh; exact ⟨hgood, hh⟩

/-! ### Keys -/

theorem kCons_good (h : Consistent P k) (hnil : k.handed = []) (vc value : Nat) (up : Bool) :
    (k.kCons P vc value up).HandedGood ↔
      (up = false → (k.findVc P (value + P.firstVc (k.con vc).displayFg)).isSome →
        P.Has (k.con vc).displayFg (value + P.firstVc (k.con vc).displayFg)) := by
  unfold kCons
  dsimp only
  split_ifs with hidle
  · refine iff_of_true (handedGood_of_nil hnil) ?_
    intro hup hsome
    rcases hidle with hdown | hnone
    · rw [hup] at hdown; cases hdown
    · rw [hnone] at hsome; cases hsome
  · obtain ⟨hup, hsome⟩ := not_or.mp hidle
    have hsome' := Option.isSome_iff_ne_none.mpr hsome
    rw [setConsole_good, goodHand_findVc h]
    constructor
    · rintro ⟨-, hhas, -⟩ - -; exact hhas
    · intro hs
      exact ⟨handedGood_of_nil hnil, hs (by simpa using hup) hsome', hsome'⟩

theorem fnLastcons_good (h : Consistent P k) (hnil : k.handed = []) (vc : Nat) :
    (k.fnLastcons vc).HandedGood ↔ k.live (k.vt (k.con vc).displayFg).lastConsole := by
  unfold fnLastcons
  dsimp only
  rw [setConsole_good, goodHand_some (h.last _)]
  exact and_iff_right (handedGood_of_nil hnil)

/-- The keys for the next and the previous console hand over the console of a
slot. -/
theorem fnScan_good (h : Consistent P k) (hnil : k.handed = []) (vc : Nat) (d : Int)
    (edge back : Fin N → Int) : (k.fnScan P vc d edge back).HandedGood := by
  unfold fnScan
  dsimp only
  split
  · rename_i p hp
    obtain ⟨i, hi⟩ := scanCons_slot hp
    rw [setConsole_good, goodHand_some (h.belongs_slot hi)]
    exact ⟨handedGood_of_nil hnil, (h.slot _ i p hi).1⟩
  · exact handedGood_of_nil hnil

theorem kSpec_good (h : Consistent P k) (hnil : k.handed = []) (vc value : Nat) (up : Bool) :
    (k.kSpec P vc value up).HandedGood ↔
      (up = false → k.rawMode vc = false → value = 6 →
        k.live (k.vt (k.con vc).displayFg).lastConsole) := by
  have hnone : k.HandedGood := handedGood_of_nil hnil
  unfold kSpec
  split_ifs with hup hbig hraw
  · exact iff_of_true hnone fun hdown => by rw [hup] at hdown; cases hdown
  · exact iff_of_true hnone fun _ _ hv => by omega
  · exact iff_of_true hnone fun _ hr _ => by rw [hr] at hraw; exact absurd hraw.1 (by decide)
  · split
    · rw [fnLastcons_good h hnil]
      have hr : k.rawMode vc = false := by
        by_contra hr
        exact hraw ⟨by simpa using hr, by decide⟩
      simp [hup, hr]
    · have hreset : (k.resetVc vc).HandedGood := handedGood_of_nil hnil
      exact iff_of_true hreset fun _ _ hv => by omega
    · exact iff_of_true (fnScan_good h hnil vc _ _ _) fun _ _ hv => by omega
    · exact iff_of_true (fnScan_good h hnil vc _ _ _) fun _ _ hv => by omega
    · rename_i h6 _ _ _
      exact iff_of_true hnone fun _ _ hv => absurd hv h6

theorem kbdEvent_good (h : Consistent P k) (hnil : k.handed = []) (v : Fin N) (sym : Keysym)
    (up : Bool) : (k.kbdEvent P v sym up).HandedGood ↔ k.SoundKey P v up sym := by
  have hdisp : (k.con (k.vt v).fgConsole).displayFg = v := (h.fg v).2
  cases sym with
  | cons value =>
    have hkey := kCons_good h hnil (k.vt v).fgConsole value up
    rw [hdisp] at hkey
    unfold kbdEvent SoundKey
    dsimp only
    split_ifs with hraw
    · exact iff_of_true (handedGood_of_nil hnil) fun _ hr => by rw [hr] at hraw; cases hraw
    · simp only [Bool.not_eq_true] at hraw
      simp only [hraw, true_implies]
      exact hkey
  | spec value =>
    have hkey := kSpec_good h hnil (k.vt v).fgConsole value up
    rw [hdisp] at hkey
    exact hkey

/-! ### The callback and `VT_ACTIVATE` -/

theorem resetVc_displayFg (p q : Nat) : ((k.resetVc p).con q).displayFg = (k.con q).displayFg := by
  unfold resetVc
  rw [updCon_con]
  split_ifs with hq
  · rw [hq]
  · rfl

theorem completeChangeConsole_displayFg (new old q : Nat) :
    ((k.completeChangeConsole new old).con q).displayFg = (k.con q).displayFg ∧
      (k.completeChangeConsole new old).live = k.live := by
  obtain ⟨s, hs⟩ := k.completeChangeConsole_eq new old
  rw [hs]
  split_ifs
  · exact ⟨resetVc_displayFg new q, rfl⟩
  · exact ⟨rfl, rfl⟩

theorem changeConsole_displayFg (new old q : Nat) :
    ((k.changeConsole new old).con q).displayFg = (k.con q).displayFg ∧
      (k.changeConsole new old).live = k.live := by
  have hauto : ∀ k : Kernel N, ((k.changeConsoleAuto new old).con q).displayFg =
      (k.con q).displayFg ∧ (k.changeConsoleAuto new old).live = k.live := by
    intro k
    unfold changeConsoleAuto
    split_ifs
    · exact ⟨rfl, rfl⟩
    · exact completeChangeConsole_displayFg new old q
  unfold changeConsole
  dsimp only
  split_ifs
  · refine ⟨?_, rfl⟩
    unfold awaitRelease
    rw [updCon_con]
    split_ifs with hq
    · rw [hq]; rfl
    · rfl
  · exact ⟨(hauto _).1.trans (resetVc_displayFg old q), (hauto _).2⟩
  · exact hauto k

theorem vtCallback_good (h : Consistent P k) (hnil : k.handed = []) (v : Fin N) :
    (k.vtCallback v).HandedGood ↔ k.SoundRequest P (.work v) := by
  unfold vtCallback SoundRequest
  split_ifs with htty
  · exact iff_of_true (handedGood_of_nil hnil) fun hne => absurd htty hne
  · by_cases hswitch : (k.vt v).wantVc ≠ (k.vt v).fgConsole ∧ (k.vt v).vtDontSwitch = false
    · have heq : k.acquireConsoleSem.switchToWanted v =
          (k.acquireConsoleSem.hand v (some (k.vt v).wantVc)).changeConsole (k.vt v).wantVc
            (k.vt v).fgConsole := if_pos hswitch
      rw [heq]
      have hhand : ((((k.acquireConsoleSem.hand v (some (k.vt v).wantVc)).changeConsole
          (k.vt v).wantVc (k.vt v).fgConsole).lateWork v).releaseConsoleSem).HandedGood ↔
            k.HandedGood ∧ k.GoodHand v (some (k.vt v).wantVc) :=
        handedGood_append (changeConsole_handed _ _ _)
          (fun p => (changeConsole_displayFg _ _ p).1) (changeConsole_displayFg _ _ 0).2
      rw [hhand, goodHand_some (h.want v)]
      constructor
      · intro hh _ _ _; exact hh.2
      · intro hh; exact ⟨handedGood_of_nil hnil, hh htty hswitch.1 hswitch.2⟩
    · have heq : k.acquireConsoleSem.switchToWanted v = k.acquireConsoleSem := if_neg hswitch
      rw [heq]
      refine iff_of_true (handedGood_of_nil hnil) fun _ hne hlock => ?_
      exact absurd ⟨hne, hlock⟩ hswitch

/-- `VT_ACTIVATE` hands over a console of the VT it is called on, or nothing. -/
theorem vtActivate_good (h : Consistent P k) (hnil : k.handed = []) (vc : Nat) (perm : Bool)
    (arg : Nat) (mem : Bool) : (k.vtActivate P vc perm arg mem).2.HandedGood := by
  unfold vtActivate
  split_ifs
  · exact handedGood_of_nil hnil
  · exact handedGood_of_nil hnil
  · cases hfind : k.findVc P (arg - 1) with
    | some q =>
      dsimp only
      split_ifs with hother
      · exact handedGood_of_nil hnil
      · dsimp only
        rw [setConsole_good]
        exact ⟨handedGood_of_nil hnil, q, rfl, (h.found hfind).1, not_not.mp hother⟩
    | none =>
      have hhanded := (k.acquireConsoleSem.vcAllocate_handed (P := P) mem (arg - 1)).trans hnil
      dsimp only
      cases hq : (k.acquireConsoleSem.vcAllocate P mem (arg - 1)).1 with
      | none => exact handedGood_of_nil hhanded
      | some q =>
        dsimp only
        split_ifs with hother
        · exact handedGood_of_nil hhanded
        · dsimp only
          rw [setConsole_good]
          have hlive : (k.acquireConsoleSem.vcAllocate P mem (arg - 1)).2.live q := by
            rcases k.acquireConsoleSem.vcAllocate_cases (P := P) mem (arg - 1)
              with heq | ⟨v, -, -, -, heq⟩
            · rw [heq] at hq; cases hq
            · rw [heq] at hq ⊢
              obtain rfl := Option.some.inj hq
              simp
          exact ⟨handedGood_of_nil hhanded, q, rfl, hlive, not_not.mp hother⟩

end Kernel

/-! ### Every operation -/

theorem exec_good {k : Kernel N} (h : Consistent P k) (hoops : k.oops = false)
    (hnil : k.handed = []) (op : Op N) (htty : ∀ vc ∈ op.tty, k.live vc) :
    (k.exec P op).HandedGood ↔ k.SoundRequest P op := by
  cases op with
  | write irq vc cmds =>
    change (k.vtWrite P irq vc cmds).HandedGood ↔ _
    rw [Kernel.vtWrite_good h hoops hnil]
    constructor
    · intro hh hirq p hp _; exact hh hirq p hp
    · intro hh hirq p hp; exact hh hirq p hp (htty p hp)
  | key v sym up => exact Kernel.kbdEvent_good h hnil v sym up
  | work v => exact Kernel.vtCallback_good h hnil v
  | blankTimer v keventd =>
    refine iff_of_true (Kernel.handedGood_of_nil ?_) trivial
    change (k.blankScreenT v keventd).handed = []
    unfold Kernel.blankScreenT
    split_ifs <;> exact hnil
  | ioctl vc perm cap cmd =>
    refine iff_of_true ?_ trivial
    cases cmd with
    | kdSetmode arg =>
      exact Kernel.handedGood_of_nil ((k.kdSetmode_handed vc perm arg).trans hnil)
    | vtSetmode tmp pid =>
      exact Kernel.handedGood_of_nil ((k.vtSetmode_handed vc perm tmp pid).trans hnil)
    | vtGetmode => exact Kernel.handedGood_of_nil hnil
    | vtActivate arg mem => exact Kernel.vtActivate_good h hnil vc perm arg mem
    | vtReldisp arg mem =>
      exact Kernel.handedGood_of_nil ((k.vtReldisp_handed vc perm arg mem).trans hnil)
    | vtDisallocate arg =>
      exact Kernel.handedGood_of_nil ((k.vtDisallocate_handed vc arg).trans hnil)
    | vtResize sizes =>
      exact Kernel.handedGood_of_nil ((k.vtResize_handed vc perm sizes).trans hnil)
    | vtLockswitch =>
      refine Kernel.handedGood_of_nil ?_
      change (k.setDontSwitch vc cap true).2.handed = []
      unfold Kernel.setDontSwitch
      split_ifs <;> exact hnil
    | vtUnlockswitch =>
      refine Kernel.handedGood_of_nil ?_
      change (k.setDontSwitch vc cap false).2.handed = []
      unfold Kernel.setDontSwitch
      split_ifs <;> exact hnil
  | ttyOpen n mem =>
    exact iff_of_true (Kernel.handedGood_of_nil ((k.vtOpen_handed n mem).trans hnil)) trivial
  | vcsOpen f minor =>
    refine iff_of_true (Kernel.handedGood_of_nil ?_) trivial
    change (k.vcsOpen P f minor).handed = []
    unfold Kernel.vcsOpen
    split <;> exact hnil
  | scroll v lines => exact iff_of_true (Kernel.handedGood_of_nil hnil) trivial
  | ttyClose vc => exact iff_of_true (Kernel.handedGood_of_nil hnil) trivial
  | resetVc vc => exact iff_of_true (Kernel.handedGood_of_nil hnil) trivial
  | setSelection vc => exact iff_of_true (Kernel.handedGood_of_nil hnil) trivial
  | vcsClose f => exact iff_of_true (Kernel.handedGood_of_nil hnil) trivial
  | processes killProc => exact iff_of_true (Kernel.handedGood_of_nil hnil) trivial

theorem step_good {k : Kernel N} (h : Consistent P k) (op : Op N) :
    (k.step P op).HandedGood ↔ k.SoundRequest P op := by
  have hfresh : Consistent P k.fresh := h.quiet rfl rfl rfl rfl
  unfold Kernel.step
  split_ifs with htty
  · exact exec_good hfresh rfl rfl op htty
  · refine iff_of_true (Kernel.handedGood_of_nil rfl) ?_
    cases op with
    | write irq vc cmds =>
      intro _ p hp hlive
      refine absurd ?_ htty
      intro q hq
      rw [Option.mem_unique hq hp]
      exact hlive
    | key v sym up => exact absurd (fun _ hq => by cases hq) htty
    | work v => exact absurd (fun _ hq => by cases hq) htty
    | _ => exact trivial

/-- **Every pointer given to `set_console` and `change_console` along a run is an
allocated console of the VT of the request, if and only if every request of the
run is sound where it is made.** -/
theorem requests_iff (P : Pools N) (k : Kernel N) (h : Consistent P k) (ops : List (Op N)) :
    Lib.Along (Kernel.step P) (fun k op => (k.step P op).HandedGood) k ops ↔
      Lib.Along (Kernel.step P) (fun k op => k.SoundRequest P op) k ops :=
  Lib.along_congr (I := Consistent P) (fun _ op hk _ => hk.step op) (fun _ op hk => step_good hk op)
    h

/-- A run on one display: the second console is opened and asked for. -/
theorem requests_iff_onePool :
    let ops : List (Op 1) :=
      [.ttyOpen 1 true, .write false (some 0) [(12, 1)], .work 0, .key 0 (.spec 6) false]
    Lib.Along (Kernel.step onePool) (fun k op => (k.step onePool op).HandedGood)
        (Kernel.boot onePool) ops ↔
      Lib.Along (Kernel.step onePool) (fun k op => k.SoundRequest onePool op)
        (Kernel.boot onePool) ops :=
  requests_iff onePool (Kernel.boot onePool) (boot_consistent onePool)
    [.ttyOpen 1 true, .write false (some 0) [(12, 1)], .work 0, .key 0 (.spec 6) false]

/-- The command that asked for what the emulator has recorded. -/
def commandOf : Request → Option (Nat × Nat)
  | .setConsole n => some (12, n)
  | .setLastConsole => some (15, 0)
  | _ => none

/-- **`ESC [ 12 ; 5 ]` while console 5 has never been opened**: what is handed to
`set_console` is null. -/
theorem null_console_requested :
    let s := LinuxConsole.doConWrite dummyCon bootCon
      [0x1b, 0x5b, 0x31, 0x32, 0x3b, 0x35, 0x5d]
    let k := (Kernel.boot onePool).step onePool
      (.write false (some 0) (s.requests.filterMap commandOf))
    k.handed = [(0, none)] ∧ k.oops = true ∧ ¬ k.HandedGood := by
  have hcmds : (LinuxConsole.doConWrite dummyCon bootCon
      [0x1b, 0x5b, 0x31, 0x32, 0x3b, 0x35, 0x5d]).requests.filterMap commandOf = [(12, 5)] := by
    decide +kernel
  have hhanded : ((Kernel.boot onePool).step onePool (.write false (some 0) [(12, 5)])).handed =
      [(0, none)] := by
    decide +kernel
  dsimp only
  rw [hcmds]
  refine ⟨hhanded, by decide +kernel, ?_⟩
  intro hgood
  obtain ⟨p, hp, -⟩ := hgood (0, none) (by rw [hhanded]; exact List.mem_singleton_self _)
  cases hp

end LinuxConsole.Switch

import Mathlib.Logic.Relation
import LinuxConsole.Switch.Step

/-!
# What an operation can do to the consoles

`Move` lists the elementary changes to the pools, the pointers of the VTs and
the consoles, each with what is known of the console it is about.  Freeing a
console is not among them, and neither is putting a new one in the place of
another.

`Consistent` is what holds of every state: consoles are numbered within the pool
of their VT, a slot holds an allocated console of its own number, and the three
pointers of a VT were given out for that VT.  It is kept by every elementary
change (`Consistent.move`), by a new console put in a slot that was in use
(`Consistent.install`) and by a console freed (`Consistent.vcDisallocate`).
-/

namespace LinuxConsole.Switch

variable {N : Nat} {P : Pools N}

/-! ### Looking a console up -/

theorem poolOf_eq_some {n : Nat} {v : Fin N} : Kernel.poolOf P n = some v ↔ P.Has v n := by
  constructor
  · intro h
    simpa using List.find?_some h
  · intro h
    cases hw : Kernel.poolOf P n with
    | none =>
      have hnone := List.find?_eq_none.mp hw v (List.mem_finRange v)
      exact absurd h (by simpa using hnone)
    | some w =>
      have hwn : P.Has w n := by simpa using List.find?_some hw
      rw [P.apart w v n hwn.1 hwn.2 h.1 h.2]

theorem findVc_of_has {k : Kernel N} {n : Nat} {v : Fin N} (h : P.Has v n) :
    k.findVc P n = (k.vt v).vcCons (n - P.firstVc v) := by
  simp only [Kernel.findVc, poolOf_eq_some.mpr h]

theorem findVc_eq_some {k : Kernel N} {n p : Nat} :
    k.findVc P n = some p ↔ ∃ v, P.Has v n ∧ (k.vt v).vcCons (n - P.firstVc v) = some p := by
  constructor
  · intro h
    unfold Kernel.findVc at h
    cases hv : Kernel.poolOf P n with
    | none => simp [hv] at h
    | some v =>
      rw [hv] at h
      exact ⟨v, poolOf_eq_some.mp hv, h⟩
  · rintro ⟨v, hv, hp⟩
    rw [findVc_of_has hv, hp]

/-! ### The state after each elementary change -/

namespace Kernel

variable (k : Kernel N)

@[simp] theorem updCon_vt (p : Nat) (f : VcData N → VcData N) : (k.updCon p f).vt = k.vt := rfl
@[simp] theorem updCon_live (p : Nat) (f : VcData N → VcData N) :
    (k.updCon p f).live = k.live := rfl
@[simp] theorem updCon_next (p : Nat) (f : VcData N → VcData N) :
    (k.updCon p f).next = k.next := rfl
@[simp] theorem updVt_con (v : Fin N) (f : Vt → Vt) : (k.updVt v f).con = k.con := rfl
@[simp] theorem updVt_live (v : Fin N) (f : Vt → Vt) : (k.updVt v f).live = k.live := rfl
@[simp] theorem updVt_next (v : Fin N) (f : Vt → Vt) : (k.updVt v f).next = k.next := rfl

theorem updCon_con (p q : Nat) (f : VcData N → VcData N) :
    (k.updCon p f).con q = if q = p then f (k.con p) else k.con q := by
  simp [updCon, Function.update_apply]

theorem updVt_vt (v w : Fin N) (f : Vt → Vt) :
    (k.updVt v f).vt w = if w = v then f (k.vt v) else k.vt w := by
  simp [updVt, Function.update_apply]

theorem blankForMode_eq (p : Nat) : ∃ s, k.blankForMode p = { k with screen := s } := by
  unfold blankForMode
  split_ifs
  · exact ⟨_, rfl⟩
  · exact ⟨_, rfl⟩

/-- The state after the switch, but for the reset of a console whose process is
gone.  The semaphore is taken and given back when the modes of the two consoles
differ. -/
def switched (new old : Nat) (s : Screen N) : Kernel N :=
  { k with
    vt := Function.update k.vt (k.con new).displayFg
      { k.vt (k.con new).displayFg with
        lastConsole := old
        fgConsole := if old ≠ new then new else (k.vt (k.con new).displayFg).fgConsole }
    sem := k.sem ++ if (k.con old).vcMode = (k.con new).vcMode then [] else [.acquire, .release]
    screen := s }

theorem bringToFront_eq (new old : Nat) : ∃ s, k.bringToFront new old = k.switched new old s := by
  have hswitch : (k.updVt (k.con new).displayFg fun t =>
      { t with lastConsole := old }).switchScreen new old =
      { k.switched new old k.screen with sem := k.sem } := by
    by_cases h : old = new
    · simp [switchScreen, switched, h, updVt]
    · simp [switchScreen, switched, h, updVt]
  unfold bringToFront
  simp only [hswitch]
  by_cases hmode : (k.con old).vcMode = (k.con new).vcMode
  · refine ⟨k.screen, ?_⟩
    rw [if_neg (by simpa [switched] using hmode)]
    simp [switched, hmode]
  · obtain ⟨s, hs⟩ := blankForMode_eq
      (acquireConsoleSem { k.switched new old k.screen with sem := k.sem }) new
    refine ⟨s, ?_⟩
    rw [if_pos (by simpa [switched] using hmode), hs]
    simp [switched, hmode, acquireConsoleSem, releaseConsoleSem]

theorem sendAcqsig_eq (new : Nat) (m : KdMode) :
    ∃ s, k.sendAcqsig new m =
      { (if k.acqsigFails new then k.resetVc new else k) with screen := s } := by
  unfold sendAcqsig
  by_cases hdead : k.acqsigFails new
  · rw [if_pos hdead, if_pos hdead]
    dsimp only
    split_ifs
    · exact blankForMode_eq _ new
    · exact ⟨_, rfl⟩
  · rw [if_neg hdead, if_neg hdead]
    exact ⟨_, rfl⟩

/-- **All that completing a switch does**: the two pointers of the VT, a critical
section when the modes of the two consoles differ, and the reset of a console
whose process is gone. -/
theorem completeChangeConsole_eq (new old : Nat) :
    ∃ s, k.completeChangeConsole new old =
      if k.acqsigFails new then (k.switched new old s).resetVc new else k.switched new old s := by
  obtain ⟨s, hs⟩ := k.bringToFront_eq new old
  obtain ⟨s', hs'⟩ := (k.switched new old s).sendAcqsig_eq new (k.con old).vcMode
  refine ⟨s', ?_⟩
  rw [completeChangeConsole, hs, hs']
  by_cases hdead : k.acqsigFails new
  · rw [if_pos hdead, if_pos (show (k.switched new old s).acqsigFails new from hdead)]
    rfl
  · rw [if_neg hdead, if_neg (show ¬ (k.switched new old s).acqsigFails new from hdead)]
    rfl

end Kernel

/-! ### Consistent states -/

/-- The console `p` was given out for the VT `v`. -/
def Kernel.Belongs (k : Kernel N) (v : Fin N) (p : Nat) : Prop :=
  p < k.next ∧ (k.con p).displayFg = v

/-- What holds of every state. -/
structure Consistent (P : Pools N) (k : Kernel N) : Prop where
  num : ∀ p < k.next, P.Has (k.con p).displayFg (k.con p).vcNum
  live : ∀ p, k.live p → p < k.next
  slot : ∀ v i p, (k.vt v).vcCons i = some p →
    k.live p ∧ (k.con p).displayFg = v ∧ (k.con p).vcNum = P.firstVc v + i
  fg : ∀ v, k.Belongs v (k.vt v).fgConsole
  last : ∀ v, k.Belongs v (k.vt v).lastConsole
  want : ∀ v, k.Belongs v (k.vt v).wantVc
  newvt : ∀ p < k.next, 0 ≤ (k.con p).vtNewvt →
    P.Has (k.con p).displayFg (k.con p).vtNewvt.toNat

namespace Consistent

variable {k k' : Kernel N}

/-- A console of a slot belongs to the VT. -/
theorem belongs_slot (h : Consistent P k) {v : Fin N} {i p : Nat}
    (hp : (k.vt v).vcCons i = some p) : k.Belongs v p :=
  ⟨h.live p (h.slot v i p hp).1, (h.slot v i p hp).2.1⟩

/-- What `find_vc` returns is an allocated console of that number, on the VT in
whose pool the number is. -/
theorem found (h : Consistent P k) {n p : Nat} (hp : k.findVc P n = some p) :
    k.live p ∧ (k.con p).vcNum = n ∧ P.Has (k.con p).displayFg n ∧
      (k.vt (k.con p).displayFg).vcCons (n - P.firstVc (k.con p).displayFg) = some p := by
  obtain ⟨v, hv, hslot⟩ := findVc_eq_some.mp hp
  obtain ⟨hlive, hdisp, hnum⟩ := h.slot v _ p hslot
  have hle := hv.1
  subst hdisp
  exact ⟨hlive, by omega, hv, hslot⟩

/-- A state with the same consoles and slots, whose pointers still belong. -/
theorem of_eq (h : Consistent P k) (hnext : k'.next = k.next) (hlive : k'.live = k.live)
    (hnum : ∀ p, (k'.con p).vcNum = (k.con p).vcNum)
    (hdisp : ∀ p, (k'.con p).displayFg = (k.con p).displayFg)
    (hnewvt : ∀ p < k.next, 0 ≤ (k'.con p).vtNewvt →
      P.Has (k.con p).displayFg (k'.con p).vtNewvt.toNat)
    (hslot : ∀ v, (k'.vt v).vcCons = (k.vt v).vcCons)
    (hfg : ∀ v, k.Belongs v (k'.vt v).fgConsole)
    (hlast : ∀ v, k.Belongs v (k'.vt v).lastConsole)
    (hwant : ∀ v, k.Belongs v (k'.vt v).wantVc) : Consistent P k' where
  num p hp := by rw [hnum, hdisp]; exact h.num p (hnext ▸ hp)
  live p hp := by rw [hnext]; exact h.live p (hlive ▸ hp)
  slot v i p hp := by
    rw [hlive, hdisp, hnum]
    exact h.slot v i p (hslot v ▸ hp)
  fg v := by unfold Kernel.Belongs; rw [hnext, hdisp]; exact hfg v
  last v := by unfold Kernel.Belongs; rw [hnext, hdisp]; exact hlast v
  want v := by unfold Kernel.Belongs; rw [hnext, hdisp]; exact hwant v
  newvt p hp hn := by rw [hdisp]; exact hnewvt p (hnext ▸ hp) hn

/-- The pointers that are no longer looked at do not matter. -/
theorem quiet (h : Consistent P k) (hcon : k'.con = k.con) (hlive : k'.live = k.live)
    (hnext : k'.next = k.next) (hvt : k'.vt = k.vt) : Consistent P k' := by
  refine h.of_eq hnext hlive ?_ ?_ ?_ ?_ ?_ ?_ ?_
  · intro p; rw [hcon]
  · intro p; rw [hcon]
  · intro p hp; rw [hcon]; exact h.newvt p hp
  · intro v; rw [hvt]
  · intro v; rw [hvt]; exact h.fg v
  · intro v; rw [hvt]; exact h.last v
  · intro v; rw [hvt]; exact h.want v

end Consistent

/-- A console changed in nothing that says which console it is.  A number it was
waiting to switch to is forgotten, or who controls it stays the same. -/
def VcData.Same (c c' : VcData N) : Prop :=
  c'.vcNum = c.vcNum ∧ c'.displayFg = c.displayFg ∧
    (c'.vtNewvt = c.vtNewvt ∧ c'.vtMode = c.vtMode ∨ c'.vtNewvt = -1)

namespace Consistent

variable {k : Kernel N}

theorem updCon (h : Consistent P k) {p : Nat} {f : VcData N → VcData N}
    (hf : (k.con p).Same (f (k.con p))) : Consistent P (k.updCon p f) := by
  obtain ⟨hnum, hdisp, hnewvt⟩ := hf
  refine h.of_eq rfl rfl ?_ ?_ ?_ (fun _ => rfl) h.fg h.last h.want
  · intro q
    rw [Kernel.updCon_con]
    split_ifs with hq
    · rw [hnum, hq]
    · rfl
  · intro q
    rw [Kernel.updCon_con]
    split_ifs with hq
    · rw [hdisp, hq]
    · rfl
  · intro q hq hn
    rw [Kernel.updCon_con] at hn ⊢
    split_ifs at hn ⊢ with hqp
    · subst hqp
      rcases hnewvt with ⟨hsame, -⟩ | hneg
      · rw [hsame] at hn ⊢; exact h.newvt q hq hn
      · omega
    · exact h.newvt q hq hn

theorem updVt (h : Consistent P k) {v : Fin N} {f : Vt → Vt}
    (hslot : (f (k.vt v)).vcCons = (k.vt v).vcCons)
    (hfg : k.Belongs v (f (k.vt v)).fgConsole) (hlast : k.Belongs v (f (k.vt v)).lastConsole)
    (hwant : k.Belongs v (f (k.vt v)).wantVc) : Consistent P (k.updVt v f) := by
  refine h.of_eq rfl rfl (fun _ => rfl) (fun _ => rfl) h.newvt ?_ ?_ ?_ ?_
  · intro w
    rw [Kernel.updVt_vt]
    split_ifs with hw
    · rw [hslot, hw]
    · rfl
  · intro w
    rw [Kernel.updVt_vt]
    split_ifs with hw
    · rw [hw]; exact hfg
    · exact h.fg w
  · intro w
    rw [Kernel.updVt_vt]
    split_ifs with hw
    · rw [hw]; exact hlast
    · exact h.last w
  · intro w
    rw [Kernel.updVt_vt]
    split_ifs with hw
    · rw [hw]; exact hwant
    · exact h.want w

/-- The console of a request is noted down with its number. -/
theorem awaitRelease (h : Consistent P k) {v : Fin N} {new old : Nat} (hnew : k.Belongs v new)
    (hold : k.Belongs v old) : Consistent P (k.awaitRelease new old) := by
  obtain ⟨hnew_lt, hnew_disp⟩ := hnew
  have hnumber := h.num new hnew_lt
  rw [hnew_disp] at hnumber
  refine h.of_eq rfl rfl ?_ ?_ ?_ ?_ ?_ ?_ ?_
  · intro q
    simp only [Kernel.awaitRelease, Kernel.updCon_con, Kernel.updVt_con]
    split_ifs with hq
    · rw [hq]
    · rfl
  · intro q
    simp only [Kernel.awaitRelease, Kernel.updCon_con, Kernel.updVt_con]
    split_ifs with hq
    · rw [hq]
    · rfl
  · intro q hq hn
    simp only [Kernel.awaitRelease, Kernel.updCon_con, Kernel.updVt_con] at hn ⊢
    split_ifs at hn ⊢ with hqo
    · subst hqo
      rw [hold.2]
      exact hnumber
    · exact h.newvt q hq hn
  all_goals
    intro w
    simp only [Kernel.awaitRelease, Kernel.updCon_vt, Kernel.updVt_vt]
  · split_ifs with hw
    · rw [hw]
    · rfl
  · split_ifs with hw
    · rw [hw]; exact h.fg _
    · exact h.fg w
  · split_ifs with hw
    · rw [hw]; exact h.last _
    · exact h.last w
  · split_ifs with hw
    · rw [hw]; exact h.want _
    · exact h.want w

end Consistent

/-! ### New consoles and freed ones -/

namespace Kernel

variable (k : Kernel N)

@[simp] theorem install_next (v : Fin N) (n : Nat) : (k.install P v n).next = k.next + 1 := by
  unfold install; dsimp only; split_ifs <;> rfl

@[simp] theorem install_live (v : Fin N) (n : Nat) :
    (k.install P v n).live = Function.update k.live k.next true := by
  unfold install; dsimp only; split_ifs <;> rfl

@[simp] theorem install_selCons (v : Fin N) (n : Nat) :
    (k.install P v n).selCons = k.selCons := by
  unfold install; dsimp only; split_ifs <;> rfl

@[simp] theorem install_vcs (v : Fin N) (n : Nat) : (k.install P v n).vcs = k.vcs := by
  unfold install; dsimp only; split_ifs <;> rfl

@[simp] theorem install_killProc (v : Fin N) (n : Nat) :
    (k.install P v n).killProc = k.killProc := by
  unfold install; dsimp only; split_ifs <;> rfl

@[simp] theorem install_sem (v : Fin N) (n : Nat) : (k.install P v n).sem = k.sem := by
  unfold install; dsimp only; split_ifs <;> rfl

@[simp] theorem install_handed (v : Fin N) (n : Nat) :
    (k.install P v n).handed = k.handed := by
  unfold install; dsimp only; split_ifs <;> rfl

theorem install_con (v : Fin N) (n q : Nat) :
    (k.install P v n).con q = if q = k.next then newVc v n else k.con q := by
  unfold install
  dsimp only
  split_ifs <;> simp_all [resetVc, updCon, updVt, newVc, zeroed]

theorem install_vt (v w : Fin N) (n : Nat) :
    (k.install P v n).vt w =
      if w = v then
        { k.vt v with
          vcCons := Function.update (k.vt v).vcCons (n - P.firstVc v) (some k.next)
          wantVc := if P.firstVc v = n then k.next else (k.vt v).wantVc
          fgConsole := if P.firstVc v = n then k.next else (k.vt v).fgConsole
          lastConsole := if P.firstVc v = n then k.next else (k.vt v).lastConsole }
      else k.vt w := by
  unfold install
  dsimp only
  split_ifs with hfirst hw hw
  all_goals simp_all [resetVc, updCon, updVt]

theorem vcAllocate_cases (mem : Bool) (n : Nat) :
    (k.vcAllocate P mem n = (none, k)) ∨
      ∃ v, P.Has v n ∧ n < maxNrConsoles ∧ mem = true ∧
        k.vcAllocate P mem n = (some k.next, k.install P v n) := by
  unfold vcAllocate
  by_cases hn : n ≥ maxNrConsoles
  · exact .inl (if_pos hn)
  · rw [if_neg hn]
    cases hv : poolOf P n with
    | none => exact .inl rfl
    | some v =>
      cases mem with
      | false => exact .inl rfl
      | true => exact .inr ⟨v, poolOf_eq_some.mp hv, Nat.lt_of_not_le hn, rfl, rfl⟩

end Kernel

namespace Consistent

variable {k : Kernel N}

/-- A console that is put in a slot, whatever the slot held. -/
theorem install (h : Consistent P k) {v : Fin N} {n : Nat} (hn : P.Has v n) :
    Consistent P (k.install P v n) := by
  have hold : ∀ {w p}, k.Belongs w p → (k.install P v n).Belongs w p := by
    rintro w p ⟨hlt, hdisp⟩
    refine ⟨by rw [Kernel.install_next]; omega, ?_⟩
    rw [Kernel.install_con, if_neg (Nat.ne_of_lt hlt)]
    exact hdisp
  have hnew : (k.install P v n).Belongs v k.next := by
    refine ⟨by rw [Kernel.install_next]; omega, ?_⟩
    rw [Kernel.install_con, if_pos rfl]
    rfl
  -- A pointer of a VT is the new console or what it was.
  have hpick : ∀ (c : Prop) [Decidable c] (q : Nat), k.Belongs v q →
      (k.install P v n).Belongs v (if c then k.next else q) := by
    intro c _ q hq
    split_ifs
    · exact hnew
    · exact hold hq
  refine ⟨?_, ?_, ?_, ?_, ?_, ?_, ?_⟩
  · intro p hp
    rw [Kernel.install_con]
    split_ifs with hpn
    · exact hn
    · exact h.num p (by rw [Kernel.install_next] at hp; omega)
  · intro p hp
    rw [Kernel.install_live, Function.update_apply] at hp
    rw [Kernel.install_next]
    split_ifs at hp with hpn
    · omega
    · have := h.live p hp; omega
  · intro w i p hp
    rw [Kernel.install_vt] at hp
    rw [Kernel.install_live, Kernel.install_con, Function.update_apply]
    by_cases hw : w = v
    · subst hw
      simp only [if_true, Function.update_apply] at hp
      split_ifs at hp with hi
      · obtain rfl : k.next = p := Option.some.inj hp
        have hle := hn.1
        refine ⟨by simp, by simp [Kernel.newVc, Kernel.zeroed], ?_⟩
        simp only [Kernel.newVc, Kernel.zeroed, if_true]
        omega
      · obtain ⟨hlive, hdisp, hnum⟩ := h.slot w i p hp
        have hne : p ≠ k.next := Nat.ne_of_lt (h.live p hlive)
        rw [if_neg hne, if_neg hne]
        exact ⟨hlive, hdisp, hnum⟩
    · rw [if_neg hw] at hp
      obtain ⟨hlive, hdisp, hnum⟩ := h.slot w i p hp
      have hne : p ≠ k.next := Nat.ne_of_lt (h.live p hlive)
      rw [if_neg hne, if_neg hne]
      exact ⟨hlive, hdisp, hnum⟩
  · intro w
    rw [Kernel.install_vt]
    by_cases hw : w = v
    · subst hw; rw [if_pos rfl]; exact hpick _ _ (h.fg w)
    · rw [if_neg hw]; exact hold (h.fg w)
  · intro w
    rw [Kernel.install_vt]
    by_cases hw : w = v
    · subst hw; rw [if_pos rfl]; exact hpick _ _ (h.last w)
    · rw [if_neg hw]; exact hold (h.last w)
  · intro w
    rw [Kernel.install_vt]
    by_cases hw : w = v
    · subst hw; rw [if_pos rfl]; exact hpick _ _ (h.want w)
    · rw [if_neg hw]; exact hold (h.want w)
  · intro p hp hnv
    rw [Kernel.install_con] at hnv ⊢
    split_ifs at hnv ⊢ with hpn
    · simp [Kernel.newVc] at hnv
    · exact h.newvt p (by rw [Kernel.install_next] at hp; omega) hnv

/-- A console that is taken from its slot and freed. -/
theorem vcDisallocate (h : Consistent P k) {v : Fin N} {i p : Nat}
    (hp : (k.vt v).vcCons i = some p) : Consistent P (k.vcDisallocate P p) := by
  obtain ⟨hlive, hdisp, hnum⟩ := h.slot v i p hp
  unfold Kernel.vcDisallocate
  dsimp only
  split_ifs with hmin
  · rw [hdisp, hnum, Nat.add_sub_cancel_left]
    refine ⟨h.num, ?_, ?_, ?_, ?_, ?_, h.newvt⟩
    · intro q hq
      simp only [Function.update_apply] at hq
      split_ifs at hq
      exact h.live q hq
    · intro w j q hq
      simp only [Kernel.updVt_vt] at hq
      have hslot : (k.vt w).vcCons j = some q ∧ (w = v → j ≠ i) := by
        split_ifs at hq with hw
        · simp only [Function.update_apply] at hq
          split_ifs at hq with hj
          subst hw
          exact ⟨hq, fun _ => hj⟩
        · exact ⟨hq, fun e => absurd e hw⟩
      obtain ⟨hqlive, hqdisp, hqnum⟩ := h.slot w j q hslot.1
      refine ⟨?_, hqdisp, hqnum⟩
      -- The same console in two slots would have two numbers.
      have hqp : q ≠ p := by
        rintro rfl
        have hwv : w = v := by rw [← hqdisp, hdisp]
        have hij := hslot.2 hwv
        subst hwv
        omega
      simpa [Function.update_apply, hqp] using hqlive
    · intro w
      simp only [Kernel.updVt_vt]
      split_ifs with hw
      · subst hw; exact h.fg w
      · exact h.fg w
    · intro w
      simp only [Kernel.updVt_vt]
      split_ifs with hw
      · subst hw; exact h.last w
      · exact h.last w
    · intro w
      simp only [Kernel.updVt_vt]
      split_ifs with hw
      · subst hw; exact h.want w
      · exact h.want w
  · exact h

end Consistent

/-! ### Elementary changes -/

/-- A console that the VT `v` has in a slot, or that it was or is to be switched
to. -/
def Kernel.Holds (k : Kernel N) (v : Fin N) (p : Nat) : Prop :=
  (∃ i, (k.vt v).vcCons i = some p) ∨ p = (k.vt v).lastConsole ∨ p = (k.vt v).wantVc

/-- The elementary changes.  With `false` the foreground consoles stay what they
are and no process is asked to release one. -/
inductive Move (P : Pools N) (b : Bool) : Kernel N → Kernel N → Prop
  | quiet {k k' : Kernel N} (hcon : k'.con = k.con) (hlive : k'.live = k.live)
      (hnext : k'.next = k.next) (hvt : k'.vt = k.vt) (hsel : k'.selCons = k.selCons)
      (hvcs : k'.vcs = k.vcs) : Move P b k k'
  | updCon (k : Kernel N) (p : Nat) (f : VcData N → VcData N)
      (hf : (k.con p).Same (f (k.con p))) : Move P b k (k.updCon p f)
  | lock (k : Kernel N) (v : Fin N) (l : Bool) :
      Move P b k (k.updVt v fun t => { t with vtDontSwitch := l })
  | want (k : Kernel N) (v : Fin N) (p : Nat) (hp : k.Holds v p) :
      Move P b k (k.updVt v fun t => { t with wantVc := p })
  | switch (k : Kernel N) (v : Fin N) (p : Nat) (hb : b = true) (hp : k.Holds v p) :
      Move P b k (k.updVt v fun t => { t with lastConsole := t.fgConsole, fgConsole := p })
  | awaitRelease (k : Kernel N) (v : Fin N) (p : Nat) (hb : b = true) (hp : k.Holds v p) :
      Move P b k (k.awaitRelease p (k.vt v).fgConsole)
  | install (k : Kernel N) (v : Fin N) (n : Nat) (hb : b = true) (hn : P.Has v n)
      (hfree : k.findVc P n = none) :
      Move P b k (k.install P v n)
  | select (k : Kernel N) (v : Fin N) :
      Move P b k { k with selCons := some (k.vt v).fgConsole }
  | vcsOpen (k : Kernel N) (f : Nat) (v : Fin N) (i p : Nat)
      (hp : (k.vt v).vcCons i = some p) :
      Move P b k { k with vcs := Function.update k.vcs f (some p) }
  | vcsClose (k : Kernel N) (f : Nat) :
      Move P b k { k with vcs := Function.update k.vcs f none }

/-- A sequence of elementary changes. -/
abbrev Path (P : Pools N) (b : Bool) : Kernel N → Kernel N → Prop :=
  Relation.ReflTransGen (Move P b)

namespace Consistent

variable {k k' : Kernel N}

theorem belongs_holds (h : Consistent P k) {v : Fin N} {p : Nat} (hp : k.Holds v p) :
    k.Belongs v p := by
  rcases hp with ⟨i, hi⟩ | rfl | rfl
  · exact h.belongs_slot hi
  · exact h.last v
  · exact h.want v

/-- What `find_vc` returns is held by the VT it is of. -/
theorem holds_found (h : Consistent P k) {n p : Nat} (hp : k.findVc P n = some p) :
    k.Holds (k.con p).displayFg p :=
  .inl ⟨_, (h.found hp).2.2.2⟩

theorem move {b : Bool} (h : Consistent P k) (hm : Move P b k k') : Consistent P k' := by
  cases hm with
  | quiet hcon hlive hnext hvt _ _ => exact h.quiet hcon hlive hnext hvt
  | updCon p f hf => exact h.updCon hf
  | lock v l => exact h.updVt rfl (h.fg v) (h.last v) (h.want v)
  | want v p hp => exact h.updVt rfl (h.fg v) (h.last v) (h.belongs_holds hp)
  | switch v p _ hp => exact h.updVt rfl (h.belongs_holds hp) (h.fg v) (h.want v)
  | awaitRelease v p _ hp => exact h.awaitRelease (h.belongs_holds hp) (h.fg v)
  | install v n _ hn _ => exact h.install hn
  | select v => exact h.quiet rfl rfl rfl rfl
  | vcsOpen f v i p _ => exact h.quiet rfl rfl rfl rfl
  | vcsClose f => exact h.quiet rfl rfl rfl rfl

end Consistent

namespace Path

variable {b : Bool} {k k' : Kernel N}

/-- **What every elementary change keeps is kept by a sequence of them.** -/
theorem keeps {I : Kernel N → Prop} (hstep : ∀ k k', I k → Move P b k k' → I k') (h : I k)
    (hp : Path P b k k') : I k' := by
  induction hp with
  | refl => exact h
  | tail _ hm ih => exact hstep _ _ ih hm

theorem consistent (h : Consistent P k) (hp : Path P b k k') : Consistent P k' :=
  hp.keeps (fun _ _ hk hm => hk.move hm) h

theorem quiet (hcon : k'.con = k.con) (hlive : k'.live = k.live) (hnext : k'.next = k.next)
    (hvt : k'.vt = k.vt) (hsel : k'.selCons = k.selCons) (hvcs : k'.vcs = k.vcs) : Path P b k k' :=
  .single (.quiet hcon hlive hnext hvt hsel hvcs)

/-- A path that takes the semaphore first and gives it back last. -/
theorem locked (hp : Path P b k.acquireConsoleSem k') : Path P b k k'.releaseConsoleSem :=
  (quiet rfl rfl rfl rfl rfl rfl : Path P b k k.acquireConsoleSem).trans
    (hp.trans (quiet rfl rfl rfl rfl rfl rfl))

/-- Without a switch and without a new console the foreground console of every VT
is the one it was. -/
theorem fgConsole (hp : Path P false k k') (v : Fin N) :
    (k'.vt v).fgConsole = (k.vt v).fgConsole := by
  refine hp.keeps (I := fun k' => (k'.vt v).fgConsole = (k.vt v).fgConsole) ?_ rfl
  intro k₁ k₂ heq hm
  rw [← heq]
  cases hm with
  | quiet _ _ _ hvt _ _ => rw [hvt]
  | lock w l => rw [Kernel.updVt_vt]; split_ifs with hw <;> simp [hw]
  | want w p _ => rw [Kernel.updVt_vt]; split_ifs with hw <;> simp [hw]
  | awaitRelease w p hb _ => cases hb
  | switch w p hb _ => cases hb
  | install w n hb _ _ => cases hb
  | _ => rfl

end Path

end LinuxConsole.Switch

import LinuxConsole.Switch.SwitchLock

/-!
# Freeing consoles

Five kinds of pointers to consoles outlive the call that stored them: the three
of every VT, `sel_cons` and the `private_data` of an open vcs file.
`VT_DISALLOCATE` frees consoles under all of them.

`VT_BUSY(tmp)` guards the first and the fourth, but the `IS_VISIBLE` in it is a
macro of its own that names the variable `vc`: it says whether the console the
ioctl is called on is shown, not the one that is to be freed.  The call's effect
is `vtDisallocate_eq`, and **`holders_iff`** says when a run leaves no holder
dangling and frees exactly what is asked for.
-/

namespace LinuxConsole.Switch

variable {N : Nat} {P : Pools N}

/-! ### What `VT_DISALLOCATE` does -/

/-- The consoles that `VT_DISALLOCATE` is asked to free: one by its number, or
all of the VT but its first. -/
def Kernel.Requested (P : Pools N) (k : Kernel N) (vc arg q : Nat) : Prop :=
  arg ≤ maxNrConsoles ∧
    if arg = 0 then
      ∃ i, 1 ≤ i ∧ i < P.vcCount (k.con vc).displayFg ∧
        k.findVc P (i + P.firstVc (k.con vc).displayFg) = some q
    else k.findVc P (arg - 1) = some q

/-- The consoles that it does free. -/
def Kernel.Freed (P : Pools N) (k : Kernel N) (vc arg q : Nat) : Prop :=
  k.Requested P vc arg q ∧ k.vtBusy vc q = false ∧ minNrConsoles < (k.con q).vcNum

namespace Kernel

/-- The state with the consoles of a set freed and out of their slots. -/
def free (k : Kernel N) (s : Nat → Bool) : Kernel N :=
  { k with
    live := fun p => k.live p && !s p
    vt := fun v => { k.vt v with vcCons := fun i => (k.vt v).vcCons i |>.filter fun p => !s p } }

variable {k : Kernel N}

theorem free_free (s t : Nat → Bool) : (k.free s).free t = k.free fun p => s p || t p := by
  unfold free
  simp only [Kernel.mk.injEq, true_and, and_true]
  refine ⟨?_, ?_⟩
  · funext p
    cases s p <;> simp
  · funext v
    simp only [Vt.mk.injEq, true_and, and_true]
    funext i
    rw [Option.filter_filter]
    congr 1
    funext p
    cases s p <;> simp

theorem free_none (k : Kernel N) : k.free (fun _ => false) = k := by
  have hfilter : ∀ o : Option Nat, o.filter (fun _ => true) = o := by
    intro o
    cases o <;> rfl
  unfold free
  simp only [hfilter, Bool.not_false, Bool.and_true]

@[simp] theorem free_con (s : Nat → Bool) : (k.free s).con = k.con := rfl

theorem free_findVc (s : Nat → Bool) (n : Nat) :
    (k.free s).findVc P n = (k.findVc P n).filter fun p => !s p := by
  unfold findVc
  cases poolOf P n with
  | none => rfl
  | some v => rfl

theorem free_vtBusy (s : Nat → Bool) (vc q : Nat) : (k.free s).vtBusy vc q = k.vtBusy vc q := rfl

theorem vcDisallocate_eq (h : Consistent P k) {v : Fin N} {i p : Nat}
    (hp : (k.vt v).vcCons i = some p) (hmin : minNrConsoles < (k.con p).vcNum) :
    k.vcDisallocate P p = k.free fun q => decide (q = p) := by
  obtain ⟨-, hdisp, hnum⟩ := h.slot v i p hp
  unfold vcDisallocate free
  dsimp only
  rw [if_pos hmin, hdisp, hnum, Nat.add_sub_cancel_left]
  simp only [updVt, Kernel.mk.injEq, true_and, and_true]
  refine ⟨?_, ?_⟩
  · funext q
    rw [Function.update_apply]
    by_cases hq : q = p <;> simp [hq]
  · funext w
    rw [Function.update_apply]
    have hslots : ∀ (j : Nat), ((k.vt w).vcCons j).filter (fun q => !decide (q = p)) =
        if w = v ∧ j = i then none else (k.vt w).vcCons j := by
      intro j
      cases hj : (k.vt w).vcCons j with
      | none => simp
      | some q =>
        by_cases hq : q = p
        · subst hq
          obtain ⟨-, hdisp', hnum'⟩ := h.slot w j q hj
          have hwv : w = v := by rw [← hdisp', hdisp]
          subst hwv
          have hji : j = i := by omega
          simp [hji]
        · have hne : ¬ (w = v ∧ j = i) := by
            rintro ⟨rfl, rfl⟩
            rw [hp] at hj
            exact hq (Option.some.inj hj).symm
          simp [hq, hne]
    simp only [hslots]
    by_cases hw : w = v
    · subst hw
      rw [if_pos rfl]
      simp only [Vt.mk.injEq, true_and, and_true]
      funext j
      rw [Function.update_apply]
    · rw [if_neg hw]
      simp [hw]

/-- What one round of the loop over all consoles frees. -/
def freedBy (P : Pools N) (k : Kernel N) (vc i q : Nat) : Bool :=
  decide (k.findVc P (i + P.firstVc (k.con vc).displayFg) = some q) && !k.vtBusy vc q &&
    decide (minNrConsoles < (k.con q).vcNum)

theorem disallocateUnused_eq (vc i : Nat) (s : Nat → Bool)
    (hs : Consistent P (k.free s)) :
    disallocateUnused P vc (k.free s) i = k.free fun q => s q || k.freedBy P vc i q := by
  unfold disallocateUnused
  rw [free_con, free_findVc]
  cases hfind : k.findVc P (i + P.firstVc (k.con vc).displayFg) with
  | none =>
    have hnone : ∀ q, k.freedBy P vc i q = false := fun q => by simp [freedBy, hfind]
    simp [hnone]
  | some p =>
    have hby : ∀ q, k.freedBy P vc i q = true ↔
        q = p ∧ k.vtBusy vc p = false ∧ minNrConsoles < (k.con p).vcNum := by
      intro q
      unfold freedBy
      rw [hfind]
      constructor
      · intro hq
        simp only [Option.some.injEq, Bool.and_eq_true, decide_eq_true_eq, Bool.not_eq_true'] at hq
        obtain ⟨⟨rfl, hbusy⟩, hmin⟩ := hq
        exact ⟨rfl, hbusy, hmin⟩
      · rintro ⟨rfl, hbusy, hmin⟩
        simp [hbusy, hmin]
    have hsame : ∀ c : Nat → Bool, (∀ q, c q = true → s q = true) →
        k.free s = k.free fun q => s q || c q := by
      intro c hc
      congr 1
      funext q
      cases hcq : c q with
      | true => simp [hc q hcq]
      | false => simp
    cases hsp : s p with
    | true =>
      -- Freed in an earlier round already.
      have hgone : (some p).filter (fun p => !s p) = none := by simp [hsp]
      rw [hgone]
      exact hsame _ fun q hq => by rw [((hby q).mp hq).1]; exact hsp
    | false =>
      have hthere : (some p).filter (fun p => !s p) = some p := by simp [hsp]
      rw [hthere]
      dsimp only
      rw [free_vtBusy]
      by_cases hbusy : k.vtBusy vc p = true
      · rw [if_pos hbusy]
        refine hsame _ fun q hq => ?_
        rw [((hby q).mp hq).2.1] at hbusy
        cases hbusy
      · rw [if_neg hbusy]
        by_cases hmin : minNrConsoles < (k.con p).vcNum
        · have hslot := (hs.found (n := i + P.firstVc (k.con vc).displayFg) (p := p)
            (by rw [free_findVc, hfind, hthere])).2.2.2
          rw [vcDisallocate_eq hs hslot hmin, free_free]
          congr 1
          funext q
          by_cases hq : q = p
          · rw [(hby q).mpr ⟨hq, by simpa using hbusy, hmin⟩]
            simp [hq]
          · have hno : k.freedBy P vc i q = false := by
              rw [Bool.eq_false_iff]
              exact fun hyes => hq ((hby q).mp hyes).1
            rw [hno]
            simp [hq]
        · have hkeep : (k.free s).vcDisallocate P p = k.free s := by
            unfold vcDisallocate
            rw [free_con]
            exact if_neg hmin
          rw [hkeep]
          exact hsame _ fun q hq => absurd ((hby q).mp hq).2.2 hmin

theorem disallocateLoop_eq (h : Consistent P k) (vc : Nat) (l : List Nat) :
    l.foldl (disallocateUnused P vc) k = k.free fun q => l.any fun i => k.freedBy P vc i q := by
  have hloop : ∀ (l : List Nat) (s : Nat → Bool), Consistent P (k.free s) →
      l.foldl (disallocateUnused P vc) (k.free s) =
        k.free fun q => s q || l.any fun i => k.freedBy P vc i q := by
    intro l
    induction l with
    | nil => intro s _; simp
    | cons i l ih =>
      intro s hs
      have hround := disallocateUnused_eq vc i s hs
      have hs' : Consistent P (k.free fun q => s q || k.freedBy P vc i q) := by
        rw [← hround]
        exact hs.disallocateUnused vc i
      rw [List.foldl_cons, hround, ih _ hs']
      simp only [List.any_cons, Bool.or_assoc]
  have hstart := hloop l (fun _ => false) (by rw [free_none]; exact h)
  rw [free_none] at hstart
  simpa using hstart

/-- **All that `VT_DISALLOCATE` does** is to free the consoles that `Freed`
names. -/
theorem vtDisallocate_eq (h : Consistent P k) (vc arg : Nat) :
    ∃ (s : Nat → Bool) (sem : List Lib.LockEvent),
      (∀ q, s q = true ↔ k.Freed P vc arg q) ∧
        (k.vtDisallocate P vc arg).2 = { k.free s with sem := sem } := by
  have hacq : Consistent P k.acquireConsoleSem := h.quiet rfl rfl rfl rfl
  have hnothing : (∀ q, ¬ k.Freed P vc arg q) → ∃ (s : Nat → Bool) (sem : List Lib.LockEvent),
      (∀ q, s q = true ↔ k.Freed P vc arg q) ∧ k = { k.free s with sem := sem } := by
    intro hnone
    refine ⟨fun _ => false, k.sem, fun q => iff_of_false (by simp) (hnone q), ?_⟩
    rw [free_none]
  unfold vtDisallocate
  by_cases hmax : arg > maxNrConsoles
  · rw [if_pos hmax]
    exact hnothing fun q hq => absurd hq.1.1 (Nat.not_le_of_lt hmax)
  · rw [if_neg hmax]
    have hle : arg ≤ maxNrConsoles := Nat.le_of_not_lt hmax
    by_cases hall : arg = 0
    · rw [if_pos hall]
      refine ⟨fun q => (List.range' 1 (P.vcCount (k.con vc).displayFg - 1)).any fun i =>
        k.freedBy P vc i q, (k.sem ++ [.acquire]) ++ [.release], ?_, ?_⟩
      · intro q
        simp only [List.any_eq_true, List.mem_range'_1, Freed, Requested, freedBy, hle, true_and,
          if_pos hall, Bool.and_eq_true, decide_eq_true_eq, Bool.not_eq_true']
        constructor
        · rintro ⟨i, ⟨hi, hlt⟩, ⟨hfind, hbusy⟩, hmin⟩
          exact ⟨⟨i, hi, by omega, hfind⟩, hbusy, hmin⟩
        · rintro ⟨⟨i, hi, hlt, hfind⟩, hbusy, hmin⟩
          exact ⟨i, ⟨hi, by omega⟩, ⟨hfind, hbusy⟩, hmin⟩
      · dsimp only
        rw [disallocateLoop_eq hacq]
        rfl
    · rw [if_neg hall]
      cases hfind : k.findVc P (arg - 1) with
      | none =>
        refine hnothing fun q hq => ?_
        have hreq := hq.1.2
        rw [if_neg hall, hfind] at hreq
        cases hreq
      | some p =>
        dsimp only
        have hfreed : ∀ q, k.Freed P vc arg q ↔
            q = p ∧ k.vtBusy vc p = false ∧ minNrConsoles < (k.con p).vcNum := by
          intro q
          unfold Freed Requested
          rw [if_neg hall, hfind]
          constructor
          · rintro ⟨⟨-, hq⟩, hbusy, hmin⟩
            obtain rfl := Option.some.inj hq
            exact ⟨rfl, hbusy, hmin⟩
          · rintro ⟨rfl, hbusy, hmin⟩
            exact ⟨⟨hle, rfl⟩, hbusy, hmin⟩
        by_cases hbusy : k.vtBusy vc p = true
        · rw [if_pos hbusy]
          refine hnothing fun q hq => ?_
          rw [((hfreed q).mp hq).2.1] at hbusy
          cases hbusy
        · rw [if_neg hbusy]
          by_cases hmin : minNrConsoles < (k.con p).vcNum
          · refine ⟨fun q => decide (q = p), (k.sem ++ [.acquire]) ++ [.release], ?_, ?_⟩
            · intro q
              rw [hfreed, decide_eq_true_eq]
              exact ⟨fun hq => ⟨hq, by simpa using hbusy, hmin⟩, fun hq => hq.1⟩
            · have hslot := (hacq.found (n := arg - 1) (p := p) hfind).2.2.2
              dsimp only
              rw [vcDisallocate_eq hacq hslot hmin]
              rfl
          · refine ⟨fun _ => false, (k.sem ++ [.acquire]) ++ [.release], ?_, ?_⟩
            · intro q
              rw [hfreed]
              exact iff_of_false (by simp) fun hq => hmin hq.2.2
            · have hkeep : k.acquireConsoleSem.vcDisallocate P p = k.acquireConsoleSem := if_neg hmin
              dsimp only
              rw [hkeep, free_none]
              rfl

/-! ### The holders -/

/-- `VT_IS_IN_USE`. -/
def InUse (k : Kernel N) (q : Nat) : Prop := ∃ count, (k.con q).vcTty = some count ∧ count ≠ 0

/-- The console is pointed to from outside the slots. -/
def Held (k : Kernel N) (q : Nat) : Prop :=
  (∃ v, q = (k.vt v).fgConsole ∨ q = (k.vt v).lastConsole ∨ q = (k.vt v).wantVc) ∨
    k.selCons = some q ∨ ∃ f, k.vcs f = some q

/-- No holder is dangling. -/
def HoldersLive (k : Kernel N) : Prop := ∀ q, k.Held q → k.live q

/-- `VT_DISALLOCATE` frees the consoles it is asked to free that are not in use,
not in the foreground of their VT and not under the selection. -/
def FreesExactly (P : Pools N) (k : Kernel N) : Op N → Prop
  | .ioctl vc perm cap (.vtDisallocate arg) =>
    k.live vc → ∀ q,
      (k.live q ∧ ¬ (k.step P (.ioctl vc perm cap (.vtDisallocate arg))).live q) ↔
        k.Requested P vc arg q ∧ ¬ k.InUse q ∧ q ≠ (k.vt (k.con q).displayFg).fgConsole ∧
          k.selCons ≠ some q
  | _ => True

/-- What a call of `VT_DISALLOCATE` needs: of the consoles it is asked to free
that are not in use and not under the selection, those that are not in the
foreground are numbered above `MIN_NR_CONSOLES` and held by nobody, and the call
is made on a console that is shown if and only if they are all in the
foreground. -/
def FreesSafely (P : Pools N) (k : Kernel N) : Op N → Prop
  | .ioctl vc _ _ (.vtDisallocate arg) =>
    k.live vc → ∀ q, k.Requested P vc arg q → ¬ k.InUse q → k.selCons ≠ some q →
      (q ≠ (k.vt (k.con q).displayFg).fgConsole ↔
        ¬ k.isVisible vc ∧ minNrConsoles < (k.con q).vcNum) ∧
      (q ≠ (k.vt (k.con q).displayFg).fgConsole → ¬ k.Held q)
  | _ => True

theorem vtBusy_eq_false (vc q : Nat) :
    k.vtBusy vc q = false ↔ ¬ k.InUse q ∧ ¬ k.isVisible vc ∧ k.selCons ≠ some q := by
  unfold vtBusy InUse
  cases (k.con q).vcTty with
  | none => simp
  | some count => simp [and_assoc]

theorem Requested.live (h : Consistent P k) {vc arg q : Nat} (hq : k.Requested P vc arg q) :
    k.live q := by
  obtain ⟨-, hreq⟩ := hq
  split_ifs at hreq
  · obtain ⟨i, -, -, hfind⟩ := hreq
    exact (h.found hfind).1
  · exact (h.found hreq).1

/-- **One call of `VT_DISALLOCATE`.** -/
theorem vtDisallocate_holders (h : Consistent P k) (hlive : k.HoldersLive) (vc arg : Nat) :
    ((k.vtDisallocate P vc arg).2.HoldersLive ∧
      ∀ q, (k.live q ∧ ¬ (k.vtDisallocate P vc arg).2.live q) ↔
        k.Requested P vc arg q ∧ ¬ k.InUse q ∧ q ≠ (k.vt (k.con q).displayFg).fgConsole ∧
          k.selCons ≠ some q) ↔
      ∀ q, k.Requested P vc arg q → ¬ k.InUse q → k.selCons ≠ some q →
        (q ≠ (k.vt (k.con q).displayFg).fgConsole ↔
          ¬ k.isVisible vc ∧ minNrConsoles < (k.con q).vcNum) ∧
        (q ≠ (k.vt (k.con q).displayFg).fgConsole → ¬ k.Held q) := by
  obtain ⟨s, sem, hs, heq⟩ := k.vtDisallocate_eq h vc arg
  have hfreed : ∀ q, s q = true ↔ k.Requested P vc arg q ∧ ¬ k.InUse q ∧
      k.selCons ≠ some q ∧ ¬ k.isVisible vc ∧ minNrConsoles < (k.con q).vcNum := by
    intro q
    rw [hs, Freed, vtBusy_eq_false]
    tauto
  have hgone : ∀ q, (k.live q ∧ ¬ (k.vtDisallocate P vc arg).2.live q) ↔ s q = true := by
    intro q
    rw [heq]
    simp only [free, Bool.and_eq_true, Bool.not_eq_true']
    constructor
    · rintro ⟨hq, hdead⟩
      by_contra hkeep
      exact hdead ⟨hq, by simpa using hkeep⟩
    · intro hq
      exact ⟨((hfreed q).mp hq).1.live h, fun ⟨_, hkeep⟩ => by rw [hq] at hkeep; cases hkeep⟩
  have hsafe : (k.vtDisallocate P vc arg).2.HoldersLive ↔ ∀ q, k.Held q → ¬ s q = true := by
    rw [heq]
    unfold HoldersLive
    refine forall_congr' fun q => imp_congr_right fun hheld => ?_
    have hq := hlive q hheld
    simp only [free, hq, Bool.true_and, Bool.not_eq_true', Bool.not_eq_true]
  simp only [hgone, hsafe]
  constructor
  · rintro ⟨hheld, hexact⟩ q hreq huse hsel
    have hiff : q ≠ (k.vt (k.con q).displayFg).fgConsole ↔ s q = true := by
      rw [hexact]
      tauto
    refine ⟨?_, fun hfg hq => hheld q hq (hiff.mp hfg)⟩
    rw [hiff, hfreed]
    tauto
  · intro hcond
    have hexact : ∀ q, s q = true ↔ k.Requested P vc arg q ∧ ¬ k.InUse q ∧
        q ≠ (k.vt (k.con q).displayFg).fgConsole ∧ k.selCons ≠ some q := by
      intro q
      rw [hfreed]
      have hq := hcond q
      tauto
    refine ⟨fun q hheld hq => ?_, hexact⟩
    obtain ⟨hreq, huse, hfg, hsel⟩ := (hexact q).mp hq
    exact (hcond q hreq huse hsel).2 hfg hheld

/-! ### Steps and runs -/

theorem Holds.live (h : Consistent P k) (hlive : k.HoldersLive) {v : Fin N} {p : Nat}
    (hp : k.Holds v p) : k.live p := by
  rcases hp with ⟨i, hi⟩ | rfl | rfl
  · exact (h.slot v i p hi).1
  · exact hlive _ (.inl ⟨v, .inr (.inl rfl)⟩)
  · exact hlive _ (.inl ⟨v, .inr (.inr rfl)⟩)

theorem HoldersLive.of_holders {k' : Kernel N} (hlive : k.HoldersLive)
    (hmono : ∀ q, k.live q → k'.live q)
    (hvt : ∀ v q, q = (k'.vt v).fgConsole ∨ q = (k'.vt v).lastConsole ∨ q = (k'.vt v).wantVc →
      k.Held q ∨ k'.live q)
    (hsel : ∀ q, k'.selCons = some q → k.Held q ∨ k'.live q)
    (hvcs : ∀ f q, k'.vcs f = some q → k.Held q ∨ k'.live q) : k'.HoldersLive := by
  have hdone : ∀ q, k.Held q ∨ k'.live q → k'.live q := fun q hq =>
    hq.elim (fun hheld => hmono q (hlive q hheld)) id
  rintro q (⟨v, hq⟩ | hq | ⟨f, hq⟩)
  · exact hdone q (hvt v q hq)
  · exact hdone q (hsel q hq)
  · exact hdone q (hvcs f q hq)

theorem HoldersLive.install (hlive : k.HoldersLive) (v : Fin N) (n : Nat) :
    (k.install P v n).HoldersLive := by
  have hnew : (k.install P v n).live k.next := by
    rw [install_live, Function.update_self]
  refine hlive.of_holders ?_ ?_ ?_ ?_
  · intro q hq
    rw [install_live, Function.update_apply]
    split_ifs
    · rfl
    · exact hq
  · intro w q hq
    rw [install_vt] at hq
    by_cases hw : w = v
    · subst hw
      rw [if_pos rfl] at hq
      by_cases hfirst : P.firstVc w = n
      · simp only [if_pos hfirst, or_self] at hq
        subst hq
        exact .inr hnew
      · simp only [if_neg hfirst] at hq
        exact .inl (.inl ⟨w, hq⟩)
    · rw [if_neg hw] at hq
      exact .inl (.inl ⟨w, hq⟩)
  · intro q hq
    rw [install_selCons] at hq
    exact .inl (.inr (.inl hq))
  · intro f q hq
    rw [install_vcs] at hq
    exact .inl (.inr (.inr ⟨f, hq⟩))

theorem HoldersLive.updVt (hlive : k.HoldersLive) {v : Fin N} {f : Vt → Vt}
    (hfg : k.live (f (k.vt v)).fgConsole) (hlast : k.live (f (k.vt v)).lastConsole)
    (hwant : k.live (f (k.vt v)).wantVc) : (k.updVt v f).HoldersLive := by
  refine hlive.of_holders (fun _ hq => hq) ?_ (fun q hq => .inl (.inr (.inl hq)))
    (fun g q hq => .inl (.inr (.inr ⟨g, hq⟩)))
  intro w q hq
  rw [updVt_vt] at hq
  split_ifs at hq with hw
  · rcases hq with rfl | rfl | rfl
    · exact .inr hfg
    · exact .inr hlast
    · exact .inr hwant
  · exact .inl (.inl ⟨w, hq⟩)

/-- **No elementary change leaves a holder dangling.** -/
theorem HoldersLive.move {b : Bool} {k' : Kernel N} (h : Consistent P k) (hlive : k.HoldersLive)
    (hm : Move P b k k') : k'.HoldersLive := by
  have hfg : ∀ v, k.live (k.vt v).fgConsole := fun v => hlive _ (.inl ⟨v, .inl rfl⟩)
  have hlast : ∀ v, k.live (k.vt v).lastConsole := fun v => hlive _ (.inl ⟨v, .inr (.inl rfl)⟩)
  have hwant : ∀ v, k.live (k.vt v).wantVc := fun v => hlive _ (.inl ⟨v, .inr (.inr rfl)⟩)
  cases hm with
  | quiet _ hl _ hvt hsel hvcs =>
    refine hlive.of_holders (fun q hq => by rw [hl]; exact hq) ?_ ?_ ?_
    · intro v q hq
      rw [hvt] at hq
      exact .inl (.inl ⟨v, hq⟩)
    · intro q hq
      rw [hsel] at hq
      exact .inl (.inr (.inl hq))
    · intro f q hq
      rw [hvcs] at hq
      exact .inl (.inr (.inr ⟨f, hq⟩))
  | updCon p f _ => exact hlive
  | lock v l => exact hlive.updVt (hfg v) (hlast v) (hwant v)
  | want v p hp => exact hlive.updVt (hfg v) (hlast v) (hp.live h hlive)
  | switch v p _ hp => exact hlive.updVt (hp.live h hlive) (hfg v) (hwant v)
  | awaitRelease v p _ _ =>
    have hnoted : (k.updVt (k.con (k.vt v).fgConsole).displayFg fun t =>
        { t with releasedTo := some p }).HoldersLive := hlive.updVt (hfg _) (hlast _) (hwant _)
    exact hnoted
  | install v n _ _ _ => exact hlive.install v n
  | select v =>
    refine hlive.of_holders (fun _ hq => hq) (fun w q hq => .inl (.inl ⟨w, hq⟩)) ?_
      (fun f q hq => .inl (.inr (.inr ⟨f, hq⟩)))
    intro q hq
    obtain rfl := Option.some.inj hq
    exact .inr (hfg v)
  | vcsOpen f v i p hp =>
    refine hlive.of_holders (fun _ hq => hq) (fun w q hq => .inl (.inl ⟨w, hq⟩))
      (fun q hq => .inl (.inr (.inl hq))) ?_
    intro g q hq
    simp only [Function.update_apply] at hq
    split_ifs at hq
    · obtain rfl := Option.some.inj hq
      exact .inr (h.slot v i p hp).1
    · exact .inl (.inr (.inr ⟨g, hq⟩))
  | vcsClose f =>
    refine hlive.of_holders (fun _ hq => hq) (fun w q hq => .inl (.inl ⟨w, hq⟩))
      (fun q hq => .inl (.inr (.inl hq))) ?_
    intro g q hq
    simp only [Function.update_apply] at hq
    split_ifs at hq
    exact .inl (.inr (.inr ⟨g, hq⟩))

theorem HoldersLive.path {b : Bool} {k' : Kernel N} (h : Consistent P k) (hlive : k.HoldersLive)
    (hp : Path P b k k') : k'.HoldersLive :=
  (hp.keeps (I := fun k => Consistent P k ∧ k.HoldersLive)
    (fun _ _ hk hm => ⟨hk.1.move hm, hk.2.move hk.1 hm⟩) ⟨h, hlive⟩).2

theorem HoldersLive.vtOpen (hlive : k.HoldersLive) (n : Nat) (mem : Bool) :
    (k.vtOpen P n mem).HoldersLive := by
  have hfirst : (k.vtOpenFirst P n mem).HoldersLive := by
    unfold vtOpenFirst
    rcases k.acquireConsoleSem.vcAllocate_cases (P := P) mem n with heq | ⟨v, -, -, -, heq⟩
    · rw [heq]; exact hlive
    · rw [heq]
      exact HoldersLive.install (k := k.acquireConsoleSem) hlive v n
  unfold Kernel.vtOpen
  split
  · split_ifs
    · exact hlive
    · exact hfirst
  · exact hfirst

/-- **One operation on a state without a dangling holder.** -/
theorem step_holders (h : Consistent P k) (hlive : k.HoldersLive) (op : Op N) :
    ((k.step P op).HoldersLive ∧ k.FreesExactly P op) ↔ k.FreesSafely P op := by
  have hfresh : Consistent P k.fresh := h.quiet rfl rfl rfl rfl
  by_cases hdis : op.Disallocates
  · cases op with
    | ioctl vc perm cap cmd =>
      cases cmd with
      | vtDisallocate arg =>
        unfold FreesExactly FreesSafely
        by_cases hvc : k.live vc
        · have hstep : k.step P (.ioctl vc perm cap (.vtDisallocate arg)) =
              (k.fresh.vtDisallocate P vc arg).2 := by
            refine if_pos fun p hp => ?_
            obtain rfl := Option.some.inj hp
            exact hvc
          simp only [hvc, forall_true_left, hstep]
          exact vtDisallocate_holders hfresh hlive vc arg
        · have hstep : k.step P (.ioctl vc perm cap (.vtDisallocate arg)) = k.fresh :=
            if_neg fun htty => hvc (htty vc rfl)
          rw [hstep]
          exact iff_of_true ⟨hlive, fun hq => absurd hq hvc⟩ fun hq => absurd hq hvc
      | _ => exact absurd hdis id
    | _ => exact absurd hdis id
  · have hkeep : (k.step P op).HoldersLive := by
      unfold Kernel.step
      split_ifs with htty
      · by_cases hopen : op.Reopens P k.fresh
        · cases op with
          | ttyOpen n mem => exact HoldersLive.vtOpen (k := k.fresh) hlive n mem
          | _ => exact absurd hopen id
        · exact HoldersLive.path hfresh hlive (exec_path hfresh op (fun _ => rfl) htty hdis hopen)
      · exact hlive
    have hother : k.FreesExactly P op ∧ k.FreesSafely P op := by
      cases op with
      | ioctl vc perm cap cmd =>
        cases cmd with
        | vtDisallocate arg => exact absurd trivial hdis
        | _ => exact ⟨trivial, trivial⟩
      | _ => exact ⟨trivial, trivial⟩
    exact iff_of_true ⟨hkeep, hother.1⟩ hother.2

end Kernel

/-- **A run leaves no holder dangling and frees exactly what it is asked to free
if and only if its calls of `VT_DISALLOCATE` are safe.** -/
theorem holders_iff (P : Pools N) (k : Kernel N) (h : Consistent P k) (hlive : k.HoldersLive)
    (ops : List (Op N)) :
    Lib.Along (Kernel.step P)
        (fun k op => (k.step P op).HoldersLive ∧ k.FreesExactly P op) k ops ↔
      Lib.Along (Kernel.step P) (fun k op => k.FreesSafely P op) k ops :=
  Lib.along_congr (I := fun k => Consistent P k ∧ k.HoldersLive)
    (fun _ op hk hop => ⟨hk.1.step op, hop.1⟩) (fun _ op hk => Kernel.step_holders hk.1 hk.2 op)
    ⟨h, hlive⟩

theorem boot_holdersLive (P : Pools (N + 1)) : (Kernel.boot P).HoldersLive := by
  have hfirst : ∀ v : Fin (N + 1), (Kernel.boot P).live v := fun v =>
    decide_eq_true v.isLt
  rintro q (⟨v, rfl | rfl | rfl⟩ | hsel | ⟨f, hvcs⟩)
  · exact hfirst v
  · exact hfirst v
  · exact hfirst v
  · cases hsel
  · cases hvcs

/-- Console 2 is opened, closed and freed by a call on console 3. -/
theorem holders_iff_onePool :
    let ops : List (Op 1) :=
      [.ttyOpen 2 true, .ttyOpen 3 true, .ttyClose 1, .ioctl 2 true true (.vtDisallocate 3)]
    Lib.Along (Kernel.step onePool)
        (fun k op => (k.step onePool op).HoldersLive ∧ k.FreesExactly onePool op)
        (Kernel.boot onePool) ops ↔
      Lib.Along (Kernel.step onePool) (fun k op => k.FreesSafely onePool op)
        (Kernel.boot onePool) ops :=
  holders_iff onePool (Kernel.boot onePool) (boot_consistent onePool) (boot_holdersLive onePool)
    [.ttyOpen 2 true, .ttyOpen 3 true, .ttyClose 1, .ioctl 2 true true (.vtDisallocate 3)]

/-- **The console last shown is freed.**  Three ttys are opened, the display goes
to the first and on to the second, the first is closed and a call on the third
frees its console, which is still `last_console`. -/
theorem last_console_freed :
    let ops : List (Op 1) :=
      [.ttyOpen 2 true, .ttyOpen 3 true, .ttyOpen 4 true,
        .ioctl 1 true true (.vtActivate 3 true), .work 0,
        .ioctl 2 true true (.vtActivate 4 true), .work 0,
        .ttyClose 1, .ioctl 3 true true (.vtDisallocate 3)]
    let k := Lib.run (Kernel.step onePool) (Kernel.boot onePool) ops
    (k.vt 0).lastConsole = 1 ∧ k.live 1 = false ∧ ¬ k.HoldersLive := by
  have hrun :
      let ops : List (Op 1) :=
        [.ttyOpen 2 true, .ttyOpen 3 true, .ttyOpen 4 true,
          .ioctl 1 true true (.vtActivate 3 true), .work 0,
          .ioctl 2 true true (.vtActivate 4 true), .work 0,
          .ttyClose 1, .ioctl 3 true true (.vtDisallocate 3)]
      let k := Lib.run (Kernel.step onePool) (Kernel.boot onePool) ops
      (k.vt 0).lastConsole = 1 ∧ k.live 1 = false := by
    decide +kernel
  obtain ⟨hlast, hdead⟩ := hrun
  refine ⟨hlast, hdead, fun hlive => ?_⟩
  have hlive1 := hlive 1 (.inl ⟨0, .inr (.inl hlast.symm)⟩)
  rw [hdead] at hlive1
  cases hlive1

end LinuxConsole.Switch

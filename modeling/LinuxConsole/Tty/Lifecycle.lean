import LinuxConsole.Tty.Open

/-!
# Runs of opens and closes

However opens, closes and the rests of last closes follow each other, no step follows a pointer to
what is not there (`opens_and_closes`), the counts are those that `check_tty_count` looks for and
`release_dev` finds nothing to complain of (`counts_and_tables`), and when no file is left nothing
is (`nothing_left`).  A struct that is on its way out is never opened again (`closing_stays`).
-/

namespace LinuxConsole.Tty

open Lib

variable {S : Drivers} {k k' : Kernel} {t : Nat} {tty : TtyStruct}

/-! ### Steps -/

/-- **A step keeps the invariant** and does not fault. -/
theorem step_meets (act : Act) : Meets (Ok S) (step S act) fun _ => Ok S := by
  intro k h
  cases act with
  | «open» d idx filp o =>
    rw [step, bind_run (get_run k)]
    split_ifs with hline
    · exact ttyOpen_meets h hline.1 hline.2.1 hline.2.2 o k rfl
    · exact ⟨⟨⟩, k, rfl, h⟩
  | close filp =>
    change ∃ a k', (releaseDev S filp).run k = some (a, k') ∧ Ok S k'
    cases hfile : k.privateData filp with
    | none =>
      rw [releaseDev, bind_run (get_run k), hfile]
      exact ⟨⟨⟩, k, rfl, h⟩
    | some t =>
      obtain ⟨tty, htty, hmem⟩ := h.conduct.file.mp hfile
      exact ⟨_, _, releaseDev_run h hfile htty, h.closed htty hmem⟩
  | final t =>
    rw [step, bind_run (get_run k)]
    split_ifs with ht
    · exact (finalClose_meets t).run ⟨h, ht⟩
    · exact ⟨⟨⟩, k, rfl, h⟩

theorem run_ok (S : Drivers) (acts : List Act) :
    ∃ k, (acts.forM (step S)).run Kernel.boot = some (⟨⟩, k) ∧ Ok S k :=
  exists_run step_meets acts (ok_boot S)

/-! ### What every step keeps -/

/-- **What the pieces of the code keep**, a store that does not take a closing flag away among
them. -/
structure Kept (S : Drivers) (I : Kernel → Prop) : Prop where
  store : ∀ t f, (∀ tty : TtyStruct, tty.closing = true → (f tty).closing = true) →
    Retains I (store t f)
  alloc : ∀ ok d idx, Retains I (allocTtyStruct ok d idx)
  malloc : ∀ ok slot, Retains I (mallocUnless ok slot)
  free : ∀ t, Retains I (freeTtyStruct t)
  kfree : ∀ b, Retains I (kfree b)
  modules : ∀ {k : Kernel} modules, I k → I { k with modules := modules }
  setFile : ∀ {k : Kernel} filp t, I k → I (k.setFile filp t)
  setReleasing : ∀ {k : Kernel} releasing, I k → I (k.setReleasing releasing)
  install : ∀ d idx t tp ltp, Retains I (install d idx t tp ltp)
  releaseSide : ∀ t idx, Retains I (releaseSide S t idx)

section Kept

variable {I : Kernel → Prop}

theorem retains_load (t : Nat) : Retains I (load t) := retains_read fun k => by
  change (k.tty t).map _ = ((k.tty t).map _).map _
  cases k.tty t <;> rfl

theorem retains_deref (p : Option Nat) : Retains I (deref p) := retains_read fun _ => by
  cases p <;> rfl

theorem Kept.storeIf (h : Kept S I) (b : Bool) (p : Option Nat) (f : TtyStruct → TtyStruct)
    (hf : ∀ tty : TtyStruct, tty.closing = true → (f tty).closing = true) :
    Retains I (storeIf b p f) :=
  retains_ite (retains_bind (retains_deref p) fun t => h.store t f hf) (retains_pure _)

theorem Kept.failNoMem (h : Kept S I) (d : Nat) : Retains I (failNoMem S d) :=
  retains_bind (retains_modify fun _ hk => h.modules _ hk) fun _ => retains_pure _

theorem Kept.freeMemOut (h : Kept S I) (d t : Nat) (tp ltp oTty oTp : Option Nat) :
    Retains I (freeMemOut S d t tp ltp oTty oTp) := by
  have hrest := retains_bind (h.kfree ltp) fun _ => retains_bind (h.kfree tp) fun _ =>
    retains_bind (h.free t) fun _ => h.failNoMem d
  refine retains_bind (h.kfree oTp) fun _ => ?_
  cases oTty with
  | none => exact hrest
  | some o => exact retains_bind (h.free o) fun _ => hrest

theorem Kept.releaseMem (h : Kept S I) (t idx : Nat) : Retains I (releaseMem S t idx) := by
  refine retains_bind (retains_load t) fun tty => ?_
  have hput : Retains I (modulePut (S.drv tty.driver).owner) :=
    retains_modify fun _ hk => h.modules _ hk
  have hrest := retains_bind (h.releaseSide t idx) fun _ => hput
  cases hlink : tty.link with
  | none => exact hrest
  | some o => exact retains_bind (h.releaseSide o idx) fun _ => hrest

theorem Kept.openLdiscs (h : Kept S I) (t : Nat) (oTty : Option Nat) (idx : Nat) (o : Outcome) :
    Retains I (openLdiscs S t oTty idx o) := by
  have hremove (e : Int) : Retains I (do
      Tty.releaseMem S t idx
      return .error e : K (Except Int Nat)) :=
    retains_bind (h.releaseMem t idx) fun _ => retains_pure _
  unfold Tty.openLdiscs
  cases o.ldiscOpen with
  | some e => exact hremove e
  | none =>
    cases oTty with
    | none => exact retains_pure _
    | some _ =>
      cases o.oLdiscOpen with
      | some e => exact hremove e
      | none => exact retains_pure _

theorem Kept.installPty (h : Kept S I) (d idx t : Nat) (tp ltp : Option Nat) (o : Outcome) :
    Retains I (installPty S d idx t tp ltp o) := by
  refine retains_bind (retains_deref _) fun d' => retains_bind (h.alloc ..) fun oTty => ?_
  cases oTty with
  | none => exact h.freeMemOut ..
  | some oTty =>
    refine retains_bind (h.malloc ..) fun oTp => ?_
    cases oTp with
    | none => exact h.freeMemOut ..
    | some oTp =>
      refine retains_bind (h.malloc ..) fun oLtp => ?_
      cases oLtp with
      | none => exact h.freeMemOut ..
      | some oLtp =>
        exact retains_bind (h.install ..) fun _ =>
          retains_bind (h.storeIf _ _ _ fun _ => id) fun _ =>
          retains_bind (h.store _ _ fun _ => id) fun _ =>
          retains_bind (h.store _ _ fun _ => id) fun _ => retains_bind (h.install ..) fun _ =>
          retains_bind (h.store _ _ fun _ => id) fun _ => h.openLdiscs ..

theorem Kept.firstOpen (h : Kept S I) (d idx : Nat) (o : Outcome) :
    Retains I (firstOpen S d idx o) := by
  refine retains_ite (retains_pure _) (retains_bind
    (retains_modify fun _ hk => h.modules _ hk) fun _ => retains_bind (h.alloc ..) fun t => ?_)
  cases t with
  | none => exact h.failNoMem d
  | some t =>
    refine retains_bind (h.malloc ..) fun tp => ?_
    cases tp with
    | none => exact h.freeMemOut ..
    | some tp =>
      refine retains_bind (h.malloc ..) fun ltp => ?_
      cases ltp with
      | none => exact h.freeMemOut ..
      | some ltp =>
        exact retains_ite (h.installPty ..) (retains_bind (h.install ..) fun _ =>
          retains_bind (h.store _ _ fun _ => id) fun _ => h.openLdiscs ..)

theorem Kept.fastTrack (h : Kept S I) (d t : Nat) : Retains I (fastTrack S d t) := by
  refine retains_bind (retains_load t) fun tty => retains_ite (retains_pure _) ?_
  have hstore := retains_bind
    (h.store t (fun tty => { tty with count := tty.count + 1, driver := d }) fun _ => id) fun _ =>
      retains_pure (Except.ok t : Except Int Nat)
  refine retains_ite (retains_ite (retains_pure _) ?_) hstore
  exact retains_bind (retains_deref _) fun o =>
    retains_bind (h.store o _ fun _ => id) fun _ => hstore

theorem Kept.ttyOpen (h : Kept S I) (d idx filp : Nat) (o : Outcome) :
    Retains I (ttyOpen S d idx filp o) := by
  have hinit : Retains I (initDev S d idx o) := by
    refine retains_bind retains_get fun k => ?_
    cases k.ttys (d, idx) with
    | none => exact h.firstOpen d idx o
    | some t => exact h.fastTrack d t
  refine retains_bind hinit fun r => ?_
  cases r with
  | error e => exact retains_pure _
  | ok t =>
    exact retains_bind (retains_modify fun _ hk => h.setFile filp (some t) hk) fun _ =>
      h.store t _ fun _ => id

theorem retains_paranoid (t : Nat) (tty : TtyStruct) : Retains I (paranoid S t tty) := by
  refine retains_bind retains_get fun k => retains_ite (retains_pure _) (retains_ite
    (retains_pure _) (retains_ite (retains_pure _) (retains_ite (retains_pure _) ?_)))
  cases (S.drv tty.driver).other with
  | none => exact retains_pure _
  | some d' =>
    exact retains_ite (retains_pure _) (retains_bind (retains_deref _) fun o =>
      retains_bind (retains_load o) fun oTty => retains_ite (retains_pure _)
        (retains_ite (retains_pure _) (retains_pure _)))

theorem retains_oTtyClosing (ptyMaster : Bool) (link : Option Nat) :
    Retains I (oTtyClosing ptyMaster link) := by
  cases link with
  | none => exact retains_pure _
  | some o => exact retains_bind (retains_load o) fun _ => retains_pure _

theorem Kept.releaseDev (h : Kept S I) (filp : Nat) : Retains I (releaseDev S filp) := by
  refine retains_bind retains_get fun k => ?_
  cases k.privateData filp with
  | none => exact retains_pure _
  | some t =>
    refine retains_bind (retains_load t) fun tty => retains_bind (retains_paranoid t tty) fun _ =>
      retains_ite (retains_pure _) (retains_bind (retains_oTtyClosing ..) fun oClosing => ?_)
    exact retains_bind (h.storeIf _ _ _ fun _ => id) fun _ =>
      retains_bind (h.store _ _ fun _ => id) fun _ =>
      retains_bind (retains_modify fun _ hk => h.setFile filp none hk) fun _ =>
      retains_bind (h.storeIf _ _ _ fun _ _ => rfl) fun _ =>
      retains_bind (h.storeIf _ _ _ fun _ _ => rfl) fun _ =>
      retains_modify fun _ hk => h.setReleasing _ hk

theorem Kept.finalClose (h : Kept S I) (t : Nat) : Retains I (finalClose S t) :=
  retains_bind (retains_load t) fun tty =>
    retains_bind (retains_modify fun _ hk => h.setReleasing _ hk) fun _ =>
      h.releaseMem t tty.index

/-- **A step keeps what its pieces keep.** -/
theorem Kept.step (h : Kept S I) (act : Act) : Retains I (step S act) := by
  cases act with
  | «open» d idx filp o =>
    exact retains_bind retains_get fun k => retains_ite (h.ttyOpen d idx filp o) (retains_pure _)
  | close filp => exact h.releaseDev filp
  | final t =>
    exact retains_bind retains_get fun k => retains_ite (h.finalClose t) (retains_pure _)

end Kept

/-! ### Structs on their way out -/

/-- The struct has its closing flag, or is gone. -/
def Leaving (t : Nat) (k : Kernel) : Prop :=
  t < k.nextTty ∧ ∀ tty, k.tty t = some tty → tty.closing = true

theorem leaving_store {x : Nat} {f : TtyStruct → TtyStruct}
    (hf : ∀ tty : TtyStruct, tty.closing = true → (f tty).closing = true) :
    Retains (Leaving t) (store x f) := by
  refine ⟨fun k a k' hk hrun => ?_⟩
  obtain ⟨tty, htty, heq⟩ := Option.map_eq_some_iff.mp hrun
  cases heq
  refine ⟨hk.1, fun tty' htty' => ?_⟩
  rw [put_tty_apply] at htty'
  split_ifs at htty' with hx
  · cases htty'
    exact hf tty (hk.2 tty (hx ▸ htty))
  · exact hk.2 tty' htty'

theorem leaving_free (x : Nat) : Retains (Leaving t) (freeTtyStruct x) := by
  refine ⟨fun k a k' hk hrun => ?_⟩
  obtain ⟨tty, htty, heq⟩ := Option.map_eq_some_iff.mp hrun
  cases heq
  refine ⟨hk.1, fun tty' htty' => ?_⟩
  rw [put_tty_apply] at htty'
  split_ifs at htty'
  exact hk.2 tty' htty'

/-- What `kfree` leaves alone. -/
theorem kfree_eq {b : Option Nat} {u : Unit} (h : (kfree b).run k = some (u, k')) :
    k' = { k with blocks := k'.blocks } := by
  cases b with
  | none =>
    cases h
    rfl
  | some b =>
    change (if k.blocks b then _ else none) = _ at h
    split_ifs at h
    cases h
    rfl

theorem leaving_kfree (b : Option Nat) : Retains (Leaving t) (kfree b) := by
  refine ⟨fun k a k' hk hrun => ?_⟩
  rw [kfree_eq hrun]
  exact hk

theorem kept_leaving (S : Drivers) (t : Nat) : Kept S (Leaving t) where
  store _ _ hf := leaving_store hf
  alloc := by
    refine fun ok d idx => ⟨fun k a k' hk hrun => ?_⟩
    rw [allocTtyStruct_run] at hrun
    split_ifs at hrun
    · cases hrun
      refine ⟨Nat.lt_succ_of_lt hk.1, fun tty htty => hk.2 tty ?_⟩
      rw [← htty]
      exact (put_tty_of_ne (Nat.ne_of_lt hk.1) ..).symm
    · cases hrun
      exact hk
  malloc := by
    refine fun ok slot => ⟨fun k a k' hk hrun => ?_⟩
    rw [mallocUnless_run] at hrun
    split_ifs at hrun <;> cases hrun <;> exact hk
  free := leaving_free
  kfree := leaving_kfree
  modules _ hk := hk
  setFile _ _ hk := hk
  setReleasing _ hk := hk
  install _ _ _ _ _ :=
    retains_bind (retains_modify fun _ hk => hk) fun _ =>
      retains_bind (retains_modify fun _ hk => hk) fun _ =>
      retains_bind (retains_modify fun _ hk => hk) fun _ => retains_bind retains_get fun _ =>
      retains_bind (leaving_store fun _ => id) fun _ => retains_modify fun _ hk => hk
  releaseSide x idx := by
    refine retains_bind (retains_load x) fun tty =>
      retains_bind (retains_modify fun _ hk => hk) fun _ => ?_
    have hrest : Retains (Leaving t) (do
        modify fun k =>
          { k with refcount := Function.update k.refcount tty.driver (k.refcount tty.driver - 1) }
        freeTtyStruct x) :=
      retains_bind (retains_modify fun _ hk => hk) fun _ => leaving_free x
    exact retains_ite (retains_bind (retains_modify fun _ hk => hk) fun _ =>
      retains_bind (leaving_kfree _) fun _ => retains_bind (retains_modify fun _ hk => hk) fun _ =>
      retains_bind (leaving_kfree _) fun _ => hrest) hrest

/-! ### Blocks that are not kept -/

/-- A driver that asks for it has no blocks for a line that is not open. -/
def Swept (S : Drivers) (k : Kernel) : Prop :=
  ∀ locked slot, (S.drv slot.1).resetTermios = true → k.ttys slot = none →
    k.termios (locked, slot) = none

theorem Swept.installed {d idx : Nat} {tp ltp : Option Nat} (h : Swept S k) :
    Swept S (k.installed d idx t tp ltp tty) := by
  intro locked slot hreset hnone
  change Function.update k.ttys (d, idx) (some t) slot = none at hnone
  change filled k.termios d idx tp ltp (locked, slot) = none
  by_cases hslot : slot = (d, idx)
  · rw [hslot, Function.update_self] at hnone
    cases hnone
  · rw [Function.update_of_ne hslot] at hnone
    rw [filled, fill_of_ne _ fun heq => hslot (Prod.mk.inj heq).2,
      fill_of_ne _ fun heq => hslot (Prod.mk.inj heq).2]
    exact h locked slot hreset hnone

/-- What `releaseSide` does with the tables. -/
theorem releaseSide_tables {idx : Nat} {u : Unit}
    (h : (releaseSide S t idx).run k = some (u, k')) : ∃ d,
      k'.ttys = Function.update k.ttys (d, idx) none ∧
      k'.termios = if (S.drv d).resetTermios then
        Function.update (Function.update k.termios (false, d, idx) none) (true, d, idx) none
      else k.termios := by
  have hrest {d : Nat} {k₁ : Kernel} (hrun : (do
      modify fun k => { k with refcount := Function.update k.refcount d (k.refcount d - 1) }
      freeTtyStruct t : K Unit).run k₁ = some (u, k')) :
      k'.ttys = k₁.ttys ∧ k'.termios = k₁.termios := by
    rw [bind_run (modify_run ..)] at hrun
    obtain ⟨_, _, heq⟩ := Option.map_eq_some_iff.mp hrun
    cases heq
    exact ⟨rfl, rfl⟩
  rw [releaseSide, StateT.run_bind] at h
  obtain ⟨⟨tty, k₁⟩, hload, h⟩ := Option.bind_eq_some_iff.mp h
  obtain ⟨_, _, heq⟩ := Option.map_eq_some_iff.mp hload
  cases heq
  rw [bind_run (modify_run ..)] at h
  refine ⟨tty.driver, ?_⟩
  split_ifs at h with hreset
  · rw [if_pos hreset]
    rw [bind_run (modify_run ..), StateT.run_bind] at h
    obtain ⟨⟨_, k₂⟩, hfree, h⟩ := Option.bind_eq_some_iff.mp h
    have hk₂ := kfree_eq hfree
    rw [bind_run (modify_run ..), StateT.run_bind] at h
    obtain ⟨⟨_, k₃⟩, hfree', h⟩ := Option.bind_eq_some_iff.mp h
    have hk₃ := kfree_eq hfree'
    obtain ⟨httys, htermios⟩ := hrest h
    rw [httys, htermios, hk₃, hk₂]
    exact ⟨rfl, rfl⟩
  · rw [if_neg hreset]
    exact hrest h

theorem kept_swept (S : Drivers) : Kept S (Swept S) where
  store _ _ _ := by
    refine ⟨fun k a k' hk hrun => ?_⟩
    obtain ⟨tty, _, heq⟩ := Option.map_eq_some_iff.mp hrun
    cases heq
    exact hk
  alloc := by
    refine fun ok d idx => ⟨fun k a k' hk hrun => ?_⟩
    rw [allocTtyStruct_run] at hrun
    split_ifs at hrun <;> cases hrun <;> exact hk
  malloc := by
    refine fun ok slot => ⟨fun k a k' hk hrun => ?_⟩
    rw [mallocUnless_run] at hrun
    split_ifs at hrun <;> cases hrun <;> exact hk
  free _ := by
    refine ⟨fun k a k' hk hrun => ?_⟩
    obtain ⟨tty, _, heq⟩ := Option.map_eq_some_iff.mp hrun
    cases heq
    exact hk
  kfree _ := by
    refine ⟨fun k a k' hk hrun => ?_⟩
    rw [kfree_eq hrun]
    exact hk
  modules _ hk := hk
  setFile _ _ hk := hk
  setReleasing _ hk := hk
  install d idx t tp ltp := by
    refine ⟨fun k a k' hk hrun => ?_⟩
    cases htty : k.tty t with
    | some tty =>
      rw [install_run htty] at hrun
      cases hrun
      exact hk.installed
    | none =>
      rw [install, bind_run (modify_run ..), bind_run (modify_run ..), bind_run (modify_run ..),
        bind_run (get_run _), StateT.run_bind] at hrun
      obtain ⟨_, hstore, _⟩ := Option.bind_eq_some_iff.mp hrun
      obtain ⟨tty, hsome, _⟩ := Option.map_eq_some_iff.mp hstore
      cases htty.symm.trans hsome
  releaseSide t idx := by
    refine ⟨fun k a k' hk hrun locked slot hreset hnone => ?_⟩
    obtain ⟨d, httys, htermios⟩ := releaseSide_tables hrun
    rw [httys] at hnone
    rw [htermios]
    by_cases hslot : slot = (d, idx)
    · subst hslot
      rw [if_pos hreset]
      cases locked with
      | true => exact Function.update_self ..
      | false => rw [Function.update_of_ne (by simp), Function.update_self]
    · rw [Function.update_of_ne hslot] at hnone
      have hold := hk locked slot hreset hnone
      split_ifs
      · rw [Function.update_of_ne fun heq => hslot (Prod.mk.inj heq).2,
          Function.update_of_ne fun heq => hslot (Prod.mk.inj heq).2]
        exact hold
      · exact hold

/-! ### Runs -/

/-- The count that `check_tty_count` looks for. -/
theorem Ok.check (h : Ok S k) (htty : k.tty t = some tty) : checkTtyCount S k tty = 0 := by
  have hcount := (h.ttyOk htty).count
  rw [checkTtyCount]
  refine if_neg (not_not.mpr (hcount.trans ?_))
  cases hlink : tty.link with
  | none =>
    rw [held, hlink, Option.bind_none]
    simp
  | some o =>
    obtain ⟨oTty, hoTty, hd, _, _, hback, _⟩ := h.link htty hlink
    rw [held_link hlink hoTty, Option.bind_some, hoTty]
    by_cases hslave : (S.drv tty.driver).pty = some .slave
    · have hmaster : (S.drv oTty.driver).pty = some .master :=
        (S.master_slave (S.other_other hd)).mpr hslave
      have hplain : held S k oTty = 0 := held_plain (by rw [hmaster]; decide)
      have hsingle := (h.ttyOk hoTty).single hmaster
      have hother := (h.ttyOk hoTty).count
      rw [hplain] at hother
      rw [if_pos hslave]
      by_cases hzero : oTty.ttyFiles.length = 0
      · simp [hslave, hother, hzero]
      · have hone : oTty.ttyFiles.length = 1 := by omega
        simp [hslave, hother, hone]
    · simp [hslave]

/-- All that a first open asks for is there. -/
def allThere : Outcome := ⟨true, true, true, true, true, true, true, none, none⟩

/-- A serial line and both sides of a pseudo terminal are opened, the serial line a second time,
and the slave and the line are closed. -/
def inUse : List Act :=
  [.open 0 3 0 allThere, .open 1 0 1 allThere, .open 2 0 2 allThere, .open 0 3 3 allThere,
    .close 2, .close 0]

/-- Then the others are closed, too, and the last closes go on: the line is the struct 0, the
master 1. -/
def closedAll : List Act := inUse ++ [.close 1, .close 3, .final 1, .final 0]

/-- **Opens and closes do not fault**: however they follow each other, an open file has a struct in
its place that is not on its way out, a struct is there as long as it is used, and every file can be
closed. -/
theorem opens_and_closes (S : Drivers) (acts : List Act) :
    ∃ k, (acts.forM (step S)).run Kernel.boot = some (⟨⟩, k) ∧
      (∀ filp t, k.privateData filp = some t →
        ∃ tty, k.tty t = some tty ∧ filp ∈ tty.ttyFiles ∧ tty.closing = false) ∧
      (∀ t tty, k.tty t = some tty →
        k.ttys (tty.driver, tty.index) = some t ∧ InUse k t tty) ∧
      ∀ filp, ∃ k', (step S (.close filp)).run k = some (⟨⟩, k') ∧ k'.privateData filp = none := by
  obtain ⟨k, hrun, h⟩ := run_ok S acts
  refine ⟨k, hrun, fun filp t hfile => ?_, fun t tty htty => ?_, fun filp => ?_⟩
  · obtain ⟨tty, htty, hmem⟩ := h.file hfile
    exact ⟨tty, htty, hmem, Bool.eq_false_iff.mpr ((h.ttyOk htty).not_closing hmem)⟩
  · exact ⟨h.seats.seated htty List.not_mem_nil, (h.ttyOk htty).inUse⟩
  · change ∃ k', (releaseDev S filp).run k = some (⟨⟩, k') ∧ k'.privateData filp = none
    cases hfile : k.privateData filp with
    | none =>
      rw [releaseDev, bind_run (get_run k), hfile]
      exact ⟨k, rfl, hfile⟩
    | some t =>
      obtain ⟨tty, htty, _⟩ := h.file hfile
      exact ⟨_, releaseDev_run h hfile htty, Function.update_self ..⟩

theorem opens_and_closes_pty :
    ∃ k, (inUse.forM (step serialAndPty)).run Kernel.boot = some (⟨⟩, k) ∧
      (∃ tty, k.tty 0 = some tty ∧ 3 ∈ tty.ttyFiles ∧ tty.closing = false) ∧
      ∃ tty, k.tty 1 = some tty ∧ 1 ∈ tty.ttyFiles ∧ tty.closing = false := by
  obtain ⟨k, hrun, hfiles, -⟩ := opens_and_closes serialAndPty inUse
  have hopen : ((inUse.forM (step serialAndPty)).run Kernel.boot).map (fun r =>
      (r.2.privateData 3, r.2.privateData 1)) = some (some 0, some 1) := by decide +kernel
  rw [hrun, Option.map_some, Option.some.injEq, Prod.mk.injEq] at hopen
  exact ⟨k, hrun, hfiles 3 0 hopen.1, hfiles 1 1 hopen.2⟩

/-- **The counts agree with what they count**: `check_tty_count` and the checks of `release_dev`
find nothing, a driver counts its open lines and a module those of its drivers, and a block is
allocated exactly if it is in a table. -/
theorem counts_and_tables (S : Drivers) (acts : List Act) :
    ∃ k, (acts.forM (step S)).run Kernel.boot = some (⟨⟩, k) ∧
      (∀ t tty, k.tty t = some tty → checkTtyCount S k tty = 0 ∧ 0 ≤ tty.count ∧
        (paranoid S t tty).run k = some (false, k)) ∧
      (∀ d, k.refcount d = occupied k.ttys d (S.drv d).num) ∧
      (∀ owner, k.modules owner = linesOf S k.refcount owner) ∧
      ∀ b, k.blocks b = true ↔ ∃ slot, k.termios slot = some b := by
  obtain ⟨k, hrun, h⟩ := run_ok S acts
  refine ⟨k, hrun, fun t tty htty => ⟨h.check htty, ?_, paranoid_run h htty⟩, h.seats.refcount,
    fun owner => ?_, fun b => ?_⟩
  · rw [(h.ttyOk htty).count]
    omega
  · rw [h.modules, add_zero]
  · rw [h.blocks.blocks, or_iff_left List.not_mem_nil]

theorem counts_and_tables_pty :
    ∃ k, (inUse.forM (step serialAndPty)).run Kernel.boot = some (⟨⟩, k) ∧
      k.refcount 0 = 1 ∧ k.refcount 1 = 1 ∧ k.refcount 2 = 1 ∧
      occupied k.ttys 0 64 = 1 ∧ occupied k.ttys 2 256 = 1 := by
  obtain ⟨k, hrun, -, hrefcount, -⟩ := counts_and_tables serialAndPty inUse
  have hcounts : ((inUse.forM (step serialAndPty)).run Kernel.boot).map (fun r =>
      (r.2.refcount 0, r.2.refcount 1, r.2.refcount 2)) = some (1, 1, 1) := by decide +kernel
  rw [hrun, Option.map_some, Option.some.injEq, Prod.mk.injEq, Prod.mk.injEq] at hcounts
  obtain ⟨hline, hmaster, hslave⟩ := hcounts
  exact ⟨k, hrun, hline, hmaster, hslave, Int.ofNat_inj.mp ((hrefcount 0).symm.trans hline),
    Int.ofNat_inj.mp ((hrefcount 2).symm.trans hslave)⟩

/-- **When no file is left nothing is**: the structs are freed, no line is taken, the counts are
zero, and the blocks that are left are those that a driver keeps. -/
theorem nothing_left (S : Drivers) (acts : List Act) :
    ∃ k, (acts.forM (step S)).run Kernel.boot = some (⟨⟩, k) ∧
      ((∀ filp, k.privateData filp = none) → k.releasing = [] →
        (∀ t, k.tty t = none) ∧ (∀ slot, k.ttys slot = none) ∧ (∀ d, k.refcount d = 0) ∧
        (∀ owner, k.modules owner = 0) ∧
        ∀ b, k.blocks b = true →
          ∃ slot, k.termios slot = some b ∧ (S.drv slot.2.1).resetTermios = false) := by
  obtain ⟨k, hrun, h⟩ := run_ok S acts
  have hswept : Swept S k :=
    (retains_run (kept_swept S).step acts).of_run _ _ _ (fun _ _ _ _ => rfl) hrun
  refine ⟨k, hrun, fun hfiles hreleasing => ?_⟩
  have hunused {t : Nat} {tty : TtyStruct} (htty : k.tty t = some tty) : tty.ttyFiles = [] := by
    refine List.eq_nil_iff_forall_not_mem.mpr fun filp hmem => ?_
    have hfile := h.conduct.file.mpr ⟨tty, htty, hmem⟩
    rw [hfiles] at hfile
    cases hfile
  have hgone (t : Nat) : k.tty t = none := by
    cases htty : k.tty t with
    | none => rfl
    | some tty =>
      rcases (h.ttyOk htty).inUse with huse | huse | ⟨o, _, huse | ⟨oTty, hoTty, huse⟩⟩
      · exact absurd (hunused htty) huse
      · rw [hreleasing] at huse
        exact absurd huse List.not_mem_nil
      · rw [hreleasing] at huse
        exact absurd huse List.not_mem_nil
      · exact absurd (hunused hoTty) huse
  have hfree (slot : Nat × Nat) : k.ttys slot = none := by
    cases hslot : k.ttys slot with
    | none => rfl
    | some t =>
      obtain ⟨tty, htty, _⟩ := h.seats.seat hslot
      rw [hgone] at htty
      cases htty
  have hzero (d : Nat) : k.refcount d = 0 := by
    rw [h.seats.refcount, occupied, Finset.card_eq_zero.mpr]
    · rfl
    · rw [Finset.filter_eq_empty_iff]
      intro i _
      rw [hfree]
      exact Bool.false_ne_true
  refine ⟨hgone, hfree, hzero, fun owner => ?_, fun b hb => ?_⟩
  · rw [h.modules, add_zero]
    exact Finset.sum_eq_zero fun d _ => hzero d
  · obtain ⟨⟨locked, slot⟩, hslot⟩ := ((h.blocks.blocks b).mp hb).resolve_right List.not_mem_nil
    refine ⟨_, hslot, Bool.eq_false_iff.mpr fun hreset => ?_⟩
    rw [hswept locked slot hreset (hfree slot)] at hslot
    cases hslot

theorem nothing_left_pty :
    ∃ k, (closedAll.forM (step serialAndPty)).run Kernel.boot = some (⟨⟩, k) ∧
      (∀ t, k.tty t = none) ∧ k.refcount 0 = 0 ∧ k.modules 1 = 0 ∧
      ∀ b, k.blocks b = true → ∃ slot, k.termios slot = some b ∧
        (serialAndPty.drv slot.2.1).resetTermios = false := by
  obtain ⟨k, hrun, hleft⟩ := nothing_left serialAndPty closedAll
  obtain ⟨k', hrun', h⟩ := run_ok serialAndPty closedAll
  obtain rfl : k' = k := by
    rw [hrun] at hrun'
    exact (congrArg Prod.snd (Option.some.inj hrun')).symm
  have hend : ((closedAll.forM (step serialAndPty)).run Kernel.boot).map (fun r =>
      (r.2.releasing, r.2.nextTty, (List.range 3).all fun t => (r.2.tty t).isNone)) =
        some ([], 3, true) := by decide +kernel
  rw [hrun, Option.map_some, Option.some.injEq, Prod.mk.injEq, Prod.mk.injEq] at hend
  obtain ⟨hreleasing, hnext, hgone⟩ := hend
  -- the three structs that there have been are freed
  have hfiles (filp : Nat) : k'.privateData filp = none := by
    cases hfile : k'.privateData filp with
    | none => rfl
    | some t =>
      obtain ⟨tty, htty, -⟩ := h.file hfile
      rcases Nat.lt_or_ge t 3 with hlt | hge
      · have hnone := List.all_eq_true.mp hgone t (List.mem_range.mpr hlt)
        rw [htty] at hnone
        exact Bool.noConfusion hnone
      · rw [h.seats.fresh (hnext ▸ hge)] at htty
        cases htty
  obtain ⟨htty, -, hrefcount, hmodules, hblocks⟩ := hleft hfiles hreleasing
  exact ⟨k', hrun, htty, hrefcount 0, hmodules 1, hblocks⟩

/-- **A struct on its way out stays so**: whatever follows, no file gets it any more, and while it
is in its place an open of the line answers `EIO` and changes nothing. -/
theorem closing_stays (S : Drivers) (acts acts' : List Act) :
    ∃ k k', (acts.forM (step S)).run Kernel.boot = some (⟨⟩, k) ∧
      (acts'.forM (step S)).run k = some (⟨⟩, k') ∧
      ∀ t tty, k.tty t = some tty → tty.closing = true →
        (∀ filp, k'.privateData filp ≠ some t) ∧
        ∀ d idx o, k'.ttys (d, idx) = some t →
          (initDev S d idx o).run k' = some (.error EIO, k') := by
  obtain ⟨k, hrun, h⟩ := run_ok S acts
  obtain ⟨k', hrun', h'⟩ := exists_run step_meets acts' h
  refine ⟨k, k', hrun, hrun', fun t tty htty hclosing => ?_⟩
  have hlt : t < k.nextTty := by
    by_contra hle
    rw [h.seats.fresh (Nat.le_of_not_lt hle)] at htty
    cases htty
  have hleaving : Leaving t k' :=
    (retains_run (kept_leaving S t).step acts').of_run _ _ _
      ⟨hlt, fun tty' htty' => by rwa [Option.some.inj (htty'.symm.trans htty)]⟩ hrun'
  refine ⟨fun filp hfile => ?_, fun d idx o hslot => ?_⟩
  · obtain ⟨tty', htty', hmem⟩ := h'.file hfile
    exact (h'.ttyOk htty').not_closing hmem (hleaving.2 tty' htty')
  · obtain ⟨tty', htty', hdi⟩ := h'.seats.seat hslot
    obtain ⟨rfl, rfl⟩ := Prod.mk.inj hdi
    rw [initDev, bind_run (get_run k'), hslot]
    refine (fastTrack_run h' htty').trans (if_pos ?_)
    rw [refuses, hleaving.2 tty' htty']
    rfl

/-- The master is closed, too. -/
def masterClosed : List Act := inUse ++ [.close 1]

/-- It is opened again while it is on its way out, and the serial line is closed. -/
def afterClose : List Act := [.open 1 0 4 allThere, .close 3]

theorem closing_stays_pty :
    ∃ k k', (masterClosed.forM (step serialAndPty)).run Kernel.boot = some (⟨⟩, k) ∧
      (afterClose.forM (step serialAndPty)).run k = some (⟨⟩, k') ∧
      (∀ filp, k'.privateData filp ≠ some 1) ∧
      (initDev serialAndPty 1 0 allThere).run k' = some (.error EIO, k') := by
  obtain ⟨k, k', hrun, hrun', hstays⟩ := closing_stays serialAndPty masterClosed afterClose
  have hclosing : ((masterClosed.forM (step serialAndPty)).run Kernel.boot).bind
      (fun r => (r.2.tty 1).map TtyStruct.closing) = some true := by decide +kernel
  have hslot : ((masterClosed.forM (step serialAndPty)).run Kernel.boot).bind
      (fun r => ((afterClose.forM (step serialAndPty)).run r.2).map fun r => r.2.ttys (1, 0)) =
        some (some 1) := by decide +kernel
  rw [hrun, Option.bind_some] at hclosing hslot
  rw [hrun', Option.map_some, Option.some.injEq] at hslot
  obtain ⟨tty, htty, hclosing⟩ := Option.map_eq_some_iff.mp hclosing
  obtain ⟨hfiles, hopens⟩ := hstays 1 tty htty hclosing
  exact ⟨k, k', hrun, hrun', hfiles, hopens 1 0 allThere hslot⟩

end LinuxConsole.Tty

import LinuxConsole.Tty.Remove
import LinuxConsole.Tty.Reopen

/-!
# The first open of a line

`Making` is the state between the allocations of `init_dev`: what has been made stands beside the
tables, and all else is as it was.  Where one of them fails all is freed again (`freeMemOut_run`);
where none does the structs are installed, and they wait for the file that opens the line, or the
line discipline does not open and `release_mem` clears the slot (`firstOpen_meets`).
-/

namespace LinuxConsole.Tty

open Lib

variable {S : Drivers} {k₀ k : Kernel} {d idx t : Nat} {tty : TtyStruct}

/-- The struct that `alloc_tty_struct` makes. -/
def blank (d idx : Nat) : TtyStruct := ⟨d, idx, 0, false, none, fun _ => none, []⟩

/-- The reference of a line to its module. -/
def oneRef (S : Drivers) (d owner : Nat) : Int := if (S.drv d).owner = owner then 1 else 0

/-- **What `init_dev` returns and leaves**: all is in order, or a struct waits for its file. -/
def Answered (S : Drivers) (k₀ : Kernel) : Except Int Nat → Kernel → Prop
  | .error _, k => Ok S k
  | .ok t, k => k.privateData = k₀.privateData ∧ Opened S k t

/-- **What has been made stands beside the tables.** -/
structure Making (S : Drivers) (k₀ : Kernel) (more : Nat → Int) (made : List (Nat × TtyStruct))
    (B : List Nat) (k : Kernel) : Prop where
  seats : Seats S k (made.map Prod.fst)
  blocks : Blocks k (made.map Prod.fst) B
  modules : Modules S k more
  there : ∀ p ∈ made, k.tty p.1 = some p.2 ∧ k₀.tty p.1 = none
  old : ∀ {x}, x ∉ made.map Prod.fst → k.tty x = k₀.tty x
  ttys : k.ttys = k₀.ttys
  termios : k.termios = k₀.termios
  privateData : k.privateData = k₀.privateData
  releasing : k.releasing = k₀.releasing

variable {more : Nat → Int} {made : List (Nat × TtyStruct)} {B : List Nat}

/-! ### The allocations -/

theorem allocTtyStruct_meets (ok : Bool) (d idx : Nat) :
    Meets (Making S k₀ more made B) (allocTtyStruct ok d idx) fun p k =>
      p.elim (Making S k₀ more made B k) fun t => Making S k₀ more ((t, blank d idx) :: made) B k := by
  intro k h
  rw [allocTtyStruct_run]
  cases ok with
  | false => exact ⟨none, k, rfl, h⟩
  | true =>
    have hfresh := h.seats.fresh (Nat.le_refl k.nextTty)
    have hnew : k.nextTty ∉ made.map Prod.fst := by
      intro hmem
      have hsome := (h.seats.unseated hmem).1
      rw [hfresh] at hsome
      exact Bool.noConfusion hsome
    refine ⟨_, _, if_pos rfl, h.seats.alloc _, h.blocks.alloc _, h.modules, ?_, ?_, h.ttys,
      h.termios, h.privateData, h.releasing⟩
    · intro p hp
      rcases List.mem_cons.mp hp with rfl | hp
      · exact ⟨put_tty_self .., (h.old hnew).symm.trans hfresh⟩
      · refine ⟨(put_tty_of_ne ?_ ..).trans (h.there p hp).1, (h.there p hp).2⟩
        rintro heq
        exact hnew (heq ▸ List.mem_map_of_mem hp)
    · intro x hx
      rw [List.map_cons, List.mem_cons, not_or] at hx
      exact (put_tty_of_ne hx.1 ..).trans (h.old hx.2)

theorem mallocUnless_meets (ok : Bool) (slot : Bool × Nat × Nat) :
    Meets (Making S k₀ more made B) (mallocUnless ok slot) fun p k =>
      p.elim (Making S k₀ more made B k) fun b =>
        Making S k₀ more made (b.toList ++ B) k ∧ (b.isSome ↔ k₀.termios slot = none) := by
  intro k h
  rw [mallocUnless_run]
  by_cases hsome : (k.termios slot).isSome
  · refine ⟨_, _, if_pos hsome, h, ?_⟩
    rw [← h.termios]
    refine ⟨fun hfalse => Bool.noConfusion hfalse, fun hnone => ?_⟩
    rw [hnone] at hsome
    exact Bool.noConfusion hsome
  · rw [if_neg hsome]
    cases ok with
    | false => exact ⟨none, k, rfl, h⟩
    | true =>
      refine ⟨_, _, if_pos rfl, ⟨⟨h.seats.nodup, h.seats.unseated, h.seats.seat, h.seats.seated,
        h.seats.inRange, h.seats.fresh, h.seats.refcount⟩, h.blocks.kmalloc, h.modules, h.there,
        h.old, h.ttys, h.termios, h.privateData, h.releasing⟩, ?_⟩
      rw [← h.termios, ← Option.not_isSome_iff_eq_none]
      exact ⟨fun _ => hsome, fun _ => rfl⟩

/-! ### The failures -/

theorem kfree_meets (b : Option Nat) :
    Meets (Making S k₀ more made (b.toList ++ B)) (kfree b) fun _ => Making S k₀ more made B := by
  intro k h
  cases b with
  | none => exact ⟨⟨⟩, k, rfl, h⟩
  | some b =>
    have hblock : k.blocks b = true := (h.blocks.blocks b).mpr (.inr List.mem_cons_self)
    exact ⟨⟨⟩, _, kfree_run hblock, ⟨h.seats.nodup, h.seats.unseated, h.seats.seat, h.seats.seated,
      h.seats.inRange, h.seats.fresh, h.seats.refcount⟩, h.blocks.kfree_spare, h.modules, h.there,
      h.old, h.ttys, h.termios, h.privateData, h.releasing⟩

theorem freeTtyStruct_meets (t : Nat) (tty : TtyStruct) :
    Meets (Making S k₀ more ((t, tty) :: made) B) (freeTtyStruct t) fun _ =>
      Making S k₀ more made B := by
  intro k h
  obtain ⟨htty, hold⟩ := h.there _ List.mem_cons_self
  have hnodup := h.seats.nodup
  rw [List.map_cons, List.nodup_cons] at hnodup
  refine ⟨⟨⟩, _, freeTtyStruct_run htty, h.seats.free_spare, h.blocks.free_tty, h.modules, ?_, ?_,
    h.ttys, h.termios, h.privateData, h.releasing⟩
  · intro p hp
    obtain ⟨hp', hp₀⟩ := h.there p (List.mem_cons_of_mem _ hp)
    refine ⟨(put_tty_of_ne ?_ ..).trans hp', hp₀⟩
    intro heq
    have hmem := List.mem_map_of_mem (f := Prod.fst) hp
    rw [heq] at hmem
    exact hnodup.1 hmem
  · intro x hx
    rw [put_tty_apply]
    split_ifs with hxt
    · rw [hxt]
      exact hold.symm
    · refine h.old ?_
      rw [List.map_cons, List.mem_cons, not_or]
      exact ⟨hxt, hx⟩

/-- **All is as it was.** -/
theorem Making.ok (h₀ : Ok S k₀) (h : Making S k₀ (fun _ => 0) [] [] k) : Ok S k := by
  have htty : k.tty = k₀.tty := funext fun _ => h.old List.not_mem_nil
  refine ⟨h.seats, h.blocks, h.modules, ⟨?_, ?_, ?_, ?_⟩⟩
  · intro x y hy _
    rw [htty] at hy
    have hok := h₀.ttyOk hy
    refine ⟨?_, hok.paired, ?_, hok.single, hok.nodup, hok.closing, ?_⟩
    · rw [h.ttys]
      exact hok.link
    · rw [held, htty]
      exact hok.count
    · rw [InUse, htty, h.releasing]
      exact hok.inUse
  · rw [h.privateData, htty]
    exact h₀.conduct.file
  · rw [h.releasing, htty]
    exact h₀.conduct.releasing
  · rw [h.releasing]
    exact h₀.conduct.once

theorem failNoMem_meets (h₀ : Ok S k₀) (d : Nat) :
    Meets (Making S k₀ (oneRef S d) [] []) (failNoMem S d) (Answered S k₀) := by
  intro k h
  exact ⟨_, _, rfl, Making.ok h₀ ⟨⟨h.seats.nodup, h.seats.unseated, h.seats.seat, h.seats.seated,
    h.seats.inRange, h.seats.fresh, h.seats.refcount⟩, h.blocks.congr rfl rfl rfl rfl,
    h.modules.put fun _ => rfl, h.there, h.old, h.ttys, h.termios, h.privateData, h.releasing⟩⟩

/-- **What has been made is freed.** -/
theorem freeMemOut_meets (h₀ : Ok S k₀) (d t : Nat) (tty oTty' : TtyStruct)
    (tp ltp oTty oTp : Option Nat) :
    Meets (Making S k₀ (oneRef S d)
        ((oTty.toList.map fun o => (o, oTty')) ++ [(t, tty)])
        (oTp.toList ++ (ltp.toList ++ (tp.toList ++ []))))
      (freeMemOut S d t tp ltp oTty oTp) (Answered S k₀) := by
  have hrest : Meets (Making S k₀ (oneRef S d) [(t, tty)] (ltp.toList ++ (tp.toList ++ [])))
      (do
        kfree ltp
        kfree tp
        freeTtyStruct t
        failNoMem S d) (Answered S k₀) :=
    meets_bind (kfree_meets ltp) fun _ => meets_bind (kfree_meets tp) fun _ =>
      meets_bind (freeTtyStruct_meets t tty) fun _ => failNoMem_meets h₀ d
  rw [freeMemOut]
  refine meets_bind (kfree_meets oTp) fun _ => ?_
  cases oTty with
  | none => exact hrest
  | some o => exact meets_bind (freeTtyStruct_meets o oTty') fun _ => hrest

/-! ### A line that has been installed -/

/-- **The structs of a line are new and wait for a file.** -/
structure Installed (S : Drivers) (k₀ k : Kernel) (t : Nat) (tty : TtyStruct)
    (other : Option (Nat × TtyStruct)) : Prop where
  seats : Seats S k []
  blocks : Blocks k [] []
  modules : Modules S k fun _ => 0
  here : k.tty t = some tty ∧ k₀.tty t = none
  side : OtherSide S k t tty other
  there : ∀ p, other = some p → k₀.tty p.1 = none ∧ p.2.link = some t
  old : ∀ {x}, x ≠ t → tty.link ≠ some x → k.tty x = k₀.tty x
  ttys : ∀ {slot}, ¬Mates S slot tty.slot → k.ttys slot = k₀.ttys slot
  privateData : k.privateData = k₀.privateData
  releasing : k.releasing = k₀.releasing
  use : tty.count = 1 ∧ tty.closing = false ∧ tty.ttyFiles = []
  otherUse : ∀ p, other = some p → p.2.count = (if S.isMaster tty.driver then 1 else 0) ∧
    p.2.closing = false ∧ p.2.ttyFiles = []

variable {other : Option (Nat × TtyStruct)}

theorem Installed.fresh {x : Nat} (h : Installed S k₀ k t tty other)
    (hx : x = t ∨ tty.link = some x) : k₀.tty x = none := by
  rcases hx with rfl | ho
  · exact h.here.2
  · cases hother : other with
    | none =>
      have hside := h.side
      rw [hother] at hside
      rw [hside.1] at ho
      cases ho
    | some p =>
      have hside := h.side
      rw [hother] at hside
      rw [hside.1] at ho
      cases ho
      exact (h.there p hother).1

theorem Installed.old_iff {x : Nat} {y : TtyStruct} (h : Installed S k₀ k t tty other)
    (hy : k₀.tty x = some y) : k.tty x = some y := by
  have hx : ¬(x = t ∨ tty.link = some x) := by
    intro hline
    rw [h.fresh hline] at hy
    cases hy
  rw [not_or] at hx
  exact (h.old hx.1 hx.2).trans hy

theorem Installed.link (h : Installed S k₀ k t tty other) :
    tty.link = (S.drv tty.driver).other.bind (fun d' => k.ttys (d', tty.index)) ∧
      ((S.drv tty.driver).other.isSome → tty.link.isSome) := by
  have hside := h.side
  cases other with
  | none =>
    rw [hside.1, hside.2]
    exact ⟨rfl, id⟩
  | some p =>
    obtain ⟨ho, hoTty, _, hidx, hd⟩ := hside
    rw [ho, hd, Option.bind_some, ← hidx, h.seats.seated hoTty List.not_mem_nil]
    exact ⟨rfl, fun _ => rfl⟩

theorem Installed.mates {x : Nat} {y : TtyStruct} (h : Installed S k₀ k t tty other)
    (hy : k.tty x = some y) : Mates S y.slot tty.slot ↔ x = t ∨ tty.link = some x := by
  constructor
  · rintro ⟨hidx, hd⟩
    have hseat := h.seats.seated hy List.not_mem_nil
    change y.index = tty.index at hidx
    rcases hd with hd | hd
    · left
      have hseat' := h.seats.seated h.here.1 List.not_mem_nil
      change y.driver = tty.driver at hd
      rw [hd, hidx, hseat'] at hseat
      exact (Option.some.inj hseat).symm
    · right
      change (S.drv y.driver).other = some tty.driver at hd
      rw [h.link.1, S.other_other hd, Option.bind_some, ← hidx]
      exact hseat
  · rintro (rfl | ho)
    · rw [h.here.1] at hy
      cases hy
      exact mates_refl _
    · have hside := h.side
      cases other with
      | none =>
        rw [hside.1] at ho
        cases ho
      | some p =>
        obtain ⟨ho', hoTty, _, hidx, hd⟩ := hside
        rw [ho'] at ho
        cases ho
        rw [hoTty] at hy
        cases hy
        exact ⟨hidx, .inr (S.other_other hd)⟩

theorem Installed.apart (h : Installed S k₀ k t tty other) : Apart S k₀ k tty.slot where
  ttys := h.ttys
  tty := by
    intro x y hq
    refine ⟨fun hy => ?_, h.old_iff⟩
    have hx : ¬(x = t ∨ tty.link = some x) := fun hline => hq ((h.mates hy).mpr hline)
    rw [not_or] at hx
    rw [← h.old hx.1 hx.2]
    exact hy
  releasing := fun _ _ => by rw [h.releasing]

/-- The structs of the line have no files. -/
theorem Installed.unused {x : Nat} {y : TtyStruct} (h : Installed S k₀ k t tty other)
    (hy : k.tty x = some y) (hx : x = t ∨ tty.link = some x) : y.ttyFiles = [] := by
  rcases hx with rfl | ho
  · rw [h.here.1] at hy
    cases hy
    exact h.use.2.2
  · have hside := h.side
    cases other with
    | none =>
      rw [hside.1] at ho
      cases ho
    | some p =>
      rw [hside.1] at ho
      cases ho
      rw [hside.2.1] at hy
      cases hy
      exact (h.otherUse p rfl).2.2

/-- **It can be removed again.** -/
theorem Installed.removable (h₀ : Ok S k₀) (h : Installed S k₀ k t tty other) :
    Removable S k t tty where
  here := h.here.1
  seats := h.seats
  blocks := h.blocks
  modules := h.modules
  conduct := by
    refine ⟨?_, ?_, ?_, ?_⟩
    · intro x y hy hq
      have hy₀ := (h.apart.tty (hq _ rfl)).mp hy
      exact h.apart.ttyOk h₀.seats hy₀ (h₀.ttyOk hy₀) (hq _ rfl)
    · intro f x
      rw [h.privateData, h₀.conduct.file]
      constructor
      · rintro ⟨y, hy, hmem⟩
        exact ⟨y, h.old_iff hy, hmem⟩
      · rintro ⟨y, hy, hmem⟩
        by_cases hx : x = t ∨ tty.link = some x
        · rw [h.unused hy hx] at hmem
          exact absurd hmem List.not_mem_nil
        · rw [not_or] at hx
          exact ⟨y, (h.old hx.1 hx.2).symm.trans hy, hmem⟩
    · intro x hx
      rw [h.releasing] at hx ⊢
      obtain ⟨y, hy, hclosing, hlinks⟩ := h₀.conduct.releasing hx
      refine ⟨y, h.old_iff hy, hclosing, fun o ho => ⟨(hlinks o ho).1, fun oTty hoTty => ?_⟩⟩
      obtain ⟨oTty', hoTty', _⟩ := h₀.link hy ho
      rw [h.old_iff hoTty'] at hoTty
      cases hoTty
      exact (hlinks o ho).2 _ hoTty'
    · rw [h.releasing]
      exact h₀.conduct.once
  link := h.link.1
  paired := h.link.2
  unused := by
    intro x y hy hq
    have hx := (h.mates hy).mp hq
    refine ⟨h.unused hy hx, fun hmem => ?_⟩
    rw [h.releasing] at hmem
    obtain ⟨y', hy', _⟩ := h₀.conduct.releasing hmem
    rw [h.fresh hx] at hy'
    cases hy'

/-! ### The file that opens the line -/

section Opened

variable {filp : Nat}

theorem sameSeats_attach (filp : Nat) (htty : k.tty t = some tty) :
    SameSeats k (k.attach filp t tty) := by
  refine ⟨fun x => ?_, rfl, rfl, rfl, rfl, rfl, rfl, rfl⟩
  rw [Kernel.attach, put_tty_apply]
  split_ifs with hx
  · rw [hx, htty]
    rfl
  · rfl

theorem apart_attach (filp : Nat) (htty : k.tty t = some tty) :
    Apart S k (k.attach filp t tty) tty.slot where
  ttys := fun _ => rfl
  tty := by
    intro x y hy
    rw [Kernel.attach, put_tty_apply]
    split_ifs with hx
    · rw [hx, htty]
      constructor
      · intro heq
        cases heq
        exact absurd (mates_refl _) hy
      · intro heq
        cases heq
        exact absurd (mates_refl _) hy
    · rfl
  releasing := fun _ _ => Iff.rfl

theorem Installed.attach_self (h : Installed S k₀ k t tty other) :
    TtyOk S (k.attach filp t tty) t { tty with ttyFiles := filp :: tty.ttyFiles } := by
  obtain ⟨hcount, hclosing, hfiles⟩ := h.use
  have hheld : held S (k.attach filp t tty) tty = 0 := by
    cases other with
    | none =>
      rw [held, h.side.1, Option.bind_none]
      exact ite_self _
    | some p =>
      obtain ⟨ho, hoTty, hne, _⟩ := h.side
      have hother : (k.attach filp t tty).tty p.1 = some p.2 := (put_tty_of_ne hne ..).trans hoTty
      rw [held_link ho hother, (h.otherUse p rfl).2.2]
      exact ite_self _
  rw [hfiles]
  refine ⟨h.link.1, h.link.2, ?_, fun _ => le_rfl, List.nodup_singleton filp, ?_,
    .inl (List.cons_ne_nil _ _)⟩
  · change tty.count = 1 + (held S (k.attach filp t tty) tty : Int)
    rw [hheld, hcount]
    rfl
  · intro htrue
    exact absurd (hclosing.symm.trans htrue) Bool.false_ne_true

theorem Installed.attach_other {p : Nat × TtyStruct} (h : Installed S k₀ k t tty (some p)) :
    TtyOk S (k.attach filp t tty) p.1 p.2 := by
  obtain ⟨hcount, hclosing, hfiles⟩ := h.otherUse p rfl
  obtain ⟨ho, hoTty, hne, hidx, hd⟩ := h.side
  have hback := (h.there p rfl).2
  have hself : (k.attach filp t tty).tty t =
      some { tty with ttyFiles := filp :: tty.ttyFiles } := put_tty_self ..
  refine ⟨?_, ?_, ?_, ?_, ?_, ?_, .inr (.inr ⟨t, hback, .inr ⟨_, hself, List.cons_ne_nil _ _⟩⟩)⟩
  · rw [hback, S.other_other hd, Option.bind_some, hidx]
    exact (h.seats.seated h.here.1 List.not_mem_nil).symm
  · intro _
    rw [hback]
    rfl
  · rw [hcount, hfiles, held_link hback hself, h.use.2.2]
    cases hm : S.isMaster tty.driver with
    | true => rw [if_pos rfl, if_pos ((S.slave_iff hd).1.mpr hm)]; rfl
    | false =>
      rw [if_neg Bool.false_ne_true, if_neg]
      · rfl
      · rw [(S.slave_iff hd).1, hm]
        exact Bool.false_ne_true
  · intro _
    rw [hfiles]
    exact Nat.zero_le 1
  · rw [hfiles]
    exact List.nodup_nil
  · intro htrue
    exact absurd (hclosing.symm.trans htrue) Bool.false_ne_true

/-- **A new line waits for its file.** -/
theorem Installed.opened (h₀ : Ok S k₀) (h : Installed S k₀ k t tty other) : Opened S k t := by
  have hr := h.removable h₀
  refine ⟨tty, h.here.1, fun filp hnew => ?_⟩
  have hsame := sameSeats_attach filp h.here.1
  have hapart := apart_attach (S := S) filp h.here.1
  have hcases {x : Nat} {y : TtyStruct} (hy : (k.attach filp t tty).tty x = some y) :
      x = t ∧ y = { tty with ttyFiles := filp :: tty.ttyFiles } ∨ x ≠ t ∧ k.tty x = some y := by
    rw [Kernel.attach, put_tty_apply] at hy
    split_ifs at hy with hx
    · exact .inl ⟨hx, (Option.some.inj hy).symm⟩
    · exact .inr ⟨hx, hy⟩
  refine ⟨hsame.seats h.seats, hsame.memory h.blocks, h.modules, ⟨?_, ?_, ?_, hr.conduct.once⟩⟩
  · intro x y hy _
    rcases hcases hy with ⟨rfl, rfl⟩ | ⟨hx, hy⟩
    · exact h.attach_self
    · by_cases hq : Mates S y.slot tty.slot
      · have ho := ((h.mates hy).mp hq).resolve_left hx
        cases other with
        | none =>
          rw [h.side.1] at ho
          cases ho
        | some p =>
          rw [h.side.1] at ho
          cases ho
          rw [h.side.2.1] at hy
          cases hy
          exact h.attach_other
      · refine hapart.ttyOk h.seats hy (hr.conduct.each hy fun q heq => ?_) hq
        cases heq
        exact hq
  · intro f x
    change Function.update k.privateData filp (some t) f = some x ↔ _
    by_cases hf : f = filp
    · subst hf
      rw [Function.update_self]
      constructor
      · intro heq
        cases heq
        exact ⟨_, put_tty_self .., List.mem_cons_self⟩
      · rintro ⟨y, hy, hmem⟩
        rcases hcases hy with ⟨rfl, _⟩ | ⟨_, hy⟩
        · rfl
        · rw [hr.conduct.file.mpr ⟨y, hy, hmem⟩] at hnew
          cases hnew
    · rw [Function.update_of_ne hf, hr.conduct.file]
      constructor
      · rintro ⟨y, hy, hmem⟩
        by_cases hx : x = t
        · subst hx
          rw [h.here.1] at hy
          cases hy
          exact ⟨_, put_tty_self .., List.mem_cons_of_mem _ hmem⟩
        · exact ⟨y, (put_tty_of_ne hx ..).trans hy, hmem⟩
      · rintro ⟨y, hy, hmem⟩
        rcases hcases hy with ⟨rfl, rfl⟩ | ⟨_, hy⟩
        · exact ⟨tty, h.here.1, (List.mem_cons.mp hmem).resolve_left hf⟩
        · exact ⟨y, hy, hmem⟩
  · intro x hx
    obtain ⟨y, hy, hclosing, hlinks⟩ := hr.conduct.releasing hx
    have hclosed {o : Nat} {oTty : TtyStruct} (hoTty : (k.attach filp t tty).tty o = some oTty)
        (hold : ∀ oTty, k.tty o = some oTty → oTty.closing = true) : oTty.closing = true := by
      rcases hcases hoTty with ⟨rfl, rfl⟩ | ⟨_, hoTty⟩
      · exact hold tty h.here.1
      · exact hold oTty hoTty
    have hxt : x ≠ t := by
      rintro rfl
      exact (hr.unused h.here.1 (mates_refl _)).2 hx
    exact ⟨y, (put_tty_of_ne hxt ..).trans hy, hclosing, fun o ho =>
      ⟨(hlinks o ho).1, fun oTty hoTty => hclosed hoTty (hlinks o ho).2⟩⟩

end Opened

/-! ### Installing a line -/

/-- **A struct has taken its place.** -/
structure Seated (S : Drivers) (k k' : Kernel) (t : Nat) (tty : TtyStruct) (T B : List Nat) :
    Prop where
  seats : Seats S k' T
  blocks : Blocks k' T B
  structs : k'.tty = Function.update k.tty t (some tty)
  ttys : k'.ttys = Function.update k.ttys tty.slot (some t)
  termios : ∀ {slot}, slot.2 ≠ tty.slot → k'.termios slot = k.termios slot
  refcount : k'.refcount =
    Function.update k.refcount tty.driver (k.refcount tty.driver + 1)
  modules : k'.modules = k.modules
  privateData : k'.privateData = k.privateData
  releasing : k'.releasing = k.releasing

theorem install_seated {T : List Nat} {tp ltp : Option Nat} (tty : TtyStruct)
    (hs : Seats S k (t :: T))
    (hb : Blocks k (t :: T) (ltp.toList ++ (tp.toList ++ B))) (htty : k.tty t = some tty)
    (hd : tty.driver < S.total) (hidx : tty.index < (S.drv tty.driver).num)
    (hfree : k.ttys tty.slot = none)
    (htp : tp.isSome ↔ k.termios (false, tty.slot) = none)
    (hltp : ltp.isSome ↔ k.termios (true, tty.slot) = none) :
    ∃ termios k', (install tty.driver tty.index t tp ltp).run k = some (⟨⟩, k') ∧
      Seated S k k' t { tty with termios := termios } T B := by
  refine ⟨_, _, install_run htty, hs.installed hd hidx hfree htty ⟨rfl, rfl⟩,
    (hb.perm ?_).installed htp hltp ⟨rfl, rfl⟩, rfl, rfl, ?_, rfl, rfl, rfl, rfl⟩
  · exact List.perm_append_comm_assoc ..
  · rintro slot hslot
    change filled k.termios tty.driver tty.index tp ltp slot = _
    rw [filled, fill_of_ne, fill_of_ne]
    · rintro rfl
      exact hslot rfl
    · rintro rfl
      exact hslot rfl

/-- The reference to the module becomes that of the line. -/
theorem Modules.take {k' : Kernel} (h : Modules S k (oneRef S d))
    (hmodules : k'.modules = k.modules)
    (hlines : ∀ owner, linesOf S k'.refcount owner = linesOf S k.refcount owner +
      if (S.drv d).owner = owner then 1 else 0) : Modules S k' fun _ => 0 := by
  intro owner
  rw [hmodules, h owner, hlines, oneRef]
  ring

/-- A line of a driver that has no other side. -/
theorem install_plain {tp ltp : Option Nat} (hd : d < S.total) (hidx : idx < (S.drv d).num)
    (hfree : k₀.ttys (d, idx) = none) (hother : (S.drv d).other = none)
    (htp : tp.isSome ↔ k₀.termios (false, d, idx) = none)
    (hltp : ltp.isSome ↔ k₀.termios (true, d, idx) = none) :
    Meets (Making S k₀ (oneRef S d) [(t, blank d idx)] (ltp.toList ++ (tp.toList ++ [])))
      (do
        install d idx t tp ltp
        store t fun tty => { tty with count := tty.count + 1 })
      fun _ k => ∃ tty, tty.slot = (d, idx) ∧ Installed S k₀ k t tty none := by
  intro k h
  obtain ⟨htty, hnew⟩ := h.there _ List.mem_cons_self
  rw [← h.termios] at htp hltp
  obtain ⟨termios, k', hrun, h'⟩ := install_seated (blank d idx) h.seats h.blocks htty hd hidx
    ((congrFun h.ttys _).trans hfree) htp hltp
  have hself : k'.tty t = some { blank d idx with termios := termios } := by
    rw [h'.structs, Function.update_self]
  refine ⟨⟨⟩, _, (bind_run hrun).trans (store_run hself _), _, rfl,
    h'.seats.store hself ⟨rfl, rfl⟩, h'.blocks.store hself ⟨rfl, rfl⟩ rfl, ?_,
    ⟨put_tty_self .., hnew⟩, ⟨rfl, hother⟩, (fun p hp => by cases hp), ?_, ?_,
    h'.privateData.trans h.privateData, h'.releasing.trans h.releasing, ⟨rfl, rfl, rfl⟩,
    fun p hp => by cases hp⟩
  · refine h.modules.take h'.modules fun owner => ?_
    have hrefcount : k'.refcount = Function.update k.refcount d (k.refcount d + 1) := h'.refcount
    change linesOf S k'.refcount owner = _
    rw [hrefcount, linesOf_update hd, one_mul, counts_plain hother]
  · intro x hx _
    rw [put_tty_of_ne hx, h'.structs, Function.update_of_ne hx]
    exact h.old fun hmem => hx (List.mem_singleton.mp hmem)
  · intro slot hslot
    change k'.ttys slot = _
    rw [h'.ttys, Function.update_of_ne, h.ttys]
    rintro rfl
    exact hslot (mates_refl _)

theorem Ok.free_other {d' : Nat} (h : Ok S k) (hfree : k.ttys (d, idx) = none)
    (hother : (S.drv d).other = some d') : k.ttys (d', idx) = none := by
  cases hslot : k.ttys (d', idx) with
  | none => rfl
  | some o =>
    obtain ⟨oTty, hoTty, hdi⟩ := h.seats.seat hslot
    obtain ⟨hd, hi⟩ := Prod.mk.inj hdi
    have hok := h.ttyOk hoTty
    have hpaired := hok.paired
    rw [hok.link, hd, hi, S.other_other hother, Option.bind_some, hfree] at hpaired
    exact absurd (hpaired rfl) Bool.false_ne_true

/-- The state in which the two sides name each other. -/
def Kernel.linked (k : Kernel) (ptyMaster : Bool) (t o : Nat) (tty oTty : TtyStruct) : Kernel :=
  ((k.put o (some (oTty.otherMore ptyMaster))).put t (some { tty with link := some o })).put o
    (some { oTty.otherMore ptyMaster with link := some t })

section Linked

variable {o : Nat} {oTty : TtyStruct} {T : List Nat}

theorem linked_run (ptyMaster : Bool) (htty : k.tty t = some tty) (hoTty : k.tty o = some oTty)
    (hne : t ≠ o) {α : Type} (f : K α) :
    (do
      storeIf ptyMaster (some o) fun tty => { tty with count := tty.count + 1 }
      store t fun tty => { tty with link := some o }
      store o fun tty => { tty with link := some t }
      f).run k = f.run (k.linked ptyMaster t o tty oTty) := by
  have ht : (k.put o (some (oTty.otherMore ptyMaster))).tty t = some tty :=
    (put_tty_of_ne hne ..).trans htty
  have ho : ((k.put o (some (oTty.otherMore ptyMaster))).put t
      (some { tty with link := some o })).tty o = some (oTty.otherMore ptyMaster) :=
    (put_tty_of_ne hne.symm ..).trans (put_tty_self ..)
  rw [bind_run (storeIf_run (fun _ => rfl) hoTty _)]
  exact (bind_run (store_run ht _)).trans (bind_run (store_run ho _))

theorem linked_tty_self (ptyMaster : Bool) (hne : t ≠ o) :
    (k.linked ptyMaster t o tty oTty).tty t = some { tty with link := some o } :=
  (put_tty_of_ne hne ..).trans (put_tty_self ..)

theorem linked_tty_other (k : Kernel) (ptyMaster : Bool) (t o : Nat) (tty oTty : TtyStruct) :
    (k.linked ptyMaster t o tty oTty).tty o =
      some { oTty.otherMore ptyMaster with link := some t } := put_tty_self ..

theorem linked_tty_of_ne {x : Nat} (ptyMaster : Bool) (hxt : x ≠ t) (hxo : x ≠ o) :
    (k.linked ptyMaster t o tty oTty).tty x = k.tty x :=
  (put_tty_of_ne hxo ..).trans ((put_tty_of_ne hxt ..).trans (put_tty_of_ne hxo ..))

theorem otherMore_line (ptyMaster : Bool) (oTty : TtyStruct) :
    (oTty.otherMore ptyMaster).driver = oTty.driver ∧
      (oTty.otherMore ptyMaster).index = oTty.index ∧
      (oTty.otherMore ptyMaster).termios = oTty.termios := by
  cases ptyMaster <;> exact ⟨rfl, rfl, rfl⟩

theorem Seats.linked (h : Seats S k T) (ptyMaster : Bool) (htty : k.tty t = some tty)
    (hoTty : k.tty o = some oTty) (hne : t ≠ o) :
    Seats S (k.linked ptyMaster t o tty oTty) T := by
  obtain ⟨hd, hi, _⟩ := otherMore_line ptyMaster oTty
  have hother : Seats S (k.put o (some (oTty.otherMore ptyMaster))) T := h.store hoTty ⟨hd, hi⟩
  have hboth : Seats S ((k.put o (some (oTty.otherMore ptyMaster))).put t
      (some { tty with link := some o })) T :=
    hother.store ((put_tty_of_ne hne ..).trans htty) ⟨rfl, rfl⟩
  rw [Kernel.linked]
  exact hboth.store ((put_tty_of_ne hne.symm ..).trans (put_tty_self ..)) ⟨rfl, rfl⟩

theorem Blocks.linked (h : Blocks k T B) (ptyMaster : Bool) (htty : k.tty t = some tty)
    (hoTty : k.tty o = some oTty) (hne : t ≠ o) :
    Blocks (k.linked ptyMaster t o tty oTty) T B := by
  obtain ⟨hd, hi, htermios⟩ := otherMore_line ptyMaster oTty
  have hother : Blocks (k.put o (some (oTty.otherMore ptyMaster))) T B :=
    h.store hoTty ⟨hd, hi⟩ htermios
  have hboth : Blocks ((k.put o (some (oTty.otherMore ptyMaster))).put t
      (some { tty with link := some o })) T B :=
    hother.store ((put_tty_of_ne hne ..).trans htty) ⟨rfl, rfl⟩ rfl
  rw [Kernel.linked]
  exact hboth.store ((put_tty_of_ne hne.symm ..).trans (put_tty_self ..)) ⟨rfl, rfl⟩ rfl

end Linked

/-- **The two sides of a pseudo terminal.** -/
theorem install_pty {d' o : Nat} {tp ltp oTp oLtp : Option Nat} (h₀ : Ok S k₀) (hd : d < S.total)
    (hidx : idx < (S.drv d).num) (hfree : k₀.ttys (d, idx) = none)
    (hother : (S.drv d).other = some d') (htp : tp.isSome ↔ k₀.termios (false, d, idx) = none)
    (hltp : ltp.isSome ↔ k₀.termios (true, d, idx) = none)
    (hoTp : oTp.isSome ↔ k₀.termios (false, d', idx) = none)
    (hoLtp : oLtp.isSome ↔ k₀.termios (true, d', idx) = none) :
    Meets (Making S k₀ (oneRef S d) [(o, blank d' idx), (t, blank d idx)]
        (oLtp.toList ++ (oTp.toList ++ (ltp.toList ++ (tp.toList ++ [])))))
      (do
        install d' idx o oTp oLtp
        storeIf (decide ((S.drv d).pty = some .master)) (some o) fun tty =>
          { tty with count := tty.count + 1 }
        store t fun tty => { tty with link := some o }
        store o fun tty => { tty with link := some t }
        install d idx t tp ltp
        store t fun tty => { tty with count := tty.count + 1 })
      fun _ k => ∃ tty p, tty.slot = (d, idx) ∧ Installed S k₀ k t tty (some p) := by
  intro k h
  obtain ⟨hoTty, hoNew⟩ := h.there (o, blank d' idx) List.mem_cons_self
  obtain ⟨htty, hnew⟩ := h.there (t, blank d idx) (List.mem_cons_of_mem _ List.mem_cons_self)
  have hne : t ≠ o := by
    have hnodup := h.seats.nodup
    rintro rfl
    exact (List.nodup_cons.mp hnodup).1 List.mem_cons_self
  have hdne := S.other_ne hother
  have hoFree := h₀.free_other hfree hother
  rw [← h.termios] at htp hltp hoTp hoLtp
  rw [← h.ttys] at hfree hoFree
  -- the other side is seated
  obtain ⟨oTermios, k₁, hrun₁, h₁⟩ := install_seated (blank d' idx) h.seats h.blocks hoTty
    (S.other_lt hd hother) (hidx.trans_eq (S.num_other hother).symm) hoFree hoTp hoLtp
  have ho₁ : k₁.tty o = some { blank d' idx with termios := oTermios } := by
    rw [h₁.structs, Function.update_self]
  have ht₁ : k₁.tty t = some (blank d idx) := by
    rw [h₁.structs, Function.update_of_ne hne]
    exact htty
  -- they name each other
  have hseats₂ := h₁.seats.linked (S.isMaster d) ht₁ ho₁ hne
  have hblocks₂ := h₁.blocks.linked (S.isMaster d) ht₁ ho₁ hne
  have hfree₂ : k₁.ttys (d, idx) = none := by
    have httys₁ : k₁.ttys = Function.update k.ttys (d', idx) (some o) := h₁.ttys
    rw [httys₁, Function.update_of_ne fun heq => hdne (Prod.mk.inj heq).1.symm]
    exact hfree
  have htermios₂ (locked : Bool) : k₁.termios (locked, d, idx) = k.termios (locked, d, idx) :=
    h₁.termios fun heq => hdne (Prod.mk.inj heq).1.symm
  -- the struct itself is seated
  rw [← htermios₂] at htp hltp
  obtain ⟨termios, k₃, hrun₃, h₃⟩ := install_seated { blank d idx with link := some o }
    hseats₂ hblocks₂ (linked_tty_self _ hne) hd hidx hfree₂ htp hltp
  have ht₃ : k₃.tty t = some { blank d idx with link := some o, termios := termios } := by
    rw [h₃.structs, Function.update_self]
  have ho₃ : k₃.tty o = some { TtyStruct.otherMore (S.isMaster d)
      { blank d' idx with termios := oTermios } with link := some t } := by
    rw [h₃.structs, Function.update_of_ne hne.symm]
    exact linked_tty_other ..
  obtain ⟨hod, hoi, _⟩ := otherMore_line (S.isMaster d) { blank d' idx with termios := oTermios }
  have hstore := store_run ht₃ TtyStruct.more
  refine ⟨⟨⟩, k₃.put t (some (TtyStruct.more
      { blank d idx with link := some o, termios := termios })),
    ((bind_run hrun₁).trans (linked_run (S.isMaster d) ht₁ ho₁ hne _)).trans
      ((bind_run hrun₃).trans hstore), _, (o, _), rfl, h₃.seats.store ht₃ ⟨rfl, rfl⟩,
    h₃.blocks.store ht₃ ⟨rfl, rfl⟩ rfl, ?_,
    ⟨put_tty_self .., hnew⟩, ⟨rfl, (put_tty_of_ne hne.symm ..).trans ho₃, hne.symm, hoi, ?_⟩, ?_, ?_,
    ?_, h₃.privateData.trans (h₁.privateData.trans h.privateData),
    h₃.releasing.trans (h₁.releasing.trans h.releasing), ⟨rfl, rfl, rfl⟩, ?_⟩
  · refine h.modules.take (h₃.modules.trans h₁.modules) fun owner => ?_
    have hrefcount₁ : k₁.refcount = Function.update k.refcount d' (k.refcount d' + 1) :=
      h₁.refcount
    have hrefcount₃ : k₃.refcount = Function.update k₁.refcount d (k₁.refcount d + 1) :=
      h₃.refcount
    change linesOf S k₃.refcount owner = _
    rw [hrefcount₃, linesOf_update hd, hrefcount₁, linesOf_update (S.other_lt hd hother), one_mul,
      one_mul, add_assoc, counts_pty hother]
  · exact hother.trans (congrArg some hod.symm)
  · intro p hp
    cases hp
    exact ⟨hoNew, rfl⟩
  · intro x hxt hxo
    have hxo' : x ≠ o := fun heq => hxo (congrArg some heq.symm)
    rw [put_tty_of_ne hxt, h₃.structs, Function.update_of_ne hxt, linked_tty_of_ne _ hxt hxo',
      h₁.structs, Function.update_of_ne hxo']
    refine h.old ?_
    simp only [List.map_cons, List.map_nil, List.mem_cons, List.not_mem_nil, or_false, not_or]
    exact ⟨hxo', hxt⟩
  · intro slot hslot
    change k₃.ttys slot = _
    rw [h₃.ttys, Function.update_of_ne]
    · change k₁.ttys slot = _
      rw [h₁.ttys, Function.update_of_ne, h.ttys]
      rintro rfl
      exact hslot (mates_other hother idx)
    · rintro rfl
      exact hslot (mates_refl _)
  · intro p hp
    cases hp
    obtain ⟨hfiles, hclosing⟩ := otherMore_files (S.isMaster d)
      { blank d' idx with termios := oTermios }
    refine ⟨?_, hclosing, hfiles⟩
    cases hm : S.isMaster d with
    | true => exact (if_pos hm).symm
    | false => exact (if_neg (Bool.not_eq_true _ ▸ hm)).symm

/-! ### `init_dev` -/

theorem openLdiscs_meets (h₀ : Ok S k₀) (oTty : Option Nat) (o : Outcome) :
    Meets (fun k => ∃ tty other, tty.slot = (d, idx) ∧ Installed S k₀ k t tty other)
      (openLdiscs S t oTty idx o) (Answered S k₀) := by
  rintro k ⟨tty, other, hslot, h⟩
  have hremove (e : Int) : ∃ r k', (do
      releaseMem S t idx
      return .error e : K (Except Int Nat)).run k = some (r, k') ∧ Answered S k₀ r k' := by
    have hr := h.removable h₀
    have hrun := releaseMem_run hr h.side
    rw [(Prod.mk.inj hslot).2] at hrun
    exact ⟨_, _, bind_run hrun, hr.ok h.side⟩
  have hopen : Answered S k₀ (.ok t) k := ⟨h.privateData, h.opened h₀⟩
  unfold openLdiscs
  cases o.ldiscOpen with
  | some e => exact hremove e
  | none =>
    cases oTty with
    | none => exact ⟨_, _, rfl, hopen⟩
    | some _ =>
      cases o.oLdiscOpen with
      | some e => exact hremove e
      | none => exact ⟨_, _, rfl, hopen⟩

theorem installPty_meets {tp ltp : Option Nat} (h₀ : Ok S k₀) (hd : d < S.total)
    (hidx : idx < (S.drv d).num) (hfree : k₀.ttys (d, idx) = none)
    (hpty : (S.drv d).pty.isSome) (htp : tp.isSome ↔ k₀.termios (false, d, idx) = none)
    (hltp : ltp.isSome ↔ k₀.termios (true, d, idx) = none) (o : Outcome) :
    Meets (Making S k₀ (oneRef S d) [(t, blank d idx)] (ltp.toList ++ (tp.toList ++ [])))
      (installPty S d idx t tp ltp o) (Answered S k₀) := by
  have hsome : (S.drv d).other ≠ none := by
    rw [Ne, S.other_none]
    exact Option.isSome_iff_ne_none.mp hpty
  obtain ⟨d', hother⟩ := Option.ne_none_iff_exists'.mp hsome
  rw [installPty]
  refine meets_bind (R := fun d'' => fun k => d'' = d' ∧
    Making S k₀ (oneRef S d) [(t, blank d idx)] (ltp.toList ++ (tp.toList ++ [])) k) ?_ ?_
  · intro k h
    exact ⟨d', k, deref_run hother, rfl, h⟩
  · rintro d'' k ⟨rfl, h⟩
    refine Meets.run ?_ h
    refine meets_bind (allocTtyStruct_meets o.oTty d'' idx) fun p => ?_
    cases p with
    | none => exact freeMemOut_meets h₀ d t _ (blank d'' idx) tp ltp none none
    | some oTty =>
      refine meets_bind (mallocUnless_meets o.oTp (false, d'', idx)) fun p => ?_
      cases p with
      | none => exact freeMemOut_meets h₀ d t _ _ tp ltp (some oTty) none
      | some oTp =>
        rintro k ⟨h, hoTp⟩
        refine Meets.run ?_ h
        refine meets_bind (mallocUnless_meets o.oLtp (true, d'', idx)) fun p => ?_
        cases p with
        | none => exact freeMemOut_meets h₀ d t _ _ tp ltp (some oTty) oTp
        | some oLtp =>
          rintro k ⟨h, hoLtp⟩
          refine Meets.run ?_ h
          have hrest := meets_bind ((install_pty (o := oTty) h₀ hd hidx hfree hother htp hltp hoTp
            hoLtp).mono
            (R := fun _ k => ∃ tty other, tty.slot = (d, idx) ∧ Installed S k₀ k t tty other)
            fun _ _ ⟨tty, p, hslot, h⟩ => ⟨tty, some p, hslot, h⟩) fun _ =>
              openLdiscs_meets h₀ (some oTty) o
          simp only [bind_assoc] at hrest
          exact hrest

theorem firstOpen_meets (h₀ : Ok S k₀) (hd : d < S.total) (hidx : idx < (S.drv d).num)
    (hfree : k₀.ttys (d, idx) = none) (o : Outcome) :
    Meets (· = k₀) (firstOpen S d idx o) (Answered S k₀) := by
  rw [firstOpen]
  refine meets_ite (fun _ => meets_pure _ fun k hk => hk ▸ h₀) fun _ => ?_
  refine meets_bind (meets_modify (Q := fun _ => Making S k₀ (oneRef S d) [] []) ?_) fun _ => ?_
  · rintro k rfl
    refine ⟨⟨h₀.seats.nodup, h₀.seats.unseated, h₀.seats.seat, h₀.seats.seated, h₀.seats.inRange,
      h₀.seats.fresh, h₀.seats.refcount⟩, h₀.blocks.congr rfl rfl rfl rfl, fun owner => ?_,
      fun p hp => absurd hp List.not_mem_nil, fun _ => rfl, rfl, rfl, rfl, rfl⟩
    have howner := h₀.modules owner
    dsimp only [oneRef]
    rw [Function.update_apply]
    split_ifs with heq hne hne
    · rw [← heq, howner, add_zero]
    · exact absurd heq.symm hne
    · exact absurd hne.symm heq
    · exact howner
  refine meets_bind (allocTtyStruct_meets o.tty d idx) fun p => ?_
  cases p with
  | none => exact failNoMem_meets h₀ d
  | some t =>
    refine meets_bind (mallocUnless_meets o.tp (false, d, idx)) fun p => ?_
    cases p with
    | none => exact freeMemOut_meets h₀ d t _ (blank d idx) none none none none
    | some tp =>
      rintro k ⟨h, htp⟩
      refine Meets.run ?_ h
      refine meets_bind (mallocUnless_meets o.ltp (true, d, idx)) fun p => ?_
      cases p with
      | none => exact freeMemOut_meets h₀ d t _ (blank d idx) tp none none none
      | some ltp =>
        rintro k ⟨h, hltp⟩
        refine Meets.run ?_ h
        refine meets_ite (fun hpty => installPty_meets h₀ hd hidx hfree hpty htp hltp o)
          fun hpty => ?_
        have hother : (S.drv d).other = none :=
          S.other_none.mpr (Option.not_isSome_iff_eq_none.mp hpty)
        have hrest := meets_bind ((install_plain (t := t) hd hidx hfree hother htp hltp).mono
          (R := fun _ k => ∃ tty other, tty.slot = (d, idx) ∧ Installed S k₀ k t tty other)
          fun _ _ ⟨tty, hslot, h⟩ => ⟨tty, none, hslot, h⟩) fun _ => openLdiscs_meets h₀ none o
        simp only [bind_assoc] at hrest
        exact hrest

/-- **`init_dev` does not fault.** -/
theorem initDev_meets (h₀ : Ok S k₀) (hd : d < S.total) (hidx : idx < (S.drv d).num)
    (o : Outcome) : Meets (· = k₀) (initDev S d idx o) (Answered S k₀) := by
  rintro k rfl
  rw [initDev, bind_run (get_run k)]
  cases hslot : k.ttys (d, idx) with
  | none => exact firstOpen_meets h₀ hd hidx hslot o k rfl
  | some t =>
    obtain ⟨tty, htty, hdi⟩ := h₀.seats.seat hslot
    obtain ⟨rfl, rfl⟩ := Prod.mk.inj hdi
    have hrun := fastTrack_run h₀ htty
    cases hrefuses : refuses S tty with
    | true =>
      rw [hrefuses, if_pos rfl] at hrun
      exact ⟨_, _, hrun, h₀⟩
    | false =>
      rw [hrefuses, if_neg Bool.false_ne_true] at hrun
      exact ⟨_, _, hrun, rfl, h₀.reopened htty hrefuses⟩

/-- **A line that is opened is in order.** -/
theorem ttyOpen_meets {filp : Nat} (h₀ : Ok S k₀) (hd : d < S.total) (hidx : idx < (S.drv d).num)
    (hnew : k₀.privateData filp = none) (o : Outcome) :
    Meets (· = k₀) (ttyOpen S d idx filp o) fun _ k => Ok S k := by
  rw [ttyOpen]
  refine meets_bind (initDev_meets h₀ hd hidx o) fun r => ?_
  cases r with
  | error e => exact meets_pure _ fun _ h => h
  | ok t =>
    rintro k ⟨hdata, tty, htty, hopened⟩
    exact ⟨_, _, attach_run htty, hopened filp ((congrFun hdata filp).trans hnew)⟩

end LinuxConsole.Tty

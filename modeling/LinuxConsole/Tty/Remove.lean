import LinuxConsole.Tty.Close

/-!
# The end of a terminal

`release_mem` takes the two structs of a line out of the tables and frees them, with their `termios`
blocks where the driver does not keep these.  It does not fault where the structs are in their
places, and what it leaves is in order if nobody had a file on the line (`Removable.ok`).
-/

namespace LinuxConsole.Tty

variable {S : Drivers} {k : Kernel} {t : Nat} {tty : TtyStruct} {T B : List Nat} {q : Nat × Nat}

/-! ### One side -/

theorem released_tty_of_ne {x : Nat} (hx : x ≠ t) : (k.released S t tty).tty x = k.tty x :=
  Function.update_of_ne hx ..

theorem released_tty_self (S : Drivers) (k : Kernel) (t : Nat) (tty : TtyStruct) :
    (k.released S t tty).tty t = none := Function.update_self ..

theorem apart_released (htty : k.tty t = some tty) (hq : Mates S tty.slot q) :
    Apart S k (k.released S t tty) q where
  ttys := by
    intro slot hslot
    refine Function.update_of_ne ?_ ..
    rintro rfl
    exact hslot hq
  tty := by
    intro x y hy
    by_cases hx : x = t
    · subst hx
      rw [released_tty_self, htty]
      refine ⟨fun hnone => absurd hnone.symm (Option.some_ne_none y), fun hsome => ?_⟩
      cases hsome
      exact absurd hq hy
    · rw [released_tty_of_ne hx]
  releasing := fun _ _ => Iff.rfl

theorem Modules.released {more : Nat → Int} (h : Modules S k more) (hs : Seats S k T)
    (htty : k.tty t = some tty) (ht : t ∉ T) :
    Modules S (k.released S t tty) fun owner => more owner + counts S tty.driver owner := by
  intro owner
  have hd := (hs.inRange (hs.seated htty ht)).1
  change k.modules owner = linesOf S (Function.update k.refcount tty.driver
    (k.refcount tty.driver - 1)) owner + (more owner + counts S tty.driver owner)
  rw [sub_eq_add_neg, linesOf_update hd, h owner]
  ring

/-! ### Both sides -/

/-- The two sides of a line stand for one reference to the module. -/
theorem counts_pty {d d' : Nat} (h : (S.drv d).other = some d') (owner : Nat) :
    counts S d' owner + counts S d owner = if (S.drv d).owner = owner then 1 else 0 := by
  obtain ⟨hother, hself⟩ := S.slave_iff h
  rw [counts, counts, S.owner_other h]
  by_cases howner : (S.drv d).owner = owner
  · cases hm : S.isMaster d with
    | true =>
      rw [hm] at hother hself
      rw [if_neg fun hboth => hboth.2 (hother.mpr rfl),
        if_pos ⟨howner, fun hslave => Bool.noConfusion (hself.mp hslave)⟩, if_pos howner]
      rfl
    | false =>
      rw [hm] at hother hself
      rw [if_pos ⟨howner, fun hslave => Bool.noConfusion (hother.mp hslave)⟩,
        if_neg fun hboth => hboth.2 (hself.mpr rfl), if_pos howner]
      rfl
  · rw [if_neg fun hboth => howner hboth.1, if_neg fun hboth => howner hboth.1, if_neg howner]
    rfl

theorem counts_plain {d : Nat} (h : (S.drv d).other = none) (owner : Nat) :
    counts S d owner = if (S.drv d).owner = owner then 1 else 0 := by
  have hpty := S.other_none.mp h
  rw [counts, hpty]
  refine if_congr (and_iff_left ?_) rfl rfl
  exact (Option.some_ne_none _).symm

/-- **A line that nobody uses any more**, or not yet. -/
structure Removable (S : Drivers) (k : Kernel) (t : Nat) (tty : TtyStruct) : Prop where
  here : k.tty t = some tty
  seats : Seats S k []
  blocks : Blocks k [] []
  modules : Modules S k fun _ => 0
  conduct : Conduct S k (some tty.slot)
  link : tty.link = (S.drv tty.driver).other.bind fun d' => k.ttys (d', tty.index)
  paired : (S.drv tty.driver).other.isSome → tty.link.isSome
  unused : ∀ {x y}, k.tty x = some y → Mates S y.slot tty.slot →
    y.ttyFiles = [] ∧ x ∉ k.releasing

/-- The state that `release_mem` leaves. -/
def Kernel.removed (S : Drivers) (k : Kernel) (t : Nat) (tty : TtyStruct)
    (other : Option (Nat × TtyStruct)) : Kernel :=
  let k := (other.elim k fun p => k.released S p.1 p.2).released S t tty
  let owner := (S.drv tty.driver).owner
  { k with modules := Function.update k.modules owner (k.modules owner - 1) }

/-- The other side, if there is one. -/
def OtherSide (S : Drivers) (k : Kernel) (t : Nat) (tty : TtyStruct) :
    Option (Nat × TtyStruct) → Prop
  | none => tty.link = none ∧ (S.drv tty.driver).other = none
  | some (o, oTty) => tty.link = some o ∧ k.tty o = some oTty ∧ o ≠ t ∧
    oTty.index = tty.index ∧ (S.drv tty.driver).other = some oTty.driver

theorem Removable.other (h : Removable S k t tty) : ∃ other, OtherSide S k t tty other := by
  cases hother : (S.drv tty.driver).other with
  | none =>
    refine ⟨none, ?_, hother⟩
    rw [h.link, hother]
    rfl
  | some d' =>
    obtain ⟨o, ho⟩ := Option.isSome_iff_exists.mp (h.paired (by rw [hother]; rfl))
    have hlink := h.link
    rw [ho, hother, Option.bind_some] at hlink
    obtain ⟨oTty, hoTty, hslot⟩ := h.seats.seat hlink.symm
    obtain ⟨rfl, hidx⟩ := Prod.mk.inj hslot
    refine ⟨some (o, oTty), ho, hoTty, ?_, hidx, hother⟩
    rintro rfl
    have htty := h.here
    rw [hoTty] at htty
    cases htty
    exact S.other_ne hother rfl

theorem releaseMem_run {other : Option (Nat × TtyStruct)} (h : Removable S k t tty)
    (hother : OtherSide S k t tty other) :
    (releaseMem S t tty.index).run k = some (⟨⟩, k.removed S t tty other) := by
  rw [releaseMem, bind_run (load_run h.here)]
  cases other with
  | none =>
    rw [hother.1]
    dsimp only
    rw [bind_run (releaseSide_run h.blocks h.here List.not_mem_nil)]
    rfl
  | some p =>
    obtain ⟨o, oTty⟩ := p
    obtain ⟨ho, hoTty, hne, hidx, _⟩ := hother
    have hblocks := h.blocks.released h.seats hoTty List.not_mem_nil
    have htty : (k.released S o oTty).tty t = some tty :=
      (released_tty_of_ne hne.symm).trans h.here
    rw [ho]
    dsimp only
    rw [← hidx, bind_run (releaseSide_run h.blocks hoTty List.not_mem_nil), hidx,
      bind_run (releaseSide_run hblocks htty List.not_mem_nil)]
    rfl

theorem removed_tty {other : Option (Nat × TtyStruct)} (hother : OtherSide S k t tty other)
    (x : Nat) : (k.removed S t tty other).tty x =
      if x = t ∨ tty.link = some x then none else k.tty x := by
  cases other with
  | none =>
    change (k.released S t tty).tty x = _
    rw [hother.1]
    by_cases hx : x = t
    · rw [hx, released_tty_self, if_pos (.inl rfl)]
    · rw [released_tty_of_ne hx, if_neg]
      exact not_or.mpr ⟨hx, (Option.some_ne_none x).symm⟩
  | some p =>
    obtain ⟨o, oTty⟩ := p
    change ((k.released S o oTty).released S t tty).tty x = _
    rw [hother.1]
    by_cases hx : x = t
    · rw [hx, released_tty_self, if_pos (.inl rfl)]
    · rw [released_tty_of_ne hx]
      by_cases ho : x = o
      · rw [ho, released_tty_self, if_pos (.inr rfl)]
      · rw [released_tty_of_ne ho, if_neg]
        exact not_or.mpr ⟨hx, fun heq => ho (Option.some.inj heq).symm⟩

theorem removed_privateData (S : Drivers) (k : Kernel) (t : Nat) (tty : TtyStruct)
    (other : Option (Nat × TtyStruct)) :
    (k.removed S t tty other).privateData = k.privateData := by
  cases other <;> rfl

theorem removed_releasing (S : Drivers) (k : Kernel) (t : Nat) (tty : TtyStruct)
    (other : Option (Nat × TtyStruct)) : (k.removed S t tty other).releasing = k.releasing := by
  cases other <;> rfl

theorem Removable.mates {x : Nat} {y : TtyStruct} (h : Removable S k t tty)
    (hy : k.tty x = some y) (hmates : Mates S y.slot tty.slot) : x = t ∨ tty.link = some x := by
  obtain ⟨hidx, hd⟩ := hmates
  have hseat := h.seats.seated hy List.not_mem_nil
  change y.index = tty.index at hidx
  rcases hd with hd | hd
  · left
    have hseat' := h.seats.seated h.here List.not_mem_nil
    change y.driver = tty.driver at hd
    rw [hd, hidx, hseat'] at hseat
    exact (Option.some.inj hseat).symm
  · right
    change (S.drv y.driver).other = some tty.driver at hd
    rw [h.link, S.other_other hd, Option.bind_some, ← hidx]
    exact hseat

/-- The reference to the module is given back. -/
theorem Modules.put {more : Nat → Int} {owner : Nat} (h : Modules S k more)
    (hmore : ∀ o, more o = if owner = o then 1 else 0) :
    Modules S { k with modules := Function.update k.modules owner (k.modules owner - 1) }
      fun _ => 0 := by
  intro o
  dsimp only
  rw [Function.update_apply]
  have ho := h o
  rw [hmore] at ho
  split_ifs with heq
  · rw [← heq, if_pos rfl] at ho
    rw [heq] at ho ⊢
    omega
  · rw [if_neg (Ne.symm heq)] at ho
    exact ho

theorem Removable.parts {other : Option (Nat × TtyStruct)} (h : Removable S k t tty)
    (hother : OtherSide S k t tty other) : Seats S (k.removed S t tty other) [] ∧
      Blocks (k.removed S t tty other) [] [] ∧
      Modules S (k.removed S t tty other) (fun _ => 0) ∧
      Apart S k (k.removed S t tty other) tty.slot := by
  cases other with
  | none =>
    have hseats := h.seats.released h.here List.not_mem_nil
    have hblocks := h.blocks.released h.seats h.here List.not_mem_nil
    have hmodules := h.modules.released h.seats h.here List.not_mem_nil
    have hapart := apart_released (S := S) h.here (mates_refl tty.slot)
    refine ⟨⟨hseats.nodup, hseats.unseated, hseats.seat, hseats.seated, hseats.inRange,
      hseats.fresh, hseats.refcount⟩, hblocks.congr rfl rfl rfl rfl, hmodules.put fun o => ?_,
      ⟨hapart.ttys, hapart.tty, hapart.releasing⟩⟩
    rw [counts_plain hother.2, zero_add]
  | some p =>
    obtain ⟨o, oTty⟩ := p
    obtain ⟨ho, hoTty, hne, hidx, hd⟩ := hother
    have htty : (k.released S o oTty).tty t = some tty :=
      (released_tty_of_ne hne.symm).trans h.here
    have hseats := h.seats.released hoTty List.not_mem_nil
    have hblocks := h.blocks.released h.seats hoTty List.not_mem_nil
    have hmodules := h.modules.released h.seats hoTty List.not_mem_nil
    have hmates : Mates S oTty.slot tty.slot := ⟨hidx, .inr (S.other_other hd)⟩
    have hapart := (apart_released hoTty hmates).trans (apart_released htty (mates_refl tty.slot))
    have hblocks' := hblocks.released hseats htty List.not_mem_nil
    have hmodules' := hmodules.released hseats htty List.not_mem_nil
    have hseats' := hseats.released htty List.not_mem_nil
    refine ⟨⟨hseats'.nodup, hseats'.unseated, hseats'.seat, hseats'.seated, hseats'.inRange,
      hseats'.fresh, hseats'.refcount⟩, hblocks'.congr rfl rfl rfl rfl, hmodules'.put fun o => ?_,
      ⟨hapart.ttys, hapart.tty, hapart.releasing⟩⟩
    rw [zero_add, counts_pty hd]

/-- **Nothing of the line is left, and the others are in order.** -/
theorem Removable.ok {other : Option (Nat × TtyStruct)} (h : Removable S k t tty)
    (hother : OtherSide S k t tty other) : Ok S (k.removed S t tty other) := by
  have hmates {x : Nat} (hx : x = t ∨ tty.link = some x) :
      ∃ y, k.tty x = some y ∧ Mates S y.slot tty.slot := by
    rcases hx with rfl | ho
    · exact ⟨tty, h.here, mates_refl _⟩
    · cases other with
      | none =>
        rw [hother.1] at ho
        cases ho
      | some p =>
        obtain ⟨hlink, hoTty, _, hidx, hd⟩ := hother
        rw [hlink] at ho
        cases ho
        exact ⟨p.2, hoTty, hidx, .inr (S.other_other hd)⟩
  have hold {x : Nat} {y : TtyStruct} (hy : (k.removed S t tty other).tty x = some y) :
      ¬(x = t ∨ tty.link = some x) ∧ k.tty x = some y := by
    rw [removed_tty hother] at hy
    split_ifs at hy with hx
    exact ⟨hx, hy⟩
  have hnew {x : Nat} {y : TtyStruct} (hy : k.tty x = some y) (hx : ¬Mates S y.slot tty.slot) :
      (k.removed S t tty other).tty x = some y := by
    rw [removed_tty hother, if_neg]
    · exact hy
    · intro hline
      obtain ⟨y', hy', hm⟩ := hmates hline
      rw [hy] at hy'
      cases hy'
      exact hx hm
  obtain ⟨hseats, hblocks, hmodules, hapart⟩ := h.parts hother
  refine ⟨hseats, hblocks, hmodules, ⟨?_, ?_, ?_, ?_⟩⟩
  · intro x y hy _
    obtain ⟨hline, hy'⟩ := hold hy
    have hx : ¬Mates S y.slot tty.slot := fun hm => hline (h.mates hy' hm)
    have hok := h.conduct.each hy' fun q hq => by
      cases hq
      exact hx
    exact hapart.ttyOk h.seats hy' hok hx
  · intro f x
    rw [removed_privateData, h.conduct.file]
    constructor
    · rintro ⟨y, hy, hmem⟩
      refine ⟨y, hnew hy fun hm => ?_, hmem⟩
      rw [(h.unused hy hm).1] at hmem
      exact List.not_mem_nil hmem
    · rintro ⟨y, hy, hmem⟩
      exact ⟨y, (hold hy).2, hmem⟩
  · intro x hx
    rw [removed_releasing] at hx ⊢
    obtain ⟨y, hy, hclosing, hlinks⟩ := h.conduct.releasing hx
    refine ⟨y, hnew hy fun hm => (h.unused hy hm).2 hx, hclosing, fun o ho => ?_⟩
    refine ⟨(hlinks o ho).1, fun oTty hoTty => (hlinks o ho).2 oTty (hold hoTty).2⟩
  · rw [removed_releasing]
    exact h.conduct.once

/-! ### The rest of the last close -/

/-- **A last close that is under way ends** with the line gone. -/
theorem finalClose_meets (t : Nat) :
    Lib.Meets (fun k => Ok S k ∧ t ∈ k.releasing) (finalClose S t) fun _ k' => Ok S k' := by
  rintro k ⟨h, ht⟩
  obtain ⟨tty, htty, hclosing, hlinks⟩ := h.conduct.releasing ht
  have hok := h.ttyOk htty
  have hsame : SameSeats k (k.setReleasing (k.releasing.erase t)) :=
    ⟨fun _ => rfl, rfl, rfl, rfl, rfl, rfl, rfl, rfl⟩
  have hmem {x : Nat} (hx : x ≠ t) : x ∈ k.releasing.erase t ↔ x ∈ k.releasing :=
    List.mem_erase_of_ne hx
  have hapart : Apart S k (k.setReleasing (k.releasing.erase t)) tty.slot := by
    refine ⟨fun _ => rfl, fun _ => Iff.rfl, fun {x y} hy hx => hmem ?_⟩
    rintro rfl
    rw [htty] at hy
    cases hy
    exact hx (mates_refl _)
  have hremovable : Removable S (k.setReleasing (k.releasing.erase t)) t tty := by
    refine ⟨htty, hsame.seats h.seats, hsame.memory h.blocks, h.modules, ⟨?_, h.conduct.file, ?_,
      h.conduct.once.erase t⟩, hok.link, hok.paired, ?_⟩
    · intro x y hy hx
      exact hapart.ttyOk h.seats hy (h.ttyOk hy) (hx _ rfl)
    · intro x hx
      obtain ⟨y, hy, hclosing', hlinks'⟩ := h.conduct.releasing (List.mem_of_mem_erase hx)
      exact ⟨y, hy, hclosing', fun o ho =>
        ⟨fun hmem' => (hlinks' o ho).1 (List.mem_of_mem_erase hmem'), (hlinks' o ho).2⟩⟩
    · intro x y hy hx
      rcases h.mates htty hy hx with rfl | ho
      · rw [setReleasing_tty, htty] at hy
        cases hy
        exact ⟨hok.closing hclosing, h.conduct.once.not_mem_erase⟩
      · exact ⟨(h.ttyOk hy).closing ((hlinks x ho).2 y hy),
          fun hmem' => (hlinks x ho).1 (List.mem_of_mem_erase hmem')⟩
  obtain ⟨other, hother⟩ := hremovable.other
  refine ⟨⟨⟩, _, ?_, hremovable.ok hother⟩
  rw [finalClose, bind_run (load_run htty), bind_run (modify_run ..)]
  exact releaseMem_run hremovable hother

end LinuxConsole.Tty

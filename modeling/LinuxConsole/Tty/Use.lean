import LinuxConsole.Tty.Conduct

/-!
# The use of a line

An open of a line that is open already and a close of one of its files change the use of the struct
and of the other side, and nothing else (`useLine`): the structs stay where they are.  `Ok.used` says
what is left to show then.
-/

namespace LinuxConsole.Tty

variable {S : Drivers} {k k' : Kernel} {t filp : Nat} {tty : TtyStruct} {T B : List Nat}

/-! ### The two sides -/

theorem Drivers.other_ne (S : Drivers) {d d' : Nat} (h : (S.drv d).other = some d') : d' ≠ d := by
  rintro rfl
  cases hpty : (S.drv d').pty with
  | none =>
    rw [← S.other_none, h] at hpty
    cases hpty
  | some side =>
    have hsides := S.master_slave h
    rw [hpty] at hsides
    cases side with
    | master => exact absurd (hsides.mp rfl) (by decide)
    | slave => exact absurd (hsides.mpr rfl) (by decide)

theorem Ok.link {o : Nat} (h : Ok S k) (htty : k.tty t = some tty) (ho : tty.link = some o) :
    ∃ oTty, k.tty o = some oTty ∧ (S.drv tty.driver).other = some oTty.driver ∧
      (S.drv oTty.driver).other = some tty.driver ∧ oTty.index = tty.index ∧
      oTty.link = some t ∧ o ≠ t := by
  obtain ⟨oTty, hoTty, hd, hidx⟩ := (h.ttyOk htty).other h.seats ho
  have hback := S.other_other hd
  have hlink := (h.ttyOk hoTty).link
  rw [hback, Option.bind_some, hidx, h.seats.seated htty List.not_mem_nil] at hlink
  refine ⟨oTty, hoTty, hd, hback, hidx, hlink, ?_⟩
  rintro rfl
  rw [htty] at hoTty
  cases hoTty
  exact S.other_ne hd rfl

theorem Ok.mates {x : Nat} {y : TtyStruct} (h : Ok S k) (htty : k.tty t = some tty)
    (hy : k.tty x = some y) (hmates : Mates S y.slot tty.slot) : x = t ∨ tty.link = some x := by
  obtain ⟨hidx, hd⟩ := hmates
  have hseat := h.seats.seated hy List.not_mem_nil
  rcases hd with hd | hd
  · left
    have hseat' := h.seats.seated htty List.not_mem_nil
    change y.driver = tty.driver at hd
    change y.index = tty.index at hidx
    rw [hd, hidx, hseat'] at hseat
    exact (Option.some.inj hseat).symm
  · right
    change (S.drv y.driver).other = some tty.driver at hd
    change y.index = tty.index at hidx
    rw [(h.ttyOk htty).link, S.other_other hd, Option.bind_some, ← hidx]
    exact hseat

/-! ### Opens and closes -/

/-- What opening and closing leave as it is. -/
def TtyStruct.fixed (tty : TtyStruct) : Nat × Nat × Option Nat × (Bool → Option Nat) :=
  (tty.driver, tty.index, tty.link, tty.termios)

theorem TtyStruct.fixed_eq {x y : TtyStruct} (h : x.fixed = y.fixed) :
    x.driver = y.driver ∧ x.index = y.index ∧ x.link = y.link ∧ x.termios = y.termios := by
  rw [fixed, fixed, Prod.mk.injEq, Prod.mk.injEq, Prod.mk.injEq] at h
  exact h

/-- **The structs are the same but for their use**, and so are the tables. -/
structure SameSeats (k k' : Kernel) : Prop where
  tty : ∀ x, (k'.tty x).map TtyStruct.fixed = (k.tty x).map TtyStruct.fixed
  nextTty : k'.nextTty = k.nextTty
  blocks : k'.blocks = k.blocks
  nextBlock : k'.nextBlock = k.nextBlock
  ttys : k'.ttys = k.ttys
  termios : k'.termios = k.termios
  refcount : k'.refcount = k.refcount
  modules : k'.modules = k.modules

theorem SameSeats.some (h : SameSeats k k') {x : Nat} {y : TtyStruct} (hy : k.tty x = some y) :
    ∃ y', k'.tty x = some y' ∧ y'.fixed = y.fixed := by
  have hx := h.tty x
  rw [hy, Option.map_some] at hx
  exact Option.map_eq_some_iff.mp hx

theorem SameSeats.symm (h : SameSeats k k') : SameSeats k' k :=
  ⟨fun x => (h.tty x).symm, h.nextTty.symm, h.blocks.symm, h.nextBlock.symm, h.ttys.symm,
    h.termios.symm, h.refcount.symm, h.modules.symm⟩

theorem SameSeats.none (h : SameSeats k k') {x : Nat} (hx : k.tty x = none) :
    k'.tty x = none := by
  have hmap := h.tty x
  rw [hx, Option.map_none, Option.map_eq_none_iff] at hmap
  exact hmap

theorem SameSeats.seats (h : SameSeats k k') (hs : Seats S k T) : Seats S k' T where
  nodup := hs.nodup
  unseated := by
    intro x hx
    obtain ⟨hsome, hslots⟩ := hs.unseated hx
    obtain ⟨y, hy⟩ := Option.isSome_iff_exists.mp hsome
    obtain ⟨y', hy', _⟩ := h.some hy
    rw [hy', h.ttys]
    exact ⟨rfl, hslots⟩
  seat := by
    intro slot x hslot
    rw [h.ttys] at hslot
    obtain ⟨y, hy, hdi⟩ := hs.seat hslot
    obtain ⟨y', hy', hfixed⟩ := h.some hy
    obtain ⟨hd, hi, _⟩ := TtyStruct.fixed_eq hfixed
    exact ⟨y', hy', by rw [hd, hi, hdi]⟩
  seated := by
    intro x y hy hx
    obtain ⟨y', hy', hfixed⟩ := h.symm.some hy
    obtain ⟨hd, hi, _⟩ := TtyStruct.fixed_eq hfixed
    rw [h.ttys, ← hd, ← hi]
    exact hs.seated hy' hx
  inRange := by
    rw [h.ttys]
    exact hs.inRange
  fresh := by
    intro x hx
    rw [h.nextTty] at hx
    exact h.none (hs.fresh hx)
  refcount := by
    rw [h.refcount, h.ttys]
    exact hs.refcount

theorem SameSeats.memory (h : SameSeats k k') (hb : Blocks k T B) : Blocks k' T B where
  nodup := hb.nodup
  blocks := by
    rw [h.blocks, h.termios]
    exact hb.blocks
  unplaced := by
    rw [h.termios]
    exact hb.unplaced
  inj := by
    rw [h.termios]
    exact hb.inj
  fresh := by
    rw [h.nextBlock, h.blocks]
    exact hb.fresh
  termios := by
    intro x y hy hx locked
    obtain ⟨y', hy', hfixed⟩ := h.symm.some hy
    obtain ⟨hd, hi, _, htermios⟩ := TtyStruct.fixed_eq hfixed
    rw [h.termios, ← hd, ← hi, ← htermios]
    exact hb.termios hy' hx locked

/-- A struct in order, seen again after its use has changed. -/
theorem TtyOk.used {x : Nat} {y y' : TtyStruct} (h : TtyOk S k x y) (hsame : SameSeats k k')
    (hfixed : y'.fixed = y.fixed) (hcount : y'.count = y'.ttyFiles.length + held S k' y')
    (hsingle : (S.drv y.driver).pty = some .master → y'.ttyFiles.length ≤ 1)
    (hnodup : y'.ttyFiles.Nodup) (hclosing : y'.closing = true → y'.ttyFiles = [])
    (hinUse : InUse k' x y') : TtyOk S k' x y' := by
  obtain ⟨hd, hi, hl, _⟩ := TtyStruct.fixed_eq hfixed
  refine ⟨?_, ?_, hcount, ?_, hnodup, hclosing, hinUse⟩
  · rw [hl, hd, hi, hsame.ttys]
    exact h.link
  · rw [hl, hd]
    exact h.paired
  · rw [hd]
    exact hsingle

/-- **The invariant after a line has been opened or closed.** -/
theorem Ok.used {q : Nat × Nat} (h : Ok S k) (hsame : SameSeats k k') (hapart : Apart S k k' q)
    (hline : ∀ {x y}, k'.tty x = some y → Mates S y.slot q → TtyOk S k' x y)
    (hfile : ∀ {f x}, k'.privateData f = some x ↔ ∃ y, k'.tty x = some y ∧ f ∈ y.ttyFiles)
    (hreleasing : ∀ {x}, x ∈ k'.releasing → ∃ y, k'.tty x = some y ∧ y.closing = true ∧
      ∀ o, y.link = some o → o ∉ k'.releasing ∧ ∀ oTty, k'.tty o = some oTty → oTty.closing = true)
    (honce : k'.releasing.Nodup) : Ok S k' where
  seats := hsame.seats h.seats
  blocks := hsame.memory h.blocks
  modules := by
    intro owner
    rw [hsame.modules, hsame.refcount]
    exact h.modules owner
  conduct :=
  { each := by
      intro x y hy _
      by_cases hq : Mates S y.slot q
      · exact hline hy hq
      · have hy' := (hapart.tty hq).mp hy
        exact hapart.ttyOk h.seats hy' (h.ttyOk hy') hq
    file := hfile
    releasing := hreleasing
    once := honce }

/-- A line is used: the struct becomes `tty'`, and `g` is done to the other side. -/
def useLine (heap : Nat → Option TtyStruct) (t : Nat) (tty tty' : TtyStruct)
    (g : TtyStruct → TtyStruct) (x : Nat) : Option TtyStruct :=
  if x = t then some tty' else if tty.link = some x then (heap x).map g else heap x

section Use

variable {tty' : TtyStruct} {g : TtyStruct → TtyStruct} {heap : Nat → Option TtyStruct}

theorem useLine_self (heap : Nat → Option TtyStruct) (t : Nat) (tty tty' : TtyStruct)
    (g : TtyStruct → TtyStruct) : useLine heap t tty tty' g t = some tty' := if_pos rfl

theorem useLine_link {o : Nat} {oTty : TtyStruct} (hne : o ≠ t) (ho : tty.link = some o)
    (hoTty : heap o = some oTty) : useLine heap t tty tty' g o = some (g oTty) := by
  rw [useLine, if_neg hne, if_pos ho, hoTty, Option.map_some]

theorem useLine_of_ne {x : Nat} (hx : x ≠ t) (hlink : tty.link ≠ some x) :
    useLine heap t tty tty' g x = heap x := (if_neg hx).trans (if_neg hlink)

/-- **The structs after a use.** -/
theorem useLine_cases {x : Nat} {y' : TtyStruct} (hy' : useLine heap t tty tty' g x = some y') :
    x = t ∧ y' = tty' ∨ x ≠ t ∧ ∃ y, heap x = some y ∧
      (tty.link = some x ∧ y' = g y ∨ tty.link ≠ some x ∧ y' = y) := by
  by_cases hx : x = t
  · subst hx
    rw [useLine_self] at hy'
    exact .inl ⟨rfl, (Option.some.inj hy').symm⟩
  · refine .inr ⟨hx, ?_⟩
    by_cases hlink : tty.link = some x
    · rw [useLine, if_neg hx, if_pos hlink] at hy'
      obtain ⟨y, hy, rfl⟩ := Option.map_eq_some_iff.mp hy'
      exact ⟨y, hy, .inl ⟨hlink, rfl⟩⟩
    · rw [useLine_of_ne hx hlink] at hy'
      exact ⟨y', hy', .inr ⟨hlink, rfl⟩⟩

theorem useLine_fixed (htty : heap t = some tty) (hself : tty'.fixed = tty.fixed)
    (hg : ∀ y : TtyStruct, (g y).fixed = y.fixed) (x : Nat) :
    (useLine heap t tty tty' g x).map TtyStruct.fixed = (heap x).map TtyStruct.fixed := by
  by_cases hx : x = t
  · rw [hx, useLine_self, htty, Option.map_some, Option.map_some, hself]
  · by_cases hlink : tty.link = some x
    · rw [useLine, if_neg hx, if_pos hlink, Option.map_map]
      exact congrArg (Option.map · (heap x)) (funext hg)
    · rw [useLine_of_ne hx hlink]

/-- **A use leaves the other lines alone.** -/
theorem Ok.apart_use (h : Ok S k) (htty : k.tty t = some tty)
    (hline : k'.tty = useLine k.tty t tty tty' g) (hself : tty'.fixed = tty.fixed)
    (hg : ∀ y : TtyStruct, (g y).fixed = y.fixed) (httys : k'.ttys = k.ttys)
    (hreleasing : ∀ {x}, x ≠ t → (x ∈ k'.releasing ↔ x ∈ k.releasing)) :
    Apart S k k' tty.slot := by
  have haway {x : Nat} {y : TtyStruct} (hy : k.tty x = some y) (hx : ¬Mates S y.slot tty.slot) :
      x ≠ t ∧ tty.link ≠ some x := by
    constructor
    · rintro rfl
      rw [htty] at hy
      cases hy
      exact hx (mates_refl _)
    · intro hlink
      exact hx ((h.ttyOk htty).other_mates h.seats hlink hy)
  have hslot {x y : TtyStruct} (hfixed : x.fixed = y.fixed) : x.slot = y.slot := by
    obtain ⟨hd, hi, _⟩ := TtyStruct.fixed_eq hfixed
    rw [TtyStruct.slot, TtyStruct.slot, hd, hi]
  refine ⟨fun _ => congrFun httys _, ?_, fun hy hx => hreleasing (haway hy hx).1⟩
  intro x y hx
  rw [hline]
  constructor
  · intro hy
    rcases useLine_cases hy with ⟨rfl, rfl⟩ | ⟨_, y₀, hy₀, hcases⟩
    · rw [hslot hself] at hx
      exact absurd (mates_refl _) hx
    · rcases hcases with ⟨hlink, rfl⟩ | ⟨_, rfl⟩
      · rw [hslot (hg y₀)] at hx
        exact absurd ((h.ttyOk htty).other_mates h.seats hlink hy₀) hx
      · exact hy₀
  · intro hy
    obtain ⟨hne, hlink⟩ := haway hy hx
    rw [useLine_of_ne hne hlink]
    exact hy

/-- **The last closes that are under way stay so**, if none is of this line. -/
theorem Ok.releasing_use {x : Nat} (h : Ok S k) (htty : k.tty t = some tty)
    (hline : k'.tty = useLine k.tty t tty tty' g) (ht : t ∉ k.releasing)
    (hlink : ∀ o, tty.link = some o → o ∉ k.releasing) (hx : x ∈ k.releasing) :
    ∃ y, k'.tty x = some y ∧ y.closing = true ∧ ∀ o, y.link = some o →
      o ≠ t ∧ o ∉ k.releasing ∧ ∀ oTty, k'.tty o = some oTty → oTty.closing = true := by
  obtain ⟨y, hy, hclosing, hlinks⟩ := h.conduct.releasing hx
  have hxt : x ≠ t := by
    rintro rfl
    exact ht hx
  have hxo : tty.link ≠ some x := fun heq => hlink x heq hx
  rw [hline]
  refine ⟨y, (useLine_of_ne hxt hxo).trans hy, hclosing, fun o ho => ?_⟩
  obtain ⟨oTty, hoTty, _, _, _, hback, _⟩ := h.link hy ho
  have hot : o ≠ t := by
    rintro rfl
    rw [htty] at hoTty
    cases hoTty
    exact hxo hback
  have hoo : tty.link ≠ some o := by
    intro heq
    obtain ⟨oTty', hoTty', _, _, _, hback', _⟩ := h.link htty heq
    rw [hoTty] at hoTty'
    cases hoTty'
    rw [hback] at hback'
    exact hxt (Option.some.inj hback')
  exact ⟨hot, (hlinks o ho).1, fun oTty' hoTty' =>
    (hlinks o ho).2 oTty' ((useLine_of_ne hot hoo).symm.trans hoTty')⟩

/-- A struct that is not on its way out is of no last close, and neither is its other side. -/
theorem Ok.not_releasing (h : Ok S k) (htty : k.tty t = some tty) (hopen : tty.closing ≠ true) :
    t ∉ k.releasing ∧ ∀ o, tty.link = some o → o ∉ k.releasing := by
  constructor
  · intro ht
    obtain ⟨tty', htty', hclosing, _⟩ := h.conduct.releasing ht
    rw [htty] at htty'
    cases htty'
    exact hopen hclosing
  · intro o ho hmem
    obtain ⟨oTty, hoTty, _, hlink⟩ := h.conduct.releasing hmem
    obtain ⟨oTty', hoTty', _, _, _, hback, _⟩ := h.link htty ho
    rw [hoTty] at hoTty'
    cases hoTty'
    exact hopen ((hlink t hback).2 tty htty)

end Use

/-! ### Counts of the two sides -/

/-- The driver is one of masters. -/
def Drivers.isMaster (S : Drivers) (d : Nat) : Bool := decide ((S.drv d).pty = some .master)

theorem held_link {o : Nat} {oTty : TtyStruct} (ho : tty.link = some o)
    (hoTty : k.tty o = some oTty) : held S k tty =
      if (S.drv tty.driver).pty = some .slave then oTty.ttyFiles.length else 0 := by
  rw [held, ho, Option.bind_some, hoTty]
  rfl

theorem held_plain (hpty : (S.drv tty.driver).pty ≠ some .slave) : held S k tty = 0 := if_neg hpty

/-- Of two sides that name each other one is the slave. -/
theorem Drivers.slave_iff (S : Drivers) {d d' : Nat} (h : (S.drv d).other = some d') :
    ((S.drv d').pty = some .slave ↔ S.isMaster d = true) ∧
      ((S.drv d).pty = some .slave ↔ S.isMaster d = false) := by
  have hd := S.master_slave h
  have hd' := S.master_slave (S.other_other h)
  have hne : (S.drv d).pty ≠ none := by
    rw [Ne, ← S.other_none, h]
    exact Option.some_ne_none d'
  rw [isMaster, decide_eq_true_iff, decide_eq_false_iff_not, ← hd]
  refine ⟨Iff.rfl, ?_⟩
  cases hpty : (S.drv d).pty with
  | none => exact absurd hpty hne
  | some side => cases side <;> decide

theorem Ok.counts {o : Nat} {oTty : TtyStruct} (h : Ok S k) (htty : k.tty t = some tty)
    (ho : tty.link = some o) (hoTty : k.tty o = some oTty) :
    tty.count = tty.ttyFiles.length + (if S.isMaster tty.driver then 0 else oTty.ttyFiles.length) ∧
      oTty.count =
        oTty.ttyFiles.length + (if S.isMaster tty.driver then tty.ttyFiles.length else 0) := by
  obtain ⟨oTty', hoTty', hd, _, _, hback, _⟩ := h.link htty ho
  rw [hoTty] at hoTty'
  cases hoTty'
  obtain ⟨hother, hself⟩ := S.slave_iff hd
  have hcount := (h.ttyOk htty).count
  have hcount' := (h.ttyOk hoTty).count
  rw [held_link ho hoTty] at hcount
  rw [held_link hback htty] at hcount'
  cases hm : S.isMaster tty.driver with
  | true =>
    rw [hm] at hother hself
    rw [if_neg fun hslave => Bool.noConfusion (hself.mp hslave)] at hcount
    rw [if_pos (hother.mpr rfl)] at hcount'
    simp only [if_true]
    exact ⟨hcount, hcount'⟩
  | false =>
    rw [hm] at hother hself
    rw [if_pos (hself.mpr rfl)] at hcount
    rw [if_neg fun hslave => Bool.false_ne_true (hother.mp hslave)] at hcount'
    simp only [Bool.false_eq_true, if_false]
    exact ⟨hcount, hcount'⟩

theorem Ok.plain (h : Ok S k) (htty : k.tty t = some tty) (hlink : tty.link = none) :
    (S.drv tty.driver).pty = none := by
  rw [← S.other_none]
  cases hother : (S.drv tty.driver).other with
  | none => rfl
  | some d' =>
    have hpaired := (h.ttyOk htty).paired
    rw [hother, hlink] at hpaired
    exact absurd (hpaired rfl) Bool.false_ne_true

theorem storeIf_run {b : Bool} {p : Option Nat} (hp : b = true → p = some t)
    (htty : k.tty t = some tty) (f : TtyStruct → TtyStruct) :
    (storeIf b p f).run k = some (⟨⟩,
      k.put t (some (if b then f tty else tty))) := by
  rw [storeIf]
  cases b with
  | true => rw [if_pos rfl, if_pos rfl, bind_run (deref_run (hp rfl)), store_run htty]
  | false =>
    rw [if_neg Bool.false_ne_true, if_neg Bool.false_ne_true, Kernel.put, ← htty,
      Function.update_eq_self]
    rfl

theorem storeIf_false_run (p : Option Nat) (f : TtyStruct → TtyStruct) (k : Kernel) :
    (storeIf false p f).run k = some (⟨⟩, k) := rfl

end LinuxConsole.Tty

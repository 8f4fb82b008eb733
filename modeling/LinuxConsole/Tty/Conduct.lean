import Mathlib.Algebra.BigOperators.Group.Finset.Piecewise
import Mathlib.Tactic.Ring
import LinuxConsole.Tty.Seats

/-!
# Who holds a terminal

`Conduct` says what the opens and closes of a line are about: the count of a struct is that of its
files, and on the slave side of a pseudo terminal one more while the master is open, a struct on its
way out has no files, and no struct is there that nobody uses.  A step of the code has to do with
one line, the two sides of a pseudo terminal being one (`Mates`), and leaves the others as they are
(`Apart`).
-/

namespace LinuxConsole.Tty

/-! ### Lines -/

variable (S : Drivers)

/-- The same line of one driver, or of the two of a pseudo terminal. -/
def Mates (p q : Nat × Nat) : Prop := p.2 = q.2 ∧ (p.1 = q.1 ∨ (S.drv p.1).other = some q.1)

variable {S} {k k' : Kernel} {T : List Nat} {p q r : Nat × Nat}

theorem mates_refl (p : Nat × Nat) : Mates S p p := ⟨rfl, .inl rfl⟩

theorem Mates.symm (h : Mates S p q) : Mates S q p :=
  ⟨h.1.symm, h.2.imp Eq.symm S.other_other⟩

theorem Mates.trans (h : Mates S p q) (h' : Mates S q r) : Mates S p r := by
  obtain ⟨hidx, hd⟩ := h
  obtain ⟨hidx', hd'⟩ := h'
  refine ⟨hidx.trans hidx', ?_⟩
  rcases hd with heq | hother
  · rw [heq]
    exact hd'
  · rcases hd' with heq | hother'
    · exact .inr (hother.trans (congrArg some heq))
    · rw [S.other_other hother] at hother'
      exact .inl (Option.some.inj hother')

theorem mates_other {d d' : Nat} (h : (S.drv d).other = some d') (idx : Nat) :
    Mates S (d', idx) (d, idx) := ⟨rfl, .inr (S.other_other h)⟩

/-- The line of a struct. -/
def TtyStruct.slot (tty : TtyStruct) : Nat × Nat := (tty.driver, tty.index)

/-! ### Counts -/

variable (S k)

/-- The files of the master keep the slave open. -/
def held (tty : TtyStruct) : Nat :=
  if (S.drv tty.driver).pty = some .slave then
    (tty.link.bind k.tty).elim 0 fun link => link.ttyFiles.length
  else 0

/-- Somebody has a file on either side, or a last close is under way. -/
def InUse (t : Nat) (tty : TtyStruct) : Prop :=
  tty.ttyFiles ≠ [] ∨ t ∈ k.releasing ∨ ∃ o, tty.link = some o ∧
    (o ∈ k.releasing ∨ ∃ oTty, k.tty o = some oTty ∧ oTty.ttyFiles ≠ [])

/-- **A struct in order.** -/
structure TtyOk (t : Nat) (tty : TtyStruct) : Prop where
  link : tty.link = (S.drv tty.driver).other.bind fun d' => k.ttys (d', tty.index)
  paired : (S.drv tty.driver).other.isSome → tty.link.isSome
  count : tty.count = tty.ttyFiles.length + held S k tty
  single : (S.drv tty.driver).pty = some .master → tty.ttyFiles.length ≤ 1
  nodup : tty.ttyFiles.Nodup
  closing : tty.closing = true → tty.ttyFiles = []
  inUse : InUse k t tty

/-- **All are in order** but for those of the line `but`, and the files and the last closes that are
under way are those of the structs. -/
structure Conduct (but : Option (Nat × Nat)) : Prop where
  each : ∀ {t tty}, k.tty t = some tty → (∀ q, but = some q → ¬Mates S tty.slot q) →
    TtyOk S k t tty
  file : ∀ {f t}, k.privateData f = some t ↔ ∃ tty, k.tty t = some tty ∧ f ∈ tty.ttyFiles
  releasing : ∀ {t}, t ∈ k.releasing → ∃ tty, k.tty t = some tty ∧ tty.closing = true ∧
    ∀ o, tty.link = some o → o ∉ k.releasing ∧
      ∀ oTty, k.tty o = some oTty → oTty.closing = true
  once : k.releasing.Nodup

/-- The lines that are taken for a module, the two sides of a pseudo terminal being one. -/
def linesOf (refcount : Nat → Int) (owner : Nat) : Int :=
  ∑ d ∈ (Finset.range S.total).filter
    (fun d => (S.drv d).owner = owner ∧ (S.drv d).pty ≠ some .slave), refcount d

/-- A driver counts for its module. -/
def counts (d owner : Nat) : Int :=
  if (S.drv d).owner = owner ∧ (S.drv d).pty ≠ some .slave then 1 else 0

/-- The references to the modules are those of the lines, and `more`. -/
def Modules (more : Nat → Int) : Prop :=
  ∀ owner, k.modules owner = linesOf S k.refcount owner + more owner

variable {S k}

theorem linesOf_update {refcount : Nat → Int} {d : Nat} (hd : d < S.total) (c : Int)
    (owner : Nat) : linesOf S (Function.update refcount d (refcount d + c)) owner =
      linesOf S refcount owner + c * counts S d owner := by
  rw [linesOf, linesOf, counts]
  split_ifs with h
  · have hmem : d ∈ (Finset.range S.total).filter
        (fun d => (S.drv d).owner = owner ∧ (S.drv d).pty ≠ some .slave) := by
      rw [Finset.mem_filter, Finset.mem_range]
      exact ⟨hd, h⟩
    rw [Finset.sum_update_of_mem hmem, ← Finset.sum_sdiff (Finset.singleton_subset_iff.mpr hmem),
      Finset.sum_singleton]
    ring
  · rw [mul_zero, add_zero]
    refine Finset.sum_congr rfl fun d' hd' => ?_
    rw [Finset.mem_filter] at hd'
    rw [Function.update_of_ne]
    rintro rfl
    exact h hd'.2

/-! ### The other lines -/

/-- **Only the line `q` is touched.** -/
structure Apart (S : Drivers) (k k' : Kernel) (q : Nat × Nat) : Prop where
  ttys : ∀ {slot}, ¬Mates S slot q → k'.ttys slot = k.ttys slot
  tty : ∀ {t tty}, ¬Mates S tty.slot q → (k'.tty t = some tty ↔ k.tty t = some tty)
  releasing : ∀ {t tty}, k.tty t = some tty → ¬Mates S tty.slot q →
    (t ∈ k'.releasing ↔ t ∈ k.releasing)

theorem Apart.trans {k'' : Kernel} (h : Apart S k k' q) (h' : Apart S k' k'' q) :
    Apart S k k'' q where
  ttys hslot := (h'.ttys hslot).trans (h.ttys hslot)
  tty hslot := (h'.tty hslot).trans (h.tty hslot)
  releasing htty hslot :=
    (h'.releasing ((h.tty hslot).mpr htty) hslot).trans (h.releasing htty hslot)

/-- The other side of a struct has its line. -/
theorem TtyOk.other {t o : Nat} {tty : TtyStruct} (hs : Seats S k T) (h : TtyOk S k t tty)
    (ho : tty.link = some o) : ∃ oTty, k.tty o = some oTty ∧
      (S.drv tty.driver).other = some oTty.driver ∧ oTty.index = tty.index := by
  have hlink := h.link
  rw [ho] at hlink
  obtain ⟨d', hd', hslot⟩ := Option.bind_eq_some_iff.mp hlink.symm
  obtain ⟨oTty, hoTty, hdi⟩ := hs.seat hslot
  obtain ⟨rfl, hidx⟩ := Prod.mk.inj hdi
  exact ⟨oTty, hoTty, hd', hidx⟩

theorem TtyOk.other_mates {t o : Nat} {tty oTty : TtyStruct} (hs : Seats S k T)
    (h : TtyOk S k t tty) (ho : tty.link = some o) (hoTty : k.tty o = some oTty) :
    Mates S oTty.slot tty.slot := by
  obtain ⟨oTty', hoTty', hd', hidx⟩ := h.other hs ho
  rw [hoTty] at hoTty'
  cases hoTty'
  exact ⟨hidx, .inr (S.other_other hd')⟩

/-- **A struct of another line stays in order.** -/
theorem Apart.ttyOk {t : Nat} {tty : TtyStruct} (h : Apart S k k' q) (hs : Seats S k T)
    (htty : k.tty t = some tty) (hok : TtyOk S k t tty) (hq : ¬Mates S tty.slot q) :
    TtyOk S k' t tty := by
  have hlink {o : Nat} (ho : tty.link = some o) :
      ∃ oTty, k.tty o = some oTty ∧ k'.tty o = some oTty ∧ ¬Mates S oTty.slot q := by
    obtain ⟨oTty, hoTty, _⟩ := hok.other hs ho
    have hmates := hok.other_mates hs ho hoTty
    have hne : ¬Mates S oTty.slot q := fun hm => hq (hmates.symm.trans hm)
    exact ⟨oTty, hoTty, (h.tty hne).mpr hoTty, hne⟩
  have hbind : tty.link.bind k'.tty = tty.link.bind k.tty := by
    cases ho : tty.link with
    | none => rfl
    | some o =>
      obtain ⟨oTty, hk, hk', _⟩ := hlink ho
      rw [Option.bind_some, Option.bind_some, hk, hk']
  refine ⟨?_, hok.paired, ?_, hok.single, hok.nodup, hok.closing, ?_⟩
  · rw [hok.link]
    cases hd : (S.drv tty.driver).other with
    | none => rfl
    | some d' =>
      rw [Option.bind_some, Option.bind_some, h.ttys]
      exact fun hm => hq ((mates_other hd tty.index).symm.trans hm)
  · rw [hok.count, held, held, hbind]
  · rcases hok.inUse with hfiles | hreleasing | ⟨o, ho, huse⟩
    · exact .inl hfiles
    · exact .inr (.inl ((h.releasing htty hq).mpr hreleasing))
    · obtain ⟨oTty, hk, hk', hne⟩ := hlink ho
      refine .inr (.inr ⟨o, ho, huse.imp (h.releasing hk hne).mpr ?_⟩)
      rintro ⟨oTty', hoTty', hfiles⟩
      rw [hk] at hoTty'
      cases hoTty'
      exact ⟨oTty, hk', hfiles⟩

/-- The invariant. -/
structure Ok (S : Drivers) (k : Kernel) : Prop where
  seats : Seats S k []
  blocks : Blocks k [] []
  modules : Modules S k fun _ => 0
  conduct : Conduct S k none

theorem Ok.ttyOk {t : Nat} {tty : TtyStruct} (h : Ok S k) (htty : k.tty t = some tty) :
    TtyOk S k t tty := h.conduct.each htty fun _ hq => by cases hq

theorem ok_boot (S : Drivers) : Ok S Kernel.boot := by
  refine ⟨⟨List.nodup_nil, ?_, ?_, ?_, ?_, ?_, ?_⟩, ⟨List.nodup_nil, ?_, ?_, ?_, ?_, ?_⟩, ?_,
    ⟨?_, ?_, ?_, List.nodup_nil⟩⟩
  case refine_6 =>
    intro d
    rw [occupied, Finset.card_eq_zero.mpr]
    · rfl
    · rw [Finset.filter_eq_empty_iff]
      intro i _
      exact Bool.false_ne_true
  case refine_12 =>
    intro owner
    have hzero : linesOf S Kernel.boot.refcount owner = 0 := Finset.sum_eq_zero fun _ _ => rfl
    rw [hzero]
    rfl
  all_goals simp [Kernel.boot]

end LinuxConsole.Tty

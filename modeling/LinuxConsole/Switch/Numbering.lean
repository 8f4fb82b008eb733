import LinuxConsole.Lib.Run
import LinuxConsole.Switch.Kernel

/-!
# How the numbers of consoles are given out

`vt_map_display` gives each VT the numbers from `current_vc` on, puts it on
`vt_list` and allocates its first console.  `vc_allocate` and `find_vc` look a
number up in that list.

The mapping refuses a pool when `current_vc + vc_count - 1` is above
`MAX_NR_CONSOLES`, and `vc_allocate` refuses a number that is `MAX_NR_CONSOLES`
or above.  So a pool may end in number 63, a console that can never exist.
**`numbering_iff`** says that this is all that goes wrong with the numbering.

The pools that switching works on are those of such a list: **`findVc_pools`**.
-/

namespace LinuxConsole.Switch

open Lib (run Along run_iff_along run_invariant)

/-- The fields of `struct vt_struct` about its numbers and its consoles. -/
structure MappedVt where
  vtNum : Nat
  firstVc : Nat
  vcCount : Nat
  fgConsole : Option Nat
  lastConsole : Option Nat
  wantVc : Option Nat
  vcCons : Nat → Option Nat

namespace MappedVt

/-- The number is one of the VT's. -/
def Has (vt : MappedVt) (n : Nat) : Prop := n < vt.firstVc + vt.vcCount ∧ vt.firstVc ≤ n

instance (vt : MappedVt) (n : Nat) : Decidable (vt.Has n) := inferInstanceAs (Decidable (_ ∧ _))

/-- `first_vc` and `vc_count`. -/
def range (vt : MappedVt) : Nat × Nat := (vt.firstVc, vt.vcCount)

end MappedVt

/-- `vc_num` and `display_fg`, the place of the VT in `vt_list`. -/
structure NumberedVc where
  vcNum : Nat
  displayFg : Nat

/-- The globals of `vt.c` about mapped displays, with the consoles behind the
pointers.  `oops` is set when a null pointer is read through. -/
structure Displays where
  currentVc : Nat
  currentVt : Nat
  vtList : List MappedVt
  con : Nat → NumberedVc
  next : Nat
  oops : Bool

/-- What `vt_map_display` does in the end: it returns null, it does not return,
or it returns the description of the display. -/
inductive MapRet
  | null
  | oops
  | desc
  deriving DecidableEq

namespace Displays

variable (d : Displays)

/-- `find_vc`. -/
def findVc (n : Nat) : Option Nat :=
  match d.vtList.find? fun vt => vt.Has n with
  | some vt => vt.vcCons (n - vt.firstVc)
  | none => none

/-- What `vc_allocate` does for the VT at place `i` when it has the memory. -/
def install (i n : Nat) : Displays :=
  let p := d.next
  { d with
    next := p + 1
    con := Function.update d.con p ⟨n, i⟩
    vtList := d.vtList.modify i fun vt =>
      let vt := { vt with vcCons := Function.update vt.vcCons (n - vt.firstVc) (some p) }
      if vt.firstVc = n then { vt with wantVc := some p, fgConsole := some p, lastConsole := some p }
      else vt }

/-- `vc_allocate`; `mem` is whether both allocations succeed. -/
def vcAllocate (mem : Bool) (n : Nat) : Option Nat × Displays :=
  if n ≥ maxNrConsoles then (none, d)
  else
    match d.vtList.findIdx? fun vt => vt.Has n with
    | none => (none, d)
    | some i => if mem then (some d.next, d.install i n) else (none, d)

/-- `vc_disallocate`. -/
def vcDisallocate (p : Nat) : Displays :=
  let c := d.con p
  if c.vcNum > minNrConsoles then
    { d with
      vtList := d.vtList.modify c.displayFg fun vt =>
        { vt with vcCons := Function.update vt.vcCons (c.vcNum - vt.firstVc) none } }
  else d

/-- The VT that is put on the list. -/
def mapped (vcCount : Nat) : MappedVt where
  vtNum := d.currentVt
  firstVc := d.currentVc
  vcCount := vcCount
  fgConsole := none
  lastConsole := none
  wantVc := none
  vcCons := fun _ => none

/-- The VT at the end of the list. -/
def append (vt : MappedVt) : Displays := { d with vtList := d.vtList ++ [vt] }

/-- `vt->vc_cons[0] = p` for the VT at place `i`. -/
def setFirst (i : Nat) (p : Option Nat) : Displays :=
  { d with vtList := d.vtList.modify i fun vt =>
      { vt with vcCons := Function.update vt.vcCons 0 p } }

/-- A read through a null pointer. -/
def crash : Displays := { d with oops := true }

/-- The counters move past a VT. -/
def advance (vcCount : Nat) : Displays :=
  { d with currentVc := d.currentVc + vcCount, currentVt := d.currentVt + 1 }

/-- `vt_map_display` for a VT that is all zeros; `started` is whether
`con_startup` returns a description. -/
def vtMapDisplay (vcCount : Nat) (started mem : Bool) : MapRet × Displays :=
  -- the difference is unsigned: `0 - 1` is above every limit
  if d.currentVc + vcCount - 1 > maxNrConsoles ∨ d.currentVc + vcCount = 0 then (.null, d)
  else if !started then (.null, d)
  else
    let i := d.vtList.length
    let (p, e) := (d.append (d.mapped vcCount)).vcAllocate mem d.currentVc
    let e := e.setFirst i p
    -- `gotoxy` reads through `vt->fg_console`
    match e.vtList[i]? with
    | some vt =>
      if vt.fgConsole = none then (.oops, e.crash) else (.desc, e.advance vcCount)
    | none => (.oops, e.crash)

end Displays

/-- The sizes a pool may have. -/
abbrev PoolSize : Type := { n : Nat // 1 ≤ n ∧ n ≤ maxNrUserConsoles }

/-- What is done with the list: a display is mapped, the console of a number is
allocated, or freed when there is one. -/
inductive DisplayOp
  | map (vcCount : PoolSize) (started mem : Bool)
  | allocate (n : Nat) (mem : Bool)
  | disallocate (n : Nat)

namespace Displays

/-- One operation.  Nothing follows a read through a null pointer. -/
def step (d : Displays) (op : DisplayOp) : Displays :=
  if d.oops then d
  else
    match op with
    | .map vcCount started mem => (d.vtMapDisplay vcCount started mem).2
    | .allocate n mem => (d.vcAllocate mem n).2
    | .disallocate n =>
      match d.findVc n with
      | some p => d.vcDisallocate p
      | none => d

/-- No display is mapped yet. -/
def empty : Displays where
  currentVc := 0
  currentVt := 0
  vtList := []
  con := fun _ => ⟨0, 0⟩
  next := 0
  oops := false

/-- The numbering: no two VTs share a number, every number of a VT is below
`MAX_NR_CONSOLES` and can be allocated, a refused mapping leaves the list and the
counters alone, and `find_vc` finds the console of the number it is asked for. -/
structure Numbered (d : Displays) : Prop where
  apart : d.vtList.Pairwise fun v w => ∀ n, v.Has n → ¬ w.Has n
  below : ∀ v ∈ d.vtList, ∀ n, v.Has n → n < maxNrConsoles ∧ (d.vcAllocate true n).1 ≠ none
  refused : ∀ vcCount started mem, (d.vtMapDisplay vcCount started mem).1 = .null →
    (d.vtMapDisplay vcCount started mem).2 = d
  found : ∀ n p, d.findVc n = some p → (d.con p).vcNum = n

/-- The operation maps a display to a pool that ends in number
`MAX_NR_CONSOLES`. -/
def Overshoots (d : Displays) : DisplayOp → Prop
  | .map vcCount started _ =>
    d.oops = false ∧ started = true ∧ d.currentVc + vcCount = maxNrConsoles + 1
  | _ => False


variable {d : Displays}

/-! ### The ranges on the list -/

/-- The ranges of the VTs on the list. -/
def ranges (d : Displays) : List (Nat × Nat) := d.vtList.map MappedVt.range

theorem map_modify {α β : Type} {f : α → α} {g : α → β} (h : ∀ a, g (f a) = g a) (l : List α)
    (i : Nat) : (l.modify i f).map g = l.map g := by
  induction l generalizing i with
  | nil => rw [List.modify_nil]
  | cons a l ih =>
    cases i with
    | zero => rw [List.modify_zero_cons, List.map_cons, List.map_cons, h]
    | succ i => rw [List.modify_succ_cons, List.map_cons, List.map_cons, ih]

@[simp] theorem ranges_install (i n : Nat) : (d.install i n).ranges = d.ranges := by
  apply map_modify
  intro vt
  dsimp only
  split <;> rfl

@[simp] theorem ranges_vcAllocate (mem : Bool) (n : Nat) :
    (d.vcAllocate mem n).2.ranges = d.ranges := by
  rw [vcAllocate]
  split
  · rfl
  · split
    · rfl
    · split
      · exact ranges_install _ _
      · rfl

@[simp] theorem ranges_vcDisallocate (p : Nat) : (d.vcDisallocate p).ranges = d.ranges := by
  rw [vcDisallocate]
  split
  · apply map_modify
    intro vt
    rfl
  · rfl

@[simp] theorem ranges_setFirst (i : Nat) (p : Option Nat) :
    (d.setFirst i p).ranges = d.ranges := by
  apply map_modify
  intro vt
  rfl

@[simp] theorem ranges_append (vt : MappedVt) :
    (d.append vt).ranges = d.ranges ++ [vt.range] := by
  rw [ranges, append, List.map_append]
  rfl

@[simp] theorem ranges_crash : d.crash.ranges = d.ranges := rfl

@[simp] theorem ranges_advance (vcCount : Nat) : (d.advance vcCount).ranges = d.ranges := rfl

/-! ### The consoles in the slots -/

/-- The consoles of the VT carry its numbers. -/
def Owns (d : Displays) (vt : MappedVt) : Prop :=
  ∀ i p, vt.vcCons i = some p → (d.con p).vcNum = vt.firstVc + i ∧ p < d.next

/-- Every VT's consoles carry its numbers. -/
def Held (d : Displays) : Prop := ∀ vt ∈ d.vtList, d.Owns vt

/-- One slot of a VT is emptied, or filled with a console of the right number. -/
theorem Owns.update {vt : MappedVt} (h : d.Owns vt) {i : Nat} {x : Option Nat}
    (hx : ∀ p, x = some p → (d.con p).vcNum = vt.firstVc + i ∧ p < d.next) :
    d.Owns { vt with vcCons := Function.update vt.vcCons i x } := by
  intro j p hp
  change Function.update vt.vcCons i x j = some p at hp
  by_cases hj : j = i
  · subst hj
    rw [Function.update_self] at hp
    exact hx p hp
  · rw [Function.update_of_ne hj] at hp
    exact h j p hp

theorem Held.modify (h : d.Held) {i : Nat} {f : MappedVt → MappedVt}
    (hf : ∀ vt, d.vtList[i]? = some vt → d.Owns (f vt)) :
    Held { d with vtList := d.vtList.modify i f } := by
  intro vt hvt
  obtain ⟨j, hj⟩ := List.mem_iff_getElem?.mp hvt
  change (d.vtList.modify i f)[j]? = some vt at hj
  by_cases hij : i = j
  · subst hij
    rw [List.getElem?_modify_eq] at hj
    obtain ⟨w, hw, rfl⟩ := Option.map_eq_some_iff.mp hj
    exact hf w hw
  · rw [List.getElem?_modify_ne f _ hij] at hj
    exact h vt (List.mem_of_getElem? hj)

theorem Held.fresh (h : d.Held) (c : NumberedVc) :
    Held { d with next := d.next + 1, con := Function.update d.con d.next c } := by
  intro vt hvt i p hp
  obtain ⟨hnum, hlt⟩ := h vt hvt i p hp
  refine ⟨?_, Nat.lt_succ_of_lt hlt⟩
  change (Function.update d.con d.next c p).vcNum = _
  rw [Function.update_of_ne (Nat.ne_of_lt hlt)]
  exact hnum

theorem Held.install (h : d.Held) {i n : Nat} {vt : MappedVt} (hi : d.vtList[i]? = some vt)
    (hn : vt.Has n) : (d.install i n).Held := by
  refine (h.fresh ⟨n, i⟩).modify ?_
  intro w hw
  obtain rfl : vt = w := Option.some.inj (hi.symm.trans hw)
  have hput : Owns { d with next := d.next + 1, con := Function.update d.con d.next ⟨n, i⟩ }
      { vt with vcCons := Function.update vt.vcCons (n - vt.firstVc) (some d.next) } := by
    refine Owns.update (h.fresh ⟨n, i⟩ vt (List.mem_of_getElem? hi)) ?_
    intro p hp
    obtain rfl : d.next = p := Option.some.inj hp
    refine ⟨?_, Nat.lt_succ_self _⟩
    change (Function.update d.con d.next _ d.next).vcNum = _
    rw [Function.update_self]
    exact (Nat.add_sub_cancel' hn.2).symm
  dsimp only
  split
  · exact hput
  · exact hput

theorem Held.vcAllocate (h : d.Held) (mem : Bool) (n : Nat) : (d.vcAllocate mem n).2.Held := by
  rw [Displays.vcAllocate]
  split
  · exact h
  · split
    · exact h
    · rename_i i hfind
      obtain ⟨hi, hn, _⟩ := List.findIdx?_eq_some_iff_getElem.mp hfind
      split
      · exact h.install (List.getElem?_eq_getElem hi) (of_decide_eq_true hn)
      · exact h

/-- The console that is handed out has the number that was asked for. -/
theorem vcAllocate_some {mem : Bool} {n p : Nat} (h : (d.vcAllocate mem n).1 = some p) :
    ((d.vcAllocate mem n).2.con p).vcNum = n ∧ p < (d.vcAllocate mem n).2.next := by
  rw [vcAllocate] at h ⊢
  split at h
  · cases h
  · rename_i hlow
    rw [if_neg hlow]
    split at h
    · cases h
    · rename_i i hfind
      split at h
      · rename_i hmem
        obtain rfl : d.next = p := Option.some.inj h
        rw [if_pos hmem]
        refine ⟨?_, Nat.lt_succ_self _⟩
        change (Function.update d.con d.next _ d.next).vcNum = n
        rw [Function.update_self]
      · cases h

theorem Held.vcDisallocate (h : d.Held) (p : Nat) : (d.vcDisallocate p).Held := by
  rw [Displays.vcDisallocate]
  split
  · refine h.modify ?_
    intro vt hvt
    refine Owns.update (h vt (List.mem_of_getElem? hvt)) ?_
    intro q hq
    cases hq
  · exact h

/-- The first slot is given what `vc_allocate` returned for the first number. -/
theorem Held.setFirst (h : d.Held) {i : Nat} {x : Option Nat}
    (hx : ∀ vt, d.vtList[i]? = some vt → ∀ p, x = some p →
      (d.con p).vcNum = vt.firstVc ∧ p < d.next) : (d.setFirst i x).Held := by
  refine h.modify ?_
  intro vt hvt
  exact (h vt (List.mem_of_getElem? hvt)).update (hx vt hvt)

theorem Held.append (h : d.Held) {vt : MappedVt} (hvt : d.Owns vt) : (d.append vt).Held := by
  intro w hw
  rcases List.mem_append.mp hw with hw | hw
  · exact h w hw
  · obtain rfl := List.mem_singleton.mp hw
    exact hvt

theorem Held.found (h : d.Held) {n p : Nat} (hp : d.findVc n = some p) :
    (d.con p).vcNum = n := by
  rw [findVc] at hp
  split at hp
  · rename_i vt hfind
    obtain ⟨hnum, _⟩ := h vt (List.mem_of_find?_eq_some hfind) _ _ hp
    have hn : vt.Has n := by simpa using List.find?_some hfind
    rw [hnum, Nat.add_sub_cancel' hn.2]
  · cases hp

/-! ### Mapping a display -/

/-- The state when `vt_map_display` has put the VT on the list and given it its
first console, or has failed to. -/
def listed (d : Displays) (vcCount : Nat) (mem : Bool) : Displays :=
  let d' := d.append (d.mapped vcCount)
  (d'.vcAllocate mem d.currentVc).2.setFirst d.vtList.length (d'.vcAllocate mem d.currentVc).1

@[simp] theorem ranges_listed (vcCount : Nat) (mem : Bool) :
    (d.listed vcCount mem).ranges = d.ranges ++ [(d.currentVc, vcCount)] := by
  rw [listed, ranges_setFirst, ranges_vcAllocate, ranges_append]
  rfl

theorem currentVc_listed (vcCount : Nat) (mem : Bool) :
    (d.listed vcCount mem).currentVc = d.currentVc := by
  simp only [listed, setFirst, vcAllocate, install, append]
  split
  · rfl
  · split
    · rfl
    · split <;> rfl

theorem ranges_getElem? (i : Nat) : d.ranges[i]? = d.vtList[i]?.map MappedVt.range :=
  List.getElem?_map

theorem Held.listed (h : d.Held) (vcCount : Nat) (mem : Bool) : (d.listed vcCount mem).Held := by
  have hmapped : d.Owns (d.mapped vcCount) := by
    intro i p hp
    cases hp
  have happend := h.append hmapped
  refine (happend.vcAllocate mem d.currentVc).setFirst ?_
  intro vt hvt p hp
  -- the VT at this place is the one that was just appended
  have hrange : some vt.range = some (d.currentVc, vcCount) := by
    have hget := ranges_getElem? (d := ((d.append (d.mapped vcCount)).vcAllocate mem d.currentVc).2)
      d.vtList.length
    rw [hvt, ranges_vcAllocate, ranges_append, ranges, List.getElem?_append_right (by simp)] at hget
    simpa [MappedVt.range, mapped] using hget.symm
  have hfirst : vt.firstVc = d.currentVc := congrArg Prod.fst (Option.some.inj hrange)
  rw [hfirst]
  exact vcAllocate_some hp

theorem size_check {vcCount : Nat} (hpos : 1 ≤ vcCount) :
    (d.currentVc + vcCount - 1 > maxNrConsoles ∨ d.currentVc + vcCount = 0) ↔
      maxNrConsoles + 1 < d.currentVc + vcCount := by
  omega

/-- **What a mapping does**: it is refused and changes nothing, or the VT is on
the list and the numbering moves on unless the mapping does not return. -/
theorem vtMapDisplay_cases {vcCount : Nat} (hpos : 1 ≤ vcCount) (started mem : Bool) :
    (d.vtMapDisplay vcCount started mem = (.null, d) ∧
      (started = true → maxNrConsoles + 1 < d.currentVc + vcCount)) ∨
    (started = true ∧ d.currentVc + vcCount ≤ maxNrConsoles + 1 ∧
      (d.vtMapDisplay vcCount started mem = (.oops, (d.listed vcCount mem).crash) ∨
        d.vtMapDisplay vcCount started mem =
          (.desc, (d.listed vcCount mem).advance vcCount))) := by
  rw [vtMapDisplay]
  split
  · rename_i hover
    exact Or.inl ⟨rfl, fun _ => (size_check hpos).mp hover⟩
  · rename_i hfits
    rw [size_check hpos] at hfits
    split
    · rename_i hstarted
      refine Or.inl ⟨rfl, ?_⟩
      intro hs
      rw [hs] at hstarted
      cases hstarted
    · rename_i hstarted
      refine Or.inr ⟨by simpa using hstarted, Nat.le_of_not_lt hfits, ?_⟩
      dsimp only
      split
      · split
        · exact Or.inl rfl
        · exact Or.inr rfl
      · exact Or.inl rfl

theorem vtMapDisplay_null {vcCount : Nat} {started mem : Bool}
    (h : (d.vtMapDisplay vcCount started mem).1 = .null) :
    (d.vtMapDisplay vcCount started mem).2 = d := by
  rw [vtMapDisplay] at h ⊢
  split at h
  · rename_i hover
    rw [if_pos hover]
  · rename_i hfits
    rw [if_neg hfits]
    split at h
    · rename_i hstarted
      rw [if_pos hstarted]
    · dsimp only at h
      split at h
      · split at h
        · cases h
        · cases h
      · cases h

/-! ### The invariant -/

/-- The numbers are given out in order: every range ends before the next one
begins and before `current_vc`, none is empty, and every slot holds a console of
its own number. -/
structure Laid (d : Displays) : Prop where
  ordered : d.ranges.Pairwise fun r s => r.1 + r.2 ≤ s.1
  sized : ∀ r ∈ d.ranges, 1 ≤ r.2 ∧ r.2 ≤ maxNrUserConsoles
  ahead : d.oops = false → ∀ r ∈ d.ranges, r.1 + r.2 ≤ d.currentVc
  held : d.Held

theorem laid_empty : empty.Laid where
  ordered := List.Pairwise.nil
  sized := by intro r hr; cases hr
  ahead := by intro _ r hr; cases hr
  held := by intro vt hvt; cases hvt

/-- An operation that leaves the ranges and the counters alone. -/
theorem Laid.of_ranges {e : Displays} (h : d.Laid) (hr : e.ranges = d.ranges)
    (hc : e.currentVc = d.currentVc) (ho : e.oops = d.oops) (hh : e.Held) : e.Laid where
  ordered := hr ▸ h.ordered
  sized := hr ▸ h.sized
  ahead := by rw [hr, hc, ho]; exact h.ahead
  held := hh

/-- The VT at the end of the list begins where the last one ended. -/
theorem Laid.of_listed {e : Displays} (h : d.Laid) (ho : d.oops = false) {vcCount : PoolSize}
    (hr : e.ranges = d.ranges ++ [(d.currentVc, vcCount.1)]) (hh : e.Held)
    (hahead : e.oops = false → e.currentVc = d.currentVc + vcCount) : e.Laid where
  ordered := by
    rw [hr, List.pairwise_append]
    refine ⟨h.ordered, List.pairwise_singleton _ _, ?_⟩
    intro r hmem s hs
    obtain rfl := List.mem_singleton.mp hs
    exact h.ahead ho r hmem
  sized := by
    intro r hmem
    rw [hr] at hmem
    rcases List.mem_append.mp hmem with hmem | hmem
    · exact h.sized r hmem
    · obtain rfl := List.mem_singleton.mp hmem
      exact vcCount.2
  ahead := by
    intro hoe r hmem
    rw [hahead hoe]
    rw [hr] at hmem
    rcases List.mem_append.mp hmem with hmem | hmem
    · exact Nat.le_add_right_of_le (h.ahead ho r hmem)
    · obtain rfl := List.mem_singleton.mp hmem
      exact Nat.le_refl _
  held := hh

theorem counters_vcAllocate (mem : Bool) (n : Nat) :
    (d.vcAllocate mem n).2.currentVc = d.currentVc ∧ (d.vcAllocate mem n).2.oops = d.oops := by
  rw [vcAllocate]
  split
  · exact ⟨rfl, rfl⟩
  · split
    · exact ⟨rfl, rfl⟩
    · split <;> exact ⟨rfl, rfl⟩

theorem counters_vcDisallocate (p : Nat) :
    (d.vcDisallocate p).currentVc = d.currentVc ∧ (d.vcDisallocate p).oops = d.oops := by
  rw [vcDisallocate]
  split <;> exact ⟨rfl, rfl⟩

/-! ### One operation -/

theorem step_oops (ho : d.oops = true) (op : DisplayOp) : d.step op = d := by
  rw [step.eq_def, if_pos ho]

theorem step_map (ho : d.oops = false) (vcCount : PoolSize) (started mem : Bool) :
    d.step (.map vcCount started mem) = (d.vtMapDisplay vcCount started mem).2 := by
  simp only [step, ho, Bool.false_eq_true, if_false]

theorem step_allocate (ho : d.oops = false) (n : Nat) (mem : Bool) :
    d.step (.allocate n mem) = (d.vcAllocate mem n).2 := by
  simp only [step, ho, Bool.false_eq_true, if_false]

theorem step_disallocate (ho : d.oops = false) (n : Nat) :
    d.step (.disallocate n) = d ∨ ∃ p, d.step (.disallocate n) = d.vcDisallocate p := by
  simp only [step, ho, Bool.false_eq_true, if_false]
  cases d.findVc n with
  | none => exact Or.inl rfl
  | some p => exact Or.inr ⟨p, rfl⟩

theorem Held.crash (h : d.Held) : d.crash.Held := h

theorem Held.advance (h : d.Held) (vcCount : Nat) : (d.advance vcCount).Held := h

/-- The step of one mapping: either the ranges grow by the one at `current_vc`,
which ends no higher than `MAX_NR_CONSOLES`, or nothing happens. -/
theorem Laid.map (h : d.Laid) (ho : d.oops = false) (vcCount : PoolSize) (started mem : Bool) :
    (d.step (.map vcCount started mem)).Laid ∧
      ((d.step (.map vcCount started mem)).ranges = d.ranges ∧
          (started = true → maxNrConsoles + 1 < d.currentVc + vcCount) ∨
        (d.step (.map vcCount started mem)).ranges = d.ranges ++ [(d.currentVc, vcCount.1)] ∧
          started = true ∧ d.currentVc + vcCount ≤ maxNrConsoles + 1) := by
  have hlisted := h.held.listed vcCount.1 mem
  have hranges := ranges_listed (d := d) vcCount.1 mem
  have hcur := currentVc_listed (d := d) vcCount.1 mem
  rw [step_map ho]
  rcases vtMapDisplay_cases vcCount.2.1 started mem with
    ⟨heq, hover⟩ | ⟨hs, hfits, heq | heq⟩
  · rw [heq]
    exact ⟨h, Or.inl ⟨rfl, hover⟩⟩
  · rw [heq]
    generalize d.listed vcCount mem = e at hlisted hranges hcur
    refine ⟨h.of_listed ho (e := e.crash) hranges hlisted.crash ?_,
      Or.inr ⟨hranges, hs, hfits⟩⟩
    intro hfalse
    cases hfalse
  · rw [heq]
    generalize d.listed vcCount mem = e at hlisted hranges hcur
    have hmoved : (e.advance vcCount).currentVc = d.currentVc + vcCount := by
      rw [← hcur]
      rfl
    exact ⟨h.of_listed ho hranges (hlisted.advance _) fun _ => hmoved,
      Or.inr ⟨hranges, hs, hfits⟩⟩

theorem Laid.step (h : d.Laid) (op : DisplayOp) : (d.step op).Laid := by
  by_cases ho : d.oops = true
  · rw [step_oops ho]
    exact h
  · rw [Bool.not_eq_true] at ho
    cases op with
    | map vcCount started mem => exact (h.map ho vcCount started mem).1
    | allocate n mem =>
      rw [step_allocate ho]
      exact h.of_ranges (ranges_vcAllocate _ _) (counters_vcAllocate _ _).1
        (counters_vcAllocate _ _).2 (h.held.vcAllocate _ _)
    | disallocate n =>
      rcases step_disallocate ho n with heq | ⟨p, heq⟩
      · rw [heq]
        exact h
      · rw [heq]
        exact h.of_ranges (ranges_vcDisallocate _) (counters_vcDisallocate _).1
          (counters_vcDisallocate _).2 (h.held.vcDisallocate _)

/-! ### The last number of a pool -/

/-- Every range ends at or below `MAX_NR_CONSOLES`. -/
def Fits (d : Displays) : Prop := ∀ r ∈ d.ranges, r.1 + r.2 ≤ maxNrConsoles

/-- A step keeps the ranges in bounds exactly if it does not overshoot. -/
theorem Laid.fits_step (h : d.Laid) (op : DisplayOp) :
    (d.step op).Fits ↔ d.Fits ∧ ¬ d.Overshoots op := by
  by_cases ho : d.oops = true
  · rw [step_oops ho]
    have hnot : ¬ d.Overshoots op := by
      cases op with
      | map vcCount started mem =>
        intro hover
        rw [hover.1] at ho
        cases ho
      | allocate n mem => exact id
      | disallocate n => exact id
    exact (and_iff_left hnot).symm
  · rw [Bool.not_eq_true] at ho
    cases op with
    | map vcCount started mem =>
      obtain ⟨_, ⟨hr, hover⟩ | ⟨hr, hs, hfits⟩⟩ := h.map ho vcCount started mem
      · rw [Fits, hr]
        refine (and_iff_left ?_).symm
        rintro ⟨_, hs, heq⟩
        exact absurd heq (Nat.ne_of_gt (hover hs))
      · rw [Fits, hr]
        simp only [List.mem_append, List.mem_singleton, or_imp, forall_and, forall_eq]
        refine and_congr_right fun _ => ?_
        constructor
        · rintro hle ⟨_, _, heq⟩
          omega
        · intro hnot
          have hne : d.currentVc + vcCount.1 ≠ maxNrConsoles + 1 := by
            intro heq
            exact hnot ⟨ho, hs, heq⟩
          omega
    | allocate n mem =>
      rw [step_allocate ho, Fits, ranges_vcAllocate]
      exact (and_iff_left id).symm
    | disallocate n =>
      rcases step_disallocate ho n with heq | ⟨p, heq⟩
      · rw [heq]
        exact (and_iff_left id).symm
      · rw [heq, Fits, ranges_vcDisallocate]
        exact (and_iff_left id).symm

/-- A number of a VT can be allocated exactly if it is low enough. -/
theorem vcAllocate_ne_none {vt : MappedVt} (hvt : vt ∈ d.vtList) {n : Nat} (hn : vt.Has n)
    (hlow : n < maxNrConsoles) : (d.vcAllocate true n).1 ≠ none := by
  rw [vcAllocate, if_neg (Nat.not_le_of_lt hlow)]
  split
  · rename_i hnone
    rw [List.findIdx?_eq_none_iff] at hnone
    exact absurd (hnone vt hvt) (by simpa using hn)
  · rw [if_pos rfl]
    exact Option.some_ne_none _

/-- On a list that is laid out in order the numbering is right exactly if every
range fits. -/
theorem Laid.numbered_iff (h : d.Laid) : d.Numbered ↔ d.Fits := by
  constructor
  · intro hnum r hr
    obtain ⟨vt, hvt, rfl⟩ := List.mem_map.mp hr
    obtain ⟨hpos, _⟩ := h.sized _ hr
    have hlast : vt.Has (vt.firstVc + vt.vcCount - 1) := by
      rw [MappedVt.Has]
      simp only [MappedVt.range] at hpos
      omega
    have hlt := (hnum.below vt hvt _ hlast).1
    simp only [MappedVt.range] at hpos ⊢
    omega
  · intro hfits
    refine ⟨?_, ?_, fun _ _ _ => vtMapDisplay_null, fun n p => h.held.found⟩
    · refine (List.pairwise_map.mp h.ordered).imp ?_
      intro v w hvw n hv hw
      exact absurd (Nat.lt_of_lt_of_le hv.1 hvw) (Nat.not_lt_of_le hw.2)
    · intro vt hvt n hn
      have hle : vt.firstVc + vt.vcCount ≤ maxNrConsoles :=
        hfits vt.range (List.mem_map_of_mem hvt)
      have hlow := Nat.lt_of_lt_of_le hn.1 hle
      exact ⟨hlow, vcAllocate_ne_none hvt hn hlow⟩

/-! ### The pools of the mapped displays -/

/-- The pools of the VTs on a list that is laid out in order. -/
def Laid.pools (h : d.Laid) : Pools d.vtList.length where
  firstVc v := (d.vtList.get v).firstVc
  vcCount v := (d.vtList.get v).vcCount
  count_pos v := (h.sized _ (List.mem_map_of_mem (List.get_mem d.vtList v))).1
  count_le v := (h.sized _ (List.mem_map_of_mem (List.get_mem d.vtList v))).2
  apart := by
    have hordered := List.pairwise_iff_get.mp (List.pairwise_map.mp h.ordered)
    intro v w n hv hv' hw hw'
    rcases lt_trichotomy v w with hlt | heq | hgt
    · have hle : (d.vtList.get v).firstVc + (d.vtList.get v).vcCount ≤ (d.vtList.get w).firstVc :=
        hordered v w hlt
      omega
    · exact heq
    · have hle : (d.vtList.get w).firstVc + (d.vtList.get w).vcCount ≤ (d.vtList.get v).firstVc :=
        hordered w v hgt
      omega

/-- **`find_vc` in the pools of a list** is `find_vc` in the list. -/
theorem findVc_pools (h : d.Laid) (k : Kernel d.vtList.length)
    (hk : ∀ v, (k.vt v).vcCons = (d.vtList.get v).vcCons) (n : Nat) :
    k.findVc h.pools n = d.findVc n := by
  have hfind : (d.vtList.find? fun vt => vt.Has n) =
      (Kernel.poolOf h.pools n).map d.vtList.get := by
    conv_lhs => rw [← List.map_get_finRange d.vtList]
    rw [List.find?_map, Kernel.poolOf]
    congr 2
    funext v
    exact decide_eq_decide.mpr and_comm
  rw [Kernel.findVc, findVc, hfind]
  cases Kernel.poolOf h.pools n with
  | none => rfl
  | some v => exact congrFun (hk v) _

end Displays

open Displays

/-- **The numbering is right exactly if no pool overshoots.**  After any sequence
of mappings, allocations and deallocations the VTs' numbers are apart, below
`MAX_NR_CONSOLES`, can be allocated and are found again, exactly if no display
was mapped for which `current_vc + vc_count` was one above `MAX_NR_CONSOLES`. -/
theorem numbering_iff (ops : List DisplayOp) :
    (run step empty ops).Numbered ↔ Along step (fun d op => ¬ d.Overshoots op) empty ops := by
  have hstep : ∀ d op, Laid d → Laid (step d op) := fun _ op h => h.step op
  have hempty : empty.Fits := by
    intro r hr
    cases hr
  rw [(run_invariant hstep laid_empty ops).numbered_iff,
    run_iff_along hstep (fun _ op h => h.fits_step op) ops laid_empty]
  exact and_iff_right hempty

/-- Four displays with sixteen consoles each: the last has number 63, which
cannot be allocated. -/
theorem last_number_lost :
    ¬ (run step empty (List.replicate 4
      (.map ⟨maxNrUserConsoles, by decide, Nat.le_refl _⟩ true true))).Numbered := by
  intro h
  have hmem : (run step empty (List.replicate 4
      (.map ⟨maxNrUserConsoles, by decide, Nat.le_refl _⟩ true true))).vtList[3]?.map
        MappedVt.range = some (48, 16) := by decide
  obtain ⟨vt, hvt, hrange⟩ := Option.map_eq_some_iff.mp hmem
  have hhas : vt.Has 63 := by
    rw [MappedVt.range, Prod.mk.injEq] at hrange
    rw [MappedVt.Has, hrange.1, hrange.2]
    decide
  exact absurd (h.below vt (List.mem_of_getElem? hvt) 63 hhas).1 (by decide)

end LinuxConsole.Switch

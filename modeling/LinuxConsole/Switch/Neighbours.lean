import Mathlib.Data.Set.Basic
import LinuxConsole.Switch.Step

/-!
# The next and the previous console

`fn_inc_console` and `fn_dec_console` walk over the slots of a VT from the
foreground console, go round at one end of the pool and stop at the first slot
that holds a console.  `scanTrace` is their loop again with the indices that it
reads.

The test of the loop stands before the index goes round, so a foreground console
at the slot where the scan goes on is not skipped: alone in the pool it is
requested itself there and nothing is requested elsewhere.  `ReachedFrom` is
what the loop knows when it comes to an index, and **`scanTrace_up`** what it
finds.  Going down is going up in the mirror (`scanTrace_mirror`), and
**`fnScan_neighbours`** says both for the two functions.
-/

namespace LinuxConsole.Switch

/-- **The neighbour of `j` in `A`, going round in the order `r`**: the first
element after `j` or, when there is none, the first of all. -/
def Neighbour {α : Type} (r : α → α → Prop) (A : Set α) (j i : α) : Prop :=
  i ∈ A ∧ ((r j i ∧ ∀ a ∈ A, r j a → ¬ r a i) ∨ ((∀ a ∈ A, ¬ r j a) ∧ ∀ a ∈ A, ¬ r a i))

namespace Kernel

/-- The loop of `scanCons` with the indices that it reads; `none` when its rounds
have run out before the loop has ended. -/
def scanTrace (cons : Nat → Option Nat) (j d edge back : Int) :
    Nat → Int → Option (List Int × Option Nat)
  | 0, _ => none
  | n + 1, i =>
    if i = j then some ([], none)
    else
      let i := if i = edge then back else i
      match cons i.toNat with
      | some p => some ([i], some p)
      | none => (scanTrace cons j d edge back n (i + d)).map fun t => (i :: t.1, t.2)

theorem scanCons_of_trace {cons : Nat → Option Nat} {j d edge back : Int} {n : Nat} {i : Int}
    {t : List Int × Option Nat} (h : scanTrace cons j d edge back n i = some t) :
    scanCons cons j d edge back n i = t.2 := by
  induction n generalizing i t with
  | zero => cases h
  | succ n ih =>
    rw [scanTrace] at h
    rw [scanCons]
    by_cases hij : i = j
    · rw [if_pos hij] at h ⊢
      rw [← Option.some.inj h]
    · rw [if_neg hij] at h ⊢
      dsimp only at h ⊢
      cases hslot : cons (if i = edge then back else i).toNat with
      | some p =>
        rw [hslot] at h
        rw [← Option.some.inj h]
      | none =>
        rw [hslot] at h
        obtain ⟨u, hu, rfl⟩ := Option.map_eq_some_iff.mp h
        have hrest := ih hu
        exact hrest

/-! ### Going up -/

/-- The slots of the pool that hold a console. -/
def allocated (cons : Nat → Option Nat) (n : Nat) : Set Nat :=
  { a | a < n ∧ (cons a).isSome }

/-- **What the loop upwards knows at the index `i` with `m` rounds to go**: before
it has gone round, the slots between `j` and `i` are empty; after that, those
above `j` and below `i`. -/
def ReachedFrom (cons : Nat → Option Nat) (n j m : Nat) (i : Int) : Prop :=
  (j < i ∧ i ≤ n ∧ n + j + 1 < m + i ∧ ∀ a ∈ allocated cons n, j < a → i ≤ a) ∨
    (0 ≤ i ∧ i ≤ j ∧ j < m + i ∧ ∀ a ∈ allocated cons n, a ≤ j ∧ i ≤ a)

/-- What it knows at the slot `a` that it reads. -/
def ReachedSlot (cons : Nat → Option Nat) (n j m a : Nat) : Prop :=
  (j < a ∧ a < n ∧ n + j + 1 < m + a ∧ ∀ b ∈ allocated cons n, j < b → a ≤ b) ∨
    (a ≤ j ∧ j < m + a ∧ ∀ b ∈ allocated cons n, b ≤ j ∧ a ≤ b)

section

variable {cons : Nat → Option Nat} {n j m : Nat}

theorem ReachedFrom.slot {i : Int} (h : ReachedFrom cons n j m i) (hjn : j < n) :
    ∃ a : Nat, (if i = n then 0 else i) = a ∧ ReachedSlot cons n j m a := by
  by_cases hn : i = n
  · refine ⟨0, by rw [if_pos hn]; rfl, .inr ⟨by omega, ?_, fun b hb => ⟨?_, by omega⟩⟩⟩
    · rcases h with ⟨_, _, _, _⟩ | ⟨_, _, _, _⟩ <;> omega
    · have hbn := hb.1
      rcases h with ⟨_, _, _, habove⟩ | ⟨_, _, _, hall⟩
      · by_contra hjb
        have := habove b hb (by omega)
        omega
      · exact (hall b hb).1
  · rw [if_neg hn]
    rcases h with ⟨hj, hin, hm, habove⟩ | ⟨hi, hij, hm, hall⟩
    · refine ⟨i.toNat, by omega, .inl ⟨by omega, by omega, by omega, fun b hb hjb => ?_⟩⟩
      have := habove b hb hjb
      omega
    · refine ⟨i.toNat, by omega, .inr ⟨by omega, by omega, fun b hb => ?_⟩⟩
      have := hall b hb
      omega

theorem ReachedSlot.next {a : Nat} (h : ReachedSlot cons n j (m + 1) a) (hj : (cons j).isSome)
    (ha : cons a = none) : ReachedFrom cons n j m (a + 1) := by
  have hempty : ∀ b ∈ allocated cons n, b ≠ a := by
    intro b hb hba
    have := hb.2
    rw [hba, ha] at this
    cases this
  have haj : a ≠ j := by
    rintro rfl
    rw [ha] at hj
    cases hj
  rcases h with ⟨hja, han, hm, habove⟩ | ⟨haj', hm, hall⟩
  · refine .inl ⟨by omega, by omega, by omega, fun b hb hjb => ?_⟩
    have := habove b hb (by omega)
    have := hempty b hb
    omega
  · refine .inr ⟨by omega, by omega, by omega, fun b hb => ?_⟩
    have := hall b hb
    have := hempty b hb
    omega

theorem ReachedSlot.neighbour {a p : Nat} (h : ReachedSlot cons n j m a) (hjn : j < n)
    (ha : cons a = some p) : Neighbour (· < ·) (allocated cons n) j a := by
  have hsome : (cons a).isSome := by rw [ha]; rfl
  rcases h with ⟨hja, han, _, habove⟩ | ⟨haj, _, hall⟩
  · refine ⟨⟨han, hsome⟩, .inl ⟨hja, fun b hb hjb => ?_⟩⟩
    have := habove b hb hjb
    omega
  · refine ⟨⟨by omega, hsome⟩, .inr ⟨fun b hb => ?_, fun b hb => ?_⟩⟩
    · have := (hall b hb).1
      omega
    · have := (hall b hb).2
      omega

/-- **The loop upwards**: it ends, reads slots of the pool only, and finds the
neighbour upwards or, when there is no console besides that of `j`, nothing. -/
theorem scanTrace_up (hj : (cons j).isSome) (hjn : j < n) {i : Int}
    (h : ReachedFrom cons n j m i) :
    ∃ reads found, scanTrace cons j 1 n 0 m i = some (reads, found) ∧
      (∀ r ∈ reads, 0 ≤ r ∧ r < n) ∧
      ((∃ a p, Neighbour (· < ·) (allocated cons n) j a ∧ cons a = some p ∧ found = some p) ∨
        (allocated cons n = {j} ∧ found = none)) := by
  induction m generalizing i with
  | zero => rcases h with ⟨_, _, _, _⟩ | ⟨_, _, _, _⟩ <;> omega
  | succ m ih =>
    rw [scanTrace]
    by_cases hij : i = j
    · rw [if_pos hij]
      refine ⟨_, _, rfl, by simp, .inr ⟨?_, rfl⟩⟩
      refine Set.eq_singleton_iff_unique_mem.mpr ⟨⟨hjn, hj⟩, fun a ha => ?_⟩
      rcases h with ⟨_, _, _, _⟩ | ⟨_, _, _, hall⟩
      · omega
      · have := hall a ha
        omega
    · obtain ⟨a, hia, hslot⟩ := h.slot hjn
      rw [if_neg hij]
      dsimp only
      rw [hia, Int.toNat_natCast]
      have han : (0 : Int) ≤ a ∧ (a : Int) < n := by
        rcases hslot with ⟨_, _, _, _⟩ | ⟨_, _, _⟩ <;> omega
      cases ha : cons a with
      | some p =>
        refine ⟨_, _, rfl, ?_, .inl ⟨a, p, hslot.neighbour hjn ha, ha, rfl⟩⟩
        intro r hr
        rw [List.mem_singleton.mp hr]
        exact han
      | none =>
        obtain ⟨reads, found, htrace, hreads, hfound⟩ := ih (hslot.next hj ha)
        refine ⟨a :: reads, found, by rw [htrace]; rfl, ?_, hfound⟩
        intro r hr
        rcases List.mem_cons.mp hr with rfl | hr
        · exact han
        · exact hreads r hr

/-! ### Going down -/

/-- The slots in the other order. -/
def mirror (cons : Nat → Option Nat) (n : Nat) (a : Nat) : Option Nat := cons (n - 1 - a)

/-- **Going down is going up in the mirror.** -/
theorem scanTrace_mirror (hjn : j < n) {i : Int} (hi : -1 ≤ i) (hin : i < n) :
    scanTrace cons j (-1) (-1) (n - 1) m i =
      (scanTrace (mirror cons n) ((n - 1 - j : Nat) : Int) 1 n 0 m (n - 1 - i)).map
        fun t => (t.1.map fun r : Int => (n : Int) - 1 - r, t.2) := by
  induction m generalizing i with
  | zero => rfl
  | succ m ih =>
    rw [scanTrace, scanTrace]
    by_cases hij : i = j
    · rw [if_pos hij, if_pos (by omega)]
      rfl
    · have hij' : ¬ (n : Int) - 1 - i = ((n - 1 - j : Nat) : Int) := by omega
      rw [if_neg hij, if_neg hij']
      dsimp only
      obtain ⟨a, ha, ha', han⟩ : ∃ a : Nat, (if i = -1 then (n : Int) - 1 else i) = a ∧
          (if (n : Int) - 1 - i = n then 0 else (n : Int) - 1 - i) = (n - 1 - a : Nat) ∧ a < n := by
        by_cases hedge : i = -1
        · exact ⟨n - 1, by rw [if_pos hedge]; omega, by rw [if_pos (by omega)]; omega, by omega⟩
        · exact ⟨i.toNat, by rw [if_neg hedge]; omega, by rw [if_neg (by omega)]; omega, by omega⟩
      have hmirror : mirror cons n (n - 1 - a) = cons a := by
        rw [mirror, show n - 1 - (n - 1 - a) = a by omega]
      rw [ha, ha', Int.toNat_natCast, Int.toNat_natCast, hmirror]
      cases cons a with
      | some p =>
        rw [Option.map_some, List.map_singleton,
          show (n : Int) - 1 - (n - 1 - a : Nat) = a by omega]
      | none =>
        dsimp only
        rw [show (a : Int) + -1 = a - 1 by omega, ih (by omega) (by omega), Option.map_map,
          Option.map_map, show (n : Int) - 1 - (a - 1) = (n - 1 - a : Nat) + 1 by omega]
        refine congrArg (Option.map · _) (funext fun t => ?_)
        simp only [Function.comp_apply, List.map_cons]
        rw [show (n : Int) - 1 - (n - 1 - a : Nat) = a by omega]

theorem mem_allocated_mirror {a : Nat} (han : a < n) :
    n - 1 - a ∈ allocated (mirror cons n) n ↔ a ∈ allocated cons n := by
  rw [allocated, allocated, Set.mem_ofPred_eq, Set.mem_ofPred_eq, mirror,
    show n - 1 - (n - 1 - a) = a by omega]
  exact and_congr_left' ⟨fun _ => han, fun _ => by omega⟩

theorem neighbour_mirror (hjn : j < n) {a : Nat}
    (h : Neighbour (· < ·) (allocated (mirror cons n) n) (n - 1 - j) a) :
    Neighbour (· > ·) (allocated cons n) j (n - 1 - a) := by
  have han : a < n := h.1.1
  have ha : n - 1 - (n - 1 - a) = a := by omega
  refine ⟨(mem_allocated_mirror (by omega)).mp (by rw [ha]; exact h.1), ?_⟩
  rcases h.2 with ⟨hja, hfirst⟩ | ⟨hnone, hall⟩
  · refine .inl ⟨by omega, fun b hb hjb => ?_⟩
    have := hfirst (n - 1 - b) ((mem_allocated_mirror hb.1).mpr hb) (by have := hb.1; omega)
    have := hb.1
    omega
  · refine .inr ⟨fun b hb => ?_, fun b hb => ?_⟩
    · have := hnone (n - 1 - b) ((mem_allocated_mirror hb.1).mpr hb)
      have := hb.1
      omega
    · have := hall (n - 1 - b) ((mem_allocated_mirror hb.1).mpr hb)
      have := hb.1
      omega

/-- **The loop downwards.** -/
theorem scanTrace_down (hj : (cons j).isSome) (hjn : j < n) (hm : n < m) :
    ∃ reads found, scanTrace cons j (-1) (-1) (n - 1) m (j - 1) = some (reads, found) ∧
      (∀ r ∈ reads, 0 ≤ r ∧ r < n) ∧
      ((∃ a p, Neighbour (· > ·) (allocated cons n) j a ∧ cons a = some p ∧ found = some p) ∨
        (allocated cons n = {j} ∧ found = none)) := by
  have hmirror : (mirror cons n (n - 1 - j)).isSome := by
    rw [mirror, show n - 1 - (n - 1 - j) = j by omega]
    exact hj
  have hstart : ReachedFrom (mirror cons n) n (n - 1 - j) m ((n : Int) - 1 - (j - 1)) := by
    refine .inl ⟨by omega, by omega, by omega, fun a _ hja => by omega⟩
  obtain ⟨reads, found, htrace, hreads, hfound⟩ := scanTrace_up hmirror (by omega) hstart
  refine ⟨reads.map fun r : Int => (n : Int) - 1 - r, found, ?_, ?_, ?_⟩
  · rw [scanTrace_mirror hjn (by omega) (by omega), htrace]
    rfl
  · intro r hr
    obtain ⟨r', hr', rfl⟩ := List.mem_map.mp hr
    have := hreads r' hr'
    omega
  · rcases hfound with ⟨a, p, ha, hp, hfound⟩ | ⟨hall, hfound⟩
    · exact .inl ⟨n - 1 - a, p, neighbour_mirror hjn ha, hp, hfound⟩
    · refine .inr ⟨Set.eq_singleton_iff_unique_mem.mpr ⟨⟨hjn, hj⟩, fun b hb => ?_⟩, hfound⟩
      have hb' := (mem_allocated_mirror hb.1).mpr hb
      rw [hall] at hb'
      have : n - 1 - b = n - 1 - j := hb'
      have := hb.1
      omega

end

/-! ### The two functions -/

variable {N : Nat}

/-- **The next and the previous console.**  With the foreground console in its
slot, both loops end within a round of the pool, read slots of the pool only,
and request the console that is next, or previous, in the order of the numbers;
when the foreground console is alone, itself or nothing. -/
theorem fnScan_neighbours (P : Pools N) (k : Kernel N) (vc : Nat)
    (hhas : P.Has (k.con vc).displayFg
      (k.con (k.vt (k.con vc).displayFg).fgConsole).vcNum)
    (hslot : (k.vt (k.con vc).displayFg).vcCons
        ((k.con (k.vt (k.con vc).displayFg).fgConsole).vcNum - P.firstVc (k.con vc).displayFg) =
      some (k.vt (k.con vc).displayFg).fgConsole) :
    let v := (k.con vc).displayFg
    let n := P.vcCount v
    let cons := (k.vt v).vcCons
    let j := (k.con (k.vt v).fgConsole).vcNum - P.firstVc v
    (∃ reads found, scanTrace cons j 1 n 0 (n + 1) (j + 1) = some (reads, found) ∧
      (∀ r ∈ reads, 0 ≤ r ∧ r < n) ∧
      ((∃ a p, Neighbour (· < ·) (allocated cons n) j a ∧ cons a = some p ∧
          k.fnIncConsole P vc = k.setConsole v (some p)) ∨
        (allocated cons n = {j} ∧ k.fnIncConsole P vc = k))) ∧
    (∃ reads found, scanTrace cons j (-1) (-1) (n - 1) (n + 1) (j - 1) = some (reads, found) ∧
      (∀ r ∈ reads, 0 ≤ r ∧ r < n) ∧
      ((∃ a p, Neighbour (· > ·) (allocated cons n) j a ∧ cons a = some p ∧
          k.fnDecConsole P vc = k.setConsole v (some p)) ∨
        (allocated cons n = {j} ∧ k.fnDecConsole P vc = k))) := by
  intro v n cons j
  have hjn : j < n := by
    have hle : P.firstVc v ≤ (k.con (k.vt v).fgConsole).vcNum := hhas.1
    have hlt : (k.con (k.vt v).fgConsole).vcNum < P.firstVc v + n := hhas.2
    have hj : j = (k.con (k.vt v).fgConsole).vcNum - P.firstVc v := rfl
    omega
  have hj : (cons j).isSome := by
    rw [show cons j = some (k.vt v).fgConsole from hslot]
    rfl
  have hnum : ((k.con (k.vt v).fgConsole).vcNum : Int) - P.firstVc v = j := by
    have hle : P.firstVc v ≤ (k.con (k.vt v).fgConsole).vcNum := hhas.1
    have hj : j = (k.con (k.vt v).fgConsole).vcNum - P.firstVc v := rfl
    omega
  have hstart : ReachedFrom cons n j (n + 1) (j + 1) :=
    .inl ⟨by omega, by omega, by omega, fun a _ hja => by omega⟩
  constructor
  · obtain ⟨reads, found, htrace, hreads, hfound⟩ := scanTrace_up hj hjn hstart
    refine ⟨reads, found, htrace, hreads, ?_⟩
    have hinc : k.fnIncConsole P vc =
        (found.elim k fun p => k.setConsole v (some p)) := by
      rw [fnIncConsole, fnScan, show (k.con (k.vt (k.con vc).displayFg).fgConsole).vcNum -
        (P.firstVc (k.con vc).displayFg : Int) = j from hnum, scanCons_of_trace htrace]
      cases found <;> rfl
    rcases hfound with ⟨a, p, ha, hp, rfl⟩ | ⟨hall, rfl⟩
    · exact .inl ⟨a, p, ha, hp, hinc⟩
    · exact .inr ⟨hall, hinc⟩
  · obtain ⟨reads, found, htrace, hreads, hfound⟩ := scanTrace_down hj hjn (Nat.lt_succ_self n)
    refine ⟨reads, found, htrace, hreads, ?_⟩
    have hdec : k.fnDecConsole P vc =
        (found.elim k fun p => k.setConsole v (some p)) := by
      rw [fnDecConsole, fnScan, show (k.con (k.vt (k.con vc).displayFg).fgConsole).vcNum -
        (P.firstVc (k.con vc).displayFg : Int) = j from hnum,
        show (j : Int) + -1 = j - 1 by omega, scanCons_of_trace htrace]
      cases found <;> rfl
    rcases hfound with ⟨a, p, ha, hp, rfl⟩ | ⟨hall, rfl⟩
    · exact .inl ⟨a, p, ha, hp, hdec⟩
    · exact .inr ⟨hall, hdec⟩

/-- With a second console the scan upwards requests it. -/
theorem fnScan_neighbours_activated :
    (∃ reads found, scanTrace (activated.vt 0).vcCons 0 1 16 0 17 1 = some (reads, found) ∧
      ∀ r ∈ reads, 0 ≤ r ∧ r < 16) ∧
    activated.fnIncConsole onePool 0 = activated.setConsole 0 (some 1) := by
  have hslots : (activated.vt 0).vcCons 1 = some 1 ∧
      ∀ a < 16, ((activated.vt 0).vcCons a).isSome → a ≤ 1 := by
    decide +kernel
  obtain ⟨⟨reads, found, htrace, hreads, hfound⟩, -⟩ :=
    fnScan_neighbours onePool activated 0 (by decide +kernel) (by decide +kernel)
  refine ⟨⟨reads, found, htrace, hreads⟩, ?_⟩
  have hone : 1 ∈ allocated (activated.vt 0).vcCons 16 := ⟨by decide, by rw [hslots.1]; rfl⟩
  rcases hfound with ⟨a, p, ⟨ha, hnext⟩, hp, hcall⟩ | ⟨halone, -⟩
  · have hle := hslots.2 a ha.1 ha.2
    rcases hnext with ⟨hlt, -⟩ | ⟨hlast, -⟩
    · change 0 < a at hlt
      obtain rfl : a = 1 := by omega
      have hslot : (activated.vt 0).vcCons 1 = some p := hp
      obtain rfl : 1 = p := Option.some.inj (hslots.1.symm.trans hslot)
      exact hcall
    · exact absurd (show 0 < 1 from Nat.one_pos) (hlast 1 hone)
  · have hzero : (1 : Nat) ∈ ({0} : Set Nat) := halone ▸ hone
    exact absurd hzero (by simp)

end Kernel

end LinuxConsole.Switch

import Mathlib.Data.List.Basic
import Mathlib.Logic.Function.Basic

/-!
# Cells of varying length laid end to end

`pack c n` is the concatenation of the first `n` cells.  Replacing one cell
leaves what stands before it where it was and moves what stands behind it by the
difference of the two lengths (`pack_update`, `length_pack_update`).

`Holds m o l` says that the memory `m` has the list `l` at address `o`.  A store
that keeps its cells packed is one whose memory holds `pack c n`.
-/

namespace LinuxConsole.Lib

variable {β : Type*}

/-- The first `n` cells. -/
def pack (c : Nat → List β) (n : Nat) : List β := (List.range n).flatMap c

/-- The cells behind `i`, up to `n`. -/
def behind (c : Nat → List β) (i n : Nat) : List β :=
  (List.range' (i + 1) (n - (i + 1))).flatMap c

theorem pack_split (c : Nat → List β) {i n : Nat} (h : i < n) :
    pack c n = pack c i ++ c i ++ behind c i n := by
  unfold pack behind
  obtain ⟨m, rfl⟩ : ∃ m, n = i + 1 + m := ⟨n - (i + 1), by omega⟩
  rw [Nat.add_sub_cancel_left, List.range_eq_range', List.range_eq_range',
    ← List.range'_append_1 (s := 0), List.flatMap_append,
    Nat.zero_add, ← List.range'_append_1 (s := 0) (m := i) (n := 1), List.flatMap_append]
  simp

theorem pack_congr {c c' : Nat → List β} {n : Nat} (h : ∀ k < n, c k = c' k) :
    pack c n = pack c' n :=
  List.flatMap_congr fun k hk => h k (List.mem_range.mp hk)

theorem behind_congr {c c' : Nat → List β} {i n : Nat} (h : ∀ k, i < k → k < n → c k = c' k) :
    behind c i n = behind c' i n := by
  refine List.flatMap_congr fun k hk => ?_
  obtain ⟨h1, h2⟩ := List.mem_range'_1.mp hk
  exact h k (by omega) (by omega)

/-- Nothing stands behind a cell if the cells there are empty. -/
theorem behind_eq_nil {c : Nat → List β} {i n : Nat} (h : ∀ k, i < k → k < n → c k = []) :
    behind c i n = [] := by
  refine List.flatMap_eq_nil_iff.mpr fun k hk => ?_
  obtain ⟨h1, h2⟩ := List.mem_range'_1.mp hk
  exact h k (by omega) (by omega)

/-- **One cell replaced.** -/
theorem pack_update (c : Nat → List β) {i n : Nat} (x : List β) (h : i < n) :
    pack (Function.update c i x) n = pack c i ++ x ++ behind c i n := by
  rw [pack_split _ h, Function.update_self]
  congr 1
  · congr 1
    exact pack_congr fun k hk => Function.update_of_ne (Nat.ne_of_lt hk) x c
  · exact behind_congr fun k hk _ => Function.update_of_ne (Nat.ne_of_gt hk) x c

/-- Where the cells are after one of them was replaced. -/
theorem length_pack_update (c : Nat → List β) (i : Nat) (x : List β) (n : Nat) :
    ((pack (Function.update c i x) n).length : Int) =
      (pack c n).length + if i < n then (x.length : Int) - (c i).length else 0 := by
  split
  · next h =>
    rw [pack_update c x h, pack_split c h]
    simp only [List.length_append]
    omega
  · next h =>
    have hsame : pack (Function.update c i x) n = pack c n :=
      pack_congr fun k hk => Function.update_of_ne (by omega) _ _
    rw [hsame]
    omega

/-- The list stands in memory at address `o`. -/
def Holds (m : Int → β) (o : Int) (l : List β) : Prop :=
  ∀ (n : Nat) (h : n < l.length), m (o + n) = l[n]

variable {m m' : Int → β} {o : Int} {l l' : List β}

@[simp] theorem holds_nil : Holds m o [] := fun n h => absurd h (Nat.not_lt_zero n)

theorem holds_append : Holds m o (l ++ l') ↔ Holds m o l ∧ Holds m (o + l.length) l' := by
  constructor
  · intro h
    refine ⟨fun n hn => ?_, fun n hn => ?_⟩
    · have hget := h n (by rw [List.length_append]; omega)
      rwa [List.getElem_append_left hn] at hget
    · have hget := h (l.length + n) (by rw [List.length_append]; omega)
      rw [List.getElem_append_right (by omega)] at hget
      simp only [Nat.add_sub_cancel_left] at hget
      rw [← hget]
      congr 1
      omega
  · rintro ⟨h1, h2⟩ n hn
    by_cases hlt : n < l.length
    · rw [List.getElem_append_left hlt]
      exact h1 n hlt
    · rw [List.length_append] at hn
      rw [List.getElem_append_right (by omega), ← h2 (n - l.length) (by omega)]
      congr 1
      omega

theorem holds_cons {x : β} : Holds m o (x :: l) ↔ m o = x ∧ Holds m (o + 1) l := by
  rw [← List.singleton_append, holds_append]
  refine and_congr_left fun _ => ⟨fun h => ?_, fun h n hn => ?_⟩
  · have hget := h 0 (by simp)
    simpa using hget
  · obtain rfl : n = 0 := by simpa using hn
    simpa using h

theorem Holds.congr (h : Holds m o l) (hm : ∀ a, o ≤ a → a < o + l.length → m' a = m a) :
    Holds m' o l := by
  intro n hn
  rw [hm (o + n) (by omega) (by omega)]
  exact h n hn

theorem Holds.moved {t : Int} (h : Holds m o l)
    (hm : ∀ n : Nat, n < l.length → m' (t + n) = m (o + n)) : Holds m' t l :=
  fun n hn => (hm n hn).trans (h n hn)

end LinuxConsole.Lib

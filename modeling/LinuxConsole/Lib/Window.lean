import Mathlib.Logic.Basic

/-!
# Windows of a memory

A memory is a function from addresses, and a window is a stretch of it.
`SameWindow mem o mem' o' n` says that the `n` addresses from `o` hold in `mem`
what those from `o'` hold in `mem'`.

The three things that are done to a memory are to copy a stretch (read before it
is written, so that the two may overlap), to fill one and to rewrite one cell by
cell.  For each there are three rules: what the target holds, what is left alone
elsewhere, and that the same thing done in two equal windows keeps them equal.
-/

namespace LinuxConsole.Lib

variable {α : Type*}

/-- The `n` addresses from `s` copied to those from `d`. -/
def copyTo (mem : Nat → α) (d s n : Nat) : Nat → α :=
  fun a => if d ≤ a ∧ a < d + n then mem (s + (a - d)) else mem a

/-- The `n` addresses from `d` replaced by `f` of what they hold. -/
def mapFrom (mem : Nat → α) (d n : Nat) (f : α → α) : Nat → α :=
  fun a => if d ≤ a ∧ a < d + n then f (mem a) else mem a

/-- The `n` addresses from `d` filled with `c`. -/
def fillFrom (mem : Nat → α) (d : Nat) (c : α) (n : Nat) : Nat → α := mapFrom mem d n fun _ => c

/-- The windows of `n` addresses from `o` and from `o'` hold the same. -/
def SameWindow (mem : Nat → α) (o : Nat) (mem' : Nat → α) (o' n : Nat) : Prop :=
  ∀ i < n, mem (o + i) = mem' (o' + i)

/-- The stretches of `n` addresses from `a` and of `k` from `b` have no address in
common. -/
def Apart (a n b k : Nat) : Prop := a + n ≤ b ∨ b + k ≤ a

variable {mem mem' mem'' : Nat → α} {o o' o'' n k : Nat}

/-! ### One address -/

theorem copyTo_at (d s : Nat) {i : Nat} (h : i < n) : copyTo mem d s n (d + i) = mem (s + i) := by
  unfold copyTo
  rw [if_pos ⟨by omega, by omega⟩, Nat.add_sub_cancel_left]

theorem copyTo_of_not {d s a : Nat} (h : ¬ (d ≤ a ∧ a < d + n)) : copyTo mem d s n a = mem a :=
  if_neg h

theorem mapFrom_at (d : Nat) (f : α → α) {i : Nat} (h : i < n) :
    mapFrom mem d n f (d + i) = f (mem (d + i)) := if_pos ⟨by omega, by omega⟩

theorem mapFrom_of_not {d a : Nat} {f : α → α} (h : ¬ (d ≤ a ∧ a < d + n)) :
    mapFrom mem d n f a = mem a := if_neg h

theorem fillFrom_at (d : Nat) (c : α) {i : Nat} (h : i < n) : fillFrom mem d c n (d + i) = c :=
  mapFrom_at d _ h

theorem fillFrom_of_not {d a : Nat} {c : α} (h : ¬ (d ≤ a ∧ a < d + n)) :
    fillFrom mem d c n a = mem a := mapFrom_of_not h

/-! ### Windows -/

namespace SameWindow

theorem refl (mem : Nat → α) (o n : Nat) : SameWindow mem o mem o n := fun _ _ => rfl

theorem symm (h : SameWindow mem o mem' o' n) : SameWindow mem' o' mem o n :=
  fun i hi => (h i hi).symm

theorem trans (h : SameWindow mem o mem' o' n) (h' : SameWindow mem' o' mem'' o'' n) :
    SameWindow mem o mem'' o'' n := fun i hi => (h i hi).trans (h' i hi)

theorem mono (h : SameWindow mem o mem' o' n) (hk : k ≤ n) : SameWindow mem o mem' o' k :=
  fun i hi => h i (by omega)

/-! ### What a copy, a fill and a rewriting leave -/

/-- The target of a copy holds what the source held. -/
theorem copied (mem : Nat → α) (d s n : Nat) : SameWindow (copyTo mem d s n) d mem s n :=
  fun _ hi => copyTo_at d s hi

theorem copyTo_apart (s : Nat) (h : Apart o k o' n) : SameWindow (copyTo mem o s k) o' mem o' n :=
  fun i hi => copyTo_of_not (by rcases h with h | h <;> omega)

theorem mapFrom_apart (f : α → α) (h : Apart o k o' n) :
    SameWindow (mapFrom mem o k f) o' mem o' n :=
  fun i hi => mapFrom_of_not (by rcases h with h | h <;> omega)

theorem fillFrom_apart (c : α) (h : Apart o k o' n) :
    SameWindow (fillFrom mem o c k) o' mem o' n := mapFrom_apart _ h

/-! ### The same in two equal windows -/

theorem copyTo_congr (h : SameWindow mem o mem' o' n) (d s : Nat) (hs : s + k ≤ n) :
    SameWindow (copyTo mem (o + d) (o + s) k) o (copyTo mem' (o' + d) (o' + s) k) o' n := by
  intro i hi
  by_cases hin : d ≤ i ∧ i < d + k
  · obtain ⟨j, rfl⟩ := Nat.exists_eq_add_of_le hin.1
    rw [← Nat.add_assoc, ← Nat.add_assoc, copyTo_at _ _ (by omega), copyTo_at _ _ (by omega),
      Nat.add_assoc, Nat.add_assoc]
    exact h (s + j) (by omega)
  · rw [copyTo_of_not (by omega), copyTo_of_not (by omega)]
    exact h i hi

theorem mapFrom_congr (h : SameWindow mem o mem' o' n) (d k : Nat) (f : α → α) :
    SameWindow (mapFrom mem (o + d) k f) o (mapFrom mem' (o' + d) k f) o' n := by
  intro i hi
  by_cases hin : d ≤ i ∧ i < d + k
  · obtain ⟨j, rfl⟩ := Nat.exists_eq_add_of_le hin.1
    rw [← Nat.add_assoc, ← Nat.add_assoc, mapFrom_at _ _ (by omega), mapFrom_at _ _ (by omega),
      Nat.add_assoc, Nat.add_assoc, h (d + j) hi]
  · rw [mapFrom_of_not (by omega), mapFrom_of_not (by omega)]
    exact h i hi

theorem fillFrom_congr (h : SameWindow mem o mem' o' n) (d : Nat) (c : α) (k : Nat) :
    SameWindow (fillFrom mem (o + d) c k) o (fillFrom mem' (o' + d) c k) o' n :=
  h.mapFrom_congr d k _

end SameWindow

theorem Apart.symm {a b : Nat} (h : Apart a n b k) : Apart b k a n := Or.symm h

/-- What lies inside one of the stretches is apart from the other. -/
theorem Apart.within {a b a' n' : Nat} (h : Apart a n b k) (ha : a ≤ a') (hn : a' + n' ≤ a + n) :
    Apart a' n' b k := by
  rcases h with h | h
  · exact .inl (by omega)
  · exact .inr (by omega)

theorem Apart.mono {a b n' k' : Nat} (h : Apart a n b k) (hn : n' ≤ n) (hk : k' ≤ k) :
    Apart a n' b k' := by
  rcases h with h | h
  · exact .inl (by omega)
  · exact .inr (by omega)

end LinuxConsole.Lib

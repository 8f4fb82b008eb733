import Mathlib.Order.Basic
import Mathlib.Data.Int.Order.Basic

/-!
# Positions in a ring, and a view that snaps to the ends

The addresses below `n` form a ring.  It is cut at `cut`: the position of an address is how far it is
behind the cut, and **`ringPos_ringAddr`** says that positions and addresses are inverse.

A view moves between the positions 0 and `top`.  `snap` puts a position that is out of this range, or
within a margin of one of its ends, to that end.
-/

namespace LinuxConsole.Lib

/-- The position of an address in the ring. -/
def ringPos (n cut a : Nat) : Nat := (a + n - cut) % n

/-- The address of a position. -/
def ringAddr (n cut p : Nat) : Nat := (p + cut) % n

variable {n cut : Nat}

theorem ringAddr_lt (hn : 0 < n) (p : Nat) : ringAddr n cut p < n := Nat.mod_lt _ hn

theorem ringAddr_of_lt {p : Nat} (h : p + cut < n) : ringAddr n cut p = p + cut :=
  Nat.mod_eq_of_lt h

theorem ringAddr_of_le {p : Nat} (h : n ≤ p + cut) (hp : p < n) (hcut : cut < n) :
    ringAddr n cut p = p + cut - n := by
  rw [ringAddr, Nat.mod_eq_sub_mod h]
  exact Nat.mod_eq_of_lt (by omega)

theorem ringPos_of_le {a : Nat} (h : cut ≤ a) (ha : a < n) : ringPos n cut a = a - cut := by
  rw [ringPos, Nat.mod_eq_sub_mod (by omega)]
  rw [show a + n - cut - n = a - cut by omega]
  exact Nat.mod_eq_of_lt (by omega)

theorem ringPos_of_lt {a : Nat} (h : a < cut) (hcut : cut < n) : ringPos n cut a = a + n - cut :=
  Nat.mod_eq_of_lt (by omega)

/-- **The position of the address of a position.** -/
theorem ringPos_ringAddr {p : Nat} (hp : p < n) (hcut : cut < n) :
    ringPos n cut (ringAddr n cut p) = p := by
  by_cases hwrap : p + cut < n
  · rw [ringAddr_of_lt hwrap, ringPos_of_le (Nat.le_add_left cut p) hwrap, Nat.add_sub_cancel]
  · have hle := Nat.le_of_not_lt hwrap
    rw [ringAddr_of_le hle hp hcut, ringPos_of_lt (by omega) hcut]
    omega

/-- **The address of the position of an address.** -/
theorem ringAddr_ringPos {a : Nat} (ha : a < n) (hcut : cut < n) :
    ringAddr n cut (ringPos n cut a) = a := by
  by_cases hbehind : cut ≤ a
  · rw [ringPos_of_le hbehind ha, ringAddr_of_lt (by omega), Nat.sub_add_cancel hbehind]
  · have hlt := Nat.lt_of_not_le hbehind
    rw [ringPos_of_lt hlt hcut, ringAddr_of_le (by omega) (by omega) hcut]
    omega

/-! ### Snapping -/

/-- Within the margin of 0 the position is 0, and within the margin of the top it is the top. -/
def snap (margin top x : Int) : Int :=
  let p := if x < margin then 0 else x
  if p > top - margin then top else p

variable {margin top x : Int}

theorem snap_nonneg (hmargin : 0 ≤ margin) (hroom : 2 * margin ≤ top) : 0 ≤ snap margin top x := by
  rw [snap]
  split_ifs <;> omega

theorem snap_le (hmargin : 0 ≤ margin) (hroom : 2 * margin ≤ top) : snap margin top x ≤ top := by
  rw [snap]
  split_ifs <;> omega

theorem snap_of_mem (hlow : margin ≤ x) (hhigh : x ≤ top - margin) : snap margin top x = x := by
  rw [snap]
  split_ifs <;> omega

theorem snap_eq_or (margin top x : Int) :
    snap margin top x = 0 ∨ snap margin top x = top ∨
      snap margin top x = x ∧ margin ≤ x ∧ x ≤ top - margin := by
  rw [snap]
  split_ifs <;> omega

/-- **A view that does not stand still.**  From a place below the top the view gets nearer to it, or
to it, exactly if it is asked to leave the margin of 0 and to go on, or to come near the top. -/
theorem snap_advances {place : Int} (hmargin : 0 ≤ margin) (hroom : 2 * margin ≤ top)
    (hplace : 0 ≤ place) (hbelow : place ≤ top) :
    (place < snap margin top x ∨ snap margin top x = top) ↔
      top = 0 ∨ margin ≤ x ∧ (place < x ∨ top - margin < x ∨ x = top) := by
  rw [snap]
  split_ifs <;> omega

end LinuxConsole.Lib

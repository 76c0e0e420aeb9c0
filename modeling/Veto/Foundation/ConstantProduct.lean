import Mathlib.Algebra.Order.Floor.Div
import Mathlib.Tactic.Ring

/-!
# A constant-product pool over whole units

A pool that holds `x` of one token and `y` of another pays, for `a` of the first, the most
that leaves the product of its reserves no smaller: `swapOut`, rounded down.  What it keeps
is its reserve at the new price, rounded up.
-/

namespace Veto.Foundation

/-- What a pool of `x` against `y` pays for `a`. -/
def swapOut (x y a : Nat) : Nat := a * y / (x + a)

theorem swapOut_le (x y a : Nat) : swapOut x y a ≤ y := by
  apply Nat.div_le_of_le_mul
  exact Nat.mul_le_mul_right y (Nat.le_add_left a x)

/-- The payment and the reserve kept, rounded up, add up to the reserve before. -/
theorem swapOut_eq_sub_ceilDiv {x a : Nat} (h : 0 < x + a) (y : Nat) :
    swapOut x y a = y - x * y ⌈/⌉ (x + a) := by
  have hpaid : (x + a) * swapOut x y a ≤ a * y := Nat.mul_div_le _ _
  have hnext : a * y < (x + a) * (swapOut x y a + 1) := Nat.lt_mul_div_succ _ h
  have hkept : x * y ≤ (x + a) * (x * y ⌈/⌉ (x + a)) := (ceilDiv_le_iff_le_mul h).mp le_rfl
  have hle := swapOut_le x y a
  have hsplit : (x + a) * (y - swapOut x y a) + (x + a) * swapOut x y a = x * y + a * y :=
    calc (x + a) * (y - swapOut x y a) + (x + a) * swapOut x y a
        = (x + a) * (y - swapOut x y a + swapOut x y a) := (Nat.mul_add _ _ _).symm
      _ = (x + a) * y := by rw [Nat.sub_add_cancel hle]
      _ = x * y + a * y := Nat.add_mul _ _ _
  have hceil : x * y ⌈/⌉ (x + a) ≤ y - swapOut x y a := by
    rw [ceilDiv_le_iff_le_mul h]
    omega
  have hfloor : y < swapOut x y a + 1 + x * y ⌈/⌉ (x + a) := by
    apply Nat.lt_of_mul_lt_mul_left (a := x + a)
    calc (x + a) * y = x * y + a * y := Nat.add_mul _ _ _
      _ < (x + a) * (x * y ⌈/⌉ (x + a)) + (x + a) * (swapOut x y a + 1) := by omega
      _ = (x + a) * (swapOut x y a + 1 + x * y ⌈/⌉ (x + a)) := by ring
  omega

end Veto.Foundation

import Mathlib.Data.Nat.Log
import Mathlib.Tactic.Common
import Mathlib.Tactic.Ring

/-!
# Natural numbers as doubles

A natural number that arithmetic on JavaScript numbers gives: the nearest one with 53 binary
digits, of two equally near the even one.  Numbers below `2 ^ 53` are exact, and so are their
products with powers of two.
-/

namespace Veto.Foundation

/-- `Number.MAX_SAFE_INTEGER`. -/
def MAX_SAFE_INTEGER : Nat := 2 ^ 53 - 1

/-- The double nearest to `n`. -/
def roundNumber (n : Nat) : Nat :=
  if n < 2 ^ 53 then n else
    let unit := 2 ^ (n.log2 - 52)
    let digits := n / unit
    let rest := n % unit
    if 2 * rest < unit ∨ (2 * rest = unit ∧ digits % 2 = 0) then digits * unit
    else (digits + 1) * unit

variable {n m k : Nat}

theorem roundNumber_small (h : n < 2 ^ 53) : roundNumber n = n := if_pos h

/-- Rounding keeps a power of two as a lower bound. -/
theorem pow_le_roundNumber (h : 2 ^ k ≤ n) : 2 ^ k ≤ roundNumber n := by
  unfold roundNumber
  split
  · exact h
  · rename_i hlarge
    have hne : n ≠ 0 := by
      have := Nat.two_pow_pos k
      omega
    have hfloor : 2 ^ k ≤ n / 2 ^ (n.log2 - 52) * 2 ^ (n.log2 - 52) := by
      rcases Nat.le_total (n.log2 - 52) k with hle | hle
      · have hquot : 2 ^ (k - (n.log2 - 52)) ≤ n / 2 ^ (n.log2 - 52) := by
          rw [Nat.le_div_iff_mul_le (Nat.two_pow_pos _), ← Nat.pow_add, Nat.sub_add_cancel hle]
          exact h
        calc 2 ^ k = 2 ^ (k - (n.log2 - 52)) * 2 ^ (n.log2 - 52) := by
              rw [← Nat.pow_add, Nat.sub_add_cancel hle]
          _ ≤ n / 2 ^ (n.log2 - 52) * 2 ^ (n.log2 - 52) := Nat.mul_le_mul_right _ hquot
      · have hunit : 2 ^ (n.log2 - 52) ≤ n :=
          (Nat.pow_le_pow_right (by decide) (Nat.sub_le _ _)).trans (Nat.log2_self_le hne)
        have hone : 1 ≤ n / 2 ^ (n.log2 - 52) :=
          (Nat.one_le_div_iff (Nat.two_pow_pos _)).mpr hunit
        calc 2 ^ k ≤ 1 * 2 ^ (n.log2 - 52) := by
              rw [one_mul]
              exact Nat.pow_le_pow_right (by decide) hle
          _ ≤ n / 2 ^ (n.log2 - 52) * 2 ^ (n.log2 - 52) := Nat.mul_le_mul_right _ hone
    dsimp only
    split
    · exact hfloor
    · exact hfloor.trans (Nat.mul_le_mul_right _ (Nat.le_succ _))

/-- A number of 53 binary digits times a power of two is exact. -/
theorem roundNumber_mul_pow (h : m < 2 ^ 53) : roundNumber (m * 2 ^ k) = m * 2 ^ k := by
  unfold roundNumber
  split
  · rfl
  · rename_i hlarge
    have hm : m ≠ 0 := by
      rintro rfl
      simp at hlarge
    have hne : m * 2 ^ k ≠ 0 := Nat.mul_ne_zero hm (Nat.two_pow_pos k).ne'
    have hlog : (m * 2 ^ k).log2 < 53 + k := by
      rw [Nat.log2_lt hne, Nat.pow_add]
      exact Nat.mul_lt_mul_of_pos_right h (Nat.two_pow_pos k)
    have hdvd : 2 ^ ((m * 2 ^ k).log2 - 52) ∣ m * 2 ^ k :=
      Nat.dvd_mul_left_of_dvd (Nat.pow_dvd_pow 2 (by omega)) m
    dsimp only
    rw [if_pos (Or.inl (by rw [Nat.mod_eq_zero_of_dvd hdvd]; exact Nat.two_pow_pos _)),
      Nat.div_mul_cancel hdvd]

end Veto.Foundation

import Veto.Foundation.Json
import Veto.Foundation.JsNumber
import Mathlib.Data.Int.Log
import Mathlib.Data.Rat.Floor
import Mathlib.Tactic.Linarith
import Mathlib.Tactic.FieldSimp

/-!
# Doubles

The double that a decimal numeral is read as, and the numeral that a whole number is written as:
the shortest one that is read as the same number.
-/

namespace Veto.Foundation

/-- A JavaScript number.  The two zeros are one. -/
inductive JsNumber
  | nan
  | infinite (negative : Bool)
  | finite (value : ℚ)
  deriving DecidableEq

/-- The nearest whole number, of two equally near the even one. -/
def roundHalfEven (x : ℚ) : ℤ :=
  if x - ⌊x⌋ < 1 / 2 ∨ (x - ⌊x⌋ = 1 / 2 ∧ ⌊x⌋ % 2 = 0) then ⌊x⌋ else ⌊x⌋ + 1

/-- The distance of the doubles around a number. -/
def doubleUnit (q : ℚ) : ℚ := 2 ^ max (Int.log 2 q - 52) (-1074)

/-- The nearest double. -/
def nearestDouble (q : ℚ) : JsNumber :=
  let value := roundHalfEven (|q| / doubleUnit |q|) * doubleUnit |q|
  if 2 ^ 1024 ≤ value then .infinite (q < 0)
  else .finite (if q < 0 then -value else value)

/-- `Number(n)` of a whole number. -/
def toNumber (n : Int) : Int := if n < 0 then -(roundNumber n.natAbs : Int) else roundNumber n.natAbs

/-- The two multiples of a power of ten around a number, the nearer one first, of two equally near
the one with the even digit. -/
def decimalsAround (n drop : Nat) : List Nat :=
  let unit := 10 ^ drop
  let low := n / unit * unit
  if 2 * (n % unit) < unit ∨ (2 * (n % unit) = unit ∧ n / unit % 2 = 0) then [low, low + unit]
  else [low + unit, low]

/-- With as few digits as possible, the number that is read as `n`. -/
def shortest (n : Nat) : (drop : Nat) → Nat
  | 0 => n
  | drop + 1 => ((decimalsAround n (drop + 1)).find? fun m => roundNumber m = n).getD (shortest n drop)

/-- What is written for a whole number. -/
def writtenNumber (n : Int) : Int :=
  let m := shortest n.natAbs (Nat.toDigits 10 n.natAbs).length
  if n < 0 then -(m : Int) else m

/-- `String(n)` of a number that is whole, with at most 21 digits. -/
def numberText (n : Int) : Text := numeral (writtenNumber n)

/-- The number, when `Number.isSafeInteger` holds of it. -/
def JsNumber.safeInteger : JsNumber → Option Int
  | .finite value => if value.den = 1 ∧ value.num.natAbs ≤ MAX_SAFE_INTEGER then some value.num else none
  | _ => none

/-! ## Rounding -/

section Rounding

variable {n m : Nat}

theorem roundHalfEven_int (n : ℤ) : roundHalfEven n = n := by
  unfold roundHalfEven
  rw [Int.floor_intCast, sub_self]
  exact if_pos (.inl (by norm_num))

/-- The number of units is rounded as the remainder of a division says. -/
theorem roundHalfEven_div {unit : Nat} (hunit : 0 < unit) :
    roundHalfEven ((n : ℚ) / unit) =
      (if 2 * (n % unit) < unit ∨ (2 * (n % unit) = unit ∧ n / unit % 2 = 0) then n / unit
        else n / unit + 1 : ℕ) := by
  have hpos : (0 : ℚ) < unit := by exact_mod_cast hunit
  have hfloor : ⌊(n : ℚ) / unit⌋ = (n / unit : ℕ) := Rat.floor_natCast_div_natCast n unit
  have hrest : (n : ℚ) / unit - (n / unit : ℕ) = (n % unit : ℕ) / unit := by
    have hsplit : (n : ℚ) = unit * (n / unit : ℕ) + (n % unit : ℕ) := by
      exact_mod_cast (Nat.div_add_mod n unit).symm
    rw [eq_div_iff hpos.ne', sub_mul, div_mul_cancel₀ _ hpos.ne']
    linarith
  have hlt : (n % unit : ℕ) / (unit : ℚ) < 1 / 2 ↔ 2 * (n % unit) < unit := by
    rw [div_lt_div_iff₀ hpos (by norm_num)]
    constructor
    · intro h
      have h' : ((n % unit : ℕ) : ℚ) * 2 < unit := by linarith
      have : (n % unit) * 2 < unit := by exact_mod_cast h'
      omega
    · intro h
      have h' : (n % unit) * 2 < unit := by omega
      have : ((n % unit : ℕ) : ℚ) * 2 < unit := by exact_mod_cast h'
      linarith
  have heq : (n % unit : ℕ) / (unit : ℚ) = 1 / 2 ↔ 2 * (n % unit) = unit := by
    rw [div_eq_div_iff hpos.ne' (by norm_num)]
    constructor
    · intro h
      have h' : ((n % unit : ℕ) : ℚ) * 2 = unit := by linarith
      have : (n % unit) * 2 = unit := by exact_mod_cast h'
      omega
    · intro h
      have h' : (n % unit) * 2 = unit := by omega
      have : ((n % unit : ℕ) : ℚ) * 2 = unit := by exact_mod_cast h'
      linarith
  have heven : ((n / unit : ℕ) : ℤ) % 2 = 0 ↔ n / unit % 2 = 0 := by omega
  unfold roundHalfEven
  rw [hfloor, Int.cast_natCast, hrest]
  simp only [hlt, heq, heven]
  split <;> push_cast <;> rfl

theorem log_natCast (n : Nat) : Int.log 2 (n : ℚ) = n.log2 := by
  rw [Int.log_natCast, Nat.log2_eq_log_two]

/-- Of a natural number below the largest doubles, the nearest double is `roundNumber`. -/
theorem nearest_natCast (h : n < 2 ^ 1023) : roundHalfEven ((n : ℚ) / doubleUnit n) * doubleUnit n =
    (roundNumber n : ℚ) := by
  unfold doubleUnit
  rw [log_natCast]
  unfold roundNumber
  by_cases hsmall : n < 2 ^ 53
  · rw [if_pos hsmall]
    have hlog : n.log2 ≤ 52 := by
      by_cases hn : n = 0
      · rw [hn]; decide
      · exact Nat.lt_succ_iff.mp ((Nat.log2_lt hn).mpr hsmall)
    obtain ⟨k, hk⟩ : ∃ k : ℕ, max ((n.log2 : ℤ) - 52) (-1074) = -(k : ℤ) :=
      ⟨(-(max ((n.log2 : ℤ) - 52) (-1074))).toNat, by omega⟩
    have hwhole : (n : ℚ) / 2 ^ (-(k : ℤ)) = ((n * 2 ^ k : ℕ) : ℤ) := by
      rw [zpow_neg, div_inv_eq_mul, zpow_natCast]
      push_cast
      rfl
    rw [hk, hwhole, roundHalfEven_int, zpow_neg, zpow_natCast]
    push_cast
    rw [mul_assoc, mul_inv_cancel₀ (by positivity), mul_one]
  · rw [if_neg hsmall]
    have hlog : 53 ≤ n.log2 := (Nat.le_log2 (by omega)).mpr (by omega)
    have hunit : (2 : ℚ) ^ max ((n.log2 : ℤ) - 52) (-1074) = ((2 ^ (n.log2 - 52) : ℕ) : ℚ) := by
      have hmax : max ((n.log2 : ℤ) - 52) (-1074) = ((n.log2 - 52 : ℕ) : ℤ) := by omega
      rw [hmax, zpow_natCast]
      push_cast
      rfl
    rw [hunit, roundHalfEven_div (Nat.two_pow_pos _)]
    dsimp only
    split <;> push_cast <;> rfl

/-- A rounded number has 53 binary digits, or is a power of two. -/
theorem roundNumber_digits (n : Nat) : ∃ m k, m ≤ 2 ^ 53 ∧ roundNumber n = m * 2 ^ k := by
  unfold roundNumber
  by_cases hsmall : n < 2 ^ 53
  · rw [if_pos hsmall]
    exact ⟨n, 0, hsmall.le, by rw [pow_zero, mul_one]⟩
  · rw [if_neg hsmall]
    have hlog : 53 ≤ n.log2 := (Nat.le_log2 (by omega)).mpr (by omega)
    have hdigits : n / 2 ^ (n.log2 - 52) < 2 ^ 53 := by
      rw [Nat.div_lt_iff_lt_mul (Nat.two_pow_pos _), ← Nat.pow_add]
      have heq : 53 + (n.log2 - 52) = n.log2 + 1 := by omega
      rw [heq]
      exact Nat.lt_log2_self
    dsimp only
    split
    · exact ⟨_, _, hdigits.le, rfl⟩
    · exact ⟨_, _, hdigits, rfl⟩

/-- What is rounded is a double. -/
theorem roundNumber_idem (n : Nat) : roundNumber (roundNumber n) = roundNumber n := by
  obtain ⟨m, k, hm, heq⟩ := roundNumber_digits n
  rw [heq]
  rcases hm.lt_or_eq with hlt | rfl
  · exact roundNumber_mul_pow hlt
  · have hone : 2 ^ 53 * 2 ^ k = 1 * 2 ^ (53 + k) := by rw [Nat.pow_add, one_mul]
    rw [hone]
    exact roundNumber_mul_pow (by decide)

theorem roundNumber_le (n : Nat) : roundNumber n ≤ 2 * n := by
  unfold roundNumber
  by_cases hsmall : n < 2 ^ 53
  · rw [if_pos hsmall]
    omega
  · rw [if_neg hsmall]
    have hle : n / 2 ^ (n.log2 - 52) * 2 ^ (n.log2 - 52) ≤ n := Nat.div_mul_le_self _ _
    have hunit : 2 ^ (n.log2 - 52) ≤ n :=
      (Nat.pow_le_pow_right (by decide) (Nat.sub_le _ _)).trans (Nat.log2_self_le (by omega))
    dsimp only
    split
    · omega
    · rw [Nat.succ_mul]
      omega

theorem natAbs_toNumber (n : Int) : (toNumber n).natAbs = roundNumber n.natAbs := by
  unfold toNumber
  split
  · rw [Int.natAbs_neg, Int.natAbs_natCast]
  · exact Int.natAbs_natCast _

/-- A whole number is read as the double that it is converted to. -/
theorem nearestDouble_int {n : Int} (h : n.natAbs < 2 ^ 1023) :
    nearestDouble n = .finite (toNumber n) := by
  have habs : |(n : ℚ)| = (n.natAbs : ℚ) := by
    rw [← Int.cast_abs, Int.abs_eq_natAbs, Int.cast_natCast]
  have hle : ((roundNumber n.natAbs : ℕ) : ℚ) < 2 ^ 1024 := by
    have hlt : roundNumber n.natAbs < 2 ^ 1024 := by
      have hdouble : 2 ^ 1024 = 2 * 2 ^ 1023 := by rw [← Nat.pow_succ']
      have := roundNumber_le n.natAbs
      omega
    exact_mod_cast hlt
  unfold nearestDouble
  simp only [habs, nearest_natCast h]
  rw [if_neg (not_le.mpr hle)]
  unfold toNumber
  by_cases hneg : n < 0
  · rw [if_pos (by exact_mod_cast hneg), if_pos hneg]
    push_cast
    rfl
  · rw [if_neg (by exact_mod_cast hneg), if_neg hneg]
    push_cast
    rfl

theorem toNumber_small {n : Int} (h : n.natAbs ≤ MAX_SAFE_INTEGER) : toNumber n = n := by
  have hlt : n.natAbs < 2 ^ 53 := Nat.lt_of_le_of_lt h (by decide)
  unfold toNumber
  rw [roundNumber_small hlt]
  split <;> omega

theorem toNumber_idem (n : Int) : toNumber (toNumber n) = toNumber n := by
  have habs := natAbs_toNumber n
  have hagain : roundNumber (toNumber n).natAbs = (toNumber n).natAbs := by
    rw [habs, roundNumber_idem]
  unfold toNumber at habs hagain ⊢
  rw [hagain]
  split <;> omega

/-- A number from `2 ^ 53` on stays there. -/
theorem toNumber_large {n : Int} (h : MAX_SAFE_INTEGER < n.natAbs) :
    MAX_SAFE_INTEGER < (toNumber n).natAbs := by
  rw [natAbs_toNumber]
  exact pow_le_roundNumber (k := 53) h

end Rounding

/-! ## Numerals -/

section Numerals

variable {n m drop : Nat}

/-- What is found for a number is rounded to it. -/
theorem roundNumber_shortest (h : roundNumber n = n) (drop : Nat) :
    roundNumber (shortest n drop) = n := by
  induction drop with
  | zero => exact h
  | succ drop ih =>
      rw [shortest]
      cases hfind : (decimalsAround n (drop + 1)).find? fun m => roundNumber m = n with
      | none => exact ih
      | some m =>
          have hfound := List.find?_some hfind
          exact of_decide_eq_true hfound

/-- A number of 53 binary digits is written as it is. -/
theorem shortest_small (h : n < 2 ^ 53) (drop : Nat) : shortest n drop = n := by
  have hround := roundNumber_shortest (roundNumber_small h) drop
  have hlt : shortest n drop < 2 ^ 53 := by
    by_contra hlarge
    have := pow_le_roundNumber (k := 53) (not_lt.mp hlarge)
    omega
  rwa [roundNumber_small hlt] at hround

theorem toNumber_writtenNumber {n : Int} (h : toNumber n = n) : toNumber (writtenNumber n) = n := by
  have hround : roundNumber n.natAbs = n.natAbs := by rw [← natAbs_toNumber, h]
  have hshort := roundNumber_shortest hround (Nat.toDigits 10 n.natAbs).length
  unfold writtenNumber
  dsimp only
  by_cases hneg : n < 0
  · rw [if_pos hneg]
    unfold toNumber
    rw [Int.natAbs_neg, Int.natAbs_natCast, hshort]
    split
    · omega
    · rename_i hzero
      have hnil : shortest n.natAbs (Nat.toDigits 10 n.natAbs).length = 0 := by omega
      rw [hnil] at hshort
      have : roundNumber 0 = 0 := roundNumber_small (by decide)
      omega
  · rw [if_neg hneg]
    unfold toNumber
    rw [if_neg (by omega), Int.natAbs_natCast, hshort]
    omega

theorem writtenNumber_small {n : Int} (h : n.natAbs ≤ MAX_SAFE_INTEGER) : writtenNumber n = n := by
  have hlt : n.natAbs < 2 ^ 53 := Nat.lt_of_le_of_lt h (by decide)
  unfold writtenNumber
  rw [shortest_small hlt]
  dsimp only
  split <;> omega

theorem safeInteger_int (n : Int) : (JsNumber.finite n).safeInteger =
    if n.natAbs ≤ MAX_SAFE_INTEGER then some n else none := by
  unfold JsNumber.safeInteger
  simp

end Numerals

end Veto.Foundation

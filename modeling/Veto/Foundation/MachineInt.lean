import Mathlib.Tactic.Ring

/-!
# Checked and saturating machine arithmetic

Fixed-width values are the `UInt64`, `UInt32` and `Int64` of the core library.
Their `+` wraps, so the operations that check or saturate are defined here and
read back over `Nat` and `Int`, where `omega` does the rest.
-/

namespace Veto.Foundation

/-- Addition of unsigned words that reports an overflow. -/
def checkedAdd (a b : UInt64) : Option UInt64 :=
  if a.toNat + b.toNat < 2 ^ 64 then some (a + b) else none

def checkedSub (a b : UInt64) : Option UInt64 :=
  if b ≤ a then some (a - b) else none

def checkedMul (a b : UInt64) : Option UInt64 :=
  if a.toNat * b.toNat < 2 ^ 64 then some (a * b) else none

/-- Addition of unsigned words that stops at the largest one. -/
def saturatingAdd (a b : UInt64) : UInt64 :=
  if a.toNat + b.toNat < 2 ^ 64 then a + b else .ofNat (2 ^ 64 - 1)

def saturatingSub (a b : UInt64) : UInt64 :=
  if b ≤ a then a - b else 0

/-- Successor of a 32-bit counter that stops at the largest one. -/
def saturatingSucc (n : UInt32) : UInt32 :=
  if n.toNat + 1 < 2 ^ 32 then n + 1 else n

def saturatingSucc8 (n : UInt8) : UInt8 :=
  if n.toNat + 1 < 2 ^ 8 then n + 1 else n

def checkedAddI64 (a b : Int64) : Option Int64 :=
  if -2 ^ 63 ≤ a.toInt + b.toInt ∧ a.toInt + b.toInt < 2 ^ 63 then some (a + b) else none

/-! A 128-bit word is a natural number below `2 ^ 128`. -/

def checkedAdd128 (a b : Nat) : Option Nat :=
  if a + b < 2 ^ 128 then some (a + b) else none

def checkedMul128 (a b : Nat) : Option Nat :=
  if a * b < 2 ^ 128 then some (a * b) else none

def saturatingAdd128 (a b : Nat) : Nat := min (2 ^ 128 - 1) (a + b)

def saturatingMul128 (a b : Nat) : Nat := min (2 ^ 128 - 1) (a * b)

theorem checkedAdd_eq_some {a b c : UInt64} :
    checkedAdd a b = some c ↔ c.toNat = a.toNat + b.toNat := by
  unfold checkedAdd
  have hc : c.toNat < 2 ^ 64 := c.toNat_lt
  by_cases h : a.toNat + b.toNat < 2 ^ 64
  · have hsum : (a + b).toNat = a.toNat + b.toNat := by
      rw [UInt64.toNat_add]
      exact Nat.mod_eq_of_lt h
    rw [if_pos h, Option.some.injEq, ← UInt64.toNat_inj, hsum]
    exact eq_comm
  · rw [if_neg h]
    constructor
    · intro hnone
      cases hnone
    · intro heq
      omega

theorem checkedSub_eq_some {a b c : UInt64} :
    checkedSub a b = some c ↔ a.toNat = b.toNat + c.toNat := by
  unfold checkedSub
  by_cases h : b ≤ a
  · have hsub : (a - b).toNat = a.toNat - b.toNat := UInt64.toNat_sub_of_le a b h
    rw [UInt64.le_iff_toNat_le] at h
    rw [if_pos (by rwa [UInt64.le_iff_toNat_le]), Option.some.injEq, ← UInt64.toNat_inj, hsub]
    omega
  · rw [if_neg h]
    rw [UInt64.le_iff_toNat_le] at h
    constructor
    · intro hnone
      cases hnone
    · intro heq
      omega

theorem checkedMul_eq_some {a b c : UInt64} :
    checkedMul a b = some c ↔ c.toNat = a.toNat * b.toNat := by
  unfold checkedMul
  have hc : c.toNat < 2 ^ 64 := c.toNat_lt
  by_cases h : a.toNat * b.toNat < 2 ^ 64
  · have hmul : (a * b).toNat = a.toNat * b.toNat := by
      rw [UInt64.toNat_mul]
      exact Nat.mod_eq_of_lt h
    rw [if_pos h, Option.some.injEq, ← UInt64.toNat_inj, hmul]
    exact eq_comm
  · rw [if_neg h]
    constructor
    · intro hnone
      cases hnone
    · intro heq
      omega

theorem toNat_saturatingAdd (a b : UInt64) :
    (saturatingAdd a b).toNat = min (2 ^ 64 - 1) (a.toNat + b.toNat) := by
  unfold saturatingAdd
  by_cases h : a.toNat + b.toNat < 2 ^ 64
  · rw [if_pos h, UInt64.toNat_add, Nat.mod_eq_of_lt h]
    omega
  · rw [if_neg h, UInt64.toNat_ofNat_of_lt' (by decide)]
    omega

theorem toNat_saturatingSub (a b : UInt64) : (saturatingSub a b).toNat = a.toNat - b.toNat := by
  unfold saturatingSub
  by_cases h : b ≤ a
  · rw [if_pos h]
    exact UInt64.toNat_sub_of_le a b h
  · rw [if_neg h]
    rw [UInt64.le_iff_toNat_le] at h
    show 0 = a.toNat - b.toNat
    omega

/-- A positive amount fits what is left of a limit when it fits the limit. -/
theorem le_saturatingSub_iff {limit used amount : UInt64} (hpos : amount ≠ 0) :
    amount ≤ saturatingSub limit used ↔
      ∃ total, checkedAdd used amount = some total ∧ total ≤ limit := by
  have hlimit := limit.toNat_lt
  have hpos : amount.toNat ≠ 0 := fun h => hpos (UInt64.toNat_inj.mp h)
  rw [UInt64.le_iff_toNat_le, toNat_saturatingSub]
  constructor
  · intro hroom
    have hfits : used.toNat + amount.toNat < 2 ^ 64 := by omega
    refine ⟨.ofNat (used.toNat + amount.toNat), ?_, ?_⟩
    · rw [checkedAdd_eq_some, UInt64.toNat_ofNat_of_lt' hfits]
    · rw [UInt64.le_iff_toNat_le, UInt64.toNat_ofNat_of_lt' hfits]
      omega
  · rintro ⟨total, htotal, hfits⟩
    rw [checkedAdd_eq_some] at htotal
    rw [UInt64.le_iff_toNat_le] at hfits
    omega

theorem le_max_iff_of_words {a b c : UInt64} : a ≤ max b c ↔ a ≤ b ∨ a ≤ c := by
  have hmax : max b c = if b ≤ c then c else b := rfl
  rw [hmax]
  simp only [UInt64.le_iff_toNat_le]
  split <;> omega

theorem checkedAddI64_eq_some {a b c : Int64} :
    checkedAddI64 a b = some c ↔ c.toInt = a.toInt + b.toInt := by
  unfold checkedAddI64
  have hlow : -2 ^ 63 ≤ c.toInt := c.le_toInt
  have hhigh : c.toInt < 2 ^ 63 := c.toInt_lt
  by_cases h : -2 ^ 63 ≤ a.toInt + b.toInt ∧ a.toInt + b.toInt < 2 ^ 63
  · have hsum : (a + b).toInt = a.toInt + b.toInt := by
      rw [Int64.toInt_add]
      exact Int.bmod_eq_of_le (by omega) (by omega)
    rw [if_pos h, Option.some.injEq, ← Int64.toInt_inj, hsum]
    exact eq_comm
  · rw [if_neg h]
    constructor
    · intro hnone
      cases hnone
    · intro heq
      omega

end Veto.Foundation

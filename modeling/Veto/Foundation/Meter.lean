import Mathlib.Algebra.BigOperators.Group.List.Basic
import Mathlib.Tactic.Ring

/-!
# Metered spending

A meter counts what was spent against a cap and remembers the nonce of its last
payment.  `Metered` ties the three numbers to the payments made so far, latest
first.  A payment above the last nonce that fits under the cap keeps it, and
from it no two payments share a nonce.
-/

namespace Veto.Foundation

variable {ρ : Type} {amount nonce : ρ → Nat} {payments : List ρ} {cap spent last : Nat}

/-- The meter agrees with the payments made so far, latest first. -/
structure Metered (amount nonce : ρ → Nat) (payments : List ρ) (cap spent last : Nat) : Prop where
  capped : spent ≤ cap
  total : spent = (payments.map amount).sum
  increasing : payments.Pairwise fun later earlier => nonce earlier < nonce later
  latest : last = (payments.map nonce).headD 0

namespace Metered

theorem start : Metered amount nonce [] cap 0 0 := by
  constructor
  · exact Nat.zero_le cap
  · rfl
  · exact .nil
  · rfl

theorem nonce_le (h : Metered amount nonce payments cap spent last) {p : ρ} (hp : p ∈ payments) :
    nonce p ≤ last := by
  rw [h.latest]
  cases payments with
  | nil => cases hp
  | cons newest older =>
      show nonce p ≤ nonce newest
      rcases List.mem_cons.mp hp with rfl | hp
      · exact Nat.le_refl _
      · exact Nat.le_of_lt ((List.pairwise_cons.mp h.increasing).1 p hp)

/-- A payment above the last nonce that fits under the cap. -/
theorem pay (h : Metered amount nonce payments cap spent last) {p : ρ} {spent' : Nat}
    (fresh : last < nonce p) (total : spent' = spent + amount p) (room : spent' ≤ cap) :
    Metered amount nonce (p :: payments) cap spent' (nonce p) := by
  constructor
  · exact room
  · rw [List.map_cons, List.sum_cons, total, h.total, Nat.add_comm]
  · rw [List.pairwise_cons]
    refine ⟨fun q hq => ?_, h.increasing⟩
    exact Nat.lt_of_le_of_lt (h.nonce_le hq) fresh
  · rfl

/-- Each nonce names one payment. -/
theorem filter_nonce (h : Metered amount nonce payments cap spent last) {p : ρ}
    (hp : p ∈ payments) : payments.filter (fun q => nonce q = nonce p) = [p] := by
  have hincreasing := h.increasing
  clear h
  induction payments with
  | nil => cases hp
  | cons newest older ih =>
      obtain ⟨habove, hincreasing⟩ := List.pairwise_cons.mp hincreasing
      rcases List.mem_cons.mp hp with rfl | hp
      · have hnone : older.filter (fun q => nonce q = nonce p) = [] := by
          rw [List.filter_eq_nil_iff]
          intro q hq heq
          have hlt := habove q hq
          rw [decide_eq_true_eq] at heq
          omega
        rw [List.filter_cons_of_pos (by simp), hnone]
      · have hlt := habove p hp
        rw [List.filter_cons_of_neg (by simp; omega)]
        exact ih hp hincreasing

/-! ### Over 64-bit words -/

section Words

variable {amount nonce : ρ → UInt64} {cap spent last : UInt64}

theorem le_cap (h : Metered (fun p => (amount p).toNat) (fun p => (nonce p).toNat) payments
    cap.toNat spent.toNat last.toNat) : spent ≤ cap :=
  UInt64.le_iff_toNat_le.mpr h.capped

theorem pairwise_nonce (h : Metered (fun p => (amount p).toNat) (fun p => (nonce p).toNat)
    payments cap.toNat spent.toNat last.toNat) : (payments.map nonce).Pairwise (· > ·) := by
  rw [List.pairwise_map]
  exact h.increasing.imp UInt64.lt_iff_toNat_lt.mpr

theorem last_eq (h : Metered (fun p => (amount p).toNat) (fun p => (nonce p).toNat) payments
    cap.toNat spent.toNat last.toNat) : last = (payments.map nonce).headD 0 := by
  have hlatest := h.latest
  rw [← UInt64.toNat_inj, hlatest]
  cases payments <;> rfl

end Words

end Metered

end Veto.Foundation

import Veto.Foundation.MachineInt

/-!
# A one-shot permission

One slot holds the nonce of a payment and the amount it may reach above the ordinary ceiling.
The nonce zero stands for an empty slot.  A payment empties the slot of its own nonce.
-/

namespace Veto.Foundation

/-- What the slot holds. -/
def pendingSlot (slotNonce slotAmount : UInt64) : Option (UInt64 × UInt64) :=
  if slotNonce = 0 then none else some (slotNonce, slotAmount)

variable {slotNonce slotAmount nonce amount ceiling : UInt64}

theorem pendingSlot_eq_some :
    pendingSlot slotNonce slotAmount = some (nonce, amount) ↔
      slotNonce ≠ 0 ∧ slotNonce = nonce ∧ slotAmount = amount := by
  unfold pendingSlot
  by_cases h : slotNonce = 0
  · simp [h]
  · simp [h]

/-- A payment empties the slot of its nonce and leaves any other. -/
theorem pendingSlot_pay {pending : UInt64 × UInt64}
    (h : pendingSlot (if slotNonce = nonce then 0 else slotNonce)
      (if slotNonce = nonce then 0 else slotAmount) = some pending) :
    pendingSlot slotNonce slotAmount = some pending := by
  by_cases hused : slotNonce = nonce
  · rw [if_pos hused, pendingSlot, if_pos rfl] at h
    cases h
  · rw [if_neg hused, if_neg hused] at h
    exact h

/-- A payment below the ceiling of its nonce is below the ordinary one or has the slot. -/
theorem le_slotCeiling
    (h : amount ≤ if slotNonce ≠ 0 ∧ slotNonce = nonce then max ceiling slotAmount else ceiling) :
    amount ≤ ceiling ∨
      ∃ granted, pendingSlot slotNonce slotAmount = some (nonce, granted) ∧ amount ≤ granted := by
  by_cases hmatch : slotNonce ≠ 0 ∧ slotNonce = nonce
  · rw [if_pos hmatch, le_max_iff_of_words] at h
    have hpending : pendingSlot slotNonce slotAmount = some (nonce, slotAmount) :=
      pendingSlot_eq_some.mpr ⟨hmatch.1, hmatch.2, rfl⟩
    exact h.imp_right fun hle => ⟨slotAmount, hpending, hle⟩
  · rw [if_neg hmatch] at h
    exact .inl h

/-- A suggestion that is made where the ceiling alone is in the way is exact when nothing
behind the ceiling is in the way either, provided a grant clears only such payments. -/
theorem suggestion_iff {overCeiling restAllows : Prop} {clears : UInt64 → Prop}
    (amount : UInt64) {suggestion : UInt64}
    (hmade : overCeiling → suggestion = amount ∧ amount ≠ 0)
    (honly : suggestion ≠ 0 → overCeiling)
    (hneeds : ∀ granted, clears granted → overCeiling ∧ restAllows)
    (hclears : overCeiling → restAllows → clears amount) :
    ((suggestion ≠ 0 ↔ clears suggestion) ↔ (overCeiling → restAllows)) ∧
      (suggestion = 0 → ∀ granted, ¬ clears granted) := by
  refine ⟨⟨?_, ?_⟩, ?_⟩
  · intro hexact hover
    obtain ⟨hsame, hpositive⟩ := hmade hover
    have hclear := hexact.mp (by rw [hsame]; exact hpositive)
    exact (hneeds _ hclear).2
  · intro hrest
    constructor
    · intro hpositive
      have hover := honly hpositive
      rw [(hmade hover).1]
      exact hclears hover (hrest hover)
    · intro hclear
      obtain ⟨hsame, hpositive⟩ := hmade (hneeds _ hclear).1
      rw [hsame]
      exact hpositive
  · intro hzero granted hclear
    obtain ⟨hsame, hpositive⟩ := hmade (hneeds granted hclear).1
    exact hpositive (hsame ▸ hzero)

end Veto.Foundation

import Veto.Mandate.Charge
import Veto.Mandate.Override

/-!
# What a refusal suggests

A refused charge records the one-shot override that would clear it.  The program suggests one
whenever the per-payment maximum is the first rule the charge breaks and the cap has room; the
rules behind the maximum, and the transfer itself, it does not look at.
-/

namespace Veto

open Foundation

/-- The per-payment maximum is the first rule the charge breaks, and the cap has room for it. -/
structure Charge.OverMaximum (s : MandateState) (ctx : ChargeCtx) (amount nonce : UInt64)
    (now : Int64) : Prop where
  active : s.mandate.status = .active
  unexpired : now < s.mandate.expiresAt
  positive : amount ≠ 0
  fresh : s.mandate.lastNonce < nonce
  merchant : ctx.destination.owner = s.mandate.merchant
  above : s.mandate.effectivePerTxMax nonce < amount
  room : amount ≤ s.mandate.remaining

/-- What the rules behind the per-payment maximum and the transfer ask of the accounts. -/
structure Charge.Payable (accts : Charge) (s : MandateState) (ctx : ChargeCtx)
    (amount : UInt64) : Prop where
  delegated : ctx.source.delegate = some s.key
  funded : amount ≤ ctx.source.delegatedAmount ∧ amount ≤ ctx.source.amount
  thawed : ctx.source.isFrozen = false ∧ ctx.destination.isFrozen = false
  coherent : accts.Coherent s ctx.source

/-- A request for a charge. -/
structure ChargeRequest where
  signers : List Pubkey
  accts : Charge
  amount : UInt64
  nonce : UInt64

def ChargeRequest.submit (r : ChargeRequest) (rt : Runtime) (now : Int64) (s : MandateState) :
    MandateResult :=
  charge rt now r.signers r.accts r.amount r.nonce s

/-- Once the owner has granted an override of `granted` for the nonce, the same request at the
same clock reading is paid. -/
def MandateState.ClearedBy (rt : Runtime) (now : Int64) (r : ChargeRequest) (s : MandateState)
    (granted : UInt64) : Prop :=
  ∃ owners action o₁ s₁ o₂ s₂, grantOverride rt now owners action granted r.nonce s = .ok (o₁, s₁) ∧
    r.submit rt now s₁ = .ok (o₂, s₂) ∧ ∃ e ∈ o₂.records, e.kind = .paid

/-! ## The policy around the maximum -/

section Policy

variable {m : Mandate} {key : Pubkey} {source destination : TokenAccount}
  {amount nonce : UInt64} {now : Int64}

theorem evaluate_eq_overPerTxMax_iff :
    evaluate m key source destination amount nonce now = .overPerTxMax ↔
      m.status = .active ∧ now < m.expiresAt ∧ amount ≠ 0 ∧ m.lastNonce < nonce ∧
      destination.owner = m.merchant ∧ m.effectivePerTxMax nonce < amount := by
  unfold evaluate
  simp only [ite_eq_iff, reduceCtorEq, and_false, false_or, or_false, and_true, not_not,
    Int64.not_le, UInt64.not_le, ne_eq]

end Policy

section Charge

variable {rt : Runtime} {now : Int64} {signers : List Pubkey} {accts : Charge}
  {amount nonce : UInt64} {s s' : MandateState} {o : MandateOutput} {ctx : ChargeCtx}

/-- The state after a refusal. -/
def MandateState.refused (s : MandateState) (reason : Reason) (entry : Entry) : MandateState :=
  { s with mandate := s.mandate.refuse reason, ledger := s.ledger.record entry }

/-- The state after a grant. -/
def MandateState.granted (s : MandateState) (now : Int64) (amount nonce : UInt64) : MandateState :=
  { s with
    mandate := s.mandate.grant amount nonce
    ledger := s.ledger.record (overrideEntry now s.mandate.merchant amount nonce) }

/-- When a grant goes through, and what it leaves. -/
theorem grantOverride_ok_iff {owners : List Pubkey} {action : OwnerAction} :
    (∃ o, grantOverride rt now owners action amount nonce s = .ok (o, s')) ↔
      (∃ source, action.load rt owners s = .ok source) ∧ nonce ≠ 0 ∧ 0 < amount ∧
      s.mandate.status = .active ∧ s.mandate.lastNonce < nonce ∧ amount ≤ s.mandate.remaining ∧
      s' = s.granted now amount nonce := by
  unfold grantOverride
  simp only [↓require_bind_ok_iff, bind_ok_iff]
  constructor
  · rintro ⟨o, source, hload, named, positive, active, fresh, capped, h⟩
    cases h
    exact ⟨⟨source, hload⟩, named, positive, active, fresh, capped, rfl⟩
  · rintro ⟨⟨source, hload⟩, named, positive, active, fresh, capped, rfl⟩
    exact ⟨_, source, hload, named, positive, active, fresh, capped, rfl⟩

/-- The owner can name the accounts of a grant wherever a charge can be submitted. -/
theorem ownerAction_load (hload : accts.load rt signers s = .ok ctx) :
    ∃ action source, OwnerAction.load action rt [s.mandate.owner] s = .ok source := by
  unfold Charge.load at hload
  simp only [↓signer_bind_ok_iff, ↓require_bind_ok_iff, bind_ok_iff] at hload
  obtain ⟨-, -, -, hnamed, -, source, hsource, -⟩ := hload
  let action : OwnerAction :=
    { owner := s.mandate.owner, ledger := (rt.pda.find (ledgerSeeds s.key)).1,
      source := s.mandate.source, tokenProgram := splTokenId }
  have hinterface : s.world.interfaceToken action.source = .ok source := by
    rw [← hsource, ← hnamed]
  refine ⟨action, source, ?_⟩
  unfold OwnerAction.load tokenInterface
  simp only [↓signer_bind_ok_iff, ↓require_bind_ok_iff, bind_ok_iff]
  exact ⟨List.mem_singleton_self _, rfl, rfl, rfl, source, hinterface, .inl rfl, rfl⟩

/-- What a charge records is what the policy says. -/
theorem charge_recorded (hload : accts.load rt signers s = .ok ctx)
    (h : charge rt now signers accts amount nonce s = .ok (o, s')) :
    let reason := evaluate s.mandate s.key ctx.source ctx.destination amount nonce now
    (reason = .ok → o.records = [paidEntry now accts.destination amount nonce]) ∧
    (reason ≠ .ok → ∃ entry, entry = refusedEntry now accts.destination amount nonce
        (suggestedOverride s.mandate reason amount) reason ∧
      o.records = [entry] ∧ s' = s.refused reason entry) := by
  intro reason
  unfold charge at h
  rw [hload, ok_bind] at h
  obtain ⟨expected, -, h⟩ := bind_ok_iff.mp h
  obtain ⟨-, h⟩ := require_bind_ok_iff.mp h
  constructor
  · intro hok
    rw [if_pos hok] at h
    obtain ⟨w, -, h⟩ := bind_ok_iff.mp h
    obtain ⟨spent, -, h⟩ := bind_ok_iff.mp h
    cases h
    rfl
  · intro hbroken
    rw [if_neg hbroken] at h
    cases h
    exact ⟨_, rfl, rfl, rfl⟩

theorem Charge.OverMaximum.reason (h : OverMaximum s ctx amount nonce now) :
    evaluate s.mandate s.key ctx.source ctx.destination amount nonce now = .overPerTxMax :=
  evaluate_eq_overPerTxMax_iff.mpr
    ⟨h.active, h.unexpired, h.positive, h.fresh, h.merchant, h.above⟩

/-- A suggestion is the amount of a charge that breaks the maximum first, or zero. -/
theorem Charge.OverMaximum.suggested (h : Charge.OverMaximum s ctx amount nonce now) :
    suggestedOverride s.mandate
      (evaluate s.mandate s.key ctx.source ctx.destination amount nonce now) amount = amount :=
  if_pos ⟨h.reason, h.room⟩

theorem Charge.overMaximum_of_suggested
    (h : suggestedOverride s.mandate
      (evaluate s.mandate s.key ctx.source ctx.destination amount nonce now) amount ≠ 0) :
    Charge.OverMaximum s ctx amount nonce now := by
  unfold suggestedOverride at h
  rw [ite_ne_right_iff] at h
  obtain ⟨⟨hreason, room⟩, -⟩ := h
  obtain ⟨active, unexpired, positive, fresh, merchant, above⟩ :=
    evaluate_eq_overPerTxMax_iff.mp hreason
  exact ⟨active, unexpired, positive, fresh, merchant, above, room⟩

end Charge

/-! ## Clearing a refusal -/

section Clearing

variable {rt : Runtime} {now : Int64} {r : ChargeRequest} {s : MandateState} {ctx : ChargeCtx}
  {reason : Reason} {entry : Entry} {granted : UInt64}

theorem Mandate.active_of_refuse {m : Mandate} (h : (m.refuse reason).status = .active) :
    m.status = .active := by
  unfold Mandate.refuse at h
  by_cases hexpired : reason = .expired ∧ m.status = .active
  · exact hexpired.2
  · simp only [if_neg hexpired] at h
    exact h

/-- An override clears only what breaks the maximum first, and only if the rest is in order. -/
theorem MandateState.ClearedBy.payable (htoken : rt.token.DecidesTransfers)
    (hload : r.accts.load rt r.signers s = .ok ctx)
    (hfit : r.accts.source ≠ r.accts.destination →
      ctx.source.amount.toNat + ctx.destination.amount.toNat < 2 ^ 64)
    (hbroken : evaluate s.mandate s.key ctx.source ctx.destination r.amount r.nonce now ≠ .ok)
    (h : (s.refused reason entry).ClearedBy rt now r granted) :
    Charge.OverMaximum s ctx r.amount r.nonce now ∧ r.accts.Payable s ctx r.amount := by
  obtain ⟨owners, action, o₁, s₁, o₂, s₂, hgrant, hcharge, e, he, hkind⟩ := h
  obtain ⟨-, -, -, -, -, -, rfl⟩ := grantOverride_ok_iff.mp ⟨o₁, hgrant⟩
  have hload' : r.accts.load rt r.signers ((s.refused reason entry).granted now granted r.nonce) =
      .ok ctx := hload
  have hrecorded := charge_recorded hload' hcharge
  have hok := by_contra fun hne => by
    obtain ⟨_, rfl, hrecords, -⟩ := hrecorded.2 hne
    rw [hrecords, List.mem_singleton] at he
    rw [he] at hkind
    cases hkind
  obtain ⟨active, unexpired, positive, fresh, merchant, -, capped, delegated, funded, hsource,
    hdestination⟩ := evaluate_eq_ok_iff.mp hok
  have active : s.mandate.status = .active := Mandate.active_of_refuse active
  have above : s.mandate.effectivePerTxMax r.nonce < r.amount := by
    by_contra hle
    exact hbroken (evaluate_eq_ok_iff.mpr ⟨active, unexpired, positive, fresh, merchant,
      UInt64.not_lt.mp hle, capped, delegated, funded, hsource, hdestination⟩)
  have hcoherent := Charge.coherent_of_ok htoken hload' hfit hok hcharge
  exact ⟨⟨active, unexpired, positive, fresh, merchant, above, (le_saturatingSub_iff positive).mpr capped⟩,
    delegated, funded, ⟨hsource, hdestination⟩,
    ⟨hcoherent.sourceOwned, hcoherent.destinationOwned, hcoherent.mintOwned, hcoherent.kind⟩⟩

/-- Where the rest is in order, the override of the amount clears the charge. -/
theorem Charge.Payable.cleared (htoken : rt.token.DecidesTransfers) (hcanonical : s.Canonical rt)
    (hload : r.accts.load rt r.signers s = .ok ctx)
    (hfit : r.accts.source ≠ r.accts.destination →
      ctx.source.amount.toNat + ctx.destination.amount.toNat < 2 ^ 64)
    (hover : OverMaximum s ctx r.amount r.nonce now) (hpay : r.accts.Payable s ctx r.amount) :
    (s.refused .overPerTxMax entry).ClearedBy rt now r r.amount := by
  have hnonce : r.nonce ≠ 0 := by
    intro hzero
    have hfresh := hover.fresh
    rw [hzero] at hfresh
    exact UInt64.not_lt_zero hfresh
  have hpositive : 0 < r.amount := UInt64.pos_iff_ne_zero.mpr hover.positive
  let after := (s.refused .overPerTxMax entry).granted now r.amount r.nonce
  obtain ⟨action, source, haction⟩ := ownerAction_load hload
  obtain ⟨o₁, hgrant⟩ := grantOverride_ok_iff.mpr
    ⟨⟨source, show action.load rt [s.mandate.owner] (s.refused .overPerTxMax entry) = .ok source
      from haction⟩, hnonce, hpositive, hover.active, hover.fresh, hover.room, rfl⟩
  have hceiling : r.amount ≤ after.mandate.effectivePerTxMax r.nonce := by
    have hmax : after.mandate.effectivePerTxMax r.nonce = max s.mandate.perTxMax r.amount :=
      if_pos ⟨hnonce, rfl⟩
    rw [hmax]
    exact le_max_iff_of_words.mpr (.inr UInt64.le_rfl)
  have hok : evaluate after.mandate after.key ctx.source ctx.destination r.amount r.nonce
      now = .ok :=
    evaluate_eq_ok_iff.mpr ⟨hover.active, hover.unexpired, hover.positive, hover.fresh,
      hover.merchant, hceiling, (le_saturatingSub_iff hover.positive).mp hover.room, hpay.delegated,
      hpay.funded, hpay.thawed.1, hpay.thawed.2⟩
  have hload' : r.accts.load rt r.signers after = .ok ctx := hload
  obtain ⟨o₂, s₂, hcharge, -⟩ := Charge.decided_of_paid htoken hload'
    (show after.Canonical rt from hcanonical) hfit hok
    ⟨hpay.coherent.sourceOwned, hpay.coherent.destinationOwned, hpay.coherent.mintOwned,
      hpay.coherent.kind⟩
  have hrecords := (charge_recorded hload' hcharge).1 hok
  exact ⟨_, action, o₁, after, o₂, s₂, hgrant, hcharge, _, hrecords ▸ List.mem_singleton_self _,
    rfl⟩

/-- When the override a refusal suggests is exact: where the maximum is the first rule the
charge breaks and the cap has room, the rest must be in order.  No override clears a charge
that gets no suggestion. -/
theorem charge_suggestion_iff (htoken : rt.token.DecidesTransfers) {opened : Int64}
    {owners : List Pubkey} {opening : OpenMandate} {args : OpenMandateArgs} {w : World}
    {o₀ o : MandateOutput} {s₀ s' : MandateState} {h : MandateHistory} {e : Entry}
    (hopen : openMandate rt opened owners opening args w = .ok (o₀, s₀))
    (run : Run (MandateStep rt) s₀ h s) (hload : r.accts.load rt r.signers s = .ok ctx)
    (hfit : r.accts.source ≠ r.accts.destination →
      ctx.source.amount.toNat + ctx.destination.amount.toNat < 2 ^ 64)
    (hcharge : r.submit rt now s = .ok (o, s')) (he : e ∈ o.records)
    (hkind : e.kind = .refused) :
    ((e.suggestedOverride ≠ 0 ↔ s'.ClearedBy rt now r e.suggestedOverride) ↔
      (Charge.OverMaximum s ctx r.amount r.nonce now → r.accts.Payable s ctx r.amount)) ∧
    (e.suggestedOverride = 0 → ∀ granted, ¬ s'.ClearedBy rt now r granted) := by
  have hrecorded := charge_recorded hload hcharge
  have hbroken : evaluate s.mandate s.key ctx.source ctx.destination r.amount r.nonce now ≠ .ok := by
    intro hok
    rw [hrecorded.1 hok, List.mem_singleton] at he
    rw [he] at hkind
    cases hkind
  obtain ⟨entry, hentry, hrecords, rfl⟩ := hrecorded.2 hbroken
  rw [hrecords, List.mem_singleton] at he
  subst he
  have hsuggested : e.suggestedOverride = suggestedOverride s.mandate
      (evaluate s.mandate s.key ctx.source ctx.destination r.amount r.nonce now) r.amount := by
    rw [hentry]
    rfl
  apply suggestion_iff r.amount
  · intro hover
    exact ⟨hsuggested.trans hover.suggested, hover.positive⟩
  · intro hne
    rw [hsuggested] at hne
    exact Charge.overMaximum_of_suggested hne
  · intro granted hclear
    exact hclear.payable htoken hload hfit hbroken
  · intro hover hpay
    rw [hover.reason]
    exact hpay.cleared htoken (.run run (.opened hopen)) hload hfit hover

end Clearing

end Veto

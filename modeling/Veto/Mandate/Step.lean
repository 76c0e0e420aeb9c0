import Veto.Mandate.Instructions

/-!
# What one mandate instruction can do

`MandateEffect` lists every way a step can change a mandate, with the checks
that were passed on the way.  `MandateStep.effect` reads it off the instructions
once; the results about runs work from it alone.
-/

namespace Veto

open Foundation

/-- `evaluate` allows a charge exactly when it breaks none of the rules. -/
theorem evaluate_eq_ok_iff {m : Mandate} {key : Pubkey} {source destination : TokenAccount}
    {amount nonce : UInt64} {now : Int64} :
    evaluate m key source destination amount nonce now = .ok ↔
      m.status = .active ∧ now < m.expiresAt ∧ amount ≠ 0 ∧ m.lastNonce < nonce ∧
      destination.owner = m.merchant ∧ amount ≤ m.effectivePerTxMax nonce ∧
      (∃ total, checkedAdd m.spent amount = some total ∧ total ≤ m.cap) ∧
      source.delegate = some key ∧ (amount ≤ source.delegatedAmount ∧ amount ≤ source.amount) ∧
      source.isFrozen = false ∧ destination.isFrozen = false := by
  unfold evaluate
  have hfits : (checkedAdd m.spent amount).any (· ≤ m.cap) = true ↔
      ∃ total, checkedAdd m.spent amount = some total ∧ total ≤ m.cap := by
    cases checkedAdd m.spent amount <;> simp
  simp only [ite_eq_iff, reduceCtorEq, and_false, false_or, and_true, not_not, hfits, not_or,
    Int64.not_le, UInt64.not_le, UInt64.not_lt, Bool.not_eq_true, ne_eq]

/-- Every way one step can change a mandate. -/
inductive MandateEffect (s : MandateState) (i : MandateInput) :
    MandateOutput → MandateState → Prop
  | paid {accts : Charge} {amount nonce spent : UInt64} {w : World} {o : MandateOutput}
      (instr : i.instr = .charge accts amount nonce)
      (signed : s.mandate.agent ∈ i.signers)
      (active : s.mandate.status = .active)
      (unexpired : i.now < s.mandate.expiresAt)
      (positive : amount ≠ 0)
      (fresh : s.mandate.lastNonce < nonce)
      (ceiling : amount ≤ s.mandate.effectivePerTxMax nonce)
      (total : spent.toNat = s.mandate.spent.toNat + amount.toNat)
      (capped : spent ≤ s.mandate.cap)
      (records : o.records = [paidEntry i.now accts.destination amount nonce]) :
      MandateEffect s i o
        { s with
          mandate := s.mandate.settle spent nonce
          ledger := s.ledger.record (paidEntry i.now accts.destination amount nonce)
          world := w }
  | refused {accts : Charge} {amount nonce suggestion : UInt64} {reason : Reason}
      {o : MandateOutput}
      (instr : i.instr = .charge accts amount nonce)
      (signed : s.mandate.agent ∈ i.signers)
      (broken : reason ≠ .ok)
      (records : o.records =
        [refusedEntry i.now accts.destination amount nonce suggestion reason]) :
      MandateEffect s i o
        { s with
          mandate := s.mandate.refuse reason
          ledger := s.ledger.record
            (refusedEntry i.now accts.destination amount nonce suggestion reason) }
  | granted {accts : OwnerAction} {amount nonce : UInt64} {o : MandateOutput}
      (instr : i.instr = .grantOverride accts amount nonce)
      (signed : s.mandate.owner ∈ i.signers)
      (named : nonce ≠ 0)
      (positive : 0 < amount)
      (active : s.mandate.status = .active)
      (fresh : s.mandate.lastNonce < nonce)
      (capped : amount ≤ s.mandate.remaining)
      (records : o.records = [overrideEntry i.now s.mandate.merchant amount nonce]) :
      MandateEffect s i o
        { s with
          mandate := s.mandate.grant amount nonce
          ledger := s.ledger.record (overrideEntry i.now s.mandate.merchant amount nonce) }
  | revoked {accts : OwnerAction} {w : World} {o : MandateOutput}
      (instr : i.instr = .revokeMandate accts)
      (signed : s.mandate.owner ∈ i.signers)
      (live : s.mandate.status ≠ .revoked)
      (records : o.records = [revokedEntry i.now s.mandate.merchant]) :
      MandateEffect s i o
        { s with
          mandate := s.mandate.revoke
          ledger := s.ledger.record (revokedEntry i.now s.mandate.merchant)
          world := w }
  | outside {w : World} {o : MandateOutput}
      (instr : i.instr = .outside w)
      (records : o.records = []) :
      MandateEffect s i o { s with world := w }

theorem Charge.signed_of_load {accts : Charge} {rt : Runtime} {signers : List Pubkey}
    {s : MandateState} {ctx : ChargeCtx} (h : accts.load rt signers s = .ok ctx) :
    s.mandate.agent ∈ signers := by
  unfold Charge.load at h
  rw [signer_bind_ok_iff, require_bind_ok_iff] at h
  obtain ⟨hsigner, hkey, -⟩ := h
  rwa [hkey]

theorem OwnerAction.signed_of_load {accts : OwnerAction} {rt : Runtime} {signers : List Pubkey}
    {s : MandateState} {source : TokenAccount} (h : accts.load rt signers s = .ok source) :
    s.mandate.owner ∈ signers := by
  unfold OwnerAction.load at h
  rw [signer_bind_ok_iff, require_bind_ok_iff] at h
  obtain ⟨hsigner, hkey, -⟩ := h
  rwa [hkey]

theorem effect_of_charge {rt : Runtime} {s s' : MandateState} {i : MandateInput}
    {o : MandateOutput} {accts : Charge} {amount nonce : UInt64}
    (instr : i.instr = .charge accts amount nonce)
    (h : charge rt i.now i.signers accts amount nonce s = .ok (o, s')) :
    MandateEffect s i o s' := by
  unfold charge at h
  obtain ⟨ctx, hload, h⟩ := bind_ok_iff.mp h
  obtain ⟨expected, -, h⟩ := bind_ok_iff.mp h
  obtain ⟨-, h⟩ := require_bind_ok_iff.mp h
  have signed := Charge.signed_of_load hload
  by_cases hreason :
      evaluate s.mandate s.key ctx.source ctx.destination amount nonce i.now = .ok
  · simp only [if_pos hreason] at h
    obtain ⟨w, -, h⟩ := bind_ok_iff.mp h
    obtain ⟨spent, hspent, h⟩ := bind_ok_iff.mp h
    rw [okOr_eq_ok] at hspent
    obtain ⟨active, unexpired, positive, fresh, -, ceiling, ⟨total, htotal, hcap⟩, -⟩ :=
      evaluate_eq_ok_iff.mp hreason
    rw [hspent, Option.some.injEq] at htotal
    subst htotal
    cases h
    exact .paid instr signed active unexpired positive fresh ceiling
      (checkedAdd_eq_some.mp hspent) hcap rfl
  · simp only [if_neg hreason] at h
    cases h
    exact .refused instr signed hreason rfl

theorem effect_of_grantOverride {rt : Runtime} {s s' : MandateState} {i : MandateInput}
    {o : MandateOutput} {accts : OwnerAction} {amount nonce : UInt64}
    (instr : i.instr = .grantOverride accts amount nonce)
    (h : grantOverride rt i.now i.signers accts amount nonce s = .ok (o, s')) :
    MandateEffect s i o s' := by
  unfold grantOverride at h
  obtain ⟨source, hload, h⟩ := bind_ok_iff.mp h
  simp only [require_bind_ok_iff] at h
  obtain ⟨named, positive, active, fresh, capped, h⟩ := h
  cases h
  exact .granted instr (OwnerAction.signed_of_load hload) named positive active fresh capped rfl

theorem effect_of_revokeMandate {rt : Runtime} {s s' : MandateState} {i : MandateInput}
    {o : MandateOutput} {accts : OwnerAction} (instr : i.instr = .revokeMandate accts)
    (h : revokeMandate rt i.now i.signers accts s = .ok (o, s')) :
    MandateEffect s i o s' := by
  unfold revokeMandate at h
  obtain ⟨source, hload, h⟩ := bind_ok_iff.mp h
  obtain ⟨live, h⟩ := require_bind_ok_iff.mp h
  obtain ⟨w, -, h⟩ := bind_ok_iff.mp h
  cases h
  exact .revoked instr (OwnerAction.signed_of_load hload) live rfl

/-- What a successful `open_mandate` made. -/
structure MandateOpened (rt : Runtime) (now : Int64) (accts : OpenMandate)
    (args : OpenMandateArgs) (w : World) (o : MandateOutput) (s : MandateState) : Prop where
  address : rt.pda.find (mandateSeeds accts.owner args.mandateId) = (s.key, s.mandate.bump)
  named : s.key = accts.mandate
  mandate : ∃ bump, s.mandate = freshMandate accts args bump
  ledger : ∃ bump, s.ledger = Ledger.record ⟨s.key, bump, .empty .zero⟩
    (openedEntry now args.cap args.merchant)
  records : o.records = [openedEntry now args.cap args.merchant]
  apart : args.agent ≠ accts.owner
  approved : ∃ decimals, rt.token.approveChecked accts.tokenProgram w
    { source := accts.source, delegate := s.key, authority := accts.owner, mint := accts.mint }
    args.cap decimals = some s.world

theorem openMandate_opened {rt : Runtime} {now : Int64} {signers : List Pubkey}
    {accts : OpenMandate} {args : OpenMandateArgs} {w : World} {o : MandateOutput}
    {s : MandateState} (h : openMandate rt now signers accts args w = .ok (o, s)) :
    MandateOpened rt now accts args w o s := by
  unfold openMandate at h
  simp only [vacant, tokenInterface] at h
  simp only [↓signer_bind_ok_iff, ↓require_bind_ok_iff, bind_ok_iff] at h
  obtain ⟨-, hkey, -, -, -, source, -, -, -, mint, -, -, -, -, -, -, -, -, hapart, w', hw, h⟩ := h
  rw [okOr_eq_ok] at hw
  cases h
  exact {
    address := rfl
    named := hkey.symm
    mandate := ⟨_, rfl⟩
    ledger := ⟨_, rfl⟩
    records := rfl
    apart := hapart
    approved := ⟨_, hw⟩ }

/-- A step does one of the things `MandateEffect` lists. -/
theorem MandateStep.effect {rt : Runtime} {s s' : MandateState} {i : MandateInput}
    {o : MandateOutput} (h : MandateStep rt s i o s') : MandateEffect s i o s' := by
  unfold MandateStep MandateState.exec at h
  cases hi : i.instr with
  | charge accts amount nonce =>
      rw [hi] at h
      exact effect_of_charge hi h
  | grantOverride accts amount nonce =>
      rw [hi] at h
      exact effect_of_grantOverride hi h
  | revokeMandate accts =>
      rw [hi] at h
      exact effect_of_revokeMandate hi h
  | outside w =>
      rw [hi] at h
      cases h
      exact .outside hi rfl

end Veto

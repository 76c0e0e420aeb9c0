import Veto.Mandate.Instructions
import Veto.Ledger.Layout
import Veto.Foundation.Utf8

/-!
# The bytes of mandate instructions and events

What stands in a transaction that opens or closes a mandate, and what a charge emits.
-/

namespace Veto

open Foundation

def OPEN_MANDATE_DISCRIMINATOR : Bytes := [116, 145, 190, 28, 86, 223, 105, 74]

def CLOSE_MANDATE_DISCRIMINATOR : Bytes := [117, 87, 189, 5, 254, 125, 248, 180]

def PAID_EVENT_DISC : Bytes := [240, 193, 17, 238, 238, 210, 129, 235]

def REFUSED_EVENT_DISC : Bytes := [230, 49, 133, 208, 106, 62, 106, 169]

/-- The arguments of `open_mandate`, serialized. -/
def OpenMandateArgs.bytes (args : OpenMandateArgs) : Bytes :=
  toLE 8 args.mandateId.toNat ++ (args.agent.toBytes ++ (args.merchant.toBytes ++
    (toLE 8 args.cap.toNat ++ (toLE 8 args.perTxMax.toNat ++
    (toLE 8 args.expiresAt.toUInt64.toNat ++
    (toLE 4 (utf8Bytes args.purpose).length ++ utf8Bytes args.purpose))))))

/-- An event as it is emitted. -/
def MandateEvent.bytes : MandateEvent → Bytes
  | .paid mandate amount nonce spent =>
      PAID_EVENT_DISC ++ (mandate.toBytes ++ (toLE 8 amount.toNat ++ (toLE 8 nonce.toNat ++
        toLE 8 spent.toNat)))
  | .refused mandate amount nonce reason suggestedOverride =>
      REFUSED_EVENT_DISC ++ (mandate.toBytes ++ (toLE 8 amount.toNat ++ (toLE 8 nonce.toNat ++
        ([reason.code] ++ toLE 8 suggestedOverride.toNat))))

/-- A charge emits one event, which says what its record says. -/
theorem charge_emits {rt : Runtime} {now : Int64} {signers : List Pubkey} {accts : Charge}
    {amount nonce : UInt64} {s s' : MandateState} {o : MandateOutput}
    (h : charge rt now signers accts amount nonce s = .ok (o, s')) :
    (∃ spent, o.records = [paidEntry now accts.destination amount nonce] ∧
      o.events = [.paid s.key amount nonce spent]) ∨
    (∃ reason suggestion, reason ≠ .ok ∧
      o.records = [refusedEntry now accts.destination amount nonce suggestion reason] ∧
      o.events = [.refused s.key amount nonce reason suggestion]) := by
  unfold charge at h
  obtain ⟨ctx, -, h⟩ := bind_ok_iff.mp h
  obtain ⟨expected, -, h⟩ := bind_ok_iff.mp h
  obtain ⟨-, h⟩ := require_bind_ok_iff.mp h
  by_cases hreason : evaluate s.mandate s.key ctx.source ctx.destination amount nonce now = .ok
  · simp only [if_pos hreason] at h
    obtain ⟨w, -, h⟩ := bind_ok_iff.mp h
    obtain ⟨spent, -, h⟩ := bind_ok_iff.mp h
    cases h
    exact .inl ⟨_, rfl, rfl⟩
  · simp only [if_neg hreason] at h
    cases h
    exact .inr ⟨_, _, hreason, rfl, rfl⟩

end Veto

import Veto.Trade.Instructions
import Veto.Indexer.Events

/-!
# The bytes of a trade and its events

What stands in a transaction that trades, what it emits, and what the indexer reads of it.
-/

namespace Veto

open Foundation

def TRADE_DISCRIMINATOR : Bytes := [178, 144, 26, 216, 241, 187, 206, 130]

def OPEN_TRADE_RULE_DISCRIMINATOR : Bytes := [109, 183, 63, 166, 60, 202, 82, 15]

/-- The arguments of `open_trade_rule`, serialized. -/
def OpenTradeRuleArgs.bytes (args : OpenTradeRuleArgs) : Bytes :=
  toLE 8 args.ruleId.toNat ++ (args.agent.toBytes ++ ([args.exchangeKind] ++
    (toLE 8 args.cap.toNat ++ (toLE 8 args.perTradeMax.toNat ++ (toLE 8 args.dailyLimit.toNat ++
    (toLE 8 args.floorNum.toNat ++ (toLE 8 args.floorDen.toNat ++
    (toLE 8 args.expiresAt.toUInt64.toNat ++
    (toLE 4 (utf8Bytes args.purpose).length ++ utf8Bytes args.purpose)))))))))

/-- An event as it is emitted. -/
def TradeEvent.bytes : TradeEvent → Bytes
  | .traded rule amountIn amountOut nonce spent =>
      TRADED_EVENT_DISC ++ (rule.toBytes ++ (toLE 8 amountIn.toNat ++ (toLE 8 amountOut.toNat ++
        (toLE 8 nonce.toNat ++ toLE 8 spent.toNat))))
  | .tradeRefused rule amountIn minOut nonce reason suggestedOverride =>
      TRADE_REFUSED_EVENT_DISC ++ (rule.toBytes ++ (toLE 8 amountIn.toNat ++
        (toLE 8 minOut.toNat ++ (toLE 8 nonce.toNat ++ ([reason.code] ++
          toLE 8 suggestedOverride.toNat)))))

def TradeEvent.rule : TradeEvent → Pubkey
  | .traded rule _ _ _ _ => rule
  | .tradeRefused rule _ _ _ _ _ => rule

/-- A trade emits one event, of its own rule. -/
theorem trade_emits {rt : Runtime} {now : Int64} {signers : List Pubkey} {accts : Trade}
    {amountIn minOut nonce : UInt64} {exchange : Callee} {s s' : TradeState} {o : TradeOutput}
    (h : trade rt now signers accts amountIn minOut nonce exchange s = .ok (o, s')) :
    ∃ event : TradeEvent, o.events = [event] ∧ event.rule = s.key := by
  unfold trade at h
  obtain ⟨source, -, h⟩ := bind_ok_iff.mp h
  obtain ⟨-, h⟩ := require_bind_ok_iff.mp h
  obtain ⟨expected, -, h⟩ := bind_ok_iff.mp h
  obtain ⟨-, h⟩ := require_bind_ok_iff.mp h
  obtain ⟨verdict, -, h⟩ := bind_ok_iff.mp h
  by_cases hreason : verdict.reason = .ok
  · rw [if_pos hreason] at h
    unfold TradeState.settleTrade at h
    obtain ⟨-, h⟩ := require_bind_ok_iff.mp h
    obtain ⟨-, h⟩ := require_bind_ok_iff.mp h
    obtain ⟨bound, -, h⟩ := bind_ok_iff.mp h
    obtain ⟨destBefore, -, h⟩ := bind_ok_iff.mp h
    obtain ⟨w, -, h⟩ := bind_ok_iff.mp h
    obtain ⟨sourceAfter, -, h⟩ := bind_ok_iff.mp h
    obtain ⟨destAfter, -, h⟩ := bind_ok_iff.mp h
    obtain ⟨debit, -, h⟩ := bind_ok_iff.mp h
    obtain ⟨amountOut, -, h⟩ := bind_ok_iff.mp h
    obtain ⟨-, h⟩ := require_bind_ok_iff.mp h
    obtain ⟨committed, -, h⟩ := bind_ok_iff.mp h
    obtain ⟨spent, -, h⟩ := bind_ok_iff.mp h
    obtain ⟨windowSpent, -, h⟩ := bind_ok_iff.mp h
    cases h
    exact ⟨_, rfl, rfl⟩
  · rw [if_neg hreason] at h
    unfold TradeState.recordRefusal at h
    obtain ⟨suggestion, -, h⟩ := bind_ok_iff.mp h
    obtain ⟨windowSpent, -, h⟩ := bind_ok_iff.mp h
    cases h
    exact ⟨_, rfl, rfl⟩

namespace Indexer

/-- The indexer reads a trade's event as a decision of its rule. -/
theorem decodeEventBytes_trade (event : TradeEvent) :
    ∃ decoded, decodeEventBytes event.bytes = some decoded ∧ decoded.rule = some event.rule := by
  cases event with
  | traded rule amountIn amountOut nonce spent =>
      let raw := (TradeEvent.traded rule amountIn amountOut nonce spent).bytes
      have hlength : raw.length = 72 := by simp [raw, TradeEvent.bytes, TRADED_EVENT_DISC]
      have hdisc : subarray raw 0 8 = TRADED_EVENT_DISC := subarray_append_left rfl
      have hkey : subarray raw 8 40 = rule.toBytes := by
        simp [raw, TradeEvent.bytes, TRADED_EVENT_DISC]
      change ∃ decoded, decodeEventBytes raw = some decoded ∧ decoded.rule = some rule
      unfold decodeEventBytes
      simp only [hlength, hdisc, hkey, Pubkey.ofBytes_toBytes]
      exact ⟨_, rfl, rfl⟩
  | tradeRefused rule amountIn minOut nonce reason suggestion =>
      let raw := (TradeEvent.tradeRefused rule amountIn minOut nonce reason suggestion).bytes
      have hlength : raw.length = 73 := by simp [raw, TradeEvent.bytes, TRADE_REFUSED_EVENT_DISC]
      have hdisc : subarray raw 0 8 = TRADE_REFUSED_EVENT_DISC := subarray_append_left rfl
      have hkey : subarray raw 8 40 = rule.toBytes := by
        simp [raw, TradeEvent.bytes, TRADE_REFUSED_EVENT_DISC]
      change ∃ decoded, decodeEventBytes raw = some decoded ∧ decoded.rule = some rule
      unfold decodeEventBytes
      simp only [hlength, hdisc, hkey, Pubkey.ofBytes_toBytes]
      exact ⟨_, rfl, rfl⟩

end Indexer

end Veto

import Veto.Trade.State
import Veto.Hold.Layout
import Veto.Foundation.Utf8

/-!
# The bytes of a trade rule account

A rule is serialized field by field, without padding, in an account that has room for the
longest purpose.  The hour buckets are those of a vault.
-/

namespace Veto

open Foundation

def TRADE_RULE_DISCRIMINATOR : Bytes := [71, 199, 163, 41, 101, 116, 241, 212]

namespace TradeRule

/-- The room of an account: its discriminator and the most a rule can take. -/
def SPACE : Nat :=
  8 + (7 * 32 + 1 + 6 * 32 + 5 * 8 + BUCKET_COUNT * 16 + 6 * 8 + (4 + PURPOSE_MAX_LEN) + 1 + 4 + 4 + 1)

/-- The accounts a trade is pinned to. -/
def keys (rule : TradeRule) : Bytes :=
  rule.owner.toBytes ++ (rule.agent.toBytes ++ (rule.source.toBytes ++
    (rule.destination.toBytes ++ (rule.inMint.toBytes ++ (rule.outMint.toBytes ++
    (rule.exchangeProgram.toBytes ++ ([rule.exchangeKind] ++ (rule.pool.toBytes ++
    (rule.poolAuthority.toBytes ++ (rule.poolInVault.toBytes ++ (rule.poolOutVault.toBytes ++
    (rule.poolMint.toBytes ++ rule.poolFeeAccount.toBytes))))))))))))

/-- The limits, from `rule_id` to `last_nonce`. -/
def limits (rule : TradeRule) : Bytes :=
  toLE 8 rule.ruleId.toNat ++ (toLE 8 rule.cap.toNat ++ (toLE 8 rule.spent.toNat ++
    (toLE 8 rule.perTradeMax.toNat ++ (toLE 8 rule.dailyLimit.toNat ++
    (rule.dailyBuckets.toList.flatMap TradeBucket.bytes ++ (toLE 8 rule.floorNum.toNat ++
    (toLE 8 rule.floorDen.toNat ++ (toLE 8 rule.expiresAt.toUInt64.toNat ++
    (toLE 8 rule.overrideAmount.toNat ++ (toLE 8 rule.overrideNonce.toNat ++
    toLE 8 rule.lastNonce.toNat))))))))))

/-- The purpose and what comes after it. -/
def tail (rule : TradeRule) : Bytes :=
  toLE 4 rule.purpose.utf8ByteSize ++ (utf8Bytes rule.purpose ++ ([rule.status.code] ++
    (toLE 4 rule.tradeCount.toNat ++ (toLE 4 rule.refusalCount.toNat ++ [rule.bump]))))

/-- A rule, serialized. -/
def bytes (rule : TradeRule) : Bytes := rule.keys ++ (rule.limits ++ rule.tail)

def data (rule : TradeRule) : Bytes :=
  let written := TRADE_RULE_DISCRIMINATOR ++ rule.bytes
  written ++ List.replicate (SPACE - written.length) 0

/-- The account after the instruction has written it.  A writer that runs out of room fails. -/
def store (rule : TradeRule) : Option Bytes :=
  if (TRADE_RULE_DISCRIMINATOR ++ rule.bytes).length ≤ SPACE then some rule.data else none

variable (rule : TradeRule)

theorem length_keys : rule.keys.length = 417 := by simp [keys]

theorem length_limits : rule.limits.length = 488 := by
  have hbuckets : (rule.dailyBuckets.toList.flatMap TradeBucket.bytes).length = 400 := by
    rw [length_flatMap_of_size TradeBucket.length_bytes, Vector.length_toList]
    rfl
  simp [limits, hbuckets]

theorem length_tail : rule.tail.length = 14 + rule.purpose.utf8ByteSize := by
  simp only [tail, List.length_append, length_toLE, length_utf8Bytes, List.length_cons,
    List.length_nil]
  omega

/-- A rule fits when its purpose takes no more bytes than the most characters it may have. -/
theorem store_eq_some_iff {data : Bytes} :
    rule.store = some data ↔ rule.purpose.utf8ByteSize ≤ PURPOSE_MAX_LEN ∧ data = rule.data := by
  have hlength : (TRADE_RULE_DISCRIMINATOR ++ rule.bytes).length ≤ SPACE ↔
      rule.purpose.utf8ByteSize ≤ PURPOSE_MAX_LEN := by
    have hdisc : TRADE_RULE_DISCRIMINATOR.length = 8 := rfl
    have hspace : SPACE = 927 + PURPOSE_MAX_LEN := rfl
    rw [bytes, List.length_append, List.length_append, List.length_append, hdisc,
      rule.length_keys, rule.length_limits, rule.length_tail, hspace]
    omega
  rw [← hlength, store, Option.ite_none_right_eq_some, Option.some.injEq, eq_comm (a := data)]

/-- An account is its discriminator, its fields and the rest of its room. -/
theorem data_split : ∃ padding, rule.data = TRADE_RULE_DISCRIMINATOR ++ (rule.bytes ++ padding) :=
  ⟨_, List.append_assoc ..⟩

end TradeRule

end Veto

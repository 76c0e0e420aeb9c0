import Veto.Trade.Layout
import Veto.Mandate.Readers
import Veto.Hold.Readers

/-!
# The readers of a trade rule account

`decodeTradeRule` of the SDK and `decodeTradeRuleAccount` of the app, over the reads each has
for a mandate.
-/

namespace Veto

open Foundation

/-- `TradeRuleAccount`; `κ` is how a client shows a key. -/
structure TradeRuleAccount (κ : Type) where
  owner : κ
  agent : κ
  source : κ
  destination : κ
  inMint : κ
  outMint : κ
  exchangeProgram : κ
  exchangeKind : UInt8
  pool : κ
  poolAuthority : κ
  poolInVault : κ
  poolOutVault : κ
  poolMint : κ
  poolFeeAccount : κ
  ruleId : Int
  cap : Int
  spent : Int
  perTradeMax : Int
  dailyLimit : Int
  dailyBuckets : List BucketView
  floorNum : Int
  floorDen : Int
  expiresAt : Int
  overrideAmount : Int
  overrideNonce : Int
  lastNonce : Int
  purpose : String
  status : UInt8
  tradeCount : Nat
  refusalCount : Nat
  bump : UInt8
  deriving DecidableEq

/-- The account of a rule, as a client is to see it. -/
def TradeRuleAccount.of {κ : Type} (shown : Pubkey → κ) (rule : TradeRule) : TradeRuleAccount κ where
  owner := shown rule.owner
  agent := shown rule.agent
  source := shown rule.source
  destination := shown rule.destination
  inMint := shown rule.inMint
  outMint := shown rule.outMint
  exchangeProgram := shown rule.exchangeProgram
  exchangeKind := rule.exchangeKind
  pool := shown rule.pool
  poolAuthority := shown rule.poolAuthority
  poolInVault := shown rule.poolInVault
  poolOutVault := shown rule.poolOutVault
  poolMint := shown rule.poolMint
  poolFeeAccount := shown rule.poolFeeAccount
  ruleId := rule.ruleId.toNat
  cap := rule.cap.toNat
  spent := rule.spent.toNat
  perTradeMax := rule.perTradeMax.toNat
  dailyLimit := rule.dailyLimit.toNat
  dailyBuckets := rule.dailyBuckets.toList.map .of
  floorNum := rule.floorNum.toNat
  floorDen := rule.floorDen.toNat
  expiresAt := rule.expiresAt.toInt
  overrideAmount := rule.overrideAmount.toNat
  overrideNonce := rule.overrideNonce.toNat
  lastNonce := rule.lastNonce.toNat
  purpose := rule.purpose
  status := rule.status.code
  tradeCount := rule.tradeCount.toNat
  refusalCount := rule.refusalCount.toNat
  bump := rule.bump

section Fields

variable {κ : Type}

def bucketFields (reads : FieldReads κ) : Cursor Thrown BucketView := do
  let hour ← reads.i64 "bucket hour"
  let amount ← reads.u64 "bucket amount"
  return { hour, amount }

/-- The fields of a rule in the order both clients read them. -/
def tradeRuleFields (reads : FieldReads κ) : Cursor Thrown (TradeRuleAccount κ) := do
  let owner ← reads.key "owner"
  let agent ← reads.key "agent"
  let source ← reads.key "source"
  let destination ← reads.key "destination"
  let inMint ← reads.key "in_mint"
  let outMint ← reads.key "out_mint"
  let exchangeProgram ← reads.key "exchange_program"
  let exchangeKind ← reads.u8 "exchange_kind"
  let pool ← reads.key "pool"
  let poolAuthority ← reads.key "pool_authority"
  let poolInVault ← reads.key "pool_in_vault"
  let poolOutVault ← reads.key "pool_out_vault"
  let poolMint ← reads.key "pool_mint"
  let poolFeeAccount ← reads.key "pool_fee_account"
  let ruleId ← reads.u64 "rule_id"
  let cap ← reads.u64 "cap"
  let spent ← reads.u64 "spent"
  let perTradeMax ← reads.u64 "per_trade_max"
  let dailyLimit ← reads.u64 "daily_limit"
  let dailyBuckets ← (bucketFields reads).times 25
  let floorNum ← reads.u64 "floor_num"
  let floorDen ← reads.u64 "floor_den"
  let expiresAt ← reads.i64 "expires_at"
  let overrideAmount ← reads.u64 "override_amount"
  let overrideNonce ← reads.u64 "override_nonce"
  let lastNonce ← reads.u64 "last_nonce"
  let purpose ← reads.purpose
  let status ← reads.u8 "status"
  let tradeCount ← reads.u32 "trade_count"
  let refusalCount ← reads.u32 "refusal_count"
  let bump ← reads.u8 "bump"
  return { owner, agent, source, destination, inMint, outMint, exchangeProgram, exchangeKind,
           pool, poolAuthority, poolInVault, poolOutVault, poolMint, poolFeeAccount, ruleId, cap,
           spent, perTradeMax, dailyLimit, dailyBuckets, floorNum, floorDen, expiresAt,
           overrideAmount, overrideNonce, lastNonce, purpose, status, tradeCount, refusalCount,
           bump }

end Fields

def Sdk.decodeTradeRule (data : Bytes) : Except Thrown (TradeRuleAccount Pubkey) := do
  requireDisc data TRADE_RULE_DISCRIMINATOR "TradeRule"
  (tradeRuleFields fieldReads).readAt data 8

structure App.TradeRuleAccount extends Veto.TradeRuleAccount String where
  address : String
  deriving DecidableEq

def App.decodeTradeRuleAccount (address : String) (data beyond : Bytes) :
    Except Thrown App.TradeRuleAccount := do
  requireDisc data TRADE_RULE_DISCRIMINATOR address "TradeRule"
  return { toTradeRuleAccount := ← (tradeRuleFields (fieldReads beyond)).readAt data 8, address }

/-! ## What the decoders make of a rule -/

section Lawful

variable {κ : Type} {reads : FieldReads κ} {shown : Pubkey → κ}

theorem bucketFields_reads (lawful : reads.Lawful shown) (bucket : TradeBucket) :
    Reads (bucketFields reads) bucket.bytes (.of bucket) :=
  (lawful.i64 _ bucket.hour).bind (lawful.u64 _ bucket.amount).last

theorem dailyBuckets_reads (lawful : reads.Lawful shown) (buckets : TradeBuckets) :
    Reads ((bucketFields reads).times 25) (buckets.toList.flatMap TradeBucket.bytes)
      (buckets.toList.map .of) := by
  have hall := Reads.times (bucketFields_reads lawful) buckets.toList
  rwa [Vector.length_toList] at hall

theorem tradeRuleFields_reads (lawful : reads.Lawful shown) {rule : TradeRule}
    (hfits : rule.purpose.utf8ByteSize ≤ PURPOSE_MAX_LEN) :
    Reads (tradeRuleFields reads) rule.bytes (.of shown rule) := by
  simp only [TradeRule.bytes, TradeRule.keys, TradeRule.limits, TradeRule.tail, List.append_assoc]
  refine (lawful.key _ rule.owner).bind ?_
  refine (lawful.key _ rule.agent).bind ?_
  refine (lawful.key _ rule.source).bind ?_
  refine (lawful.key _ rule.destination).bind ?_
  refine (lawful.key _ rule.inMint).bind ?_
  refine (lawful.key _ rule.outMint).bind ?_
  refine (lawful.key _ rule.exchangeProgram).bind ?_
  refine (lawful.u8 _ rule.exchangeKind).bind ?_
  refine (lawful.key _ rule.pool).bind ?_
  refine (lawful.key _ rule.poolAuthority).bind ?_
  refine (lawful.key _ rule.poolInVault).bind ?_
  refine (lawful.key _ rule.poolOutVault).bind ?_
  refine (lawful.key _ rule.poolMint).bind ?_
  refine (lawful.key _ rule.poolFeeAccount).bind ?_
  refine (lawful.u64 _ rule.ruleId).bind ?_
  refine (lawful.u64 _ rule.cap).bind ?_
  refine (lawful.u64 _ rule.spent).bind ?_
  refine (lawful.u64 _ rule.perTradeMax).bind ?_
  refine (lawful.u64 _ rule.dailyLimit).bind ?_
  refine (dailyBuckets_reads lawful rule.dailyBuckets).bind ?_
  refine (lawful.u64 _ rule.floorNum).bind ?_
  refine (lawful.u64 _ rule.floorDen).bind ?_
  refine (lawful.i64 _ rule.expiresAt).bind ?_
  refine (lawful.u64 _ rule.overrideAmount).bind ?_
  refine (lawful.u64 _ rule.overrideNonce).bind ?_
  refine (lawful.u64 _ rule.lastNonce).bind ?_
  rw [← List.append_assoc (toLE 4 _)]
  refine (lawful.purpose rule.purpose hfits).bind ?_
  refine (lawful.u8 _ rule.status.code).bind ?_
  refine (lawful.u32 _ rule.tradeCount).bind ?_
  refine (lawful.u32 _ rule.refusalCount).bind ?_
  exact (lawful.u8 _ rule.bump).last

end Lawful

/-- **The SDK reads back the rule that the program wrote.** -/
theorem Sdk.decodeTradeRule_data {rule : TradeRule}
    (hfits : rule.purpose.utf8ByteSize ≤ PURPOSE_MAX_LEN) :
    Sdk.decodeTradeRule rule.data = .ok (.of id rule) := by
  obtain ⟨padding, hdata⟩ := rule.data_split
  rw [decodeTradeRule, hdata, requireDisc_append, ok_bind]
  exact (tradeRuleFields_reads fieldReads_lawful hfits).readAt

/-- **The app reads back the rule that the program wrote.** -/
theorem App.decodeTradeRuleAccount_data {rule : TradeRule}
    (hfits : rule.purpose.utf8ByteSize ≤ Veto.PURPOSE_MAX_LEN) (address : String) (beyond : Bytes) :
    App.decodeTradeRuleAccount address rule.data beyond =
      .ok { toTradeRuleAccount := .of Pubkey.display rule, address } := by
  obtain ⟨padding, hdata⟩ := rule.data_split
  have hread : (tradeRuleFields (fieldReads beyond)).readAt
      (TRADE_RULE_DISCRIMINATOR ++ (rule.bytes ++ padding)) 8 = .ok (.of Pubkey.display rule) :=
    (tradeRuleFields_reads (fieldReads_lawful beyond) hfits).readAt
  rw [decodeTradeRuleAccount, hdata, requireDisc_append rfl, ok_bind, hread, ok_bind]
  rfl

/-- The account holds the rule, and both clients read it back field by field. -/
def TradeRule.RoundTrips (rule : TradeRule) : Prop :=
  ∃ data, rule.store = some data ∧ Sdk.decodeTradeRule data = .ok (.of id rule) ∧
    ∀ address beyond, App.decodeTradeRuleAccount address data beyond =
      .ok { toTradeRuleAccount := .of Pubkey.display rule, address }

theorem TradeRule.roundTrips_iff (rule : TradeRule) :
    rule.RoundTrips ↔ rule.purpose.utf8ByteSize ≤ PURPOSE_MAX_LEN := by
  constructor
  · rintro ⟨data, hstore, -⟩
    exact (rule.store_eq_some_iff.mp hstore).1
  · intro hfits
    exact ⟨rule.data, rule.store_eq_some_iff.mpr ⟨hfits, rfl⟩, Sdk.decodeTradeRule_data hfits,
      App.decodeTradeRuleAccount_data hfits⟩

end Veto

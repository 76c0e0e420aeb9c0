import Veto.Mandate.State
import Veto.RollingWindow

/-!
# The trade rule account

The data of `trade_state.rs`: a permission to swap through one pinned pool, its
ledger of decisions, and the events of `trade.rs`.  The status codes are those
of a mandate.
-/

namespace Veto

open Foundation

def TRADE_LEDGER_CAPACITY : Nat := 32

/-- `exchange_kind` of the program at `SPL_TOKEN_SWAP_ID`. -/
def EXCHANGE_KIND_SPL_TOKEN_SWAP : UInt8 := 0

def SPL_TOKEN_SWAP_ID : Pubkey :=
  0x06a53aae36bf486fb5d938264ee645d74b6016e0f47aebb3ec16438bf7bffbe1

/-- Record kinds, the `TRADE_KIND_*` codes. -/
inductive TradeKind
  | opened
  | traded
  | refused
  | override
  | revoked
  deriving DecidableEq, Repr

def TradeKind.code : TradeKind → UInt8
  | .opened => 0
  | .traded => 1
  | .refused => 2
  | .override => 3
  | .revoked => 4

/-- Refusal reasons of a trade.  Those up to `accountFrozen` share their code
with the reasons of a charge. -/
inductive TradeReason
  | ok
  | notActive
  | expired
  | staleNonce
  | overPerTxMax
  | overCap
  | delegateMissing
  | insufficientFunds
  | zeroAmount
  | accountFrozen
  | destinationNotAllowed
  | poolNotAllowed
  | overDaily
  | belowFloor
  deriving DecidableEq, Repr

def TradeReason.code : TradeReason → UInt8
  | .ok => 0
  | .notActive => 1
  | .expired => 2
  | .staleNonce => 3
  | .overPerTxMax => 5
  | .overCap => 6
  | .delegateMissing => 7
  | .insufficientFunds => 8
  | .zeroAmount => 9
  | .accountFrozen => 10
  | .destinationNotAllowed => 11
  | .poolNotAllowed => 12
  | .overDaily => 13
  | .belowFloor => 14

/-- A permission to swap, owned by the human and enforced by this program. -/
structure TradeRule where
  owner : Pubkey
  agent : Pubkey
  source : Pubkey
  destination : Pubkey
  inMint : Pubkey
  outMint : Pubkey
  exchangeProgram : Pubkey
  exchangeKind : UInt8
  pool : Pubkey
  poolAuthority : Pubkey
  poolInVault : Pubkey
  poolOutVault : Pubkey
  poolMint : Pubkey
  poolFeeAccount : Pubkey
  ruleId : UInt64
  cap : UInt64
  spent : UInt64
  perTradeMax : UInt64
  dailyLimit : UInt64
  dailyBuckets : TradeBuckets
  floorNum : UInt64
  floorDen : UInt64
  expiresAt : Int64
  overrideAmount : UInt64
  /-- Zero means no override is pending. -/
  overrideNonce : UInt64
  lastNonce : UInt64
  purpose : String
  status : Status
  tradeCount : UInt32
  refusalCount : UInt32
  bump : UInt8

namespace TradeRule

/-- The per-trade ceiling for this nonce. -/
def effectivePerTradeMax (rule : TradeRule) (nonce : UInt64) : UInt64 :=
  if rule.overrideNonce ≠ 0 ∧ rule.overrideNonce = nonce then
    max rule.perTradeMax rule.overrideAmount
  else rule.perTradeMax

def remaining (rule : TradeRule) : UInt64 := saturatingSub rule.cap rule.spent

end TradeRule

/-- One trade decision.  `counterparty` is the account the agent tried when
that is what was refused, and the pool otherwise. -/
structure TradeEntry where
  ts : Int64
  amountIn : UInt64
  amountOut : UInt64
  minOut : UInt64
  counterparty : Pubkey
  nonce : UInt64
  suggestedOverride : UInt64
  kind : TradeKind
  reason : TradeReason
  deriving DecidableEq

def TradeEntry.zero : TradeEntry := ⟨0, 0, 0, 0, 0, 0, 0, .opened, .ok⟩

/-- A ring of the most recent trade decisions, including refusals. -/
structure TradeLedger where
  rule : Pubkey
  bump : UInt8
  ring : Ring TradeEntry TRADE_LEDGER_CAPACITY

def TradeLedger.record (l : TradeLedger) (entry : TradeEntry) : TradeLedger :=
  { l with ring := l.ring.record entry }

inductive TradeEvent
  | traded (rule : Pubkey) (amountIn amountOut nonce spent : UInt64)
  | tradeRefused (rule : Pubkey) (amountIn minOut nonce : UInt64) (reason : TradeReason)
      (suggestedOverride : UInt64)
  deriving DecidableEq

/-- A trade rule at its address, its ledger, and the accounts of other programs. -/
structure TradeState where
  key : Pubkey
  rule : TradeRule
  ledger : TradeLedger
  world : World

end Veto

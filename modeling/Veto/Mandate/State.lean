import Veto.Chain
import Veto.Foundation.Ring

/-!
# The mandate account

The data of `state.rs`: a permission to spend, its ledger of decisions, and the
codes both are written with.
-/

namespace Veto

open Foundation

def PURPOSE_MAX_LEN : Nat := 64

def LEDGER_CAPACITY : Nat := 32

/-- Mandate lifecycle, the `STATUS_*` codes. -/
inductive Status
  | active
  | revoked
  | exhausted
  | expired
  deriving DecidableEq, Repr

/-- Ledger entry kinds, the `KIND_*` codes. -/
inductive Kind
  | opened
  | paid
  | refused
  | override
  | revoked
  deriving DecidableEq, Repr

/-- Refusal reasons, the `REASON_*` codes.  `ok` means the charge was allowed. -/
inductive Reason
  | ok
  | notActive
  | expired
  | staleNonce
  | merchantNotAllowed
  | overPerTxMax
  | overCap
  | delegateMissing
  | insufficientFunds
  | zeroAmount
  | accountFrozen
  deriving DecidableEq, Repr

def Status.code : Status → UInt8
  | .active => 0
  | .revoked => 1
  | .exhausted => 2
  | .expired => 3

def Kind.code : Kind → UInt8
  | .opened => 0
  | .paid => 1
  | .refused => 2
  | .override => 3
  | .revoked => 4

def Reason.code : Reason → UInt8
  | .ok => 0
  | .notActive => 1
  | .expired => 2
  | .staleNonce => 3
  | .merchantNotAllowed => 4
  | .overPerTxMax => 5
  | .overCap => 6
  | .delegateMissing => 7
  | .insufficientFunds => 8
  | .zeroAmount => 9
  | .accountFrozen => 10

/-- A permission to spend, owned by the human and enforced by this program. -/
structure Mandate where
  owner : Pubkey
  agent : Pubkey
  mint : Pubkey
  source : Pubkey
  merchant : Pubkey
  mandateId : UInt64
  cap : UInt64
  spent : UInt64
  perTxMax : UInt64
  expiresAt : Int64
  overrideAmount : UInt64
  /-- Zero means no override is pending. -/
  overrideNonce : UInt64
  lastNonce : UInt64
  purpose : String
  status : Status
  spendCount : UInt32
  refusalCount : UInt32
  bump : UInt8
  deriving DecidableEq

namespace Mandate

/-- The per-payment ceiling for this charge, taking a matching one-shot
override into account. -/
def effectivePerTxMax (m : Mandate) (nonce : UInt64) : UInt64 :=
  if m.overrideNonce ≠ 0 ∧ m.overrideNonce = nonce then max m.perTxMax m.overrideAmount
  else m.perTxMax

def remaining (m : Mandate) : UInt64 := saturatingSub m.cap m.spent

end Mandate

/-- One decision, paid or refused, exactly as the program made it. -/
structure Entry where
  ts : Int64
  amount : UInt64
  counterparty : Pubkey
  nonce : UInt64
  suggestedOverride : UInt64
  kind : Kind
  reason : Reason
  deriving DecidableEq

def Entry.zero : Entry := ⟨0, 0, 0, 0, 0, .opened, .ok⟩

/-- A ring of the most recent decisions. -/
structure Ledger where
  mandate : Pubkey
  bump : UInt8
  ring : Ring Entry LEDGER_CAPACITY

def Ledger.record (l : Ledger) (entry : Entry) : Ledger :=
  { l with ring := l.ring.record entry }

inductive MandateEvent
  | paid (mandate : Pubkey) (amount nonce spent : UInt64)
  | refused (mandate : Pubkey) (amount nonce : UInt64) (reason : Reason)
      (suggestedOverride : UInt64)
  deriving DecidableEq

/-- A mandate account at its address, its ledger, and the accounts of other programs. -/
structure MandateState where
  key : Pubkey
  mandate : Mandate
  ledger : Ledger
  world : World

end Veto

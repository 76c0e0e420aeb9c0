import Veto.Indexer.Decisions

/-!
# The decisions of a transaction, for the SDK

`events.ts` of the SDK: the view of an RPC answer, the events in its log, and one decision for
each event.
-/

namespace Veto.Sdk

open Foundation
open Indexer (programData fromBase64 u64At)

def reasonText (reason : UInt8) : String :=
  match reason.toNat with
  | 0 => "ok"
  | 1 => "mandate not active"
  | 2 => "past expiry"
  | 3 => "nonce already settled"
  | 4 => "merchant not allowed"
  | 5 => "over per-payment maximum"
  | 6 => "over remaining cap"
  | 7 => "delegation withdrawn"
  | 8 => "insufficient funds"
  | 9 => "zero amount"
  | 10 => "account frozen"
  | 11 => "output account not allowed"
  | 12 => "pool account not allowed"
  | 13 => "over daily limit"
  | 14 => "quote below floor"
  | _ => "unknown"

inductive DecisionKind
  | paid
  | refused
  | advisoryDeclined
  deriving DecidableEq

structure TxMessageHeader where
  numRequiredSignatures : Nat
  numReadonlySignedAccounts : Nat
  numReadonlyUnsignedAccounts : Nat

structure Decision where
  signature : String
  slot : Int
  timestamp : Option Int
  mandate : String
  amount : Nat
  nonce : Nat
  counterparty : String
  kind : DecisionKind
  reason : Nat
  reasonText : String
  suggestedOverride : Nat
  advisoryReason : Option String
  descriptionSha256 : Option String
  deriving DecidableEq

structure TxView where
  signature : String
  slot : Int
  blockTime : Option Int
  err : Bool
  logs : List Text
  accountKeys : List String
  instructions : List Indexer.CompiledIx
  header : Option TxMessageHeader
  staticKeyCount : Nat
  loadedWritableCount : Nat

/-! ## The answer of a node -/

/-- A message lists its instructions in `compiledInstructions`, whichever its version. -/
structure RpcMessage where
  header : Option TxMessageHeader
  staticAccountKeys : List Pubkey
  compiledInstructions : List Veto.CompiledIx

structure RpcMeta where
  err : Bool
  logMessages : Option (List Text)
  loadedWritable : List Pubkey
  loadedReadonly : List Pubkey

structure RpcTransaction where
  slot : Option Int
  blockTime : Option Int
  info : Option RpcMeta
  signatures : List String
  message : RpcMessage

def RpcTransaction.loadedWritable (tx : RpcTransaction) : List Pubkey :=
  (tx.info.map RpcMeta.loadedWritable).getD []

def RpcTransaction.loadedReadonly (tx : RpcTransaction) : List Pubkey :=
  (tx.info.map RpcMeta.loadedReadonly).getD []

/-- `keys` of `messageKeys`. -/
def RpcTransaction.keys (tx : RpcTransaction) : List String :=
  (tx.message.staticAccountKeys ++ tx.loadedWritable ++ tx.loadedReadonly).map Pubkey.display

def instructionsOf (message : RpcMessage) (keys : List String) :
    List Indexer.CompiledIx :=
  message.compiledInstructions.map fun ix => {
    programId := keys.getD ix.programIdIndex ""
    accounts := ix.accountKeyIndexes.map fun index => keys.getD index ""
    data := ix.data }

/-- The signature and slot of the listing stand in where the answer has none. -/
def viewFromRpc (tx : RpcTransaction) (signature : String) (slot : Int) : TxView where
  signature := (tx.signatures.head?.filter (· ≠ "")).getD signature
  slot := tx.slot.getD slot
  blockTime := tx.blockTime
  err := (tx.info.map RpcMeta.err).getD false
  logs := (tx.info.bind RpcMeta.logMessages).getD []
  accountKeys := tx.keys
  instructions := instructionsOf tx.message tx.keys
  header := tx.message.header
  staticKeyCount := tx.message.staticAccountKeys.length
  loadedWritableCount := tx.loadedWritable.length

/-! ## Events -/

structure DecodedEvent where
  kind : DecisionKind
  mandate : Pubkey
  amount : UInt64
  nonce : UInt64
  reason : UInt8
  suggestedOverride : UInt64
  deriving DecidableEq

def decodeEventBytes (raw : Bytes) : Option DecodedEvent :=
  if raw.length < 8 then none
  else
    let disc := subarray raw 0 8
    if disc = PAID_EVENT_DISC then
      if raw.length < 64 then none
      else some {
        kind := .paid, mandate := Pubkey.ofBytes (subarray raw 8 40)
        amount := u64At raw 40, nonce := u64At raw 48, reason := 0, suggestedOverride := 0 }
    else if disc = REFUSED_EVENT_DISC then
      if raw.length < 65 then none
      else some {
        kind := .refused, mandate := Pubkey.ofBytes (subarray raw 8 40)
        amount := u64At raw 40, nonce := u64At raw 48, reason := byteAt raw 56
        suggestedOverride := u64At raw 57 }
    else none

def decodeEventsFromLogs (logs : List Text) (programId : Text) : List DecodedEvent :=
  (Logs.Sdk.linesForProgram logs programId).filterMap fun line =>
    ((programData line).map fromBase64).bind decodeEventBytes

/-! ## Decisions -/

def isChargeIx (ix : Indexer.CompiledIx) : Bool :=
  8 ≤ ix.data.length ∧ subarray ix.data 0 8 = CHARGE_DISCRIMINATOR

def counterpartyFromCharge (tx : TxView) (mandate : String) : String :=
  let named := tx.instructions.find? fun ix =>
    isChargeIx ix ∧ 5 ≤ ix.accounts.length ∧
      (ix.accounts[1]? = some mandate ∨ mandate ∈ ix.accounts)
  match named with
  | some ix => ix.accounts.getD 4 ""
  | none => ((tx.instructions.find? isChargeIx).bind fun ix => ix.accounts[4]?).getD ""

/-- The decision of one event. -/
def decisionOf (tx : TxView) (event : DecodedEvent) : Decision where
  signature := tx.signature
  slot := tx.slot
  timestamp := tx.blockTime
  mandate := event.mandate.display
  amount := event.amount.toNat
  nonce := event.nonce.toNat
  counterparty := counterpartyFromCharge tx event.mandate.display
  kind := event.kind
  reason := event.reason.toNat
  reasonText := reasonText event.reason
  suggestedOverride := event.suggestedOverride.toNat
  advisoryReason := none
  descriptionSha256 := none

/-- The decisions of a transaction, of one mandate where a filter names it. -/
def decisionsFromTx (tx : TxView) (programId : String) (mandateFilter : Option String) :
    List Decision :=
  if tx.err then []
  else
    let events := decodeEventsFromLogs tx.logs programId.toList
    (events.filter fun event => mandateFilter.all (· = event.mandate.display)).map (decisionOf tx)

/-- What the SDK reads where the indexer reads an event of a charge. -/
def DecodedEvent.of (event : Indexer.DecodedEvent) : DecodedEvent where
  kind := match event.kind with
    | .paid => .paid
    | _ => .refused
  mandate := event.mandate
  amount := event.amount
  nonce := event.nonce
  reason := event.reason
  suggestedOverride := event.suggestedOverride

/-- The SDK reads the events of a charge that the indexer reads, and no others. -/
theorem decodeEventBytes_eq (raw : Bytes) :
    decodeEventBytes raw =
      ((Indexer.decodeEventBytes raw).filter (·.rule.isNone)).map .of := by
  unfold decodeEventBytes Indexer.decodeEventBytes
  by_cases hshort : raw.length < 8
  · rw [if_pos hshort, if_pos hshort, Option.filter_none, Option.map_none]
  · rw [if_neg hshort, if_neg hshort]
    dsimp only
    by_cases htraded : subarray raw 0 8 = TRADED_EVENT_DISC
    · rw [if_pos htraded, htraded, if_neg (by decide), if_neg (by decide)]
      split <;> rfl
    · rw [if_neg htraded]
      by_cases hrefused : subarray raw 0 8 = TRADE_REFUSED_EVENT_DISC
      · rw [if_pos hrefused, hrefused, if_neg (by decide), if_neg (by decide)]
        split <;> rfl
      · rw [if_neg hrefused]
        split
        · split <;> rfl
        · split
          · split <;> rfl
          · rfl

end Veto.Sdk

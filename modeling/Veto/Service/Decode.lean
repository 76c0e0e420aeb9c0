import Veto.Indexer.Decisions
import Veto.System.Instructions

/-!
# The service's decoder

`decode/index.ts`: the instructions of a transaction flattened in execution order, and a record
for each of those that open, charge, allow, revoke or close a mandate.  A charge takes the
first decision left that has its mandate, amount and nonce.
-/

namespace Veto.Service

open Foundation

/-! ## The JSON encoding of `getTransaction` -/

structure RpcInstruction where
  programIdIndex : Nat
  accounts : List Nat
  data : Text

structure InnerInstructions where
  index : Nat
  instructions : List RpcInstruction

structure RpcMeta where
  /-- `meta.err`, as JSON. -/
  err : Option String
  logMessages : Option (List Text)
  innerInstructions : Option (List InnerInstructions)
  loadedWritable : List String
  loadedReadonly : List String

structure RpcTransaction where
  slot : Int
  blockTime : Option Int
  signatures : List String
  accountKeys : List String
  instructions : List RpcInstruction
  /-- `meta`. -/
  info : Option RpcMeta

structure Location where
  signature : String
  slot : Int
  timestamp : Option Int
  instructionIndex : Nat
  innerInstructionIndex : Option Nat
  deriving DecidableEq

structure LocatedInstruction extends Indexer.CompiledIx where
  instructionIndex : Nat
  innerInstructionIndex : Option Nat
  deriving DecidableEq

/-- Static, loaded writable, then loaded readonly keys. -/
def RpcTransaction.keys (tx : RpcTransaction) : List String :=
  match tx.info with
  | none => tx.accountKeys
  | some info => tx.accountKeys ++ info.loadedWritable ++ info.loadedReadonly

def RpcTransaction.innerInstructions (tx : RpcTransaction) : List InnerInstructions :=
  (tx.info.bind RpcMeta.innerInstructions).getD []

section Decoder

/-! `bs58.decode`, which fails on a text that is not base 58. -/

variable (bs58 : Text → Option Bytes)

def decodeIxData (data : Text) : Bytes := (bs58 data).getD []

def keyAt (keys : List String) (index : Nat) : Except String String :=
  okOr keys[index]? "Invalid transaction account index"

/-- `append`. -/
def locate (keys : List String) (ix : RpcInstruction) (index : Nat) (inner : Option Nat) :
    Except String LocatedInstruction := do
  let programId ← keyAt keys ix.programIdIndex
  let accounts ← ix.accounts.mapM (keyAt keys)
  return { programId, accounts, data := decodeIxData bs58 ix.data
           instructionIndex := index, innerInstructionIndex := inner }

/-- Flatten in execution order. -/
def transactionInstructions (tx : RpcTransaction) : Except String (List LocatedInstruction) := do
  let parts ← tx.instructions.zipIdx.mapM fun (ix, index) => do
    let top ← locate bs58 tx.keys ix index none
    let groups ← (tx.innerInstructions.filter fun group => group.index = index).mapM fun group =>
      group.instructions.zipIdx.mapM fun (inner, innerIndex) =>
        locate bs58 tx.keys inner index (some innerIndex)
    return top :: groups.flatten
  return parts.flatten

end Decoder

/-! ## Records -/

structure OwnerRecord extends Location where
  owner : String
  mandate : String
  ledger : String
  deriving DecidableEq

structure OpenMandateRecord extends OwnerRecord where
  source : String
  mint : String
  tokenProgram : String
  systemProgram : String
  mandateId : UInt64
  agent : String
  merchant : String
  cap : UInt64
  perTxMax : UInt64
  expiresAt : Int64
  purpose : String
  deriving DecidableEq

structure GrantOverrideRecord extends OwnerRecord where
  source : String
  tokenProgram : String
  amount : UInt64
  nonce : UInt64
  deriving DecidableEq

structure RevokeMandateRecord extends OwnerRecord where
  source : String
  tokenProgram : String
  deriving DecidableEq

/-- The location of a charge and its decision, which names the destination itself. -/
structure ChargeDecision where
  location : Location
  decision : Indexer.Decision
  deriving DecidableEq

inductive DecodedRecord
  | openMandate (record : OpenMandateRecord)
  | grantOverride (record : GrantOverrideRecord)
  | revokeMandate (record : RevokeMandateRecord)
  | closeMandate (record : OwnerRecord)
  | charge (record : ChargeDecision)
  deriving DecidableEq

/-- `names`. -/
inductive IxName
  | openMandate
  | grantOverride
  | revokeMandate
  | closeMandate
  | charge
  deriving DecidableEq

def IxName.text : IxName → String
  | openMandate => "open_mandate"
  | grantOverride => "grant_override"
  | revokeMandate => "revoke_mandate"
  | closeMandate => "close_mandate"
  | charge => "charge"

/-- An instruction of the bundled IDL. -/
structure Layout where
  name : IxName
  discriminator : Bytes
  accounts : List String
  deriving DecidableEq

def Layout.of : IxName → Layout
  | .openMandate => {
      name := .openMandate
      discriminator := OPEN_MANDATE_DISCRIMINATOR
      accounts :=
        ["owner", "mandate", "ledger", "source", "mint", "token_program", "system_program"] }
  | .grantOverride => {
      name := .grantOverride
      discriminator := GRANT_OVERRIDE_DISCRIMINATOR
      accounts := ["owner", "mandate", "ledger", "source", "token_program"] }
  | .revokeMandate => {
      name := .revokeMandate
      discriminator := REVOKE_MANDATE_DISCRIMINATOR
      accounts := ["owner", "mandate", "ledger", "source", "token_program"] }
  | .closeMandate => {
      name := .closeMandate
      discriminator := CLOSE_MANDATE_DISCRIMINATOR
      accounts := ["owner", "mandate", "ledger"] }
  | .charge => {
      name := .charge
      discriminator := CHARGE_DISCRIMINATOR
      accounts :=
        ["agent", "mandate", "ledger", "source", "destination", "mint", "token_program"] }

/-- `idl.instructions` cut down to `names`. -/
def layouts : List Layout :=
  [.of .charge, .of .closeMandate, .of .grantOverride, .of .openMandate, .of .revokeMandate]

def layoutOf (data : Bytes) : Option Layout :=
  layouts.find? fun layout => subarray data 0 8 = layout.discriminator

/-- `accounts[name]`. -/
def accountNamed (layout : Layout) (accounts : List String) (name : String) : String :=
  accounts.getD (layout.accounts.idxOf name) ""

/-- A text without the byte order mark at its head. -/
def withoutMark (text : String) : String :=
  match text.toList with
  | '\ufeff' :: rest => String.ofList rest
  | _ => text

/-- `new TextDecoder('utf-8', { fatal: true }).decode(data)`, which drops a byte order mark. -/
def decodeText (data : Bytes) : Except Thrown String :=
  let text := utf8Text data
  if utf8Bytes text = data then .ok (withoutMark text)
  else .error (.error "The encoded data was not valid for encoding utf-8")

def pubkeyText (data : Bytes) (start : Nat) : String :=
  (Pubkey.ofBytes (subarray data start (start + 32))).display

section Instruction

variable (owner : OwnerRecord) (account : String → String) (data : Bytes)

/-! The cases of the `switch`, over the accounts by name. -/

def decodeOpenMandate : Except Thrown DecodedRecord := do
  let length ← readUInt32LE data 104
  throwUnless (data.length = 108 + length.toNat) "Invalid purpose length"
  return .openMandate { owner with
    source := account "source"
    mint := account "mint"
    tokenProgram := account "token_program"
    systemProgram := account "system_program"
    mandateId := ← readBigUInt64LE data 8
    agent := pubkeyText data 16
    merchant := pubkeyText data 48
    cap := ← readBigUInt64LE data 80
    perTxMax := ← readBigUInt64LE data 88
    expiresAt := ← readBigInt64LE data 96
    purpose := ← decodeText (data.drop 108) }

def decodeGrantOverride : Except Thrown DecodedRecord := do
  throwUnless (data.length = 24) "Invalid override length"
  return .grantOverride { owner with
    source := account "source"
    tokenProgram := account "token_program"
    amount := ← readBigUInt64LE data 8
    nonce := ← readBigUInt64LE data 16 }

def decodeRevokeMandate : Except Thrown DecodedRecord := do
  throwUnless (data.length = 8) "Invalid revoke length"
  return .revokeMandate { owner with
    source := account "source"
    tokenProgram := account "token_program" }

def decodeCloseMandate : Except Thrown DecodedRecord := do
  throwUnless (data.length = 8) "Invalid close length"
  return .closeMandate owner

def decodeCharge (location : Location) (remaining : List Indexer.Decision) :
    Except Thrown (DecodedRecord × List Indexer.Decision) := do
  throwUnless (data.length = 24) "Invalid charge length"
  let amount := (← readBigUInt64LE data 8).toNat
  let nonce := (← readBigUInt64LE data 16).toNat
  match remaining.findIdx? fun d =>
      d.mandate = account "mandate" ∧ d.amount = amount ∧ d.nonce = nonce with
  | none => .error (.error "Missing Paid or Refused decision")
  | some index =>
    let decision ← okOr remaining[index]? .outOfRange
    return (.charge { location, decision := { decision with
      counterparty := account "destination" } }, remaining.eraseIdx index)

end Instruction

/-- The body of the `try`: the record of one instruction, and the decisions left. -/
def decodeInstruction (location : Location) (layout : Layout) (ix : LocatedInstruction)
    (remaining : List Indexer.Decision) :
    Except Thrown (DecodedRecord × List Indexer.Decision) := do
  throwUnless (layout.accounts.length ≤ ix.accounts.length) "Missing instruction accounts"
  let account := accountNamed layout ix.accounts
  let owner : OwnerRecord := { location with
    owner := account "owner", mandate := account "mandate", ledger := account "ledger" }
  match layout.name with
  | .openMandate => return (← decodeOpenMandate owner account ix.data, remaining)
  | .grantOverride => return (← decodeGrantOverride owner account ix.data, remaining)
  | .revokeMandate => return (← decodeRevokeMandate owner account ix.data, remaining)
  | .closeMandate => return (← decodeCloseMandate owner ix.data, remaining)
  | .charge => decodeCharge account ix.data location remaining

/-- One instruction of the loop. -/
def decodeNext (signature : String) (slot : Int) (timestamp : Option Int)
    (state : List DecodedRecord × List Indexer.Decision) (ix : LocatedInstruction) :
    Except String (List DecodedRecord × List Indexer.Decision) :=
  match layoutOf ix.data with
  | none => .ok state
  | some layout =>
    let location : Location := {
      signature, slot, timestamp
      instructionIndex := ix.instructionIndex
      innerInstructionIndex := ix.innerInstructionIndex }
    match decodeInstruction location layout ix state.2 with
    | .ok (record, remaining) => .ok (state.1 ++ [record], remaining)
    | .error _ => .error ("Malformed or incomplete " ++ layout.name.text ++ " at instruction " ++
        toString ix.instructionIndex)

/-- Decode committed changes only. -/
def decodeTransaction (bs58 : Text → Option Bytes) (tx : RpcTransaction) (programId : String) :
    Except String (List DecodedRecord) :=
  match tx.info with
  | none => .ok []
  | some info =>
    if info.err.isSome then .ok []
    else do
      let signature ← okOr (tx.signatures.head?.filter (· ≠ "")) "Missing transaction signature"
      let located ← transactionInstructions bs58 tx
      let instructions := located.filter fun ix => ix.programId = programId
      let decisions := Indexer.decisionsFromTx {
        signature, slot := tx.slot, blockTime := tx.blockTime, err := false
        logs := info.logMessages.getD []
        instructions := instructions.map (·.toCompiledIx) } programId
      let (records, remaining) ← instructions.foldlM (decodeNext signature tx.slot tx.blockTime)
        ([], decisions)
      require (remaining = []) "Decision event without matching charge instruction"
      return records

end Veto.Service

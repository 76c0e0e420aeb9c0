import Veto.Foundation.JsNumber
import Veto.Mandate.Layout
import Veto.Service.Committed
import Veto.Service.Recompute

/-!
# The sources

`boundary.ts` and `sources/shared.ts`: the adapter both sources use.  A transaction is decoded,
and its records are stored in one database transaction, which reads what was committed before
it until its first insert takes the writers' lock.
-/

namespace Veto.Service

open Foundation

/-! ## The boundary -/

structure IngestLocation extends DecisionKey where
  slot : Int
  /-- `new Date(seconds * 1000)`. -/
  blockTime : Int
  deriving DecidableEq

def ingestLocation (record : Location) (slotTime : Option Int) : Except String IngestLocation := do
  let seconds ← okOr (record.timestamp.or slotTime) ("No block time for " ++ record.signature ++
    ": pass the slot's time when getTransaction returns null")
  return {
    signature := record.signature
    slot := record.slot
    blockTime := seconds * 1000
    instructionIndex := record.instructionIndex
    innerIndex := (record.innerInstructionIndex.map fun index : Nat => (index : Int)).getD (-1) }

/-! ## What a source reads -/

structure Identity where
  owner : String
  agent : String
  deriving DecidableEq

/-- `value` of `getAccountInfo`. -/
structure AccountInfo where
  owner : String
  data : Text
  encoding : String

/-- What is answered while a transaction is ingested. -/
structure Answers where
  getBlockTime : Int → Except String (Option Int)
  getAccountInfo : String → Except String (Option AccountInfo)
  /-- The row that `LIMIT 1` gives. -/
  limitOne : List Decision → Option Decision

/-- The identity in a mandate account. -/
def accountIdentity (value : Option AccountInfo) : Except String Identity := do
  let info ← okOr (value.filter fun info =>
    info.owner = String.ofList PROGRAM_ID.chars ∧ info.encoding = "base64")
    "Mandate identity unavailable; backfill its opening transaction first"
  let data := Indexer.fromBase64 info.data
  require (72 ≤ data.length ∧ subarray data 0 8 = MANDATE_DISCRIMINATOR) "Invalid mandate account"
  return { owner := pubkeyText data 8, agent := pubkeyText data 40 }

/-- The table `rules`, which is read where no decision is known, has no writer. -/
def ruleIdentity (decisions : List Decision) (rule : String) (answers : Answers) :
    Except String Identity :=
  match answers.limitOne (decisions.filter fun d => d.rule = rule) with
  | some known => .ok { owner := known.owner, agent := known.agent }
  | none => do accountIdentity (← answers.getAccountInfo rule)

/-! ## Records as rows -/

namespace DecodedRecord

def location : DecodedRecord → Location
  | openMandate record => record.toLocation
  | grantOverride record => record.toLocation
  | revokeMandate record => record.toLocation
  | closeMandate record => record.toLocation
  | charge record => record.location

def mandate : DecodedRecord → String
  | openMandate record => record.mandate
  | grantOverride record => record.mandate
  | revokeMandate record => record.mandate
  | closeMandate record => record.mandate
  | charge record => record.decision.mandate

def kind : DecodedRecord → Int
  | openMandate _ => 0
  | grantOverride _ => 3
  | revokeMandate _ => 4
  | closeMandate _ => 5
  | charge record =>
    match record.decision.kind with
    | .paid => 1
    | .refused => 2
    | .traded => 6

def reason : DecodedRecord → Int
  | charge record => record.decision.reason
  | _ => 0

def amount : DecodedRecord → Int
  | grantOverride record => record.amount.toNat
  | charge record => record.decision.amount
  | _ => 0

def nonce : DecodedRecord → Int
  | grantOverride record => record.nonce.toNat
  | charge record => record.decision.nonce
  | _ => 0

def counterparty (identity : Identity) : DecodedRecord → String
  | openMandate record => record.merchant
  | charge record => record.decision.counterparty
  | _ => identity.owner

def suggestedOverride : DecodedRecord → Option Int
  | charge record => some record.decision.suggestedOverride
  | _ => none

/-- A mandate that opens names its owner and agent itself. -/
def identity (decisions : List Decision) (answers : Answers) :
    DecodedRecord → Except String Identity
  | openMandate record => .ok { owner := record.owner, agent := record.agent }
  | record => ruleIdentity decisions record.mandate answers

/-- The row of a record. -/
def row (location : IngestLocation) (identity : Identity) (source : Source)
    (record : DecodedRecord) : Decision where
  toDecisionKey := location.toDecisionKey
  slot := location.slot
  blockTime := location.blockTime
  programVersion := 1
  ruleKind := .mandate
  rule := record.mandate
  agent := identity.agent
  owner := identity.owner
  kind := record.kind
  reason := record.reason
  amount := record.amount
  nonce := record.nonce
  counterparty := record.counterparty identity
  suggestedOverride := record.suggestedOverride
  commitment := .confirmed
  source := source

end DecodedRecord

/-! ## The writer -/

/-- A transaction of the database under way: what its reads see, and its own tables. -/
structure Ingesting where
  reads : Db
  db : Db
  count : Nat

/-- One record.  A duplicate needs no identity. -/
def ingestRecord (answers : Answers) (slotTime : Option Int) (source : Source)
    (state : Ingesting) (record : DecodedRecord) : Except String Ingesting := do
  let location ← ingestLocation record.location slotTime
  if location.toDecisionKey ∈ state.reads.decisionKeys then
    return state
  let identity ← record.identity state.reads.decisions answers
  let (inserted, db) ← insertDecision state.db (record.row location identity source)
  return { reads := db, db, count := if inserted then state.count + 1 else state.count }

/-- `raw.blockTime ?? await rpc('getBlockTime', [raw.slot])`. -/
def slotTimeOf (raw : RpcTransaction) (answers : Answers) : Except String (Option Int) :=
  match raw.blockTime with
  | some seconds => .ok (some seconds)
  | none => answers.getBlockTime raw.slot

/-- `ingestTransaction`.  `view` is what the transaction reads before it has the lock. -/
def ingestTransaction (bs58 : Text → Option Bytes) (raw : RpcTransaction) (source : Source)
    (answers : Answers) (view db : Db) : Except String (Nat × Db) := do
  require ((0 ≤ raw.slot ∧ raw.slot ≤ MAX_SAFE_INTEGER) ∧ raw.info.isSome) "Incomplete transaction"
  let records ← decodeTransaction bs58 raw (String.ofList PROGRAM_ID.chars)
  if records = [] then
    return (0, db)
  let slotTime ← slotTimeOf raw answers
  let done ← records.foldlM (ingestRecord answers slotTime source) ⟨view, db, 0⟩
  return (done.count, done.db)

end Veto.Service

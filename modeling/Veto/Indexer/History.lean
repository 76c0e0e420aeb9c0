import Veto.Indexer.Decisions
import Veto.Indexer.Listing
import Mathlib.Data.Rat.Floor

/-!
# The decision history of a window

`fetchDecisionHistory` reads the body of every listed signature and decodes its log.  A body
without a log is an error, unless it shows that the program was not invoked.
-/

namespace Veto.Indexer

open Foundation

/-! ## What a node answers -/

structure RpcError where
  message : String
  code : Option Int
  transport : Bool

inductive HistoryError
  | rpc (e : RpcError)
  | missingProgramId
  | listedTransactionMissing (signatures : List String)
  | listedLogBodyMissing (signatures : List String)

/-- One entry of a version 0 message's `addressTableLookups`. -/
structure TableLookup where
  writableIndexes : Option (List Nat)
  readonlyIndexes : Option (List Nat)

structure CompiledInstruction where
  programIdIndex : Nat
  accountKeyIndexes : List Nat
  data : Bytes

structure LegacyInstruction where
  programIdIndex : Nat
  accounts : List Nat
  data : String

inductive Version
  | legacy
  | zero
  | other
  deriving DecidableEq

/-- A message of either form; a key that is absent or null is `none`. -/
structure MessageLike where
  staticAccountKeys : Option (List String)
  accountKeys : Option (List String)
  compiledInstructions : Option (List CompiledInstruction)
  instructions : Option (List LegacyInstruction)
  addressTableLookups : Option (List TableLookup)
  version : Option Version

structure LoadedAddresses where
  writable : Option (List String)
  readonly : Option (List String)

/-- The program indexes of a group of inner instructions. -/
structure InnerGroup where
  instructions : Option (List Nat)

structure MetaLike where
  err : Bool
  logMessages : Option (List Text)
  loadedAddresses : Option LoadedAddresses
  innerInstructions : Option (List InnerGroup)

structure TransactionResponse where
  slot : Option Int
  blockTime : Option Int
  version : Option Version
  message : MessageLike
  meta_ : Option MetaLike

/-- What the node answers, by call and attempt. -/
structure HistoryNode where
  signatures : Nat → Option String → Nat → Except RpcError (List SignaturePage)
  transaction : String → Nat → Except RpcError (Option TransactionResponse)

/-! ## Retries -/

def asTransportError (e : RpcError) : RpcError := { e with transport := true }

/-- What is thrown once no attempt is left. -/
def thrown (label : String) (e : RpcError) : RpcError :=
  if e.transport then e
  else
    match e.code with
    | some code => if code = -32602 then e else asTransportError e
    | none => { e with message := label ++ ": " ++ e.message }

section Retry

variable (isRetryable : RpcError → Bool) {α : Type}

/-- The attempts that are left, from attempt `i`. -/
def retryFrom (label : String) (fn : Nat → Except RpcError α) : Nat → Nat → Except HistoryError α
  | 0, _ => .error (.rpc ⟨label ++ ": retry exhausted", none, false⟩)
  | left + 1, i =>
      match fn i with
      | .ok a => .ok a
      | .error e =>
          if isRetryable e = false ∨ left = 0 then .error (.rpc (thrown label e))
          else retryFrom label fn left (i + 1)

def withRetry (label : String) (fn : Nat → Except RpcError α) : Except HistoryError α :=
  retryFrom isRetryable label fn 5 0

theorem retryFrom_ok {label : String} {fn : Nat → Except RpcError α} {left i : Nat} {a : α}
    (h : retryFrom isRetryable label fn left i = .ok a) : ∃ attempt, fn attempt = .ok a := by
  induction left generalizing i with
  | zero => cases h
  | succ left ih =>
      rw [retryFrom] at h
      cases hfn : fn i with
      | ok b =>
          rw [hfn] at h
          cases h
          exact ⟨i, hfn⟩
      | error e =>
          rw [hfn] at h
          dsimp only at h
          split at h
          · cases h
          · exact ih h

/-- What a retried call returns, an attempt answered. -/
theorem withRetry_ok {label : String} {fn : Nat → Except RpcError α} {a : α}
    (h : withRetry isRetryable label fn = .ok a) : ∃ attempt, fn attempt = .ok a :=
  retryFrom_ok isRetryable h

end Retry

/-! ## The keys of a message -/

def staticKeys (message : MessageLike) : List String :=
  (message.staticAccountKeys.or message.accountKeys).getD []

def accountKeyList (message : MessageLike) (meta_ : Option MetaLike) : List String :=
  let loaded := meta_.bind MetaLike.loadedAddresses
  staticKeys message ++ (loaded.bind LoadedAddresses.writable).getD [] ++
    (loaded.bind LoadedAddresses.readonly).getD []

def declaredAccountCount (message : MessageLike) : Nat :=
  (staticKeys message).length +
    ((message.addressTableLookups.getD []).map fun lookup =>
      (lookup.writableIndexes.getD []).length + (lookup.readonlyIndexes.getD []).length).sum

/-- The program indexes of the top-level instructions. -/
def topIndexes (message : MessageLike) : List Nat :=
  match message.compiledInstructions.getD [] with
  | [] => (message.instructions.getD []).map LegacyInstruction.programIdIndex
  | compiled => compiled.map CompiledInstruction.programIdIndex

/-- The program indexes of the inner instructions, where a list of them is given. -/
def innerIndexes (meta_ : Option MetaLike) : List Nat :=
  ((meta_.bind MetaLike.innerInstructions).getD []).flatMap fun group =>
    group.instructions.getD []

def transactionInvokesProgram (message : MessageLike) (meta_ : Option MetaLike)
    (program : String) : Bool :=
  let keys := accountKeyList message meta_
  (topIndexes message).any (fun i => keys.getD i "" = program) ||
    (innerIndexes meta_).any fun i => keys.getD i "" = program

def listsProgram (message : MessageLike) (meta_ : Option MetaLike) (program : String) : Bool :=
  program ∈ accountKeyList message meta_

def version0Message (message : MessageLike) (version : Option Version) : Bool :=
  if version = some .legacy ∨ message.version = some .legacy then false
  else if version = some .zero ∨ message.version = some .zero then true
  else message.staticAccountKeys.isSome || message.compiledInstructions.isSome

def version0LookupsUnresolved (message : MessageLike) (version : Option Version) : Bool :=
  version0Message message version && message.addressTableLookups.isNone

def lookupListResolved (message : MessageLike) (meta_ : Option MetaLike) : Bool :=
  message.addressTableLookups.isSome &&
    decide (declaredAccountCount message ≤ (accountKeyList message meta_).length)

def unresolvedProgramIndex (message : MessageLike) (meta_ : Option MetaLike) : Bool :=
  let length := (accountKeyList message meta_).length
  decide (length < declaredAccountCount message) ||
    (topIndexes message).any (fun i => length ≤ i) || (innerIndexes meta_).any fun i => length ≤ i

def metaErr (meta_ : Option MetaLike) : Bool := meta_.any MetaLike.err

/-- The log of a body that has one. -/
def logBody (meta_ : Option MetaLike) : Option (List Text) := meta_.bind MetaLike.logMessages

/-- A missing log body that may hide an event. -/
def nullLogBodyInvokesProgram (message : MessageLike) (meta_ : Option MetaLike) (program : String)
    (version : Option Version) (listed : Bool) : Bool :=
  if metaErr meta_ then false
  else if (logBody meta_).isSome then false
  else if version0LookupsUnresolved message version then true
  else if unresolvedProgramIndex message meta_ then true
  else if transactionInvokesProgram message meta_ program then true
  else
    let innerMissing := (meta_.bind MetaLike.innerInstructions).isNone
    if innerMissing && listsProgram message meta_ program then true
    else listed && !listsProgram message meta_ program && !lookupListResolved message meta_

/-! ## The bodies -/

section History

variable (isRetryable : RpcError → Bool) (bs58 : String → Option Bytes)
  (localeCompare : String → String → Int) (node : HistoryNode) (programId : String)

def decodeIxData (data : String) : Bytes := (bs58 data).getD []

/-- The instructions of a message, by program and accounts. -/
def viewInstructions (message : MessageLike) (keys : List String) : List CompiledIx :=
  match message.compiledInstructions.getD [] with
  | [] => (message.instructions.getD []).map fun ix =>
      ⟨keys.getD ix.programIdIndex "", ix.accounts.map (keys.getD · ""), decodeIxData bs58 ix.data⟩
  | compiled => compiled.map fun ix =>
      ⟨keys.getD ix.programIdIndex "", ix.accountKeyIndexes.map (keys.getD · ""), ix.data⟩

def txToView (tx : TransactionResponse) (signature : String) (slot : Int) :
    Except HistoryError (Option TxView) :=
  if signature = "" then .ok none
  else if nullLogBodyInvokesProgram tx.message tx.meta_ programId tx.version true then
    .error (.listedLogBodyMissing [signature])
  else
    match logBody tx.meta_ with
    | none => .ok none
    | some logs => .ok (some {
        signature
        slot := tx.slot.getD slot
        blockTime := tx.blockTime
        err := metaErr tx.meta_
        logs
        instructions := viewInstructions bs58 tx.message (accountKeyList tx.message tx.meta_) })

def outsideWindow (blockTime : Option Int) (window : TimeWindow) : Bool :=
  match blockTime with
  | none => false
  | some time =>
      window.from_.any (fun start => (time : ℚ) < start) ||
        window.to_.any fun finish => finish < (time : ℚ)

/-- What the loop over the signatures has gathered. -/
structure Bodies where
  views : List TxView
  missing : List String
  nullLogs : List String
  fetched : List (String × Option TransactionResponse)

/-- The body of one signature. -/
def fetchBody (window : TimeWindow) (bodies : Bodies) (page : SignaturePage) :
    Except HistoryError Bodies := do
  if page.err then return bodies
  if outsideWindow page.blockTime window then return bodies
  let tx ← withRetry isRetryable
    ("getTransaction " ++ String.ofList (page.signature.toList.take 8))
    (node.transaction page.signature)
  let bodies := { bodies with fetched := bodies.fetched ++ [(page.signature, tx)] }
  match tx with
  | none => return { bodies with missing := bodies.missing ++ [page.signature] }
  | some tx =>
      if nullLogBodyInvokesProgram tx.message tx.meta_ programId tx.version true then
        return { bodies with nullLogs := bodies.nullLogs ++ [page.signature] }
      else
        let view ← txToView bs58 programId tx page.signature page.slot
        return { bodies with views := bodies.views ++ view.toList }

def fetchTransactions (pages : List SignaturePage) (window : TimeWindow) :
    Except HistoryError Bodies := do
  let bodies ← pages.foldlM (fetchBody isRetryable bs58 node programId window) ⟨[], [], [], []⟩
  if bodies.nullLogs ≠ [] then
    throw (.listedLogBodyMissing (bodies.nullLogs.mergeSort (· ≤ ·)))
  if bodies.missing ≠ [] then
    throw (.listedTransactionMissing (bodies.missing.mergeSort (· ≤ ·)))
  return bodies

/-! ## The history -/

def LOG_TRUNCATED : Text := lit "Log truncated"

def decisionLogTruncated (tx : TxView) : Bool :=
  !tx.err && LOG_TRUNCATED ∈ tx.logs

/-- The decisions of a transaction, of one mandate where one is named. -/
def mandateDecisions (mandate : Option String) (tx : TxView) : List Decision :=
  (decisionsFromTx tx programId).filter fun d => mandate.all fun m => m = "" || d.mandate = m

def compareDecisions (a b : Decision) : Int :=
  let ta := a.timestamp.getD 0
  let tb := b.timestamp.getD 0
  if ta ≠ tb then ta - tb
  else if a.slot ≠ b.slot then a.slot - b.slot
  else if a.nonce ≠ b.nonce then if a.nonce < b.nonce then -1 else 1
  else localeCompare a.signature b.signature

structure FetchHistoryOptions where
  pageSize : Option ℚ
  allowBlockScan : Option Bool
  window : TimeWindow
  mandate : Option String

structure HistoryResult where
  decisions : List Decision
  signaturePages : Nat
  signatureCount : Nat
  usedBlockScan : Bool
  slotsScanned : Nat
  transactions : List (String × Option TransactionResponse)
  truncated : List String

def clampPageSize : Option ℚ → Nat
  | none => 200
  | some n => if ⌊n⌋ < 1 then 1 else if 1000 < ⌊n⌋ then 1000 else ⌊n⌋.toNat

/-- The listing with its retries. -/
def listedSignatures (opts : FetchHistoryOptions) (fuel : Nat) :
    Option (Except HistoryError Listed) :=
  listProgramSignatures
    (fun limit before =>
      withRetry isRetryable "getSignaturesForAddress" (node.signatures limit before))
    (clampPageSize opts.pageSize) opts.window fuel

/-- What is made of the views. -/
def historyOf (opts : FetchHistoryOptions) (listed : Listed) (usedBlockScan : Bool)
    (slotsScanned : Nat) (views : List TxView)
    (transactions : List (String × Option TransactionResponse)) : HistoryResult where
  decisions := (views.flatMap (mandateDecisions programId opts.mandate)).mergeSort
    fun a b => compareDecisions localeCompare a b ≤ 0
  signaturePages := listed.pageCount
  signatureCount := listed.items.length
  usedBlockScan := usedBlockScan
  slotsScanned := slotsScanned
  transactions := transactions
  truncated := ((views.filter decisionLogTruncated).map TxView.signature).mergeSort (· ≤ ·)

/-- `scan` is what reading the blocks themselves gives, for a program without signatures. -/
def fetchDecisionHistory (scan : Except HistoryError (List TxView × Nat))
    (opts : FetchHistoryOptions) (fuel : Nat) : Option (Except HistoryError HistoryResult) :=
  if programId = "" then some (.error .missingProgramId)
  else
    (listedSignatures isRetryable node opts fuel).map fun outcome => do
      let listed ← outcome
      if listed.items ≠ [] then
        let bodies ← fetchTransactions isRetryable bs58 node programId listed.items opts.window
        return historyOf localeCompare programId opts listed false 0 bodies.views bodies.fetched
      else if opts.allowBlockScan ≠ some false ∧ listed.pageCount = 0 then
        let (views, slotsScanned) ← scan
        return historyOf localeCompare programId opts listed true slotsScanned views []
      else
        return historyOf localeCompare programId opts listed false 0 [] []

end History

end Veto.Indexer

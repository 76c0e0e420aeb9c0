import Veto.Foundation.Run
import Veto.Service.Stored

/-!
# The backfill

`sources/backfill.ts`: one run takes the scan lock, reads the cursor, collects the signatures
that are newer, newest first, ingests their transactions, oldest first, and writes the cursor.
Runs fail anywhere, webhook deliveries are ingested meanwhile, and the list of finalized
signatures grows.
-/

namespace Veto.Service.Backfill

open Foundation

structure SignatureInfo where
  signature : String
  slot : Int
  deriving DecidableEq

/-! ## The code of a run -/

/-- Where a call of `backfill` is. -/
inductive Phase
  /-- Before the lock. -/
  | locking
  /-- Before the cursor is read. -/
  | locked
  /-- Before the next page. -/
  | paging (cursor before : Option String) (history : List SignatureInfo)
  /-- Before the next transaction; after the last one the cursor is written. -/
  | replaying (newest : Option SignatureInfo) (todo : List SignatureInfo)
  | ended

/-- The loop over a page: whether it reached the cursor, and the history with what came before.
`seen` has the signatures of the history. -/
def takePage (cursor : Option String) :
    List SignatureInfo → List SignatureInfo → Except String (Bool × List SignatureInfo)
  | history, [] => .ok (false, history)
  | history, item :: page =>
    if some item.signature = cursor then .ok (true, history)
    else if item.signature ∈ history.map SignatureInfo.signature then
      .error "RPC pagination did not advance"
    else takePage cursor (history ++ [item]) page

/-- Replay oldest first so closed mandates retain identity from their opens. -/
def replay (history : List SignatureInfo) : Phase := .replaying history.head? history.reverse

/-- What follows an answered page. -/
def afterPage (cursor : Option String) (history page : List SignatureInfo) : Except String Phase :=
  match page.getLast? with
  | none => .ok (replay history)
  | some last => do
    let (reached, history) ← takePage cursor history page
    return if reached then replay history else .paging cursor (some last.signature) history

def fetchTransaction (answer : Option RpcTransaction) (signature : String) :
    Except String RpcTransaction :=
  okOr (answer.filter fun tx => tx.signatures.head? = some signature)
    "Transaction unavailable or signature mismatch"

/-- One item of the replay. -/
def replayItem (bs58 : Text → Option Bytes) (item : SignatureInfo) (answer : Option RpcTransaction)
    (answers : Answers) (view db : Db) : Except String (Nat × Db) := do
  let raw ← fetchTransaction answer item.signature
  require (raw.slot = item.slot) "Transaction slot differs from signature history"
  ingestTransaction bs58 raw .backfill answers view db

/-! ## What surrounds it -/

/-- The transaction behind each signature. -/
structure Chain where
  transaction : String → RpcTransaction
  signed : ∀ signature, (transaction signature).signatures.head? = some signature
  /-- An answer has the inner instructions of one instruction in one group. -/
  grouped : ∀ signature,
    ((transaction signature).innerInstructions.map InnerInstructions.index).Nodup

/-- The listed signatures older than `before` and newer than `until`. -/
def between (listed : List SignatureInfo) (before cursor : Option String) : List SignatureInfo :=
  let older : List SignatureInfo := match before with
    | none => listed
    | some signature => (listed.dropWhile fun info => info.signature ≠ signature).tail
  older.takeWhile fun info => some info.signature ≠ cursor

/-- `getSignaturesForAddress` with `limit: 1000`: a page of them, from the newest on. -/
structure Lists (listed : List SignatureInfo) (before cursor : Option String)
    (page : List SignatureInfo) : Prop where
  newest : page <+: between listed before cursor
  limit : page.length ≤ 1000
  more : page = [] → between listed before cursor = []

structure System where
  /-- The finalized signatures of the program, newest first. -/
  listed : List SignatureInfo
  db : Db
  /-- The row of `cursors` with `source='backfill'`. -/
  cursor : Option SignatureInfo
  /-- The call that has the advisory lock. -/
  holder : Option Nat
  /-- The calls of `backfill`, one after the other. -/
  runs : Nat → Phase

/-- An empty index. -/
def System.start : System where
  listed := []
  db := .empty
  cursor := none
  holder := none
  runs _ := .locking

def System.to (s : System) (run : Nat) (phase : Phase) : System :=
  { s with runs := Function.update s.runs run phase }

/-- The lock is free again if this call had it. -/
def System.release (s : System) (run : Nat) : System :=
  { s with holder := if s.holder = some run then none else s.holder }

inductive Input
  /-- A signature is finalized. -/
  | finalized (info : SignatureInfo)
  /-- The webhook ingests the transaction of a signature. -/
  | delivered (signature : String)
  | lock (run : Nat)
  | readCursor (run : Nat)
  | page (run : Nat) (page : List SignatureInfo)
  | ingest (run : Nat)
  | writeCursor (run : Nat)
  /-- The call returns or throws, and `finally` unlocks. -/
  | unlock (run : Nat)
  /-- The connection that has the lock is lost. -/
  | disconnect (run : Nat)

/-- The call of `backfill` that takes a step. -/
def Input.run : Input → Option Nat
  | finalized _ => none
  | delivered _ => none
  | lock run => some run
  | readCursor run => some run
  | page run _ => some run
  | ingest run => some run
  | writeCursor run => some run
  | unlock run => some run
  | disconnect run => some run

/-- One step.  What a transaction of the database reads before it has the writers' lock is as
it stood at some moment before.  An ingest that fails leaves no trace, and the call ends. -/
inductive Step (bs58 : Text → Option Bytes) (chain : Chain) :
    System → Input → Unit → System → Prop
  | finalized {s : System} {info : SignatureInfo}
      (fresh : info.signature ∉ s.listed.map SignatureInfo.signature) :
      Step bs58 chain s (.finalized info) () { s with listed := info :: s.listed }
  | delivered {s : System} {signature : String} {answers : Answers} {view db : Db} {count : Nat}
      (before : view.Before s.db)
      (ok : ingestTransaction bs58 (chain.transaction signature) .webhook answers view s.db =
        .ok (count, db)) :
      Step bs58 chain s (.delivered signature) () { s with db := db }
  | lock {s : System} {run : Nat} (at_phase : s.runs run = .locking) (free : s.holder = none) :
      Step bs58 chain s (.lock run) () { s.to run .locked with holder := some run }
  | readCursor {s : System} {run : Nat} (at_phase : s.runs run = .locked)
      (held : s.holder = some run) :
      Step bs58 chain s (.readCursor run) ()
        (s.to run (.paging (s.cursor.map SignatureInfo.signature) none []))
  | page {s : System} {run : Nat} {cursor before : Option String}
      {history page : List SignatureInfo} {phase : Phase}
      (at_phase : s.runs run = .paging cursor before history)
      (lists : Lists s.listed before cursor page)
      (ok : afterPage cursor history page = .ok phase) :
      Step bs58 chain s (.page run page) () (s.to run phase)
  | ingest {s : System} {run : Nat} {newest : Option SignatureInfo} {item : SignatureInfo}
      {todo : List SignatureInfo} {answers : Answers} {view db : Db} {count : Nat}
      (at_phase : s.runs run = .replaying newest (item :: todo)) (before : view.Before s.db)
      (ok : replayItem bs58 item (some (chain.transaction item.signature)) answers view s.db =
        .ok (count, db)) :
      Step bs58 chain s (.ingest run) () { s.to run (.replaying newest todo) with db := db }
  | writeCursor {s : System} {run : Nat} {newest : SignatureInfo}
      (at_phase : s.runs run = .replaying (some newest) []) (held : s.holder = some run) :
      Step bs58 chain s (.writeCursor run) () { s.to run .ended with cursor := some newest }
  | unlock {s : System} {run : Nat} :
      Step bs58 chain s (.unlock run) () ((s.to run .ended).release run)
  | disconnect {s : System} {run : Nat} :
      Step bs58 chain s (.disconnect run) () (s.release run)

end Veto.Service.Backfill

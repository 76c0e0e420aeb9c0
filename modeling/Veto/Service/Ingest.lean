import Veto.Foundation.Result
import Mathlib.Logic.Function.Basic
import Mathlib.Algebra.Order.Group.Int
import Mathlib.Algebra.Ring.Int.Defs
import Mathlib.Algebra.Group.Pi.Basic

/-!
# The index

The service's tables and its two writers.  A decision is stored once under its place in the
chain.  Counters and extremes for its rule and its agent are kept beside it by differences:
`recomputeNonce` reclassifies every decision of one rule and nonce, and `rescanExtrema` looks
an extreme up again only when the removed row had it.
-/

namespace Veto.Service

open Foundation

inductive RuleKind
  | mandate
  | hold
  | trade
deriving DecidableEq, Repr

inductive Commitment
  | confirmed
  | finalized
deriving DecidableEq, Repr

inductive Source
  | grpc
  | webhook
  | backfill
  | logs
deriving DecidableEq, Repr

structure DecisionKey where
  signature : String
  instructionIndex : Int
  innerIndex : Int
deriving DecidableEq, Repr

/-- A row of `decisions`.  `blockTime` is the value of its date, in milliseconds since 1970. -/
structure Decision extends DecisionKey where
  slot : Int
  blockTime : Int
  programVersion : Int
  ruleKind : RuleKind
  rule : String
  agent : String
  owner : String
  kind : Int
  reason : Int
  amount : Int
  nonce : Int
  counterparty : String
  suggestedOverride : Option Int
  commitment : Commitment
  source : Source
deriving DecidableEq, Repr

abbrev Decision.key (row : Decision) : DecisionKey := row.toDecisionKey

inductive Counter
  | requests
  | paid
  | outside
  | allowances
  | declines
deriving DecidableEq, Repr

abbrev Counts := Counter → Int

structure Delta where
  rule : String
  agent : String
  counts : Counts

/-- The columns of a statistics row that are extremes. -/
structure Extrema where
  firstOpenTs : Option Int
  firstTs : Option Int
  lastTs : Option Int
  lastSlot : Option Int
deriving DecidableEq, Repr

structure Stats where
  counts : Counts
  extrema : Extrema

/-- A row as `INSERT` makes it: every counter 0 and every extreme null. -/
def Stats.fresh : Stats := ⟨0, none, none, none, none⟩

/-- A row of `rule_stats` or of `agent_stats`. -/
inductive StatsKey
  | rule (rule : String)
  | agent (agent : String)
deriving DecidableEq, Repr

/-- The `WHERE` of a statistics row: the decisions it is about. -/
def StatsKey.holds : StatsKey → Decision → Bool
  | .rule name, row => row.rule = name
  | .agent name, row => row.agent = name

structure Db where
  decisionKeys : List DecisionKey
  decisions : List Decision
  deltas : DecisionKey → Option Delta
  stats : StatsKey → Option Stats

/-- The tables after `migrate`. -/
def Db.empty : Db := ⟨[], [], fun _ => none, fun _ => none⟩

/-! ## Counters -/

/-- The `CHECK` constraints of the statistics tables. -/
def Counts.Fair (counts : Counts) : Prop :=
  counts .requests = counts .paid + counts .outside ∧
    0 ≤ counts .paid ∧ 0 ≤ counts .outside ∧ 0 ≤ counts .allowances ∧ 0 ≤ counts .declines

instance (counts : Counts) : Decidable counts.Fair :=
  inferInstanceAs (Decidable (_ ∧ _ ∧ _ ∧ _ ∧ _))

/-- The counters of one row of one table: inserted if missing, then updated. -/
def addCounts (db : Db) (key : StatsKey) (counts : Counts) : Except String Db := do
  let row := (db.stats key).getD .fresh
  let row := { row with counts := row.counts + counts }
  require row.counts.Fair "new row for relation violates check constraint"
  return { db with stats := Function.update db.stats key (some row) }

def apply (db : Db) (delta : Delta) (sign : Int) : Except String Db := do
  let db ← addCounts db (.rule delta.rule) fun c => delta.counts c * sign
  addCounts db (.agent delta.agent) fun c => delta.counts c * sign

/-- `EXISTS (SELECT 1 FROM decisions s WHERE s.rule = … AND s.nonce = … AND s.kind = …)`. -/
def hasKind (decisions : List Decision) (rule : String) (nonce kind : Int) : Bool :=
  decisions.any fun s => s.rule = rule ∧ s.nonce = nonce ∧ s.kind = kind

/-- What one row adds to the counters, given the rows it stands among. -/
def contribution (decisions : List Decision) (row : Decision) : Counts :=
  let paid : Int := if row.kind = 1 ∧ ¬ hasKind decisions row.rule row.nonce 3 then 1 else 0
  let outside : Int :=
    if row.kind = 2 ∨ (row.kind = 3 ∧ ¬ hasKind decisions row.rule row.nonce 2) then 1 else 0
  fun
    | .requests => paid + outside
    | .paid => paid
    | .outside => outside
    | .allowances => if row.kind = 3 then 1 else 0
    | .declines => if row.kind = 100 then 1 else 0

/-- `INSERT INTO deltas … ON CONFLICT … DO UPDATE`: only the counters of a stored row change. -/
def upsertDelta (previous : Option Delta) (next : Delta) : Delta :=
  match previous with
  | some stored => { stored with counts := next.counts }
  | none => next

/-- One pass of the loop in `recomputeNonce`. -/
def recomputeRow (rule : String) (db : Db) (row : Decision) (counts : Counts) :
    Except String Db := do
  let next : Delta := ⟨rule, row.agent, counts⟩
  let previous := db.deltas row.key
  let difference := { next with
    counts := fun c => next.counts c - (previous.elim 0 fun p => p.counts c) }
  let db ← apply db difference 1
  return { db with
    deltas := Function.update db.deltas row.key (some (upsertDelta previous next)) }

def recomputeNonce (db : Db) (rule : String) (nonce : Int) : Except String Db :=
  let rows := (db.decisions.filter fun d => d.rule = rule ∧ d.nonce = nonce).map fun d =>
    (d, contribution db.decisions d)
  rows.foldlM (fun db row => recomputeRow rule db row.1 row.2) db

/-! ## Extremes -/

/-- `LEAST` of the stored value and the row's own, if the row counts. -/
def leastIf (counts : Prop) [Decidable counts] (stored : Option Int) (own : Int) : Option Int :=
  if counts then stored.merge min (some own) else stored

def bumpExtrema (db : Db) (key : StatsKey) (row : Decision) : Db :=
  match db.stats key with
  | none => db
  | some stats =>
    let e := stats.extrema
    let extrema : Extrema := {
      firstOpenTs := leastIf (row.kind = 0 ∧ 0 < row.blockTime) e.firstOpenTs row.blockTime
      firstTs := leastIf (0 < row.blockTime) e.firstTs row.blockTime
      lastTs := e.lastTs.merge max (some row.blockTime)
      lastSlot := e.lastSlot.merge max (some row.slot) }
    { db with stats := Function.update db.stats key (some { stats with extrema := extrema }) }

/-- `SELECT min(block_time) FROM decisions WHERE … AND kind = 0 AND block_time > '1970-01-01Z'`. -/
def minOpenTs (decisions : List Decision) (key : StatsKey) : Option Int :=
  ((decisions.filter fun d => key.holds d ∧ d.kind = 0 ∧ 0 < d.blockTime).map (·.blockTime)).min?

/-- `SELECT min(block_time) FROM decisions WHERE … AND block_time > '1970-01-01Z'`. -/
def minTs (decisions : List Decision) (key : StatsKey) : Option Int :=
  ((decisions.filter fun d => key.holds d ∧ 0 < d.blockTime).map (·.blockTime)).min?

/-- `SELECT max(block_time) FROM decisions WHERE …`. -/
def maxTs (decisions : List Decision) (key : StatsKey) : Option Int :=
  ((decisions.filter fun d => key.holds d).map (·.blockTime)).max?

/-- `SELECT max(slot) FROM decisions WHERE …`. -/
def maxSlot (decisions : List Decision) (key : StatsKey) : Option Int :=
  ((decisions.filter fun d => key.holds d).map (·.slot)).max?

def rescanExtrema (db : Db) (key : StatsKey) (removed : Decision) : Db :=
  match db.stats key with
  | none => db
  | some stats =>
    let e := stats.extrema
    let removedTs := removed.blockTime
    let extrema : Extrema := {
      firstOpenTs := if removed.kind = 0 ∧ e.firstOpenTs = some removedTs
        then minOpenTs db.decisions key else e.firstOpenTs
      firstTs := if e.firstTs = some removedTs ∧ 0 < removedTs
        then minTs db.decisions key else e.firstTs
      lastTs := if e.lastTs = some removedTs then maxTs db.decisions key else e.lastTs
      lastSlot := if e.lastSlot = some removed.slot
        then maxSlot db.decisions key else e.lastSlot }
    { db with stats := Function.update db.stats key (some { stats with extrema := extrema }) }

/-! ## The writers -/

/-- The first instant of the year 1000 and of the year 9999, in milliseconds. -/
def firstMonth : Int := -30610224000000
def lastMonth : Int := 253370764800000

def ensureMonth (blockTime : Int) : Except String Unit :=
  require (firstMonth ≤ blockTime ∧ blockTime < lastMonth)
    "block_time must be a valid timestamp in years 1000 through 9998"

/-- The types and `CHECK` constraints of the key's columns. -/
def DecisionKey.Fits (key : DecisionKey) : Prop :=
  0 ≤ key.instructionIndex ∧ key.instructionIndex < 2 ^ 31 ∧
    -1 ≤ key.innerIndex ∧ key.innerIndex < 2 ^ 31

instance (key : DecisionKey) : Decidable key.Fits :=
  inferInstanceAs (Decidable (_ ∧ _ ∧ _ ∧ _))

/-- The types and `CHECK` constraints of the other columns of `decisions`. -/
def Decision.Fits (row : Decision) : Prop :=
  (0 ≤ row.slot ∧ row.slot < 2 ^ 63) ∧
    (-2 ^ 31 ≤ row.programVersion ∧ row.programVersion < 2 ^ 31) ∧
    (-2 ^ 31 ≤ row.kind ∧ row.kind < 2 ^ 31) ∧ (-2 ^ 31 ≤ row.reason ∧ row.reason < 2 ^ 31)

instance (row : Decision) : Decidable row.Fits :=
  inferInstanceAs (Decidable (_ ∧ _ ∧ _ ∧ _))

def insertDecision (db : Db) (row : Decision) : Except String (Bool × Db) := do
  if row.key ∈ db.decisionKeys then
    return (false, db)
  require row.key.Fits "new row for relation \"decision_keys\" violates check constraint"
  let db := { db with decisionKeys := db.decisionKeys ++ [row.key] }
  ensureMonth row.blockTime
  require row.Fits "new row for relation \"decisions\" violates check constraint"
  -- ON CONFLICT on the primary key of `decisions`
  require (∀ d ∈ db.decisions, ¬ (d.key = row.key ∧ d.blockTime = row.blockTime))
    "Decision key exists without a newly inserted decision"
  let db := { db with decisions := db.decisions ++ [row] }
  let db ← recomputeNonce db row.rule row.nonce
  let db := bumpExtrema db (.rule row.rule) row
  let db := bumpExtrema db (.agent row.agent) row
  return (true, db)

def reverseDecision (db : Db) (key : DecisionKey) : Except String (Bool × Db) :=
  match db.deltas key with
  | none => .ok (false, db)
  | some delta => do
    let removed ← okOr (db.decisions.find? fun d => d.key = key) "Delta exists without a decision"
    let db ← apply db delta (-1)
    let db := { db with deltas := Function.update db.deltas key none }
    let db := { db with decisions := db.decisions.filter fun d => d.key ≠ key }
    let db := { db with decisionKeys := db.decisionKeys.filter fun k => k ≠ key }
    let db ← recomputeNonce db delta.rule removed.nonce
    let db := rescanExtrema db (.rule delta.rule) removed
    let db := rescanExtrema db (.agent delta.agent) removed
    return (true, db)

/-! ## Runs -/

/-- One call of a writer. -/
inductive Call
  | insert (row : Decision)
  | reverse (key : DecisionKey)
deriving DecidableEq, Repr

/-- The call in a transaction of its own: an error leaves the tables as they were. -/
def Call.run (db : Db) : Call → Db
  | .insert row =>
    match insertDecision db row with
    | .ok (_, db') => db'
    | .error _ => db
  | .reverse key =>
    match reverseDecision db key with
    | .ok (_, db') => db'
    | .error _ => db

def runCalls (calls : List Call) : Db := calls.foldl Call.run .empty

end Veto.Service

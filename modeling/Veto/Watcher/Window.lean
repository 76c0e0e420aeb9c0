import Veto.Watcher.Charge
import Veto.Watcher.Money

/-!
# Processing a meter window

`run.ts` and `journal.ts`: one cadence slot is decided at most once, by what the chain
shows of it, and the decision is a row appended to the journal.
-/

namespace Veto.Watcher

open Foundation

/-! ## The journal -/

inductive RowDecision
  | paid
  | refused
  | gap
  | skipped
  deriving DecidableEq

def Decision.row : Decision → RowDecision
  | paid => .paid
  | refused => .refused

structure JournalRow where
  nonce : Nat
  amount : Nat
  decision : RowDecision
  reason : String
  reasonCode : Option Nat
  signature : Option String
  suggestedOverride : Option Nat
  deriving DecidableEq

abbrev Journal := List JournalRow

namespace Journal

/-- Only a decision the chain made settles a window.  A gap is an outage note. -/
def terminal : RowDecision → Bool
  | .paid | .refused | .skipped => true
  | .gap => false

def hasNonce (journal : Journal) (nonce : Nat) : Bool :=
  journal.any fun row => row.nonce = nonce && terminal row.decision

/-- The highest nonce that has actually paid. -/
def maxSettledNonce (journal : Journal) : Nat :=
  journal.foldl (fun max row =>
    if row.signature ≠ none ∧ row.decision = .paid ∧ max < row.nonce then row.nonce else max) 0

def hasGap (journal : Journal) (nonce : Nat) (reason : String) : Bool :=
  journal.any fun row => row.nonce = nonce && row.decision = .gap && row.reason = reason

end Journal

/-! ## The slot -/

def QUARTER_MS : Int := 15 * 60 * 1000

/-- Unix seconds of the 15-minute window that contains the instant, in milliseconds. -/
def nonceFromSlot (slot : Int) : Except String Nat :=
  let start := slot - slot % QUARTER_MS
  if start < 0 then .error "nonce.nonceFromSlot: instant before epoch"
  else .ok (start.toNat / 1000)

/-- A window of the feed; `startMs` is `Date.parse` of its start. -/
structure PriceWindow where
  timeStart : String
  startMs : Option Int
  sekPerKwh : Text

def nonceFromWindowStart (window : PriceWindow) : Option Nat :=
  match window.startMs with
  | none => none
  | some ms => if ms < 0 then none else some (ms.toNat / 1000)

def windowStartsAtSlot (window : PriceWindow) (nonce : Nat) : Bool :=
  nonceFromWindowStart window = some nonce

/-- `kwhMilli`, `mintDecimals` and what the feeds answer for one slot. -/
structure WindowArgs where
  slot : Int
  /-- `feed.getWindow`, by attempt. -/
  feed : Nat → Option PriceWindow
  feedAttempts : Nat
  kwhMilli : Int
  mintDecimals : Nat
  quoteCurrency : SpotQuoteCurrency
  /-- `readFxOrUnreachable`. -/
  fx : Option FxQuote
  /-- `fxFixingIsFresh` of a fixing date at the slot. -/
  fxFresh : String → Bool

def WindowArgs.window (args : WindowArgs) : Option PriceWindow :=
  (List.range args.feedAttempts).findSome? args.feed

/-! ## Chain reads under a backoff -/

/-- How a window stops undecided: deferred by a rate limit, still waiting for the node, or
thrown out. -/
inductive Stop
  | rateLimited
  | waiting
  | threw (message : String)
  deriving DecidableEq

/-- A program of the run loop. -/
abbrev Loop (rt : Runtime) := Client (Moment rt) Question Stop

section Reads

variable {rt : Runtime} {α : Type}

/-- Ask again until the node answers, up to `attempts` times; a rate limit ends it. -/
def withRpcBackoff (fn : Rpc rt α) : Nat → Loop rt α
  | 0 => .fail .waiting
  | attempts + 1 =>
    .handle fn fun e =>
      if isRateLimitError e then .fail .rateLimited else withRpcBackoff fn attempts

/-- The answer, or nothing under a rate limit. -/
def unlessRateLimited (m : Loop rt α) : Loop rt (Option α) :=
  .handle (some <$> m) fun e => if e = .rateLimited then return none else .fail e

/-- The chain reads of one charge. -/
structure ChainReader (rt : Runtime) where
  chainLastNonce : Rpc rt UInt64
  /-- For the last nonce that was read, and the nonce looked for. -/
  recoverSettled : Nat → Nat → Rpc rt (Option RecoveredCharge)
  recordedCharge : Nat → Rpc rt (Option RecoveredCharge)

end Reads

inductive ProcessResult
  | submitted
  | skipped
  | gap
  | deferred
  deriving DecidableEq

def RATE_LIMIT_GAP_REASON : String := "rpc rate limited on all endpoints"

def FEED_GAP_REASON : String := "feed unavailable"

def SLOT_MISMATCH_REASON : String := "window start does not match slot"

def STALE_UNCONFIRMED_REASON : String := "stale nonce; chain did not confirm this window paid"

def REASON_STALE_NONCE : Nat := 3

def journalSignature (signature : String) : Option String :=
  if signature.length = 0 then none else some signature

/-! ## Rows -/

section Rows

variable (journal : Journal) (nonce : Nat)

/-- A note of an outage, one row for each kind. -/
def writeGap (reason : String) (signature : Option String) : Journal :=
  if journal.hasGap nonce reason then journal
  else journal ++ [{ nonce, amount := 0, decision := .gap, reason, reasonCode := none, signature,
                     suggestedOverride := none }]

def deferRateLimit : ProcessResult × Journal :=
  (.deferred, writeGap journal nonce RATE_LIMIT_GAP_REASON none)

def writeRecovered (recovered : RecoveredCharge) : Journal :=
  journal ++ [{ nonce, amount := recovered.amount.toNat, decision := recovered.decision.row,
                reason := recovered.reason, reasonCode := some recovered.reasonCode,
                signature := journalSignature recovered.signature,
                suggestedOverride := recovered.suggestedOverride }]

def writePaidUnrecovered (amount : Nat) : Journal :=
  journal ++ [{ nonce, amount, decision := .paid, reason := PAID_UNRECOVERED_REASON,
                reasonCode := some 0, signature := none, suggestedOverride := none }]

def writeSkipped (amount : Nat) (reason : String) (signature : Option String) : Journal :=
  journal ++ [{ nonce, amount, decision := .skipped, reason, reasonCode := none, signature,
                suggestedOverride := none }]

def writeReceipt (amount : Nat) (receipt : ChargeReceipt) : Journal :=
  journal ++ [{ nonce, amount, decision := receipt.decision.row, reason := receipt.reason,
                reasonCode := some receipt.reasonCode,
                signature := journalSignature receipt.signature,
                suggestedOverride := receipt.suggestedOverride }]

end Rows

/-! ## One window -/

section Process

variable {rt : Runtime} (attempts : Nat) (reader : Option (ChainReader rt))
  (submit : Nat → Nat → Rpc rt ChargeReceipt)

/-- The last nonce, from the chain when there is a reader. -/
def readSettled (journal : Journal) : Loop rt Nat :=
  match reader with
  | none => return journal.maxSettledNonce
  | some reader => UInt64.toNat <$> withRpcBackoff reader.chainLastNonce attempts

def recoverPaid (settled nonce : Nat) : Loop rt (Option RecoveredCharge) :=
  match reader with
  | none => return none
  | some reader => withRpcBackoff (reader.recoverSettled settled nonce) attempts

/-- What is journaled of a window that the chain is already past, or says it is. -/
def closedWindow (journal : Journal) (nonce settled : Nat) (seenSignature : Option String)
    (recovered : Option RecoveredCharge) : ProcessResult × Journal :=
  match recovered.filter (·.decision = .paid) with
  | some recovered => (.submitted, writeRecovered journal nonce recovered)
  | none =>
    if nonce < settled then
      (.skipped, writeSkipped journal nonce 0 "window overtaken by a later settled charge"
        seenSignature)
    else if nonce ≤ settled then
      (.submitted, writePaidUnrecovered journal nonce 0)
    -- The program refused a stale nonce, but the chain did not show this window settled.
    else (.gap, writeGap journal nonce STALE_UNCONFIRMED_REASON seenSignature)

def closeAlreadySettled (journal : Journal) (nonce settled : Nat)
    (seenSignature : Option String) : Loop rt (ProcessResult × Journal) := do
  let recovered ← recoverPaid attempts reader settled nonce
  return closedWindow journal nonce settled seenSignature recovered

/-- The rate that a USD quote needs, or the reason there is none. -/
def readFx (args : WindowArgs) : Except String (Option FxQuote) :=
  match args.quoteCurrency, args.fx with
  | .sek, _ => .ok none
  | .usd, none => .error "fx unavailable"
  | .usd, some quote =>
      if args.fxFresh quote.fixingDate then .ok (some quote)
      else .error ("fx rate stale (" ++ quote.fixingDate ++ ")")

/-- Send the charge of a window, and journal what the chain made of it. -/
def submitWindow (journal : Journal) (nonce amount : Nat) : Loop rt (ProcessResult × Journal) := do
  let some receipt ← unlessRateLimited (withRpcBackoff (submit amount nonce) attempts)
    | return deferRateLimit journal nonce
  if receipt.decision = .refused ∧ receipt.reasonCode = REASON_STALE_NONCE then
    -- A later payment may have overtaken this window between the read and the send.
    let some closed ← unlessRateLimited (do
        let latest ← readSettled attempts reader journal
        closeAlreadySettled attempts reader journal nonce latest
          (journalSignature receipt.signature))
      | return deferRateLimit journal nonce
    return closed
  return (.submitted, writeReceipt journal nonce amount receipt)

/-- A window the chain has not decided: price it and send it. -/
def priceWindow (args : WindowArgs) (journal : Journal) (nonce : Nat) :
    Loop rt (ProcessResult × Journal) := do
  let some window := args.window
    | return (.gap, writeGap journal nonce FEED_GAP_REASON none)
  if !windowStartsAtSlot window nonce then
    return (.gap, writeGap journal nonce SLOT_MISMATCH_REASON none)
  match sekPerKwhToScaled window.sekPerKwh with
  | .error message =>
    return (.gap, writeGap journal nonce ("unreadable price: " ++ message) none)
  | .ok scaled =>
    if scaled < 0 then
      return (.skipped, writeSkipped journal nonce 0 "negative price" none)
    match readFx args with
    | .error reason => return (.gap, writeGap journal nonce reason none)
    | .ok fxQuote =>
      match amountBaseUnitsQuoted args.kwhMilli scaled args.mintDecimals args.quoteCurrency
          fxQuote with
      | .error message => .fail (.threw message)
      | .ok amount =>
        if amount = 0 then
          return (.skipped, writeSkipped journal nonce 0 "zero amount" none)
        submitWindow attempts reader submit journal nonce amount.toNat

/-- The chain's own record of the charge, when there is a reader. -/
def readRecorded (nonce : Nat) : Loop rt (Option RecoveredCharge) :=
  match reader with
  | none => return none
  | some reader => withRpcBackoff (reader.recordedCharge nonce) attempts

def processWindow (args : WindowArgs) (journal : Journal) : Loop rt (ProcessResult × Journal) := do
  match nonceFromSlot args.slot with
  | .error message => .fail (.threw message)
  | .ok nonce =>
    if journal.hasNonce nonce then return (.skipped, journal)
    let some settled ← unlessRateLimited (readSettled attempts reader journal)
      | return deferRateLimit journal nonce
    if nonce ≤ settled then
      let some closed ← unlessRateLimited
          (closeAlreadySettled attempts reader journal nonce settled none)
        | return deferRateLimit journal nonce
      return closed
    -- A refusal does not move the last nonce, so the ledger row is a separate read.
    let some recorded ← unlessRateLimited (readRecorded attempts reader nonce)
      | return deferRateLimit journal nonce
    match recorded with
    | some recovered =>
      match recovered.decision with
      | .paid => return (.submitted, writeRecovered journal nonce recovered)
      | .refused => return (.skipped, writeRecovered journal nonce recovered)
    | none => priceWindow attempts reader submit args journal nonce

end Process

/-- The reads and the submit that the run loop is wired with. -/
def chainReader {rt : Runtime} (programId : Pubkey) : ChainReader rt where
  chainLastNonce := readLastNonce
  recoverSettled := recoverSettledCharge programId
  recordedCharge := readRecordedCharge

/-- Windows one after the other, each from the journal the last one left.  One that stops
leaves the journal as it was. -/
def processAll {rt : Runtime} (programId : Pubkey) (attempts : Nat) (env : Surroundings rt) :
    List WindowArgs → Journal → List Question → Journal × List Question
  | [], journal, asked => (journal, asked)
  | args :: rest, journal, asked =>
    match (processWindow attempts (some (chainReader programId)) (submitCharge programId) args
        journal).run env.moment asked with
    | (.ok (_, journal), later) => processAll programId attempts env rest journal later
    | (.error _, later) => processAll programId attempts env rest journal later

end Veto.Watcher

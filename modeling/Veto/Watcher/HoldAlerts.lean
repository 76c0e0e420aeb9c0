import Veto.Foundation.IsoTime
import Veto.Hold.Readers

/-!
# Alerts about held withdrawals

`hold.ts` of the watcher.  A scan reads the rows that wait and the ring of the ledger, and
raises each alert that is due once: a journal keeps the keys of those raised before.
-/

namespace Veto.Watcher.Hold

open Foundation

def HOUR : Int := 3600

def KIND_PAID : UInt8 := 2

def KIND_HELD : UInt8 := 3

def KIND_STOPPED : UInt8 := 4

def KIND_SKIPPED : UInt8 := 7

def KIND_RECOVERED : UInt8 := 8

inductive HoldAlertName
  | created
  | afterHour
  | after12h
  | every12h
  | before6h
  | before1h
  | paid
  | stopped
  | recovered
  | skipped
  deriving DecidableEq, Repr

def HoldAlertName.text : HoldAlertName → String
  | .created => "created"
  | .afterHour => "1h"
  | .after12h => "12h"
  | .every12h => "every_12h"
  | .before6h => "6h_before"
  | .before1h => "1h_before"
  | .paid => "paid"
  | .stopped => "stopped"
  | .recovered => "recovered"
  | .skipped => "skipped"

structure HoldAlertEvent where
  key : String
  vault : String
  withdrawalId : String
  alert : HoldAlertName
  mark : String
  amount : String
  destination : String
  unlockAt : String
  createdAt : String
  deriving DecidableEq, Repr

structure HoldAlertRow extends HoldAlertEvent where
  ts : String

structure HoldPending where
  id : Int
  amount : Int
  destination : Pubkey
  unlockAt : Int

structure HoldLedgerEntry where
  ts : Int
  amount : Int
  destination : Pubkey
  withdrawalId : Int
  kind : UInt8

structure HoldWatch where
  address : Pubkey
  delaySecs : Int
  pending : List HoldPending
  entries : List HoldLedgerEntry

/-! ## What is due -/

/-- A date that is none throws. -/
def isoText (ms : Int) : Except Thrown String :=
  okOr (toISOString ms) (.error "Invalid time value")

def timeText (sec : Int) : Except Thrown String :=
  if sec ≤ 0 then .ok "0" else isoText (sec * 1000)

def makeEvent (vault : String) (id : Int) (alert : HoldAlertName) (mark : String) (amount : Int)
    (destination : Pubkey) (unlockAt created : Int) : Except Thrown HoldAlertEvent := do
  let withdrawalId := toString id
  return {
    key := vault ++ ":" ++ withdrawalId ++ ":" ++ alert.text ++ ":" ++ mark
    vault
    withdrawalId
    alert
    mark
    amount := toString amount
    destination := destination.display
    unlockAt := ← timeText unlockAt
    createdAt := ← timeText created }

/-- What a record of this kind ends a withdrawal as. -/
def specificEnd (kind : UInt8) : Option HoldAlertName :=
  if kind = KIND_PAID then some .paid
  else if kind = KIND_STOPPED then some .stopped
  else if kind = KIND_SKIPPED then some .skipped
  else none

/-- The latest record that holds the withdrawal. -/
def createdFromEntries (entries : List HoldLedgerEntry) (id : Int) : Option Int :=
  entries.foldl (fun ts entry =>
    if entry.kind = KIND_HELD ∧ entry.withdrawalId = id then some entry.ts else ts) none

def createdAt (vault : HoldWatch) (row : HoldPending) : Int :=
  match createdFromEntries vault.entries row.id with
  | some recorded => recorded
  | none => if vault.delaySecs ≤ row.unlockAt then row.unlockAt - vault.delaySecs else row.unlockAt

/-- The hours of the `every_12h` alerts that are due, at most the last two hundred. -/
def every12hMarks (created nowSec : Int) : List Int :=
  if created < nowSec then
    let elapsedHours := (nowSec - created) / HOUR
    let last := elapsedHours / 12 * 12
    if 24 ≤ last then
      let count := (last - 24) / 12 + 1
      let start := if 200 < count then last - 199 * 12 else 24
      (List.range ((last - start) / 12 + 1).toNat).map fun n => start + 12 * n
    else []
  else []

/-- The alerts and marks due for a row that waits. -/
def dueAlerts (row : HoldPending) (created nowSec : Int) : List (HoldAlertName × String) :=
  [(.created, "created")] ++
    (if created + HOUR ≤ nowSec then [(.afterHour, "1")] else []) ++
    (if created + 12 * HOUR ≤ nowSec then [(.after12h, "12")] else []) ++
    ((every12hMarks created nowSec).map fun hours => (.every12h, toString hours)) ++
    (if created + 6 * HOUR < row.unlockAt ∧ row.unlockAt - 6 * HOUR ≤ nowSec then
      [(.before6h, "6")] else []) ++
    (if created + HOUR < row.unlockAt ∧ row.unlockAt - HOUR ≤ nowSec then
      [(.before1h, "1")] else [])

def cadence (vault : String) (row : HoldPending) (created nowSec : Int) :
    Except Thrown (List HoldAlertEvent) :=
  (dueAlerts row created nowSec).mapM fun (alert, mark) =>
    makeEvent vault row.id alert mark row.amount row.destination row.unlockAt created

/-- `Map.set` with the text of an id as the key. -/
def setEnd (ends : List (String × HoldLedgerEntry)) (id : String) (entry : HoldLedgerEntry) :
    List (String × HoldLedgerEntry) :=
  if ends.any (·.1 = id) then ends.map fun e => if e.1 = id then (id, entry) else e
  else ends ++ [(id, entry)]

/-- The records that end a withdrawal, by the text of its id. -/
def endsOf (entries : List HoldLedgerEntry) : List (String × HoldLedgerEntry) :=
  entries.foldl (fun ends entry =>
    if entry.withdrawalId = 0 ∨ specificEnd entry.kind = none then ends
    else setEnd ends (toString entry.withdrawalId) entry) []

def lastRecovered (entries : List HoldLedgerEntry) : Option HoldLedgerEntry :=
  entries.foldl (fun recovered entry =>
    if entry.kind = KIND_RECOVERED then some entry else recovered) none

/-- The alerts for a row that waits. -/
def rowAlerts (vault : HoldWatch) (nowSec : Int) (row : HoldPending) :
    Except Thrown (List HoldAlertEvent) := do
  let address := vault.address.display
  let created := createdAt vault row
  match (endsOf vault.entries).lookup (toString row.id) with
  | some specific =>
      match specificEnd specific.kind with
      | none => return []
      | some name => return [← makeEvent address row.id name name.text specific.amount
          specific.destination row.unlockAt created]
  | none =>
      match lastRecovered vault.entries with
      | some recovered =>
          if created ≤ recovered.ts then
            return [← makeEvent address row.id .recovered "recovered" row.amount row.destination
              row.unlockAt created]
          else cadence address row created nowSec
      | none => cadence address row created nowSec

/-- The alert for a record that ends a withdrawal which waits no longer. -/
def endAlerts (vault : HoldWatch) (entry : HoldLedgerEntry) :
    Except Thrown (List HoldAlertEvent) := do
  if vault.pending.any fun row => toString row.id = toString entry.withdrawalId then return []
  let created := (createdFromEntries vault.entries entry.withdrawalId).getD entry.ts
  match specificEnd entry.kind with
  | none => return []
  | some name => return [← makeEvent vault.address.display entry.withdrawalId name name.text
      entry.amount entry.destination 0 created]

def alertsForVault (vault : HoldWatch) (nowSec : Int) : Except Thrown (List HoldAlertEvent) := do
  let waiting ← vault.pending.mapM (rowAlerts vault nowSec)
  let ended ← (endsOf vault.entries).mapM fun e => endAlerts vault e.2
  return waiting.flatten ++ ended.flatten

/-! ## A scan -/

abbrev HoldAlertJournal := List HoldAlertRow

def HoldAlertJournal.has (journal : HoldAlertJournal) (key : String) : Bool :=
  journal.any fun row => row.key = key

/-- Events whose key the journal lacks are written to it and handed to `notify`, in order. -/
def notifyNew (ts : String) : List HoldAlertEvent → HoldAlertJournal →
    HoldAlertJournal × List HoldAlertEvent
  | [], journal => (journal, [])
  | event :: events, journal =>
      if journal.has event.key then notifyNew ts events journal
      else
        let (journal, raised) := notifyNew ts events (journal ++ [{ event with ts }])
        (journal, event :: raised)

/-- What a scan leaves: the journal, the events handed to `notify`, and what it threw. -/
structure Raised where
  journal : HoldAlertJournal
  notified : List HoldAlertEvent
  thrown : Option Thrown

/-- The loop over the vaults.  A vault that throws ends it. -/
def raiseEach (ts : String) (nowSec : Int) : List HoldWatch → HoldAlertJournal → Raised
  | [], journal => ⟨journal, [], none⟩
  | vault :: vaults, journal =>
      match alertsForVault vault nowSec with
      | .error e => ⟨journal, [], some e⟩
      | .ok events =>
          let (journal, raised) := notifyNew ts events journal
          let rest := raiseEach ts nowSec vaults journal
          { rest with notified := raised ++ rest.notified }

/-- `now` is in milliseconds. -/
def raiseHoldAlerts (now : Int) (vaults : List HoldWatch) (journal : HoldAlertJournal) : Raised :=
  match isoText now with
  | .error e => ⟨journal, [], some e⟩
  | .ok ts => raiseEach ts (now / 1000) vaults journal

/-! ## Reading a vault -/

def HoldPending.of (view : PendingView) : HoldPending where
  id := view.id
  amount := view.amount
  destination := view.destination
  unlockAt := view.unlockAt

def readPending (data : Bytes) : Except Thrown (List HoldPending) := do
  requireDisc data HOLD_VAULT_DISCRIMINATOR "hold vault"
  throwUnless (VAULT_LEN ≤ data.length)
    ("hold vault account is " ++ toString data.length ++ " bytes, need " ++ toString VAULT_LEN)
  let rows ← (List.range HOLD_PENDING_CAPACITY).mapM fun i =>
    decodePending bufferReads data (OFF_PENDING + i * PENDING_SIZE)
  return (rows.filterMap id).map .of

def readEntry (data : Bytes) (off : Nat) : Except Thrown HoldLedgerEntry := do
  return {
    ts := ← bufferReads.i64 data off
    amount := ← bufferReads.u64 data (off + 8)
    destination := keyAt data (off + 16)
    withdrawalId := ← bufferReads.u64 data (off + 48)
    kind := ← readUInt8 data (off + 56) }

def readEntries (data : Bytes) : Except Thrown (List HoldLedgerEntry) := do
  requireDisc data HOLD_LEDGER_DISCRIMINATOR "hold ledger"
  throwUnless (Sdk.LEDGER_LEN ≤ data.length)
    ("hold ledger account is " ++ toString data.length ++ " bytes, need " ++
      toString Sdk.LEDGER_LEN)
  let total ← readUInt32LE data 40
  let head ← readUInt16LE data 44
  (Ring.walk HOLD_LEDGER_CAPACITY total.toNat head.toNat).mapM fun index =>
    readEntry data (Sdk.ENTRY_BASE + index * Sdk.HOLD_ENTRY_SIZE)

/-- The snapshot of a vault, from the data of its account and of its ledger. -/
def readHoldVault (address : Pubkey) (vaultData ledgerData : Bytes) : Except Thrown HoldWatch := do
  let pending ← readPending vaultData
  return {
    address
    delaySecs := ← bufferReads.i64 vaultData 200
    pending
    entries := ← readEntries ledgerData }

end Veto.Watcher.Hold

import Veto.App.Override
import Veto.Foundation.Run
import Veto.Foundation.Throwing

/-!
# The quiet note

`quietNote.ts`: one line about a rule at a time of the day that the owner chooses.  A note is
scheduled ahead under one identifier, and the settings record the day it is scheduled for or was
sent on.
-/

namespace Veto.App.QuietNote

open Foundation Foundation.Throwing

inductive QuietSend
  | everyEvening
  | moved
  | never
  deriving DecidableEq, Repr

structure QuietSettings where
  enabled : Bool
  send : QuietSend
  hour : Nat
  minute : Nat
  lastSentDay : Option String
  scheduledForDay : Option String
  scheduledBody : Option String
  scheduledAt : Option Int
  deriving DecidableEq, Repr

structure QuietNoteCopy where
  headline : String
  detail : String
  body : String
  moved : Bool
  daysPhrase : Option String
  truncated : Bool
  deriving DecidableEq, Repr

structure QuietRow where
  ts : Int
  kind : UInt8
  amount : Int

structure QuietLedger where
  mandate : String
  rows : List QuietRow
  total : Option Nat
  decimals : Nat

/-- When a note is to be shown. -/
inductive When
  | now
  | later (time : Int)
  deriving DecidableEq, Repr

structure QuietNoteRequest where
  body : String
  time : When
  deriving DecidableEq, Repr

structure QuietPlan where
  cancel : Bool
  schedule : Option QuietNoteRequest
  settings : QuietSettings
  persist : Bool
  deriving DecidableEq, Repr

def defaultQuietSettings : QuietSettings where
  enabled := false
  send := .everyEvening
  hour := 21
  minute := 0
  lastSentDay := none
  scheduledForDay := none
  scheduledBody := none
  scheduledAt := none

/-! ## The local calendar -/

structure LocalDate where
  year : Int
  month : Nat
  day : Nat
  deriving DecidableEq, Repr

/-- A `Date` in the zone of the phone; times are in milliseconds.  `setHours` stays on the date. -/
structure LocalClock where
  date : Int → LocalDate
  hours : Int → Nat
  minutes : Int → Nat
  setHours : Int → Nat → Nat → Int
  setHours_date : ∀ now hour minute, date (setHours now hour minute) = date now

/-- Two digits of a number, or more. -/
def twoDigits (n : Nat) : String := String.ofList (padZeros 2 (toString n).toList)

section Clock

variable (clock : LocalClock)

def clockLabel (now : Int) : String :=
  twoDigits (clock.hours now) ++ ":" ++ twoDigits (clock.minutes now)

def localDayKeyFromDate (now : Int) : String :=
  let date := clock.date now
  toString date.year ++ "-" ++ twoDigits date.month ++ "-" ++ twoDigits date.day

def quietFire (now : Int) (hour minute : Nat) : Int := clock.setHours now hour minute

def isLocalDay (unixSeconds nowMs : Int) : Bool :=
  clock.date (unixSeconds * 1000) = clock.date nowMs

end Clock

/-! ## The settings as they are stored -/

/-- `/^\d{4}-\d{2}-\d{2}$/`. -/
def isDayKey (text : String) : Bool :=
  match text.toList with
  | [a, b, c, d, '-', e, f, '-', g, h] => [a, b, c, d, e, f, g, h].all Char.isDigit
  | _ => false

def optionalDay (value : Option String) : Option String := value.filter isDayKey

/-- `parseQuietSettings` of what is stored: settings that were written, or nothing. -/
def parseQuietSettings (stored : Option QuietSettings) : QuietSettings :=
  match stored with
  | none => defaultQuietSettings
  | some row =>
      if row.hour ≤ 23 ∧ row.minute ≤ 59 then
        { row with
          lastSentDay := optionalDay row.lastSentDay
          scheduledForDay := optionalDay row.scheduledForDay }
      else defaultQuietSettings

/-! ## The line -/

def daysToGoPhrase (expiresAt nowSec : Int) : Option String :=
  if expiresAt ≤ nowSec then none
  else
    let days := (expiresAt - nowSec) / 86400
    some (if days ≤ 0 then "Less than a day to go"
      else if days = 1 then "1 day to go"
      else toString days ++ " days to go")

def countPhrase (count : Nat) : String := if count = 1 then "once" else toString count ++ " times"

section Copy

variable (clock : LocalClock)

def quietHeadline (name : String) (paid refused : Nat) (amount : String) : String :=
  if paid = 0 ∧ refused = 0 then "All good today. Nothing paid, nothing moved."
  else if paid = 0 then
    "All good today. " ++ name ++ " asked " ++ countPhrase refused ++
      " outside the rule and was refused. Nothing paid, nothing moved."
  else if refused = 0 then
    name ++ " was paid " ++ countPhrase paid ++ " today. " ++ amount ++ " left the rule."
  else
    name ++ " was paid " ++ countPhrase paid ++ " and refused " ++ countPhrase refused ++ " today."

/-- The line about a mandate and the rows that its ledger still holds. -/
def quietNoteCopy (name : String) (mandate : MandateAccount) (ledger : QuietLedger) (now : Int) :
    QuietNoteCopy :=
  let today := ledger.rows.filter fun row => isLocalDay clock row.ts now
  let paid := today.filter (·.kind = Constants.KIND_PAID)
  let refused := today.filter (·.kind = Constants.KIND_REFUSED)
  let amountOf := fun amount => formatTokenAmount amount ledger.decimals mandate.mint
  let truncated := ledger.total.any (ledger.rows.length < ·) &&
    ledger.rows.head?.any fun oldest => isLocalDay clock oldest.ts now
  let line := quietHeadline name paid.length refused.length (amountOf (paid.map (·.amount)).sum)
  let headline :=
    if truncated then "From the decisions still stored on this rule. " ++ line else line
  let daysPhrase := daysToGoPhrase mandate.expiresAt (now / 1000)
  let detail := amountOf (remainingCap mandate.cap mandate.spent) ++ " of " ++
    amountOf mandate.cap ++ " left. " ++ daysPhrase.getD "The rule has ended." ++ " Last check " ++
    clockLabel clock now ++ "."
  { headline
    detail
    body := headline ++ "\n" ++ detail
    moved := 0 < paid.length + refused.length
    daysPhrase
    truncated }

/-- The selected rule, or the first that is live.  `agentLabel` reads the name of its agent. -/
def quietRuleFor (agentLabel : MandateAccount → String) (mandates : List MandateAccount)
    (ledgers : List QuietLedger) (selectedAddress : Option String) (now : Int) :
    Option (QuietNoteCopy × String) := do
  let live := mandates.filter fun mandate => isActive mandate (now / 1000)
  let chosen ← (live.find? fun mandate => some mandate.address = selectedAddress).or live.head?
  let ledger ← ledgers.find? fun ledger => ledger.mandate = chosen.address
  return (quietNoteCopy clock (agentLabel chosen) chosen ledger now, chosen.address)

end Copy

/-! ## The plan -/

/-- The settings without a scheduled note. -/
def QuietSettings.cleared (settings : QuietSettings) : QuietSettings :=
  { settings with scheduledForDay := none, scheduledBody := none, scheduledAt := none }

/-- The settings of a note that was sent on a day. -/
def QuietSettings.sentOn (settings : QuietSettings) (day : String) : QuietSettings :=
  { settings.cleared with lastSentDay := some day }

section Plan

variable (clock : LocalClock) (settings : QuietSettings) (now : Int)

def idlePlan : QuietPlan where
  cancel := false
  schedule := none
  settings
  persist := false

/-- Cancel what is scheduled, if anything is. -/
def clearPlan : QuietPlan where
  cancel := settings.scheduledForDay ≠ none
  schedule := none
  settings := settings.cleared
  persist := settings.scheduledForDay ≠ none

/-- The note is off. -/
def offPlan : QuietPlan :=
  if settings.enabled = false ∧ settings.scheduledForDay = none then idlePlan settings
  else {
    cancel := settings.scheduledForDay ≠ none ∨ settings.enabled = true
    schedule := none
    settings := { settings.cleared with enabled := false }
    persist := settings.enabled = true ∨ settings.scheduledForDay ≠ none ∨ settings.send = .never }

def deniedPlan : QuietPlan where
  cancel := true
  schedule := none
  settings := settings.cleared
  persist := true

/-- The time of the note is not over. -/
def latePlan (body : String) (want : Bool) : QuietPlan :=
  let today := localDayKeyFromDate clock now
  if settings.scheduledForDay = some today then
    { cancel := false, schedule := none, settings := settings.sentOn today, persist := true }
  else if want = false then clearPlan settings
  else {
    cancel := true
    schedule := some ⟨body, .now⟩
    settings := settings.sentOn today
    persist := true }

/-- The time of the note is ahead. -/
def earlyPlan (body : String) (want : Bool) : QuietPlan :=
  let today := localDayKeyFromDate clock now
  let time := quietFire clock now settings.hour settings.minute
  if want = false then clearPlan settings
  else if settings.scheduledForDay = some today ∧ settings.scheduledBody = some body ∧
      settings.scheduledAt = some time then idlePlan settings
  else {
    cancel := true
    schedule := some ⟨body, .later time⟩
    settings := { settings with
      scheduledForDay := some today, scheduledBody := some body, scheduledAt := some time }
    persist := true }

/-- There is something to say on a day. -/
def wanted (copy : QuietNoteCopy) : Bool := settings.send = .everyEvening ∨ copy.moved = true

def planQuietNote (copy : Option QuietNoteCopy) (permissionGranted : Bool) : QuietPlan :=
  if settings.enabled = false ∨ settings.send = .never then offPlan settings
  else if permissionGranted = false then deniedPlan settings
  else
    match copy with
    | none => clearPlan settings
    | some copy =>
        if copy.daysPhrase = none then clearPlan settings
        else if settings.lastSentDay = some (localDayKeyFromDate clock now) then idlePlan settings
        else if quietFire clock now settings.hour settings.minute ≤ now then
          latePlan clock settings now copy.body (wanted settings copy)
        else earlyPlan clock settings now copy.body (wanted settings copy)

end Plan

/-! ## The phone -/

/-- A call that succeeds, or fails; one that fails may have taken effect. -/
inductive Answer
  | ok
  | failed (took : Bool) (error : Thrown)

/-- What is stored, the note that is scheduled under the one identifier, and when notes were
shown, latest first. -/
structure QuietState where
  stored : Option QuietSettings
  pending : Option Int
  delivered : List Int

abbrev QuietM := EStateM Thrown QuietState

def attempt (answer : Answer) (effect : QuietState → QuietState) : QuietM Unit :=
  match answer with
  | .ok => modify effect
  | .failed true error => modify effect >>= fun _ => throw error
  | .failed false error => throw error

def QuietState.cancelled (s : QuietState) : QuietState := { s with pending := none }

/-- A note for now is shown at once.  A note of the same identifier is replaced. -/
def QuietState.scheduled (now : Int) (time : When) (s : QuietState) : QuietState :=
  match time with
  | .now => { s with pending := none, delivered := now :: s.delivered }
  | .later time => { s with pending := some time }

/-- The scheduled note is shown once its time has come. -/
def QuietState.passed (now : Int) (s : QuietState) : QuietState :=
  match s.pending with
  | some time =>
      if time ≤ now then { s with pending := none, delivered := time :: s.delivered } else s
  | none => s

/-- What a run is given, and what its calls come to. -/
structure QuietRun where
  now : Int
  mandates : List MandateAccount
  ledgers : List QuietLedger
  selectedAddress : Option String
  permissionGranted : Bool
  settingsOverride : Option QuietSettings
  readNames : Except Thrown Unit
  readSettings : Except Thrown Unit
  cancel : Answer
  schedule : Answer
  store : Answer

section Run

variable (clock : LocalClock) (agentLabel : MandateAccount → String) (run : QuietRun)

def scheduleNote (plan : QuietPlan) : QuietM Unit :=
  match plan.schedule with
  | some note => do
      attempt run.cancel QuietState.cancelled
      attempt run.schedule (QuietState.scheduled run.now note.time)
  | none => if plan.cancel then attempt run.cancel QuietState.cancelled else pure ()

def persistSettings (plan : QuietPlan) : QuietM Unit :=
  if plan.persist then attempt run.store fun s => { s with stored := some plan.settings }
  else pure ()

/-- The steps of a plan in their order. -/
def applyQuietPlan (plan : QuietPlan) : QuietM Unit := do
  scheduleNote run plan
  persistSettings run plan

/-- `settingsOverride ?? loadQuietSettings(store)`. -/
def QuietRun.settings (stored : Option QuietSettings) : QuietSettings :=
  run.settingsOverride.getD (parseQuietSettings stored)

def loadSettings : QuietM QuietSettings :=
  match run.settingsOverride with
  | some settings => pure settings
  | none => do
      calling id run.readSettings
      let s ← get
      return parseQuietSettings s.stored

def QuietRun.copy : Option QuietNoteCopy :=
  (quietRuleFor clock agentLabel run.mandates run.ledgers run.selectedAddress run.now).map Prod.fst

/-- A plan for settings that the owner saves is stored in any case. -/
def QuietRun.adjust (plan : QuietPlan) : QuietPlan :=
  if run.settingsOverride = none then plan
  else { plan with persist := true, cancel := plan.cancel || !plan.settings.enabled }

def refreshQuietNote : QuietM Unit := do
  calling id run.readNames
  let settings ← loadSettings run
  let plan := planQuietNote clock settings run.now (run.copy clock agentLabel) run.permissionGranted
  applyQuietPlan run (run.adjust plan)

end Run

end Veto.App.QuietNote

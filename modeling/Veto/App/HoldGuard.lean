import Veto.App.HoldAlertPlan
import Veto.App.Override
import Veto.Foundation.Run
import Veto.Foundation.Throwing
import Veto.Hold.Readers
import Veto.Hold.Rows
import Mathlib.Data.List.Sort

/-!
# The guardian's alerts

`holdGuard.ts`: a background read finds the vaults that a wallet guards and announces each held
withdrawal and each proposed change.  The keys of what was announced are stored at the end of the
read.  A call that fails ends the read, and nothing is stored.
-/

namespace Veto.App.HoldGuard

open Foundation Foundation.Throwing HoldAlerts

def SEEN_CAP : Nat := 500

def CHANGE_DAILY : UInt8 := 1

def CHANGE_DELAY : UInt8 := 2

def CHANGE_SHARE : UInt8 := 4

def CHANGE_GUARDIAN : UInt8 := 8

def CHANGE_SAFE : UInt8 := 16

inductive GuardAlertKind
  | held
  | change
  deriving DecidableEq, Repr

structure GuardAlert where
  key : String
  kind : GuardAlertKind
  vault : String
  withdrawalId : Option String
  title : String
  body : String
  deriving DecidableEq, Repr

/-- A vault as it is read.  Its rows that wait have numbers of their own. -/
structure GuardedVault extends HoldVaultAccount where
  apart : (pending.map PendingView.id).Nodup

/-- The vault program numbers its rows apart. -/
theorem ids_apart {rt : Runtime} {opening : HoldOutput} {s₀ s : HoldState} {h : HoldHistory}
    (hopen : Opens rt opening s₀) (run : Run (HoldStep rt) s₀ h s) (address : Pubkey) :
    ((HoldVaultAccount.of s.vault address).pending.map PendingView.id).Nodup := by
  have hsound := desk_of_opens hopen run
  have hid : ∀ {row : PendingWithdrawal} {view : PendingView}, PendingView.of? row = some view →
      row.status = .pending ∧ view.id = row.id.toNat := by
    intro row view hview
    unfold PendingView.of? at hview
    split_ifs at hview with hstatus
    cases hview
    exact ⟨hstatus, rfl⟩
  change ((s.vault.pending.toList.filterMap PendingView.of?).map PendingView.id).Nodup
  unfold List.Nodup
  rw [List.pairwise_map, List.pairwise_filterMap, List.pairwise_iff_getElem]
  intro i j hi hj hlt view hview view' hview' hsame
  obtain ⟨hstatus, hnumber⟩ := hid hview
  obtain ⟨hstatus', hnumber'⟩ := hid hview'
  rw [Vector.getElem_toList] at hstatus hstatus' hnumber hnumber'
  rw [Vector.length_toList] at hi hj
  have hids : (s.vault.pending.row ⟨i, hi⟩).id = (s.vault.pending.row ⟨j, hj⟩).id := by
    apply UInt64.toNat_inj.mp
    rw [hnumber, hnumber'] at hsame
    exact_mod_cast hsame
  have hplace : (⟨i, hi⟩ : Fin HOLD_PENDING_CAPACITY) = ⟨j, hj⟩ :=
    row_apart hsound hstatus hstatus' hids
  exact absurd (Fin.mk.inj hplace) (Nat.ne_of_lt hlt)

/-- What the phone makes of a time and of the text of an address. -/
structure Phone where
  formatChainInstant : Int → String
  publicKey : String → Option Pubkey

/-! ## Amounts and keys in words -/

def truncateAddress (address : String) (chars : Nat) : String :=
  let text := address.toList
  if text.length ≤ chars * 2 then address
  else String.ofList (text.take chars) ++ "..." ++ String.ofList (text.drop (text.length - chars))

def shortKey (address : String) : String := truncateAddress address 4

def isDefaultKey (key : Pubkey) : Bool := key = Pubkey.default

/-- A comma before each group of three digits but the first. -/
def grouped (digits : List Char) : List Char :=
  digits.zipIdx.flatMap fun (digit, i) =>
    if i ≠ 0 ∧ (digits.length - i) % 3 = 0 then [',', digit] else [digit]

def formatHoldAmount (amount : Int) (decimals : Nat) : String :=
  let raw := (formatBaseUnits amount decimals).toList
  let body := if raw.head? = some '-' then raw.drop 1 else raw
  let whole := body.takeWhile (· ≠ '.')
  let frac := (body.dropWhile (· ≠ '.')).drop 1
  let text := String.ofList (grouped whole) ++ if frac = [] then "" else "." ++ String.ofList frac
  if raw.head? = some '-' then "-" ++ text else text

def daysFromDelay (delaySecs : Int) : Option Nat :=
  if delaySecs = 86400 then some 1
  else if delaySecs = 86400 * 2 then some 2
  else if delaySecs = 86400 * 3 then some 3
  else none

def waitLabel (days : Nat) : String := if days = 1 then "1 day" else toString days ++ " days"

def waitText (delaySecs : Int) : String :=
  match daysFromDelay delaySecs with
  | some days => waitLabel days
  | none =>
      let hours := delaySecs.tdiv 3600
      if hours = 1 then "1 hour" else toString hours ++ " hours"

def percent (bps : Nat) : String :=
  if bps % 100 = 0 then toString (bps / 100) ++ "%"
  else toString (bps / 100) ++ "." ++ String.ofList (padZeros 2 (toString (bps % 100)).toList) ++ "%"

/-! ## The alerts of a vault -/

section Alerts

variable (phone : Phone) (account : HoldVaultAccount) (decimals : Nat) (tokenName : String)
  (guardian : Pubkey)

/-- The proposed change loosens this rule. -/
def loosens (mask : UInt8) : Bool := account.change.fields &&& mask ≠ 0

def guardianLine : String :=
  let you : Bool := account.guardian = guardian
  let named := account.change.guardian
  if isDefaultKey named then
    if you then "You stop being the guardian" else "The guardian key is removed"
  else if you then "The guardian changes from you to " ++ shortKey named.display
  else "The guardian key changes to " ++ shortKey named.display

/-- Each rule the proposed change loosens, in plain words. -/
def changeLoosenLines : List String :=
  let change := account.change
  if change.active = false then []
  else
    (if loosens account CHANGE_DAILY then
      ["The everyday limit goes up from " ++ formatHoldAmount account.dailyLimit decimals ++ " " ++
        tokenName ++ " to " ++ formatHoldAmount change.dailyLimit decimals ++ " " ++ tokenName ++
        " a day"] else []) ++
    (if loosens account CHANGE_DELAY then
      ["The wait gets shorter, from " ++ waitText account.delaySecs ++ " to " ++
        waitText change.delaySecs] else []) ++
    (if loosens account CHANGE_SHARE then
      ["The big share goes up from " ++ percent account.bigShareBps ++ " to " ++
        percent change.bigShareBps ++ " of the vault"] else []) ++
    (if loosens account CHANGE_GUARDIAN then [guardianLine account guardian] else []) ++
    (if loosens account CHANGE_SAFE then
      ["The safe address changes to " ++ shortKey change.safeAddress.display] else [])

def heldAlert (row : PendingView) : GuardAlert where
  key := "guard:" ++ account.address.display ++ ":held:" ++ toString row.id
  kind := .held
  vault := account.address.display
  withdrawalId := some (toString row.id)
  title := "Held: " ++ formatHoldAmount row.amount decimals ++ " " ++ tokenName ++ " to " ++
    shortKey row.destination.display
  body := "Waits until " ++ phone.formatChainInstant row.unlockAt ++
    ". You guard this vault. Tap to stop it or freeze the vault."

def changeAlert (lines : List String) : GuardAlert where
  key := "guard:" ++ account.address.display ++ ":change:" ++
    toString account.change.effectiveAt ++ ":" ++ toString account.change.fields.toNat
  kind := .change
  vault := account.address.display
  withdrawalId := none
  title := "A settings change was proposed for a vault you guard"
  body := ". ".intercalate lines ++ ". Applies " ++
    phone.formatChainInstant account.change.effectiveAt ++
    ". Tap to freeze the vault or move everything to the safe address."

/-- What the guardian phone announces for one vault. -/
def guardAlertsFor : List GuardAlert :=
  let lines := changeLoosenLines account decimals tokenName guardian
  account.pending.map (heldAlert phone account decimals tokenName) ++
    if account.change.active = true ∧ lines ≠ [] then [changeAlert phone account lines] else []

def unseenGuardAlerts (alerts : List GuardAlert) (seen : List String) : List GuardAlert :=
  alerts.filter fun alert => alert.key ∉ seen

end Alerts

/-! ## What a read keeps -/

/-- The vaults that were found for a guardian. -/
structure Guarded where
  guardian : String
  vaults : List String

/-- What is stored under the keys of `holdGuard.ts`. -/
structure GuardStore where
  guarded : Option Guarded
  scheduled : List String
  seen : List String

/-- The state of one read.  `raised` is what was presented. -/
structure GuardRun where
  store : GuardStore
  scheduled : List String
  liveKeys : List String
  seenList : List String
  decimalsByMint : List (Pubkey × Nat)
  channelReady : Bool
  raised : List GuardAlert

/-- The calls of a read that a vault needs. -/
inductive VaultCall
  | read
  | decimals
  | channel
  | schedule
  | present
  deriving DecidableEq, Repr

/-- Where a read ends early: before the vaults, at one of them, or behind them. -/
inductive GuardStage
  | start
  | vault (place : Nat) (call : VaultCall)
  | finish
  deriving DecidableEq, Repr

structure GuardFailure where
  stage : GuardStage
  error : Thrown

abbrev GuardM := EStateM GuardFailure GuardRun

/-- What `readHoldVault` returns. -/
structure GuardBundle where
  account : GuardedVault
  entries : List Watcher.Hold.HoldLedgerEntry
  decimals : Nat

/-- What the world answers at one vault. -/
structure VaultAnswers where
  read : Except Thrown GuardBundle
  decimals : Except Thrown Nat
  channel : Except Thrown Unit
  schedule : HoldAlert → Except Thrown Unit
  present : GuardAlert → Except Thrown Unit

/-- What the world answers in one read.  `search` is `listGuardedVaults`, and `known` the accounts
at the addresses that are remembered; a missing or unreadable one is none. -/
structure GuardWorld where
  search : Except Thrown (List GuardedVault)
  remember : Except Thrown Unit
  recalled : Except Thrown Unit
  known : Except Thrown (Pubkey → Option GuardedVault)
  readScheduled : Except Thrown Unit
  clock : Except Thrown Int
  readSeen : Except Thrown Unit
  answers : Nat → VaultAnswers
  cancel : String → Except Thrown Unit
  storeScheduled : Except Thrown Unit
  storeSeen : Except Thrown Unit

/-- The key, or none for a damaged text. -/
def rememberedGuardedVaults (store : GuardStore) (guardian : Pubkey) : List String :=
  match store.guarded with
  | some guarded => if guarded.guardian = guardian.display then guarded.vaults else []
  | none => []

/-- The vaults at known addresses, by their ids. -/
def readHoldVaults (known : Except Thrown (Pubkey → Option GuardedVault)) (keys : List Pubkey) :
    Except Thrown (List GuardedVault) :=
  if keys = [] then .ok []
  else known.map fun accountAt =>
    (keys.filterMap accountAt).mergeSort fun a b => decide (a.vaultId ≤ b.vaultId)

section Read

variable (phone : Phone) (guardian : Pubkey) (scheduler : Bool) (world : GuardWorld)

def starting {α : Type} : Except Thrown α → GuardM α := calling fun error => ⟨.start, error⟩

def finishing {α : Type} : Except Thrown α → GuardM α := calling fun error => ⟨.finish, error⟩

/-- The vaults that are remembered, read directly. -/
def recallGuardedVaults : GuardM (List GuardedVault) := do
  starting world.recalled
  let run ← get
  let remembered := rememberedGuardedVaults run.store guardian
  let read ← starting (readHoldVaults world.known (remembered.filterMap phone.publicKey))
  return read.filter fun vault => vault.guardian = guardian

/-- Finds the vaults this wallet guards and remembers them.  When the search or the remembering
fails, the remembered vaults are read. -/
def discoverGuardedVaults : GuardM (List GuardedVault) :=
  match world.search, world.remember with
  | .ok found, .ok () => do
      modify fun run => { run with store := { run.store with
        guarded := some ⟨guardian.display, found.map (·.address.display)⟩ } }
      return found
  | _, _ => recallGuardedVaults phone guardian world

/-! ### At one vault -/

section Vault

variable (answers : VaultAnswers) (place : Nat)

def atVault {α : Type} (call : VaultCall) : Except Thrown α → GuardM α :=
  calling fun error => ⟨.vault place call, error⟩

def readBundle : GuardM (Option GuardBundle) :=
  if scheduler then do
    let bundle ← atVault place .read answers.read
    return some bundle
  else pure none

/-- The decimals of a bundle, or those of a call of their own. -/
def readDecimals (bundle : Option GuardBundle) : GuardM Nat :=
  match bundle with
  | some bundle => pure bundle.decimals
  | none => atVault place .decimals answers.decimals

def decimalsFor (bundle : Option GuardBundle) (mint : Pubkey) : GuardM Nat := do
  let run ← get
  match run.decimalsByMint.lookup mint with
  | some decimals => return decimals
  | none =>
      let decimals ← readDecimals answers place bundle
      modify fun run => { run with decimalsByMint := (mint, decimals) :: run.decimalsByMint }
      return decimals

def openChannel : GuardM Unit := do
  atVault place .channel answers.channel
  modify fun run => { run with channelReady := true }

def holdCreatedAt (vault : HoldVaultAccount) (row : PendingView)
    (entries : List Watcher.Hold.HoldLedgerEntry) : Int :=
  match Watcher.Hold.createdFromEntries entries row.id with
  | some ts => ts
  | none => if vault.delaySecs ≤ row.unlockAt then row.unlockAt - vault.delaySecs else row.unlockAt

/-- The plan of a row that waits, under the keys of a guardian. -/
def remindersFor (bundle : GuardBundle) (decimals : Nat) (row : PendingView) : List HoldAlert :=
  let account := bundle.account.toHoldVaultAccount
  let plan := holdAlertPlan phone.formatChainInstant {
    vault := account.address.display
    withdrawalId := toString row.id
    amountLabel := formatHoldAmount row.amount decimals ++ " " ++ tokenSymbol account.mint.display
    destinationLabel := shortKey row.destination.display
    createdAt := holdCreatedAt account row bundle.entries
    unlockAt := row.unlockAt
    newAddress := !account.known.any (· = row.destination) }
  plan.map fun alert => { alert with key := "guard:" ++ alert.key }

/-- `Set.add`. -/
def addKey (keys : List String) (key : String) : List String :=
  if key ∈ keys then keys else keys ++ [key]

def scheduleReminder (alert : HoldAlert) : GuardM Unit := do
  atVault place .schedule (answers.schedule alert)
  modify fun run => { run with scheduled := addKey run.scheduled alert.key }

def scheduleRow (nowSec : Int) (bundle : GuardBundle) (decimals : Nat) (row : PendingView) :
    GuardM Unit := do
  let plan := remindersFor phone bundle decimals row
  modify fun run => { run with liveKeys := run.liveKeys ++ plan.map (·.key) }
  forM (plan.filter fun alert => nowSec < alert.time) (scheduleReminder answers place)

/-- The reminders that are left of the rows that wait. -/
def scheduleReminders (nowSec : Int) (bundle : Option GuardBundle) (decimals : Nat) :
    GuardM Unit :=
  match bundle with
  | none => pure ()
  | some bundle => do
      openChannel answers place
      forM bundle.account.pending (scheduleRow phone answers place nowSec bundle decimals)

def readyChannel : GuardM Unit := do
  let run ← get
  if run.channelReady then pure () else openChannel answers place

/-- Present one alert, which counts as seen from then on. -/
def announce (alert : GuardAlert) : GuardM Unit := do
  readyChannel answers place
  atVault place .present (answers.present alert)
  modify fun run => { run with
    seenList := run.seenList ++ [alert.key], raised := run.raised ++ [alert] }

/-- The account whose alerts are announced: the one read again for the reminders. -/
def freshAccount (listed : GuardedVault) (bundle : Option GuardBundle) : GuardedVault :=
  match bundle with
  | some bundle => bundle.account
  | none => listed

def announceAll (account : GuardedVault) (decimals : Nat) : GuardM Unit := do
  let run ← get
  let alerts := guardAlertsFor phone account.toHoldVaultAccount decimals
    (tokenSymbol account.mint.display) guardian
  forM (unseenGuardAlerts alerts run.seenList) (announce answers place)

/-- Nothing waits at the vault and no change is proposed. -/
def Quiet (account : HoldVaultAccount) : Prop :=
  account.pending = [] ∧ account.change.active = false

instance (account : HoldVaultAccount) : Decidable (Quiet account) :=
  inferInstanceAs (Decidable (_ ∧ _))

/-- One turn of the loop over the vaults. -/
def guardVault (nowSec : Int) (listed : GuardedVault) : GuardM Unit :=
  if Quiet listed.toHoldVaultAccount then pure ()
  else do
    let bundle ← readBundle scheduler answers place
    let account := freshAccount listed bundle
    let decimals ← decimalsFor answers place bundle account.mint
    scheduleReminders phone answers place nowSec bundle decimals
    announceAll phone guardian answers place account decimals

end Vault

/-! ### The whole read -/

def isGuardKey (key : String) : Bool := "guard:".toList.isPrefixOf key.toList

def cancelStale (key : String) : GuardM Unit := do
  let run ← get
  if isGuardKey key = true ∧ key ∉ run.liveKeys then do
    finishing (world.cancel key)
    modify fun run => { run with scheduled := run.scheduled.erase key }
  else pure ()

/-- Reminders of what no longer waits are cancelled, and what is scheduled is stored. -/
def tidyScheduled : GuardM Unit :=
  if scheduler then do
    let run ← get
    forM run.scheduled (cancelStale world)
    finishing world.storeScheduled
    modify fun run => { run with store := { run.store with scheduled := run.scheduled } }
  else pure ()

/-- `slice(-SEEN_CAP)`. -/
def keepLast (keys : List String) : List String := keys.drop (keys.length - SEEN_CAP)

def storeSeen : GuardM Unit := do
  let run ← get
  if run.raised = [] then pure ()
  else do
    finishing world.storeSeen
    modify fun run => { run with store := { run.store with seen := keepLast run.seenList } }

/-- The clock of the chain is read where reminders may be scheduled. -/
def readClock (vaults : List GuardedVault) : GuardM Int :=
  if scheduler = true ∧ vaults ≠ [] then starting world.clock else pure 0

def guardVaults (nowSec : Int) (vaults : List GuardedVault) : GuardM Unit :=
  forM vaults.zipIdx fun (listed, place) =>
    guardVault phone guardian scheduler (world.answers place) place nowSec listed

/-- The keys that were announced. -/
def raiseGuardAlerts : GuardM (List String) := do
  let vaults ← discoverGuardedVaults phone guardian world
  starting world.readScheduled
  modify fun run => { run with scheduled := run.store.scheduled.dedup }
  let nowSec ← readClock scheduler world vaults
  starting world.readSeen
  modify fun run => { run with seenList := run.store.seen }
  guardVaults phone guardian scheduler world nowSec vaults
  tidyScheduled scheduler world
  storeSeen world
  let run ← get
  return run.raised.map (·.key)

end Read

end Veto.App.HoldGuard

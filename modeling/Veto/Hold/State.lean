import Veto.Chain
import Veto.RollingWindow
import Veto.Foundation.Ring

/-!
# The Hold vault account

The data of `hold_state.rs`: a vault whose large withdrawals wait, the rows of
the withdrawals that are waiting, the one rule change that may be waiting, and
the ledger of decisions.
-/

namespace Veto

open Foundation

def HOLD_KNOWN_CAPACITY : Nat := 16

def HOLD_PENDING_CAPACITY : Nat := 8

def HOLD_LEDGER_CAPACITY : Nat := 32

def HOLD_WINDOW_SECS : Int64 := 24 * 60 * 60

def HOLD_DELAY_1_DAY : Int64 := HOLD_WINDOW_SECS

def HOLD_DELAY_2_DAYS : Int64 := 2 * HOLD_WINDOW_SECS

def HOLD_DELAY_3_DAYS : Int64 := 3 * HOLD_WINDOW_SECS

def HOLD_BPS_DENOMINATOR : UInt64 := 10000

/-- The `WITHDRAWAL_*` codes. -/
inductive WithdrawalStatus
  | empty
  | pending
  deriving DecidableEq, Repr

/-- The `HOLD_KIND_*` codes.  `paid` covers an instant withdrawal and `execute`. -/
inductive HoldKind
  | opened
  | deposited
  | paid
  | held
  | stopped
  | frozen
  | unfrozen
  | skipped
  | recovered
  | changeProposed
  | changeApplied
  | changeCancelled
  | refused
  | unfreezeScheduled
  deriving DecidableEq, Repr

def HoldKind.code : HoldKind → UInt8
  | .opened => 0
  | .deposited => 1
  | .paid => 2
  | .held => 3
  | .stopped => 4
  | .frozen => 5
  | .unfrozen => 6
  | .skipped => 7
  | .recovered => 8
  | .changeProposed => 9
  | .changeApplied => 10
  | .changeCancelled => 11
  | .refused => 12
  | .unfreezeScheduled => 13

def HOLD_REASON_NONE : UInt8 := 0

def HOLD_REASON_INSUFFICIENT_FUNDS : UInt8 := 1

def HOLD_REASON_PENDING_FULL : UInt8 := 2

/-! ## Rule changes -/

def CHANGE_DAILY : UInt8 := 1

def CHANGE_DELAY : UInt8 := 2

def CHANGE_SHARE : UInt8 := 4

def CHANGE_GUARDIAN : UInt8 := 8

def CHANGE_SAFE : UInt8 := 16

/-- The mask of the fields that a condition picks out, built one bit at a time. -/
def changeMask (daily delay share guardian safe : Bool) : UInt8 :=
  (if daily then CHANGE_DAILY else 0) ||| (if delay then CHANGE_DELAY else 0) |||
    (if share then CHANGE_SHARE else 0) ||| (if guardian then CHANGE_GUARDIAN else 0) |||
    (if safe then CHANGE_SAFE else 0)

section Mask

variable {daily delay share guardian safe : Bool}

@[simp] theorem changeMask_daily :
    changeMask daily delay share guardian safe &&& CHANGE_DAILY ≠ 0 ↔ daily = true := by
  revert daily delay share guardian safe
  decide

@[simp] theorem changeMask_delay :
    changeMask daily delay share guardian safe &&& CHANGE_DELAY ≠ 0 ↔ delay = true := by
  revert daily delay share guardian safe
  decide

@[simp] theorem changeMask_share :
    changeMask daily delay share guardian safe &&& CHANGE_SHARE ≠ 0 ↔ share = true := by
  revert daily delay share guardian safe
  decide

@[simp] theorem changeMask_guardian :
    changeMask daily delay share guardian safe &&& CHANGE_GUARDIAN ≠ 0 ↔ guardian = true := by
  revert daily delay share guardian safe
  decide

end Mask

/-! ## The account -/

structure PendingWithdrawal where
  id : UInt64
  amount : UInt64
  destination : Pubkey
  unlockAt : Int64
  status : WithdrawalStatus
  deriving DecidableEq

def PendingWithdrawal.default : PendingWithdrawal := ⟨0, 0, Pubkey.default, 0, .empty⟩

structure PendingChange where
  active : Bool
  /-- Which fields wait.  See `CHANGE_*`. -/
  fields : UInt8
  bigShareBps : UInt16
  dailyLimit : UInt64
  delaySecs : Int64
  guardian : Pubkey
  safeAddress : Pubkey
  effectiveAt : Int64
  deriving DecidableEq

def PendingChange.default : PendingChange :=
  ⟨false, 0, 0, 0, 0, Pubkey.default, Pubkey.default, 0⟩

/-- The desired rules, passed whole to `propose_change`. -/
structure HoldChange where
  dailyLimit : UInt64
  delaySecs : Int64
  bigShareBps : UInt16
  guardian : Pubkey
  safeAddress : Pubkey
  deriving DecidableEq

/-- The rows of the withdrawals that wait. -/
abbrev PendingRows := Vector PendingWithdrawal HOLD_PENDING_CAPACITY

namespace PendingRows

def row (rows : PendingRows) (index : Fin HOLD_PENDING_CAPACITY) : PendingWithdrawal := rows[index]

def put (rows : PendingRows) (index : Fin HOLD_PENDING_CAPACITY) (row : PendingWithdrawal) :
    PendingRows :=
  rows.set index row

theorem row_put (rows : PendingRows) (index j : Fin HOLD_PENDING_CAPACITY)
    (row : PendingWithdrawal) :
    (rows.put index row).row j = if j = index then row else rows.row j := by
  unfold PendingRows.row PendingRows.put
  by_cases h : j = index
  · subst h
    simp
  · have hval : index.val ≠ j.val := fun heq => h (Fin.ext heq.symm)
    simp [h, Vector.getElem_set_ne _ _ hval]

@[simp] theorem row_replicate (row : PendingWithdrawal) (j : Fin HOLD_PENDING_CAPACITY) :
    PendingRows.row (Vector.replicate HOLD_PENDING_CAPACITY row) j = row := by
  unfold PendingRows.row
  simp

end PendingRows

/-- A vault.  Its funds are in `vaultToken`, whose authority is the vault itself. -/
structure HoldVault where
  owner : Pubkey
  /-- The default key means no guardian is set. -/
  guardian : Pubkey
  /-- Wallet that must own the token account `recover` pays. -/
  safeAddress : Pubkey
  mint : Pubkey
  vaultToken : Pubkey
  vaultId : UInt64
  dailyLimit : UInt64
  windowSpent : UInt64
  windowStart : Int64
  delaySecs : Int64
  /-- Zero means no unfreeze is waiting. -/
  unfreezeAt : Int64
  nextWithdrawalId : UInt64
  bigShareBps : UInt16
  frozen : Bool
  knownLen : UInt8
  bump : UInt8
  tokenBump : UInt8
  ledgerBump : UInt8
  known : Vector Pubkey HOLD_KNOWN_CAPACITY
  pending : PendingRows
  change : PendingChange
  dailyBuckets : TradeBuckets

structure HoldEntry where
  ts : Int64
  amount : UInt64
  destination : Pubkey
  withdrawalId : UInt64
  kind : HoldKind
  reason : UInt8
  deriving DecidableEq

def HoldEntry.zero : HoldEntry := ⟨0, 0, 0, 0, .opened, 0⟩

structure HoldLedger where
  vault : Pubkey
  bump : UInt8
  ring : Ring HoldEntry HOLD_LEDGER_CAPACITY

def HoldLedger.record (l : HoldLedger) (entry : HoldEntry) : HoldLedger :=
  { l with ring := l.ring.record entry }

def delayAllowed (delaySecs : Int64) : Prop :=
  delaySecs = HOLD_DELAY_1_DAY ∨ delaySecs = HOLD_DELAY_2_DAYS ∨ delaySecs = HOLD_DELAY_3_DAYS

instance (delaySecs : Int64) : Decidable (delayAllowed delaySecs) :=
  inferInstanceAs (Decidable (_ ∨ _ ∨ _))

inductive HoldEvent
  | opened (vault owner guardian safeAddress : Pubkey) (dailyLimit : UInt64) (delaySecs : Int64)
      (bigShareBps : UInt16)
  | deposited (vault : Pubkey) (amount : UInt64)
  | paid (vault : Pubkey) (amount : UInt64) (destination : Pubkey)
  | held (vault : Pubkey) (id amount : UInt64) (destination : Pubkey) (unlockAt : Int64)
  | refused (vault : Pubkey) (amount : UInt64) (destination : Pubkey) (reason : UInt8)
  | executed (vault : Pubkey) (id amount : UInt64) (destination : Pubkey)
  | stopped (vault : Pubkey) (id amount : UInt64)
  | frozen (vault byKey : Pubkey)
  | unfrozen (vault : Pubkey)
  | unfreezeScheduled (vault : Pubkey) (effectiveAt : Int64)
  | skipped (vault : Pubkey) (id amount : UInt64) (destination : Pubkey)
  | recovered (vault : Pubkey) (amount : UInt64) (destination : Pubkey)
  | changeProposed (vault : Pubkey) (effectiveAt : Int64) (fields : UInt8)
  | changeApplied (vault : Pubkey) (fields : UInt8)
  | changeCancelled (vault : Pubkey)
  deriving DecidableEq

/-- A vault account at its address, its ledger, and the accounts of other programs. -/
structure HoldState where
  key : Pubkey
  vault : HoldVault
  ledger : HoldLedger
  world : World

end Veto

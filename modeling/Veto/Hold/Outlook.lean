import Veto.Hold.Known
import Veto.Hold.Readers

/-!
# The outlook of a withdrawal

`withdrawalOutlook` of the SDK and `holdWithdrawalOutlook` of the app say from the account
data of a vault whether a withdrawal pays at once, waits or is refused.  The two are one
function but for the checks of the arguments and the texts of the errors.  The program
decides as they say; what they do not see is whether the token program makes the transfer.
-/

namespace Veto

open Foundation

def HOLD_BUCKET_SECS : Int := 3600

def I64_MIN : Int := -9223372036854775808

def I64_MAX : Int := 9223372036854775807

def U64_MAX : Int := 0xffffffffffffffff

inductive HoldWaitReason
  | frozen
  | newAddress
  | overDailyLimit
  | overShare
  deriving DecidableEq

inductive RefusedReason
  | insufficientFunds
  | pendingFull
  deriving DecidableEq

inductive WithdrawalOutlook
  | atOnce
  | held (reasons : List HoldWaitReason) (unlockAt : Int)
  | refused (reason : RefusedReason)
  deriving DecidableEq

structure OutlookArgs where
  amount : Int
  destination : Pubkey
  balance : Int
  now : Int

/-- The texts of one client's errors. -/
structure OutlookTexts where
  share : String
  unlock : String

namespace HoldVaultAccount

variable (texts : OutlookTexts) (vault : HoldVaultAccount) (args : OutlookArgs)

/-- `shareCap` of a client, where division cuts toward zero. -/
def clientShareCap (balance : Int) (bps : Nat) : Except Thrown Int := do
  throwUnless ((bps : Int) ≤ 10000) texts.share
  let denom : Int := 10000
  let share : Int := bps
  let whole := balance.tdiv denom
  let rem := balance.tmod denom
  return whole * share + (rem * share).tdiv denom

def addI64 (left right : Int) : Except Thrown Int := do
  let sum := left + right
  throwUnless (I64_MIN ≤ sum ∧ sum ≤ I64_MAX) texts.unlock
  return sum

/-- The hour of a clock reading, by a division that cuts toward zero. -/
def clientHour (now : Int) : Int :=
  if 0 ≤ now then now.tdiv HOLD_BUCKET_SECS
  else (now - HOLD_BUCKET_SECS + 1).tdiv HOLD_BUCKET_SECS

def dailyNext : Int :=
  (vault.dailyBuckets.filter fun bucket => clientHour args.now - 24 ≤ bucket.hour).foldl
    (fun total bucket => total + bucket.amount) args.amount

/-- Every rule that blocks an immediate payment, where the share is `cap`. -/
def waitReasons (cap : Int) : List HoldWaitReason :=
  (if vault.frozen then [.frozen] else []) ++
    (if !vault.known.contains args.destination then [.newAddress] else []) ++
    (if Veto.U64_MAX < vault.dailyNext args ∨ vault.dailyLimit < vault.dailyNext args then
      [.overDailyLimit] else []) ++
    (if cap < vault.dailyNext args then [.overShare] else [])

/-- The outlook, once the arguments are checked. -/
def outlook : Except Thrown WithdrawalOutlook := do
  if args.balance < args.amount then
    return .refused .insufficientFunds
  let cap ← clientShareCap texts args.balance vault.bigShareBps
  let reasons := vault.waitReasons args cap
  if reasons = [] then
    return .atOnce
  if HOLD_PENDING_CAPACITY ≤ vault.pending.length then
    return .refused .pendingFull
  return .held reasons (← addI64 texts args.now vault.delaySecs)

end HoldVaultAccount

namespace Sdk

def asU64 (value : Int) (field : String) : Except Thrown Unit :=
  throwUnless (0 ≤ value ∧ value ≤ Veto.U64_MAX) (field ++ " is outside u64")

def asI64 (value : Int) (field : String) : Except Thrown Unit :=
  throwUnless (I64_MIN ≤ value ∧ value ≤ I64_MAX) (field ++ " is outside i64")

def outlookTexts : OutlookTexts where
  share := "HoldVault.previewWithdrawal: big_share_bps is outside 0 to 10000"
  unlock := "HoldVault.previewWithdrawal unlock overflows i64"

def withdrawalOutlook (vault : HoldVaultAccount) (args : OutlookArgs) :
    Except Thrown WithdrawalOutlook := do
  asU64 args.amount "HoldVault.previewWithdrawal amount"
  asU64 args.balance "HoldVault.previewWithdrawal balance"
  asI64 args.now "HoldVault.previewWithdrawal now"
  throwUnless (args.amount ≠ 0) "HoldVault.previewWithdrawal: amount must be positive"
  vault.outlook outlookTexts args

/-- The outlook from the bytes of an account. -/
def outlookFrom (data : Bytes) (address : Pubkey) (args : OutlookArgs) :
    Except Thrown WithdrawalOutlook := do
  withdrawalOutlook (← decodeHoldVault data address) args

end Sdk

namespace App

def outlookTexts : OutlookTexts where
  share := "big share is outside 0 to 10000"
  unlock := "unlock time overflows"

def holdWithdrawalOutlook (vault : HoldVaultAccount) (args : OutlookArgs) :
    Except Thrown WithdrawalOutlook := do
  throwUnless (0 < args.amount) "amount must be positive"
  vault.outlook outlookTexts args

def outlookFrom (data : Bytes) (address : Pubkey) (args : OutlookArgs) :
    Except Thrown WithdrawalOutlook := do
  holdWithdrawalOutlook (← decodeHoldVault data address) args

end App

/-! ## What the program makes of a withdrawal -/

/-- What became of a withdrawal, as its event tells. -/
inductive WithdrawalOutcome
  | paid
  | held (unlockAt : Int)
  | refused (reason : UInt8)
  deriving DecidableEq

def HoldEvent.withdrawal? : HoldEvent → Option WithdrawalOutcome
  | .paid .. => some .paid
  | .held _ _ _ _ unlockAt => some (.held unlockAt.toInt)
  | .refused _ _ _ reason => some (.refused reason)
  | _ => none

def withdrawalOutcome (o : HoldOutput) : Option WithdrawalOutcome :=
  o.events.findSome? HoldEvent.withdrawal?

def RefusedReason.code : RefusedReason → UInt8
  | .insufficientFunds => HOLD_REASON_INSUFFICIENT_FUNDS
  | .pendingFull => HOLD_REASON_PENDING_FULL

/-- What an outlook promises. -/
def WithdrawalOutlook.outcome : WithdrawalOutlook → WithdrawalOutcome
  | .atOnce => .paid
  | .held _ unlockAt => .held unlockAt
  | .refused reason => .refused reason.code

/-! ## The arithmetic of the clients is that of the program -/

theorem clientHour_eq (now : Int64) :
    HoldVaultAccount.clientHour now.toInt = (hourOf now).toInt := by
  rw [toInt_hourOf]
  unfold HoldVaultAccount.clientHour HOLD_BUCKET_SECS BUCKET_SECS
  split
  · rename_i hpos
    rw [Int.tdiv_eq_ediv_of_nonneg hpos]
    rfl
  · rename_i hneg
    have hflip : now.toInt - 3600 + 1 = -(3599 - now.toInt) := by omega
    rw [hflip, Int.neg_tdiv, Int.tdiv_eq_ediv_of_nonneg (by omega)]
    omega

/-- A share of at most the whole is computed without an overflow. -/
theorem shareCap_of_le (balance : UInt64) {bps : UInt16}
    (h : bps.toUInt64 ≤ HOLD_BPS_DENOMINATOR) :
    ∃ cap, shareCap balance bps = .ok cap ∧
      cap.toNat = balance.toNat * bps.toNat / 10000 := by
  have hbps : bps.toUInt64.toNat = bps.toNat := UInt16.toNat_toUInt64 bps
  have hden : HOLD_BPS_DENOMINATOR.toNat = 10000 := rfl
  have hle : bps.toNat ≤ 10000 := by
    rw [UInt64.le_iff_toNat_le, hbps, hden] at h
    exact h
  have hbound := balance.toNat_lt
  have hwhole : balance.toNat / 10000 * bps.toNat ≤ balance.toNat / 10000 * 10000 :=
    Nat.mul_le_mul_left _ hle
  have hrem : balance.toNat % 10000 * bps.toNat ≤ balance.toNat % 10000 * 10000 :=
    Nat.mul_le_mul_left _ hle
  have hcap : balance.toNat * bps.toNat / 10000 < 2 ^ 64 := by
    rw [← share_split]
    omega
  refine ⟨.ofNat (balance.toNat * bps.toNat / 10000), ?_, UInt64.toNat_ofNat_of_lt' hcap⟩
  unfold shareCap
  simp only [↓require_bind_ok_iff, bind_ok_iff, okOr_eq_ok, checkedMul_eq_some,
    checkedAdd_eq_some, UInt64.toNat_div, UInt64.toNat_mod, hden, hbps]
  refine ⟨h, .ofNat (balance.toNat / 10000 * bps.toNat), ?_,
    .ofNat (balance.toNat % 10000 * bps.toNat), ?_, ?_⟩
  · exact UInt64.toNat_ofNat_of_lt' (by show _ < 2 ^ 64; omega)
  · exact UInt64.toNat_ofNat_of_lt' (by show _ < 2 ^ 64; omega)
  · rw [UInt64.toNat_ofNat_of_lt' hcap, UInt64.toNat_ofNat_of_lt' (by show _ < 2 ^ 64; omega),
      UInt64.toNat_ofNat_of_lt' (by show _ < 2 ^ 64; omega), share_split]

theorem clientShareCap_of_le (texts : OutlookTexts) (balance : UInt64) {bps : UInt16}
    (h : bps.toUInt64 ≤ HOLD_BPS_DENOMINATOR) :
    HoldVaultAccount.clientShareCap texts balance.toNat bps.toNat =
      .ok ((balance.toNat * bps.toNat / 10000 : Nat) : Int) := by
  have hle : (bps.toNat : Int) ≤ 10000 := by
    rw [UInt64.le_iff_toNat_le, UInt16.toNat_toUInt64 bps] at h
    exact_mod_cast h
  unfold HoldVaultAccount.clientShareCap throwUnless
  rw [require_true hle, ok_bind, ← share_split]
  rfl

theorem foldl_add_amount (l : List BucketView) (start : Int) :
    l.foldl (fun total bucket => total + bucket.amount) start =
      start + (l.map fun bucket => bucket.amount).sum := by
  induction l generalizing start with
  | nil => simp
  | cons bucket l ih =>
      rw [List.foldl_cons, ih, List.map_cons, List.sum_cons]
      omega

/-- The total of a client is the amount and what the program reads as spent. -/
theorem dailyNext_eq (vault : HoldVault) (address : Pubkey) (args : OutlookArgs) {now : Int64}
    (hnow : args.now = now.toInt) :
    (HoldVaultAccount.of vault address).dailyNext args = args.amount +
      (((vault.dailyBuckets.toList.filter fun bucket => hourOf now - 24 ≤ bucket.hour).map
        fun bucket => bucket.amount.toNat).sum : Nat) := by
  have hkept : ∀ bucket : TradeBucket,
      (hourOf now).toInt - 24 ≤ bucket.hour.toInt ↔ hourOf now - 24 ≤ bucket.hour := by
    intro bucket
    have hold := toInt_oldest now
    have hcount : ((BUCKET_COUNT : Nat) : Int) = 25 := rfl
    rw [Int64.le_iff_toInt_le, hold]
    omega
  unfold HoldVaultAccount.dailyNext
  rw [foldl_add_amount, hnow, clientHour_eq]
  simp only [HoldVaultAccount.of, List.filter_map, List.map_map, Function.comp_def, BucketView.of,
    hkept]
  congr 1
  generalize vault.dailyBuckets.toList.filter _ = kept
  induction kept with
  | nil => rfl
  | cons bucket kept ih =>
      rw [List.map_cons, List.map_cons, List.sum_cons, List.sum_cons, ih]
      rfl

/-- The clients see a full list exactly when the program finds no free row. -/
theorem pending_full_iff (vault : HoldVault) (address : Pubkey) :
    HOLD_PENDING_CAPACITY ≤ (HoldVaultAccount.of vault address).pending.length ↔
      vault.firstEmpty = none := by
  have hlength : vault.pending.toList.length = HOLD_PENDING_CAPACITY := by simp
  have hwaits : ∀ row : PendingWithdrawal,
      (PendingView.of? row).isSome = true ↔ row.status ≠ .empty := by
    intro row
    unfold PendingView.of?
    cases row.status with
    | empty => simp
    | pending => simp
  have hcount := List.countP_le_length (p := fun row => (PendingView.of? row).isSome)
    (l := vault.pending.toList)
  have hall := List.countP_eq_length (p := fun row => (PendingView.of? row).isSome)
    (l := vault.pending.toList)
  show _ ≤ (vault.pending.toList.filterMap PendingView.of?).length ↔ _
  rw [List.length_filterMap_eq_countP]
  unfold HoldVault.firstEmpty HoldVault.position
  rw [List.find?_eq_none]
  constructor
  · intro hfull i _
    have hrow : vault.pending.row i ∈ vault.pending.toList := by
      simp [PendingRows.row]
    have hsome := hall.mp (by omega) _ hrow
    simpa using (hwaits _).mp hsome
  · intro hnone
    refine Nat.le_of_eq ((hall.mpr ?_).trans hlength).symm
    intro row hrow
    obtain ⟨i, hi, rfl⟩ := List.getElem_of_mem hrow
    rw [hlength] at hi
    have hempty := hnone ⟨i, hi⟩ (List.mem_finRange _)
    refine (hwaits _).mpr ?_
    exact fun hrow => hempty (decide_eq_true hrow)

theorem waitReasons_eq_nil {vault : HoldVaultAccount} {args : OutlookArgs} {cap : Int} :
    vault.waitReasons args cap = [] ↔ vault.frozen = false ∧ args.destination ∈ vault.known ∧
      vault.dailyNext args ≤ Veto.U64_MAX ∧ vault.dailyNext args ≤ vault.dailyLimit ∧
      vault.dailyNext args ≤ cap := by
  unfold HoldVaultAccount.waitReasons
  simp [not_or, and_assoc]

/-- The arguments with which a client is asked about a withdrawal. -/
def outlookArgs (amount balance : UInt64) (destination : Pubkey) (now : Int64) : OutlookArgs where
  amount := amount.toNat
  destination := destination
  balance := balance.toNat
  now := now.toInt

theorem spentPlus_eq_some {buckets : TradeBuckets} {now : Int64} {amount total : UInt64} :
    ((spent buckets now).bind fun spent => checkedAdd spent amount) = some total ↔
      total.toNat = ((buckets.toList.filter fun bucket => hourOf now - 24 ≤ bucket.hour).map
        fun bucket => bucket.amount.toNat).sum + amount.toNat := by
  have hspent : ∀ before, spent buckets now = some before ↔ before.toNat =
      ((buckets.toList.filter fun bucket => hourOf now - 24 ≤ bucket.hour).map
        fun bucket => bucket.amount.toNat).sum := by
    intro before
    unfold spent
    rw [foldlM_checkedAdd]
    show before.toNat = 0 + _ ↔ _
    rw [Nat.zero_add]
  rw [Option.bind_eq_some_iff]
  constructor
  · rintro ⟨before, hbefore, hadd⟩
    rw [checkedAdd_eq_some.mp hadd, (hspent before).mp hbefore]
  · intro htotal
    have hlt := total.toNat_lt
    have hword : (UInt64.ofNat ((buckets.toList.filter fun bucket =>
        hourOf now - 24 ≤ bucket.hour).map fun bucket => bucket.amount.toNat).sum).toNat = _ :=
      UInt64.toNat_ofNat_of_lt' (by show _ < 2 ^ 64; omega)
    exact ⟨_, (hspent _).mpr hword, checkedAdd_eq_some.mpr (by rw [hword, htotal])⟩

/-- **The program pays at once exactly when a client sees no reason to wait.** -/
theorem canPayNow_eq {vault : HoldVault} (address : Pubkey) (balance amount : UInt64)
    (destination : Pubkey) (now : Int64)
    (hshare : vault.bigShareBps.toUInt64 ≤ HOLD_BPS_DENOMINATOR) :
    vault.canPayNow balance destination amount now =
      .ok (decide ((HoldVaultAccount.of vault address).waitReasons
        (outlookArgs amount balance destination now)
        ((balance.toNat * vault.bigShareBps.toNat / 10000 : Nat) : Int) = [])) := by
  have hnext := dailyNext_eq vault address (outlookArgs amount balance destination now) rfl
  obtain ⟨cap, hcap, hvalue⟩ := shareCap_of_le balance hshare
  rw [← hvalue]
  have htotal : ∀ total, ((spent vault.dailyBuckets now).bind fun spent =>
      checkedAdd spent amount) = some total ↔ (total.toNat : Int) =
        (HoldVaultAccount.of vault address).dailyNext
          (outlookArgs amount balance destination now) := by
    intro total
    rw [hnext, spentPlus_eq_some]
    show _ ↔ (total.toNat : Int) = (amount.toNat : Int) + _
    omega
  have hmax : Veto.U64_MAX = 2 ^ 64 - 1 := rfl
  generalize hdaily : (HoldVaultAccount.of vault address).dailyNext
    (outlookArgs amount balance destination now) = next at htotal
  have hreasons : (HoldVaultAccount.of vault address).waitReasons
      (outlookArgs amount balance destination now) cap.toNat = [] ↔
      vault.frozen = false ∧ vault.isKnown destination ∧ next ≤ Veto.U64_MAX ∧
        next ≤ vault.dailyLimit.toNat ∧ next ≤ cap.toNat := by
    rw [waitReasons_eq_nil, hdaily]
    rfl
  unfold HoldVault.canPayNow
  by_cases hlive : vault.frozen = true ∨ ¬ vault.isKnown destination
  · rw [if_pos hlive, decide_eq_false]
    rw [hreasons]
    rintro ⟨hfrozen, hknown, -⟩
    rcases hlive with h | h
    · rw [hfrozen] at h
      cases h
    · exact h hknown
  rw [if_neg hlive]
  rw [not_or, Bool.not_eq_true, not_not] at hlive
  cases hsum : (spent vault.dailyBuckets now).bind fun spent => checkedAdd spent amount with
  | none =>
      rw [decide_eq_false]
      rw [hreasons]
      rintro ⟨-, -, hfits, -⟩
      have hpos : 0 ≤ next := by
        rw [← hdaily, hnext]
        show (0 : Int) ≤ (amount.toNat : Int) + _
        omega
      have hword := (htotal (.ofNat next.toNat)).mpr (by
        rw [UInt64.toNat_ofNat_of_lt' (by show next.toNat < 2 ^ 64; omega)]
        omega)
      rw [hsum] at hword
      cases hword
  | some total =>
      have hnext' := (htotal total).mp hsum
      have hlt := total.toNat_lt
      dsimp only
      by_cases hover : vault.dailyLimit < total
      · rw [if_pos hover, decide_eq_false]
        rw [hreasons]
        rintro ⟨-, -, -, hle, -⟩
        rw [UInt64.lt_iff_toNat_lt] at hover
        omega
      · rw [if_neg hover, hcap, ok_bind]
        rw [UInt64.lt_iff_toNat_lt] at hover
        show Except.ok (decide (total ≤ cap)) = _
        congr 1
        rw [decide_eq_decide, hreasons, UInt64.le_iff_toNat_le]
        constructor
        · intro hle
          exact ⟨hlive.1, hlive.2, by omega, by omega, by omega⟩
        · rintro ⟨-, -, -, -, hle⟩
          omega

/-! ## One outlook, two clients and the program -/

section Agreement

variable {vault : HoldVault} (address : Pubkey) (amount balance : UInt64) (destination : Pubkey)
  (now : Int64)

/-- The outlook that both clients arrive at. -/
def foreseen (vault : HoldVault) : WithdrawalOutlook :=
  let reasons := (HoldVaultAccount.of vault address).waitReasons
    (outlookArgs amount balance destination now)
    ((balance.toNat * vault.bigShareBps.toNat / 10000 : Nat) : Int)
  if balance < amount then .refused .insufficientFunds
  else if reasons = [] then .atOnce
  else if vault.firstEmpty = none then .refused .pendingFull
  else .held reasons (now.toInt + vault.delaySecs.toInt)

/-- `now + delay_secs` is a number of seconds that an `i64` holds. -/
def UnlockInRange (vault : HoldVault) (now : Int64) : Prop :=
  -2 ^ 63 ≤ now.toInt + vault.delaySecs.toInt ∧ now.toInt + vault.delaySecs.toInt < 2 ^ 63

instance (vault : HoldVault) (now : Int64) : Decidable (UnlockInRange vault now) :=
  inferInstanceAs (Decidable (_ ∧ _))

theorem outlook_eq (texts : OutlookTexts) (hshare : vault.bigShareBps.toUInt64 ≤ HOLD_BPS_DENOMINATOR)
    (hrange : UnlockInRange vault now) :
    (HoldVaultAccount.of vault address).outlook texts
      (outlookArgs amount balance destination now) =
      .ok (foreseen address amount balance destination now vault) := by
  have hfunds : (balance.toNat : Int) < (amount.toNat : Int) ↔ balance < amount := by
    rw [UInt64.lt_iff_toNat_lt]
    omega
  have hcap := clientShareCap_of_le texts balance hshare
  have hunlock : HoldVaultAccount.addI64 texts now.toInt vault.delaySecs.toInt =
      .ok (now.toInt + vault.delaySecs.toInt) := by
    have hsum : I64_MIN ≤ now.toInt + vault.delaySecs.toInt ∧
        now.toInt + vault.delaySecs.toInt ≤ I64_MAX := by
      obtain ⟨hlow, hhigh⟩ := hrange
      unfold I64_MIN I64_MAX
      omega
    unfold HoldVaultAccount.addI64 throwUnless
    dsimp only
    rw [require_true hsum]
    rfl
  unfold HoldVaultAccount.outlook foreseen
  simp only [pending_full_iff]
  show (if (balance.toNat : Int) < (amount.toNat : Int) then _ else _) = _
  by_cases hpoor : balance < amount
  · rw [if_pos (hfunds.mpr hpoor), if_pos hpoor]
    rfl
  rw [if_neg (mt hfunds.mp hpoor), if_neg hpoor]
  show (HoldVaultAccount.clientShareCap texts balance.toNat vault.bigShareBps.toNat >>= _) = _
  rw [hcap, ok_bind]
  split
  · rfl
  split
  · rfl
  show (HoldVaultAccount.addI64 texts now.toInt vault.delaySecs.toInt >>= _) = _
  rw [hunlock, ok_bind]
  rfl

theorem sdkOutlook_eq (hpositive : 0 < amount)
    (hshare : vault.bigShareBps.toUInt64 ≤ HOLD_BPS_DENOMINATOR)
    (hrange : UnlockInRange vault now) :
    Sdk.outlookFrom vault.data address (outlookArgs amount balance destination now) =
      .ok (foreseen address amount balance destination now vault) := by
  have hword : ∀ (v : UInt64) field, Sdk.asU64 v.toNat field = .ok () := by
    intro v field
    have hlt := v.toNat_lt
    exact require_true (by unfold Veto.U64_MAX; omega)
  have hclock : ∀ field, Sdk.asI64 now.toInt field = .ok () := by
    intro field
    have hlow := now.le_toInt
    have hhigh := now.toInt_lt
    exact require_true (by unfold I64_MIN I64_MAX; omega)
  have hamount : (amount.toNat : Int) ≠ 0 := by
    rw [UInt64.lt_iff_toNat_lt] at hpositive
    have hzero : (0 : UInt64).toNat = 0 := rfl
    omega
  rw [Sdk.outlookFrom, Sdk.decodeHoldVault_eq, ok_bind]
  unfold Sdk.withdrawalOutlook
  show (Sdk.asU64 amount.toNat _ >>= fun _ => Sdk.asU64 balance.toNat _ >>= fun _ =>
    Sdk.asI64 now.toInt _ >>= fun _ => throwUnless ((amount.toNat : Int) ≠ 0) _ >>= fun _ => _) = _
  rw [hword, ok_bind, hword, ok_bind, hclock, ok_bind, throwUnless, require_true hamount, ok_bind]
  exact outlook_eq address amount balance destination now _ hshare hrange

theorem appOutlook_eq (hpositive : 0 < amount)
    (hshare : vault.bigShareBps.toUInt64 ≤ HOLD_BPS_DENOMINATOR)
    (hrange : UnlockInRange vault now) :
    App.outlookFrom vault.data address (outlookArgs amount balance destination now) =
      .ok (foreseen address amount balance destination now vault) := by
  have hamount : (0 : Int) < amount.toNat := by
    rw [UInt64.lt_iff_toNat_lt] at hpositive
    have hzero : (0 : UInt64).toNat = 0 := rfl
    omega
  rw [App.outlookFrom, App.decodeHoldVault_eq, Sdk.decodeHoldVault_eq, ok_bind]
  unfold App.holdWithdrawalOutlook
  show (throwUnless ((0 : Int) < amount.toNat) _ >>= fun _ => _) = _
  rw [throwUnless, require_true hamount, ok_bind]
  exact outlook_eq address amount balance destination now _ hshare hrange

end Agreement

/-! ## The outlook of every reachable vault -/

section Reachable

variable {rt : Runtime} {s : HoldState} {now : Int64} {signers : List Pubkey} {accts : Withdraw}
  {ctx : PayoutCtx} {amount : UInt64}

/-- A withdrawal whose accounts are admitted ends as foreseen.  It fails in the transfer, or
where no id is left for another row. -/
theorem withdraw_foreseen (hload : accts.load rt signers s = .ok ctx) (hpositive : 0 < amount)
    (hshare : s.vault.bigShareBps.toUInt64 ≤ HOLD_BPS_DENOMINATOR)
    (hrange : UnlockInRange s.vault now) :
    (∀ o s', withdraw rt now signers accts amount s = .ok (o, s') → withdrawalOutcome o =
      some (foreseen s.key amount ctx.vaultToken.amount accts.out.destination now s.vault).outcome) ∧
    ∀ e, withdraw rt now signers accts amount s = .error e →
      foreseen s.key amount ctx.vaultToken.amount accts.out.destination now s.vault = .atOnce ∧
          transferOutParts rt s accts.out ctx amount = .error e ∨
        (∃ reasons unlockAt, foreseen s.key amount ctx.vaultToken.amount accts.out.destination now
            s.vault = .held reasons unlockAt) ∧
          s.vault.nextWithdrawalId.toNat = 2 ^ 64 - 1 ∧ e = .veto .holdMathOverflow := by
  have hpay := canPayNow_eq s.key ctx.vaultToken.amount amount accts.out.destination now hshare
  unfold withdraw foreseen
  rw [hload, ok_bind, require_true hpositive, ok_bind]
  dsimp only
  generalize hreasons : (HoldVaultAccount.of s.vault s.key).waitReasons
    (outlookArgs amount ctx.vaultToken.amount accts.out.destination now)
    ((ctx.vaultToken.amount.toNat * s.vault.bigShareBps.toNat / 10000 : Nat) : Int) = reasons
    at hpay ⊢
  by_cases hpoor : ctx.vaultToken.amount < amount
  · rw [if_pos hpoor, if_pos hpoor]
    constructor
    · intro o s' h
      cases h
      rfl
    · intro e h
      cases h
  rw [if_neg hpoor, if_neg hpoor, hpay, ok_bind]
  by_cases hnow : reasons = []
  · rw [if_pos hnow, if_pos (decide_eq_true hnow)]
    cases hsent : transferOutParts rt s accts.out ctx amount with
    | error e' =>
        constructor
        · intro o s' h
          cases h
        · intro e h
          cases h
          exact .inl ⟨rfl, rfl⟩
    | ok w =>
        constructor
        · intro o s' h
          cases h
          rfl
        · intro e h
          cases h
  rw [if_neg hnow, if_neg (by rw [decide_eq_true_eq]; exact hnow)]
  have hunlock : checkedAddI64 now s.vault.delaySecs = some (now + s.vault.delaySecs) :=
    if_pos hrange
  have hvalue := checkedAddI64_eq_some.mp hunlock
  rw [hunlock]
  cases hrow : s.vault.firstEmpty with
  | none =>
      rw [if_pos rfl]
      constructor
      · intro o s' h
        cases h
        rfl
      · intro e h
        cases h
  | some index =>
      rw [if_neg (Option.some_ne_none index)]
      cases hnext : checkedAdd s.vault.nextWithdrawalId 1 with
      | none =>
          constructor
          · intro o s' h
            cases h
          · intro e h
            cases h
            refine .inr ⟨⟨_, _, rfl⟩, ?_, rfl⟩
            unfold checkedAdd at hnext
            have hone : (1 : UInt64).toNat = 1 := rfl
            have hlt := s.vault.nextWithdrawalId.toNat_lt
            split at hnext
            · cases hnext
            · omega
      | some next =>
          constructor
          · intro o s' h
            cases h
            show some (WithdrawalOutcome.held (now + s.vault.delaySecs).toInt) = _
            rw [hvalue]
            rfl
          · intro e h
            cases h

/-- **The outlook of a withdrawal.**  For every reachable vault and every withdrawal whose
accounts are admitted, the SDK and the app see one outlook.  If the withdrawal goes through
it ends so: paid now, held with the same unlock time, or refused for the same cause.  It
fails only where the outlook is a payment and the transfer fails, or where the outlook is a
hold and the vault has no id left. -/
theorem outlook_agrees {opening : HoldOutput} {s₀ : HoldState} {h : HoldHistory}
    (hopen : Opens rt opening s₀) (run : Run (HoldStep rt) s₀ h s)
    (hload : accts.load rt signers s = .ok ctx) (hpositive : 0 < amount)
    (hrange : UnlockInRange s.vault now) :
    ∃ outlook,
      Sdk.outlookFrom s.vault.data s.key
        (outlookArgs amount ctx.vaultToken.amount accts.out.destination now) = .ok outlook ∧
      App.outlookFrom s.vault.data s.key
        (outlookArgs amount ctx.vaultToken.amount accts.out.destination now) = .ok outlook ∧
      (∀ o s', withdraw rt now signers accts amount s = .ok (o, s') →
        withdrawalOutcome o = some outlook.outcome) ∧
      ∀ e, withdraw rt now signers accts amount s = .error e →
        outlook = .atOnce ∧ transferOutParts rt s accts.out ctx amount = .error e ∨
          (∃ reasons unlockAt, outlook = .held reasons unlockAt) ∧
            s.vault.nextWithdrawalId.toNat = 2 ^ 64 - 1 ∧ e = .veto .holdMathOverflow := by
  have hshare := (valid_of_run hopen run).share
  obtain ⟨hsame, hfails⟩ := withdraw_foreseen hload hpositive hshare hrange
  exact ⟨foreseen s.key amount ctx.vaultToken.amount accts.out.destination now s.vault,
    sdkOutlook_eq _ _ _ _ _ hpositive hshare hrange,
    appOutlook_eq _ _ _ _ _ hpositive hshare hrange, hsame, hfails⟩

end Reachable

/-! ### Two withdrawals -/

section Sample

/-- The sample run up to its second withdrawal. -/
def knownRun : Except ProgramError (HoldHistory × HoldState) :=
  execAll (HoldState.exec vaultRuntime) [] (okValue (openSample 2) openSample_ok).2
    [fundVault 10 1000, withdrawTo 20 40, executeTo 86420 1]

theorem knownRun_ok : knownRun.toBool = true := rfl

/-- The accounts of a withdrawal to account 11, admitted at a state of the sample vault. -/
def admits (s : HoldState) : Except ProgramError PayoutCtx :=
  Withdraw.load { owner := 1, out := payoutTo 11 } vaultRuntime [1] s

theorem knownRun_admits : (admits (okValue knownRun knownRun_ok).2).toBool = true := by
  decide

theorem outlook_agrees_known :
    let s := (okValue knownRun knownRun_ok).2
    ∃ outlook, Sdk.outlookFrom s.vault.data s.key (outlookArgs 50 960 11 86430) = .ok outlook ∧
      App.outlookFrom s.vault.data s.key (outlookArgs 50 960 11 86430) = .ok outlook ∧
      outlook.outcome = .paid := by
  have hamount : (okValue _ knownRun_admits).vaultToken.amount = 960 := by decide
  have hrange : UnlockInRange (okValue knownRun knownRun_ok).2.vault 86430 := by decide
  obtain ⟨outlook, hsdk, happ, hsame, -⟩ := outlook_agrees instantRun_opens
    (run_okValue knownRun_ok) (eq_ok_okValue _ knownRun_admits)
    (show (0 : UInt64) < 50 by decide) hrange
  rw [hamount] at hsdk happ
  refine ⟨outlook, hsdk, happ, ?_⟩
  have hpaid : withdrawalOutcome (okValue (withdraw vaultRuntime 86430 [1]
      { owner := 1, out := payoutTo 11 } 50 (okValue knownRun knownRun_ok).2)
      (by decide)).1 = some .paid := by decide
  have hend := hsame _ _ (eq_ok_okValue_pair _ (by decide))
  exact (Option.some.inj (hpaid.symm.trans hend)).symm

/-- The accounts of that moment, where the destination has been frozen since. -/
def frozenWorld : World := fun k =>
  if k = 11 then some ⟨splTokenId, .token ⟨3, 4, 40, none, 0, true⟩⟩
  else if k = 102 then some ⟨splTokenId, .token ⟨3, 100, 960, none, 0, false⟩⟩
  else vaultWorld k

def frozenRun : Except ProgramError (HoldHistory × HoldState) :=
  execAll (HoldState.exec vaultRuntime) [] (okValue (openSample 2) openSample_ok).2
    [fundVault 10 1000, withdrawTo 20 40, executeTo 86420 1,
      { now := 86425, signers := [], instr := .outside frozenWorld }]

theorem frozenRun_ok : frozenRun.toBool = true := rfl

theorem frozenRun_admits : (admits (okValue frozenRun frozenRun_ok).2).toBool = true := by
  decide

/-- A known destination that its mint froze: the clients foresee a payment, and the
withdrawal fails in the token program. -/
theorem outlook_misses_frozen_destination :
    let s := (okValue frozenRun frozenRun_ok).2
    Opens vaultRuntime (okValue (openSample 2) openSample_ok).1
        (okValue (openSample 2) openSample_ok).2 ∧
      Run (HoldStep vaultRuntime) (okValue (openSample 2) openSample_ok).2
        (okValue frozenRun frozenRun_ok).1 s ∧
      (∃ ctx, Withdraw.load { owner := 1, out := payoutTo 11 } vaultRuntime [1] s = .ok ctx ∧
        ctx.vaultToken.amount = 960) ∧
      UnlockInRange s.vault 86430 ∧
      Sdk.outlookFrom s.vault.data s.key (outlookArgs 50 960 11 86430) = .ok .atOnce ∧
      App.outlookFrom s.vault.data s.key (outlookArgs 50 960 11 86430) = .ok .atOnce ∧
      withdraw vaultRuntime 86430 [1] { owner := 1, out := payoutTo 11 } 50 s = .error .cpi := by
  intro s
  have hshare : s.vault.bigShareBps.toUInt64 ≤ HOLD_BPS_DENOMINATOR := by decide
  have hrange : UnlockInRange s.vault 86430 := by decide
  have hforeseen : foreseen s.key 50 960 11 86430 s.vault = .atOnce := by decide
  refine ⟨instantRun_opens, run_okValue frozenRun_ok,
    ⟨_, eq_ok_okValue _ frozenRun_admits, by decide⟩, hrange, ?_, ?_, ?_⟩
  · rw [sdkOutlook_eq s.key 50 960 11 86430 (by decide) hshare hrange, hforeseen]
  · rw [appOutlook_eq s.key 50 960 11 86430 (by decide) hshare hrange, hforeseen]
  · have hfails : (match withdraw vaultRuntime 86430 [1] { owner := 1, out := payoutTo 11 } 50 s with
        | .ok _ => none
        | .error e => some e) = some .cpi := by decide
    cases hrun : withdraw vaultRuntime 86430 [1] { owner := 1, out := payoutTo 11 } 50 s with
    | ok result =>
        rw [hrun] at hfails
        cases hfails
    | error e =>
        rw [hrun] at hfails
        exact congrArg Except.error (Option.some.inj hfails)

end Sample

end Veto

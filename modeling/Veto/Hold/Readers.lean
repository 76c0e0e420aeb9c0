import Veto.Hold.Instructions
import Veto.Hold.Layout
import Veto.Ledger.Readers

/-!
# The readers of a vault account

`decodeHoldVault` of the SDK and of the app.  The two are one function over how a 64-bit
number is read: the SDK takes the buffer's own reads, the app puts the bytes together.
A `bigint` is an integer.
-/

namespace Veto

open Foundation

def WITHDRAWAL_PENDING : UInt8 := 1

def VAULT_LEN : Nat := 1691

def PENDING_SIZE : Nat := 57

def OFF_KNOWN : Nat := 231

def OFF_PENDING : Nat := 743

def OFF_CHANGE : Nat := 1199

def OFF_DAILY_BUCKETS : Nat := 1291

def BUCKET_SIZE : Nat := 16

/-- A row of `pending` as a client reads it. -/
structure PendingView where
  id : Int
  amount : Int
  destination : Pubkey
  unlockAt : Int
  status : UInt8
  deriving DecidableEq

/-- `change` as a client reads it. -/
structure ChangeView where
  active : Bool
  fields : UInt8
  bigShareBps : Nat
  dailyLimit : Int
  delaySecs : Int
  guardian : Pubkey
  safeAddress : Pubkey
  effectiveAt : Int
  deriving DecidableEq

structure BucketView where
  hour : Int
  amount : Int
  deriving DecidableEq

/-- `HoldVaultAccount` of the SDK, `HoldAccount` of the app. -/
structure HoldVaultAccount where
  address : Pubkey
  owner : Pubkey
  guardian : Pubkey
  safeAddress : Pubkey
  mint : Pubkey
  vaultToken : Pubkey
  vaultId : Int
  dailyLimit : Int
  dailyBuckets : List BucketView
  windowSpent : Int
  windowStart : Int
  delaySecs : Int
  unfreezeAt : Int
  nextWithdrawalId : Int
  bigShareBps : Nat
  frozen : Bool
  known : List Pubkey
  pending : List PendingView
  change : ChangeView
  bump : UInt8
  tokenBump : UInt8
  ledgerBump : UInt8
  deriving DecidableEq

/-- How 64-bit numbers are read. -/
structure BigReads where
  u64 : Bytes → Nat → Except Thrown Int
  i64 : Bytes → Nat → Except Thrown Int

def keyAt (data : Bytes) (off : Nat) : Pubkey := Pubkey.ofBytes (subarray data off (off + 32))

section Decoder

variable (reads : BigReads) (data : Bytes)

/-- A slot of `pending`; only a row that waits is kept. -/
def decodePending (off : Nat) : Except Thrown (Option PendingView) := do
  let status ← readUInt8 data (off + 56)
  if status ≠ WITHDRAWAL_PENDING then
    return none
  return some {
    id := ← reads.u64 data off
    amount := ← reads.u64 data (off + 8)
    destination := keyAt data (off + 16)
    unlockAt := ← reads.i64 data (off + 48)
    status }

def decodeBucket (off : Nat) : Except Thrown BucketView := do
  return { hour := ← reads.i64 data off, amount := ← reads.u64 data (off + 8) }

def decodeChange (changeAt : Nat) : Except Thrown ChangeView := do
  return {
    active := (← readUInt8 data changeAt) ≠ 0
    fields := ← readUInt8 data (changeAt + 1)
    bigShareBps := (← readUInt16LE data (changeAt + 2)).toNat
    dailyLimit := ← reads.u64 data (changeAt + 4)
    delaySecs := ← reads.i64 data (changeAt + 12)
    guardian := keyAt data (changeAt + 20)
    safeAddress := keyAt data (changeAt + 52)
    effectiveAt := ← reads.i64 data (changeAt + 84) }

def decodeVault (address : Pubkey) : Except Thrown HoldVaultAccount := do
  requireDisc data HOLD_VAULT_DISCRIMINATOR "Hold vault"
  throwUnless (VAULT_LEN ≤ data.length)
    ("Hold vault account is " ++ toString data.length ++ " bytes, need " ++ toString VAULT_LEN)
  let knownLen := min (← readUInt8 data 227).toNat HOLD_KNOWN_CAPACITY
  let known := (List.range knownLen).map fun i => keyAt data (OFF_KNOWN + i * 32)
  let pending ← (List.range HOLD_PENDING_CAPACITY).mapM fun i =>
    decodePending reads data (OFF_PENDING + i * PENDING_SIZE)
  return {
    address
    owner := keyAt data 8
    guardian := keyAt data 40
    safeAddress := keyAt data 72
    mint := keyAt data 104
    vaultToken := keyAt data 136
    vaultId := ← reads.u64 data 168
    dailyLimit := ← reads.u64 data 176
    dailyBuckets := ← (List.range BUCKET_COUNT).mapM fun i =>
      decodeBucket reads data (OFF_DAILY_BUCKETS + i * BUCKET_SIZE)
    windowSpent := ← reads.u64 data 184
    windowStart := ← reads.i64 data 192
    delaySecs := ← reads.i64 data 200
    unfreezeAt := ← reads.i64 data 208
    nextWithdrawalId := ← reads.u64 data 216
    bigShareBps := (← readUInt16LE data 224).toNat
    frozen := (← readUInt8 data 226) ≠ 0
    known
    pending := pending.filterMap id
    change := ← decodeChange reads data OFF_CHANGE
    bump := ← readUInt8 data 228
    tokenBump := ← readUInt8 data 229
    ledgerBump := ← readUInt8 data 230 }

end Decoder

/-- `readBigUInt64LE` and `readBigInt64LE`. -/
def bufferReads : BigReads where
  u64 data off := (readBigUInt64LE data off).map fun v => v.toNat
  i64 data off := (readBigInt64LE data off).map Int64.toInt

namespace Sdk

def decodeHoldVault : Bytes → Pubkey → Except Thrown HoldVaultAccount := decodeVault bufferReads

end Sdk

namespace App

/-- The eight bytes from `offset` on; a byte past the end of the buffer counts as zero. -/
def readU64 (data : Bytes) (offset : Nat) : Nat :=
  (List.range 8).foldl (fun value i => value ||| (byteAt data (offset + i)).toNat <<< (8 * i)) 0

def readI64 (data : Bytes) (offset : Nat) : Int :=
  let value := readU64 data offset
  if 0x8000000000000000 ≤ value then value - 0x10000000000000000 else value

def reads : BigReads where
  u64 data off := .ok (readU64 data off)
  i64 data off := .ok (readI64 data off)

def decodeHoldVault : Bytes → Pubkey → Except Thrown HoldVaultAccount := decodeVault reads

end App

/-! ## The reads of the app are those of the SDK -/

theorem ofLE_append (a b : Bytes) : ofLE (a ++ b) = ofLE a + 256 ^ a.length * ofLE b := by
  induction a with
  | nil => simp [ofLE]
  | cons x a ih =>
      rw [List.cons_append, ofLE, ih, ofLE, List.length_cons, pow_succ]
      ring

/-- Bytes that are shifted into place and joined are the number they spell. -/
theorem joined_bytes {data : Bytes} {off k : Nat} (h : off + k ≤ data.length) :
    (List.range k).foldl (fun value i => value ||| (byteAt data (off + i)).toNat <<< (8 * i)) 0 =
      ofLE (subarray data off (off + k)) := by
  induction k with
  | zero => simp [subarray, ofLE]
  | succ k ih =>
      have hlength : (subarray data off (off + k)).length = k := by
        rw [length_subarray]
        omega
      have hlt := ofLE_lt (subarray data off (off + k))
      have hin : off + k < data.length := by omega
      have hnext : subarray data off (off + (k + 1)) =
          subarray data off (off + k) ++ [byteAt data (off + k)] := by
        rw [subarray, subarray, byteAt, ← Nat.add_assoc, List.take_add_one,
          List.getElem?_eq_getElem hin, List.drop_append_of_le_length (by rw [List.length_take]; omega),
          List.getD_eq_getElem?_getD, List.getElem?_eq_getElem hin]
        rfl
      have hbase : 256 ^ k = 2 ^ (8 * k) := by rw [Nat.pow_mul]
      rw [hlength, hbase] at hlt
      rw [List.range_succ, List.foldl_append, ih (by omega), hnext, ofLE_append, hlength, hbase,
        List.foldl_cons, List.foldl_nil, Nat.or_comm, ← Nat.shiftLeft_add_eq_or_of_lt hlt,
        Nat.shiftLeft_eq, ofLE, ofLE]
      ring

theorem toInt_ofNat {n : Nat} (h : n < 256 ^ 8) : (UInt64.ofNat n).toInt64.toInt =
    if 0x8000000000000000 ≤ n then (n : Int) - 0x10000000000000000 else n := by
  have hbits : (UInt64.ofNat n).toInt64.toInt = (UInt64.ofNat n).toBitVec.toInt := rfl
  have hval : (UInt64.ofNat n).toBitVec.toNat = n := UInt64.toNat_ofNat_of_lt' h
  rw [hbits, BitVec.toInt_eq_toNat_cond, hval]
  split <;> split <;> omega

namespace App

variable {data : Bytes} {off : Nat}

theorem reads_u64 (h : off + 8 ≤ data.length) : reads.u64 data off = bufferReads.u64 data off := by
  have hlength : (subarray data off (off + 8)).length = 8 := by
    rw [length_subarray]
    omega
  have hlt := ofLE_lt (subarray data off (off + 8))
  rw [hlength] at hlt
  have hread : readU64 data off = ofLE (subarray data off (off + 8)) := joined_bytes h
  simp only [reads, bufferReads, readBigUInt64LE, readUIntLE, if_pos h, Except.map, hread]
  rw [UInt64.toNat_ofNat_of_lt' hlt]

theorem reads_i64 (h : off + 8 ≤ data.length) : reads.i64 data off = bufferReads.i64 data off := by
  have hlength : (subarray data off (off + 8)).length = 8 := by
    rw [length_subarray]
    omega
  have hlt := ofLE_lt (subarray data off (off + 8))
  rw [hlength] at hlt
  have hread : readU64 data off = ofLE (subarray data off (off + 8)) := joined_bytes h
  simp only [reads, bufferReads, readBigInt64LE, readUIntLE, if_pos h, Except.map, readI64, hread]
  congr 1
  exact (toInt_ofNat hlt).symm

/-- The app decodes every buffer as the SDK does, the errors included. -/
theorem decodeHoldVault_eq (data : Bytes) (address : Pubkey) :
    decodeHoldVault data address = Sdk.decodeHoldVault data address := by
  unfold decodeHoldVault Sdk.decodeHoldVault decodeVault
  by_cases hlong : VAULT_LEN ≤ data.length
  · have hlong' : 1691 ≤ data.length := hlong
    have hu64 : ∀ off, off + 8 ≤ 1691 → reads.u64 data off = bufferReads.u64 data off :=
      fun off hoff => reads_u64 (hoff.trans hlong')
    have hi64 : ∀ off, off + 8 ≤ 1691 → reads.i64 data off = bufferReads.i64 data off :=
      fun off hoff => reads_i64 (hoff.trans hlong')
    have hpending : ∀ i ∈ List.range HOLD_PENDING_CAPACITY,
        decodePending reads data (OFF_PENDING + i * PENDING_SIZE) =
          decodePending bufferReads data (OFF_PENDING + i * PENDING_SIZE) := by
      intro i hi
      have hi' : i < 8 := List.mem_range.mp hi
      have hoff : OFF_PENDING + i * PENDING_SIZE = 743 + i * 57 := rfl
      unfold decodePending
      rw [hoff, hu64 _ (by omega), hu64 _ (by omega), hi64 _ (by omega)]
    have hbuckets : ∀ i ∈ List.range BUCKET_COUNT,
        decodeBucket reads data (OFF_DAILY_BUCKETS + i * BUCKET_SIZE) =
          decodeBucket bufferReads data (OFF_DAILY_BUCKETS + i * BUCKET_SIZE) := by
      intro i hi
      have hi' : i < 25 := List.mem_range.mp hi
      have hoff : OFF_DAILY_BUCKETS + i * BUCKET_SIZE = 1291 + i * 16 := rfl
      unfold decodeBucket
      rw [hoff, hi64 _ (by omega), hu64 _ (by omega)]
    have hchange : decodeChange reads data OFF_CHANGE = decodeChange bufferReads data OFF_CHANGE := by
      unfold decodeChange OFF_CHANGE
      rw [hu64 _ (by omega), hi64 _ (by omega), hi64 _ (by omega)]
    simp only [mapM_congr hpending, mapM_congr hbuckets, hchange, hu64 168 (by omega),
      hu64 176 (by omega), hu64 184 (by omega), hi64 192 (by omega), hi64 200 (by omega),
      hi64 208 (by omega), hu64 216 (by omega)]
  · have hthrow : ∀ message, throwUnless (VAULT_LEN ≤ data.length) message =
        .error (.error message) := fun message => if_neg hlong
    rw [hthrow]
    rfl

end App

/-! ## What the readers make of a vault -/

/-- The view of a row that waits. -/
def PendingView.of? (row : PendingWithdrawal) : Option PendingView :=
  if row.status = .pending then
    some { id := row.id.toNat, amount := row.amount.toNat, destination := row.destination,
           unlockAt := row.unlockAt.toInt, status := WITHDRAWAL_PENDING }
  else none

def ChangeView.of (change : PendingChange) : ChangeView where
  active := change.active
  fields := change.fields
  bigShareBps := change.bigShareBps.toNat
  dailyLimit := change.dailyLimit.toNat
  delaySecs := change.delaySecs.toInt
  guardian := change.guardian
  safeAddress := change.safeAddress
  effectiveAt := change.effectiveAt.toInt

def BucketView.of (bucket : TradeBucket) : BucketView :=
  { hour := bucket.hour.toInt, amount := bucket.amount.toNat }

def HoldVaultAccount.of (vault : HoldVault) (address : Pubkey) : HoldVaultAccount where
  address := address
  owner := vault.owner
  guardian := vault.guardian
  safeAddress := vault.safeAddress
  mint := vault.mint
  vaultToken := vault.vaultToken
  vaultId := vault.vaultId.toNat
  dailyLimit := vault.dailyLimit.toNat
  dailyBuckets := vault.dailyBuckets.toList.map .of
  windowSpent := vault.windowSpent.toNat
  windowStart := vault.windowStart.toInt
  delaySecs := vault.delaySecs.toInt
  unfreezeAt := vault.unfreezeAt.toInt
  nextWithdrawalId := vault.nextWithdrawalId.toNat
  bigShareBps := vault.bigShareBps.toNat
  frozen := vault.frozen
  known := vault.knownKeys
  pending := vault.pending.toList.filterMap PendingView.of?
  change := .of vault.change
  bump := vault.bump
  tokenBump := vault.tokenBump
  ledgerBump := vault.ledgerBump

section Windows

variable {data : Bytes} {off : Nat}

theorem bufferReads_u64 {v : UInt64} (h : subarray data off (off + 8) = toLE 8 v.toNat) :
    bufferReads.u64 data off = .ok (v.toNat : Int) := by
  simp only [bufferReads, readBigUInt64LE_eq h, Except.map]

theorem bufferReads_i64 {v : Int64} (h : subarray data off (off + 8) = toLE 8 v.toUInt64.toNat) :
    bufferReads.i64 data off = .ok v.toInt := by
  simp only [bufferReads, readBigInt64LE_eq h, Except.map]

theorem keyAt_eq {k : Pubkey} (h : subarray data off (off + 32) = k.toBytes) :
    keyAt data off = k := by
  rw [keyAt, h, Pubkey.ofBytes_toBytes]

theorem decodePending_eq {row : PendingWithdrawal}
    (h : subarray data off (off + 57) = row.bytes) :
    decodePending bufferReads data off = .ok (PendingView.of? row) := by
  have hstatus : readUInt8 data (off + 56) = .ok row.status.code :=
    readUInt8_eq (subarray_of_window 56 1 h (by simp [PendingWithdrawal.bytes]) (by omega))
  unfold decodePending PendingView.of?
  rw [hstatus, ok_bind]
  cases hrow : row.status with
  | empty => rfl
  | pending =>
      have hid : bufferReads.u64 data off = .ok (row.id.toNat : Int) := bufferReads_u64
        (subarray_of_window 0 8 h (by simp [PendingWithdrawal.bytes]) (by omega))
      have hamount : bufferReads.u64 data (off + 8) = .ok (row.amount.toNat : Int) := bufferReads_u64
        (subarray_of_window 8 8 h (by simp [PendingWithdrawal.bytes]) (by omega))
      have hdestination : keyAt data (off + 16) = row.destination := keyAt_eq
        (subarray_of_window 16 32 h (by simp [PendingWithdrawal.bytes]) (by omega))
      have hunlock : bufferReads.i64 data (off + 48) = .ok row.unlockAt.toInt := bufferReads_i64
        (subarray_of_window 48 8 h (by simp [PendingWithdrawal.bytes]) (by omega))
      simp only [hid, hamount, hdestination, hunlock, ok_bind]
      rfl

theorem decodeBucket_eq {bucket : TradeBucket}
    (h : subarray data off (off + 16) = bucket.bytes) :
    decodeBucket bufferReads data off = .ok (.of bucket) := by
  have hhour : bufferReads.i64 data off = .ok bucket.hour.toInt := bufferReads_i64
    (subarray_of_window 0 8 h (by simp [TradeBucket.bytes]) (by omega))
  have hamount : bufferReads.u64 data (off + 8) = .ok (bucket.amount.toNat : Int) := bufferReads_u64
    (subarray_of_window 8 8 h (by simp [TradeBucket.bytes, subarray_whole]) (by omega))
  unfold decodeBucket
  simp only [hhour, hamount, ok_bind]
  rfl

theorem decodeChange_data (vault : HoldVault) :
    decodeChange bufferReads vault.data OFF_CHANGE = .ok (.of vault.change) := by
  have hactive : readUInt8 vault.data (OFF_CHANGE + 0) = .ok (boolByte vault.change.active) :=
    readUInt8_eq (vault.changeField_at 0 1 (by simp [PendingChange.bytes]) (by omega))
  have hfields : readUInt8 vault.data (OFF_CHANGE + 1) = .ok vault.change.fields :=
    readUInt8_eq (vault.changeField_at 1 1 (by simp [PendingChange.bytes]) (by omega))
  have hbps : readUInt16LE vault.data (OFF_CHANGE + 2) = .ok vault.change.bigShareBps :=
    readUInt16LE_eq (vault.changeField_at 2 2 (by simp [PendingChange.bytes]) (by omega))
  have hdaily : bufferReads.u64 vault.data (OFF_CHANGE + 4) = .ok (vault.change.dailyLimit.toNat : Int) :=
    bufferReads_u64 (vault.changeField_at 4 8 (by simp [PendingChange.bytes]) (by omega))
  have hdelay : bufferReads.i64 vault.data (OFF_CHANGE + 12) = .ok vault.change.delaySecs.toInt :=
    bufferReads_i64 (vault.changeField_at 12 8 (by simp [PendingChange.bytes]) (by omega))
  have hguardian : keyAt vault.data (OFF_CHANGE + 20) = vault.change.guardian :=
    keyAt_eq (vault.changeField_at 20 32 (by simp [PendingChange.bytes]) (by omega))
  have hsafe : keyAt vault.data (OFF_CHANGE + 52) = vault.change.safeAddress :=
    keyAt_eq (vault.changeField_at 52 32 (by simp [PendingChange.bytes]) (by omega))
  have heffective : bufferReads.i64 vault.data (OFF_CHANGE + 84) = .ok vault.change.effectiveAt.toInt :=
    bufferReads_i64 (vault.changeField_at 84 8 (by simp [PendingChange.bytes, subarray_whole]) (by omega))
  rw [Nat.add_zero] at hactive
  unfold decodeChange
  simp only [hactive, hfields, hbps, hdaily, hdelay, hguardian, hsafe, heffective, ok_bind,
    boolByte_ne_zero, Bool.decide_eq_true]
  rfl

/-- The known destinations, as many as the count allows. -/
theorem known_read (vault : HoldVault) :
    ((List.range (min vault.knownLen.toNat HOLD_KNOWN_CAPACITY)).map fun i =>
      keyAt vault.data (OFF_KNOWN + i * 32)) = vault.knownKeys := by
  apply List.ext_getElem
  · simp [HoldVault.knownKeys]
  · intro i hi hi'
    have hlt : i < HOLD_KNOWN_CAPACITY := by
      rw [List.length_map, List.length_range] at hi
      omega
    rw [List.getElem_map, List.getElem_range]
    simp only [HoldVault.knownKeys, List.getElem_take, Vector.getElem_toList]
    exact keyAt_eq (vault.knownKey_at hlt)

theorem pending_read (vault : HoldVault) :
    ((List.range HOLD_PENDING_CAPACITY).mapM fun i =>
      decodePending bufferReads vault.data (OFF_PENDING + i * PENDING_SIZE)) =
      .ok (vault.pending.toList.map PendingView.of?) :=
  Ring.mapM_vector vault.pending _ fun i hi => by
    have hwindow := vault.row_at ⟨i, hi⟩
    exact decodePending_eq hwindow

theorem dailyBuckets_read (vault : HoldVault) :
    ((List.range BUCKET_COUNT).mapM fun i =>
      decodeBucket bufferReads vault.data (OFF_DAILY_BUCKETS + i * BUCKET_SIZE)) =
      .ok (vault.dailyBuckets.toList.map BucketView.of) :=
  Ring.mapM_vector vault.dailyBuckets _ fun _ hi => decodeBucket_eq (vault.bucket_at hi)

end Windows

/-- **The SDK reads back the vault that the program wrote.** -/
theorem Sdk.decodeHoldVault_eq (vault : HoldVault) (address : Pubkey) :
    Sdk.decodeHoldVault vault.data address = .ok (.of vault address) := by
  have hdisc : requireDisc vault.data HOLD_VAULT_DISCRIMINATOR "Hold vault" = .ok () := by
    unfold requireDisc throwUnless
    refine require_true ⟨?_, vault.disc_at⟩
    rw [vault.length_data]
    decide
  have hlong : VAULT_LEN ≤ vault.data.length := by
    rw [vault.length_data]
    decide
  have hbytes : ∀ off (v : UInt8), subarray vault.fixed off (off + 1) = [v] → off + 1 ≤ 223 →
      readUInt8 vault.data (8 + off) = .ok v := fun off v hv hoff =>
    readUInt8_eq (vault.field_at off 1 hv hoff)
  have hu64 : ∀ off (v : UInt64), subarray vault.fixed off (off + 8) = toLE 8 v.toNat →
      off + 8 ≤ 223 → bufferReads.u64 vault.data (8 + off) = .ok (v.toNat : Int) := fun off v hv hoff =>
    bufferReads_u64 (vault.field_at off 8 hv hoff)
  have hi64 : ∀ off (v : Int64), subarray vault.fixed off (off + 8) = toLE 8 v.toUInt64.toNat →
      off + 8 ≤ 223 → bufferReads.i64 vault.data (8 + off) = .ok v.toInt := fun off v hv hoff =>
    bufferReads_i64 (vault.field_at off 8 hv hoff)
  have hkey : ∀ off (k : Pubkey), subarray vault.fixed off (off + 32) = k.toBytes →
      off + 32 ≤ 223 → keyAt vault.data (8 + off) = k := fun off k hk hoff =>
    keyAt_eq (vault.field_at off 32 hk hoff)
  have howner := hkey 0 vault.owner (by simp [HoldVault.fixed]) (by omega)
  have hguardian := hkey 32 vault.guardian (by simp [HoldVault.fixed]) (by omega)
  have hsafe := hkey 64 vault.safeAddress (by simp [HoldVault.fixed]) (by omega)
  have hmint := hkey 96 vault.mint (by simp [HoldVault.fixed]) (by omega)
  have htoken := hkey 128 vault.vaultToken (by simp [HoldVault.fixed]) (by omega)
  have hid := hu64 160 vault.vaultId (by simp [HoldVault.fixed]) (by omega)
  have hdaily := hu64 168 vault.dailyLimit (by simp [HoldVault.fixed]) (by omega)
  have hspent := hu64 176 vault.windowSpent (by simp [HoldVault.fixed]) (by omega)
  have hstart := hi64 184 vault.windowStart (by simp [HoldVault.fixed]) (by omega)
  have hdelay := hi64 192 vault.delaySecs (by simp [HoldVault.fixed]) (by omega)
  have hunfreeze := hi64 200 vault.unfreezeAt (by simp [HoldVault.fixed]) (by omega)
  have hnext := hu64 208 vault.nextWithdrawalId (by simp [HoldVault.fixed]) (by omega)
  have hbps : readUInt16LE vault.data (8 + 216) = .ok vault.bigShareBps :=
    readUInt16LE_eq (vault.field_at 216 2 (by simp [HoldVault.fixed]) (by omega))
  have hfrozen := hbytes 218 (boolByte vault.frozen) (by simp [HoldVault.fixed]) (by omega)
  have hlen := hbytes 219 vault.knownLen (by simp [HoldVault.fixed]) (by omega)
  have hbump := hbytes 220 vault.bump (by simp [HoldVault.fixed]) (by omega)
  have htokenBump := hbytes 221 vault.tokenBump (by simp [HoldVault.fixed]) (by omega)
  have hledgerBump := hbytes 222 vault.ledgerBump (by simp [HoldVault.fixed]) (by omega)
  unfold Sdk.decodeHoldVault decodeVault
  rw [hdisc, ok_bind, throwUnless, require_true hlong, ok_bind]
  simp only [hlen, known_read, pending_read, dailyBuckets_read, decodeChange_data, howner, hguardian,
    hsafe, hmint, htoken, hid, hdaily, hspent, hstart, hdelay, hunfreeze, hnext, hbps, hfrozen, hbump,
    htokenBump, hledgerBump, ok_bind, boolByte_ne_zero, Bool.decide_eq_true, List.filterMap_map,
    Function.id_comp]
  rfl

/-- The account holds the vault, and both clients read it back field by field. -/
def HoldVault.RoundTrips (vault : HoldVault) : Prop :=
  ∃ data, vault.store = some data ∧ ∀ address,
    Sdk.decodeHoldVault data address = .ok (.of vault address) ∧
    App.decodeHoldVault data address = .ok (.of vault address)

theorem HoldVault.roundTrips (vault : HoldVault) : vault.RoundTrips := by
  refine ⟨vault.data, vault.store_eq, fun address => ?_⟩
  have hsdk := Sdk.decodeHoldVault_eq vault address
  exact ⟨hsdk, (App.decodeHoldVault_eq vault.data address).trans hsdk⟩

end Veto

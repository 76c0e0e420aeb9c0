import Veto.Ledger.Layout

/-!
# The bytes of a vault account

A vault is serialized field by field, without padding.  The account is six blocks: the
discriminator, the fields of fixed size, the known destinations, the waiting withdrawals,
the waiting rule change and the hour buckets.
-/

namespace Veto

open Foundation

def HOLD_VAULT_DISCRIMINATOR : Bytes := [225, 219, 122, 198, 245, 163, 91, 55]

def WithdrawalStatus.code : WithdrawalStatus → UInt8
  | .empty => 0
  | .pending => 1

/-- A `bool`, serialized. -/
def boolByte (b : Bool) : UInt8 := if b then 1 else 0

@[simp] theorem boolByte_ne_zero (b : Bool) : boolByte b ≠ 0 ↔ b = true := by
  cases b <;> decide

def PendingWithdrawal.bytes (row : PendingWithdrawal) : Bytes :=
  toLE 8 row.id.toNat ++ (toLE 8 row.amount.toNat ++ (row.destination.toBytes ++
    (toLE 8 row.unlockAt.toUInt64.toNat ++ [row.status.code])))

def PendingChange.bytes (change : PendingChange) : Bytes :=
  [boolByte change.active] ++ ([change.fields] ++ (toLE 2 change.bigShareBps.toNat ++
    (toLE 8 change.dailyLimit.toNat ++ (toLE 8 change.delaySecs.toUInt64.toNat ++
    (change.guardian.toBytes ++ (change.safeAddress.toBytes ++
    toLE 8 change.effectiveAt.toUInt64.toNat))))))

def TradeBucket.bytes (bucket : TradeBucket) : Bytes :=
  toLE 8 bucket.hour.toUInt64.toNat ++ toLE 8 bucket.amount.toNat

@[simp] theorem PendingWithdrawal.length_bytes (row : PendingWithdrawal) :
    row.bytes.length = 57 := by
  simp [bytes]

@[simp] theorem PendingChange.length_bytes (change : PendingChange) :
    change.bytes.length = 92 := by
  simp [bytes]

@[simp] theorem TradeBucket.length_bytes (bucket : TradeBucket) : bucket.bytes.length = 16 := by
  simp [bytes]

namespace HoldVault

variable (vault : HoldVault)

/-- The fields before the known destinations. -/
def fixed : Bytes :=
  vault.owner.toBytes ++ (vault.guardian.toBytes ++ (vault.safeAddress.toBytes ++
    (vault.mint.toBytes ++ (vault.vaultToken.toBytes ++ (toLE 8 vault.vaultId.toNat ++
    (toLE 8 vault.dailyLimit.toNat ++ (toLE 8 vault.windowSpent.toNat ++
    (toLE 8 vault.windowStart.toUInt64.toNat ++ (toLE 8 vault.delaySecs.toUInt64.toNat ++
    (toLE 8 vault.unfreezeAt.toUInt64.toNat ++ (toLE 8 vault.nextWithdrawalId.toNat ++
    (toLE 2 vault.bigShareBps.toNat ++ ([boolByte vault.frozen] ++ ([vault.knownLen] ++
    ([vault.bump] ++ ([vault.tokenBump] ++ [vault.ledgerBump]))))))))))))))))

/-- The account data of a vault. -/
def data : Bytes :=
  HOLD_VAULT_DISCRIMINATOR ++ (vault.fixed ++ (vault.known.toList.flatMap Pubkey.toBytes ++
    (vault.pending.toList.flatMap PendingWithdrawal.bytes ++ (vault.change.bytes ++
    vault.dailyBuckets.toList.flatMap TradeBucket.bytes))))

/-- The room of an account: its discriminator and the size of a vault. -/
def SPACE : Nat :=
  8 + (5 * 32 + 7 * 8 + 2 + 1 + 4 * 1 + HOLD_KNOWN_CAPACITY * 32 + HOLD_PENDING_CAPACITY * 57 + 92 +
    BUCKET_COUNT * 16)

/-- The account after the instruction has written it.  A writer that runs out of room fails. -/
def store : Option Bytes := if vault.data.length ≤ SPACE then some vault.data else none

@[simp] theorem length_fixed : vault.fixed.length = 223 := by simp [fixed]

theorem length_known : (vault.known.toList.flatMap Pubkey.toBytes).length = 512 := by
  rw [length_flatMap_of_size Pubkey.length_toBytes, Vector.length_toList]
  rfl

theorem length_pending : (vault.pending.toList.flatMap PendingWithdrawal.bytes).length = 456 := by
  rw [length_flatMap_of_size PendingWithdrawal.length_bytes, Vector.length_toList]
  rfl

theorem length_dailyBuckets :
    (vault.dailyBuckets.toList.flatMap TradeBucket.bytes).length = 400 := by
  rw [length_flatMap_of_size TradeBucket.length_bytes, Vector.length_toList]
  rfl

theorem length_data : vault.data.length = 1691 := by
  simp only [data, List.length_append, length_fixed, length_known, length_pending,
    length_dailyBuckets, PendingChange.length_bytes]
  rfl

/-- A vault fills its room exactly. -/
theorem store_eq : vault.store = some vault.data := by
  rw [store, if_pos]
  rw [vault.length_data]
  decide

/-! ## Where the blocks are -/

section Blocks

theorem disc_at : subarray vault.data 0 8 = HOLD_VAULT_DISCRIMINATOR :=
  subarray_append_left rfl

theorem fixed_at : subarray vault.data 8 (8 + 223) = vault.fixed := by
  rw [data, subarray_append_right (by decide)]
  exact subarray_append_left vault.length_fixed

theorem known_at : subarray vault.data 231 (231 + 512) =
    vault.known.toList.flatMap Pubkey.toBytes := by
  have hdisc : HOLD_VAULT_DISCRIMINATOR.length = 8 := rfl
  rw [data, subarray_append_right (by decide), hdisc,
    subarray_append_right (by rw [length_fixed]), length_fixed]
  exact subarray_append_left vault.length_known

theorem pending_at : subarray vault.data 743 (743 + 456) =
    vault.pending.toList.flatMap PendingWithdrawal.bytes := by
  have hdisc : HOLD_VAULT_DISCRIMINATOR.length = 8 := rfl
  rw [data, subarray_append_right (by decide), hdisc,
    subarray_append_right (by rw [length_fixed]; decide), length_fixed,
    subarray_append_right (by rw [length_known]), length_known]
  exact subarray_append_left vault.length_pending

theorem change_at : subarray vault.data 1199 (1199 + 92) = vault.change.bytes := by
  have hdisc : HOLD_VAULT_DISCRIMINATOR.length = 8 := rfl
  rw [data, subarray_append_right (by decide), hdisc,
    subarray_append_right (by rw [length_fixed]; decide), length_fixed,
    subarray_append_right (by rw [length_known]; decide), length_known,
    subarray_append_right (by rw [length_pending]), length_pending]
  exact subarray_append_left vault.change.length_bytes

theorem dailyBuckets_at : subarray vault.data 1291 (1291 + 400) =
    vault.dailyBuckets.toList.flatMap TradeBucket.bytes := by
  have hdisc : HOLD_VAULT_DISCRIMINATOR.length = 8 := rfl
  rw [data, subarray_append_right (by decide), hdisc,
    subarray_append_right (by rw [length_fixed]; decide), length_fixed,
    subarray_append_right (by rw [length_known]; decide), length_known,
    subarray_append_right (by rw [length_pending]; decide), length_pending,
    subarray_append_right (by rw [PendingChange.length_bytes]), PendingChange.length_bytes]
  exact subarray_whole vault.length_dailyBuckets

end Blocks

/-- A field of the first block, at its offset in the account. -/
theorem field_at {part : Bytes} (start n : Nat) (hpart : subarray vault.fixed start (start + n) = part)
    (hstop : start + n ≤ 223) : subarray vault.data (8 + start) (8 + start + n) = part :=
  subarray_of_window start n vault.fixed_at hpart hstop

/-- A field of the waiting rule change. -/
theorem changeField_at {part : Bytes} (start n : Nat)
    (hpart : subarray vault.change.bytes start (start + n) = part) (hstop : start + n ≤ 92) :
    subarray vault.data (1199 + start) (1199 + start + n) = part :=
  subarray_of_window start n vault.change_at hpart hstop

theorem knownKey_at {i : Nat} (hi : i < HOLD_KNOWN_CAPACITY) :
    subarray vault.data (231 + i * 32) (231 + i * 32 + 32) = vault.known[i].toBytes := by
  have hlength : i < vault.known.toList.length := by simpa using hi
  have hkey := subarray_flatMap Pubkey.length_toBytes hlength
  rw [Vector.getElem_toList] at hkey
  have hcapacity : HOLD_KNOWN_CAPACITY = 16 := rfl
  exact subarray_of_window (i * 32) 32 vault.known_at hkey (by omega)

theorem row_at (i : Fin HOLD_PENDING_CAPACITY) :
    subarray vault.data (743 + i * 57) (743 + i * 57 + 57) = (vault.pending.row i).bytes := by
  have hlength : i.val < vault.pending.toList.length := by simp
  have hrow := subarray_flatMap PendingWithdrawal.length_bytes hlength
  rw [Vector.getElem_toList] at hrow
  have hi := i.isLt
  have hcapacity : HOLD_PENDING_CAPACITY = 8 := rfl
  exact subarray_of_window (i * 57) 57 vault.pending_at hrow (by omega)

theorem bucket_at {i : Nat} (hi : i < BUCKET_COUNT) :
    subarray vault.data (1291 + i * 16) (1291 + i * 16 + 16) = vault.dailyBuckets[i].bytes := by
  have hlength : i < vault.dailyBuckets.toList.length := by simpa using hi
  have hbucket := subarray_flatMap TradeBucket.length_bytes hlength
  rw [Vector.getElem_toList] at hbucket
  have hcount : BUCKET_COUNT = 25 := rfl
  exact subarray_of_window (i * 16) 16 vault.dailyBuckets_at hbucket (by omega)

end HoldVault

end Veto

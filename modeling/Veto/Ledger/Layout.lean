import Veto.Foundation.Bytes
import Veto.Mandate.State
import Veto.Trade.State
import Veto.Hold.State

/-!
# The bytes of the ledger accounts

The three ledgers are zero-copy accounts: what an account holds is the `repr(C)`
structure of `state.rs`, `trade_state.rs` or `hold_state.rs` behind eight bytes that name
its type.  Codes are bytes here, as the structures have them.
-/

namespace Veto

open Foundation

def LEDGER_DISCRIMINATOR : Bytes := [43, 41, 21, 213, 180, 176, 95, 32]

def HOLD_LEDGER_DISCRIMINATOR : Bytes := [195, 103, 143, 50, 70, 255, 84, 161]

theorem length_ledgerDiscriminator : LEDGER_DISCRIMINATOR.length = 8 := rfl

theorem length_holdLedgerDiscriminator : HOLD_LEDGER_DISCRIMINATOR.length = 8 := rfl

/-- The address with the given big-endian bytes. -/
def Pubkey.ofBytes (bytes : Bytes) : Pubkey := BitVec.ofNat 256 (ofLE bytes.reverse)

@[simp] theorem Pubkey.length_toBytes (k : Pubkey) : k.toBytes.length = 32 := by
  simp [Pubkey.toBytes]

theorem Pubkey.ofBytes_toBytes (k : Pubkey) : Pubkey.ofBytes k.toBytes = k := by
  have hreverse : k.toBytes.reverse = toLE 32 k.toNat := by
    rw [toLE_eq_map]
    apply List.ext_getElem
    · simp
    · intro i hi _
      have hi' : i < 32 := by simpa using hi
      have hmirror : 31 - (31 - i) = i := by omega
      simp [Pubkey.toBytes, List.getElem_reverse, hmirror]
  rw [Pubkey.ofBytes, hreverse, ofLE_toLE (by simpa using k.isLt)]
  simp

namespace Raw

/-- `zero_copy struct Entry`. -/
structure Entry where
  ts : Int64
  amount : UInt64
  counterparty : Pubkey
  nonce : UInt64
  suggestedOverride : UInt64
  kind : UInt8
  reason : UInt8
  pad : Vector UInt8 6

/-- `zero_copy struct TradeEntry`. -/
structure TradeEntry where
  ts : Int64
  amountIn : UInt64
  amountOut : UInt64
  minOut : UInt64
  counterparty : Pubkey
  nonce : UInt64
  suggestedOverride : UInt64
  kind : UInt8
  reason : UInt8
  pad : Vector UInt8 6

/-- `zero_copy struct HoldEntry`. -/
structure HoldEntry where
  ts : Int64
  amount : UInt64
  destination : Pubkey
  withdrawalId : UInt64
  kind : UInt8
  reason : UInt8
  pad : Vector UInt8 6

def Entry.zero : Entry := ⟨0, 0, 0, 0, 0, 0, 0, Vector.replicate 6 0⟩

def TradeEntry.zero : TradeEntry := ⟨0, 0, 0, 0, 0, 0, 0, 0, 0, Vector.replicate 6 0⟩

def HoldEntry.zero : HoldEntry := ⟨0, 0, 0, 0, 0, 0, Vector.replicate 6 0⟩

def Entry.bytes (e : Entry) : Bytes :=
  reprC [(8, toLE 8 e.ts.toUInt64.toNat), (8, toLE 8 e.amount.toNat),
    (1, e.counterparty.toBytes), (8, toLE 8 e.nonce.toNat),
    (8, toLE 8 e.suggestedOverride.toNat), (1, [e.kind]), (1, [e.reason]), (1, e.pad.toList)]

def TradeEntry.bytes (e : TradeEntry) : Bytes :=
  reprC [(8, toLE 8 e.ts.toUInt64.toNat), (8, toLE 8 e.amountIn.toNat),
    (8, toLE 8 e.amountOut.toNat), (8, toLE 8 e.minOut.toNat), (1, e.counterparty.toBytes),
    (8, toLE 8 e.nonce.toNat), (8, toLE 8 e.suggestedOverride.toNat), (1, [e.kind]),
    (1, [e.reason]), (1, e.pad.toList)]

def HoldEntry.bytes (e : HoldEntry) : Bytes :=
  reprC [(8, toLE 8 e.ts.toUInt64.toNat), (8, toLE 8 e.amount.toNat),
    (1, e.destination.toBytes), (8, toLE 8 e.withdrawalId.toNat), (1, [e.kind]),
    (1, [e.reason]), (1, e.pad.toList)]

/-- A ledger account: whose it is, and its ring of records. -/
structure LedgerOf (ε : Type) where
  key : Pubkey
  bump : UInt8
  pad : UInt8
  ring : Ring ε 32

/-- A ledger as its account is created: zeroed, with its key and bump written. -/
def LedgerOf.fresh {ε : Type} (zero : ε) (key : Pubkey) (bump : UInt8) : LedgerOf ε :=
  ⟨key, bump, 0, Ring.empty zero⟩

def LedgerOf.record {ε : Type} (ledger : LedgerOf ε) (entry : ε) : LedgerOf ε :=
  { ledger with ring := ledger.ring.record entry }

def LedgerOf.bytes {ε : Type} (discriminator : Bytes) (entryBytes : ε → Bytes)
    (ledger : LedgerOf ε) : Bytes :=
  discriminator ++
    reprC [(1, ledger.key.toBytes), (4, toLE 4 ledger.ring.total.toNat),
      (2, toLE 2 ledger.ring.head.toNat), (1, [ledger.bump]), (1, [ledger.pad]),
      (8, ledger.ring.entries.toList.flatMap entryBytes)]

/-- The ledger after a log of record calls. -/
def LedgerOf.recorded {ε : Type} (zero : ε) (key : Pubkey) (bump : UInt8) (log : List ε) :
    LedgerOf ε :=
  log.foldl LedgerOf.record (.fresh zero key bump)

/-- The account data of a `Ledger`. -/
def ledgerData (ledger : LedgerOf Entry) : Bytes := ledger.bytes LEDGER_DISCRIMINATOR Entry.bytes

/-- The account data of a `HoldLedger`. -/
def holdLedgerData (ledger : LedgerOf HoldEntry) : Bytes :=
  ledger.bytes HOLD_LEDGER_DISCRIMINATOR HoldEntry.bytes

end Raw

/-! ## The ledgers of the program -/

def Entry.raw (e : Entry) : Raw.Entry :=
  ⟨e.ts, e.amount, e.counterparty, e.nonce, e.suggestedOverride, e.kind.code, e.reason.code,
    Vector.replicate 6 0⟩

def TradeEntry.raw (e : TradeEntry) : Raw.TradeEntry :=
  ⟨e.ts, e.amountIn, e.amountOut, e.minOut, e.counterparty, e.nonce, e.suggestedOverride,
    e.kind.code, e.reason.code, Vector.replicate 6 0⟩

def HoldEntry.raw (e : HoldEntry) : Raw.HoldEntry :=
  ⟨e.ts, e.amount, e.destination, e.withdrawalId, e.kind.code, e.reason, Vector.replicate 6 0⟩

def Ledger.raw (l : Ledger) : Raw.LedgerOf Raw.Entry := ⟨l.mandate, l.bump, 0, l.ring.map Entry.raw⟩

def TradeLedger.raw (l : TradeLedger) : Raw.LedgerOf Raw.TradeEntry :=
  ⟨l.rule, l.bump, 0, l.ring.map TradeEntry.raw⟩

def HoldLedger.raw (l : HoldLedger) : Raw.LedgerOf Raw.HoldEntry :=
  ⟨l.vault, l.bump, 0, l.ring.map HoldEntry.raw⟩

theorem Ledger.raw_record (l : Ledger) (entry : Entry) :
    (l.record entry).raw = l.raw.record entry.raw := by
  simp only [Ledger.raw, Ledger.record, Raw.LedgerOf.record]
  exact congrArg _ (Ring.map_record Entry.raw l.ring entry)

theorem TradeLedger.raw_record (l : TradeLedger) (entry : TradeEntry) :
    (l.record entry).raw = l.raw.record entry.raw := by
  simp only [TradeLedger.raw, TradeLedger.record, Raw.LedgerOf.record]
  exact congrArg _ (Ring.map_record TradeEntry.raw l.ring entry)

theorem HoldLedger.raw_record (l : HoldLedger) (entry : HoldEntry) :
    (l.record entry).raw = l.raw.record entry.raw := by
  simp only [HoldLedger.raw, HoldLedger.record, Raw.LedgerOf.record]
  exact congrArg _ (Ring.map_record HoldEntry.raw l.ring entry)

/-! ## Where the fields are -/

section Entries

variable {data : Bytes} {off : Nat}

theorem Raw.Entry.bytes_eq (e : Raw.Entry) :
    e.bytes = toLE 8 e.ts.toUInt64.toNat ++ (toLE 8 e.amount.toNat ++
      (e.counterparty.toBytes ++ (toLE 8 e.nonce.toNat ++
      (toLE 8 e.suggestedOverride.toNat ++ ([e.kind] ++ ([e.reason] ++ e.pad.toList)))))) := by
  simp [Raw.Entry.bytes, reprC, fieldsFrom]

theorem Raw.TradeEntry.bytes_eq (e : Raw.TradeEntry) :
    e.bytes = toLE 8 e.ts.toUInt64.toNat ++ (toLE 8 e.amountIn.toNat ++
      (toLE 8 e.amountOut.toNat ++ (toLE 8 e.minOut.toNat ++
      (e.counterparty.toBytes ++ (toLE 8 e.nonce.toNat ++
      (toLE 8 e.suggestedOverride.toNat ++
      ([e.kind] ++ ([e.reason] ++ e.pad.toList)))))))) := by
  simp [Raw.TradeEntry.bytes, reprC, fieldsFrom]

theorem Raw.HoldEntry.bytes_eq (e : Raw.HoldEntry) :
    e.bytes = toLE 8 e.ts.toUInt64.toNat ++ (toLE 8 e.amount.toNat ++
      (e.destination.toBytes ++ (toLE 8 e.withdrawalId.toNat ++
      ([e.kind] ++ ([e.reason] ++ e.pad.toList))))) := by
  simp [Raw.HoldEntry.bytes, reprC, fieldsFrom]

@[simp] theorem Raw.Entry.length_bytes (e : Raw.Entry) : e.bytes.length = 72 := by
  simp [Raw.Entry.bytes_eq]

@[simp] theorem Raw.TradeEntry.length_bytes (e : Raw.TradeEntry) : e.bytes.length = 88 := by
  simp [Raw.TradeEntry.bytes_eq]

@[simp] theorem Raw.HoldEntry.length_bytes (e : Raw.HoldEntry) : e.bytes.length = 64 := by
  simp [Raw.HoldEntry.bytes_eq]

/-- A buffer has the fields of an entry at the offsets of the layout. -/
structure Raw.Entry.At (e : Raw.Entry) (data : Bytes) (off : Nat) : Prop where
  ts : subarray data off (off + 8) = toLE 8 e.ts.toUInt64.toNat
  amount : subarray data (off + 8) (off + 8 + 8) = toLE 8 e.amount.toNat
  counterparty : subarray data (off + 16) (off + 48) = e.counterparty.toBytes
  nonce : subarray data (off + 48) (off + 48 + 8) = toLE 8 e.nonce.toNat
  suggestedOverride :
    subarray data (off + 56) (off + 56 + 8) = toLE 8 e.suggestedOverride.toNat
  kind : subarray data (off + 64) (off + 64 + 1) = [e.kind]
  reason : subarray data (off + 65) (off + 65 + 1) = [e.reason]

structure Raw.TradeEntry.At (e : Raw.TradeEntry) (data : Bytes) (off : Nat) : Prop where
  ts : subarray data off (off + 8) = toLE 8 e.ts.toUInt64.toNat
  amountIn : subarray data (off + 8) (off + 8 + 8) = toLE 8 e.amountIn.toNat
  amountOut : subarray data (off + 16) (off + 16 + 8) = toLE 8 e.amountOut.toNat
  minOut : subarray data (off + 24) (off + 24 + 8) = toLE 8 e.minOut.toNat
  counterparty : subarray data (off + 32) (off + 64) = e.counterparty.toBytes
  nonce : subarray data (off + 64) (off + 64 + 8) = toLE 8 e.nonce.toNat
  suggestedOverride :
    subarray data (off + 72) (off + 72 + 8) = toLE 8 e.suggestedOverride.toNat
  kind : subarray data (off + 80) (off + 80 + 1) = [e.kind]
  reason : subarray data (off + 81) (off + 81 + 1) = [e.reason]

structure Raw.HoldEntry.At (e : Raw.HoldEntry) (data : Bytes) (off : Nat) : Prop where
  ts : subarray data off (off + 8) = toLE 8 e.ts.toUInt64.toNat
  amount : subarray data (off + 8) (off + 8 + 8) = toLE 8 e.amount.toNat
  destination : subarray data (off + 16) (off + 48) = e.destination.toBytes
  withdrawalId : subarray data (off + 48) (off + 48 + 8) = toLE 8 e.withdrawalId.toNat
  kind : subarray data (off + 56) (off + 56 + 1) = [e.kind]
  reason : subarray data (off + 57) (off + 57 + 1) = [e.reason]

/-- A part of an entry, found in the entry's own bytes, is at its offset in the buffer. -/
theorem subarray_of_window {window part : Bytes} {size : Nat} (start n : Nat)
    (h : subarray data off (off + size) = window)
    (hpart : subarray window start (start + n) = part) (hstop : start + n ≤ size) :
    subarray data (off + start) (off + start + n) = part := by
  rw [← hpart, ← h, subarray_subarray (Nat.le_refl _) hstop, Nat.add_assoc]

theorem Raw.Entry.at_of_window {e : Raw.Entry} (h : subarray data off (off + 72) = e.bytes) :
    e.At data off := by
  rw [bytes_eq] at h
  constructor
  · exact subarray_of_window 0 8 h (by simp) (by omega)
  · exact subarray_of_window 8 8 h (by simp) (by omega)
  · exact subarray_of_window 16 32 h (by simp) (by omega)
  · exact subarray_of_window 48 8 h (by simp) (by omega)
  · exact subarray_of_window 56 8 h (by simp) (by omega)
  · exact subarray_of_window 64 1 h (by simp) (by omega)
  · exact subarray_of_window 65 1 h (by simp) (by omega)

theorem Raw.TradeEntry.at_of_window {e : Raw.TradeEntry} (h : subarray data off (off + 88) = e.bytes) :
    e.At data off := by
  rw [bytes_eq] at h
  constructor
  · exact subarray_of_window 0 8 h (by simp) (by omega)
  · exact subarray_of_window 8 8 h (by simp) (by omega)
  · exact subarray_of_window 16 8 h (by simp) (by omega)
  · exact subarray_of_window 24 8 h (by simp) (by omega)
  · exact subarray_of_window 32 32 h (by simp) (by omega)
  · exact subarray_of_window 64 8 h (by simp) (by omega)
  · exact subarray_of_window 72 8 h (by simp) (by omega)
  · exact subarray_of_window 80 1 h (by simp) (by omega)
  · exact subarray_of_window 81 1 h (by simp) (by omega)

theorem Raw.HoldEntry.at_of_window {e : Raw.HoldEntry} (h : subarray data off (off + 64) = e.bytes) :
    e.At data off := by
  rw [bytes_eq] at h
  constructor
  · exact subarray_of_window 0 8 h (by simp) (by omega)
  · exact subarray_of_window 8 8 h (by simp) (by omega)
  · exact subarray_of_window 16 32 h (by simp) (by omega)
  · exact subarray_of_window 48 8 h (by simp) (by omega)
  · exact subarray_of_window 56 1 h (by simp) (by omega)
  · exact subarray_of_window 57 1 h (by simp) (by omega)

end Entries

section Accounts

variable {ε : Type} {discriminator : Bytes} {entryBytes : ε → Bytes} {size : Nat}
  (ledger : Raw.LedgerOf ε)

namespace Raw.LedgerOf

theorem bytes_eq (hsize : ∀ e, (entryBytes e).length = size) :
    ledger.bytes discriminator entryBytes = discriminator ++ (ledger.key.toBytes ++
      (toLE 4 ledger.ring.total.toNat ++ (toLE 2 ledger.ring.head.toNat ++
      ([ledger.bump] ++ ([ledger.pad] ++ ledger.ring.entries.toList.flatMap entryBytes))))) := by
  have hentries : (ledger.ring.entries.toList.flatMap entryBytes).length = 32 * size := by
    simp [length_flatMap_of_size hsize]
  have hfilled : (8 - (40 + 32 * size) % 8) % 8 = 0 := by omega
  simp [bytes, reprC, fieldsFrom, hentries]
  omega

theorem length_bytes (hdisc : discriminator.length = 8)
    (hsize : ∀ e, (entryBytes e).length = size) :
    (ledger.bytes discriminator entryBytes).length = 48 + 32 * size := by
  simp [bytes_eq ledger hsize, hdisc, length_flatMap_of_size hsize]
  omega

theorem take_bytes (hdisc : discriminator.length = 8)
    (hsize : ∀ e, (entryBytes e).length = size) :
    (ledger.bytes discriminator entryBytes).take 8 = discriminator := by
  rw [bytes_eq ledger hsize, List.take_left' hdisc]

theorem key_at (hdisc : discriminator.length = 8)
    (hsize : ∀ e, (entryBytes e).length = size) :
    subarray (ledger.bytes discriminator entryBytes) 8 40 = ledger.key.toBytes := by
  simp [bytes_eq ledger hsize, hdisc]

theorem total_at (hdisc : discriminator.length = 8)
    (hsize : ∀ e, (entryBytes e).length = size) :
    subarray (ledger.bytes discriminator entryBytes) 40 (40 + 4) =
      toLE 4 ledger.ring.total.toNat := by
  simp [bytes_eq ledger hsize, hdisc]

theorem head_at (hdisc : discriminator.length = 8)
    (hsize : ∀ e, (entryBytes e).length = size) :
    subarray (ledger.bytes discriminator entryBytes) 44 (44 + 2) =
      toLE 2 ledger.ring.head.toNat := by
  simp [bytes_eq ledger hsize, hdisc]

theorem bump_at (hdisc : discriminator.length = 8)
    (hsize : ∀ e, (entryBytes e).length = size) :
    subarray (ledger.bytes discriminator entryBytes) 46 (46 + 1) = [ledger.bump] := by
  simp [bytes_eq ledger hsize, hdisc]

theorem entry_at (hdisc : discriminator.length = 8)
    (hsize : ∀ e, (entryBytes e).length = size) {slot : Nat} (hslot : slot < 32) :
    subarray (ledger.bytes discriminator entryBytes) (48 + slot * size)
      (48 + slot * size + size) = entryBytes ledger.ring.entries[slot] := by
  have hlive : slot < ledger.ring.entries.toList.length := by simpa using hslot
  have hentry := subarray_flatMap hsize hlive
  have hwindow : subarray (ledger.bytes discriminator entryBytes) 48 (48 + 32 * size) =
      ledger.ring.entries.toList.flatMap entryBytes := by
    have hall := subarray_whole (length_flatMap_of_size hsize ledger.ring.entries.toList)
    rw [Vector.length_toList] at hall
    have hstop : 48 + 32 * size - 8 - 32 - 4 - 2 = 32 * size + 1 + 1 := by omega
    simp [bytes_eq ledger hsize, hdisc, hstop, hall]
  have hinside : slot * size + size ≤ 32 * size := by
    rw [← Nat.succ_mul]
    exact Nat.mul_le_mul_right size hslot
  rw [subarray_of_window _ _ hwindow hentry hinside]
  simp

end Raw.LedgerOf

end Accounts

end Veto

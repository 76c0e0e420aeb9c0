import Veto.Ledger.Readers

/-!
# The readers agree with the log

Recording a log on a fresh ledger leaves a ring that `Ring.Holds` it, and every reader
finds the fields of an entry where the layout puts them, so a reader that walks the ring
returns the recent part of the log.
-/

namespace Veto

open Foundation

/-! ## One entry -/

section Fields

variable {buf : Bytes} {offset : Nat}

theorem readU64Le_eq {v : UInt64} (h : subarray buf offset (offset + 8) = toLE 8 v.toNat) :
    readU64Le buf offset = .ok v := by
  apply readBigUInt64LE_eq
  rw [h]
  exact subarray_whole (length_toLE 8 _)

theorem readI64Le_eq {v : Int64}
    (h : subarray buf offset (offset + 8) = toLE 8 v.toUInt64.toNat) :
    readI64Le buf offset = .ok v := by
  apply readBigInt64LE_eq
  rw [h]
  exact subarray_whole (length_toLE 8 _)

theorem readU32Le_eq {v : UInt32} (h : subarray buf offset (offset + 4) = toLE 4 v.toNat) :
    readU32Le buf offset = .ok v := by
  apply readUInt32LE_eq
  rw [h]
  exact subarray_whole (length_toLE 4 _)

theorem readU16Le_eq {v : UInt16} (h : subarray buf offset (offset + 2) = toLE 2 v.toNat) :
    readU16Le buf offset = .ok v := by
  apply readUInt16LE_eq
  rw [h]
  exact subarray_whole (length_toLE 2 _)

theorem byteAt_eq {v : UInt8} (h : subarray buf offset (offset + 1) = [v]) :
    byteAt buf offset = v := by
  have hhead : (subarray buf offset (offset + 1))[0]? = some v := by simp [h]
  rw [subarray, List.getElem?_drop, List.getElem?_take_of_lt (by omega), Nat.add_zero] at hhead
  rw [byteAt, List.getD_eq_getElem?_getD, hhead, Option.getD_some]

end Fields

/-- An entry as the indexer shows it. -/
def Indexer.RingEntry.of (e : Raw.Entry) : RingEntry where
  ts := e.ts
  amount := e.amount
  counterparty := e.counterparty.display
  nonce := e.nonce
  suggestedOverride := e.suggestedOverride
  kind := e.kind
  kindName := Indexer.kindName e.kind
  reason := e.reason
  reasonText := Indexer.reasonText e.reason

/-- An entry as the tools and the SDK show it. -/
def LedgerEntry.of (e : Raw.Entry) : LedgerEntry where
  ts := e.ts
  amount := e.amount
  counterparty := e.counterparty
  nonce := e.nonce
  suggestedOverride := e.suggestedOverride
  kind := e.kind
  reason := e.reason

/-- An entry as the watcher shows it: a payment or a refusal, without its counterparty. -/
def Watcher.ChainDecision.of? (e : Raw.Entry) : Option ChainDecision :=
  if e.kind = KIND_PAID ∨ e.kind = KIND_REFUSED then
    some {
      nonce := e.nonce
      decision := if e.kind = KIND_PAID then .paid else .refused
      amount := e.amount
      ts := dateOfSeconds e.ts.toInt
      reason := e.reason.toNat
      suggestedOverride := e.suggestedOverride.toNat
      signature := none }
  else none

def Sdk.TradeLedgerEntry.of (e : Raw.TradeEntry) : TradeLedgerEntry where
  ts := e.ts
  amountIn := e.amountIn
  amountOut := e.amountOut
  minOut := e.minOut
  counterparty := e.counterparty
  nonce := e.nonce
  suggestedOverride := e.suggestedOverride
  kind := e.kind
  reason := e.reason

def Sdk.HoldLedgerEntry.of (e : Raw.HoldEntry) : HoldLedgerEntry where
  ts := e.ts
  amount := e.amount
  destination := e.destination
  withdrawalId := e.withdrawalId
  kind := e.kind
  reason := e.reason

theorem Raw.Entry.at_zero (e : Raw.Entry) : e.At e.bytes 0 :=
  at_of_window (by simpa using subarray_whole e.length_bytes)

theorem Indexer.decodeEntry_eq (e : Raw.Entry) : decodeEntry e.bytes = .ok (.of e) := by
  have hfields := e.at_zero
  have hts := readI64Le_eq hfields.ts
  have hamount := readU64Le_eq hfields.amount
  have hnonce := readU64Le_eq hfields.nonce
  have hoverride := readU64Le_eq hfields.suggestedOverride
  have hkind := byteAt_eq hfields.kind
  have hreason := byteAt_eq hfields.reason
  have hparty := hfields.counterparty
  simp only [Nat.zero_add] at hamount hnonce hoverride hkind hreason hparty
  simp [decodeEntry, hts, hamount, hnonce, hoverride, hkind, hreason, hparty,
    Pubkey.ofBytes_toBytes, RingEntry.of, bind, Except.bind, pure, Except.pure]

theorem Watcher.decodeDecision_eq (e : Raw.Entry) :
    decodeDecision e.bytes = .ok (ChainDecision.of? e) := by
  have hfields := e.at_zero
  have hts := readI64Le_eq hfields.ts
  have hamount := readU64Le_eq hfields.amount
  have hnonce := readU64Le_eq hfields.nonce
  have hoverride := readU64Le_eq hfields.suggestedOverride
  have hkind := byteAt_eq hfields.kind
  have hreason := byteAt_eq hfields.reason
  simp only [Nat.zero_add] at hamount hnonce hoverride hkind hreason
  by_cases hdecided : e.kind = KIND_PAID ∨ e.kind = KIND_REFUSED
  · have hkept : ¬(e.kind ≠ KIND_PAID ∧ e.kind ≠ KIND_REFUSED) := by
      rintro ⟨hpaid, hrefused⟩
      exact hdecided.elim hpaid hrefused
    simp [decodeDecision, ENTRY_SIZE, hts, hamount, hnonce, hoverride, hkind, hreason, hkept,
      hdecided, ChainDecision.of?, bind, Except.bind, pure, Except.pure]
  · have hskipped : e.kind ≠ KIND_PAID ∧ e.kind ≠ KIND_REFUSED := not_or.1 hdecided
    simp [decodeDecision, ENTRY_SIZE, hkind, hskipped, ChainDecision.of?, pure,
      Except.pure]

section Windows

variable {data : Bytes} {offset : Nat}

theorem Tools.decodeEntry_eq {e : Raw.Entry}
    (h : subarray data offset (offset + 72) = e.bytes) :
    decodeEntry data offset = .ok (.of e) := by
  have hfields := Raw.Entry.at_of_window h
  simp [decodeEntry, readBigInt64LE_eq hfields.ts, readBigUInt64LE_eq hfields.amount,
    readBigUInt64LE_eq hfields.nonce, readBigUInt64LE_eq hfields.suggestedOverride,
    readUInt8_eq hfields.kind, readUInt8_eq hfields.reason, hfields.counterparty,
    Pubkey.ofBytes_toBytes, LedgerEntry.of, bind, Except.bind, pure, Except.pure]

/-- A window that is not cut short lies inside the buffer. -/
theorem inside_of_window {window : Bytes} {size : Nat}
    (h : subarray data offset (offset + size) = window) (hsize : window.length = size)
    (hpos : 0 < size) : offset + size ≤ data.length := by
  have hlength := congrArg List.length h
  rw [length_subarray, hsize] at hlength
  omega

theorem Sdk.decodeEntry_eq {e : Raw.Entry}
    (h : subarray data offset (offset + 72) = e.bytes) :
    decodeEntry data offset = .ok (.of e) := by
  have hinside := inside_of_window h e.length_bytes (by omega)
  have htools := Tools.decodeEntry_eq h
  have hneed : need data offset ENTRY_SIZE "ledger entry" = .ok () := by
    simp [need, throwUnless, ENTRY_SIZE, hinside]
  simp only [decodeEntry, hneed]
  exact htools

end Windows

/-! ## The header -/

section Headers

variable {ε : Type} {discriminator : Bytes} {entryBytes : ε → Bytes} {size : Nat}
  (ledger : Raw.LedgerOf ε)

namespace Raw.LedgerOf

theorem read_key (hdisc : discriminator.length = 8)
    (hsize : ∀ e, (entryBytes e).length = size) :
    Pubkey.ofBytes (subarray (ledger.bytes discriminator entryBytes) 8 40) = ledger.key := by
  rw [ledger.key_at hdisc hsize, Pubkey.ofBytes_toBytes]

theorem read_total (hdisc : discriminator.length = 8)
    (hsize : ∀ e, (entryBytes e).length = size) :
    readUInt32LE (ledger.bytes discriminator entryBytes) 40 = .ok ledger.ring.total :=
  readUInt32LE_eq (ledger.total_at hdisc hsize)

theorem read_head (hdisc : discriminator.length = 8)
    (hsize : ∀ e, (entryBytes e).length = size) :
    readUInt16LE (ledger.bytes discriminator entryBytes) 44 = .ok ledger.ring.head :=
  readUInt16LE_eq (ledger.head_at hdisc hsize)

theorem requireDisc_bytes (hdisc : discriminator.length = 8)
    (hsize : ∀ e, (entryBytes e).length = size) (what : String) :
    requireDisc (ledger.bytes discriminator entryBytes) discriminator what = .ok () := by
  have hnamed : subarray (ledger.bytes discriminator entryBytes) 0 discriminator.length =
      discriminator := subarray_append_left rfl
  apply require_true
  rw [hdisc, ledger.length_bytes hdisc hsize, ← hdisc]
  exact ⟨by omega, hnamed⟩

end Raw.LedgerOf

/-! Two readers take the body behind the discriminator first. -/

variable (ledger : Raw.LedgerOf Raw.Entry)

namespace Raw

theorem body_key : Pubkey.ofBytes (subarray ((ledgerData ledger).drop 8) 0 32) = ledger.key := by
  rw [subarray_drop]
  exact ledger.read_key rfl Entry.length_bytes

theorem body_total : readU32Le ((ledgerData ledger).drop 8) 32 = .ok ledger.ring.total := by
  apply readU32Le_eq
  rw [subarray_drop]
  exact ledger.total_at rfl Entry.length_bytes

theorem body_head : readU16Le ((ledgerData ledger).drop 8) 36 = .ok ledger.ring.head := by
  apply readU16Le_eq
  rw [subarray_drop]
  exact ledger.head_at rfl Entry.length_bytes

theorem body_bump : byteAt ((ledgerData ledger).drop 8) 38 = ledger.bump := by
  apply byteAt_eq
  rw [subarray_drop]
  exact ledger.bump_at rfl Entry.length_bytes

theorem body_entry {slot : Nat} (hslot : slot < 32) :
    subarray ((ledgerData ledger).drop 8) (LEDGER_HEADER_SIZE + slot * ENTRY_SIZE)
      (LEDGER_HEADER_SIZE + slot * ENTRY_SIZE + ENTRY_SIZE) =
        (ledger.ring.entries[slot]).bytes := by
  have hentry := ledger.entry_at length_ledgerDiscriminator Entry.length_bytes hslot
  rw [subarray_drop, ← hentry, ledgerData]
  congr 1
  · simp only [LEDGER_HEADER_SIZE, ENTRY_SIZE]
    omega
  · simp only [LEDGER_HEADER_SIZE, ENTRY_SIZE]
    omega

theorem length_ledgerData : (ledgerData ledger).length = 2352 :=
  ledger.length_bytes rfl Entry.length_bytes

theorem take_ledgerData : (ledgerData ledger).take 8 = LEDGER_DISCRIMINATOR :=
  ledger.take_bytes rfl Entry.length_bytes

end Raw

end Headers

/-! ## The whole account -/

section Accounts

variable {ledger : Raw.LedgerOf Raw.Entry} {log : List Raw.Entry}

theorem Indexer.decodeLedgerAccount_eq (h : ledger.ring.Holds log) (address : String) :
    decodeLedgerAccount address (Raw.ledgerData ledger) = .ok {
      address
      mandate := ledger.key.display
      total := ledger.ring.total
      head := ledger.ring.head
      bump := ledger.bump
      entries := (Ring.recent LEDGER_CAPACITY log).map .of } := by
  have hlong : LEDGER_ACCOUNT_SIZE ≤ (Raw.ledgerData ledger).length := by
    rw [Raw.length_ledgerData]
    decide
  have hentries := h.mapM_walk (by decide) (by decide)
    (fun idx => decodeEntry (subarray ((Raw.ledgerData ledger).drop 8)
      (LEDGER_HEADER_SIZE + idx * ENTRY_SIZE)
      (LEDGER_HEADER_SIZE + idx * ENTRY_SIZE + ENTRY_SIZE)))
    fun slot hslot => by rw [Raw.body_entry ledger hslot, decodeEntry_eq]
  simp only [decodeLedgerAccount, throwUnless, require_true hlong,
    require_true (Raw.take_ledgerData ledger), Raw.body_key, Raw.body_total, Raw.body_head,
    Raw.body_bump, ok_bind, LEDGER_CAPACITY, hentries]
  rfl

theorem Watcher.decodeLedgerDecisions_eq (h : ledger.ring.Holds log) (account : String) :
    decodeLedgerDecisions (Raw.ledgerData ledger) account =
      .ok ((Ring.recent LEDGER_CAPACITY log).filterMap ChainDecision.of?) := by
  have hlong : 8 + LEDGER_HEADER_SIZE ≤ (Raw.ledgerData ledger).length := by
    rw [Raw.length_ledgerData]
    decide
  have hslots := h.mapM_walk (by decide) (by decide)
    (fun idx => decodeDecision (subarray ((Raw.ledgerData ledger).drop 8)
      (LEDGER_HEADER_SIZE + idx * ENTRY_SIZE)
      (LEDGER_HEADER_SIZE + idx * ENTRY_SIZE + ENTRY_SIZE)))
    fun slot hslot => by rw [Raw.body_entry ledger hslot, decodeDecision_eq]
  simp only [decodeLedgerDecisions, throwUnless, require_true hlong,
    require_true (Raw.take_ledgerData ledger), Raw.body_total, Raw.body_head, ok_bind,
    LEDGER_CAPACITY, hslots, List.filterMap_map, Function.id_comp]
  rfl

/-- The ledger as it stands, slot by slot. -/
def LedgerAccount.of (ledger : Raw.LedgerOf Raw.Entry) : LedgerAccount where
  mandate := ledger.key
  total := ledger.ring.total
  head := ledger.ring.head
  bump := ledger.bump
  entries := ledger.ring.entries.toList.map .of

end Accounts

/-! ## Every log -/

namespace Raw.LedgerOf

variable {ε : Type} (zero : ε) (key : Pubkey) (bump : UInt8)

end Raw.LedgerOf

end Veto

import Veto.Hold.Known
import Veto.Ledger.Agreement
import Veto.Watcher.HoldScans

/-!
# What a scan reads

The ring of a vault's ledger has the last records of its history.  A scan reads the rows that
wait, the delay as it stands, and these records: `readHoldVault` succeeds on every vault.
-/

namespace Veto

open Foundation

/-! ## The ring -/

/-- The records of a vault, oldest first. -/
def holdLog (opening : HoldOutput) (h : HoldHistory) : List HoldEntry :=
  opening.records ++ (written h).reverse

theorem HoldLedger.holds_recordAll {l : HoldLedger} {log : List HoldEntry} (h : l.ring.Holds log)
    (entries : List HoldEntry) : (l.recordAll entries).ring.Holds (log ++ entries) := by
  unfold recordAll
  induction entries generalizing l log with
  | nil => simpa using h
  | cons entry entries ih =>
      rw [List.append_cons]
      exact ih (h.record (by decide) (by decide) entry)

section Runs

variable {rt : Runtime} {opening : HoldOutput} {s₀ s : HoldState} {h : HoldHistory}

/-- The opening is the first record. -/
theorem Opens.first_record (hopen : Opens rt opening s₀) :
    s₀.ledger.ring.Holds opening.records ∧ ∀ e ∈ opening.records, e.kind = .opened := by
  obtain ⟨now, signers, accts, args, w, hopen⟩ := hopen
  unfold initVault at hopen
  simp only [vacant, HoldState.requireTokenProgram] at hopen
  simp only [↓signer_bind_ok_iff, ↓require_bind_ok_iff, bind_ok_iff] at hopen
  obtain ⟨-, -, -, -, -, -, -, mint, -, -, w', -, _, -, hopen⟩ := hopen
  cases hopen
  constructor
  · exact (Ring.holds_empty HoldEntry.zero).record (by decide) (by decide) _
  · intro e he
    rw [List.mem_singleton] at he
    rw [he]
    rfl

/-- The ring has the last records of the vault. -/
theorem hold_ring_holds (hopen : Opens rt opening s₀) (run : Run (HoldStep rt) s₀ h s) :
    s.ledger.ring.Holds (holdLog opening h) := by
  refine run.carries (P := fun h (s : HoldState) => s.ledger.ring.Holds (holdLog opening h)) ?_ ?_
  · have hfirst := hopen.first_record.1
    unfold holdLog written
    simpa using hfirst
  · intro h s i o s' _ ih hstep
    rw [hstep.stepEffect.ledger_eq]
    have hlog : holdLog opening (⟨s, i, o, s'⟩ :: h) = holdLog opening h ++ o.records := by
      unfold holdLog
      rw [written_cons, List.reverse_append, List.reverse_reverse, List.append_assoc]
    rw [hlog]
    exact HoldLedger.holds_recordAll ih o.records

end Runs

end Veto

namespace Veto.Watcher.Hold

open Foundation

/-! ## The records -/

/-- A record as the watcher reads it. -/
def HoldLedgerEntry.of (e : HoldEntry) : HoldLedgerEntry where
  ts := e.ts.toInt
  amount := e.amount.toNat
  destination := e.destination
  withdrawalId := e.withdrawalId.toNat
  kind := e.kind.code

theorem readEntry_eq {data : Bytes} {off : Nat} {e : HoldEntry}
    (h : subarray data off (off + 64) = e.raw.bytes) : readEntry data off = .ok (.of e) := by
  have hfields := Raw.HoldEntry.at_of_window h
  unfold readEntry
  rw [bufferReads_i64 hfields.ts, ok_bind, bufferReads_u64 hfields.amount, ok_bind,
    bufferReads_u64 hfields.withdrawalId, ok_bind, readUInt8_eq hfields.kind, ok_bind,
    keyAt_eq hfields.destination]
  rfl

/-- The last records, in order. -/
theorem readEntries_eq {ledger : HoldLedger} {log : List HoldEntry} (h : ledger.ring.Holds log) :
    readEntries (Raw.holdLedgerData ledger.raw) =
      .ok ((Ring.recent HOLD_LEDGER_CAPACITY log).map .of) := by
  have hdisc := length_holdLedgerDiscriminator
  have hsize := Raw.HoldEntry.length_bytes
  have hlong : Sdk.LEDGER_LEN ≤ (Raw.holdLedgerData ledger.raw).length := by
    rw [Raw.holdLedgerData, ledger.raw.length_bytes hdisc hsize]
    decide
  have hslots := h.mapM_walk (by decide) (by decide)
    (fun index => readEntry (Raw.holdLedgerData ledger.raw)
      (Sdk.ENTRY_BASE + index * Sdk.HOLD_ENTRY_SIZE))
    fun slot hslot => by
      apply readEntry_eq
      have hentry := ledger.raw.entry_at hdisc hsize hslot
      rw [Raw.holdLedgerData, Sdk.ENTRY_BASE, Sdk.HOLD_ENTRY_SIZE, hentry]
      show (ledger.ring.entries.map HoldEntry.raw)[slot].bytes = _
      rw [Vector.getElem_map]
  have htotal : ledger.raw.ring.total = ledger.ring.total := rfl
  have hhead : ledger.raw.ring.head = ledger.ring.head := rfl
  rw [Raw.holdLedgerData] at hslots hlong ⊢
  unfold readEntries
  rw [ledger.raw.requireDisc_bytes hdisc hsize, ok_bind, throwUnless, require_true hlong, ok_bind,
    ledger.raw.read_total hdisc hsize, ok_bind, ledger.raw.read_head hdisc hsize, ok_bind, htotal,
    hhead]
  exact hslots

/-! ## The snapshot -/

/-- What a scan sees of a vault with this log. -/
def HoldWatch.of (key : Pubkey) (vault : HoldVault) (log : List HoldEntry) : HoldWatch where
  address := key
  delaySecs := vault.delaySecs.toInt
  pending := (vault.pending.toList.filterMap PendingView.of?).map .of
  entries := (Ring.recent HOLD_LEDGER_CAPACITY log).map .of

theorem readHoldVault_eq {ledger : HoldLedger} {log : List HoldEntry} (h : ledger.ring.Holds log)
    (key : Pubkey) (vault : HoldVault) :
    readHoldVault key vault.data (Raw.holdLedgerData ledger.raw) = .ok (.of key vault log) := by
  have hdelay : bufferReads.i64 vault.data (8 + 192) = .ok vault.delaySecs.toInt :=
    bufferReads_i64 (vault.field_at 192 8 (by simp [HoldVault.fixed]) (by omega))
  unfold readHoldVault
  rw [readPending_data, ok_bind, hdelay, ok_bind, readEntries_eq h]
  rfl

/-- A row that waits, as a scan sees it. -/
def HoldPending.ofRow (row : PendingWithdrawal) : HoldPending where
  id := row.id.toNat
  amount := row.amount.toNat
  destination := row.destination
  unlockAt := row.unlockAt.toInt

/-- A scan sees a row exactly where one waits. -/
theorem mem_pending_iff {key : Pubkey} {vault : HoldVault} {log : List HoldEntry}
    {row : HoldPending} : row ∈ (HoldWatch.of key vault log).pending ↔
      ∃ j : Fin HOLD_PENDING_CAPACITY, (vault.pending.row j).status = .pending ∧
        row = .ofRow (vault.pending.row j) := by
  have hlength : vault.pending.toList.length = HOLD_PENDING_CAPACITY := by simp
  have hview : ∀ waiting : PendingWithdrawal, waiting.status = .pending →
      PendingView.of? waiting = some ⟨waiting.id.toNat, waiting.amount.toNat, waiting.destination,
        waiting.unlockAt.toInt, WITHDRAWAL_PENDING⟩ := fun waiting hwaits => if_pos hwaits
  constructor
  · intro hrow
    obtain ⟨view, hmem, rfl⟩ := List.mem_map.mp hrow
    obtain ⟨slot, hslot, hof⟩ := List.mem_filterMap.mp hmem
    obtain ⟨j, hj, rfl⟩ := List.getElem_of_mem hslot
    have hwaits : (vault.pending.row ⟨j, hlength ▸ hj⟩).status = .pending := by
      by_contra hnot
      have hnone : PendingView.of? (vault.pending.row ⟨j, hlength ▸ hj⟩) = none := if_neg hnot
      change PendingView.of? (vault.pending.row ⟨j, hlength ▸ hj⟩) = some view at hof
      rw [hnone] at hof
      cases hof
    refine ⟨⟨j, hlength ▸ hj⟩, hwaits, ?_⟩
    change PendingView.of? (vault.pending.row ⟨j, hlength ▸ hj⟩) = some view at hof
    rw [hview _ hwaits] at hof
    cases hof
    rfl
  · rintro ⟨j, hwaits, rfl⟩
    refine List.mem_map.mpr ⟨_, List.mem_filterMap.mpr ⟨vault.pending.row j, ?_, hview _ hwaits⟩, rfl⟩
    exact List.getElem_mem (by rw [hlength]; exact j.isLt)

end Veto.Watcher.Hold

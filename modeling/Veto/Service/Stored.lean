import Veto.Service.Sources

/-!
# What an ingest stores

A transaction that was ingested has a row for each of its records, under the record's key, and
no other row was added.
-/

namespace Veto.Service

open Foundation

variable {db db' view : Db} {row : Decision} {record : DecodedRecord} {answers : Answers}
  {slotTime : Option Int} {source : Source} {state state' : Ingesting}

/-- The primary key of a location. -/
def Location.key (location : Location) : DecisionKey where
  signature := location.signature
  instructionIndex := location.instructionIndex
  innerIndex := (location.innerInstructionIndex.map fun index : Nat => (index : Int)).getD (-1)

def DecodedRecord.key (record : DecodedRecord) : DecisionKey := record.location.key

/-- The row is one of this record, for some owner and agent and from some source. -/
def Stores (record : DecodedRecord) (d : Decision) : Prop :=
  ∃ blockTime identity source,
    d = record.row ⟨record.key, record.location.slot, blockTime⟩ identity source

theorem Stores.key (h : Stores record row) : row.key = record.key := by
  obtain ⟨blockTime, identity, source, rfl⟩ := h
  rfl

theorem ingestLocation_eq {location : Location} {stored : IngestLocation}
    (h : ingestLocation location slotTime = .ok stored) :
    ∃ seconds, location.timestamp.or slotTime = some seconds ∧
      stored = ⟨location.key, location.slot, seconds * 1000⟩ := by
  obtain ⟨seconds, hseconds, h⟩ := bind_ok_iff.mp h
  exact ⟨seconds, okOr_eq_ok.mp hseconds, (Except.ok.inj h).symm⟩

/-- An insert finds the key, or adds the row. -/
theorem insertDecision_cases (h : Indexed db) {inserted : Bool}
    (hok : insertDecision db row = .ok (inserted, db')) :
    (row.key ∈ db.decisionKeys ∧ inserted = false ∧ db' = db) ∨
      (row.key ∉ db.decisionKeys ∧ inserted = true ∧ Indexed db' ∧
        db'.decisions = db.decisions ++ [row]) := by
  by_cases hmem : row.key ∈ db.decisionKeys
  · rw [insertDecision_duplicate hmem] at hok
    cases hok
    exact .inl ⟨hmem, rfl, rfl⟩
  · have hfresh : ∀ d ∈ db.decisions, d.key ≠ row.key := by
      rw [h.keys] at hmem
      intro d hd heq
      exact hmem (heq ▸ List.mem_map_of_mem hd)
    obtain ⟨db₁, hrun, hindexed, hdecisions⟩ :=
      insertDecision_ok h hfresh (storable_of_insertDecision hmem hok)
    rw [hrun] at hok
    cases hok
    exact .inr ⟨hmem, rfl, hindexed, hdecisions⟩

/-- The keys of what is stored are never taken back. -/
theorem keys_mono (h : Indexed db) (h' : Indexed db') (hrows : db.decisions <+: db'.decisions) :
    ∀ key ∈ db.decisionKeys, key ∈ db'.decisionKeys := by
  rw [h.keys, h'.keys]
  intro key hkey
  exact (hrows.map Decision.key).subset hkey

/-- One record was found, or its row is the new last one. -/
structure Recorded (answers : Answers) (slotTime : Option Int) (source : Source)
    (record : DecodedRecord) (state state' : Ingesting) : Prop where
  indexed : Indexed state'.db
  key : record.key ∈ state'.db.decisionKeys
  reads : state'.reads = state.reads ∨ state'.reads = state'.db
  rows : state'.db = state.db ∨ ∃ location identity,
    ingestLocation record.location slotTime = .ok location ∧
    record.identity state.reads.decisions answers = .ok identity ∧
    record.key ∉ state.db.decisionKeys ∧
    state'.db.decisions = state.db.decisions ++ [record.row location identity source]

theorem ingestRecord_recorded (h : Indexed state.db)
    (hreads : ∀ key ∈ state.reads.decisionKeys, key ∈ state.db.decisionKeys)
    (hok : ingestRecord answers slotTime source state record = .ok state') :
    Recorded answers slotTime source record state state' := by
  obtain ⟨location, hlocation, hok⟩ := bind_ok_iff.mp hok
  obtain ⟨seconds, -, hplace⟩ := ingestLocation_eq hlocation
  have hkey : location.toDecisionKey = record.key := by
    rw [hplace]
    rfl
  rw [hkey] at hok
  by_cases hseen : record.key ∈ state.reads.decisionKeys
  · rw [if_pos hseen] at hok
    cases hok
    exact ⟨h, hreads _ hseen, .inl rfl, .inl rfl⟩
  · rw [if_neg hseen] at hok
    obtain ⟨identity, hidentity, hok⟩ := bind_ok_iff.mp hok
    obtain ⟨⟨inserted, db⟩, hinsert, hok⟩ := bind_ok_iff.mp hok
    cases hok
    have hrow : (record.row location identity source).key = record.key := hkey
    rcases insertDecision_cases h hinsert with ⟨hmem, -, rfl⟩ | ⟨hmem, -, hindexed, hdecisions⟩
    · rw [hrow] at hmem
      exact ⟨h, hmem, .inr rfl, .inl rfl⟩
    · rw [hrow] at hmem
      refine ⟨hindexed, ?_, .inr rfl, .inr ⟨location, identity, hlocation, hidentity, hmem,
        hdecisions⟩⟩
      rw [hindexed.keys, hdecisions, ← hrow]
      exact List.mem_map_of_mem (List.mem_append_right _ (List.mem_singleton_self _))

/-- Rows are only ever added, so what was read earlier is still there. -/
structure Db.Before (view db : Db) : Prop where
  keys : ∀ key ∈ view.decisionKeys, key ∈ db.decisionKeys
  rows : ∀ d ∈ view.decisions, d ∈ db.decisions

theorem Db.Before.refl (db : Db) : db.Before db := ⟨fun _ h => h, fun _ h => h⟩

/-- Records in a row keep what is true of every row, and have all their keys. -/
theorem ingestRecords_keep {records : List DecodedRecord} {Right : Decision → Prop}
    (hright : ∀ record ∈ records, ∀ decisions : List Decision, (∀ d ∈ decisions, Right d) →
      ∀ location identity, ingestLocation record.location slotTime = .ok location →
        record.identity decisions answers = .ok identity →
        Right (record.row location identity source))
    (h : Indexed state.db) (hbefore : state.reads.Before state.db)
    (hrows : ∀ d ∈ state.db.decisions, Right d)
    (hok : records.foldlM (ingestRecord answers slotTime source) state = .ok state') :
    Indexed state'.db ∧ (∀ record ∈ records, record.key ∈ state'.db.decisionKeys) ∧
      (∀ d ∈ state'.db.decisions, Right d) ∧ state.db.decisions <+: state'.db.decisions := by
  induction records generalizing state with
  | nil =>
      cases hok
      exact ⟨h, fun record hrecord => (nomatch hrecord), hrows, List.prefix_rfl⟩
  | cons record records ih =>
      rw [List.foldlM_cons] at hok
      obtain ⟨next, hnext, hrest⟩ := bind_ok_iff.mp hok
      have hrecorded := ingestRecord_recorded h hbefore.keys hnext
      have hgrown : state.db.decisions <+: next.db.decisions := by
        rcases hrecorded.rows with hsame | ⟨location, identity, -, -, -, hadded⟩
        · rw [hsame]
        · rw [hadded]
          exact List.prefix_append _ _
      have hkept := keys_mono h hrecorded.indexed hgrown
      have hnextRows : ∀ d ∈ next.db.decisions, Right d := by
        rcases hrecorded.rows with hsame | ⟨location, identity, hlocation, hidentity, -, hadded⟩
        · rw [hsame]
          exact hrows
        · rw [hadded]
          intro d hd
          rcases List.mem_append.mp hd with hd | hd
          · exact hrows d hd
          · rw [List.mem_singleton.mp hd]
            exact hright record List.mem_cons_self state.reads.decisions
              (fun e he => hrows e (hbefore.rows e he)) location identity hlocation hidentity
      have hnextBefore : next.reads.Before next.db := by
        rcases hrecorded.reads with hsame | hsame
        · rw [hsame]
          exact ⟨fun key hkey => hkept key (hbefore.keys key hkey),
            fun d hd => hgrown.subset (hbefore.rows d hd)⟩
        · rw [hsame]
          exact .refl _
      obtain ⟨hindexed, hkeys, hall, hprefix⟩ := ih
        (fun r hr => hright r (List.mem_cons_of_mem record hr)) hrecorded.indexed hnextBefore
        hnextRows hrest
      refine ⟨hindexed, List.forall_mem_cons.mpr ⟨?_, hkeys⟩, hall, hgrown.trans hprefix⟩
      exact keys_mono hrecorded.indexed hindexed hprefix _ hrecorded.key

variable {bs58 : Text → Option Bytes} {raw : RpcTransaction} {count : Nat}

/-- The records of a transaction. -/
abbrev recordsOf (bs58 : Text → Option Bytes) (raw : RpcTransaction) :
    Except String (List DecodedRecord) :=
  decodeTransaction bs58 raw (String.ofList PROGRAM_ID.chars)

/-- A transaction that was ingested has all its records, and kept what is true of every row. -/
theorem ingestTransaction_keeps {Right : Decision → Prop}
    (hright : ∀ records, recordsOf bs58 raw = .ok records → ∀ time,
      slotTimeOf raw answers = .ok time → ∀ record ∈ records, ∀ decisions : List Decision,
      (∀ d ∈ decisions, Right d) → ∀ location identity,
        ingestLocation record.location time = .ok location →
        record.identity decisions answers = .ok identity →
        Right (record.row location identity source))
    (h : Indexed db) (hbefore : view.Before db) (hrows : ∀ d ∈ db.decisions, Right d)
    (hok : ingestTransaction bs58 raw source answers view db = .ok (count, db')) :
    Indexed db' ∧ (∀ d ∈ db'.decisions, Right d) ∧ db.decisions <+: db'.decisions ∧
      ∃ records, recordsOf bs58 raw = .ok records ∧
        ∀ record ∈ records, record.key ∈ db'.decisionKeys := by
  unfold ingestTransaction at hok
  obtain ⟨-, hok⟩ := require_bind_ok_iff.mp hok
  obtain ⟨records, hrecords, hok⟩ := bind_ok_iff.mp hok
  by_cases hnone : records = []
  · rw [if_pos hnone] at hok
    cases hok
    refine ⟨h, hrows, List.prefix_rfl, records, hrecords, ?_⟩
    rw [hnone]
    exact fun record hrecord => (nomatch hrecord)
  · rw [if_neg hnone] at hok
    obtain ⟨time, htime, hok⟩ := bind_ok_iff.mp hok
    obtain ⟨state, hall, hok⟩ := bind_ok_iff.mp hok
    cases hok
    obtain ⟨hindexed, hkeys, hright, hprefix⟩ := ingestRecords_keep
      (hright records hrecords time htime) h hbefore hrows hall
    exact ⟨hindexed, hright, hprefix, records, hrecords, hkeys⟩

end Veto.Service

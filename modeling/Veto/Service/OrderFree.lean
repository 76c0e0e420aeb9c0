import Veto.Service.Attributed

/-!
# The order of ingestion

Transactions are ingested in any order and any number of times, by the webhook and by the
backfill.  Where no address changes hands the tables depend only on which of them were.
-/

namespace Veto.Service

open Foundation

variable {rt : Runtime} {chain : History rt} {bs58 : Text → Option Bytes} {tx : OnChain}
  {db db' : Db} {decisions decisions' : List Decision} {key : StatsKey} {d : Decision}

/-! ## Statistics up to order, source and commitment -/

section Content

theorem weight_content : weight (decisions.map Decision.content) d.content = weight decisions d := by
  have hpaid : PaidInside (decisions.map Decision.content) d.content ↔ PaidInside decisions d := by
    unfold PaidInside
    rw [List.forall_mem_map]
    rfl
  have houtside : AskedOutside (decisions.map Decision.content) d.content ↔
      AskedOutside decisions d := by
    unfold AskedOutside
    rw [List.forall_mem_map]
    rfl
  funext c
  cases c with
  | requests => exact congrArg₂ (· + ·) (if_congr hpaid rfl rfl) (if_congr houtside rfl rfl)
  | paid => exact if_congr hpaid rfl rfl
  | outside => exact if_congr houtside rfl rfl
  | allowances => rfl
  | declines => rfl

/-- The same rows, in some order, from some sources. -/
def SameRows (decisions decisions' : List Decision) : Prop :=
  (decisions.map Decision.content).Perm (decisions'.map Decision.content)

theorem SameRows.counts (h : SameRows decisions decisions') (c : Counter) :
    ((decisions.filter key.holds).map fun d => weight decisions d c).sum =
      ((decisions'.filter key.holds).map fun d => weight decisions' d c).sum := by
  have hcontent : ∀ rows : List Decision,
      (rows.filter key.holds).map (fun d => weight rows d c) =
        ((rows.map Decision.content).filter key.holds).map
          fun d => weight (rows.map Decision.content) d c := by
    intro rows
    rw [List.filter_map, List.map_map]
    have hholds : key.holds ∘ Decision.content = key.holds := by
      funext d
      cases key <;> rfl
    rw [hholds]
    exact List.map_congr_left fun d _ => congrFun weight_content.symm c
  have hweight : ∀ d, weight (decisions.map Decision.content) d c =
      weight (decisions'.map Decision.content) d c := fun d =>
    congrFun (weight_congr fun s _ _ => h.mem_iff) c
  rw [hcontent decisions, hcontent decisions']
  simp only [hweight]
  exact ((h.filter _).map _).sum_eq

theorem SameRows.extrema (h : SameRows decisions decisions') :
    extremaOf decisions key = extremaOf decisions' key := by
  have hcontent : ∀ (rows : List Decision) (keep : Decision → Bool) (own : Decision → Int),
      keep ∘ Decision.content = keep → own ∘ Decision.content = own →
      (rows.filter keep).map own = ((rows.map Decision.content).filter keep).map own := by
    intro rows keep own hkeep hown
    rw [List.filter_map, List.map_map, hkeep, hown]
  have hperm : ∀ (keep : Decision → Bool) (own : Decision → Int),
      keep ∘ Decision.content = keep → own ∘ Decision.content = own →
      ((decisions.filter keep).map own).Perm ((decisions'.filter keep).map own) := by
    intro keep own hkeep hown
    rw [hcontent decisions keep own hkeep hown, hcontent decisions' keep own hkeep hown]
    exact (h.filter keep).map own
  have hopen := min?_of_perm (hperm (fun d => key.holds d ∧ d.kind = 0 ∧ 0 < d.blockTime)
    (·.blockTime) (by funext d; cases key <;> rfl) rfl)
  have hfirst := min?_of_perm (hperm (fun d => key.holds d ∧ 0 < d.blockTime) (·.blockTime)
    (by funext d; cases key <;> rfl) rfl)
  have hlast := max?_of_perm (hperm (fun d => key.holds d) (·.blockTime)
    (by funext d; cases key <;> rfl) rfl)
  have hslot := max?_of_perm (hperm (fun d => key.holds d) (·.slot)
    (by funext d; cases key <;> rfl) rfl)
  unfold extremaOf
  congr 1

end Content

/-! ## Whose statistics there are -/

/-- A row of statistics is there for some decision. -/
def Owned (db : Db) : Prop := ∀ key, (db.stats key).isSome → ∃ d ∈ db.decisions, key.holds d = true

/-- The decisions are the same, and new statistics are of these rows. -/
structure Counted (db : Db) (rows : List Decision) (db' : Db) : Prop where
  decisions : db'.decisions = db.decisions
  stats : ∀ key, (db'.stats key).isSome → (db.stats key).isSome ∨ ∃ d ∈ rows, key.holds d = true

theorem addCounts_eq {counts : Counts} (h : addCounts db key counts = .ok db') :
    db' = db.withCounts key counts := by
  obtain ⟨-, h⟩ := require_bind_ok_iff.mp h
  exact (Except.ok.inj h).symm

theorem recomputeRow_counted {row : Decision} {counts : Counts}
    (h : recomputeRow row.rule db row counts = .ok db') : Counted db [row] db' := by
  obtain ⟨after, hafter, h⟩ := bind_ok_iff.mp h
  cases h
  obtain ⟨middle, hrule, hagent⟩ := bind_ok_iff.mp hafter
  obtain rfl := addCounts_eq hrule
  obtain rfl := addCounts_eq hagent
  refine ⟨rfl, ?_⟩
  intro key hkey
  rcases Db.isSome_withCounts.mp hkey with hkey | rfl
  · rcases Db.isSome_withCounts.mp hkey with hkey | rfl
    · exact .inl hkey
    · exact .inr ⟨row, List.mem_singleton_self row, by simp [StatsKey.holds]⟩
  · exact .inr ⟨row, List.mem_singleton_self row, by simp [StatsKey.holds]⟩

theorem recomputeRows_counted {rows : List (Decision × Counts)} {rule : String}
    (hrule : ∀ row ∈ rows, row.1.rule = rule)
    (h : rows.foldlM (fun db row => recomputeRow rule db row.1 row.2) db = .ok db') :
    Counted db (rows.map Prod.fst) db' := by
  induction rows generalizing db with
  | nil =>
      cases h
      exact ⟨rfl, fun key hkey => .inl hkey⟩
  | cons row rows ih =>
      rw [List.foldlM_cons] at h
      obtain ⟨next, hnext, hrest⟩ := bind_ok_iff.mp h
      rw [← hrule row List.mem_cons_self] at hnext
      have hfirst := recomputeRow_counted hnext
      have hlater := ih (fun r hr => hrule r (List.mem_cons_of_mem row hr)) hrest
      refine ⟨hlater.decisions.trans hfirst.decisions, ?_⟩
      intro key hkey
      rcases hlater.stats key hkey with hkey | ⟨d, hd, hholds⟩
      · rcases hfirst.stats key hkey with hkey | ⟨d, hd, hholds⟩
        · exact .inl hkey
        · rw [List.mem_singleton.mp hd] at hholds
          exact .inr ⟨row.1, List.mem_cons_self, hholds⟩
      · exact .inr ⟨d, List.mem_cons_of_mem _ hd, hholds⟩

theorem recomputeNonce_counted {rule : String} {nonce : Int}
    (h : recomputeNonce db rule nonce = .ok db') :
    Counted db (db.decisions.filter fun d => d.rule = rule ∧ d.nonce = nonce) db' := by
  unfold recomputeNonce at h
  have hrule : ∀ row ∈ (db.decisions.filter fun d => d.rule = rule ∧ d.nonce = nonce).map fun d =>
      (d, contribution db.decisions d), row.1.rule = rule := by
    intro row hrow
    obtain ⟨d, hd, rfl⟩ := List.mem_map.mp hrow
    exact (of_decide_eq_true (List.mem_filter.mp hd).2).1
  have hcounted := recomputeRows_counted hrule h
  rw [List.map_map] at hcounted
  have hrows : Prod.fst ∘ (fun d => (d, contribution db.decisions d)) = id := rfl
  rwa [hrows, List.map_id] at hcounted

theorem Counted.owned {rows : List Decision} (h : Counted db rows db') (howned : Owned db)
    (hrows : ∀ d ∈ rows, d ∈ db.decisions) : Owned db' := by
  intro key hkey
  rw [h.decisions]
  rcases h.stats key hkey with hkey | ⟨d, hd, hholds⟩
  · exact howned key hkey
  · exact ⟨d, hrows d hd, hholds⟩

theorem bumpExtrema_owned {row : Decision} (h : Owned db) : Owned (bumpExtrema db key row) := by
  unfold bumpExtrema
  cases hstats : db.stats key with
  | none => exact h
  | some stats =>
      intro k hk
      by_cases hsame : k = key
      · apply h
        rw [hsame, hstats]
        rfl
      · dsimp only at hk
        rw [Function.update_of_ne hsame] at hk
        exact h k hk

theorem insertDecision_owned {row : Decision} {inserted : Bool} (howned : Owned db)
    (h : insertDecision db row = .ok (inserted, db')) : Owned db' := by
  unfold insertDecision at h
  by_cases hmem : row.key ∈ db.decisionKeys
  · rw [if_pos hmem] at h
    cases h
    exact howned
  · rw [if_neg hmem] at h
    obtain ⟨-, h⟩ := require_bind_ok_iff.mp h
    obtain ⟨-, h⟩ := require_bind_ok_iff.mp h
    obtain ⟨-, h⟩ := require_bind_ok_iff.mp h
    obtain ⟨-, h⟩ := require_bind_ok_iff.mp h
    obtain ⟨counted, hcounted, h⟩ := bind_ok_iff.mp h
    cases h
    have hadded : Owned { db with
        decisionKeys := db.decisionKeys ++ [row.key], decisions := db.decisions ++ [row] } := by
      intro key hkey
      obtain ⟨d, hd, hholds⟩ := howned key hkey
      exact ⟨d, List.mem_append_left _ hd, hholds⟩
    have howned := (recomputeNonce_counted hcounted).owned hadded
      fun d hd => List.mem_of_mem_filter hd
    exact bumpExtrema_owned (bumpExtrema_owned howned)

theorem ingestTransaction_owned {raw : RpcTransaction} {source : Source} {answers : Answers}
    {view : Db} {count : Nat} (howned : Owned db)
    (h : ingestTransaction bs58 raw source answers view db = .ok (count, db')) : Owned db' := by
  obtain ⟨-, h⟩ := require_bind_ok_iff.mp h
  obtain ⟨records, -, h⟩ := bind_ok_iff.mp h
  by_cases hnone : records = []
  · rw [if_pos hnone] at h
    cases h
    exact howned
  · rw [if_neg hnone] at h
    obtain ⟨time, -, h⟩ := bind_ok_iff.mp h
    obtain ⟨state, hall, h⟩ := bind_ok_iff.mp h
    cases h
    have hrecords : ∀ (records : List DecodedRecord) (state state' : Ingesting), Owned state.db →
        records.foldlM (ingestRecord answers time source) state = .ok state' →
        Owned state'.db := by
      intro records
      induction records with
      | nil =>
          intro state state' howned hfold
          cases hfold
          exact howned
      | cons record records ih =>
          intro state state' howned hfold
          rw [List.foldlM_cons] at hfold
          obtain ⟨next, hnext, hrest⟩ := bind_ok_iff.mp hfold
          refine ih next state' ?_ hrest
          obtain ⟨location, -, hnext⟩ := bind_ok_iff.mp hnext
          by_cases hseen : location.toDecisionKey ∈ state.reads.decisionKeys
          · rw [if_pos hseen] at hnext
            cases hnext
            exact howned
          · rw [if_neg hseen] at hnext
            obtain ⟨identity, -, hnext⟩ := bind_ok_iff.mp hnext
            obtain ⟨⟨inserted, db⟩, hinsert, hnext⟩ := bind_ok_iff.mp hnext
            cases hnext
            exact insertDecision_owned howned hinsert
    exact hrecords records ⟨view, db, 0⟩ state howned hall

/-! ## Runs -/

/-- A delivery of the webhook, or one item of a backfill. -/
structure Ingest where
  tx : OnChain
  source : Source

/-- One ingest, of what a node has, with true answers.  One that fails leaves no trace. -/
inductive IngestStep (bs58 : Text → Option Bytes) (chain : History rt) :
    Db → Ingest → Bool → Db → Prop
  | ingested {db db' view : Db} {i : Ingest} {raw : RpcTransaction} {answers : Answers}
      {count : Nat} (listed : i.tx ∈ chain.transactions)
      (shown : i.tx.Shown bs58 chain.slotTime raw) (truthful : answers.Truthful chain)
      (before : view.Before db)
      (ok : ingestTransaction bs58 raw i.source answers view db = .ok (count, db')) :
      IngestStep bs58 chain db i true db'
  | failed {db : Db} {i : Ingest} : IngestStep bs58 chain db i false db

abbrev Ingests := List (Transition Db Ingest Bool)

/-- The transaction was ingested at least once. -/
def Ingested (h : Ingests) (tx : OnChain) : Prop :=
  ∃ T ∈ h, T.input.tx = tx ∧ T.output = true

/-- The rows are those of the transactions that were ingested. -/
structure IngestInv (chain : History rt) (h : Ingests) (db : Db) : Prop where
  indexed : Indexed db
  owned : Owned db
  rows : ∀ d ∈ db.decisions, chain.Row (Ingested h) d
  keys : ∀ tx ∈ chain.transactions, Ingested h tx → ∀ p ∈ tx.placed,
    p.1.instr.OfMandate = true → tx.keyAt p ∈ db.decisionKeys

theorem ingestInv_start : IngestInv chain [] .empty where
  indexed := indexed_empty
  owned _ hkey := nomatch hkey
  rows _ hd := nomatch hd
  keys _ _ hingested := nomatch hingested

variable {h h' : Ingests}

theorem History.Row.mono {these those : OnChain → Prop} (hrow : chain.Row these d)
    (hle : ∀ tx, these tx → those tx) : chain.Row those d := by
  obtain ⟨tx, htx, hthese, hplaced⟩ := hrow
  exact ⟨tx, htx, hle tx hthese, hplaced⟩

theorem ingested_cons {T : Transition Db Ingest Bool} :
    Ingested (T :: h) tx ↔ (T.input.tx = tx ∧ T.output = true) ∨ Ingested h tx := by
  unfold Ingested
  rw [List.exists_mem_cons_iff]

theorem IngestInv.step {i : Ingest} {done : Bool} (hinv : IngestInv chain h db)
    (hstep : IngestStep bs58 chain db i done db') : IngestInv chain (⟨db, i, done, db'⟩ :: h) db' := by
  have hmono : ∀ tx, Ingested h tx → Ingested (⟨db, i, done, db'⟩ :: h) tx :=
    fun tx htx => ingested_cons.mpr (.inr htx)
  cases hstep with
  | failed =>
      refine ⟨hinv.indexed, hinv.owned, fun d hd => (hinv.rows d hd).mono hmono, ?_⟩
      intro tx htx hingested
      rcases ingested_cons.mp hingested with ⟨-, hdone⟩ | hingested
      · cases hdone
      · exact hinv.keys tx htx hingested
  | @ingested _ view _ raw answers count listed shown truthful before ok =>
      obtain ⟨hindexed, hrows, hprefix, records, hrecords, hkeys⟩ : Indexed db' ∧
          (∀ d ∈ db'.decisions, chain.Row (Ingested (⟨db, i, true, db'⟩ :: h)) d) ∧
          db.decisions <+: db'.decisions ∧ ∃ records, recordsOf bs58 raw = .ok records ∧
            ∀ record ∈ records, record.key ∈ db'.decisionKeys := by
        refine ingestTransaction_keeps ?_ hinv.indexed before
          (fun d hd => (hinv.rows d hd).mono hmono) ok
        intro records hrecords time htime record hrecord decisions hrows location identity
          hlocation hidentity
        obtain ⟨p, hp, hof, hrow⟩ := rowOf_inserted truthful listed shown hrecords htime
          hrecord hrows hlocation hidentity i.source
        exact ⟨i.tx, listed, ingested_cons.mpr (.inl ⟨rfl, rfl⟩), p, hp, hof, hrow⟩
      refine ⟨hindexed, ingestTransaction_owned hinv.owned ok, hrows, ?_⟩
      intro tx htx hingested p hp hof
      rcases ingested_cons.mp hingested with ⟨rfl, -⟩ | hingested
      · have hmem : p ∈ i.tx.placed.filter fun p => p.1.instr.OfMandate :=
          List.mem_filter.mpr ⟨hp, hof⟩
        obtain ⟨record, hrecord, hfrom⟩ :=
          (mem_of_forall₂ (shown.decoded listed hrecords)).1 p hmem
        obtain ⟨key, owner, agent, -, hunder⟩ := under_of_placed listed hp hof
        have hplace := (record_mandate (runs_of_placed listed hp) hunder hfrom).1
        have hkey := hkeys record hrecord
        unfold DecodedRecord.key at hkey
        rw [hplace] at hkey
        exact hkey
      · exact keys_mono hinv.indexed hindexed hprefix _ (hinv.keys tx htx hingested p hp hof)

theorem ingestInv_run (run : Run (IngestStep bs58 chain) .empty h db) : IngestInv chain h db :=
  run.carries (P := IngestInv chain) ingestInv_start
    fun _ _ _ _ _ _ hinv hstep => hinv.step hstep

/-! ## What the tables say -/

/-- A row that is there in both has the same content in both. -/
theorem IngestInv.content_mem (hinv : IngestInv chain h db) (hinv' : IngestInv chain h' db')
    (hsteady : chain.Steady) (hsame : ∀ tx ∈ chain.transactions, Ingested h tx → Ingested h' tx)
    (hd : d ∈ db.decisions) : d.content ∈ db'.decisions.map Decision.content := by
  obtain ⟨tx, htx, hingested, p, hp, hof, hrow⟩ := hinv.rows d hd
  have hkey := hinv'.keys tx htx (hsame tx htx hingested) p hp hof
  rw [hinv'.indexed.keys] at hkey
  obtain ⟨d', hd', hkey'⟩ := List.mem_map.mp hkey
  obtain ⟨tx', htx', -, p', hp', hof', hrow'⟩ := hinv'.rows d' hd'
  obtain ⟨key', owner', agent', -, hunder'⟩ := under_of_placed htx' hp' hof'
  have hsameKey : tx.keyAt p = tx'.keyAt p' := by
    rw [← hrow'.key (runs_of_placed htx' hp') hunder', ← hkey']
  obtain ⟨rfl, rfl⟩ := keyAt_inj htx htx' hp hp' hsameKey
  rw [hrow.content_eq hrow' hsteady htx hp hof]
  exact List.mem_map_of_mem hd'

theorem content_nodup (h : Indexed db) : (db.decisions.map Decision.content).Nodup := by
  have hkeys : (db.decisions.map Decision.content).map Decision.key = db.decisions.map Decision.key := by
    rw [List.map_map]
    rfl
  apply List.Nodup.of_map Decision.key
  rw [hkeys]
  exact h.tallied.nodup

theorem IngestInv.sameRows (hinv : IngestInv chain h db) (hinv' : IngestInv chain h' db')
    (hsteady : chain.Steady) (hsame : ∀ tx ∈ chain.transactions, Ingested h tx ↔ Ingested h' tx) :
    SameRows db.decisions db'.decisions := by
  unfold SameRows
  rw [List.perm_ext_iff_of_nodup (content_nodup hinv.indexed) (content_nodup hinv'.indexed)]
  intro content
  constructor
  · intro hcontent
    obtain ⟨d, hd, rfl⟩ := List.mem_map.mp hcontent
    exact hinv.content_mem hinv' hsteady (fun tx htx => (hsame tx htx).mp) hd
  · intro hcontent
    obtain ⟨d, hd, rfl⟩ := List.mem_map.mp hcontent
    exact hinv'.content_mem hinv hsteady (fun tx htx => (hsame tx htx).mpr) hd

theorem isSome_stats (h : Indexed db) (howned : Owned db) :
    (db.stats key).isSome = true ↔ ∃ d ∈ db.decisions.map Decision.content, key.holds d = true := by
  have hholds : ∀ d : Decision, key.holds d.content = key.holds d := by
    intro d
    cases key <;> rfl
  simp only [List.mem_map, exists_exists_and_eq_and, hholds]
  exact ⟨howned key, fun ⟨d, hd, hkey⟩ => h.present d hd key hkey⟩

/-- The same rows have the same statistics. -/
theorem IngestInv.stats_eq (hinv : IngestInv chain h db) (hinv' : IngestInv chain h' db')
    (hrows : SameRows db.decisions db'.decisions) : db.stats = db'.stats := by
  funext key
  have hsome : (db.stats key).isSome = (db'.stats key).isSome := by
    rw [Bool.eq_iff_iff, isSome_stats hinv.indexed hinv.owned,
      isSome_stats hinv'.indexed hinv'.owned]
    simp only [hrows.mem_iff]
  have hcounts : db.counts key = db'.counts key := by
    funext c
    rw [hinv.indexed.recomputed.counts, hinv'.indexed.recomputed.counts]
    exact hrows.counts c
  have hextrema : db.extrema key = db'.extrema key := by
    rw [hinv.indexed.extrema, hinv'.indexed.extrema]
    exact hrows.extrema
  unfold Db.counts at hcounts
  unfold Db.extrema at hextrema
  cases hstats : db.stats key with
  | none =>
      rw [hstats] at hsome
      exact (Option.isNone_iff_eq_none.mp (by simpa using hsome)).symm
  | some stats =>
      rw [hstats] at hsome hcounts hextrema
      obtain ⟨stats', hstats'⟩ := Option.isSome_iff_exists.mp hsome.symm
      rw [hstats'] at hcounts hextrema ⊢
      obtain ⟨counts, extrema⟩ := stats
      obtain ⟨counts', extrema'⟩ := stats'
      obtain rfl : counts = counts' := hcounts
      obtain rfl : extrema = extrema' := hextrema
      rfl

/-- The row belongs to an instruction of the history, and if that is a charge the row has the
agent who signed it. -/
def History.Attributed (chain : History rt) (d : Decision) : Prop :=
  ∃ tx ∈ chain.transactions, ∃ p ∈ tx.placed, d.key = tx.keyAt p ∧
    ∀ mandate accts amount nonce, p.1.instr = .charge mandate accts amount nonce →
      d.agent = accts.agent.display

/-- Where no address is opened again for another owner or agent, every charge has the agent who
signed it, and the tables depend only on which transactions were ingested. -/
theorem ingests_orderFree (hsteady : chain.Steady)
    (run : Run (IngestStep bs58 chain) .empty h db) :
    (∀ d ∈ db.decisions, chain.Attributed d) ∧
    ∀ h' db', Run (IngestStep bs58 chain) .empty h' db' →
      (∀ tx ∈ chain.transactions, Ingested h tx ↔ Ingested h' tx) →
      SameRows db.decisions db'.decisions ∧ db.stats = db'.stats := by
  have hinv := ingestInv_run run
  refine ⟨?_, ?_⟩
  · intro d hd
    obtain ⟨tx, htx, -, p, hp, hof, hrow⟩ := hinv.rows d hd
    obtain ⟨key, owner, agent, -, hunder⟩ := under_of_placed htx hp hof
    refine ⟨tx, htx, p, hp, hrow.key (runs_of_placed htx hp) hunder, ?_⟩
    intro mandate accts amount nonce hcharge
    exact hrow.agent_eq hsteady htx hp hcharge
  · intro h' db' run' hsame
    have hinv' := ingestInv_run run'
    have hrows := hinv.sameRows hinv' hsteady hsame
    exact ⟨hrows, hinv.stats_eq hinv' hrows⟩

/-! ### An address that is opened again for another agent -/

section Sample

def tenureAccounts : OpenMandate :=
  { owner := 1, mandate := 100, ledger := 101, source := 10, mint := 3, tokenProgram := splTokenId }

def tenureArgs (agent : Pubkey) : OpenMandateArgs :=
  { mandateId := 7, agent := agent, merchant := 4, cap := 100, perTxMax := 40, expiresAt := 1000,
    purpose := "rent" }

def tenureOwner : OwnerAction :=
  { owner := 1, ledger := 101, source := 10, tokenProgram := splTokenId }

def tenureEnd : MandateResult :=
  revokeMandate sampleRuntime 20 [1] tenureOwner (okValue sampleOpen sampleOpen_ok).2

theorem tenureEnd_ok : tenureEnd.toBool = true := rfl

def tenureClosing : Except ProgramError Closing :=
  closeMandate sampleRuntime [1] { owner := 1, ledger := 101 } (okValue tenureEnd tenureEnd_ok).2

theorem tenureClosing_ok : tenureClosing.toBool = true := rfl

def secondOpen : MandateResult :=
  openMandate sampleRuntime 30 [1] tenureAccounts (tenureArgs 5)
    (okValue tenureEnd tenureEnd_ok).2.world

theorem secondOpen_ok : secondOpen.toBool = true := rfl

def secondCharge : MandateResult :=
  charge sampleRuntime 40 [5] { chargeAccounts with agent := 5 } 30 1
    (okValue secondOpen secondOpen_ok).2

theorem secondCharge_ok : secondCharge.toBool = true := rfl

def callOf (instr : VetoInstr) (events : List MandateEvent) : VetoCall :=
  ⟨instr, [], [], events.map .mandate⟩

def openA : VetoCall :=
  callOf (.openMandate tenureAccounts (tenureArgs 2)) (okValue sampleOpen sampleOpen_ok).1.events

def endA : VetoCall :=
  callOf (.revokeMandate 100 tenureOwner) (okValue tenureEnd tenureEnd_ok).1.events

def closeA : VetoCall := callOf (.closeMandate 100 { owner := 1, ledger := 101 }) []

def openB : VetoCall :=
  callOf (.openMandate tenureAccounts (tenureArgs 5)) (okValue secondOpen secondOpen_ok).1.events

def chargeB : VetoCall :=
  callOf (.charge 100 { chargeAccounts with agent := 5 } 30 1)
    (okValue secondCharge secondCharge_ok).1.events

/-! The history is built call by call, one in each transaction. -/

def Leads (calls : List VetoCall) (m : Mandates) : Prop :=
  ∃ steps, Run (MandatesStep sampleRuntime) (fun _ => none) steps m ∧
    (steps.map Transition.input).reverse = calls

theorem Leads.next {calls : List VetoCall} {m m' : Mandates} (h : Leads calls m)
    (call : VetoCall) (hstep : MandatesStep sampleRuntime m call () m') :
    Leads (calls ++ [call]) m' := by
  obtain ⟨steps, run, hcalls⟩ := h
  refine ⟨_, run.next hstep, ?_⟩
  rw [List.map_cons, List.reverse_cons, hcalls]

def onChain (signature : String) (call : VetoCall) : OnChain :=
  { signature, slot := 5, trace := some (oneCall call) }

theorem onChain_calls (signature : String) (call : VetoCall) :
    (onChain signature call).calls = [call] := by
  unfold onChain OnChain.calls TxTrace.vetoCalls oneCall
  rw [Option.elim_some, CallTrace.calls, emitLines_calls]
  rfl

theorem onChain_placed (signature : String) (call : VetoCall) :
    (onChain signature call).placed = [(call, 0, none)] := by
  unfold onChain OnChain.placed TxTrace.placedVeto TxTrace.placed oneCall
  simp [CallTrace.topCalls, emitLines_calls, Invoked.vetoCall]

theorem exists_history (calls : List (String × VetoCall)) {m : Mandates}
    (h : Leads (calls.map Prod.snd) m) (hdistinct : (calls.map Prod.fst).Nodup) :
    ∃ chain : History sampleRuntime, chain.slotTime = (fun _ => some 20) ∧
      chain.transactions = calls.map fun c => onChain c.1 c.2 := by
  obtain ⟨steps, run, hcalls⟩ := h
  have hruns : ∀ call ∈ calls.map Prod.snd, call.instr.Runs call.events := by
    rw [← hcalls]
    intro call hcall
    obtain ⟨T, hT, rfl⟩ := List.mem_map.mp (List.mem_reverse.mp hcall)
    obtain ⟨_, _, _, _, hstep, _⟩ := run.of_mem hT
    exact hstep.runs
  refine ⟨{ transactions := calls.map fun c => onChain c.1 c.2, slotTime := fun _ => some 20,
            mandates := m, steps := steps, run := run, calls := ?_, wellRun := ?_,
            distinct := ?_ }, rfl, rfl⟩
  · rw [hcalls, List.flatMap_map]
    simp only [onChain_calls]
    exact List.map_eq_flatMap
  · intro tx htx t ht
    obtain ⟨c, hc, rfl⟩ := List.mem_map.mp htx
    obtain rfl := Option.some.inj ht
    exact wellRun_oneCall (hruns c.2 (List.mem_map_of_mem hc))
  · rw [List.map_map]
    exact hdistinct

theorem leads_open : Leads [openA] (Function.update (fun _ => none) 100
    (some ((okValue sampleOpen sampleOpen_ok).2.mandate,
      (okValue sampleOpen sampleOpen_ok).2.ledger))) :=
  ⟨_, Run.start.next (.opened rfl rfl rfl (eq_ok_okValue_pair sampleOpen sampleOpen_ok)), rfl⟩

set_option maxRecDepth 20000 in
theorem sample_keys : (okValue sampleOpen sampleOpen_ok).2.key = 100 ∧
    (okValue tenureEnd tenureEnd_ok).2.key = 100 ∧
    (okValue secondOpen secondOpen_ok).2.key = 100 := by
  decide

theorem leads_paid : ∃ m, Leads [openA, paidCall] m := by
  refine ⟨_, leads_open.next paidCall (.changed (s := (okValue sampleOpen sampleOpen_ok).2)
    (i := ⟨20, [2], .charge chargeAccounts 30 1⟩) ?_ rfl rfl
    (eq_ok_okValue_pair sampleCharge sampleCharge_ok))⟩
  rw [sample_keys.1, Function.update_self]

theorem leads_reopened : ∃ m, Leads [openA, endA, closeA, openB, chargeB] m := by
  obtain ⟨hfirst, hended, hsecond⟩ := sample_keys
  have hend := leads_open.next endA (.changed (s := (okValue sampleOpen sampleOpen_ok).2)
    (i := ⟨20, [1], .revokeMandate tenureOwner⟩) (by rw [hfirst, Function.update_self])
    (by rw [hfirst]; rfl) rfl (eq_ok_okValue_pair tenureEnd tenureEnd_ok))
  have hclosed := hend.next closeA (.closed (s := (okValue tenureEnd tenureEnd_ok).2)
    (by rw [hended, hfirst, Function.update_self])
    (by rw [hended]; rfl) rfl (eq_ok_okValue tenureClosing tenureClosing_ok))
  have hopened := hclosed.next openB (.opened rfl rfl
    (by rw [hended]; exact Function.update_self ..)
    (eq_ok_okValue_pair secondOpen secondOpen_ok))
  exact ⟨_, hopened.next chargeB (.changed
    (s := (okValue secondOpen secondOpen_ok).2)
    (i := ⟨40, [5], .charge { chargeAccounts with agent := 5 } 30 1⟩)
    (by rw [hsecond]; exact Function.update_self ..)
    (by rw [hsecond]; rfl) rfl (eq_ok_okValue_pair secondCharge secondCharge_ok))⟩

/-! A node that answers with transactions only. -/

def answered (signature : String) (call : VetoCall) : RpcTransaction :=
  { oneTransaction call with signatures := [signature] }

theorem shown_answered {signature : String} {call : VetoCall} (hsignature : signature ≠ "")
    (h : fromBase58 (toBase58 call.data) = some call.data) :
    (onChain signature call).Shown fromBase58 (fun _ => some 20) (answered signature call) where
  signature := rfl
  slot := rfl
  time := .inr rfl
  failed hnone := nomatch hnone
  ran t ht := by
    obtain rfl := Option.some.inj ht
    have hshows := shows_oneCall h
    exact { signed := ⟨signature, rfl, hsignature⟩, logged := hshows.logged, top := hshows.top
            inner := hshows.inner }

def silentAnswers : Answers where
  getBlockTime _ := .error "RPC request failed after 6 attempts"
  getAccountInfo _ := .error "RPC request failed after 6 attempts"
  limitOne := List.head?

theorem silentAnswers_truthful (chain : History rt) : silentAnswers.Truthful chain where
  time _ _ h := nomatch h
  account _ _ h := nomatch h
  row _ _ h := List.mem_of_mem_head? h
  someRow _ h := List.head?_eq_none_iff.mp h

/-- The webhook delivers a transaction. -/
def deliver (db : Db) (c : String × VetoCall) : Except String Db := do
  let (_, db) ← ingestTransaction fromBase58 (answered c.1 c.2) .webhook silentAnswers db db
  return db

/-- A run of deliveries. -/
theorem delivered {chain : History rt} (htime : chain.slotTime = fun _ => some 20)
    {calls : List (String × VetoCall)} (hlisted : ∀ c ∈ calls, onChain c.1 c.2 ∈ chain.transactions)
    (hshown : ∀ c ∈ calls, c.1 ≠ "" ∧ fromBase58 (toBase58 c.2.data) = some c.2.data)
    (run : Run (IngestStep fromBase58 chain) .empty h db) (hok : calls.foldlM deliver db = .ok db') :
    ∃ h', Run (IngestStep fromBase58 chain) .empty h' db' ∧
      (∀ tx, Ingested h tx → Ingested h' tx) ∧ ∀ c ∈ calls, Ingested h' (onChain c.1 c.2) := by
  induction calls generalizing h db with
  | nil =>
      cases hok
      exact ⟨h, run, fun tx htx => htx, fun c hc => (nomatch hc)⟩
  | cons c calls ih =>
      rw [List.foldlM_cons] at hok
      obtain ⟨next, hnext, hrest⟩ := bind_ok_iff.mp hok
      obtain ⟨⟨count, stored⟩, hstored, hnext⟩ := bind_ok_iff.mp hnext
      cases hnext
      obtain ⟨hsignature, hdata⟩ := hshown c List.mem_cons_self
      have hanswer := shown_answered hsignature hdata
      rw [← htime] at hanswer
      have hrun := run.next (.ingested (i := ⟨onChain c.1 c.2, .webhook⟩)
        (hlisted c List.mem_cons_self) hanswer (silentAnswers_truthful chain) (.refl db) hstored)
      obtain ⟨h', run', hkept, hall⟩ := ih (fun d hd => hlisted d (List.mem_cons_of_mem c hd))
        (fun d hd => hshown d (List.mem_cons_of_mem c hd)) hrun hrest
      refine ⟨h', run', fun tx htx => hkept tx (ingested_cons.mpr (.inr htx)), ?_⟩
      exact List.forall_mem_cons.mpr ⟨hkept _ (ingested_cons.mpr (.inl ⟨rfl, rfl⟩)), hall⟩

/-- What the tables say after these deliveries. -/
def deliversTo (calls : List (String × VetoCall)) (holds : Db → Bool) : Bool :=
  match calls.foldlM deliver .empty with
  | .ok db => holds db
  | .error _ => false

theorem of_deliversTo {calls : List (String × VetoCall)} {holds : Db → Bool}
    (h : deliversTo calls holds = true) :
    ∃ db, calls.foldlM deliver .empty = .ok db ∧ holds db = true := by
  unfold deliversTo at h
  split at h
  · rename_i db hdb
    exact ⟨db, hdb, h⟩
  · cases h

def paidCalls : List (String × VetoCall) := [("open", openA), ("paid", paidCall)]

theorem deliversTo_paid : deliversTo paidCalls (fun db => db.decisions.length = 2) = true := by
  decide +kernel

def reopenedCalls : List (String × VetoCall) :=
  [("open", openA), ("end", endA), ("close", closeA), ("reopen", openB), ("charge", chargeB)]

/-- The charge of the second tenure comes second. -/
def deliveredCalls : List (String × VetoCall) :=
  [("open", openA), ("charge", chargeB), ("end", endA), ("close", closeA), ("reopen", openB)]

theorem deliversTo_reopened : deliversTo deliveredCalls (fun db => db.decisions.any fun d =>
    d.key = ⟨"charge", 0, -1⟩ ∧ d.agent ≠ Pubkey.display 5) = true := by
  decide +kernel

/-- An address that is opened once is not opened for two agents. -/
theorem steady_paid {chain : History sampleRuntime}
    (h : chain.transactions = paidCalls.map fun c => onChain c.1 c.2) : chain.Steady := by
  have hopened : ∀ key owner agent, chain.OpenedAs key owner agent → owner = 1 ∧ agent = 2 := by
    rintro key owner agent ⟨tx, htx, call, hcall, accts, args, hinstr, -, rfl, rfl⟩
    rw [h] at htx
    rcases List.mem_cons.mp htx with rfl | htx
    · rw [onChain_calls, List.mem_singleton] at hcall
      subst hcall
      obtain ⟨rfl, rfl⟩ := VetoInstr.openMandate.inj hinstr
      exact ⟨rfl, rfl⟩
    · rw [List.mem_singleton.mp htx, onChain_calls, List.mem_singleton] at hcall
      subst hcall
      cases hinstr
  intro key owner agent owner' agent' hfirst hsecond
  obtain ⟨rfl, rfl⟩ := hopened key owner agent hfirst
  obtain ⟨rfl, rfl⟩ := hopened key owner' agent' hsecond
  exact ⟨rfl, rfl⟩

set_option maxRecDepth 20000 in
/-- The sample mandate is opened and charged once. -/
theorem ingests_orderFree_paid : ∃ (chain : History sampleRuntime) (db : Db),
    chain.transactions = paidCalls.map (fun c => onChain c.1 c.2) ∧ db.decisions.length = 2 ∧
      ∀ d ∈ db.decisions, chain.Attributed d := by
  obtain ⟨m, hleads⟩ := leads_paid
  obtain ⟨chain, htime, htransactions⟩ := exists_history paidCalls hleads (by decide)
  obtain ⟨db, hok, hcount⟩ := of_deliversTo deliversTo_paid
  have hlisted : ∀ c ∈ paidCalls, onChain c.1 c.2 ∈ chain.transactions := by
    intro c hc
    rw [htransactions]
    exact List.mem_map_of_mem hc
  have hshown : ∀ c ∈ paidCalls, c.1 ≠ "" ∧ fromBase58 (toBase58 c.2.data) = some c.2.data := by
    decide
  obtain ⟨h, hrun, -, -⟩ := delivered htime hlisted hshown .start hok
  exact ⟨chain, db, htransactions, of_decide_eq_true hcount,
    (ingests_orderFree (steady_paid htransactions) hrun).1⟩

set_option maxRecDepth 20000 in
/-- The charge of the second tenure is delivered before its opening, and gets the agent of the
first. -/
theorem ingest_takes_other_tenure : ∃ (chain : History sampleRuntime) (h : Ingests) (db : Db),
    Run (IngestStep fromBase58 chain) .empty h db ∧
      (∀ tx ∈ chain.transactions, Ingested h tx) ∧
      ∃ d ∈ db.decisions, ∃ tx ∈ chain.transactions, ∃ p ∈ tx.placed,
        ∃ mandate accts amount nonce, p.1.instr = .charge mandate accts amount nonce ∧
          d.key = tx.keyAt p ∧ d.agent ≠ accts.agent.display := by
  obtain ⟨m, hleads⟩ := leads_reopened
  obtain ⟨chain, htime, htransactions⟩ := exists_history reopenedCalls hleads (by decide)
  obtain ⟨db, hok, hholds⟩ := of_deliversTo deliversTo_reopened
  have hsame : ∀ c, c ∈ reopenedCalls ↔ c ∈ deliveredCalls := by
    intro c
    simp only [reopenedCalls, deliveredCalls, List.mem_cons, List.not_mem_nil, or_false]
    tauto
  have hlisted : ∀ c ∈ deliveredCalls, onChain c.1 c.2 ∈ chain.transactions := by
    intro c hc
    rw [htransactions]
    exact List.mem_map_of_mem ((hsame c).mpr hc)
  have hshown : ∀ c ∈ deliveredCalls,
      c.1 ≠ "" ∧ fromBase58 (toBase58 c.2.data) = some c.2.data := by
    decide
  obtain ⟨h, hrun, -, hall⟩ := delivered htime hlisted hshown .start hok
  refine ⟨chain, h, db, hrun, ?_, ?_⟩
  · intro tx htx
    rw [htransactions] at htx
    obtain ⟨c, hc, rfl⟩ := List.mem_map.mp htx
    exact hall c ((hsame c).mp hc)
  · obtain ⟨d, hd, hrow⟩ := List.any_eq_true.mp hholds
    obtain ⟨hkey, hagent⟩ := of_decide_eq_true hrow
    have hcharge : ("charge", chargeB) ∈ deliveredCalls := by simp [deliveredCalls]
    refine ⟨d, hd, onChain "charge" chargeB, hlisted _ hcharge, (chargeB, 0, none), ?_, 100,
      { chargeAccounts with agent := 5 }, 30, 1, rfl, hkey, hagent⟩
    rw [onChain_placed]
    exact List.mem_singleton_self _

end Sample

end Veto.Service

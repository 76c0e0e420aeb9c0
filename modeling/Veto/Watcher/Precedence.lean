import Veto.Watcher.Attribution

/-!
# Which decision of a nonce the repair reports

The ring and the walk are merged by nonce, and what is set last stays.  A nonce can be refused
several times before it is paid, and charged again after it was, so the last decision that was
read need not be the payment.
-/

namespace Veto.Watcher

open Foundation

/-! ## The merge by nonce -/

/-- The last decision of a nonce. -/
def lastOf (nonce : UInt64) (rows : List ChainDecision) : Option ChainDecision :=
  (rows.filter (·.nonce = nonce)).getLast?

section Merge

variable {rows ring walked : List ChainDecision} {row d : ChainDecision} {nonce : UInt64}

theorem lastOf_concat : lastOf nonce (rows ++ [row]) =
    if row.nonce = nonce then some row else lastOf nonce rows := by
  unfold lastOf
  rw [List.filter_append]
  split
  · rename_i h
    rw [List.filter_cons_of_pos (by simpa using h), List.filter_nil, List.getLast?_concat]
  · rename_i h
    rw [List.filter_cons_of_neg (by simpa using h), List.filter_nil, List.append_nil]

theorem nonce_of_lastOf (h : lastOf nonce rows = some d) : d.nonce = nonce := by
  have hmem := List.mem_of_getLast? h
  simpa using (List.mem_filter.mp hmem).2

theorem lastOf_eq_none : lastOf nonce rows = none ↔ ∀ d ∈ rows, d.nonce ≠ nonce := by
  simp [lastOf]

theorem lastOf_append : lastOf nonce (rows ++ walked) =
    (lastOf nonce walked).or (lastOf nonce rows) := by
  unfold lastOf
  rw [List.filter_append, List.getLast?_append]

theorem mem_setNonce_iff : d ∈ setNonce rows row ↔ d = row ∨ d ∈ rows ∧ d.nonce ≠ row.nonce := by
  constructor
  · intro h
    unfold setNonce at h
    split at h
    · obtain ⟨r, hr, rfl⟩ := List.mem_map.mp h
      split
      · exact .inl rfl
      · rename_i hne
        exact .inr ⟨hr, hne⟩
    · rename_i hany
      rcases List.mem_append.mp h with hold | hnew
      · refine .inr ⟨hold, fun heq => hany ?_⟩
        exact List.any_eq_true.mpr ⟨d, hold, decide_eq_true heq⟩
      · exact .inl (List.mem_singleton.mp hnew)
  · rintro (rfl | ⟨hold, hne⟩)
    · exact self_mem_setNonce
    · exact mem_setNonce_of_ne hold hne

/-- What is set last under a nonce stays.  Induction on the rows, the last one first. -/
theorem mem_foldl_iff (rows : List ChainDecision) :
    d ∈ rows.foldl setNonce [] ↔ lastOf d.nonce rows = some d := by
  induction rows using List.reverseRecOn with
  | nil => simp [lastOf]
  | append_singleton rows row ih =>
      rw [List.foldl_append, List.foldl_cons, List.foldl_nil, mem_setNonce_iff, ih, lastOf_concat]
      by_cases hnonce : row.nonce = d.nonce
      · rw [if_pos hnonce]
        constructor
        · rintro (rfl | ⟨-, hne⟩)
          · rfl
          · exact absurd hnonce.symm hne
        · intro heq
          exact .inl (Option.some.inj heq).symm
      · rw [if_neg hnonce]
        constructor
        · rintro (rfl | ⟨hlast, -⟩)
          · exact absurd rfl hnonce
          · exact hlast
        · intro hlast
          exact .inr ⟨hlast, fun heq => hnonce heq.symm⟩

/-- The merged decisions are the last of each nonce, of the ring and then of the walk. -/
theorem mem_merge_iff :
    d ∈ mergeChainDecisions ring walked ↔ lastOf d.nonce (ring ++ walked) = some d := by
  rw [mergeChainDecisions, List.mem_mergeSort, ← List.foldl_append, mem_foldl_iff]

end Merge

/-! ## The ring -/

/-- The last payment or refusal of a nonce among some records. -/
def lastDecided (nonce : UInt64) (entries : List Entry) : Option Entry :=
  (entries.filter fun e => e.nonce = nonce ∧ (e.kind = .paid ∨ e.kind = .refused)).getLast?

theorem of?_raw_eq_none {e : Entry} :
    ChainDecision.of? e.raw = none ↔ ¬ (e.kind = .paid ∨ e.kind = .refused) := by
  unfold ChainDecision.of?
  cases hkind : e.kind <;> simp [Entry.raw, Kind.code, KIND_PAID, KIND_REFUSED, hkind]

/-- The ring's last decision of a nonce is its last record of it.  Induction on the records, the
last one first. -/
theorem lastOf_ring (nonce : UInt64) (entries : List Entry) :
    (lastOf nonce ((entries.map Entry.raw).filterMap ChainDecision.of?)).map (·.decision.kind) =
      (lastDecided nonce entries).map Entry.kind := by
  induction entries using List.reverseRecOn with
  | nil => rfl
  | append_singleton entries e ih =>
      rw [List.map_append, List.filterMap_append, List.map_singleton]
      unfold lastDecided at ih ⊢
      rw [List.filter_append]
      cases hrow : ChainDecision.of? e.raw with
      | none =>
          have hkind := of?_raw_eq_none.mp hrow
          rw [List.filterMap_cons_none hrow, List.filterMap_nil, List.append_nil, ih,
            List.filter_cons_of_neg (by simp [hkind]), List.filter_nil, List.append_nil]
      | some d =>
          have hkind : e.kind = .paid ∨ e.kind = .refused := by
            by_contra hother
            rw [of?_raw_eq_none.mpr hother] at hrow
            cases hrow
          obtain ⟨hnonce, -, hdecision, -⟩ := ChainDecision.of?_raw hrow
          rw [List.filterMap_cons_some hrow, List.filterMap_nil, lastOf_concat, hnonce]
          by_cases hsame : e.nonce = nonce
          · rw [if_pos hsame, List.filter_cons_of_pos (by simpa [hsame] using hkind),
              List.filter_nil, List.getLast?_concat]
            exact congrArg some hdecision
          · rw [if_neg hsame, ih, List.filter_cons_of_neg (by simp [hsame]), List.filter_nil,
              List.append_nil]

end Veto.Watcher

namespace Veto

open Foundation

/-! ## The payment -/

section Repair

variable {rt : Runtime} (t : Tenure rt)

/-- The decisions that the watcher reads in the ring. -/
def Tenure.ringDecisions : List Watcher.ChainDecision :=
  ((Ring.recent LEDGER_CAPACITY t.log).map Entry.raw).filterMap Watcher.ChainDecision.of?

theorem Tenure.readRing_eq (account : String) :
    Watcher.readRing account (.ok (some (Raw.ledgerData t.state.ledger.raw))) =
      .ok t.ringDecisions := by
  rw [Tenure.ringDecisions, ← Ring.recent_map]
  exact Watcher.decodeLedgerDecisions_eq t.raw_ring_holds account

/-- The walk is made and keeps this decision: the newest of its nonce that it can read, before
every nonce it looks for was read. -/
def Watcher.Walked (programId : Pubkey) (history : Option SignaturePages)
    (held : Option (UInt64 → Bool)) (ring : List Watcher.ChainDecision)
    (hit : Watcher.ChainDecision) : Prop :=
  ∃ pages, history = some pages ∧ Watcher.ringHeld held ring = false ∧
    Hits.Kept (Watcher.readDecision programId) Watcher.ChainDecision.nonce
      (Watcher.missingNonces held ring) (Watcher.scanned pages 50 none) hit

/-- What the repair reports is merged from the ring and the decisions that the walk keeps. -/
theorem fetchChainDecisions_merge (programId : Pubkey) (account : String)
    (history : Option SignaturePages) (held : Option (UInt64 → Bool)) :
    ∃ walked, Watcher.fetchChainDecisions programId account
        (.ok (some (Raw.ledgerData t.state.ledger.raw))) history held =
          .ok (Watcher.mergeChainDecisions t.ringDecisions walked) ∧
      (∀ hit, hit ∈ walked ↔ Watcher.Walked programId history held t.ringDecisions hit) ∧
      (walked.map Watcher.ChainDecision.nonce).Nodup := by
  unfold Watcher.fetchChainDecisions
  rw [t.readRing_eq, ok_bind]
  cases history with
  | none =>
      refine ⟨[], rfl, fun hit => ⟨nofun, ?_⟩, List.nodup_nil⟩
      rintro ⟨pages, hpages, -⟩
      cases hpages
  | some pages =>
      dsimp only
      cases hheld : Watcher.ringHeld held t.ringDecisions with
      | true =>
          refine ⟨[], rfl, fun hit => ⟨nofun, ?_⟩, List.nodup_nil⟩
          rintro ⟨_, -, hopen, -⟩
          rw [hheld] at hopen
          cases hopen
      | false =>
          obtain ⟨w, hwalked, hscan⟩ := Watcher.decisions_scanned programId pages
            (Watcher.missingNonces held t.ringDecisions)
          refine ⟨w.found, by rw [← hwalked]; rfl, fun hit => ?_, hscan.distinct⟩
          rw [hscan.found]
          constructor
          · exact fun hkept => ⟨pages, rfl, hheld, hkept⟩
          · rintro ⟨_, heq, -, hkept⟩
            cases heq
            exact hkept

/-- **Which payments the repair keeps.**  Whatever transactions could be read, and whatever
nonces the journal holds, the repair reports a nonce as paid if and only if the decision that the
walk keeps of it is a payment, or the walk keeps none and the ring's last record of the nonce is a
payment. -/
theorem repair_keeps_payment_iff (programId : Pubkey) (account : String)
    (history : Option SignaturePages) (held : Option (UInt64 → Bool)) (nonce : UInt64) :
    ∃ rows, Watcher.fetchChainDecisions programId account
        (.ok (some (Raw.ledgerData t.state.ledger.raw))) history held = .ok rows ∧
      ((∃ row ∈ rows, row.nonce = nonce ∧ row.decision = .paid) ↔
        (∃ hit, Watcher.Walked programId history held t.ringDecisions hit ∧
          hit.nonce = nonce ∧ hit.decision = .paid) ∨
        ((∀ hit, Watcher.Walked programId history held t.ringDecisions hit →
            hit.nonce ≠ nonce) ∧
          (Watcher.lastDecided nonce (Ring.recent LEDGER_CAPACITY t.log)).map Entry.kind =
            some .paid)) := by
  obtain ⟨walked, hfetch, hkept, hdistinct⟩ :=
    fetchChainDecisions_merge t programId account history held
  refine ⟨_, hfetch, ?_⟩
  have hreported : (∃ row ∈ Watcher.mergeChainDecisions t.ringDecisions walked,
      row.nonce = nonce ∧ row.decision = .paid) ↔
        ∃ d, (Watcher.lastOf nonce walked).or (Watcher.lastOf nonce t.ringDecisions) = some d ∧
          d.decision = .paid := by
    rw [← Watcher.lastOf_append]
    constructor
    · rintro ⟨d, hd, hnonce, hdecision⟩
      exact ⟨d, hnonce ▸ Watcher.mem_merge_iff.mp hd, hdecision⟩
    · rintro ⟨d, hlast, hdecision⟩
      have hnonce := Watcher.nonce_of_lastOf hlast
      exact ⟨d, Watcher.mem_merge_iff.mpr (hnonce ▸ hlast), hnonce, hdecision⟩
  rw [hreported]
  cases hwalked : Watcher.lastOf nonce walked with
  | some d =>
      have hmem : d ∈ walked := (List.mem_filter.mp (List.mem_of_getLast? hwalked)).1
      have hnonce := Watcher.nonce_of_lastOf hwalked
      rw [Option.some_or]
      constructor
      · rintro ⟨_, heq, hdecision⟩
        cases heq
        exact .inl ⟨d, (hkept d).mp hmem, hnonce, hdecision⟩
      · rintro (⟨hit, hhit, hsame, hdecision⟩ | ⟨hnone, -⟩)
        · obtain rfl := List.inj_on_of_nodup_map hdistinct ((hkept hit).mpr hhit) hmem
            (hsame.trans hnonce.symm)
          exact ⟨hit, rfl, hdecision⟩
        · exact absurd hnonce (hnone d ((hkept d).mp hmem))
  | none =>
      have hnone := Watcher.lastOf_eq_none.mp hwalked
      have hring := Watcher.lastOf_ring nonce (Ring.recent LEDGER_CAPACITY t.log)
      rw [Option.none_or, ← hring]
      constructor
      · rintro ⟨d, hlast, hdecision⟩
        refine .inr ⟨fun hit hhit => hnone hit ((hkept hit).mpr hhit), ?_⟩
        rw [Tenure.ringDecisions] at hlast
        rw [hlast, Option.map_some, hdecision]
        rfl
      · rintro (⟨hit, hhit, hsame, -⟩ | ⟨-, hlast⟩)
        · exact absurd hsame (hnone hit ((hkept hit).mpr hhit))
        · obtain ⟨d, hd, hkind⟩ := Option.map_eq_some_iff.mp hlast
          refine ⟨d, hd, ?_⟩
          cases hdecision : d.decision with
          | paid => rfl
          | refused =>
              rw [hdecision] at hkind
              cases hkind

end Repair

/-! ### A refusal that is read and a payment that is not -/

section Sample

/-- The refused charge of 50 with nonce 2. -/
def refusedTx : RpcTx where
  staticAccountKeys := [2, 100, 101, 10, 11, 3, splTokenId, 99]
  loadedWritable := []
  loadedReadonly := []
  compiledInstructions := [
    { programIdIndex := 7
      accountKeyIndexes := [0, 1, 2, 3, 4, 5, 6]
      data := CHARGE_DISCRIMINATOR ++ (toLE 8 50 ++ toLE 8 2) }]
  logMessages := some [lit ("Program log: VETO REFUSED reason=5 (over per-payment maximum) " ++
    "amount=50 per_tx_max=40 remaining=70 override_to_clear=50")]
  blockTime := some 30

/-- The payment with nonce 2 cannot be read, and the refusal before it can. -/
def unreadHistory : SignaturePages := fun _ => .ok [
  { signature := "paid", err := false, blockTime := some 50, fetched := .error .outOfRange },
  { signature := "refused", err := false, blockTime := some 30, fetched := .ok (some refusedTx) }]

/-- **A payment reported as refused.**  The ring holds the payment of 50 with nonce 2, and the
walk, which cannot read its transaction, sets the older refusal over it. -/
theorem repair_downgrades :
    paidEntry 50 11 50 2 ∈ Ring.recent LEDGER_CAPACITY sampleTenure.log ∧
    ∃ rows, Watcher.fetchChainDecisions 99 "" (.ok (some (Raw.ledgerData
        sampleTenure.state.ledger.raw))) (some unreadHistory) none = .ok rows ∧
      ¬ ∃ row ∈ rows, row.nonce = 2 ∧ row.decision = .paid := by
  refine ⟨by decide, Watcher.mergeChainDecisions sampleTenure.ringDecisions
    (Watcher.decisionsFromMandateHistory 99 unreadHistory none), ?_, ?_⟩
  · rw [Watcher.fetchChainDecisions, sampleTenure.readRing_eq, ok_bind]
    rfl
  · have hlast : (Watcher.lastOf 2 (sampleTenure.ringDecisions ++
        Watcher.decisionsFromMandateHistory 99 unreadHistory none)).map (·.decision) =
          some .refused := by decide +kernel
    rintro ⟨row, hrow, hnonce, hpaid⟩
    rw [← hnonce, Watcher.mem_merge_iff.mp hrow, Option.map_some, hpaid] at hlast
    cases hlast

end Sample

end Veto

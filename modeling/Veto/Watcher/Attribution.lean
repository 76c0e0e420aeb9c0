import Veto.Mandate.Tenure
import Veto.Ledger.Agreement
import Veto.Watcher.Repair
import Veto.Watcher.ReadBack

/-!
# Whose charges a repair returns

The walk takes the first top-level charge of a transaction, on whatever mandate, and the
first line of its log that looks like a decision, whoever wrote it.  What it returns is
compared with the charges that were decided on the mandate.
-/

namespace Veto

open Foundation

/-! ## What the walk reads of a transaction -/

/-- A charge of the program for `amount` with `nonce`. -/
def CompiledIx.Charges (ix : CompiledIx) (keys : List Pubkey) (programId : Pubkey)
    (nonce amount : UInt64) : Prop :=
  keys[ix.programIdIndex]? = some programId ∧
    ∃ rest, ix.data =
      CHARGE_DISCRIMINATOR ++ (toLE 8 amount.toNat ++ (toLE 8 nonce.toNat ++ rest))

/-- The first top-level charge of the program, on any mandate. -/
def RpcTx.FirstCharge (tx : RpcTx) (programId : Pubkey) (nonce amount : UInt64) : Prop :=
  ∃ front ix back, tx.compiledInstructions = front ++ ix :: back ∧
    ix.Charges tx.keys programId nonce amount ∧
    ∀ other ∈ front, ∀ n a, ¬ other.Charges tx.keys programId n a

namespace Watcher

/-- The walk can read this transaction: it landed, it was fetched, and it has a charge and
a line that looks like a decision. -/
def Reads (programId : Pubkey) (info : ListedSignature) (nonce amount : UInt64)
    (outcome : ChargeOutcome) : Prop :=
  info.err = false ∧ ∃ tx, info.fetched = .ok (some tx) ∧
    tx.FirstCharge programId nonce amount ∧ FirstDecision (tx.logMessages.getD []) outcome

theorem chargeOf_eq_some {keys : List Pubkey} {programId : Pubkey} {ix : CompiledIx}
    {nonce amount : UInt64} :
    chargeOf keys programId ix = some (amount, nonce) ↔ ix.Charges keys programId nonce amount := by
  constructor
  · intro h
    unfold chargeOf at h
    split at h
    · cases h
    next hprogram =>
    split at h
    · cases h
    next hlength =>
    split at h
    · cases h
    next hdisc =>
    split at h
    · next a n hamount hnonce =>
        obtain ⟨rfl, rfl⟩ : a = amount ∧ n = nonce := by simpa using h
        rw [readBigUInt64LE_eq_ok_iff (by omega)] at hamount hnonce
        refine ⟨not_not.mp hprogram, ix.data.drop 24, ?_⟩
        rw [← not_not.mp hdisc, ← hamount, ← hnonce, subarray_append_drop (by decide),
          subarray_append_drop (by decide), subarray_append_drop (by decide), List.drop_zero]
    · cases h
  · rintro ⟨hprogram, rest, hdata⟩
    have hlength : ¬ ix.data.length < 24 := by
      rw [hdata]
      simp [CHARGE_DISCRIMINATOR]
      omega
    have hdisc : subarray ix.data 0 8 = CHARGE_DISCRIMINATOR := by
      rw [hdata]
      exact subarray_append_left rfl
    have hamount : readBigUInt64LE ix.data 8 = .ok amount := by
      apply readBigUInt64LE_eq
      simp [hdata, CHARGE_DISCRIMINATOR]
    have hnonce : readBigUInt64LE ix.data 16 = .ok nonce := by
      apply readBigUInt64LE_eq
      simp [hdata, CHARGE_DISCRIMINATOR]
    simp [chargeOf, hprogram, hlength, hdisc, hamount, hnonce]

theorem chargeFromTx_eq_some {tx : RpcTx} {programId : Pubkey} {nonce amount : UInt64} :
    chargeFromTx tx programId = some (amount, nonce) ↔ tx.FirstCharge programId nonce amount := by
  have hnone : ∀ ix, chargeOf tx.keys programId ix = none ↔
      ∀ n a, ¬ ix.Charges tx.keys programId n a := by
    intro ix
    rw [Option.eq_none_iff_forall_ne_some]
    simp only [← chargeOf_eq_some, Prod.forall]
    exact forall_comm
  simp only [chargeFromTx, List.findSome?_eq_some_iff, chargeOf_eq_some, hnone]
  rfl

section Read

variable {programId : Pubkey} {info : ListedSignature}

theorem Reads.readDecision {nonce amount : UInt64} {outcome : ChargeOutcome}
    (h : Reads programId info nonce amount outcome) :
    ∃ d, readDecision programId info = some d ∧ d.nonce = nonce ∧ d.amount = amount ∧
      d.decision = outcome.decision ∧ d.reason = outcome.reasonCode := by
  obtain ⟨hlanded, tx, hfetched, hcharge, hlogs⟩ := h
  rw [← chargeFromTx_eq_some] at hcharge
  rw [← parseChargeLogs_eq_ok] at hlogs
  simp [Watcher.readDecision, hlanded, hfetched, hcharge, hlogs]

theorem reads_of_readDecision {d : ChainDecision} (h : readDecision programId info = some d) :
    ∃ outcome, Reads programId info d.nonce d.amount outcome ∧
      d.decision = outcome.decision ∧ d.reason = outcome.reasonCode := by
  unfold Watcher.readDecision at h
  split at h
  · cases h
  next hlanded =>
  split at h
  · next tx hfetched =>
      split at h
      · cases h
      next amount nonce hcharge =>
      split at h
      · cases h
      next outcome hlogs =>
      obtain rfl := Option.some.inj h
      exact ⟨outcome, ⟨by simpa using hlanded, tx, hfetched, chargeFromTx_eq_some.mp hcharge,
        parseChargeLogs_eq_ok.mp hlogs⟩, rfl, rfl⟩
  · cases h

end Read

/-! ## The walk -/

/-- Every signature that the pages of a walk list. -/
def scanned (history : SignaturePages) : Nat → Option String → List ListedSignature
  | 0, _ => []
  | page + 1, before =>
    match history before with
    | .error _ => []
    | .ok sigs =>
      sigs ++
        if sigs.length < 200 then []
        else match sigs.getLast? with
          | none => []
          | some last => scanned history page (some last.signature)

theorem pages_eq_foldl (programId : Pubkey) (history : SignaturePages) (n : Nat)
    (before : Option String) (w : Walk) :
    Walk.pages programId history n before w =
      (scanned history n before).foldl (Walk.visit programId) w := by
  induction n generalizing before w with
  | zero => rfl
  | succ n ih =>
      unfold Walk.pages scanned
      by_cases hdone : w.done = true
      · rw [if_pos hdone]
        exact (Hits.foldl_done hdone _).symm
      · rw [if_neg hdone]
        cases history before with
        | error => rfl
        | ok sigs =>
            simp only [List.foldl_append]
            by_cases hover : (sigs.foldl (Walk.visit programId) w).done = true
            · rw [if_pos hover]
              exact (Hits.foldl_done hover _).symm
            · rw [if_neg hover]
              by_cases hshort : sigs.length < 200
              · simp only [if_pos hshort, List.foldl_nil]
              · simp only [if_neg hshort]
                cases sigs.getLast? with
                | none => rfl
                | some last => exact ih _ _

theorem decisions_scanned (programId : Pubkey) (history : SignaturePages)
    (missing : Option (List UInt64)) :
    ∃ w : Walk, decisionsFromMandateHistory programId history missing = w.found ∧
      Hits.Scanned (readDecision programId) ChainDecision.nonce missing
        (scanned history 50 none) w :=
  ⟨_, rfl, by rw [pages_eq_foldl]; exact Hits.Scanned.foldl missing _⟩

theorem readIn_iff {programId : Pubkey} {items : List ListedSignature} {nonce : UInt64} :
    Hits.ReadIn (readDecision programId) ChainDecision.nonce items nonce ↔
      ∃ info ∈ items, ∃ amount outcome, Reads programId info nonce amount outcome := by
  constructor
  · rintro ⟨info, hinfo, d, hread, rfl⟩
    obtain ⟨outcome, hreads, -, -⟩ := reads_of_readDecision hread
    exact ⟨info, hinfo, _, outcome, hreads⟩
  · rintro ⟨info, hinfo, amount, outcome, hreads⟩
    obtain ⟨d, hread, hnonce, -⟩ := hreads.readDecision
    exact ⟨info, hinfo, d, hread, hnonce⟩

/-! ## The merge -/

section Merge

variable {rows ring walked : List ChainDecision} {row d : ChainDecision}

theorem mem_of_mem_setNonce (h : d ∈ setNonce rows row) : d ∈ rows ∨ d = row := by
  unfold setNonce at h
  split at h
  · obtain ⟨r, hr, rfl⟩ := List.mem_map.mp h
    split
    · exact .inr rfl
    · exact .inl hr
  · simpa using h

theorem self_mem_setNonce : row ∈ setNonce rows row := by
  unfold setNonce
  split
  · next hany =>
      obtain ⟨r, hr, hnonce⟩ := List.any_eq_true.mp hany
      exact List.mem_map.mpr ⟨r, hr, if_pos (of_decide_eq_true hnonce)⟩
  · simp

theorem mem_setNonce_of_ne (h : d ∈ rows) (hne : d.nonce ≠ row.nonce) : d ∈ setNonce rows row := by
  unfold setNonce
  split
  · exact List.mem_map.mpr ⟨d, h, if_neg hne⟩
  · exact List.mem_append_left _ h

theorem mem_of_mem_foldl (h : d ∈ walked.foldl setNonce rows) : d ∈ rows ∨ d ∈ walked := by
  induction walked generalizing rows with
  | nil => exact .inl h
  | cons row walked ih =>
      rcases ih h with hrows | hrest
      · rcases mem_of_mem_setNonce hrows with hold | rfl
        · exact .inl hold
        · exact .inr List.mem_cons_self
      · exact .inr (List.mem_cons_of_mem _ hrest)

theorem mem_foldl_of_ne (h : d ∈ rows) (hne : ∀ row ∈ walked, d.nonce ≠ row.nonce) :
    d ∈ walked.foldl setNonce rows := by
  induction walked generalizing rows with
  | nil => exact h
  | cons row walked ih =>
      apply ih (mem_setNonce_of_ne h (hne row List.mem_cons_self))
      exact fun other hother => hne other (List.mem_cons_of_mem _ hother)

/-- A row of the walk is never written over. -/
theorem mem_foldl_of_distinct (hdistinct : (walked.map ChainDecision.nonce).Nodup)
    (h : d ∈ walked) : d ∈ walked.foldl setNonce rows := by
  induction walked generalizing rows with
  | nil => cases h
  | cons row walked ih =>
      rw [List.map_cons, List.nodup_cons] at hdistinct
      rcases List.mem_cons.mp h with rfl | hrest
      · apply mem_foldl_of_ne self_mem_setNonce
        intro other hother heq
        exact hdistinct.1 (heq ▸ List.mem_map_of_mem hother)
      · exact ih hdistinct.2 hrest

theorem mem_of_mem_merge (h : d ∈ mergeChainDecisions ring walked) : d ∈ ring ∨ d ∈ walked := by
  rw [mergeChainDecisions, List.mem_mergeSort] at h
  rcases mem_of_mem_foldl h with hring | hwalked
  · rcases mem_of_mem_foldl hring with hnone | hring
    · cases hnone
    · exact .inl hring
  · exact .inr hwalked

theorem mem_merge_of_walked (hdistinct : (walked.map ChainDecision.nonce).Nodup)
    (h : d ∈ walked) : d ∈ mergeChainDecisions ring walked := by
  rw [mergeChainDecisions, List.mem_mergeSort]
  exact mem_foldl_of_distinct hdistinct h

end Merge

/-! ## The mandate's own charges -/

/-- A row of the ring has the fields of the record in it. -/
theorem ChainDecision.of?_raw {e : Entry} {d : ChainDecision}
    (h : ChainDecision.of? e.raw = some d) :
    d.nonce = e.nonce ∧ d.amount = e.amount ∧ d.decision.kind = e.kind ∧
      d.reason = e.reason.code.toNat := by
  unfold ChainDecision.of? at h
  split at h
  · obtain rfl := Option.some.inj h
    cases hkind : e.kind <;> simp_all [Entry.raw, Kind.code, KIND_PAID, KIND_REFUSED, Decision.kind]
  · cases h

end Watcher

namespace MandateChain

variable {rt : Runtime} (chain : MandateChain rt)

/-- A row is a charge on the mandate, with what was decided. -/
def Attributed (d : Watcher.ChainDecision) : Prop :=
  chain.Has d.nonce d.amount d.decision.kind d.reason

/-- The row that is kept of a transaction pairs its first top-level charge with its first
line that looks like a decision.  The history pairs rightly if this is a charge on the
mandate for every transaction a row is kept of: the newest of its nonce, among those read
until every nonce sought was. -/
def Pairs (programId : Pubkey) (history : SignaturePages) (missing : Option (List UInt64)) :
    Prop :=
  ∀ front info back, Watcher.scanned history 50 none = front ++ info :: back →
    ∀ nonce amount outcome, Watcher.Reads programId info nonce amount outcome →
      (∀ earlier ∈ front, ∀ a o, ¬ Watcher.Reads programId earlier nonce a o) →
      (∀ sought, missing = some sought →
        ∃ n ∈ sought, ∀ earlier ∈ front, ∀ a o, ¬ Watcher.Reads programId earlier n a o) →
      chain.Has nonce amount outcome.decision.kind outcome.reasonCode

/-- The walk returns charges of the mandate alone exactly when the history pairs rightly. -/
theorem walk_attributed_iff (programId : Pubkey) (history : SignaturePages)
    (missing : Option (List UInt64)) :
    (∀ d ∈ Watcher.decisionsFromMandateHistory programId history missing, chain.Attributed d) ↔
      chain.Pairs programId history missing := by
  obtain ⟨w, hrows, hscan⟩ := Watcher.decisions_scanned programId history missing
  rw [hrows]
  simp only [hscan.found]
  constructor
  · intro hall front info back hsplit nonce amount outcome hreads hfirst hsought
    obtain ⟨d, hread, rfl, rfl, hdecision, hreason⟩ := hreads.readDecision
    rw [← hdecision, ← hreason]
    refine hall d ⟨front, info, back, hsplit, hread, ?_, ?_⟩
    · rw [Watcher.readIn_iff]
      rintro ⟨earlier, hearlier, a, o, hother⟩
      exact hfirst earlier hearlier a o hother
    · intro sought hmissing
      obtain ⟨n, hn, hunread⟩ := hsought sought hmissing
      refine ⟨n, hn, ?_⟩
      rw [Watcher.readIn_iff]
      rintro ⟨earlier, hearlier, a, o, hother⟩
      exact hunread earlier hearlier a o hother
  · rintro hpairs d ⟨front, info, back, hsplit, hread, hfirst, hsought⟩
    obtain ⟨outcome, hreads, hdecision, hreason⟩ := Watcher.reads_of_readDecision hread
    rw [Attributed, hdecision, hreason]
    refine hpairs front info back hsplit _ _ _ hreads ?_ ?_
    · intro earlier hearlier a o hother
      exact hfirst (Watcher.readIn_iff.mpr ⟨earlier, hearlier, a, o, hother⟩)
    · intro sought hmissing
      obtain ⟨n, hn, hunread⟩ := hsought sought hmissing
      refine ⟨n, hn, ?_⟩
      intro earlier hearlier a o hother
      exact hunread (Watcher.readIn_iff.mpr ⟨earlier, hearlier, a, o, hother⟩)

/-- The first charge of the transaction was decided on the mandate, and its log says so. -/
def Own (programId : Pubkey) (tx : RpcTx) : Prop :=
  ∃ nonce amount, tx.FirstCharge programId nonce amount ∧
    chain.Logged nonce amount (tx.logMessages.getD [])

/-- What is read of such a transaction is its charge. -/
theorem Own.has {chain : MandateChain rt} {programId : Pubkey} {tx : RpcTx}
    (h : chain.Own programId tx) {nonce amount : UInt64} {outcome : Watcher.ChargeOutcome}
    (hcharge : tx.FirstCharge programId nonce amount)
    (hlogs : Watcher.FirstDecision (tx.logMessages.getD []) outcome) :
    chain.Has nonce amount outcome.decision.kind outcome.reasonCode := by
  obtain ⟨n, a, hfirst, hlogged⟩ := h
  rw [← Watcher.chargeFromTx_eq_some] at hcharge hfirst
  obtain ⟨rfl, rfl⟩ := Prod.mk.inj (Option.some.inj (hcharge.symm.trans hfirst))
  exact hlogged.has hlogs

/-- A history whose charges are all the mandate's own pairs rightly. -/
theorem pairs_of_own {programId : Pubkey} {history : SignaturePages}
    {missing : Option (List UInt64)}
    (h : ∀ info ∈ Watcher.scanned history 50 none, ∀ tx, info.err = false →
      info.fetched = .ok (some tx) → (∃ n a, tx.FirstCharge programId n a) →
      chain.Own programId tx) : chain.Pairs programId history missing := by
  intro front info back hsplit nonce amount outcome ⟨hlanded, tx, hfetched, hcharge, hlogs⟩ _ _
  have hmem : info ∈ Watcher.scanned history 50 none := by
    rw [hsplit]
    exact List.mem_append_right _ List.mem_cons_self
  exact (h info hmem tx hlanded hfetched ⟨nonce, amount, hcharge⟩).has hcharge hlogs

end MandateChain

/-- What a read of the ledger account answers: a failure, no account, or the bytes of the
ledger as a tenure left it. -/
structure LedgerRead {rt : Runtime} (chain : MandateChain rt) where
  answer : Except Thrown (Option Bytes)
  honest : ∀ data, answer = .ok (some data) →
    ∃ t ∈ chain.tenures, data = Raw.ledgerData t.state.ledger.raw

namespace LedgerRead

variable {rt : Runtime} {chain : MandateChain rt} (ledger : LedgerRead chain)

/-- A row of the ring is a charge of the mandate, whatever the ring has lost. -/
theorem ring_attributed {account : String} {ring : List Watcher.ChainDecision}
    (h : Watcher.readRing account ledger.answer = .ok ring) {d : Watcher.ChainDecision}
    (hd : d ∈ ring) : chain.Attributed d := by
  obtain ⟨answer, hanswer, h⟩ := bind_ok_iff.mp h
  cases answer with
  | none =>
      cases h
      cases hd
  | some data =>
      obtain ⟨t, ht, rfl⟩ := ledger.honest data hanswer
      change Watcher.decodeLedgerDecisions _ account = _ at h
      rw [Watcher.decodeLedgerDecisions_eq t.raw_ring_holds] at h
      cases h
      obtain ⟨raw, hraw, hof⟩ := List.mem_filterMap.mp hd
      obtain ⟨e, he, rfl⟩ := List.mem_map.mp (List.mem_of_mem_drop hraw)
      obtain ⟨hnonce, hamount, hkind, hreason⟩ := Watcher.ChainDecision.of?_raw hof
      have hdecided : e.kind = .paid ∨ e.kind = .refused := by
        rw [← hkind]
        cases d.decision with
        | paid => exact .inl rfl
        | refused => exact .inr rfl
      refine ⟨t, ht, e.reason, hreason.symm, ?_⟩
      rw [hnonce, hamount, hkind]
      exact t.has_of_log he hdecided

/-- A repair returns charges of the mandate alone exactly when the walk it makes does. -/
theorem repair_attributed_iff (programId : Pubkey) (account : String) (history : SignaturePages)
    (held : Option (UInt64 → Bool)) :
    (∀ rows, Watcher.fetchChainDecisions programId account ledger.answer (some history) held =
        .ok rows → ∀ d ∈ rows, chain.Attributed d) ↔
      ∀ ring, Watcher.readRing account ledger.answer = .ok ring →
        Watcher.ringHeld held ring = false →
        chain.Pairs programId history (Watcher.missingNonces held ring) := by
  constructor
  · intro hall ring hring hheld
    rw [← chain.walk_attributed_iff]
    intro d hd
    obtain ⟨w, hrows, hscan⟩ := Watcher.decisions_scanned programId history
      (Watcher.missingNonces held ring)
    have hmerged : d ∈ Watcher.mergeChainDecisions ring _ :=
      Watcher.mem_merge_of_walked (hrows ▸ hscan.distinct) hd
    refine hall _ ?_ d hmerged
    simp [Watcher.fetchChainDecisions, hring, hheld, bind, Except.bind, pure, Except.pure]
  · intro hpairs rows hrows d hd
    obtain ⟨ring, hring, hrows⟩ := bind_ok_iff.mp hrows
    cases hheld : Watcher.ringHeld held ring with
    | true =>
        simp only [hheld] at hrows
        cases hrows
        rcases Watcher.mem_of_mem_merge hd with hd | hd
        · exact ledger.ring_attributed hring hd
        · cases hd
    | false =>
        simp only [hheld] at hrows
        cases hrows
        rcases Watcher.mem_of_mem_merge hd with hd | hd
        · exact ledger.ring_attributed hring hd
        · exact (chain.walk_attributed_iff ..).mpr (hpairs ring hring hheld) d hd

/-- Without a history there is only the ring. -/
theorem unwalked_attributed (programId : Pubkey) (account : String)
    (held : Option (UInt64 → Bool)) {rows : List Watcher.ChainDecision}
    (h : Watcher.fetchChainDecisions programId account ledger.answer none held = .ok rows)
    {d : Watcher.ChainDecision} (hd : d ∈ rows) : chain.Attributed d := by
  obtain ⟨ring, hring, h⟩ := bind_ok_iff.mp h
  cases h
  rcases Watcher.mem_of_mem_merge hd with hd | hd
  · exact ledger.ring_attributed hring hd
  · cases hd

end LedgerRead

/-- **Journal repair.**  Every decision returned is a charge on the mandate, with its nonce,
amount, outcome and reason, exactly when the history that is walked pairs rightly. -/
theorem repair_attributes_iff {rt : Runtime} (chain : MandateChain rt) (ledger : LedgerRead chain)
    (programId : Pubkey) (account : String) (history : SignaturePages)
    (missing : Option (List UInt64)) (held : Option (UInt64 → Bool)) :
    ((∀ d ∈ Watcher.decisionsFromMandateHistory programId history missing,
        chain.Attributed d) ↔ chain.Pairs programId history missing) ∧
    ((∀ rows, Watcher.fetchChainDecisions programId account ledger.answer (some history) held =
        .ok rows → ∀ d ∈ rows, chain.Attributed d) ↔
      ∀ ring, Watcher.readRing account ledger.answer = .ok ring →
        Watcher.ringHeld held ring = false →
        chain.Pairs programId history (Watcher.missingNonces held ring)) ∧
    ∀ rows, Watcher.fetchChainDecisions programId account ledger.answer none held = .ok rows →
      ∀ d ∈ rows, chain.Attributed d :=
  ⟨chain.walk_attributed_iff programId history missing,
    ledger.repair_attributed_iff programId account history held,
    fun _ h _ hd => ledger.unwalked_attributed programId account held h hd⟩

/-! ### A stranger's transaction -/

section Sample

def sampleTenure : Tenure sampleRuntime where
  now := 10
  signers := [1]
  accts := { owner := 1, mandate := 100, ledger := 101, source := 10, mint := 3,
             tokenProgram := splTokenId }
  args := { mandateId := 7, agent := 2, merchant := 4, cap := 100, perTxMax := 40,
            expiresAt := 1000, purpose := "rent" }
  world := sampleWorld
  opening := (okValue sampleOpen sampleOpen_ok).1
  start := (okValue sampleOpen sampleOpen_ok).2
  history := (okValue sampleRun sampleRun_ok).1
  state := (okValue sampleRun sampleRun_ok).2
  opened := eq_ok_okValue sampleOpen sampleOpen_ok
  run := run_okValue sampleRun_ok

def sampleChain : MandateChain sampleRuntime where
  key := 100
  tenures := [sampleTenure]
  there := by
    intro t ht
    obtain rfl := List.mem_singleton.mp ht
    decide

def sampleLedger : LedgerRead sampleChain where
  answer := .ok (some (Raw.ledgerData sampleTenure.state.ledger.raw))
  honest := by
    intro data hdata
    exact ⟨sampleTenure, List.mem_singleton_self _, by cases hdata; rfl⟩

/-- A payment of 5 with nonce 9 on a stranger's mandate 200.  The message also lists the
account 100. -/
def strangerTx : RpcTx where
  staticAccountKeys := [52, 200, 201, 60, 61, 3, splTokenId, 99, 100]
  loadedWritable := []
  loadedReadonly := []
  compiledInstructions := [
    { programIdIndex := 7
      accountKeyIndexes := [0, 1, 2, 3, 4, 5, 6]
      data := CHARGE_DISCRIMINATOR ++ (toLE 8 5 ++ toLE 8 9) }]
  logMessages := some [lit "Program log: VETO PAID amount=5 spent=5 of cap=9 remaining=4"]
  blockTime := some 70

/-- One page, with the stranger's transaction on it. -/
def strangerHistory : SignaturePages := fun _ =>
  .ok [{ signature := "stranger", err := false, blockTime := some 70, fetched := .ok (some strangerTx) }]

/-- Nonce 9 was never charged on the mandate. -/
theorem not_attributed_nine {d : Watcher.ChainDecision} (h : d.nonce = 9) :
    ¬ sampleChain.Attributed d := by
  have hnonces : ∀ T ∈ sampleTenure.history, (match T.input.instr with
      | .charge _ _ nonce => decide (nonce ≠ 9)
      | _ => true) = true := by decide
  rintro ⟨t, ht, reason, -, T, hT, ⟨accts, hinstr⟩, -⟩
  obtain rfl := List.mem_singleton.mp ht
  have hnonce := hnonces T hT
  simp [hinstr, h] at hnonce

/-- The walk and the repair both return the stranger's payment. -/
theorem repair_takes_stranger :
    (∃ d ∈ Watcher.decisionsFromMandateHistory 99 strangerHistory none,
      ¬ sampleChain.Attributed d) ∧
    ∃ rows, Watcher.fetchChainDecisions 99 "" sampleLedger.answer (some strangerHistory) none =
      .ok rows ∧ ∃ d ∈ rows, ¬ sampleChain.Attributed d := by
  have hrow : (Watcher.decisionsFromMandateHistory 99 strangerHistory none).map
      Watcher.ChainDecision.nonce = [9] := by decide +kernel
  have hmem : 9 ∈ (Watcher.decisionsFromMandateHistory 99 strangerHistory none).map
      Watcher.ChainDecision.nonce := by
    rw [hrow]
    exact List.mem_singleton_self 9
  obtain ⟨d, hd, hnonce⟩ := List.mem_map.mp hmem
  refine ⟨⟨d, hd, not_attributed_nine hnonce⟩, ?_⟩
  have hring : ∃ ring, Watcher.readRing "" sampleLedger.answer = .ok ring :=
    ⟨_, Watcher.decodeLedgerDecisions_eq sampleTenure.raw_ring_holds ""⟩
  obtain ⟨ring, hring⟩ := hring
  obtain ⟨w, hrows, hscan⟩ := Watcher.decisions_scanned 99 strangerHistory none
  have hmerged : d ∈ Watcher.mergeChainDecisions ring _ :=
    Watcher.mem_merge_of_walked (hrows ▸ hscan.distinct) hd
  refine ⟨_, ?_, d, hmerged, not_attributed_nine hnonce⟩
  simp [Watcher.fetchChainDecisions, hring, Watcher.ringHeld, Watcher.missingNonces, bind,
    Except.bind, pure, Except.pure]

end Sample

end Veto

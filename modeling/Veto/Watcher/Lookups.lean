import Veto.Watcher.Charge
import Veto.Watcher.Attribution

/-!
# What a lookup of a payment finds

A payment is looked up in the ring of the ledger and in the signature history.  What the
ring still has was recorded by the mandate's own charges; what the history finds is the
newest transaction that reads as a payment of the nonce.
-/

namespace Veto

open Foundation

/-- The mandate paid this amount for this nonce. -/
def MandateChain.Paid {rt : Runtime} (chain : MandateChain rt) (nonce amount : Nat) : Prop :=
  ∃ n a : UInt64, n.toNat = nonce ∧ a.toNat = amount ∧ ∃ code, chain.Has n a .paid code

theorem MandateChain.Paid.of_extends {rt : Runtime} {chain later : MandateChain rt}
    {nonce amount : Nat} (h : chain.Paid nonce amount) (hext : chain.Extends later) :
    later.Paid nonce amount := by
  obtain ⟨n, a, hn, ha, code, hhas⟩ := h
  exact ⟨n, a, hn, ha, code, hhas.of_extends hext⟩

namespace Watcher

/-! ## The history -/

/-- A listed transaction that reads as a payment. -/
def ReadsPaid (programId : Pubkey) (info : ListedSignature) (nonce amount : Nat) : Prop :=
  ∃ n a outcome, n.toNat = nonce ∧ a.toNat = amount ∧ Reads programId info n a outcome ∧
    outcome.decision = .paid

/-- The transaction of a listed signature could be read. -/
def Fetched (info : ListedSignature) : Prop := info.err = false → ∃ tx, info.fetched = .ok tx

/-- The pages of a walk could be read. -/
def PagesRead (history : SignaturePages) : Nat → Option String → Prop
  | 0, _ => True
  | page + 1, before => ∃ sigs, history before = .ok sigs ∧
      (200 ≤ sigs.length → PagesRead history page (sigs.getLast?.map (·.signature)))

/-- The newest transaction that reads as a payment of the nonce is one of this amount. -/
def NewestPaid (programId : Pubkey) (infos : List ListedSignature) (nonce amount : Nat) : Prop :=
  ∃ front info back, infos = front ++ info :: back ∧ ReadsPaid programId info nonce amount ∧
    ∀ newer ∈ front, Fetched newer ∧ ∀ a, ¬ ReadsPaid programId newer nonce a

/-- No transaction reads as a payment of the nonce, and all could be read. -/
def NonePaid (programId : Pubkey) (infos : List ListedSignature) (nonce : Nat) : Prop :=
  ∀ info ∈ infos, Fetched info ∧ ∀ a, ¬ ReadsPaid programId info nonce a

section History

variable {programId : Pubkey} {nonce : Nat} {info : ListedSignature} {charge : RecoveredCharge}

theorem paymentOf_some {tx : RpcTx} {signature : String}
    (h : paymentOf programId nonce signature tx = some charge) :
    ∃ n outcome, n.toNat = nonce ∧ tx.FirstCharge programId n charge.amount ∧
      FirstDecision (tx.logMessages.getD []) outcome ∧ outcome.decision = .paid ∧
      charge.decision = .paid := by
  unfold paymentOf at h
  split at h
  · cases h
  next amount charged hcharge =>
  split at h
  · cases h
  next hnonce =>
  split at h
  · cases h
  next outcome hlogs =>
  split at h
  · cases h
  next hpaid =>
  obtain rfl := Option.some.inj h
  exact ⟨charged, outcome, not_not.mp hnonce, chargeFromTx_eq_some.mp hcharge,
    parseChargeLogs_eq_ok.mp hlogs, not_not.mp hpaid, not_not.mp hpaid⟩

theorem paymentOf_isSome {tx : RpcTx} {signature : String} {n a : UInt64} {outcome : ChargeOutcome}
    (hn : n.toNat = nonce) (hcharge : tx.FirstCharge programId n a)
    (hlogs : FirstDecision (tx.logMessages.getD []) outcome) (hpaid : outcome.decision = .paid) :
    paymentOf programId nonce signature tx ≠ none := by
  rw [← chargeFromTx_eq_some] at hcharge
  rw [← parseChargeLogs_eq_ok] at hlogs
  simp [paymentOf, hcharge, hlogs, hn, hpaid]

theorem paidIn_some (h : paidIn programId nonce info = .ok (some charge)) :
    ReadsPaid programId info nonce charge.amount.toNat ∧ charge.decision = .paid := by
  unfold paidIn at h
  split at h
  · cases h
  next hlanded =>
  obtain ⟨tx, hfetched, h⟩ := bind_ok_iff.mp h
  cases tx with
  | none => cases h
  | some tx =>
      obtain ⟨n, outcome, hn, hcharge, hlogs, hpaid, hdecision⟩ :=
        paymentOf_some (Except.ok.inj h)
      exact ⟨⟨n, charge.amount, outcome, hn, rfl,
        ⟨by simpa using hlanded, tx, hfetched, hcharge, hlogs⟩, hpaid⟩, hdecision⟩

theorem paidIn_none (h : paidIn programId nonce info = .ok none) :
    Fetched info ∧ ∀ a, ¬ ReadsPaid programId info nonce a := by
  unfold paidIn at h
  split at h
  · next herr =>
      refine ⟨fun hlanded => by simp [herr] at hlanded, ?_⟩
      rintro a ⟨_, _, _, _, _, ⟨hlanded, _⟩, _⟩
      simp [herr] at hlanded
  next hlanded =>
  obtain ⟨found, hfetched, h⟩ := bind_ok_iff.mp h
  refine ⟨fun _ => ⟨found, hfetched⟩, ?_⟩
  rintro a ⟨n, _, outcome, hn, -, ⟨-, tx, hread, hcharge, hlogs⟩, hpaid⟩
  obtain rfl := Except.ok.inj (hfetched.symm.trans hread)
  exact paymentOf_isSome hn hcharge hlogs hpaid (Except.ok.inj h)

variable {history : SignaturePages}

theorem scanned_succ {n : Nat} {before : Option String} {sigs : List ListedSignature}
    (h : history before = .ok sigs) :
    scanned history (n + 1) before = sigs ++
      if sigs.length < 200 then [] else scanned history n (sigs.getLast?.map (·.signature)) := by
  rw [scanned, h]
  by_cases hshort : sigs.length < 200
  · simp only [if_pos hshort]
  · obtain ⟨last, hlast⟩ : ∃ last, sigs.getLast? = some last := by
      rw [← Option.isSome_iff_exists, List.getLast?_isSome]
      rintro rfl
      exact hshort (by simp)
    simp only [if_neg hshort, hlast, Option.map_some]

theorem nonePaid_of_search {sigs : List ListedSignature}
    (h : ∀ info ∈ sigs, paidIn programId nonce info = .ok none) :
    NonePaid programId sigs nonce :=
  fun info hinfo => paidIn_none (h info hinfo)

theorem findPaidFrom_some {n : Nat} {before : Option String}
    (h : findPaidFrom programId history nonce n before = .ok (some charge)) :
    NewestPaid programId (scanned history n before) nonce charge.amount.toNat ∧
      charge.decision = .paid := by
  induction n generalizing before with
  | zero => cases h
  | succ n ih =>
      unfold findPaidFrom at h
      obtain ⟨sigs, hsigs, h⟩ := bind_ok_iff.mp h
      obtain ⟨found, hfound, h⟩ := bind_ok_iff.mp h
      rw [scanned_succ hsigs]
      cases found with
      | some hit =>
          cases h
          obtain ⟨front, info, back, rfl, hinfo, hfront⟩ := findSomeM_some.mp hfound
          obtain ⟨hreads, hdecision⟩ := paidIn_some hinfo
          exact ⟨⟨front, info, back ++ _, List.append_assoc .., hreads, nonePaid_of_search hfront⟩,
            hdecision⟩
      | none =>
          have hpage := nonePaid_of_search (findSomeM_none.mp hfound)
          by_cases hshort : sigs.length < 200
          · simp only [if_pos hshort] at h
            cases h
          · simp only [if_neg hshort] at h ⊢
            obtain ⟨⟨front, info, back, hsplit, hreads, hnewer⟩, hdecision⟩ := ih h
            refine ⟨⟨sigs ++ front, info, back, ?_, hreads, ?_⟩, hdecision⟩
            · rw [hsplit, List.append_assoc]
            · intro newer hnew
              cases List.mem_append.mp hnew with
              | inl hsig => exact hpage newer hsig
              | inr hfront => exact hnewer newer hfront

theorem findPaidFrom_none {n : Nat} {before : Option String}
    (h : findPaidFrom programId history nonce n before = .ok none) :
    PagesRead history n before ∧ NonePaid programId (scanned history n before) nonce := by
  induction n generalizing before with
  | zero => exact ⟨trivial, by simp [scanned, NonePaid]⟩
  | succ n ih =>
      unfold findPaidFrom at h
      obtain ⟨sigs, hsigs, h⟩ := bind_ok_iff.mp h
      obtain ⟨found, hfound, h⟩ := bind_ok_iff.mp h
      rw [scanned_succ hsigs]
      cases found with
      | some hit => cases h
      | none =>
          have hpage := nonePaid_of_search (findSomeM_none.mp hfound)
          by_cases hshort : sigs.length < 200
          · simp only [if_pos hshort, List.append_nil]
            exact ⟨⟨sigs, hsigs, fun hlong => absurd hshort (Nat.not_lt.mpr hlong)⟩, hpage⟩
          · simp only [if_neg hshort] at h ⊢
            obtain ⟨hpages, hrest⟩ := ih h
            refine ⟨⟨sigs, hsigs, fun _ => hpages⟩, ?_⟩
            intro info hinfo
            cases List.mem_append.mp hinfo with
            | inl hsig => exact hpage info hsig
            | inr hlater => exact hrest info hlater

end History

/-! ## The ring -/

/-- A record is of this kind and nonce. -/
def isFor (kind : UInt8) (nonce : Nat) (e : Raw.Entry) : Bool :=
  e.nonce.toNat = nonce ∧ e.kind = kind

/-- The bytes of a record, if it is of this kind and nonce. -/
def bytesFor (kind : UInt8) (nonce : Nat) (e : Raw.Entry) : Option Bytes :=
  (Option.guard (isFor kind nonce) e).map Raw.Entry.bytes

theorem entryOf_bytes (kind : UInt8) (nonce : Nat) (e : Raw.Entry) :
    entryOf kind nonce e.bytes = .ok (bytesFor kind nonce e) := by
  have hread := e.at_zero
  have hlong : ¬ e.bytes.length < ENTRY_SIZE := by simp [ENTRY_SIZE]
  have hnonce : readBigUInt64LE (subarray e.bytes 48 56) 0 = .ok e.nonce :=
    readU64Le_eq hread.nonce
  have hkind : byteAt e.bytes 64 = e.kind := byteAt_eq hread.kind
  simp only [entryOf, if_neg hlong, hnonce, hkind, bind, Except.bind, pure, Except.pure]
  by_cases hmatch : e.nonce.toNat = nonce ∧ e.kind = kind
  · rw [if_neg (by tauto)]
    simp [bytesFor, Option.guard, isFor, hmatch]
  · rw [if_pos (by tauto)]
    simp [bytesFor, Option.guard, isFor, hmatch]

section Ring

variable {ledger : Raw.LedgerOf Raw.Entry} {log : List Raw.Entry} {nonce : Nat}

/-- The entries of a kind and nonce are those of the log the ring still has. -/
theorem entriesOf_eq (h : ledger.ring.Holds log) (kind : UInt8) (nonce : Nat) :
    entriesOf kind (Raw.ledgerData ledger) nonce =
      .ok (((Ring.recent LEDGER_CAPACITY log).filter (isFor kind nonce)).map Raw.Entry.bytes) := by
  have hlong : ¬ (Raw.ledgerData ledger).length < 8 + LEDGER_HEADER_SIZE + ENTRY_SIZE := by
    rw [Raw.length_ledgerData]
    decide
  have hdisc : subarray (Raw.ledgerData ledger) 0 8 = LEDGER_DISCRIMINATOR :=
    Raw.take_ledgerData ledger
  have htotal : readUInt32LE (subarray ((Raw.ledgerData ledger).drop 8) 32 36) 0 =
      .ok ledger.ring.total := Raw.body_total ledger
  have hhead : readUInt16LE (subarray ((Raw.ledgerData ledger).drop 8) 36 38) 0 =
      .ok ledger.ring.head := Raw.body_head ledger
  have hslot : ∀ slot (hslot : slot < 32),
      entryOf kind nonce (ringEntry ((Raw.ledgerData ledger).drop 8) slot) =
        .ok (bytesFor kind nonce ledger.ring.entries[slot]) := by
    intro slot hslot
    rw [ringEntry, Raw.body_entry ledger hslot, entryOf_bytes]
  have hslots := h.mapM_walk (by decide) (by decide) _ hslot
  simp only [entriesOf, if_neg hlong, hdisc, ne_eq, not_true_eq_false, if_false, htotal, hhead,
    ok_bind, LEDGER_CAPACITY] at hslots ⊢
  rw [hslots, ok_bind, List.filterMap_map, Function.id_comp, ← List.filterMap_eq_filter,
    List.map_filterMap]
  rfl

/-- What a payment found in the ring is. -/
theorem findPaid_some (h : ledger.ring.Holds log) {hit : RingPaid}
    (hfound : findPaidInLedgerBytes (Raw.ledgerData ledger) nonce = .ok (some hit)) :
    ∃ e ∈ log, e.nonce.toNat = nonce ∧ e.kind = KIND_PAID ∧ e.amount = hit.amount := by
  rw [findPaidInLedgerBytes, entriesOf_eq h, ok_bind, List.head?_map] at hfound
  cases hhead : ((Ring.recent LEDGER_CAPACITY log).filter (isFor KIND_PAID nonce)).head? with
  | none =>
      rw [hhead] at hfound
      cases hfound
  | some e =>
      obtain ⟨hmem, hfor⟩ := List.mem_filter.mp (List.mem_of_mem_head? hhead)
      obtain ⟨hnonce, hkind⟩ := of_decide_eq_true hfor
      have hread := e.at_zero
      have hamount : readBigUInt64LE (subarray e.bytes 8 16) 0 = .ok e.amount :=
        readU64Le_eq hread.amount
      have hoverride : readBigUInt64LE (subarray e.bytes 56 64) 0 = .ok e.suggestedOverride :=
        readU64Le_eq hread.suggestedOverride
      rw [hhead] at hfound
      simp only [Option.map_some, hamount, hoverride, ok_bind, pure, Except.pure] at hfound
      cases hfound
      exact ⟨e, List.mem_of_mem_drop hmem, hnonce, hkind, rfl⟩

end Ring

/-! ## The ring of a mandate -/

section Mandate

variable {rt : Runtime} {chain : MandateChain rt} {t : Tenure rt} {nonce : Nat}

/-- A payment in the ring was made. -/
theorem paid_of_findPaid (ht : t ∈ chain.tenures) {hit : RingPaid}
    (h : findPaidInLedgerBytes (Raw.ledgerData t.state.ledger.raw) nonce = .ok (some hit)) :
    chain.Paid nonce hit.amount.toNat := by
  obtain ⟨raw, hraw, hnonce, hkind, hamount⟩ := findPaid_some t.raw_ring_holds h
  obtain ⟨e, he, rfl⟩ := List.mem_map.mp hraw
  have hpaid : e.kind = .paid := by
    cases hcase : e.kind with
    | paid => rfl
    | _ => simp [Entry.raw, hcase, Kind.code, KIND_PAID] at hkind
  have hhas := chain.has_of_log ht he (.inl hpaid)
  rw [hpaid] at hhas
  exact ⟨e.nonce, e.amount, hnonce, congrArg UInt64.toNat hamount, _, hhas⟩

/-- A record that says paid is a payment in the ring. -/
theorem paid_of_recorded (ht : t ∈ chain.tenures) {charge : RecoveredCharge}
    (h : recordedFromLedgerBytes (Raw.ledgerData t.state.ledger.raw) nonce = .ok (some charge))
    (hpaid : charge.decision = .paid) : chain.Paid nonce charge.amount.toNat := by
  obtain ⟨paid, hfound, h⟩ := bind_ok_iff.mp h
  cases paid with
  | some hit =>
      cases h
      exact paid_of_findPaid ht hfound
  | none =>
      obtain ⟨refused, -, h⟩ := bind_ok_iff.mp h
      cases refused with
      | none => cases h
      | some hit =>
          cases h
          cases hpaid

/-- The last nonce of a mandate account is read as it is. -/
theorem decodeMandateLastNonce_data (m : Mandate) :
    decodeMandateLastNonce m.data = .ok m.lastNonce := by
  have hlong : ¬ m.data.length < MANDATE_LAST_NONCE_OFFSET + 8 := by
    have hlength := m.length_data
    simp only [MANDATE_LAST_NONCE_OFFSET]
    omega
  have hread : readU64Le m.data MANDATE_LAST_NONCE_OFFSET = .ok m.lastNonce :=
    readU64Le_eq m.lastNonce_at
  rw [readU64Le] at hread
  rw [decodeMandateLastNonce, if_neg hlong]
  exact hread

end Mandate

end Watcher

end Veto

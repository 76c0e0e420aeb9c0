import Veto.Mandate.Charge
import Veto.Service.Decoding
import Veto.Trade.Run

/-!
# The records of a transaction

The decoder takes the instructions of a transaction in order, and each charge takes the first
decision left that has its mandate, amount and nonce.  As long as no trade was decided, the
decisions left are those of the charges left, so a charge takes its own.
-/

namespace Veto.Service

open Foundation

/-! ## The whole loop -/

section Loop

variable {veto : Logs.ProgramId} {signature : String} {slot : Int} {timestamp : Option Int}

/-- What a run decided, as the indexer reads it. -/
def VetoCall.decided (call : VetoCall) : List Indexer.DecodedEvent :=
  call.events.filterMap VetoInstr.readEvent

/-- A call at its place. -/
abbrev PlacedCall := VetoCall × Nat × Option Nat

def PlacedCall.located (veto : Logs.ProgramId) (p : PlacedCall) : LocatedInstruction :=
  p.1.located veto p.2.1 p.2.2

def PlacedCall.location (signature : String) (slot : Int) (timestamp : Option Int)
    (p : PlacedCall) : Location where
  signature := signature
  slot := slot
  timestamp := timestamp
  instructionIndex := p.2.1
  innerInstructionIndex := p.2.2

/-- A step takes one decision for each charge, and reads no bytes behind the arguments. -/
theorem decodeNext_takes {p : PlacedCall} {state state' : List DecodedRecord × List Indexer.Decision}
    (hruns : p.1.instr.Runs p.1.events)
    (h : decodeNext signature slot timestamp state (p.located veto) = .ok state') :
    (p.1.instr.OfMandate = true → p.1.trailing = []) ∧
      state'.2.length + p.1.decided.length =
        state.2.length + if p.1.instr.IsTrade then 1 else 0 := by
  obtain ⟨⟨instr, more, trailing, events⟩, index, inner⟩ := p
  have hdecided : instr.Decided (VetoCall.decided ⟨instr, more, trailing, events⟩) :=
    VetoInstr.Runs.decided hruns
  generalize VetoCall.decided ⟨instr, more, trailing, events⟩ = decided at hdecided ⊢
  cases hdecided with
  | charged event read key asked =>
      obtain ⟨hnone, place, decision, hfound, hdecision, rfl⟩ := (decodeNext_charge rfl).mp h
      have hplace := (List.getElem?_eq_some_iff.mp hdecision).1
      refine ⟨fun _ => hnone, ?_⟩
      have hlength := List.length_eraseIdx_of_lt hplace
      change (state.2.eraseIdx place).length + 1 = state.2.length + 0
      omega
  | traded key =>
      obtain rfl : state = state' := Except.ok.inj ((decodeNext_other rfl).symm.trans h)
      exact ⟨fun h => (nomatch h), rfl⟩
  | nothing undecided untraded =>
      rw [untraded, if_neg Bool.false_ne_true, List.length_nil]
      by_cases hmandate : instr.OfMandate = true
      · obtain ⟨hnone, record, -, rfl⟩ := (decodeNext_record hruns hmandate undecided).mp h
        exact ⟨fun _ => hnone, rfl⟩
      · have hother : instr.OfMandate = false := by simpa using hmandate
        obtain rfl : state = state' := Except.ok.inj ((decodeNext_other hother).symm.trans h)
        exact ⟨fun h => absurd h hmandate, rfl⟩

/-- All steps together: a decision is left for each trade. -/
theorem decodeAll_takes {calls : List PlacedCall}
    {state state' : List DecodedRecord × List Indexer.Decision}
    (hruns : ∀ p ∈ calls, p.1.instr.Runs p.1.events)
    (h : (calls.map (PlacedCall.located veto)).foldlM (decodeNext signature slot timestamp) state =
      .ok state') :
    (∀ p ∈ calls, p.1.instr.OfMandate = true → p.1.trailing = []) ∧
      state'.2.length + (calls.flatMap fun p => p.1.decided).length =
        state.2.length + calls.countP fun p => p.1.instr.IsTrade := by
  induction calls generalizing state with
  | nil =>
      cases h
      exact ⟨fun p hp => (nomatch hp), rfl⟩
  | cons p calls ih =>
      rw [List.map_cons, List.foldlM_cons] at h
      obtain ⟨next, hnext, hrest⟩ := bind_ok_iff.mp h
      obtain ⟨hp, htaken⟩ := decodeNext_takes (hruns p List.mem_cons_self) hnext
      obtain ⟨hcalls, hleft⟩ := ih (fun q hq => hruns q (List.mem_cons_of_mem p hq)) hrest
      refine ⟨List.forall_mem_cons.mpr ⟨hp, hcalls⟩, ?_⟩
      rw [List.flatMap_cons, List.length_append, List.countP_cons]
      omega

/-- The decision of a charge is the one that its record takes over. -/
theorem decisionOf_charge (tx : Indexer.TxView) (programId : String) (event : MandateEvent) :
    (Indexer.decisionOf tx programId (.of event)).mandate =
        (Indexer.DecodedEvent.of event).mandate.display ∧
      (Indexer.decisionOf tx programId (.of event)).amount =
        (Indexer.DecodedEvent.of event).amount.toNat ∧
      (Indexer.decisionOf tx programId (.of event)).nonce =
        (Indexer.DecodedEvent.of event).nonce.toNat := by
  cases event with
  | paid => exact ⟨rfl, rfl, rfl⟩
  | refused => exact ⟨rfl, rfl, rfl⟩

theorem chargeRecord_decisionOf (tx : Indexer.TxView) (programId : String) (event : MandateEvent)
    (destination : Pubkey) (p : PlacedCall) :
    { location := p.location tx.signature tx.slot tx.blockTime
      decision := { Indexer.decisionOf tx programId (.of event) with
        counterparty := destination.display } : ChargeDecision } =
      chargeRecord (p.location tx.signature tx.slot tx.blockTime) destination event := by
  cases event with
  | paid => rfl
  | refused => rfl

theorem decided_nothing {call : VetoCall} (hruns : call.instr.Runs call.events)
    (hcharge : ∀ m a x n, call.instr ≠ .charge m a x n) (htrade : call.instr.IsTrade = false) :
    call.decided = [] := by
  obtain ⟨instr, more, trailing, events⟩ := call
  have hdecided : instr.Decided (VetoCall.decided ⟨instr, more, trailing, events⟩) :=
    VetoInstr.Runs.decided hruns
  generalize VetoCall.decided ⟨instr, more, trailing, events⟩ = decided at hdecided ⊢
  cases hdecided with
  | charged event read key asked => exact absurd rfl (hcharge _ _ _ _)
  | traded key => cases htrade
  | nothing undecided untraded => rfl

/-- What opens, allows, revokes or closes a mandate has its record. -/
theorem record_of_mandate (call : VetoCall) (h : call.instr.OfMandate = true)
    (hcharge : ∀ m a x n, call.instr ≠ .charge m a x n) (location : Location) :
    ∃ record, call.record location = some record := by
  obtain ⟨instr, more, trailing, events⟩ := call
  cases instr with
  | charge mandate a amount nonce => exact absurd rfl (hcharge mandate a amount nonce)
  | trade => cases h
  | other => cases h
  | _ => exact ⟨_, rfl⟩

/-- Where no trade was decided, a charge takes the first decision, which is its own. -/
theorem decodeNext_own (tx : Indexer.TxView) (programId : String) {p : PlacedCall}
    (hruns : p.1.instr.Runs p.1.events) (htrade : p.1.instr.IsTrade = false)
    (hend : p.1.instr.OfMandate = true → p.1.trailing = []) (records : List DecodedRecord)
    (later : List Indexer.Decision) :
    ∃ added, decodeNext tx.signature tx.slot tx.blockTime
        (records, p.1.decided.map (Indexer.decisionOf tx programId) ++ later) (p.located veto) =
        .ok (records ++ added, later) ∧
      List.Forall₂ (fun q record =>
          q.1.record (PlacedCall.location tx.signature tx.slot tx.blockTime q) = some record)
        ([p].filter fun q => q.1.instr.OfMandate) added := by
  obtain ⟨⟨instr, more, trailing, events⟩, index, inner⟩ := p
  by_cases hmandate : instr.OfMandate = true
  · have hone : ([(⟨instr, more, trailing, events⟩, index, inner)] : List PlacedCall).filter
        (fun q => q.1.instr.OfMandate) = [(⟨instr, more, trailing, events⟩, index, inner)] :=
      List.filter_cons_of_pos hmandate
    have hnone := hend hmandate
    rw [hone]
    by_cases hcharge : ∃ m a x n, instr = .charge m a x n
    · obtain ⟨mandate, a, amount, nonce, rfl⟩ := hcharge
      obtain ⟨event, rfl, hkey, hamount, hnonce⟩ := charge_event hruns
      have hdecided : VetoCall.decided
          ⟨.charge mandate a amount nonce, more, trailing, [.mandate event]⟩ = [.of event] := by
        unfold VetoCall.decided
        exact List.filterMap_cons_some (Indexer.decodeEventBytes_bytes event)
      obtain ⟨hmandateOf, hamountOf, hnonceOf⟩ := decisionOf_charge tx programId event
      rw [hkey] at hmandateOf
      rw [hamount] at hamountOf
      rw [hnonce] at hnonceOf
      refine ⟨[.charge (chargeRecord (PlacedCall.location tx.signature tx.slot tx.blockTime
        (⟨.charge mandate a amount nonce, more, trailing, [.mandate event]⟩, index, inner))
        a.destination event)], ?_, .cons rfl .nil⟩
      rw [hdecided]
      refine (decodeNext_charge rfl).mpr ⟨hnone, 0, Indexer.decisionOf tx programId (.of event),
        ?_, rfl, ?_⟩
      · rw [List.map_singleton, List.singleton_append, List.findIdx?_cons]
        simp [hmandateOf, hamountOf, hnonceOf]
      · rw [← chargeRecord_decisionOf]
        rfl
    · have hcharge : ∀ m a x n, instr ≠ .charge m a x n :=
        fun m a x n h => hcharge ⟨m, a, x, n, h⟩
      obtain ⟨record, hrecord⟩ := record_of_mandate ⟨instr, more, trailing, events⟩ hmandate hcharge
        (PlacedCall.location tx.signature tx.slot tx.blockTime
          (⟨instr, more, trailing, events⟩, index, inner))
      refine ⟨[record], ?_, .cons hrecord .nil⟩
      rw [decided_nothing hruns hcharge htrade]
      exact (decodeNext_record hruns hmandate hcharge).mpr ⟨hnone, record, hrecord, rfl⟩
  · have hcharge : ∀ m a x n, instr ≠ .charge m a x n := by
      rintro m a x n rfl
      exact hmandate rfl
    refine ⟨[], ?_, ?_⟩
    · rw [decided_nothing hruns hcharge htrade, List.append_nil]
      exact decodeNext_other (by simpa using hmandate)
    · have hnone : ([(⟨instr, more, trailing, events⟩, index, inner)] : List PlacedCall).filter
          (fun q => q.1.instr.OfMandate) = [] := List.filter_cons_of_neg hmandate
      rw [hnone]
      exact .nil

/-- The loop leaves the record of each instruction, in order. -/
theorem decodeAll_own (tx : Indexer.TxView) (programId : String) {calls : List PlacedCall}
    (hruns : ∀ p ∈ calls, p.1.instr.Runs p.1.events)
    (htrade : ∀ p ∈ calls, p.1.instr.IsTrade = false)
    (hend : ∀ p ∈ calls, p.1.instr.OfMandate = true → p.1.trailing = [])
    (records : List DecodedRecord) :
    ∃ added, (calls.map (PlacedCall.located veto)).foldlM
        (decodeNext tx.signature tx.slot tx.blockTime)
        (records, (calls.flatMap fun p => p.1.decided).map (Indexer.decisionOf tx programId)) =
        .ok (records ++ added, []) ∧
      List.Forall₂ (fun q record =>
          q.1.record (PlacedCall.location tx.signature tx.slot tx.blockTime q) = some record)
        (calls.filter fun q => q.1.instr.OfMandate) added := by
  induction calls generalizing records with
  | nil => exact ⟨[], by rw [List.append_nil]; rfl, .nil⟩
  | cons p calls ih =>
      obtain ⟨first, hfirst, hrecord⟩ := decodeNext_own tx programId (hruns p List.mem_cons_self)
        (htrade p List.mem_cons_self) (hend p List.mem_cons_self) records
        ((calls.flatMap fun p => p.1.decided).map (Indexer.decisionOf tx programId))
      obtain ⟨rest, hrest, hrecords⟩ := ih (fun q hq => hruns q (List.mem_cons_of_mem p hq))
        (fun q hq => htrade q (List.mem_cons_of_mem p hq))
        (fun q hq => hend q (List.mem_cons_of_mem p hq)) (records ++ first)
      refine ⟨first ++ rest, ?_, ?_⟩
      · rw [List.map_cons, List.foldlM_cons, List.flatMap_cons, List.map_append, hfirst, ok_bind,
          hrest, List.append_assoc]
      · have hsplit := List.filter_append (p := fun q : PlacedCall => q.1.instr.OfMandate)
          [p] calls
        rw [List.singleton_append] at hsplit
        rw [hsplit]
        exact List.rel_append hrecord hrecords

end Loop

/-! ## The whole transaction -/

section Transaction

variable {bs58 : Text → Option Bytes} {veto : Logs.ProgramId} {tx : RpcTransaction} {t : TxTrace}

/-- The transaction as the indexer takes it. -/
def viewOf (veto : Logs.ProgramId) (signature : String) (tx : RpcTransaction) (t : TxTrace) :
    Indexer.TxView where
  signature := signature
  slot := tx.slot
  blockTime := tx.blockTime
  err := false
  logs := (t.log veto).lines
  instructions := (t.placedVeto.map (PlacedCall.located veto)).map (·.toCompiledIx)

/-- Only a charge begins as one. -/
theorem discriminator_ne_charge {instr : VetoInstr} (h : ∀ m a x n, instr ≠ .charge m a x n) :
    instr.discriminator ≠ CHARGE_DISCRIMINATOR := by
  have hother : ∀ name : OtherIx, name.discriminator ≠ CHARGE_DISCRIMINATOR := by
    intro name
    cases name <;> decide
  cases instr with
  | charge mandate a amount nonce => exact absurd rfl (h mandate a amount nonce)
  | openMandate => exact (by decide : OPEN_MANDATE_DISCRIMINATOR ≠ CHARGE_DISCRIMINATOR)
  | grantOverride => exact (by decide : GRANT_OVERRIDE_DISCRIMINATOR ≠ CHARGE_DISCRIMINATOR)
  | revokeMandate => exact (by decide : REVOKE_MANDATE_DISCRIMINATOR ≠ CHARGE_DISCRIMINATOR)
  | closeMandate => exact (by decide : CLOSE_MANDATE_DISCRIMINATOR ≠ CHARGE_DISCRIMINATOR)
  | trade => exact (by decide : TRADE_DISCRIMINATOR ≠ CHARGE_DISCRIMINATOR)
  | other name => exact hother name

theorem isChargeIx_undecided {p : PlacedCall} (hruns : p.1.instr.Runs p.1.events)
    (h : p.1.decided = []) : Indexer.isChargeIx (p.located veto).toCompiledIx = false := by
  obtain ⟨⟨instr, more, trailing, events⟩, index, inner⟩ := p
  have hcharge : ∀ m a x n, instr ≠ .charge m a x n := by
    rintro m a x n rfl
    obtain ⟨event, rfl, -⟩ := charge_event hruns
    have hread : VetoCall.decided ⟨.charge m a x n, more, trailing, [.mandate event]⟩ =
        [.of event] := List.filterMap_cons_some (Indexer.decodeEventBytes_bytes event)
    rw [hread] at h
    cases h
  have hdisc : subarray (PlacedCall.located veto (⟨instr, more, trailing, events⟩, index,
      inner)).data 0 8 = instr.discriminator :=
    subarray_append_left instr.length_discriminator
  unfold Indexer.isChargeIx
  rw [hdisc]
  simp [discriminator_ne_charge hcharge]

/-- The indexer makes one decision of each event of the program. -/
theorem decisionsFromTx_view (h : t.WellRun veto) (signature : String) :
    Indexer.decisionsFromTx (viewOf veto signature tx t) (String.ofList veto.chars) =
      (t.placedVeto.flatMap fun p => p.1.decided).map
        (Indexer.decisionOf (viewOf veto signature tx t) (String.ofList veto.chars)) := by
  have hevents : Indexer.decodeEventsFromLogs (viewOf veto signature tx t).logs
      (String.ofList veto.chars).toList = t.placedVeto.flatMap fun p => p.1.decided := by
    rw [String.toList_ofList, ← List.flatMap_map (f := Prod.fst) (g := VetoCall.decided),
      placedVeto_calls]
    exact decodeEventsFromLogs_log h
  have herr : (viewOf veto signature tx t).err = false := rfl
  unfold Indexer.decisionsFromTx
  rw [herr, if_neg Bool.false_ne_true, hevents]
  split
  · -- no event, so no charge ran, and the text lines name none
    rename_i hnone
    rw [hnone, Indexer.decisionFromChargeLog_eq_none]
    · rfl
    · intro ix hix _
      obtain ⟨located, hlocated, rfl⟩ := List.mem_map.mp hix
      obtain ⟨p, hp, rfl⟩ := List.mem_map.mp hlocated
      have hcall : p.1 ∈ t.vetoCalls := by
        rw [← placedVeto_calls]
        exact List.mem_map_of_mem hp
      exact isChargeIx_undecided (runs_of_vetoCalls h hcall) (List.flatMap_eq_nil_iff.mp hnone p hp)
  · rfl

/-- What the decoder makes of a transaction. -/
theorem decodeTransaction_shows (hshows : Shows bs58 veto tx t) (hrun : t.WellRun veto) :
    ∃ signature, tx.signatures.head? = some signature ∧
      decodeTransaction bs58 tx (String.ofList veto.chars) = (do
        let (records, remaining) ← (t.placedVeto.map (PlacedCall.located veto)).foldlM
          (decodeNext signature tx.slot tx.blockTime) ([],
            (t.placedVeto.flatMap fun p => p.1.decided).map
              (Indexer.decisionOf (viewOf veto signature tx t) (String.ofList veto.chars)))
        require (remaining = []) "Decision event without matching charge instruction"
        return records) := by
  obtain ⟨signature, hhead, hsigned⟩ := hshows.signed
  obtain ⟨info, hinfo, herr, hlogs⟩ := hshows.logged
  have hname : okOr (tx.signatures.head?.filter (· ≠ "")) "Missing transaction signature" =
      .ok signature := by
    rw [hhead, Option.filter_some, if_pos (by simpa using hsigned)]
    rfl
  refine ⟨signature, hhead, ?_⟩
  rw [← decisionsFromTx_view hrun]
  unfold decodeTransaction
  rw [hinfo]
  dsimp only
  rw [herr, if_neg (by decide), hname, ok_bind, transactionInstructions_shows hshows, ok_bind,
    filter_located hrun, hlogs]
  rfl

/-- No trade was decided and no instruction of a mandate carries bytes behind its arguments. -/
def TxTrace.Decodable (t : TxTrace) : Prop :=
  (∀ call ∈ t.vetoCalls, call.instr.IsTrade = false) ∧
    ∀ call ∈ t.vetoCalls, call.instr.OfMandate = true → call.trailing = []

theorem runs_of_placedVeto (hrun : t.WellRun veto) {p : PlacedCall} (hp : p ∈ t.placedVeto) :
    p.1.instr.Runs p.1.events := by
  apply runs_of_vetoCalls hrun
  rw [← placedVeto_calls]
  exact List.mem_map_of_mem hp

theorem decodable_of_ok (hshows : Shows bs58 veto tx t) (hrun : t.WellRun veto)
    {records : List DecodedRecord}
    (hok : decodeTransaction bs58 tx (String.ofList veto.chars) = .ok records) :
    t.Decodable := by
  obtain ⟨signature, hhead, hdecode⟩ := decodeTransaction_shows hshows hrun
  rw [hdecode] at hok
  obtain ⟨⟨all, remaining⟩, hall, hend⟩ := bind_ok_iff.mp hok
  obtain ⟨hnone, -⟩ := require_bind_ok_iff.mp hend
  obtain ⟨htrailing, hcount⟩ := decodeAll_takes (fun p hp => runs_of_placedVeto hrun hp) hall
  unfold TxTrace.Decodable
  rw [← placedVeto_calls]
  simp only [List.forall_mem_map]
  refine ⟨?_, htrailing⟩
  -- every decision was taken by a charge, so none is left for a trade
  subst hnone
  rw [List.length_map, List.length_nil, Nat.zero_add] at hcount
  have hzero := Nat.left_eq_add.mp hcount
  intro p hp
  simpa using List.countP_eq_zero.mp hzero p hp

theorem records_of_decodable (hshows : Shows bs58 veto tx t) (hrun : t.WellRun veto)
    (h : t.Decodable) :
    ∃ signature records, tx.signatures.head? = some signature ∧
      decodeTransaction bs58 tx (String.ofList veto.chars) = .ok records ∧
      List.Forall₂ (fun p record =>
          p.1.record (PlacedCall.location signature tx.slot tx.blockTime p) = some record)
        (t.placedVeto.filter fun p => p.1.instr.OfMandate) records := by
  obtain ⟨signature, hhead, hdecode⟩ := decodeTransaction_shows hshows hrun
  unfold TxTrace.Decodable at h
  rw [← placedVeto_calls] at h
  simp only [List.forall_mem_map] at h
  obtain ⟨htrade, htrailing⟩ := h
  obtain ⟨records, hall, hrecords⟩ := decodeAll_own (viewOf veto signature tx t)
    (String.ofList veto.chars) (fun p hp => runs_of_placedVeto hrun hp) htrade htrailing []
  refine ⟨signature, records, hhead, ?_, hrecords⟩
  rw [hdecode]
  refine bind_ok_iff.mpr ⟨_, hall, ?_⟩
  exact require_bind_ok_iff.mpr ⟨rfl, rfl⟩

/-- The service decodes a transaction just when no trade was decided in it and no instruction
of a mandate carries bytes behind its arguments, and then it has the record of each, in order. -/
theorem decodeTransaction_complete (hshows : Shows bs58 veto tx t) (hrun : t.WellRun veto) :
    (∃ signature records, tx.signatures.head? = some signature ∧
      decodeTransaction bs58 tx (String.ofList veto.chars) = .ok records ∧
      List.Forall₂ (fun p record =>
          p.1.record (PlacedCall.location signature tx.slot tx.blockTime p) = some record)
        (t.placedVeto.filter fun p => p.1.instr.OfMandate) records) ↔
    (∀ call ∈ t.vetoCalls, call.instr.IsTrade = false) ∧
      ∀ call ∈ t.vetoCalls, call.instr.OfMandate = true → call.trailing = [] := by
  constructor
  · rintro ⟨_, records, -, hok, -⟩
    exact decodable_of_ok hshows hrun hok
  · intro h
    exact records_of_decodable hshows hrun h

end Transaction

/-! ### A payment, and a trade that is refused -/

section Sample

/-- The digits of a base 58 text. -/
def fromBase58 (text : Text) : Option Bytes := do
  let digits ← text.mapM fun c => base58Alphabet.idxOf? c
  let n := digits.foldl (fun n digit => 58 * n + digit) 0
  return (digits.takeWhile (· = 0)).map (fun _ => 0) ++
    (toLE 200 n).reverse.dropWhile (· = 0)

def toBase58 (data : Bytes) : Text :=
  (data.takeWhile (· = 0)).map (fun _ => '1') ++
    base58Digits 200 (data.foldl (fun n b => 256 * n + b.toNat) 0) []

/-- The data lines of a run. -/
def emitLines : List VetoEvent → TxTrace
  | [] => .done
  | event :: events => .line (.data (Indexer.dataText event.bytes)) (emitLines events)

/-- One instruction, with the lines it emits. -/
def oneCall (call : VetoCall) : TxTrace := .call (.veto call) 1 (emitLines call.events) .done

/-- The answer of a node for it. -/
def oneTransaction (call : VetoCall) : RpcTransaction where
  slot := 5
  blockTime := some 20
  signatures := ["5VERv8NMvzbJMEkV8xnrLkEaWRtSz9CosKDYjCJjBRnbJLgp8uirBgmQpjKhoR4tjF3ZpRzrFmBV6UjKdiSZkQUW"]
  accountKeys := call.accounts.map Pubkey.display ++ [String.ofList PROGRAM_ID.chars]
  instructions := [⟨call.accounts.length, List.range call.accounts.length, toBase58 call.data⟩]
  info := some {
    err := none
    logMessages := some ((oneCall call).log PROGRAM_ID).lines
    innerInstructions := some []
    loadedWritable := []
    loadedReadonly := [] }

variable {call : VetoCall}

theorem emitLines_calls (events : List VetoEvent) : (emitLines events).calls = [] := by
  induction events with
  | nil => rfl
  | cons event events ih => exact ih

theorem wellRun_oneCall (h : call.instr.Runs call.events) : (oneCall call).WellRun PROGRAM_ID := by
  have htexts : ∀ events : List VetoEvent, (emitLines events).dataTexts =
      events.map fun event => Indexer.dataText event.bytes := by
    intro events
    induction events with
    | nil => rfl
    | cons event events ih => rw [emitLines, TxTrace.dataTexts, ih, List.map_cons]
  have hforeign : ∀ events : List VetoEvent, (emitLines events).Foreign PROGRAM_ID := by
    intro events
    induction events with
    | nil => trivial
    | cons event events ih => exact ih
  exact ⟨⟨h, htexts call.events, hforeign call.events⟩, trivial⟩

theorem shows_oneCall (h : fromBase58 (toBase58 call.data) = some call.data) :
    Shows fromBase58 PROGRAM_ID (oneTransaction call) (oneCall call) where
  signed := ⟨_, rfl, by decide⟩
  logged := ⟨_, rfl, rfl, rfl⟩
  top := by
    have hkeys : (oneTransaction call).keys = call.accounts.map Pubkey.display ++
        [String.ofList PROGRAM_ID.chars] := by
      unfold oneTransaction RpcTransaction.keys
      simp
    refine .cons ⟨?_, ?_, h⟩ .nil
    · rw [hkeys]
      simp [Invoked.program]
    · rw [hkeys, List.forall₂_iff_get]
      refine ⟨List.length_range, ?_⟩
      intro index hindex hkey
      have hkey : index < call.accounts.length := hkey
      simp only [List.get_eq_getElem, List.getElem_range]
      rw [List.getElem?_append_left (by rwa [List.length_map]), List.getElem?_map,
        List.getElem?_eq_getElem hkey]
      rfl
  inner := by
    intro index i body hbody
    refine .inl ⟨rfl, ?_⟩
    cases index with
    | zero =>
        cases hbody
        exact emitLines_calls call.events
    | succ index => cases hbody

/-- A charge of 30 in the sample mandate. -/
def sampleCharge : MandateResult :=
  charge sampleRuntime 20 [2] chargeAccounts 30 1 (okValue sampleOpen sampleOpen_ok).2

theorem sampleCharge_ok : sampleCharge.toBool = true := rfl

def paidCall : VetoCall where
  instr := .charge (okValue sampleOpen sampleOpen_ok).2.key chargeAccounts 30 1
  more := []
  trailing := []
  events := (okValue sampleCharge sampleCharge_ok).1.events.map .mandate

theorem paidCall_runs : paidCall.instr.Runs paidCall.events :=
  .charge (eq_ok_okValue_pair sampleCharge sampleCharge_ok)

set_option maxRecDepth 20000 in
theorem paidCall_data : fromBase58 (toBase58 paidCall.data) = some paidCall.data := by
  decide

/-- The payment is decoded. -/
theorem decodeTransaction_complete_sample :
    ∃ signature records, (oneTransaction paidCall).signatures.head? = some signature ∧
      decodeTransaction fromBase58 (oneTransaction paidCall) (String.ofList PROGRAM_ID.chars) =
        .ok records ∧
      List.Forall₂ (fun p record => p.1.record (PlacedCall.location signature
          (oneTransaction paidCall).slot (oneTransaction paidCall).blockTime p) = some record)
        ((oneCall paidCall).placedVeto.filter fun p => p.1.instr.OfMandate) records := by
  have hcalls : (oneCall paidCall).vetoCalls = [paidCall] := by
    unfold TxTrace.vetoCalls oneCall
    rw [CallTrace.calls, emitLines_calls]
    rfl
  refine (decodeTransaction_complete (shows_oneCall paidCall_data)
    (wellRun_oneCall paidCall_runs)).mpr ?_
  rw [hcalls]
  exact ⟨by simp [paidCall, VetoInstr.IsTrade], by simp [paidCall]⟩

def tradeAccounts : Trade :=
  { agent := 2, ledger := 101, source := 10, destination := 11,
    exchangeProgram := SPL_TOKEN_SWAP_ID, pool := 20, poolAuthority := 21, poolInVault := 22,
    poolOutVault := 23, poolMint := 24, poolFeeAccount := 25, tokenProgram := splTokenId,
    remainingAccounts := [] }

/-- A trade of 50 under the sample rule, above its ceiling of 40 a trade. -/
def sampleTrade : TradeResult :=
  trade tradeRuntime 30 [2] tradeAccounts 50 0 2 (sampleSwap 50 95)
    (okValue tradeOpen tradeOpen_ok).2

set_option maxRecDepth 20000 in
theorem sampleTrade_ok : sampleTrade.toBool = true := by decide

def refusedTrade : VetoCall where
  instr := .trade (okValue tradeOpen tradeOpen_ok).2.key tradeAccounts 50 0 2
  more := []
  trailing := []
  events := (okValue sampleTrade sampleTrade_ok).1.events.map .trade

theorem refusedTrade_runs : refusedTrade.instr.Runs refusedTrade.events := by
  have h := eq_ok_okValue_pair sampleTrade sampleTrade_ok
  unfold refusedTrade
  dsimp only
  exact .trade h

set_option maxRecDepth 20000 in
theorem refusedTrade_data :
    fromBase58 (toBase58 refusedTrade.data) = some refusedTrade.data := by
  decide

/-- The refusal of a trade stops the decoder. -/
theorem decodeTransaction_refused_trade :
    Shows fromBase58 PROGRAM_ID (oneTransaction refusedTrade) (oneCall refusedTrade) ∧
      (oneCall refusedTrade).WellRun PROGRAM_ID ∧
      decodeTransaction fromBase58 (oneTransaction refusedTrade)
          (String.ofList PROGRAM_ID.chars) =
        .error "Decision event without matching charge instruction" := by
  refine ⟨shows_oneCall refusedTrade_data, wellRun_oneCall refusedTrade_runs, ?_⟩
  decide +kernel

end Sample

end Veto.Service

import Veto.Service.History
import Veto.Service.Places

/-!
# Whose charge it is

What an ingest takes for the owner and the agent of a record: those of a stored row of the rule,
or of the account as it is now.  They are those of some opening of the address, and so the
tenure's own where every opening of the address names the same.
-/

namespace Veto.Service

open Foundation

variable {rt : Runtime} {chain : History rt} {bs58 : Text → Option Bytes} {tx : OnChain}
  {raw : RpcTransaction} {records : List DecodedRecord} {record : DecodedRecord}
  {answers : Answers} {p : PlacedCall} {d d' : Decision} {identity : Identity}

/-! ## What is answered -/

/-- A node, or the webhook, has the transaction. -/
structure OnChain.Shown (bs58 : Text → Option Bytes) (slotTime : Int → Option Int) (tx : OnChain)
    (raw : RpcTransaction) : Prop where
  signature : raw.signatures.head? = some tx.signature
  slot : raw.slot = tx.slot
  time : raw.blockTime = none ∨ raw.blockTime = slotTime tx.slot
  failed : tx.trace = none → ∃ info, raw.info = some info ∧ info.err.isSome = true
  ran : ∀ t, tx.trace = some t → Shows bs58 PROGRAM_ID raw t

/-- The answers are true: the times of slots, mandate accounts as they were at some moment, and
some row where there is one. -/
structure Answers.Truthful (answers : Answers) (chain : History rt) : Prop where
  time : ∀ slot seconds, answers.getBlockTime slot = .ok (some seconds) →
    chain.slotTime slot = some seconds
  account : ∀ rule info, answers.getAccountInfo rule = .ok (some info) →
    info.owner = String.ofList PROGRAM_ID.chars → info.encoding = "base64" →
    subarray (Indexer.fromBase64 info.data) 0 8 = MANDATE_DISCRIMINATOR →
    ∃ m key mandate ledger, chain.Moment m ∧ m key = some (mandate, ledger) ∧
      key.display = rule ∧ Indexer.fromBase64 info.data = mandate.data
  row : ∀ rows known, answers.limitOne rows = some known → known ∈ rows
  someRow : ∀ rows, answers.limitOne rows = none → rows = []

/-! ## Identities -/

/-- The address was opened for this owner and this agent. -/
def History.Identifies (chain : History rt) (rule : String) (identity : Identity) : Prop :=
  ∃ key owner agent, chain.OpenedAs key owner agent ∧ key.display = rule ∧
    identity = ⟨owner.display, agent.display⟩

theorem History.Steady.identity_eq (h : chain.Steady) {key owner agent : Pubkey}
    (hopened : chain.OpenedAs key owner agent) (hidentifies : chain.Identifies key.display identity) :
    identity = ⟨owner.display, agent.display⟩ := by
  obtain ⟨other, owner', agent', hother, hkey, rfl⟩ := hidentifies
  obtain rfl := Pubkey.display_inj.mp hkey
  obtain ⟨rfl, rfl⟩ := h other owner agent owner' agent' hopened hother
  rfl

theorem identity_in_data (m : Mandate) :
    pubkeyText m.data 8 = m.owner.display ∧ pubkeyText m.data 40 = m.agent.display := by
  obtain ⟨rest, hdata⟩ := m.data_eq
  constructor
  · apply pubkeyText_eq
    rw [hdata]
    simp [MANDATE_DISCRIMINATOR, Mandate.fixed]
  · apply pubkeyText_eq
    rw [hdata]
    simp [MANDATE_DISCRIMINATOR, Mandate.fixed]

theorem accountIdentity_identifies (htrue : answers.Truthful chain) {rule : String}
    {value : Option AccountInfo} (hvalue : answers.getAccountInfo rule = .ok value)
    (hok : accountIdentity value = .ok identity) : chain.Identifies rule identity := by
  obtain ⟨info, hinfo, hread⟩ := bind_ok_iff.mp hok
  rw [okOr_eq_ok, Option.filter_eq_some_iff] at hinfo
  obtain ⟨rfl, hinfo⟩ := hinfo
  obtain ⟨howner, hencoding⟩ := of_decide_eq_true hinfo
  obtain ⟨⟨-, hdisc⟩, hread⟩ := require_bind_ok_iff.mp hread
  obtain ⟨m, key, mandate, ledger, hmoment, hthere, hrule, hdata⟩ :=
    htrue.account rule info hvalue howner hencoding hdisc
  cases hread
  rw [hdata, (identity_in_data mandate).1, (identity_in_data mandate).2]
  exact ⟨key, mandate.owner, mandate.agent, hmoment.opened hthere, hrule, rfl⟩

/-! ## The rows of the history -/

/-- A row of the instruction at this place. -/
def History.RowOf (chain : History rt) (tx : OnChain) (p : PlacedCall) (d : Decision) : Prop :=
  ∃ timestamp seconds record identity source, chain.slotTime tx.slot = some seconds ∧
    p.1.record (PlacedCall.location tx.signature tx.slot timestamp p) = some record ∧
    chain.Identifies record.mandate identity ∧
    d = record.row ⟨record.key, tx.slot, seconds * 1000⟩ identity source

/-- A row as it is apart from its source and its commitment. -/
def Decision.content (d : Decision) : Decision :=
  { d with commitment := .confirmed, source := .logs }

/-- The record of an instruction stands at its place and is about its mandate. -/
theorem record_mandate {owner agent key : Pubkey} {location : Location}
    (hruns : p.1.instr.Runs p.1.events) (hunder : VetoInstr.Under owner agent p.1.instr key)
    (h : p.1.record location = some record) :
    record.location = location ∧ record.mandate = key.display ∧
      ∀ opened, record = .openMandate opened →
        opened.owner = owner.display ∧ opened.agent = agent.display := by
  obtain ⟨⟨instr, more, trailing, events⟩, place⟩ := p
  dsimp only at hruns hunder h
  cases hunder with
  | openMandate accts args owned named =>
      obtain rfl := Option.some.inj h
      refine ⟨rfl, rfl, ?_⟩
      intro opened hopened
      obtain rfl := DecodedRecord.openMandate.inj hopened
      rw [← owned, ← named]
      exact ⟨rfl, rfl⟩
  | grantOverride key accts amount nonce =>
      obtain rfl := Option.some.inj h
      exact ⟨rfl, rfl, fun opened hopened => (nomatch hopened)⟩
  | revokeMandate key accts =>
      obtain rfl := Option.some.inj h
      exact ⟨rfl, rfl, fun opened hopened => (nomatch hopened)⟩
  | closeMandate key accts =>
      obtain rfl := Option.some.inj h
      exact ⟨rfl, rfl, fun opened hopened => (nomatch hopened)⟩
  | charge key accts amount nonce signed =>
      obtain ⟨event, rfl, hmandate, -, -⟩ := charge_event hruns
      obtain rfl := Option.some.inj h
      have hevent : (chargeRecord location accts.destination event).location = location ∧
          (chargeRecord location accts.destination event).decision.mandate = key.display := by
        rw [← hmandate]
        cases event <;> exact ⟨rfl, rfl⟩
      exact ⟨hevent.1, hevent.2, fun opened hopened => (nomatch hopened)⟩

/-- The row of a record does not depend on the record's own time. -/
theorem row_of_place {location location' : Location} {record' : DecodedRecord}
    (stored : IngestLocation) (identity : Identity) (source : Source)
    (h : p.1.record location = some record) (h' : p.1.record location' = some record') :
    record.row stored identity source = record'.row stored identity source := by
  obtain ⟨⟨instr, more, trailing, events⟩, place⟩ := p
  unfold VetoCall.record at h h'
  cases instr with
  | charge mandate a amount nonce =>
      dsimp only at h h'
      split at h
      · rename_i event
        obtain rfl := Option.some.inj h
        obtain rfl := Option.some.inj h'
        cases event <;> rfl
      · cases h
  | trade => cases h
  | other => cases h
  | _ =>
      obtain rfl := Option.some.inj h
      obtain rfl := Option.some.inj h'
      rfl

/-! ### One row for each place -/

theorem TxTrace.placed_places (t : TxTrace) : (t.placed.map Prod.snd).Nodup := by
  have hdistinct : t.topCalls.zipIdx.Pairwise fun c c' => c.2 ≠ c'.2 := by
    have hindexes : (t.topCalls.zipIdx.map Prod.snd).Nodup := by
      rw [List.zipIdx_map_snd]
      exact List.nodup_range'
    exact List.pairwise_map.mp hindexes
  unfold TxTrace.placed
  rw [List.map_flatMap, List.nodup_flatMap]
  refine ⟨?_, hdistinct.imp ?_⟩
  · intro c _
    have hinner : (c.1.2.calls.zipIdx.map fun inner => (c.2, some inner.2)).Nodup := by
      have hindexes : (c.1.2.calls.zipIdx.map Prod.snd).Nodup := by
        rw [List.zipIdx_map_snd]
        exact List.nodup_range'
      have hpairs := hindexes.map (f := fun inner => (c.2, some inner)) fun a b hab => by
        simpa using hab
      rwa [List.map_map] at hpairs
    rw [List.map_cons, List.map_map, List.nodup_cons]
    exact ⟨by simp, hinner⟩
  · intro c c' hne place hplace hplace'
    have hindex : ∀ c : (Invoked × TxTrace) × Nat, place ∈
        ((c.1.1, c.2, none) :: c.1.2.calls.zipIdx.map fun inner =>
          (inner.1, c.2, some inner.2) : List (Invoked × Nat × Option Nat)).map Prod.snd →
        place.1 = c.2 := by
      intro c hmem
      rw [List.map_cons, List.map_map] at hmem
      rcases List.mem_cons.mp hmem with rfl | hmem
      · rfl
      · obtain ⟨inner, -, rfl⟩ := List.mem_map.mp hmem
        rfl
    exact hne ((hindex c hplace).symm.trans (hindex c' hplace'))

theorem OnChain.placed_places (tx : OnChain) : (tx.placed.map Prod.snd).Nodup := by
  unfold OnChain.placed
  cases tx.trace with
  | none => exact List.nodup_nil
  | some t =>
      have hplaces : t.placed.Pairwise fun a b => a.2 ≠ b.2 := List.pairwise_map.mp t.placed_places
      unfold TxTrace.placedVeto
      rw [Option.elim_some, List.Nodup, List.pairwise_map, List.pairwise_filterMap]
      refine hplaces.imp ?_
      intro a a' hne c hc c' hc'
      obtain ⟨call, -, rfl⟩ := Option.map_eq_some_iff.mp hc
      obtain ⟨call', -, rfl⟩ := Option.map_eq_some_iff.mp hc'
      exact hne

/-- The key of the row of an instruction. -/
def OnChain.keyAt (tx : OnChain) (p : PlacedCall) : DecisionKey :=
  (PlacedCall.location tx.signature tx.slot none p).key

/-- A key names the transaction and the instruction. -/
theorem keyAt_inj {tx' : OnChain} {p' : PlacedCall} (htx : tx ∈ chain.transactions)
    (htx' : tx' ∈ chain.transactions) (hp : p ∈ tx.placed) (hp' : p' ∈ tx'.placed)
    (h : tx.keyAt p = tx'.keyAt p') : tx = tx' ∧ p = p' := by
  have hsignature : tx.signature = tx'.signature := congrArg DecisionKey.signature h
  obtain rfl := List.inj_on_of_nodup_map chain.distinct htx htx' hsignature
  refine ⟨rfl, List.inj_on_of_nodup_map tx.placed_places hp hp' ?_⟩
  exact place_of_key h

/-- The row has the key of its instruction. -/
theorem History.RowOf.key (h : chain.RowOf tx p d) (hruns : p.1.instr.Runs p.1.events)
    {owner agent key : Pubkey} (hunder : VetoInstr.Under owner agent p.1.instr key) :
    d.key = tx.keyAt p := by
  obtain ⟨timestamp, seconds, record, identity, source, -, hrecord, -, rfl⟩ := h
  have hlocation := (record_mandate hruns hunder hrecord).1
  change record.location.key = _
  rw [hlocation]
  rfl

/-! ## What an ingest adds -/

/-- The records are those of the transaction's instructions about mandates. -/
theorem OnChain.Shown.decoded (hshown : tx.Shown bs58 chain.slotTime raw)
    (htx : tx ∈ chain.transactions) (hok : recordsOf bs58 raw = .ok records) :
    List.Forall₂ (fun p record => p.1.record
        (PlacedCall.location tx.signature tx.slot raw.blockTime p) = some record)
      (tx.placed.filter fun p => p.1.instr.OfMandate) records := by
  unfold OnChain.placed
  cases htrace : tx.trace with
  | none =>
      obtain ⟨info, hinfo, herr⟩ := hshown.failed htrace
      unfold recordsOf decodeTransaction at hok
      rw [hinfo] at hok
      dsimp only at hok
      rw [if_pos herr] at hok
      cases hok
      exact .nil
  | some t =>
      have hshows := hshown.ran t htrace
      have hrun := chain.wellRun tx htx t htrace
      obtain ⟨signature, found, hsignature, hfound, hall⟩ :=
        records_of_decodable hshows hrun (decodable_of_ok hshows hrun hok)
      obtain rfl := Except.ok.inj (hok.symm.trans hfound)
      rw [hshown.signature] at hsignature
      obtain rfl := Option.some.inj hsignature
      rw [hshown.slot] at hall
      exact hall

theorem mem_of_forall₂ {α β : Type} {R : α → β → Prop} {l : List α} {l' : List β}
    (h : List.Forall₂ R l l') :
    (∀ a ∈ l, ∃ b ∈ l', R a b) ∧ ∀ b ∈ l', ∃ a ∈ l, R a b := by
  induction h with
  | nil => exact ⟨fun a ha => (nomatch ha), fun b hb => (nomatch hb)⟩
  | @cons a b l l' hab _ ih =>
      refine ⟨List.forall_mem_cons.mpr ⟨⟨b, List.mem_cons_self, hab⟩, ?_⟩,
        List.forall_mem_cons.mpr ⟨⟨a, List.mem_cons_self, hab⟩, ?_⟩⟩
      · intro c hc
        obtain ⟨d, hd, hcd⟩ := ih.1 c hc
        exact ⟨d, List.mem_cons_of_mem b hd, hcd⟩
      · intro d hd
        obtain ⟨c, hc, hcd⟩ := ih.2 d hd
        exact ⟨c, List.mem_cons_of_mem a hc, hcd⟩

/-- The row is one of a transaction of the history, and of one of these. -/
def History.Row (chain : History rt) (these : OnChain → Prop) (d : Decision) : Prop :=
  ∃ tx ∈ chain.transactions, these tx ∧ ∃ p ∈ tx.placed, p.1.instr.OfMandate = true ∧
    chain.RowOf tx p d

variable {these : OnChain → Prop}

theorem runs_of_placed (htx : tx ∈ chain.transactions) (hp : p ∈ tx.placed) :
    p.1.instr.Runs p.1.events := by
  unfold OnChain.placed at hp
  cases htrace : tx.trace with
  | none =>
      rw [htrace] at hp
      cases hp
  | some t =>
      rw [htrace] at hp
      exact runs_of_placedVeto (chain.wellRun tx htx t htrace) hp

/-- An instruction about a mandate is one of a tenure that was opened. -/
theorem under_of_placed (htx : tx ∈ chain.transactions) (hp : p ∈ tx.placed)
    (hof : p.1.instr.OfMandate = true) :
    ∃ key owner agent, chain.OpenedAs key owner agent ∧
      VetoInstr.Under owner agent p.1.instr key := by
  apply History.under_of_mem htx _ hof
  rw [← tx.placed_calls]
  exact List.mem_map_of_mem hp

/-- A stored row has an owner and agent that its rule was opened for. -/
theorem History.Row.identifies (h : chain.Row these d) :
    chain.Identifies d.rule ⟨d.owner, d.agent⟩ := by
  obtain ⟨tx, -, -, p, -, -, timestamp, seconds, record, identity, source, -, -, hidentity, rfl⟩ := h
  exact hidentity

theorem ruleIdentity_identifies (htrue : answers.Truthful chain) {decisions : List Decision}
    (hrows : ∀ d ∈ decisions, chain.Row these d) {rule : String}
    (hok : ruleIdentity decisions rule answers = .ok identity) :
    chain.Identifies rule identity := by
  unfold ruleIdentity at hok
  cases hknown : answers.limitOne (decisions.filter fun d => d.rule = rule) with
  | some known =>
      rw [hknown] at hok
      cases hok
      obtain ⟨hmem, hrule⟩ := List.mem_filter.mp (htrue.row _ known hknown)
      have hidentifies := (hrows known hmem).identifies
      rwa [of_decide_eq_true hrule] at hidentifies
  | none =>
      rw [hknown] at hok
      obtain ⟨value, hvalue, hok⟩ := bind_ok_iff.mp hok
      exact accountIdentity_identifies htrue hvalue hok

/-- The time of a row is the time of its slot. -/
theorem slotTime_of_stored (htrue : answers.Truthful chain)
    (hshown : tx.Shown bs58 chain.slotTime raw) {time : Option Int} {seconds : Int}
    (htime : slotTimeOf raw answers = .ok time) (h : raw.blockTime.or time = some seconds) :
    chain.slotTime tx.slot = some seconds := by
  unfold slotTimeOf at htime
  cases hblock : raw.blockTime with
  | some own =>
      rw [hblock] at h
      rcases hshown.time with hnone | hsame
      · rw [hblock] at hnone
        cases hnone
      · rw [← hsame, hblock]
        exact h
  | none =>
      rw [hblock] at h htime
      obtain rfl : time = some seconds := h
      rw [← hshown.slot]
      exact htrue.time raw.slot seconds htime

/-- What an ingest inserts is a row of its transaction. -/
theorem rowOf_inserted (htrue : answers.Truthful chain) (htx : tx ∈ chain.transactions)
    (hshown : tx.Shown bs58 chain.slotTime raw) (hok : recordsOf bs58 raw = .ok records)
    {time : Option Int} (htime : slotTimeOf raw answers = .ok time) (hrecord : record ∈ records)
    {decisions : List Decision} (hrows : ∀ d ∈ decisions, chain.Row these d)
    {location : IngestLocation} (hlocation : ingestLocation record.location time = .ok location)
    (hidentity : record.identity decisions answers = .ok identity) (source : Source) :
    ∃ p ∈ tx.placed, p.1.instr.OfMandate = true ∧
      chain.RowOf tx p (record.row location identity source) := by
  obtain ⟨p, hmem, hfrom⟩ := (mem_of_forall₂ (hshown.decoded htx hok)).2 record hrecord
  obtain ⟨hp, hof⟩ := List.mem_filter.mp hmem
  obtain ⟨key, owner, agent, hopened, hunder⟩ := under_of_placed htx hp hof
  obtain ⟨hplace, hmandate, hopening⟩ := record_mandate (runs_of_placed htx hp) hunder hfrom
  obtain ⟨seconds, hseconds, rfl⟩ := ingestLocation_eq hlocation
  rw [hplace] at hseconds
  have hslot : record.location.slot = tx.slot := by
    rw [hplace]
    rfl
  rw [hslot]
  refine ⟨p, hp, hof, raw.blockTime, seconds, record, identity, source,
    slotTime_of_stored htrue hshown htime hseconds, hfrom, ?_, rfl⟩
  have hother : ruleIdentity decisions record.mandate answers = .ok identity →
      chain.Identifies record.mandate identity := ruleIdentity_identifies htrue hrows
  cases record with
  | openMandate opened =>
      cases hidentity
      obtain ⟨howner, hagent⟩ := hopening opened rfl
      rw [howner, hagent, hmandate]
      exact ⟨key, owner, agent, hopened, rfl, rfl⟩
  | grantOverride granted => exact hother hidentity
  | revokeMandate revoked => exact hother hidentity
  | closeMandate closed => exact hother hidentity
  | charge charged => exact hother hidentity

/-! ## Where no address changes hands -/

/-- The row of a charge has the agent who signed it. -/
theorem History.RowOf.agent_eq (h : chain.RowOf tx p d) (hsteady : chain.Steady)
    (htx : tx ∈ chain.transactions) (hp : p ∈ tx.placed) {mandate : Pubkey} {accts : Charge}
    {amount nonce : UInt64} (hcharge : p.1.instr = .charge mandate accts amount nonce) :
    d.agent = accts.agent.display := by
  obtain ⟨timestamp, seconds, record, identity, source, -, hrecord, hidentity, rfl⟩ := h
  have hof : p.1.instr.OfMandate = true := by
    rw [hcharge]
    rfl
  obtain ⟨key, owner, agent, hopened, hunder⟩ := under_of_placed htx hp hof
  rw [(record_mandate (runs_of_placed htx hp) hunder hrecord).2.1] at hidentity
  obtain rfl := hsteady.identity_eq hopened hidentity
  rw [hcharge] at hunder
  cases hunder with
  | charge _ _ _ _ signed =>
      change agent.display = _
      rw [signed]

/-- An instruction has one row, apart from its source and its commitment. -/
theorem History.RowOf.content_eq (h : chain.RowOf tx p d) (h' : chain.RowOf tx p d')
    (hsteady : chain.Steady) (htx : tx ∈ chain.transactions) (hp : p ∈ tx.placed)
    (hof : p.1.instr.OfMandate = true) : d.content = d'.content := by
  obtain ⟨key, owner, agent, hopened, hunder⟩ := under_of_placed htx hp hof
  have hruns := runs_of_placed htx hp
  obtain ⟨timestamp, seconds, record, identity, source, htime, hrecord, hidentity, rfl⟩ := h
  obtain ⟨timestamp', seconds', record', identity', source', htime', hrecord', hidentity', rfl⟩ := h'
  obtain ⟨hplace, hmandate, -⟩ := record_mandate hruns hunder hrecord
  obtain ⟨hplace', hmandate', -⟩ := record_mandate hruns hunder hrecord'
  obtain rfl := Option.some.inj (htime.symm.trans htime')
  rw [hmandate] at hidentity
  rw [hmandate'] at hidentity'
  obtain rfl := hsteady.identity_eq hopened hidentity
  obtain rfl := hsteady.identity_eq hopened hidentity'
  have hkey : record.key = record'.key := by
    unfold DecodedRecord.key
    rw [hplace, hplace']
    rfl
  have hrow := row_of_place ⟨record.key, tx.slot, seconds * 1000⟩
    ⟨owner.display, agent.display⟩ source hrecord hrecord'
  rw [← hkey, hrow]
  rfl

end Veto.Service

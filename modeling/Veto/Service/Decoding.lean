import Veto.Service.Committed

/-!
# One instruction decoded

What the decoder reads of each instruction of the program: the accounts by name and the
arguments, and an error where bytes stand behind them.
-/

namespace Veto.Service

open Foundation

/-! ## The record of an instruction -/

/-- The outcome of a charge, at its place. -/
def chargeRecord (location : Location) (destination : Pubkey) : MandateEvent → ChargeDecision
  | .paid mandate amount nonce _ =>
    { location
      decision := {
        rule := none, amountIn := none, amountOut := none, minOut := none
        signature := location.signature
        slot := location.slot
        timestamp := location.timestamp
        mandate := mandate.display
        amount := amount.toNat
        nonce := nonce.toNat
        counterparty := destination.display
        kind := .paid
        reason := 0
        reasonText := Indexer.reasonText 0
        suggestedOverride := 0 } }
  | .refused mandate amount nonce reason suggestedOverride =>
    { location
      decision := {
        rule := none, amountIn := none, amountOut := none, minOut := none
        signature := location.signature
        slot := location.slot
        timestamp := location.timestamp
        mandate := mandate.display
        amount := amount.toNat
        nonce := nonce.toNat
        counterparty := destination.display
        kind := .refused
        reason := reason.code.toNat
        reasonText := Indexer.reasonText reason.code
        suggestedOverride := suggestedOverride.toNat } }

/-- The record that a run should leave. -/
def VetoCall.record (location : Location) (call : VetoCall) : Option DecodedRecord :=
  match call.instr with
  | .openMandate a args => some (.openMandate { location with
      owner := a.owner.display
      mandate := a.mandate.display
      ledger := a.ledger.display
      source := a.source.display
      mint := a.mint.display
      tokenProgram := a.tokenProgram.display
      systemProgram := systemProgramId.display
      mandateId := args.mandateId
      agent := args.agent.display
      merchant := args.merchant.display
      cap := args.cap
      perTxMax := args.perTxMax
      expiresAt := args.expiresAt
      purpose := withoutMark args.purpose })
  | .grantOverride mandate a amount nonce => some (.grantOverride { location with
      owner := a.owner.display
      mandate := mandate.display
      ledger := a.ledger.display
      source := a.source.display
      tokenProgram := a.tokenProgram.display
      amount
      nonce })
  | .revokeMandate mandate a => some (.revokeMandate { location with
      owner := a.owner.display
      mandate := mandate.display
      ledger := a.ledger.display
      source := a.source.display
      tokenProgram := a.tokenProgram.display })
  | .closeMandate mandate a => some (.closeMandate { location with
      owner := a.owner.display
      mandate := mandate.display
      ledger := a.ledger.display })
  | .charge _ a _ _ =>
    match call.events with
    | [.mandate event] => some (.charge (chargeRecord location a.destination event))
    | _ => none
  | _ => none

/-! ## The bytes of an instruction -/

section Data

variable {owner : OwnerRecord} {account : String → String} {trailing : Bytes}
  {record : DecodedRecord}

theorem throwUnless_bind_ok_iff {α : Type} {c : Prop} [Decidable c] {message : String}
    {next : Unit → Except Thrown α} {b : α} :
    (throwUnless c message >>= next) = .ok b ↔ c ∧ next () = .ok b := require_bind_ok_iff

theorem decodeText_bytes (text : String) : decodeText (utf8Bytes text) = .ok (withoutMark text) := by
  unfold decodeText
  rw [utf8Text_bytes, if_pos rfl]

theorem pubkeyText_eq {data : Bytes} {start : Nat} {key : Pubkey}
    (h : subarray data start (start + 32) = key.toBytes) : pubkeyText data start = key.display := by
  rw [pubkeyText, h, Pubkey.ofBytes_toBytes]

theorem decodeOpenMandate_bytes {args : OpenMandateArgs}
    (hlength : (utf8Bytes args.purpose).length < 2 ^ 32) :
    decodeOpenMandate owner account (OPEN_MANDATE_DISCRIMINATOR ++ (args.bytes ++ trailing)) =
        .ok record ↔
      trailing = [] ∧ record = .openMandate { owner with
        source := account "source"
        mint := account "mint"
        tokenProgram := account "token_program"
        systemProgram := account "system_program"
        mandateId := args.mandateId
        agent := args.agent.display
        merchant := args.merchant.display
        cap := args.cap
        perTxMax := args.perTxMax
        expiresAt := args.expiresAt
        purpose := withoutMark args.purpose } := by
  generalize hdata : OPEN_MANDATE_DISCRIMINATOR ++ (args.bytes ++ trailing) = data
  have hcount : data.length = 108 + (utf8Bytes args.purpose).length + trailing.length := by
    rw [← hdata]
    simp [OPEN_MANDATE_DISCRIMINATOR, OpenMandateArgs.bytes]
    omega
  have hread : readUInt32LE data 104 = .ok (UInt32.ofNat (utf8Bytes args.purpose).length) := by
    apply readUInt32LE_eq
    rw [← hdata, UInt32.toNat_ofNat_of_lt' hlength]
    simp [OPEN_MANDATE_DISCRIMINATOR, OpenMandateArgs.bytes]
  have hagent : pubkeyText data 16 = args.agent.display := pubkeyText_eq (by
    rw [← hdata]
    simp [OPEN_MANDATE_DISCRIMINATOR, OpenMandateArgs.bytes])
  have hmerchant : pubkeyText data 48 = args.merchant.display := pubkeyText_eq (by
    rw [← hdata]
    simp [OPEN_MANDATE_DISCRIMINATOR, OpenMandateArgs.bytes])
  have hid : readBigUInt64LE data 8 = .ok args.mandateId := readBigUInt64LE_eq (by
    rw [← hdata]
    simp [OPEN_MANDATE_DISCRIMINATOR, OpenMandateArgs.bytes])
  have hcap : readBigUInt64LE data 80 = .ok args.cap := readBigUInt64LE_eq (by
    rw [← hdata]
    simp [OPEN_MANDATE_DISCRIMINATOR, OpenMandateArgs.bytes])
  have hmax : readBigUInt64LE data 88 = .ok args.perTxMax := readBigUInt64LE_eq (by
    rw [← hdata]
    simp [OPEN_MANDATE_DISCRIMINATOR, OpenMandateArgs.bytes])
  have hexpires : readBigInt64LE data 96 = .ok args.expiresAt := readBigInt64LE_eq (by
    rw [← hdata]
    simp [OPEN_MANDATE_DISCRIMINATOR, OpenMandateArgs.bytes])
  have hpurpose : data.drop 108 = utf8Bytes args.purpose ++ trailing := by
    let front : Bytes := OPEN_MANDATE_DISCRIMINATOR ++ (toLE 8 args.mandateId.toNat ++
      (args.agent.toBytes ++ (args.merchant.toBytes ++ (toLE 8 args.cap.toNat ++
      (toLE 8 args.perTxMax.toNat ++ (toLE 8 args.expiresAt.toUInt64.toNat ++
      toLE 4 (utf8Bytes args.purpose).length))))))
    have hsplit : data = front ++ (utf8Bytes args.purpose ++ trailing) := by
      rw [← hdata]
      simp only [front, OpenMandateArgs.bytes, List.append_assoc]
    have hfront : front.length = 108 := by simp [front, OPEN_MANDATE_DISCRIMINATOR]
    rw [hsplit, List.drop_left' hfront]
  unfold decodeOpenMandate
  rw [hread, ok_bind, throwUnless_bind_ok_iff, UInt32.toNat_ofNat_of_lt' hlength, hcount, hid,
    hcap, hmax, hexpires, hpurpose, hagent, hmerchant]
  by_cases hnone : trailing = []
  · rw [hnone, List.append_nil, decodeText_bytes]
    simp only [List.length_nil, Nat.add_zero, true_and]
    exact ⟨fun h => (Except.ok.inj h).symm, fun h => congrArg Except.ok h.symm⟩
  · have hpos := List.length_pos_of_ne_nil hnone
    simp only [hnone, false_and, iff_false]
    rintro ⟨hend, -⟩
    omega

/-- The two numbers behind a discriminator. -/
theorem reads_numbers {disc : Bytes} (hdisc : disc.length = 8) (amount nonce : UInt64)
    (trailing : Bytes) :
    let data := disc ++ (toLE 8 amount.toNat ++ toLE 8 nonce.toNat ++ trailing)
    data.length = 24 + trailing.length ∧ readBigUInt64LE data 8 = .ok amount ∧
      readBigUInt64LE data 16 = .ok nonce := by
  refine ⟨?_, ?_, ?_⟩
  · simp only [List.length_append, length_toLE, hdisc]
    omega
  · apply readBigUInt64LE_eq
    rw [subarray_append_right (le_of_eq hdisc), hdisc, List.append_assoc]
    exact subarray_append_left (length_toLE 8 _)
  · apply readBigUInt64LE_eq
    rw [subarray_append_right (by omega), hdisc, List.append_assoc,
      subarray_append_right (by rw [length_toLE]), length_toLE]
    exact subarray_append_left (length_toLE 8 _)

theorem decodeGrantOverride_bytes {amount nonce : UInt64} :
    decodeGrantOverride owner account (GRANT_OVERRIDE_DISCRIMINATOR ++
        (toLE 8 amount.toNat ++ toLE 8 nonce.toNat ++ trailing)) = .ok record ↔
      trailing = [] ∧ record = .grantOverride { owner with
        source := account "source"
        tokenProgram := account "token_program"
        amount
        nonce } := by
  have hdisc : GRANT_OVERRIDE_DISCRIMINATOR.length = 8 := rfl
  obtain ⟨hcount, hamount, hnonce⟩ := reads_numbers hdisc amount nonce trailing
  unfold decodeGrantOverride
  rw [throwUnless_bind_ok_iff, hcount, hamount, hnonce, ← List.length_eq_zero_iff]
  constructor
  · rintro ⟨hend, h⟩
    exact ⟨by omega, (Except.ok.inj h).symm⟩
  · rintro ⟨hend, rfl⟩
    exact ⟨by omega, rfl⟩

theorem decodeRevokeMandate_bytes :
    decodeRevokeMandate owner account (REVOKE_MANDATE_DISCRIMINATOR ++ trailing) = .ok record ↔
      trailing = [] ∧ record = .revokeMandate { owner with
        source := account "source"
        tokenProgram := account "token_program" } := by
  have hcount : (REVOKE_MANDATE_DISCRIMINATOR ++ trailing).length = 8 + trailing.length :=
    List.length_append
  unfold decodeRevokeMandate
  rw [throwUnless_bind_ok_iff, hcount, ← List.length_eq_zero_iff]
  constructor
  · rintro ⟨hend, h⟩
    exact ⟨by omega, (Except.ok.inj h).symm⟩
  · rintro ⟨hend, rfl⟩
    exact ⟨by omega, rfl⟩

theorem decodeCloseMandate_bytes :
    decodeCloseMandate owner (CLOSE_MANDATE_DISCRIMINATOR ++ trailing) = .ok record ↔
      trailing = [] ∧ record = .closeMandate owner := by
  have hcount : (CLOSE_MANDATE_DISCRIMINATOR ++ trailing).length = 8 + trailing.length :=
    List.length_append
  unfold decodeCloseMandate
  rw [throwUnless_bind_ok_iff, hcount, ← List.length_eq_zero_iff]
  constructor
  · rintro ⟨hend, h⟩
    exact ⟨by omega, (Except.ok.inj h).symm⟩
  · rintro ⟨hend, rfl⟩
    exact ⟨by omega, rfl⟩

theorem decodeCharge_bytes {location : Location} {remaining : List Indexer.Decision}
    {amount nonce : UInt64} {result : DecodedRecord × List Indexer.Decision} :
    decodeCharge account (CHARGE_DISCRIMINATOR ++
        (toLE 8 amount.toNat ++ toLE 8 nonce.toNat ++ trailing)) location remaining =
        .ok result ↔
      trailing = [] ∧ ∃ index decision,
        remaining.findIdx? (fun d => d.mandate = account "mandate" ∧ d.amount = amount.toNat ∧
          d.nonce = nonce.toNat) = some index ∧
        remaining[index]? = some decision ∧
        result = (.charge { location, decision := { decision with
          counterparty := account "destination" } }, remaining.eraseIdx index) := by
  have hdisc : CHARGE_DISCRIMINATOR.length = 8 := rfl
  obtain ⟨hcount, hamount, hnonce⟩ := reads_numbers hdisc amount nonce trailing
  unfold decodeCharge
  rw [throwUnless_bind_ok_iff, hcount, hamount, hnonce, ← List.length_eq_zero_iff]
  have hend : 24 + trailing.length = 24 ↔ trailing.length = 0 := by omega
  rw [hend, and_congr_right_iff]
  intro _
  simp only [ok_bind]
  constructor
  · intro h
    split at h
    · cases h
    · rename_i index hfound
      obtain ⟨decision, hdecision, h⟩ := bind_ok_iff.mp h
      exact ⟨index, decision, hfound, okOr_eq_ok.mp hdecision, (Except.ok.inj h).symm⟩
  · rintro ⟨index, decision, hfound, hdecision, rfl⟩
    rw [hfound]
    dsimp only
    rw [hdecision]
    rfl

end Data

/-! ## One instruction -/

section Instruction

variable {call : VetoCall} {signature : String} {slot : Int} {timestamp : Option Int}
  {index : Nat} {inner : Option Nat} {veto : Logs.ProgramId}
  {state state' : List DecodedRecord × List Indexer.Decision}

/-- The instruction as the decoder sees it. -/
def VetoCall.located (veto : Logs.ProgramId) (call : VetoCall) (index : Nat)
    (inner : Option Nat) : LocatedInstruction :=
  (Invoked.veto call).located veto index inner

theorem layoutOf_located :
    layoutOf (call.located veto index inner).data =
      layouts.find? fun layout => call.instr.discriminator = layout.discriminator := by
  have hdisc : subarray call.data 0 8 = call.instr.discriminator :=
    subarray_append_left call.instr.length_discriminator
  unfold layoutOf
  simp only [VetoCall.located, Invoked.located, Invoked.data, hdisc]

/-- What the decoder has no record for it passes over. -/
theorem decodeNext_other (h : call.instr.OfMandate = false) :
    decodeNext signature slot timestamp state (call.located veto index inner) = .ok state := by
  have hnone : layoutOf (call.located veto index inner).data = none := by
    rw [layoutOf_located]
    cases hinstr : call.instr with
    | trade => rfl
    | other name => cases name <;> rfl
    | _ =>
        rw [hinstr] at h
        cases h
  rw [decodeNext, hnone]

theorem decodeNext_ok_iff {ix : LocatedInstruction} {layout : Layout}
    (h : layoutOf ix.data = some layout) :
    decodeNext signature slot timestamp state ix = .ok state' ↔ ∃ record remaining,
      decodeInstruction { signature, slot, timestamp, instructionIndex := ix.instructionIndex
                          innerInstructionIndex := ix.innerInstructionIndex } layout ix state.2 =
        .ok (record, remaining) ∧ state' = (state.1 ++ [record], remaining) := by
  rw [decodeNext, h]
  dsimp only
  split
  · rename_i record remaining hdecoded
    rw [hdecoded]
    constructor
    · intro hok
      exact ⟨record, remaining, rfl, (Except.ok.inj hok).symm⟩
    · rintro ⟨record', remaining', hsame, rfl⟩
      cases hsame
      rfl
  · rename_i error hdecoded
    rw [hdecoded]
    simp

/-- The accounts that a layout names are there. -/
theorem length_accounts (call : VetoCall) :
    call.instr.accounts.length ≤ (call.located veto index inner).accounts.length := by
  unfold VetoCall.located Invoked.located Invoked.accounts VetoCall.accounts
  rw [List.length_map, List.length_append]
  exact Nat.le_add_right _ _

/-- A record that leaves the decisions as they are. -/
theorem decodeNext_of_decoder {ix : LocatedInstruction} {name : IxName} {trailing : Bytes}
    {decoder : Except Thrown DecodedRecord} {expected : DecodedRecord}
    (hlayout : layoutOf ix.data = some (.of name))
    (hcount : (Layout.of name).accounts.length ≤ ix.accounts.length)
    (hinstr : throwUnless ((Layout.of name).accounts.length ≤ ix.accounts.length)
        "Missing instruction accounts" = .ok () →
      decodeInstruction { signature, slot, timestamp, instructionIndex := ix.instructionIndex
                          innerInstructionIndex := ix.innerInstructionIndex } (.of name) ix
        state.2 = (do return (← decoder, state.2)))
    (hdecoder : ∀ record, decoder = .ok record ↔ trailing = [] ∧ record = expected) :
    decodeNext signature slot timestamp state ix = .ok state' ↔
      trailing = [] ∧ ∃ record, some expected = some record ∧
        state' = (state.1 ++ [record], state.2) := by
  rw [decodeNext_ok_iff hlayout, hinstr (if_pos hcount)]
  constructor
  · rintro ⟨record, remaining, hdecoded, rfl⟩
    obtain ⟨read, hread, hsame⟩ := bind_ok_iff.mp hdecoded
    obtain ⟨hnone, rfl⟩ := (hdecoder read).mp hread
    cases hsame
    exact ⟨hnone, _, rfl, rfl⟩
  · rintro ⟨hnone, record, hsame, rfl⟩
    cases hsame
    have hread := (hdecoder expected).mpr ⟨hnone, rfl⟩
    exact ⟨expected, state.2, by rw [hread]; rfl, rfl⟩

/-- The purpose of a mandate that opens is short. -/
theorem purpose_short {a : OpenMandate} {args : OpenMandateArgs} {events : List VetoEvent}
    (h : (VetoInstr.openMandate a args).Runs events) :
    (utf8Bytes args.purpose).length < 2 ^ 32 := by
  cases h with
  | openMandate h =>
      have hshort := VetoInstr.openMandate_purpose h
      have hbytes := length_utf8Bytes_le args.purpose
      unfold PURPOSE_MAX_LEN at hshort
      omega

theorem decodeNext_record (hruns : call.instr.Runs call.events)
    (h : call.instr.OfMandate = true) (hcharge : ∀ m a x n, call.instr ≠ .charge m a x n) :
    decodeNext signature slot timestamp state (call.located veto index inner) = .ok state' ↔
      call.trailing = [] ∧ ∃ record,
        call.record { signature, slot, timestamp, instructionIndex := index
                      innerInstructionIndex := inner } = some record ∧
        state' = (state.1 ++ [record], state.2) := by
  obtain ⟨instr, more, trailing, events⟩ := call
  cases instr with
  | openMandate a args =>
      apply decodeNext_of_decoder layoutOf_located
      · exact length_accounts ⟨.openMandate a args, more, trailing, events⟩
      · intro hcount
        rw [decodeInstruction, hcount]
        rfl
      · intro record
        exact decodeOpenMandate_bytes (purpose_short hruns)
  | grantOverride mandate a amount nonce =>
      apply decodeNext_of_decoder layoutOf_located
      · exact length_accounts ⟨.grantOverride mandate a amount nonce, more, trailing, events⟩
      · intro hcount
        rw [decodeInstruction, hcount]
        rfl
      · intro record
        exact decodeGrantOverride_bytes
  | revokeMandate mandate a =>
      apply decodeNext_of_decoder layoutOf_located
      · exact length_accounts ⟨.revokeMandate mandate a, more, trailing, events⟩
      · intro hcount
        rw [decodeInstruction, hcount]
        rfl
      · intro record
        exact decodeRevokeMandate_bytes
  | closeMandate mandate a =>
      apply decodeNext_of_decoder layoutOf_located
      · exact length_accounts ⟨.closeMandate mandate a, more, trailing, events⟩
      · intro hcount
        rw [decodeInstruction, hcount]
        rfl
      · intro record
        exact decodeCloseMandate_bytes
  | charge mandate a amount nonce => exact absurd rfl (hcharge mandate a amount nonce)
  | _ => cases h

theorem charge_event {mandate : Pubkey} {a : Charge} {amount nonce : UInt64}
    {events : List VetoEvent} (h : (VetoInstr.charge mandate a amount nonce).Runs events) :
    ∃ event : MandateEvent, events = [.mandate event] ∧
      (Indexer.DecodedEvent.of event).mandate = mandate ∧
      (Indexer.DecodedEvent.of event).amount = amount ∧
      (Indexer.DecodedEvent.of event).nonce = nonce := by
  cases h with
  | charge h =>
      rcases charge_emits h with ⟨spent, -, hevents⟩ | ⟨reason, suggestion, -, -, hevents⟩
      · exact ⟨_, by rw [hevents]; rfl, rfl, rfl, rfl⟩
      · exact ⟨_, by rw [hevents]; rfl, rfl, rfl, rfl⟩

variable {mandate : Pubkey} {a : Charge} {amount nonce : UInt64} {more : List Pubkey}
  {trailing : Bytes} {events : List VetoEvent}

theorem decodeNext_charge (hcall : call = ⟨.charge mandate a amount nonce, more, trailing, events⟩) :
    decodeNext signature slot timestamp state (call.located veto index inner) = .ok state' ↔
      trailing = [] ∧ ∃ place decision,
        state.2.findIdx? (fun d => d.mandate = mandate.display ∧ d.amount = amount.toNat ∧
          d.nonce = nonce.toNat) = some place ∧
        state.2[place]? = some decision ∧
        state' = (state.1 ++ [.charge {
          location := { signature, slot, timestamp, instructionIndex := index
                        innerInstructionIndex := inner }
          decision := { decision with counterparty := a.destination.display } }],
          state.2.eraseIdx place) := by
  subst hcall
  let call : VetoCall := ⟨.charge mandate a amount nonce, more, trailing, events⟩
  let ix := call.located veto index inner
  have hlayout : layoutOf ix.data = some (.of .charge) := layoutOf_located
  have hcount : (Layout.of .charge).accounts.length ≤ ix.accounts.length := length_accounts call
  have hdecode : ∀ (location : Location) (result : DecodedRecord × List Indexer.Decision),
      decodeInstruction location (.of .charge) ix state.2 = .ok result ↔
        trailing = [] ∧ ∃ place decision,
          state.2.findIdx? (fun d => d.mandate = mandate.display ∧ d.amount = amount.toNat ∧
            d.nonce = nonce.toNat) = some place ∧
          state.2[place]? = some decision ∧
          result = (.charge { location, decision := { decision with
            counterparty := a.destination.display } }, state.2.eraseIdx place) := by
    intro location result
    rw [decodeInstruction, throwUnless_bind_ok_iff, and_iff_right hcount]
    exact decodeCharge_bytes
  change decodeNext signature slot timestamp state ix = _ ↔ _
  rw [decodeNext_ok_iff hlayout]
  simp only [hdecode]
  constructor
  · rintro ⟨record, remaining, ⟨hnone, place, decision, hfound, hdecision, hsame⟩, rfl⟩
    cases hsame
    exact ⟨hnone, place, decision, hfound, hdecision, rfl⟩
  · rintro ⟨hnone, place, decision, hfound, hdecision, rfl⟩
    exact ⟨_, _, ⟨hnone, place, decision, hfound, hdecision, rfl⟩, rfl⟩

end Instruction

end Veto.Service

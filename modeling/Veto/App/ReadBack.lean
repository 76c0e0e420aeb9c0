import Veto.App.OpenPaths

/-!
# What the program and the service read of what the app writes

The instruction of a rule is read back as it was given exactly when its id is not before 1970, its
expiry fits the word and its purpose can be written.  The service drops a byte order mark at the
head of the purpose, which the program keeps.
-/

namespace Veto.App

open Foundation Service

/-! ## The words and the text of a value -/

section Words

variable {value : Int}

theorem toNat_ofInt_iff (h : value < 2 ^ 64) :
    ((UInt64.ofInt value).toNat : Int) = value ↔ 0 ≤ value := by
  have hnonneg : 0 ≤ value % 2 ^ 64 := Int.emod_nonneg value (by norm_num)
  have hbelow : value % 2 ^ 64 < 2 ^ 64 := Int.emod_lt_of_pos value (by norm_num)
  have hword : ((UInt64.ofInt value).toNat : Int) = value % 2 ^ 64 := by
    rw [UInt64.ofInt, UInt64.toNat_ofNat_of_lt' (by unfold UInt64.size; omega)]
    exact Int.toNat_of_nonneg hnonneg
  rw [hword]
  constructor
  · intro hkeeps
    rw [← hkeeps]
    exact hnonneg
  · intro hpos
    exact Int.emod_eq_of_lt hpos h

theorem toInt_ofInt_iff (h : -2 ^ 63 ≤ value) :
    (Int64.ofInt value).toInt = value ↔ value < 2 ^ 63 := by
  constructor
  · intro hkeeps
    rw [← hkeeps]
    exact (Int64.ofInt value).toInt_lt
  · intro hbelow
    exact Int64.toInt_ofInt_of_le h hbelow

variable {purpose : JsString}

theorem js_writtenText : js (writtenText purpose) = utf16 (lossyUtf16 purpose) := by
  rw [writtenText, js, String.toList_ofList]

theorem writtenText_iff :
    js (writtenText purpose) = purpose ↔ isWellFormedUtf16 purpose = true := by
  rw [js_writtenText]
  exact utf16_lossy_iff

/-- The mark is the only character that its unit writes. -/
theorem head_lossyUtf16 (h : purpose.head? = some 0xfeff) :
    ∃ rest, lossyUtf16 purpose = '\ufeff' :: rest := by
  match purpose with
  | [] => cases h
  | [unit] =>
      cases h
      exact ⟨[], rfl⟩
  | unit :: next :: rest =>
      cases h
      exact ⟨lossyUtf16 (next :: rest), rfl⟩

/-- The service reads the purpose without the mark at its head, so it is the purpose that was
given where there is none to drop. -/
theorem withoutMark_writtenText_iff : js (withoutMark (writtenText purpose)) = purpose ↔
    isWellFormedUtf16 purpose = true ∧ purpose.head? ≠ some 0xfeff := by
  by_cases hmark : ∃ rest, lossyUtf16 purpose = '\ufeff' :: rest
  · obtain ⟨rest, hrest⟩ := hmark
    have hdropped : js (withoutMark (writtenText purpose)) = utf16 rest := by
      rw [writtenText, withoutMark, String.toList_ofList, hrest]
      exact congrArg utf16 String.toList_ofList
    rw [hdropped]
    constructor
    · -- A text has one character less than what is written of it.
      intro hkeeps
      have hcount := congrArg List.length hrest
      have hread := lossyUtf16_of_decode (decodeUtf16_utf16 rest)
      rw [← hkeeps, hread, List.length_cons] at hcount
      omega
    · rintro ⟨hformed, hhead⟩
      have hpurpose := utf16_lossy_iff.mpr hformed
      rw [hrest, utf16_cons] at hpurpose
      refine absurd ?_ hhead
      rw [← hpurpose]
      rfl
  · have hkept : withoutMark (writtenText purpose) = writtenText purpose := by
      rw [withoutMark, writtenText, String.toList_ofList]
      split
      · rename_i rest hrest
        exact absurd ⟨rest, hrest⟩ hmark
      · rfl
    rw [hkept, writtenText_iff, iff_self_and]
    intro _ hhead
    exact hmark (head_lossyUtf16 hhead)

/-- A purpose that the app lets through is measured by its length field. -/
theorem writtenText_length (h : codePointLength purpose ≤ 64) :
    (utf8Bytes (writtenText purpose)).length < 2 ^ 32 := by
  have hbytes := length_utf8Bytes_le (writtenText purpose)
  rw [writtenText, String.length_ofList, length_lossyUtf16] at hbytes
  unfold writtenText
  omega

end Words

/-! ## What is read back -/

/-- The arguments say what was given. -/
structure OpenMandateValues.Tells (v : OpenMandateValues) (args : OpenMandateArgs) : Prop where
  mandateId : (args.mandateId.toNat : Int) = v.mandateId
  agent : args.agent = v.agent
  merchant : args.merchant = v.merchant
  cap : (args.cap.toNat : Int) = v.cap
  perTxMax : (args.perTxMax.toNat : Int) = v.perTxMax
  expiresAt : args.expiresAt.toInt = v.expiresAt
  purpose : js args.purpose = v.purpose

/-- The record of the service says what was given. -/
structure OpenMandateValues.Recorded (v : OpenMandateValues) (record : OpenMandateRecord) :
    Prop where
  mandateId : (record.mandateId.toNat : Int) = v.mandateId
  agent : record.agent = v.agent.display
  merchant : record.merchant = v.merchant.display
  cap : (record.cap.toNat : Int) = v.cap
  perTxMax : (record.perTxMax.toNat : Int) = v.perTxMax
  expiresAt : record.expiresAt.toInt = v.expiresAt
  purpose : js record.purpose = v.purpose

structure OpenTradeValues.Tells (v : OpenTradeValues) (args : OpenTradeRuleArgs) : Prop where
  ruleId : (args.ruleId.toNat : Int) = v.ruleId
  agent : args.agent = v.agent
  exchangeKind : args.exchangeKind = v.exchangeKind
  cap : (args.cap.toNat : Int) = v.cap
  perTradeMax : (args.perTradeMax.toNat : Int) = v.perTradeMax
  dailyLimit : (args.dailyLimit.toNat : Int) = v.dailyLimit
  floorNum : (args.floorNum.toNat : Int) = v.floorNum
  floorDen : (args.floorDen.toNat : Int) = v.floorDen
  expiresAt : args.expiresAt.toInt = v.expiresAt
  purpose : js args.purpose = v.purpose

/-- The program takes the data for its instruction and reads arguments of which `P` holds. -/
def ReadByProgram {α : Type} (disc : Bytes) (args : Cursor BorshError α) (P : α → Prop)
    (data : Bytes) : Prop :=
  subarray data 0 8 = disc ∧ ∃ read, args.readAt data 8 = .ok read ∧ P read

/-- The service takes the data for the instruction `name` and reads a record of which `P` holds,
wherever the instruction stands and whatever decisions are left. -/
def ReadByService (name : IxName) (P : DecodedRecord → Prop) (data : Bytes) : Prop :=
  layoutOf data = some (.of name) ∧
    ∀ (location : Location) (ix : LocatedInstruction) (remaining : List Indexer.Decision),
      ix.data = data → (Layout.of name).accounts.length ≤ ix.accounts.length →
      ∃ record, decodeInstruction location (.of name) ix remaining = .ok (record, remaining) ∧
        P record

theorem readByProgram_iff {α : Type} {disc bytes : Bytes} {args : Cursor BorshError α} {a : α}
    {P : α → Prop} (hdisc : disc.length = 8) (hreads : Reads args bytes a) :
    ReadByProgram disc args P (disc ++ bytes) ↔ P a := by
  have hread : args.readAt (disc ++ bytes) 8 = .ok a := by
    have hbehind : args.readAt (disc ++ (bytes ++ [])) disc.length = .ok a := hreads.readAt
    rwa [List.append_nil, hdisc] at hbehind
  have hhead : subarray (disc ++ bytes) 0 8 = disc := subarray_append_left hdisc
  unfold ReadByProgram
  rw [hread]
  constructor
  · rintro ⟨-, read, hsome, hP⟩
    cases hsome
    exact hP
  · intro hP
    exact ⟨hhead, a, rfl, hP⟩

/-- A value that is let through is told by its words exactly when none of them overflows and the
purpose is well formed. -/
theorem OpenMandateValues.LetThrough.tells_iff {v : OpenMandateValues} (h : v.LetThrough) :
    v.Tells v.words ↔
      0 ≤ v.mandateId ∧ v.expiresAt < 2 ^ 63 ∧ isWellFormedUtf16 v.purpose = true := by
  constructor
  · intro htells
    exact ⟨(toNat_ofInt_iff h.id).mp htells.mandateId,
      (toInt_ofInt_iff h.expiresAt).mp htells.expiresAt, writtenText_iff.mp htells.purpose⟩
  · rintro ⟨hid, hexpires, hpurpose⟩
    exact {
      mandateId := (toNat_ofInt_iff h.id).mpr hid
      agent := rfl
      merchant := rfl
      cap := (toNat_ofInt_iff h.cap.2).mpr h.cap.1
      perTxMax := (toNat_ofInt_iff h.perTxMax.2).mpr h.perTxMax.1
      expiresAt := (toInt_ofInt_iff h.expiresAt).mpr hexpires
      purpose := writtenText_iff.mpr hpurpose }

theorem OpenTradeValues.LetThrough.tells_iff {v : OpenTradeValues} (h : v.LetThrough) :
    v.Tells v.words ↔
      0 ≤ v.ruleId ∧ v.expiresAt < 2 ^ 63 ∧ isWellFormedUtf16 v.purpose = true := by
  constructor
  · intro htells
    exact ⟨(toNat_ofInt_iff h.id).mp htells.ruleId,
      (toInt_ofInt_iff h.expiresAt).mp htells.expiresAt, writtenText_iff.mp htells.purpose⟩
  · rintro ⟨hid, hexpires, hpurpose⟩
    exact {
      ruleId := (toNat_ofInt_iff h.id).mpr hid
      agent := rfl
      exchangeKind := rfl
      cap := (toNat_ofInt_iff h.cap.2).mpr h.cap.1
      perTradeMax := (toNat_ofInt_iff h.perTradeMax.2).mpr h.perTradeMax.1
      dailyLimit := (toNat_ofInt_iff h.dailyLimit.2).mpr h.dailyLimit.1
      floorNum := (toNat_ofInt_iff h.floorNum.2).mpr h.floorNum.1
      floorDen := (toNat_ofInt_iff h.floorDen.2).mpr h.floorDen.1
      expiresAt := (toInt_ofInt_iff h.expiresAt).mpr hexpires
      purpose := writtenText_iff.mpr hpurpose }

/-! ## The three instructions -/

/-- The program and the service read the rule that was given. -/
def OpenMandateValues.ReadBack (v : OpenMandateValues) : Prop :=
  ReadByProgram OPEN_MANDATE_DISCRIMINATOR Borsh.openMandateArgs v.Tells
      (encodeOpenMandateData v) ∧
    ReadByService .openMandate (fun record => ∃ opened, record = .openMandate opened ∧
      v.Recorded opened) (encodeOpenMandateData v)

/-- The program reads the trade rule that was given.  The service does not read it at all. -/
def OpenTradeValues.ReadBack (v : OpenTradeValues) : Prop :=
  ReadByProgram OPEN_TRADE_RULE_DISCRIMINATOR Borsh.openTradeRuleArgs v.Tells
      (encodeOpenTradeData v) ∧
    layoutOf (encodeOpenTradeData v) = none

/-- The program and the service read the grant that was given. -/
def GrantReadBack (amount nonce : Int) : Prop :=
  ReadByProgram GRANT_OVERRIDE_DISCRIMINATOR Borsh.grantOverrideArgs
      (fun args => (args.1.toNat : Int) = amount ∧ (args.2.toNat : Int) = nonce)
      (encodeGrantOverrideData amount nonce) ∧
    ReadByService .grantOverride (fun record => ∃ grant, record = .grantOverride grant ∧
      (grant.amount.toNat : Int) = amount ∧ (grant.nonce.toNat : Int) = nonce)
      (encodeGrantOverrideData amount nonce)

theorem layoutOf_append {disc bytes : Bytes} (h : disc.length = 8) :
    layoutOf (disc ++ bytes) = layouts.find? fun layout => disc = layout.discriminator := by
  unfold layoutOf
  simp only [subarray_append_left h]

/-- A decoder that returns a record for every list of accounts. -/
theorem readByService_iff {name : IxName} {P : DecodedRecord → Prop} {data : Bytes} {Q : Prop}
    (hlayout : layoutOf data = some (.of name))
    (hdecode : ∀ (location : Location) (ix : LocatedInstruction) (remaining : List Indexer.Decision),
      ix.data = data → (Layout.of name).accounts.length ≤ ix.accounts.length →
      ∃ record, decodeInstruction location (.of name) ix remaining = .ok (record, remaining) ∧
        (P record ↔ Q)) :
    ReadByService name P data ↔ Q := by
  constructor
  · rintro ⟨-, hread⟩
    let location : Location := ⟨"", 0, none, 0, none⟩
    let ix : LocatedInstruction := {
      programId := ""
      data
      accounts := List.replicate (Layout.of name).accounts.length ""
      instructionIndex := 0
      innerInstructionIndex := none }
    have hcount : (Layout.of name).accounts.length ≤ ix.accounts.length := by
      rw [List.length_replicate]
    obtain ⟨record, hrecord, hP⟩ := hread location ix [] rfl hcount
    obtain ⟨record', hrecord', hiff⟩ := hdecode location ix [] rfl hcount
    rw [hrecord] at hrecord'
    cases hrecord'
    exact hiff.mp hP
  · intro hQ
    refine ⟨hlayout, ?_⟩
    intro location ix remaining hdata hcount
    obtain ⟨record, hrecord, hiff⟩ := hdecode location ix remaining hdata hcount
    exact ⟨record, hrecord, hiff.mpr hQ⟩

theorem OpenMandateValues.LetThrough.service_iff {v : OpenMandateValues} (h : v.LetThrough) :
    ReadByService .openMandate (fun record => ∃ opened, record = .openMandate opened ∧
        v.Recorded opened) (OPEN_MANDATE_DISCRIMINATOR ++ v.words.bytes) ↔
      0 ≤ v.mandateId ∧ v.expiresAt < 2 ^ 63 ∧
        js (withoutMark (writtenText v.purpose)) = v.purpose := by
  have hlength : (utf8Bytes v.words.purpose).length < 2 ^ 32 := writtenText_length h.purpose
  refine readByService_iff (layoutOf_append rfl) ?_
  intro location ix remaining hdata hcount
  let account := accountNamed (.of .openMandate) ix.accounts
  let owner : OwnerRecord := { location with
    owner := account "owner", mandate := account "mandate", ledger := account "ledger" }
  let opened : OpenMandateRecord := { owner with
    source := account "source"
    mint := account "mint"
    tokenProgram := account "token_program"
    systemProgram := account "system_program"
    mandateId := v.words.mandateId
    agent := v.words.agent.display
    merchant := v.words.merchant.display
    cap := v.words.cap
    perTxMax := v.words.perTxMax
    expiresAt := v.words.expiresAt
    purpose := withoutMark v.words.purpose }
  have hdecoded : decodeOpenMandate owner account ix.data = .ok (.openMandate opened) := by
    have hbytes : decodeOpenMandate owner account (OPEN_MANDATE_DISCRIMINATOR ++
        (v.words.bytes ++ [])) = .ok (.openMandate opened) :=
      (decodeOpenMandate_bytes hlength).mpr ⟨rfl, rfl⟩
    rwa [List.append_nil, ← hdata] at hbytes
  refine ⟨.openMandate opened, ?_, ?_⟩
  · rw [decodeInstruction, throwUnless_bind_ok_iff, and_iff_right hcount]
    change (decodeOpenMandate owner account ix.data >>= fun record => .ok (record, remaining)) = _
    rw [hdecoded]
    rfl
  · constructor
    · rintro ⟨_, hsame, hrecorded⟩
      cases hsame
      exact ⟨(toNat_ofInt_iff h.id).mp hrecorded.mandateId,
        (toInt_ofInt_iff h.expiresAt).mp hrecorded.expiresAt, hrecorded.purpose⟩
    · rintro ⟨hid, hexpires, hpurpose⟩
      refine ⟨opened, rfl, ?_⟩
      exact {
        mandateId := (toNat_ofInt_iff h.id).mpr hid
        agent := rfl
        merchant := rfl
        cap := (toNat_ofInt_iff h.cap.2).mpr h.cap.1
        perTxMax := (toNat_ofInt_iff h.perTxMax.2).mpr h.perTxMax.1
        expiresAt := (toInt_ofInt_iff h.expiresAt).mpr hexpires
        purpose := hpurpose }

theorem OpenMandateValues.LetThrough.readBack_iff {v : OpenMandateValues} (h : v.LetThrough) :
    v.ReadBack ↔ 0 ≤ v.mandateId ∧ v.expiresAt < 2 ^ 63 ∧ isWellFormedUtf16 v.purpose = true ∧
      v.purpose.head? ≠ some 0xfeff := by
  have hlength : (utf8Bytes v.words.purpose).length < 2 ^ 32 := writtenText_length h.purpose
  unfold OpenMandateValues.ReadBack
  rw [encodeOpenMandateData_eq, readByProgram_iff rfl (Borsh.reads_openMandateArgs hlength),
    h.tells_iff, h.service_iff, withoutMark_writtenText_iff]
  constructor
  · rintro ⟨⟨hid, hexpires, -⟩, -, -, hformed, hmark⟩
    exact ⟨hid, hexpires, hformed, hmark⟩
  · rintro ⟨hid, hexpires, hformed, hmark⟩
    exact ⟨⟨hid, hexpires, hformed⟩, hid, hexpires, hformed, hmark⟩

theorem OpenTradeValues.LetThrough.readBack_iff {v : OpenTradeValues} (h : v.LetThrough) :
    v.ReadBack ↔
      0 ≤ v.ruleId ∧ v.expiresAt < 2 ^ 63 ∧ isWellFormedUtf16 v.purpose = true := by
  have hnone : layoutOf (encodeOpenTradeData v) = none := by
    rw [encodeOpenTradeData_eq, layoutOf_append rfl]
    rfl
  have hlength : (utf8Bytes v.words.purpose).length < 2 ^ 32 := writtenText_length h.purpose
  unfold OpenTradeValues.ReadBack
  rw [and_iff_left hnone, encodeOpenTradeData_eq,
    readByProgram_iff rfl (Borsh.reads_openTradeRuleArgs hlength),
    h.tells_iff]

theorem grantReadBack {amount nonce : Int} (hamount : 0 ≤ amount ∧ amount < 2 ^ 64)
    (hnonce : 0 ≤ nonce ∧ nonce < 2 ^ 64) : GrantReadBack amount nonce := by
  have hwords : ((UInt64.ofInt amount).toNat : Int) = amount ∧
      ((UInt64.ofInt nonce).toNat : Int) = nonce :=
    ⟨(toNat_ofInt_iff hamount.2).mpr hamount.1, (toNat_ofInt_iff hnonce.2).mpr hnonce.1⟩
  unfold GrantReadBack
  rw [encodeGrantOverrideData_eq]
  constructor
  · exact (readByProgram_iff rfl (Borsh.reads_grantOverrideArgs _ _)).mpr hwords
  · refine (readByService_iff (layoutOf_append rfl) ?_).mpr hwords
    intro location ix remaining hdata hcount
    let account := accountNamed (.of .grantOverride) ix.accounts
    let owner : OwnerRecord := { location with
      owner := account "owner", mandate := account "mandate", ledger := account "ledger" }
    let grant : GrantOverrideRecord := { owner with
      source := account "source"
      tokenProgram := account "token_program"
      amount := .ofInt amount
      nonce := .ofInt nonce }
    have hdecoded : decodeGrantOverride owner account ix.data = .ok (.grantOverride grant) := by
      have hbytes : decodeGrantOverride owner account (GRANT_OVERRIDE_DISCRIMINATOR ++
          (toLE 8 (UInt64.ofInt amount).toNat ++ toLE 8 (UInt64.ofInt nonce).toNat ++ [])) =
          .ok (.grantOverride grant) := decodeGrantOverride_bytes.mpr ⟨rfl, rfl⟩
      rwa [List.append_nil, ← hdata] at hbytes
    refine ⟨.grantOverride grant, ?_, ?_⟩
    · rw [decodeInstruction, throwUnless_bind_ok_iff, and_iff_right hcount]
      change (decodeGrantOverride owner account ix.data >>= fun record => .ok (record, remaining)) = _
      rw [hdecoded]
      rfl
    · constructor
      · rintro ⟨_, hsame, hgrant⟩
        cases hsame
        exact hgrant
      · intro hgrant
        exact ⟨grant, rfl, hgrant⟩

/-- The program and the service read back every grant that the app builds.  A rule they read back
exactly when its id is not before 1970, its expiry is at most the last second of the word and its
purpose has no unpaired surrogate; the service also needs a purpose that no mark begins. -/
theorem built_reads_back_iff (reads : OpenMandateReads) (input : OpenMandateInput)
    (v : OpenMandateValues) (tradeReads : OpenTradeReads) (tradeInput : OpenTradeInput)
    (t : OpenTradeValues) (row : RingEntry) (live : MandateAccount) (decimals : Nat)
    (now : DateNow) (amount nonce : Int) :
    (openMandate reads input = .ok v →
      (v.ReadBack ↔ 0 ≤ v.mandateId ∧ v.expiresAt < 2 ^ 63 ∧
        isWellFormedUtf16 v.purpose = true ∧ v.purpose.head? ≠ some 0xfeff)) ∧
    (openTradeRule tradeReads tradeInput = .ok t →
      (t.ReadBack ↔ 0 ≤ t.ruleId ∧ t.expiresAt < 2 ^ 63 ∧
        isWellFormedUtf16 t.purpose = true)) ∧
    (grantOverride row live decimals now = .ok (amount, nonce) → GrantReadBack amount nonce) := by
  refine ⟨?_, ?_, ?_⟩
  · intro hopened
    exact (openMandate_ok hopened).readBack_iff
  · intro hopened
    exact (openTradeRule_ok hopened).readBack_iff
  · intro hgranted
    obtain ⟨rfl, rfl⟩ := grantOverride_ok hgranted
    have hamount := row.suggestedOverride.toNat_lt
    have hnonce := row.nonce.toNat_lt
    exact grantReadBack (by omega) (by omega)

/-! ## A rule of one hundred tokens, and its purpose -/

/-- At the start of 1970 nothing is taken, and the owner holds one hundred tokens. -/
def openReads : OpenMandateReads where
  now := ⟨0, by decide⟩
  configMint := some 9
  mintInfo := some (List.replicate 45 0)
  ata := 8
  ataInfo := some (List.replicate 64 0 ++ toLE 8 100)
  mandateRent := 10
  ledgerRent := 10
  tokenRent := 10
  payerFloor := 0
  solBalance := 10000
  idNow := ⟨0, by decide⟩
  taken := fun _ => false

def openInput (expiresAt : Int) (purpose : JsString) : OpenMandateInput where
  owner := 1
  agent := 2
  merchant := 3
  cap := 100
  perTxMax := 40
  expiresAt
  purpose
  mint := none

def openValues (expiresAt : Int) (purpose : JsString) : OpenMandateValues where
  mandateId := 0
  agent := 2
  merchant := 3
  cap := 100
  perTxMax := 40
  expiresAt
  purpose

def openTradeReads : OpenTradeReads where
  now := ⟨0, by decide⟩
  known := .ok ()
  pool := .ok ()
  inVault := some (List.replicate 64 0 ++ toLE 8 200)
  outVault := some (List.replicate 64 0 ++ toLE 8 400)
  mintInfo := some (List.replicate 45 0)
  native := false
  ataInfo := some (List.replicate 64 0 ++ toLE 8 100)
  tokenRent := 10
  ruleRent := 10
  ledgerRent := 10
  ataRent := 10
  payerFloor := 0
  solBalance := 10000
  idNow := ⟨0, by decide⟩
  taken := fun _ => false

def openTradeInput (expiresAt : Int) (purpose : JsString) : OpenTradeInput where
  owner := 1
  agent := 2
  cap := 100
  perTradeMax := 40
  dailyLimit := 90
  floorPercent := 50
  expiresAt
  purpose

/-- Half of two for one. -/
def openTradeValues (expiresAt : Int) (purpose : JsString) : OpenTradeValues where
  ruleId := 0
  agent := 2
  exchangeKind := 0
  cap := 100
  perTradeMax := 40
  dailyLimit := 90
  floorNum := 1
  floorDen := 1
  expiresAt
  purpose

theorem openTradeRule_sample : openTradeRule openTradeReads (openTradeInput 60 (js "tea")) =
    .ok (openTradeValues 60 (js "tea")) := by
  have hfloor : TradePool.floorFromSpot (400 : Nat) (200 : Nat) (50 : Nat) = .ok ⟨1, 1⟩ := by
    rw [TradePool.floorFromSpot_eq (by decide) (by decide) (by decide) (by decide) (by decide)
      (by decide)]
    rfl
  have hpercent : (openTradeInput 60 (js "tea")).floorPercent = (50 : Nat) := rfl
  have hrange : ((50 : Nat) : ℚ).isInt = true ∧ 1 ≤ ((50 : Nat) : ℚ) ∧ ((50 : Nat) : ℚ) ≤ 99 :=
    ⟨rfl, by norm_num, by norm_num⟩
  unfold openTradeRule
  simp only [↓throwUnless_bind_ok_iff, bind_ok_iff]
  rw [hpercent]
  exact ⟨hrange, by decide, by decide, ⟨by decide, by decide⟩, by decide, (), rfl, by decide, (),
    rfl, _, rfl, _, rfl, _, rfl, _, rfl, _, rfl, _, hfloor, _, rfl, by decide, by decide, _, rfl,
    by decide, rfl⟩

/-- A refusal of 50 for the amount, at nonce 2. -/
def grantRow : RingEntry where
  ts := 30
  amount := 50
  counterparty := ""
  nonce := 2
  suggestedOverride := 50
  kind := Constants.KIND_REFUSED
  kindName := ""
  reason := Constants.REASON_OVER_PER_TX_MAX
  reasonText := ""

/-- Second 40, where the mandate of the sample is live. -/
def grantNow : DateNow := ⟨40000, by decide⟩

/-- Tea until second 60, and the override of the refusal. -/
theorem built_reads_back_iff_tea :
    (openValues 60 (js "tea")).ReadBack ∧ (openTradeValues 60 (js "tea")).ReadBack ∧
      GrantReadBack 50 2 := by
  have hbuilt := built_reads_back_iff openReads (openInput 60 (js "tea"))
    (openValues 60 (js "tea")) openTradeReads (openTradeInput 60 (js "tea"))
    (openTradeValues 60 (js "tea")) grantRow
    (.read "" (okValue sampleOpen sampleOpen_ok).2.mandate) 6 grantNow 50 2
  exact ⟨(hbuilt.1 rfl).mpr ⟨by decide, by decide, by decide, by decide⟩,
    (hbuilt.2.1 openTradeRule_sample).mpr ⟨by decide, by decide, by decide⟩, hbuilt.2.2 rfl⟩

/-- Half of a character, the second after the last and a mark at the head: each is let through, and
none is read back. -/
theorem built_reads_back_fails :
    (openMandate openReads (openInput 60 [0xd800]) = .ok (openValues 60 [0xd800]) ∧
      ¬ (openValues 60 [0xd800]).ReadBack) ∧
    (openMandate openReads (openInput (2 ^ 63) (js "tea")) = .ok (openValues (2 ^ 63) (js "tea")) ∧
      ¬ (openValues (2 ^ 63) (js "tea")).ReadBack) ∧
    (openMandate openReads (openInput 60 (js "\ufefftea")) = .ok (openValues 60 (js "\ufefftea")) ∧
      ¬ (openValues 60 (js "\ufefftea")).ReadBack) := by
  have fails : ∀ {expiresAt : Int} {purpose : JsString},
      openMandate openReads (openInput expiresAt purpose) = .ok (openValues expiresAt purpose) →
      ¬ (expiresAt < 2 ^ 63 ∧ isWellFormedUtf16 purpose = true ∧ purpose.head? ≠ some 0xfeff) →
      openMandate openReads (openInput expiresAt purpose) = .ok (openValues expiresAt purpose) ∧
        ¬ (openValues expiresAt purpose).ReadBack := by
    intro expiresAt purpose hopened hnot
    refine ⟨hopened, ?_⟩
    intro hread
    exact hnot ((openMandate_ok hopened).readBack_iff.mp hread).2
  exact ⟨fails rfl (by decide), fails rfl (by decide), fails rfl (by decide)⟩

end Veto.App

import Veto.App.AllowOnce
import Veto.Tools.JsonFile
import Veto.Tools.CsvFile

/-!
# Exports of the app

`exportRecord.ts`: the rows of a ledger that the owner shares, as JSON or as CSV.  The integers of a
plain record are the numbers that they are converted to.
-/

namespace Veto.App

open Foundation Tools

structure ExportableDecision where
  signature : Option String
  kind : ChargeKind
  amount : UInt64
  counterparty : String
  timestamp : Int64
  nonce : UInt64
  reasonCode : UInt8
  reasonText : String
  suggestedOverride : UInt64
  mandate : String

inductive ShareScope
  | decision (nonce : UInt64) (kind : ChargeKind) (timestamp : Int64)
  | dateRange (fromTime toTime : Int)
  | rule

structure ExportContext where
  cluster : JsString
  genesisHash : JsString
  programId : JsString
  mandate : MandateAccount

inductive ExportShape
  | csv
  | json
  deriving DecidableEq

def rowToExportable (row : LedgerRow) (mandate : String) : Option ExportableDecision :=
  (Tools.kindName row.kind).map fun kind =>
    { signature := row.signature
      kind
      amount := row.amount
      counterparty := row.counterparty
      timestamp := row.ts
      nonce := row.nonce
      reasonCode := row.reason
      reasonText := if row.reasonText = "" then reasonText row.reason else row.reasonText
      suggestedOverride := row.suggestedOverride
      mandate }

def selectExportRows (rows : List ExportableDecision) : ShareScope → List ExportableDecision
  | .decision nonce kind timestamp =>
      rows.filter fun row => row.nonce = nonce ∧ row.kind = kind ∧ row.timestamp = timestamp
  | .dateRange fromTime toTime =>
      rows.filter fun row =>
        fromTime ≤ toNumber row.timestamp.toInt ∧ toNumber row.timestamp.toInt ≤ toTime
  | .rule => rows

def signedExportRows (rows : List ExportableDecision) : List ExportableDecision :=
  rows.filter fun row => row.signature.any (· ≠ "")

def bundleScopeFor (scope : ShareScope) (mandate : String) : ExportScope :=
  match scope with
  | .dateRange fromTime toTime => ⟨.dateRange, some (js mandate), some fromTime, some toTime⟩
  | .decision _ _ timestamp =>
      ⟨.dateRange, some (js mandate), some (toNumber timestamp.toInt), some (toNumber timestamp.toInt)⟩
  | .rule => ⟨.rule, some (js mandate), none, none⟩

def recordToPlain (row : ExportableDecision) (ctx : ExportContext) :
    Except ExportError DecisionRecord := do
  let signature ← okOr (row.signature.filter (· ≠ ""))
    (fail "an exported row must carry its own transaction signature")
  return {
    schemaVersion := 1
    cluster := ctx.cluster
    genesisHash := ctx.genesisHash
    programId := ctx.programId
    mandate := js ctx.mandate.address
    limits := {
      cap := toNumber ctx.mandate.cap
      perTxMax := toNumber ctx.mandate.perTxMax
      expiresAt := toNumber ctx.mandate.expiresAt
      merchant := js ctx.mandate.merchant
      purpose := js ctx.mandate.purpose }
    kind := row.kind
    amount := toNumber row.amount.toNat
    counterparty := js row.counterparty
    timestamp := toNumber row.timestamp.toInt
    nonce := toNumber row.nonce.toNat
    reasonCode := row.reasonCode.toNat
    reasonText := js row.reasonText
    suggestedOverride := toNumber row.suggestedOverride.toNat
    signature := js signature }

def makeBundle (rows : List ExportableDecision) (scope : ShareScope) (ctx : ExportContext) :
    Except ExportError DecisionBundle := do
  let decisions ← (signedExportRows rows).mapM fun row => recordToPlain row ctx
  return {
    schemaVersion := 1
    completeness := COMPLETENESS
    completenessNote := COMPLETENESS_NOTE
    cluster := ctx.cluster
    genesisHash := ctx.genesisHash
    programId := ctx.programId
    scope := bundleScopeFor scope ctx.mandate.address
    decisions }

/-! ## CSV -/

/-- Every number is written with `String`. -/
def rowValues (bundle : DecisionBundle) (record : DecisionRecord) : List JsString :=
  [bundle.completeness,
    bundle.scope.type.name,
    bundle.scope.mandate.getD [],
    bundle.scope.fromTime.elim [] numberString,
    bundle.scope.toTime.elim [] numberString,
    numberString record.schemaVersion,
    record.cluster,
    record.genesisHash,
    record.programId,
    record.mandate,
    numberString record.limits.cap,
    numberString record.limits.perTxMax,
    numberString record.limits.expiresAt,
    record.limits.merchant,
    record.limits.purpose,
    record.kind.name,
    numberString record.amount,
    record.counterparty,
    numberString record.timestamp,
    numberString record.nonce,
    numberString record.reasonCode,
    record.reasonText,
    numberString record.suggestedOverride,
    record.signature]

def bundleToCsv (bundle : DecisionBundle) : JsString :=
  joinLines (csvComments bundle ++
    csvHeader :: bundle.decisions.map fun record => csvMarks.line (rowValues bundle record)) ++
    [csvMarks.lineFeed]

/-! ## JSON -/

/-- The properties of a plain record, in order. -/
def plainFields (record : DecisionRecord) : List (JsString × JsonValue) :=
  [(js "schema_version", plainNumber record.schemaVersion),
    (js "cluster", .string record.cluster),
    (js "genesis_hash", .string record.genesisHash),
    (js "program_id", .string record.programId),
    (js "mandate", .string record.mandate),
    (js "limits", .object [
      (js "cap", plainNumber record.limits.cap),
      (js "per_tx_max", plainNumber record.limits.perTxMax),
      (js "expires_at", plainNumber record.limits.expiresAt),
      (js "merchant", .string record.limits.merchant),
      (js "purpose", .string record.limits.purpose)]),
    (js "kind", .string record.kind.name),
    (js "amount", plainNumber record.amount),
    (js "counterparty", .string record.counterparty),
    (js "timestamp", plainNumber record.timestamp),
    (js "nonce", plainNumber record.nonce),
    (js "reason_code", plainNumber record.reasonCode),
    (js "reason_text", .string record.reasonText),
    (js "suggested_override", plainNumber record.suggestedOverride),
    (js "signature", .string record.signature)]

def plainBundle (bundle : DecisionBundle) : JsonValue :=
  .object [
    (js "schema_version", plainNumber bundle.schemaVersion),
    (js "completeness", .string bundle.completeness),
    (js "completeness_note", .string bundle.completenessNote),
    (js "cluster", .string bundle.cluster),
    (js "genesis_hash", .string bundle.genesisHash),
    (js "program_id", .string bundle.programId),
    (js "scope", .object (scopeFields bundle.scope)),
    (js "decisions", .array (bundle.decisions.map fun record => .object (plainFields record)))]

def bundleToJson (bundle : DecisionBundle) : JsString :=
  utf16 (indented 0 (plainBundle bundle) ++ ['\n'])

def recordToJson (record : DecisionRecord) : JsString :=
  utf16 (indented 0 (.object (plainFields record)) ++ ['\n'])

def formatExport (rows : List ExportableDecision) (scope : ShareScope) (shape : ExportShape)
    (ctx : ExportContext) : Except ExportError JsString := do
  let selected := selectExportRows rows scope
  match shape, scope with
  | .json, .decision .. =>
      let row ← okOr (signedExportRows selected).head?
        (fail ("This decision has no transaction signature on this RPC, so it cannot be exported as " ++
          "a record anyone can check."))
      return recordToJson (← recordToPlain row ctx)
  | .csv, _ => return bundleToCsv (← makeBundle selected scope ctx)
  | .json, _ => return bundleToJson (← makeBundle selected scope ctx)

/-! ## The decisions behind a file -/

/-- The record of a decision, with its integers as they are. -/
def exactRecord (ctx : ExportContext) (row : ExportableDecision) : DecisionRecord where
  schemaVersion := 1
  cluster := ctx.cluster
  genesisHash := ctx.genesisHash
  programId := ctx.programId
  mandate := js ctx.mandate.address
  limits :=
    { cap := ctx.mandate.cap
      perTxMax := ctx.mandate.perTxMax
      expiresAt := ctx.mandate.expiresAt
      merchant := js ctx.mandate.merchant
      purpose := js ctx.mandate.purpose }
  kind := row.kind
  amount := row.amount.toNat
  counterparty := js row.counterparty
  timestamp := row.timestamp.toInt
  nonce := row.nonce.toNat
  reasonCode := row.reasonCode.toNat
  reasonText := js row.reasonText
  suggestedOverride := row.suggestedOverride.toNat
  signature := js (row.signature.getD "")

/-- A record with other integers. -/
def mapNumbers (f : Int → Int) (record : DecisionRecord) : DecisionRecord :=
  { record with
    limits :=
      { record.limits with
        cap := f record.limits.cap
        perTxMax := f record.limits.perTxMax
        expiresAt := f record.limits.expiresAt }
    amount := f record.amount
    timestamp := f record.timestamp
    nonce := f record.nonce
    suggestedOverride := f record.suggestedOverride }

/-- The records of what is shared. -/
def sharedRecords (rows : List LedgerRow) (scope : ShareScope) (ctx : ExportContext) :
    List DecisionRecord :=
  (signedExportRows (selectExportRows
    (rows.filterMap (rowToExportable · ctx.mandate.address)) scope)).map (exactRecord ctx)

/-- The context of a mandate that the app has read, at a place. -/
structure ReadAt (place : ExportPlace) (ctx : ExportContext) : Prop where
  cluster : ctx.cluster = place.cluster
  genesisHash : ctx.genesisHash = place.genesisHash
  programId : ctx.programId = address place.programId
  mandate : ∃ (key : Pubkey) (m : Mandate), ctx.mandate = .read key.display m

/-- A row that the app has read from the ring, with the signature of its transaction, if any. -/
structure RowRead (row : LedgerRow) : Prop where
  entry : ∃ raw, decodeEntry raw = .ok row.toRingEntry
  signature : ∀ text ∈ row.signature, text ≠ "" → IsSignature (js text)

section Records

variable {place : ExportPlace} {ctx : ExportContext} {rows : List LedgerRow} {scope : ShareScope}
  {record : DecisionRecord} {bound : ExportScope} {records : List DecisionRecord}

theorem recordToPlain_eq {row : ExportableDecision} (h : row.signature.any (· ≠ "") = true) :
    recordToPlain row ctx = .ok (mapNumbers toNumber (exactRecord ctx row)) := by
  cases hsignature : row.signature with
  | none =>
      rw [hsignature] at h
      cases h
  | some text =>
      rw [hsignature, Option.any_some] at h
      unfold recordToPlain
      rw [hsignature, Option.filter_some, if_pos h]
      change Except.ok _ = _
      simp only [mapNumbers, exactRecord, hsignature, Option.getD_some]

theorem mem_signedExportRows {decisions : List ExportableDecision} {row : ExportableDecision}
    (h : row ∈ signedExportRows decisions) : row ∈ decisions ∧ row.signature.any (· ≠ "") = true :=
  List.mem_filter.mp h

theorem makeBundle_eq (scope : ShareScope) (h : ReadAt place ctx) (decisions : List ExportableDecision) :
    makeBundle decisions scope ctx =
      .ok (Tools.makeBundle place (bundleScopeFor scope ctx.mandate.address)
        (((signedExportRows decisions).map (exactRecord ctx)).map (mapNumbers toNumber))) := by
  have hrecords : ((signedExportRows decisions).mapM fun row => recordToPlain row ctx) =
      .ok (((signedExportRows decisions).map (exactRecord ctx)).map (mapNumbers toNumber)) := by
    rw [List.map_map]
    exact (mapM_congr fun row hrow => recordToPlain_eq (mem_signedExportRows hrow).2).trans
      List.mapM_pure
  unfold makeBundle Tools.makeBundle
  rw [hrecords, ok_bind, h.cluster, h.genesisHash, h.programId]
  rfl

/-- The JSON of converted integers is the JSON of the integers. -/
theorem bundleToJson_eq (place : ExportPlace) (bound : ExportScope) (records : List DecisionRecord) :
    bundleToJson (Tools.makeBundle place bound (records.map (mapNumbers toNumber))) =
      Tools.bundleToJson (Tools.makeBundle place bound records) := by
  have hrecords : (records.map (mapNumbers toNumber)).map (fun record =>
      JsonValue.object (plainFields record)) = records.map Tools.recordToPlain := by
    rw [List.map_map]
    rfl
  unfold bundleToJson Tools.bundleToJson plainBundle bundlePlain bundleFields
  simp only [Tools.makeBundle, hrecords]

theorem recordToJson_eq (record : DecisionRecord) :
    recordToJson (mapNumbers toNumber record) = Tools.recordToJson record := rfl

/-- A number is written in the CSV as another integer. -/
theorem bundleToCsv_eq (place : ExportPlace) (bound : ExportScope) (records : List DecisionRecord) :
    bundleToCsv (Tools.makeBundle place bound records) =
      Tools.bundleToCsv (Tools.makeBundle place bound (records.map (mapNumbers writtenNumber))) := by
  have hrows : records.map (fun record =>
      csvMarks.line (rowValues (Tools.makeBundle place bound records) record)) =
        (records.map (mapNumbers writtenNumber)).map fun record => csvMarks.line
          (Tools.rowValues (Tools.makeBundle place bound (records.map (mapNumbers writtenNumber)))
            record) := by
    rw [List.map_map]
    rfl
  unfold bundleToCsv Tools.bundleToCsv
  exact congrArg (fun lines => joinLines (_ ++ csvHeader :: lines) ++ [csvMarks.lineFeed]) hrows

theorem reasonText_line (code : UInt8) :
    js (reasonText code) ≠ [] ∧ csvMarks.lineFeed ∉ js (reasonText code) := by
  unfold reasonText
  split <;> decide

theorem recorded_mapNumbers (f : Int → Int) (h : Recorded place record) :
    Recorded place (mapNumbers f record) :=
  ⟨h.schemaVersion, h.cluster, h.genesisHash, h.programId, h.mandate, h.merchant, h.counterparty,
    h.reasonCode, h.reasonText, h.signature⟩

theorem exactRecord_signature {row : ExportableDecision} {text : String}
    (h : row.signature = some text) : (exactRecord ctx row).signature = js text :=
  congrArg (fun signature : Option String => js (signature.getD "")) h

/-- What a row of the ring says of its counterparty and of its reason. -/
theorem decoded_entry {row : LedgerRow} (h : RowRead row) :
    (∃ key : Pubkey, row.counterparty = key.display) ∧ row.reasonText = reasonText row.reason := by
  obtain ⟨raw, hraw⟩ := h.entry
  unfold decodeEntry at hraw
  obtain ⟨ts, -, hraw⟩ := bind_ok_iff.mp hraw
  obtain ⟨amount, -, hraw⟩ := bind_ok_iff.mp hraw
  obtain ⟨nonce, -, hraw⟩ := bind_ok_iff.mp hraw
  obtain ⟨suggested, -, hraw⟩ := bind_ok_iff.mp hraw
  rw [← pure_eq_ok_iff.mp hraw]
  exact ⟨⟨_, rfl⟩, rfl⟩

/-- A signed decision that comes of a row of the ring. -/
theorem exported_of_row (h : ReadAt place ctx) {row : LedgerRow} (hrow : RowRead row)
    {decision : ExportableDecision} (hdecision : rowToExportable row ctx.mandate.address = some decision)
    (hsigned : decision.signature.any (· ≠ "") = true) : Exported place (exactRecord ctx decision) := by
  obtain ⟨kind, -, rfl⟩ := Option.map_eq_some_iff.mp hdecision
  obtain ⟨key, m, hmandate⟩ := h.mandate
  obtain ⟨⟨payee, hcounterparty⟩, hreason⟩ := decoded_entry hrow
  have htext : (if row.reasonText = "" then reasonText row.reason else row.reasonText) =
      reasonText row.reason := by
    rw [hreason, ite_self]
  have hline := reasonText_line row.reason
  rw [← htext] at hline
  obtain ⟨text, htextSome, hne⟩ := (Option.any_eq_true _ _).mp hsigned
  refine ⟨⟨rfl, h.cluster, h.genesisHash, h.programId, ⟨key, ?_⟩, ⟨m.merchant, ?_⟩, ⟨payee, ?_⟩,
    ⟨row.reason, rfl⟩, ?_, ?_⟩, ?_⟩
  · exact congrArg (fun mandate => js mandate.address) hmandate
  · exact congrArg (fun mandate => js mandate.merchant) hmandate
  · exact congrArg js hcounterparty
  · exact hline
  · rw [exactRecord_signature htextSome]
    exact hrow.signature text htextSome (of_decide_eq_true hne)
  · intro n hn
    simp only [DecisionRecord.numbers, exactRecord, hmandate, List.mem_cons, List.not_mem_nil,
      or_false] at hn
    rcases hn with rfl | rfl | rfl | rfl | rfl | rfl | rfl
    · exact natAbs_uint64 _
    · exact natAbs_uint64 _
    · exact natAbs_int64 _
    · exact natAbs_uint64 _
    · exact natAbs_int64 _
    · exact natAbs_uint64 _
    · exact natAbs_uint64 _

theorem exported_shared (scope : ShareScope) (h : ReadAt place ctx) (hrows : ∀ row ∈ rows, RowRead row) :
    ∀ record ∈ sharedRecords rows scope ctx, Exported place record := by
  intro record hrecord
  obtain ⟨decision, hdecision, rfl⟩ := List.mem_map.mp hrecord
  obtain ⟨hselected, hsigned⟩ := mem_signedExportRows hdecision
  have hmem : decision ∈ rows.filterMap (rowToExportable · ctx.mandate.address) := by
    cases scope with
    | decision nonce kind timestamp => exact (List.mem_filter.mp hselected).1
    | dateRange fromTime toTime => exact (List.mem_filter.mp hselected).1
    | rule => exact hselected
  obtain ⟨row, hrow, hexportable⟩ := List.mem_filterMap.mp hmem
  exact exported_of_row h (hrows row hrow) hexportable hsigned

/-- The bounds of a range are doubles. -/
def ShareScope.Doubles (scope : ShareScope) : Prop :=
  ∀ fromTime toTime, scope = .dateRange fromTime toTime →
    toNumber fromTime = fromTime ∧ toNumber toTime = toTime

def ShareScope.Safe (scope : ShareScope) : Prop :=
  ∀ fromTime toTime, scope = .dateRange fromTime toTime →
    fromTime.natAbs ≤ MAX_SAFE_INTEGER ∧ toTime.natAbs ≤ MAX_SAFE_INTEGER

theorem scopeBuilt_of_shared (h : ReadAt place ctx) (hscope : scope.Doubles) :
    ScopeBuilt (bundleScopeFor scope ctx.mandate.address) := by
  obtain ⟨key, m, hmandate⟩ := h.mandate
  have haddress : ∀ text ∈ some (js ctx.mandate.address), ∃ key, text = address key := by
    rintro text ⟨⟩
    exact ⟨key, congrArg (fun mandate => js mandate.address) hmandate⟩
  cases scope with
  | decision nonce kind timestamp =>
      refine ⟨haddress, ?_, ?_, fun _ => Option.some_ne_none _, fun _ hnone => ?_⟩
      · rintro n ⟨⟩
        exact toNumber_idem _
      · rintro n ⟨⟩
        exact toNumber_idem _
      · cases hnone.1
  | dateRange fromTime toTime =>
      obtain ⟨hfrom, hto⟩ := hscope fromTime toTime rfl
      refine ⟨haddress, ?_, ?_, fun _ => Option.some_ne_none _, fun _ hnone => ?_⟩
      · rintro n ⟨⟩
        exact hfrom
      · rintro n ⟨⟩
        exact hto
      · cases hnone.1
  | rule =>
      refine ⟨haddress, ?_, ?_, fun _ => Option.some_ne_none _, fun h => ?_⟩
      · rintro n ⟨⟩
      · rintro n ⟨⟩
      · cases h

theorem scopeSafe_of_shared (h : ReadAt place ctx) (hscope : scope.Safe)
    (hdecision : ∀ nonce kind timestamp, scope ≠ .decision nonce kind timestamp) :
    ScopeSafe (bundleScopeFor scope ctx.mandate.address) := by
  have hbuilt : ScopeBuilt (bundleScopeFor scope ctx.mandate.address) :=
    scopeBuilt_of_shared h fun fromTime toTime hrange =>
      ⟨toNumber_small (hscope fromTime toTime hrange).1, toNumber_small (hscope fromTime toTime hrange).2⟩
  cases scope with
  | decision nonce kind timestamp => exact absurd rfl (hdecision nonce kind timestamp)
  | dateRange fromTime toTime =>
      obtain ⟨hfrom, hto⟩ := hscope fromTime toTime rfl
      refine ⟨hbuilt, ?_, ?_⟩
      · rintro n ⟨⟩
        exact hfrom
      · rintro n ⟨⟩
        exact hto
  | rule =>
      refine ⟨hbuilt, ?_, ?_⟩
      · rintro n ⟨⟩
      · rintro n ⟨⟩

/-- The records that the JSON of a scope has. -/
def fileRecords (scope : ShareScope) (records : List DecisionRecord) : List DecisionRecord :=
  match scope with
  | .decision .. => records.take 1
  | _ => records

/-- What the JSON of a scope stands for: one record, or a bundle of all. -/
def fileExport (place : ExportPlace) (scope : ShareScope) (ctx : ExportContext)
    (records : List DecisionRecord) : Option ParsedExport :=
  match scope with
  | .decision .. => records.head?.map .single
  | scope => some (.bulk (Tools.makeBundle place (bundleScopeFor scope ctx.mandate.address) records))

theorem formatExport_bundle (h : ReadAt place ctx)
    (hdecision : ∀ nonce kind timestamp, scope ≠ .decision nonce kind timestamp) :
    formatExport (rows.filterMap (rowToExportable · ctx.mandate.address)) scope .json ctx =
      .ok (Tools.bundleToJson (Tools.makeBundle place (bundleScopeFor scope ctx.mandate.address)
        (sharedRecords rows scope ctx))) := by
  have hbundle := makeBundle_eq scope h
    (selectExportRows (rows.filterMap (rowToExportable · ctx.mandate.address)) scope)
  have hjson := bundleToJson_eq place (bundleScopeFor scope ctx.mandate.address)
    (sharedRecords rows scope ctx)
  have hformat : formatExport (rows.filterMap (rowToExportable · ctx.mandate.address)) scope .json ctx =
      (makeBundle (selectExportRows (rows.filterMap (rowToExportable · ctx.mandate.address)) scope)
        scope ctx >>= fun bundle => pure (bundleToJson bundle)) := by
    cases scope with
    | decision nonce kind timestamp => exact absurd rfl (hdecision nonce kind timestamp)
    | dateRange fromTime toTime => rfl
    | rule => rfl
  rw [hformat, hbundle, ok_bind]
  exact congrArg Except.ok hjson

theorem formatExport_decision (nonce : UInt64) (kind : ChargeKind) (timestamp : Int64) :
    formatExport (rows.filterMap (rowToExportable · ctx.mandate.address))
        (.decision nonce kind timestamp) .json ctx =
      okOr ((sharedRecords rows (.decision nonce kind timestamp) ctx).head?.map Tools.recordToJson)
        (fail ("This decision has no transaction signature on this RPC, so it cannot be exported as " ++
          "a record anyone can check.")) := by
  unfold formatExport sharedRecords
  dsimp only
  cases hrows : signedExportRows (selectExportRows
      (rows.filterMap (rowToExportable · ctx.mandate.address)) (.decision nonce kind timestamp)) with
  | nil => rfl
  | cons row rest =>
      have hsigned := (mem_signedExportRows (hrows ▸ List.mem_cons_self : row ∈ _)).2
      rw [List.head?_cons]
      change (recordToPlain row ctx >>= fun record => pure (recordToJson record)) = _
      rw [recordToPlain_eq hsigned, ok_bind]
      exact congrArg Except.ok (recordToJson_eq _)

theorem formatExport_csv (h : ReadAt place ctx) :
    formatExport (rows.filterMap (rowToExportable · ctx.mandate.address)) scope .csv ctx =
      .ok (Tools.bundleToCsv (Tools.makeBundle place (bundleScopeFor scope ctx.mandate.address)
        ((sharedRecords rows scope ctx).map (mapNumbers (writtenNumber ∘ toNumber))))) := by
  have hbundle := makeBundle_eq scope h
    (selectExportRows (rows.filterMap (rowToExportable · ctx.mandate.address)) scope)
  have hformat : formatExport (rows.filterMap (rowToExportable · ctx.mandate.address)) scope .csv ctx =
      (makeBundle (selectExportRows (rows.filterMap (rowToExportable · ctx.mandate.address)) scope)
        scope ctx >>= fun bundle => pure (bundleToCsv bundle)) := by
    cases scope <;> rfl
  rw [hformat, hbundle, ok_bind, bundleToCsv_eq, List.map_map]
  rfl

end Records

/-! ## A rule for rent -/

/-- A rule whose cap is no safe integer. -/
def rentMandate (cap : UInt64) : Mandate where
  owner := 3
  agent := 4
  mint := 5
  source := 6
  merchant := 2
  mandateId := 1
  cap
  spent := 0
  perTxMax := 800
  expiresAt := 1800000000
  overrideAmount := 0
  overrideNonce := 0
  lastNonce := 7
  purpose := "rent"
  status := .active
  spendCount := 1
  refusalCount := 0
  bump := 255

def rentContext (cap : UInt64) : ExportContext where
  cluster := rentPlace.cluster
  genesisHash := rentPlace.genesisHash
  programId := address rentPlace.programId
  mandate := .read (1 : Pubkey).display (rentMandate cap)

theorem rentContext_readAt (cap : UInt64) : ReadAt rentPlace (rentContext cap) :=
  ⟨rfl, rfl, rfl, 1, rentMandate cap, rfl⟩

def rentEntry : Bytes := List.replicate 48 0 ++ [7] ++ List.replicate 15 0 ++ [1] ++ List.replicate 15 0

def rentLedgerRow : LedgerRow where
  ts := 0
  amount := 0
  counterparty := (Pubkey.ofBytes (List.replicate 32 0)).display
  nonce := 7
  suggestedOverride := 0
  kind := 1
  kindName := "paid"
  reason := 0
  reasonText := "ok"
  signature := some (String.ofList (List.replicate 64 '1'))
  slot := none

theorem rentLedgerRow_read : ∀ row ∈ [rentLedgerRow], RowRead row := by
  intro row hrow
  obtain rfl := List.mem_singleton.mp hrow
  refine ⟨⟨rentEntry, rfl⟩, ?_⟩
  rintro text ⟨⟩ -
  have hunits : js (String.ofList (List.replicate 64 '1')) = List.replicate 64 0x31 := by decide
  rw [hunits]
  exact rentSignature

theorem rent_purpose {cap : UInt64} {rows : List LedgerRow} {scope : ShareScope} :
    ∀ record ∈ sharedRecords rows scope (rentContext cap), record.limits.purpose = js "rent" := by
  intro record hrecord
  obtain ⟨decision, -, rfl⟩ := List.mem_map.mp hrecord
  have hpurpose : (rentContext cap).mandate.purpose = "rent" := rfl
  exact congrArg js hpurpose

/-- **The JSON that the app shares is read by the tool as what the owner shared, or not at all.** -/
theorem app_json_read_iff {place : ExportPlace} {ctx : ExportContext} {rows : List LedgerRow}
    {scope : ShareScope} (hcluster : place.cluster ≠ []) (hgenesis : place.genesisHash ≠ [])
    (hctx : ReadAt place ctx) (hrows : ∀ row ∈ rows, RowRead row) (hscope : scope.Safe) :
    match formatExport (rows.filterMap (rowToExportable · ctx.mandate.address)) scope .json ctx with
    | .ok text => ∀ read, parseExportText text = .ok read ↔
        fileExport place scope ctx (sharedRecords rows scope ctx) = some read ∧
          ∀ record ∈ fileRecords scope (sharedRecords rows scope ctx), Readable record
    | .error _ => fileExport place scope ctx (sharedRecords rows scope ctx) = none := by
  have hexported := exported_shared scope hctx hrows
  by_cases hdecision : ∃ nonce kind timestamp, scope = .decision nonce kind timestamp
  · obtain ⟨nonce, kind, timestamp, rfl⟩ := hdecision
    rw [formatExport_decision]
    unfold fileExport fileRecords
    cases hrecords : sharedRecords rows (.decision nonce kind timestamp) ctx with
    | nil => rfl
    | cons record rest =>
        have hrecord := hexported record (hrecords ▸ List.mem_cons_self)
        change ∀ read, parseExportText (Tools.recordToJson record) = .ok read ↔ _
        intro read
        rw [parseExportText_record_iff hcluster hgenesis hrecord]
        simp [eq_comm]
  · have hother : ∀ nonce kind timestamp, scope ≠ .decision nonce kind timestamp :=
      fun nonce kind timestamp heq => hdecision ⟨nonce, kind, timestamp, heq⟩
    rw [formatExport_bundle hctx hother]
    intro read
    rw [parseExportText_json_iff hcluster hgenesis (scopeSafe_of_shared hctx hscope hother) hexported]
    cases scope with
    | decision nonce kind timestamp => exact absurd rfl (hother nonce kind timestamp)
    | dateRange fromTime toTime => simp [fileExport, fileRecords, eq_comm]
    | rule => simp [fileExport, fileRecords, eq_comm]

theorem rent_app_json_read : ∃ text,
    formatExport ([rentLedgerRow].filterMap (rowToExportable · (rentContext 9000).mandate.address))
        .rule .json (rentContext 9000) = .ok text ∧
      parseExportText text = .ok (.bulk (Tools.makeBundle rentPlace
        (bundleScopeFor .rule (rentContext 9000).mandate.address)
        (sharedRecords [rentLedgerRow] .rule (rentContext 9000)))) := by
  have hctx := rentContext_readAt 9000
  have hscope : ShareScope.rule.Safe := fun _ _ h => by cases h
  have hother : ∀ nonce kind timestamp, ShareScope.rule ≠ .decision nonce kind timestamp :=
    fun _ _ _ h => by cases h
  have hread := app_json_read_iff (by decide) (by decide) hctx rentLedgerRow_read hscope
  rw [formatExport_bundle hctx hother] at hread
  refine ⟨_, formatExport_bundle hctx hother, (hread _).mpr ⟨rfl, ?_⟩⟩
  intro record hrecord
  refine ⟨?_, rent_purpose record hrecord ▸ by decide⟩
  obtain rfl : record = exactRecord (rentContext 9000) _ := List.mem_singleton.mp hrecord
  decide

/-- **The CSV that the app shares is read by the tool with every integer as a number is written.**
Above the safe integers these are other integers; the JSON of such a file is not read. -/
theorem app_csv_read_iff {place : ExportPlace} {ctx : ExportContext} {rows : List LedgerRow}
    {scope : ShareScope} (hcluster : Label place.cluster) (hgenesis : Label place.genesisHash)
    (hctx : ReadAt place ctx) (hrows : ∀ row ∈ rows, RowRead row) (hscope : scope.Doubles)
    (read : ParsedExport) :
    ∃ text, formatExport (rows.filterMap (rowToExportable · ctx.mandate.address)) scope .csv ctx =
        .ok text ∧
      (parseExportText text = .ok read ↔
        read = .bulk (Tools.makeBundle place (bundleScopeFor scope ctx.mandate.address)
            ((sharedRecords rows scope ctx).map (mapNumbers (writtenNumber ∘ toNumber)))) ∧
          ∀ record ∈ sharedRecords rows scope ctx, record.limits.purpose ≠ [] ∧
            csvMarks.lineFeed ∉ record.limits.purpose) := by
  have hrecorded : ∀ record ∈ (sharedRecords rows scope ctx).map
      (mapNumbers (writtenNumber ∘ toNumber)), Recorded place record := by
    intro record hrecord
    obtain ⟨exact, hexact, rfl⟩ := List.mem_map.mp hrecord
    exact recorded_mapNumbers _ (exported_shared scope hctx hrows exact hexact).toRecorded
  have hmandate : csvScope (bundleScopeFor scope ctx.mandate.address)
      ((sharedRecords rows scope ctx).map (mapNumbers (writtenNumber ∘ toNumber))) =
        bundleScopeFor scope ctx.mandate.address := by
    cases scope <;> rfl
  refine ⟨_, formatExport_csv hctx, ?_⟩
  rw [parseExportText_csv_iff hcluster hgenesis (scopeBuilt_of_shared hctx hscope) hrecorded,
    hmandate, List.forall_mem_map]
  rfl

theorem rent_app_csv_read : ∃ text,
    formatExport ([rentLedgerRow].filterMap
        (rowToExportable · (rentContext 9007199254740993).mandate.address))
        .rule .csv (rentContext 9007199254740993) = .ok text ∧
      parseExportText text = .ok (.bulk (Tools.makeBundle rentPlace
        (bundleScopeFor .rule (rentContext 9007199254740993).mandate.address)
        ((sharedRecords [rentLedgerRow] .rule (rentContext 9007199254740993)).map
          (mapNumbers (writtenNumber ∘ toNumber))))) := by
  have hscope : ShareScope.rule.Doubles := fun _ _ h => by cases h
  obtain ⟨text, htext, hread⟩ := app_csv_read_iff
    ⟨line_of_solid (solid_of_all (by decide)), by decide⟩ ⟨line_of_solid (solid_of_all (by decide)), by decide⟩
    (rentContext_readAt 9007199254740993) rentLedgerRow_read hscope _
  refine ⟨text, htext, hread.mpr ⟨rfl, fun record hrecord => ?_⟩⟩
  rw [rent_purpose record hrecord]
  decide

end Veto.App

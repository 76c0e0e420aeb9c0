import Veto.Tools.Record
import Veto.Foundation.JsonIndent
import Veto.Foundation.Csv

/-!
# Bundles of decisions

`bulk.ts`: the scope of an export, the bundle it writes as JSON or as CSV, and `parseExportText`,
which reads both back.
-/

namespace Veto.Tools

open Foundation

def COMPLETENESS : JsString := js "payments"

@[irreducible] def COMPLETENESS_NOTE : JsString :=
  js ("Complete over paid and refused charges that landed on chain. Never complete over attempts. " ++
    "A charge the agent never submitted cannot appear here, and this file does not invent rows for " ++
    "missing signatures.")

structure IndexedDecision where
  signature : JsString
  timestamp : Option Int64
  mandate : Pubkey
  amount : UInt64
  nonce : UInt64
  /-- Nothing, when the accounts of the charge were not decoded. -/
  counterparty : Option Pubkey
  kind : ChargeKind
  reason : UInt8
  suggestedOverride : UInt64

structure ScopeFilter where
  mandate : Option Pubkey
  fromTime : Option Int
  toTime : Option Int
  kind : Option ChargeKind
  nonce : Option UInt64

inductive ScopeType
  | rule
  | dateRange
  deriving DecidableEq

def ScopeType.name : ScopeType → JsString
  | rule => js "rule"
  | dateRange => js "date_range"

structure ExportScope where
  type : ScopeType
  mandate : Option JsString
  fromTime : Option Int
  toTime : Option Int
  deriving DecidableEq

structure DecisionBundle where
  schemaVersion : Int
  completeness : JsString
  completenessNote : JsString
  cluster : JsString
  genesisHash : JsString
  programId : JsString
  scope : ExportScope
  decisions : List DecisionRecord
  deriving DecidableEq

/-! ## Building -/

def buildScope (filter : ScopeFilter) : Except ExportError ExportScope :=
  if filter.fromTime.isSome || filter.toTime.isSome then
    .ok ⟨.dateRange, filter.mandate.map address, filter.fromTime, filter.toTime⟩
  else
    match filter.mandate with
    | none => .error (fail "bulk export needs --mandate, or a date range via --from / --to")
    | some mandate => .ok ⟨.rule, some (address mandate), none, none⟩

def inTimeRange (ts : Option Int64) (fromTime toTime : Option Int) : Bool :=
  if fromTime.isNone && toTime.isNone then true
  else ts.any fun ts => fromTime.all (· ≤ ts.toInt) && toTime.all (ts.toInt ≤ ·)

def filterIndexed (rows : List IndexedDecision) (filter : ScopeFilter) : List IndexedDecision :=
  rows.filter fun row =>
    filter.mandate.all (row.mandate = ·) && filter.kind.all (row.kind = ·) &&
      filter.nonce.all (row.nonce = ·) && inTimeRange row.timestamp filter.fromTime filter.toTime

/-- The entry of the ring says the time and the counterparty, where there is one. -/
def buildRecordFromIndexed (place : ExportPlace) (mandateAccount : MandateLimits)
    (decision : IndexedDecision) (ringEntry : Option LedgerEntry) :
    Except ExportError DecisionRecord := do
  let counterparty ← okOr decision.counterparty
    ⟨"indexer row has an empty counterparty (charge accounts were not decoded)",
      some (.string decision.signature)⟩
  let ts := match ringEntry with
    | some entry => entry.ts
    | none => decision.timestamp.getD 0
  buildRecord place decision.mandate mandateAccount
    { ts
      amount := decision.amount
      counterparty := (ringEntry.map (·.counterparty)).getD counterparty
      nonce := decision.nonce
      suggestedOverride := decision.suggestedOverride
      kind := kindByte decision.kind
      reason := decision.reason }
    decision.signature

def makeBundle (place : ExportPlace) (scope : ExportScope) (decisions : List DecisionRecord) :
    DecisionBundle where
  schemaVersion := 1
  completeness := COMPLETENESS
  completenessNote := COMPLETENESS_NOTE
  cluster := place.cluster
  genesisHash := place.genesisHash
  programId := address place.programId
  scope := scope
  decisions := decisions

/-! ## JSON -/

def orNull {α : Type} (write : α → JsonValue) (value : Option α) : JsonValue := value.elim .null write

def scopeFields (scope : ExportScope) : List (JsString × JsonValue) :=
  [(js "type", .string scope.type.name),
    (js "mandate", orNull .string scope.mandate),
    (js "from", orNull plainNumber scope.fromTime),
    (js "to", orNull plainNumber scope.toTime)]

/-- The properties of a plain bundle, in order. -/
def bundleFields (bundle : DecisionBundle) : List (JsString × JsonValue) :=
  [(js "schema_version", plainNumber bundle.schemaVersion),
    (js "completeness", .string bundle.completeness),
    (js "completeness_note", .string bundle.completenessNote),
    (js "cluster", .string bundle.cluster),
    (js "genesis_hash", .string bundle.genesisHash),
    (js "program_id", .string bundle.programId),
    (js "scope", .object (scopeFields bundle.scope)),
    (js "decisions", .array (bundle.decisions.map recordToPlain))]

def bundlePlain (bundle : DecisionBundle) : JsonValue := .object (bundleFields bundle)

def bundleToJson (bundle : DecisionBundle) : JsString := utf16 (indented 0 (bundlePlain bundle) ++ ['\n'])

def requireNonEmpty (value : Option JsValue) (name : String) : Except ExportError JsString :=
  requireString value name

/-- A number of a bound; one of 309 digits and more is not modelled. -/
def optionalInt (value : Option JsValue) (name : String) : Except ExportError (Option Int) :=
  match value with
  | none | some .null => .ok none
  | some (.number n) => (okOr n.safeInteger (fail (name ++ " must be a safe integer"))).map some
  | some (.string text) =>
      if text = [] then .ok none
      else if isIntegerText text then .ok (some (toNumber (integerValue text)))
      else .error (fail (name ++ " must be an integer or null"))
  | _ => .error (fail (name ++ " must be an integer or null"))

def scopeTypeOf (value : Option JsValue) : Option ScopeType :=
  match value with
  | some (.string text) =>
      if text = js "rule" then some .rule else if text = js "date_range" then some .dateRange else none
  | _ => none

def optionalMandate (value : Option JsValue) : Except ExportError (Option JsString) :=
  match value with
  | none | some .null | some (.string []) => .ok none
  | value => (requireNonEmpty value "scope.mandate").map some

def parseScope (input : Option JsValue) : Except ExportError ExportScope := do
  let o ← requireObject input "scope must be an object"
  let type ← okOr (scopeTypeOf (field o "type")) (fail "scope.type must be \"rule\" or \"date_range\"")
  let mandate ← optionalMandate (field o "mandate")
  let fromTime ← optionalInt (field o "from") "scope.from"
  let toTime ← optionalInt (field o "to") "scope.to"
  require (¬ (type = .rule ∧ mandate = none))
    (fail "scope.mandate is required when scope.type is rule")
  require (¬ (type = .dateRange ∧ fromTime = none ∧ toTime = none))
    (fail "date_range scope needs from and/or to")
  return { type, mandate, fromTime, toTime }

/-- An error, with the place of the decision in front. -/
def ExportError.atDecision (e : ExportError) (i : Nat) : ExportError :=
  { e with message := s!"decisions[{i}]: " ++ e.message }

def parseDecisions (rows : List JsValue) : Except ExportError (List DecisionRecord) :=
  rows.zipIdx.mapM fun (row, i) => (parseRecord row).mapError (·.atDecision i)

def requireCompleteness (value : Option JsValue) : Except ExportError Unit :=
  let error := ⟨"completeness must be \"payments\" (complete over payments, never over attempts)", value⟩
  match value with
  | some (.string text) => require (text = COMPLETENESS) error
  | _ => .error error

def requireRows (value : Option JsValue) : Except ExportError (List JsValue) :=
  match value with
  | some (.array rows) => .ok rows
  | _ => .error (fail "decisions must be an array")

def requireSigned (row : DecisionRecord) (i : Nat) : Except ExportError Unit := do
  require (row.signature ≠ []) (fail s!"decisions[{i}] is missing signature")
  let _ ← fileSignature (some (.string row.signature)) s!"decisions[{i}].signature"

def parseBundle (input : JsValue) : Except ExportError DecisionBundle := do
  let o ← requireObject (some input) "bulk record must be a JSON object"
  let version := field o "schema_version"
  require (version.elim .nan numberOf = .finite 1) ⟨"unsupported schema_version", version⟩
  requireCompleteness (field o "completeness")
  let completenessNote ← requireString (field o "completeness_note") "completeness_note"
  let cluster ← requireString (field o "cluster") "cluster"
  let genesisHash ← requireString (field o "genesis_hash") "genesis_hash"
  let programId ← requireString (field o "program_id") "program_id"
  let decisions ← parseDecisions (← requireRows (field o "decisions"))
  decisions.zipIdx.forM fun (row, i) => requireSigned row i
  let scope ← parseScope (field o "scope")
  return { schemaVersion := 1, completeness := COMPLETENESS, completenessNote, cluster, genesisHash,
           programId, scope, decisions }

/-! ## CSV -/

/-- Code units: a quote, a comma, a line feed and a carriage return. -/
def csvMarks : CsvMarks UInt16 where
  quote := 0x22
  comma := 0x2c
  lineFeed := 0x0a
  carriageReturn := 0x0d
  distinct := by decide

def CSV_COLUMNS : List String :=
  ["completeness", "scope_type", "scope_mandate", "scope_from", "scope_to", "schema_version",
    "cluster", "genesis_hash", "program_id", "mandate", "limits_cap", "limits_per_tx_max",
    "limits_expires_at", "limits_merchant", "limits_purpose", "kind", "amount", "counterparty",
    "timestamp", "nonce", "reason_code", "reason_text", "suggested_override", "signature"]

def rowValues (bundle : DecisionBundle) (record : DecisionRecord) : List JsString :=
  [bundle.completeness,
    bundle.scope.type.name,
    bundle.scope.mandate.getD [],
    bundle.scope.fromTime.elim [] numberString,
    bundle.scope.toTime.elim [] numberString,
    numberString record.schemaVersion,
    record.cluster,
    record.genesisHash,
    record.programId,
    record.mandate,
    integerString record.limits.cap,
    integerString record.limits.perTxMax,
    integerString record.limits.expiresAt,
    record.limits.merchant,
    record.limits.purpose,
    record.kind.name,
    integerString record.amount,
    record.counterparty,
    integerString record.timestamp,
    integerString record.nonce,
    numberString record.reasonCode,
    record.reasonText,
    integerString record.suggestedOverride,
    record.signature]

def comment (name : String) (value : JsString) : JsString := js "# " ++ js name ++ js "=" ++ value

def csvComments (bundle : DecisionBundle) : List JsString :=
  [comment "completeness" bundle.completeness,
    comment "completeness_note" bundle.completenessNote,
    comment "cluster" bundle.cluster,
    comment "genesis_hash" bundle.genesisHash,
    comment "program_id" bundle.programId,
    comment "scope_type" bundle.scope.type.name,
    comment "scope_mandate" (bundle.scope.mandate.getD []),
    comment "scope_from" (bundle.scope.fromTime.elim [] numberString),
    comment "scope_to" (bundle.scope.toTime.elim [] numberString)]

def csvHeader : JsString := [csvMarks.comma].intercalate (CSV_COLUMNS.map js)

def joinLines (lines : List JsString) : JsString := [csvMarks.lineFeed].intercalate lines

def bundleToCsv (bundle : DecisionBundle) : JsString :=
  joinLines (csvComments bundle ++
    csvHeader :: bundle.decisions.map fun record => csvMarks.line (rowValues bundle record)) ++
    [csvMarks.lineFeed]

/-- The name and the value of a comment line. -/
def readComment (line : JsString) : Option (JsString × JsString) :=
  if line.head? = some 0x23 then
    let body := App.trim (line.drop 1)
    let name := body.takeWhile (· ≠ 0x3d)
    if name = [] ∨ name = body then none else some (name, body.drop (name.length + 1))
  else none

/-- The last value that a comment gives a name. -/
def metaValue (comments : List (JsString × JsString)) (name : String) : Option JsString :=
  (comments.reverse.find? (·.1 = js name)).map Prod.snd

/-- The last column of a name. -/
def columnIndex (header : List JsString) (name : String) : Option Nat :=
  (header.zipIdx.reverse.find? (·.1 = js name)).map Prod.snd

def cell (header cols : List JsString) (name : String) : JsString :=
  ((columnIndex header name).bind (cols[·]?)).getD []

/-- `a || b` of strings. -/
def orElse (a b : JsString) : JsString := if a = [] then b else a

/-- The properties of the object that a row is parsed as. -/
def csvFields (comments : List (JsString × JsString)) (header cols : List JsString) :
    List (JsString × JsValue) :=
  let text := fun name => JsValue.string (cell header cols name)
  [(js "schema_version", .number (stringToNumber (orElse (cell header cols "schema_version") (js "1")))),
    (js "cluster", .string (orElse (cell header cols "cluster") ((metaValue comments "cluster").getD []))),
    (js "genesis_hash", text "genesis_hash"),
    (js "program_id", text "program_id"),
    (js "mandate", text "mandate"),
    (js "limits", .object [
      (js "cap", text "limits_cap"),
      (js "per_tx_max", text "limits_per_tx_max"),
      (js "expires_at", text "limits_expires_at"),
      (js "merchant", text "limits_merchant"),
      (js "purpose", text "limits_purpose")]),
    (js "kind", text "kind"),
    (js "amount", text "amount"),
    (js "counterparty", text "counterparty"),
    (js "timestamp", text "timestamp"),
    (js "nonce", text "nonce"),
    (js "reason_code", text "reason_code"),
    (js "reason_text", text "reason_text"),
    (js "suggested_override", text "suggested_override"),
    (js "signature", text "signature")]

def csvRecord (comments : List (JsString × JsString)) (header cols : List JsString) : JsValue :=
  .object (csvFields comments header cols)

/-- A row that is not empty. -/
def parseRow (comments : List (JsString × JsString)) (header : List JsString) (r : Nat)
    (cols : List JsString) : Except ExportError DecisionRecord := do
  let completeness := orElse (cell header cols "completeness")
    ((metaValue comments "completeness").getD [])
  require (completeness = COMPLETENESS)
    ⟨s!"CSV row {r} completeness must be \"payments\"", some (.string completeness)⟩
  parseRecord (csvRecord comments header cols)

/-- The rows with their numbers, without those that are one empty cell. -/
def filledRows (rows : List JsString) : List (List JsString × Nat) :=
  (rows.zipIdx.map fun row => (csvMarks.cells row.1, row.2 + 1)).filter fun row => row.1 ≠ [[]]

def firstColumnValue (header : List JsString) (rows : List JsString) (name : String) :
    Option JsString := do
  let i ← columnIndex header name
  (rows.filterMap fun row => (csvMarks.cells row)[i]?).find? (· ≠ [])

def emptyToNull (value : Option JsString) : Option JsString := value.filter (· ≠ [])

/-- A comment, or the first cell of its column; `none` where both are empty. -/
def metaOrColumn (comments : List (JsString × JsString)) (header rows : List JsString)
    (name : String) : Option JsString :=
  (emptyToNull (metaValue comments name)).or (emptyToNull (firstColumnValue header rows name))

/-- The bundle of the decisions that were read. -/
def csvBundle (comments : List (JsString × JsString)) (header rows : List JsString)
    (decisions : List DecisionRecord) : Except ExportError DecisionBundle := do
  let completeness := ((metaValue comments "completeness").or
    (firstColumnValue header rows "completeness")).getD []
  require (completeness = COMPLETENESS)
    ⟨"CSV completeness must be \"payments\" (complete over payments, never over attempts)",
      some (.string completeness)⟩
  let type ← okOr
    (scopeTypeOf (some (.string ((metaOrColumn comments header rows "scope_type").getD (js "rule")))))
    (fail "CSV scope_type must be \"rule\" or \"date_range\"")
  let mandate := (metaOrColumn comments header rows "scope_mandate").or
    (decisions.head?.map (·.mandate))
  let fromTime ← optionalInt ((metaOrColumn comments header rows "scope_from").map .string) "scope_from"
  let toTime ← optionalInt ((metaOrColumn comments header rows "scope_to").map .string) "scope_to"
  let cluster := (decisions.head?.map (·.cluster)).getD ((metaValue comments "cluster").getD [])
  let genesisHash := (decisions.head?.map (·.genesisHash)).getD
    ((metaValue comments "genesis_hash").getD [])
  let programId := (decisions.head?.map (·.programId)).getD
    ((metaValue comments "program_id").getD [])
  require (¬ (decisions = [] ∧ (cluster = [] ∨ genesisHash = [] ∨ programId = [])))
    (fail "empty CSV needs cluster, genesis_hash and program_id in the comment header")
  require (¬ (type = .rule ∧ emptyToNull mandate = none)) (fail "CSV rule scope needs scope_mandate")
  require (¬ (type = .dateRange ∧ fromTime = none ∧ toTime = none))
    (fail "CSV date_range scope needs scope_from and/or scope_to")
  return { schemaVersion := 1
           completeness := COMPLETENESS
           completenessNote :=
             orElse ((metaValue comments "completeness_note").getD []) COMPLETENESS_NOTE
           cluster := orElse cluster ((metaValue comments "cluster").getD [])
           genesisHash := orElse genesisHash ((metaValue comments "genesis_hash").getD [])
           programId := orElse programId ((metaValue comments "program_id").getD [])
           scope := { type, mandate, fromTime, toTime }
           decisions }

def parseCsvRows (comments : List (JsString × JsString)) (header : List JsString)
    (rows : List JsString) : Except ExportError DecisionBundle := do
  ["signature", "kind", "amount", "mandate"].forM fun col =>
    require ((columnIndex header col).isSome) (fail ("CSV is missing required column " ++ col))
  let decisions ← (filledRows rows).mapM fun row => parseRow comments header row.2 row.1
  csvBundle comments header rows decisions

def isRow (line : JsString) : Bool := !line.isEmpty && line.head? ≠ some 0x23

def parseCsv (text : JsString) : Except ExportError DecisionBundle :=
  let text := if text.head? = some 0xfeff then text.drop 1 else text
  let rawLines := csvMarks.splitLines text
  match rawLines.filter isRow with
  | [] => .error (fail "CSV has no header row")
  | header :: rows => parseCsvRows (rawLines.filterMap readComment) (csvMarks.cells header) rows

/-! ## Either -/

inductive ParsedExport
  | single (record : DecisionRecord)
  | bulk (bundle : DecisionBundle)
  deriving DecidableEq

/-- `[a-z_]`. -/
def isColumnUnit (unit : UInt16) : Bool := (0x61 ≤ unit && unit ≤ 0x7a) || unit = 0x5f

def looksCsv (text : JsString) : Bool :=
  let name := text.takeWhile isColumnUnit
  text.head? = some 0x23 || (js "completeness,").isPrefixOf text ||
    (js "schema_version,").isPrefixOf text ||
    (!name.isEmpty && (text.drop name.length).head? = some csvMarks.comma)

/-- A file that is read is well formed. -/
def parseExportText (raw : JsString) : Except ExportError ParsedExport :=
  let trimmed := App.trim raw
  if trimmed = [] then .error (fail "empty input")
  else if looksCsv trimmed && trimmed.head? ≠ some 0x7b && trimmed.head? ≠ some 0x5b then
    (parseCsv trimmed).map .bulk
  else
    match (decodeUtf16 trimmed).bind jsonParse with
    | none =>
        if looksCsv trimmed then (parseCsv trimmed).map .bulk
        else .error (fail "not valid JSON")
    | some json => do
        let o ← requireObject (some (jsValue json)) "record must be a JSON object"
        match field o "decisions" with
        | some (.array _) => (parseBundle (jsValue json)).map .bulk
        | _ => (parseRecord (jsValue json)).map .single

end Veto.Tools

import Veto.Tools.Values
import Veto.Ledger.Readers
import Veto.Foundation.JsonIndent
import Veto.Foundation.Result
import Veto.Sdk.AdvisoryMemo

/-!
# Records of decisions

`lib.ts` of the tools: a record of one decision, how it is built from the accounts and written as
plain JSON, and `parseRecord` with its checks.
-/

namespace Veto.Tools

open Foundation

structure Limits where
  cap : Int
  perTxMax : Int
  expiresAt : Int
  merchant : JsString
  purpose : JsString
  deriving DecidableEq

inductive ChargeKind
  | paid
  | refused
  deriving DecidableEq

def ChargeKind.name : ChargeKind → JsString
  | paid => js "paid"
  | refused => js "refused"

structure DecisionRecord where
  schemaVersion : Int
  cluster : JsString
  genesisHash : JsString
  programId : JsString
  mandate : JsString
  limits : Limits
  kind : ChargeKind
  amount : Int
  counterparty : JsString
  timestamp : Int
  nonce : Int
  reasonCode : Int
  reasonText : JsString
  suggestedOverride : Int
  signature : JsString
  deriving DecidableEq

/-- An error: what it says, and the value of the file that it shows. -/
structure ExportError where
  message : String
  shown : Option JsValue

def fail (message : String) : ExportError := ⟨message, none⟩

/-! ## Checks -/

def isDigits (text : JsString) : Bool := !text.isEmpty && text.all Sdk.isDigit

/-- `/^-?\d+$/`. -/
def isIntegerText : JsString → Bool
  | 0x2d :: digits => isDigits digits
  | digits => isDigits digits

/-- `BigInt` of such a text. -/
def integerValue : JsString → Int
  | 0x2d :: digits => -(Sdk.digitsValue digits : Int)
  | digits => Sdk.digitsValue digits

def requireSafeInt (value : Option JsValue) (name : String) : Except ExportError Int :=
  match value with
  | some (.number n) => okOr n.safeInteger (fail (name ++ " must be a safe integer"))
  | some (.string text) =>
      if isIntegerText text then .ok (integerValue text)
      else .error (fail (name ++ " must be an integer string"))
  | _ => .error (fail (name ++ " must be an integer"))

def requireString (value : Option JsValue) (name : String) : Except ExportError JsString :=
  match value with
  | some (.string text) =>
      if text = [] then .error (fail (name ++ " must be a non-empty string")) else .ok text
  | _ => .error (fail (name ++ " must be a non-empty string"))

def isBase58Unit (unit : UInt16) : Bool := base58Alphabet.contains (Char.ofNat unit.toNat)

/-- How many bytes `decodeBase58` gives. -/
def decodedLength (text : JsString) : Nat :=
  let chars := text.map fun unit => Char.ofNat unit.toNat
  (chars.takeWhile (· = '1')).length + Sdk.byteCount (base58Value 0 chars)

def requireSignature (value : Option JsValue) (name : String) : Except ExportError JsString := do
  let text ← requireString value name
  require (text.length ≤ 88) (fail (name ++ " is not a signature"))
  require (text.all isBase58Unit) (fail (name ++ " is not a signature"))
  require (decodedLength text = 64) (fail (name ++ " is not a signature"))
  return text

/-- A signature read from a file.  A short string is a label. -/
def fileSignature (value : Option JsValue) (name : String) : Except ExportError JsString := do
  let text ← requireString value name
  require (isWellFormedUtf16 text) (fail (name ++ " is not a signature"))
  if 64 ≤ text.length ∨ (32 ≤ text.length ∧ text.all isBase58Unit) then requireSignature value name
  else return text

def requirePubkey (value : Option JsValue) (name : String) : Except ExportError JsString := do
  let text ← requireString value name
  require (Sdk.canonicalAddress text) (fail (name ++ " is not a valid pubkey"))
  return text

def requireKind (text : JsString) : Except ExportError ChargeKind :=
  if text = js "paid" then .ok .paid
  else if text = js "refused" then .ok .refused
  else .error (fail "kind must be paid or refused")

/-- An object that is not an array. -/
def requireObject (value : Option JsValue) (message : String) :
    Except ExportError (List (JsString × JsValue)) :=
  match value with
  | some (.object fields) => .ok fields
  | _ => .error (fail message)

def parseLimits (fields : List (JsString × JsValue)) : Except ExportError Limits := do
  let cap ← requireSafeInt (field fields "cap") "limits.cap"
  let perTxMax ← requireSafeInt (field fields "per_tx_max") "limits.per_tx_max"
  let expiresAt ← requireSafeInt (field fields "expires_at") "limits.expires_at"
  let merchant ← requirePubkey (field fields "merchant") "limits.merchant"
  let purpose ← requireString (field fields "purpose") "limits.purpose"
  return { cap, perTxMax, expiresAt, merchant, purpose }

def parseRecord (input : JsValue) : Except ExportError DecisionRecord := do
  let o ← requireObject (some input) "record must be a JSON object"
  let schemaVersion := toNumber (← requireSafeInt (field o "schema_version") "schema_version")
  require (schemaVersion = 1) (fail ("unsupported schema_version: " ++ toString schemaVersion))
  let kind ← requireKind (← requireString (field o "kind") "kind")
  let lim ← requireObject (field o "limits") "limits must be an object"
  let reasonCode := toNumber (← requireSafeInt (field o "reason_code") "reason_code")
  require (0 ≤ reasonCode ∧ reasonCode ≤ 255) (fail "reason_code out of u8 range")
  let cluster ← requireString (field o "cluster") "cluster"
  let genesisHash ← requireString (field o "genesis_hash") "genesis_hash"
  let programId ← requirePubkey (field o "program_id") "program_id"
  let mandate ← requirePubkey (field o "mandate") "mandate"
  let limits ← parseLimits lim
  let amount ← requireSafeInt (field o "amount") "amount"
  let counterparty ← requirePubkey (field o "counterparty") "counterparty"
  let timestamp ← requireSafeInt (field o "timestamp") "timestamp"
  let nonce ← requireSafeInt (field o "nonce") "nonce"
  let reasonText ← requireString (field o "reason_text") "reason_text"
  let suggestedOverride ← requireSafeInt (field o "suggested_override") "suggested_override"
  let signature ← fileSignature (field o "signature") "signature"
  return { schemaVersion, cluster, genesisHash, programId, mandate, limits, kind, amount,
           counterparty, timestamp, nonce, reasonCode, reasonText, suggestedOverride, signature }

/-! ## Writing -/

/-- `n.toString()` of a big integer. -/
def integerString (n : Int) : JsString := utf16 (numeral n)

/-- `String(n)` of a number. -/
def numberString (n : Int) : JsString := utf16 (numberText n)

def plainNumber (n : Int) : JsonValue := .number (numberText n)

def limitsFields (limits : Limits) : List (JsString × JsonValue) :=
  [(js "cap", plainNumber (toNumber limits.cap)),
    (js "per_tx_max", plainNumber (toNumber limits.perTxMax)),
    (js "expires_at", plainNumber (toNumber limits.expiresAt)),
    (js "merchant", .string limits.merchant),
    (js "purpose", .string limits.purpose)]

/-- The properties of a plain record, in order. -/
def recordFields (record : DecisionRecord) : List (JsString × JsonValue) :=
  [(js "schema_version", plainNumber record.schemaVersion),
    (js "cluster", .string record.cluster),
    (js "genesis_hash", .string record.genesisHash),
    (js "program_id", .string record.programId),
    (js "mandate", .string record.mandate),
    (js "limits", .object (limitsFields record.limits)),
    (js "kind", .string record.kind.name),
    (js "amount", plainNumber (toNumber record.amount)),
    (js "counterparty", .string record.counterparty),
    (js "timestamp", plainNumber (toNumber record.timestamp)),
    (js "nonce", plainNumber (toNumber record.nonce)),
    (js "reason_code", plainNumber record.reasonCode),
    (js "reason_text", .string record.reasonText),
    (js "suggested_override", plainNumber (toNumber record.suggestedOverride)),
    (js "signature", .string record.signature)]

/-- The big integers become numbers. -/
def recordToPlain (record : DecisionRecord) : JsonValue := .object (recordFields record)

def recordToJson (record : DecisionRecord) : JsString :=
  utf16 (indented 0 (recordToPlain record) ++ ['\n'])

/-! ## Building -/

def KIND_PAID : UInt8 := 1

def KIND_REFUSED : UInt8 := 2

def kindName (kind : UInt8) : Option ChargeKind :=
  if kind = KIND_PAID then some .paid else if kind = KIND_REFUSED then some .refused else none

def kindByte : ChargeKind → UInt8
  | .paid => KIND_PAID
  | .refused => KIND_REFUSED

def reasonText (code : UInt8) : String :=
  match code.toNat with
  | 0 => "ok"
  | 1 => "mandate not active"
  | 2 => "past expiry"
  | 3 => "nonce already settled"
  | 4 => "merchant not allowed"
  | 5 => "over per-payment maximum"
  | 6 => "over remaining cap"
  | 7 => "delegation withdrawn"
  | 8 => "insufficient funds"
  | 9 => "zero amount"
  | 10 => "account frozen"
  | 11 => "destination not allowed"
  | 12 => "pool account not allowed"
  | 13 => "over daily limit"
  | 14 => "below price floor"
  | _ => "unknown"

/-- What a record states of a mandate. -/
structure MandateLimits where
  cap : UInt64
  perTxMax : UInt64
  expiresAt : Int64
  merchant : Pubkey
  purpose : String

/-- What an export is made for: the label of the cluster, its genesis hash, and the program. -/
structure ExportPlace where
  cluster : JsString
  genesisHash : JsString
  programId : Pubkey

def address (key : Pubkey) : JsString := js key.display

def buildRecord (place : ExportPlace) (mandate : Pubkey) (mandateAccount : MandateLimits)
    (entry : LedgerEntry) (signature : JsString) : Except ExportError DecisionRecord := do
  let kind ← okOr (kindName entry.kind)
    (fail s!"ledger entry kind {entry.kind} is not a paid or refused charge")
  return {
    schemaVersion := 1
    cluster := place.cluster
    genesisHash := place.genesisHash
    programId := address place.programId
    mandate := address mandate
    limits := {
      cap := mandateAccount.cap.toNat
      perTxMax := mandateAccount.perTxMax.toNat
      expiresAt := mandateAccount.expiresAt.toInt
      merchant := address mandateAccount.merchant
      purpose := js mandateAccount.purpose }
    kind
    amount := entry.amount.toNat
    counterparty := address entry.counterparty
    timestamp := entry.ts.toInt
    nonce := entry.nonce.toNat
    reasonCode := entry.reason.toNat
    reasonText := js (reasonText entry.reason)
    suggestedOverride := entry.suggestedOverride.toNat
    signature }

/-! ## What a field is read as -/

section Read

variable {fields : List (JsString × JsValue)} {name : String} {value : JsValue} {text : JsString}

/-- A key that a list has once. -/
theorem find_key {α : Type} {pairs : List (JsString × α)} {key : JsString} {a : α}
    (hdistinct : (pairs.map Prod.fst).Nodup) (hmem : (key, a) ∈ pairs) :
    (pairs.find? (·.1 = key)).map Prod.snd = some a := by
  induction pairs with
  | nil => exact absurd hmem List.not_mem_nil
  | cons first pairs ih =>
      rw [List.map_cons, List.nodup_cons] at hdistinct
      rw [List.find?_cons]
      rcases List.mem_cons.mp hmem with rfl | hrest
      · rw [decide_eq_true rfl]
        rfl
      · have hne : first.1 ≠ key := fun heq =>
          hdistinct.1 (heq ▸ List.mem_map.mpr ⟨_, hrest, rfl⟩)
        rw [decide_eq_false hne]
        exact ih hdistinct.2 hrest

/-- A property by its place. -/
theorem field_at {i : Nat} (hdistinct : (fields.map Prod.fst).Nodup)
    (h : fields[i]? = some (js name, value)) : field fields name = some value :=
  find_key hdistinct (List.mem_of_getElem? h)

/-- A property by its place, in an object that was plain. -/
theorem field_plain {plain : List (JsString × JsonValue)} {i : Nat} {v : JsonValue}
    (hdistinct : (plain.map Prod.fst).Nodup) (h : plain[i]? = some (js name, v)) :
    field (jsFields plain) name = some (jsValue v) := by
  rw [jsFields_eq]
  refine field_at (i := i) ?_ ?_
  · rw [List.map_map]
    exact hdistinct
  · rw [List.getElem?_map, h]
    rfl

theorem isDigits_decimal (n : Nat) :
    isDigits (Sdk.decimal n) = true ∧ Sdk.digitsValue (Sdk.decimal n) = n := by
  rcases Nat.eq_zero_or_pos n with rfl | hpos
  · exact ⟨rfl, rfl⟩
  · obtain ⟨hnumeral, hvalue⟩ := Sdk.numeral_decimal hpos
    refine ⟨?_, hvalue⟩
    cases hdigits : Sdk.decimal n with
    | nil =>
        rw [hdigits] at hnumeral
        cases hnumeral
    | cons first rest =>
        rw [hdigits] at hnumeral
        simp only [Sdk.isNumeral, Bool.and_eq_true, decide_eq_true_eq] at hnumeral
        obtain ⟨⟨hmin, hmax⟩, hrest⟩ := hnumeral
        have hfirst : Sdk.isDigit first = true := by
          rw [Sdk.isDigit, Bool.and_eq_true, decide_eq_true_eq, decide_eq_true_eq]
          exact ⟨UInt16.le_trans (by decide) hmin, hmax⟩
        rw [isDigits, List.all_cons, hfirst, hrest]
        rfl

theorem integer_of_digits {digits : JsString} (h : isDigits digits = true) :
    isIntegerText digits = true ∧ integerValue digits = Sdk.digitsValue digits := by
  have hminus : ∀ rest, digits ≠ 0x2d :: rest := by
    rintro rest rfl
    rw [isDigits, List.all_cons] at h
    exact absurd h (by simp [Sdk.isDigit])
  constructor
  · unfold isIntegerText
    split
    · exact absurd rfl (hminus _)
    · exact h
  · unfold integerValue
    split
    · exact absurd rfl (hminus _)
    · rfl

/-- A big integer is read back from its text. -/
theorem integerString_reads (n : Int) :
    isIntegerText (integerString n) = true ∧ integerValue (integerString n) = n := by
  obtain ⟨hdigits, hvalue⟩ := isDigits_decimal n.natAbs
  by_cases hneg : n < 0
  · have htext : integerString n = 0x2d :: Sdk.decimal n.natAbs := by
      rw [integerString, numeral, if_pos hneg]
      rfl
    rw [htext]
    refine ⟨hdigits, ?_⟩
    change -(Sdk.digitsValue (Sdk.decimal n.natAbs) : Int) = n
    omega
  · have htext : integerString n = Sdk.decimal n.natAbs := by
      rw [integerString, numeral, if_neg hneg]
      rfl
    obtain ⟨hinteger, heq⟩ := integer_of_digits hdigits
    rw [htext, heq]
    exact ⟨hinteger, by omega⟩

@[simp] theorem requireSafeInt_integerString (n : Int) :
    requireSafeInt (some (.string (integerString n))) name = .ok n := by
  obtain ⟨hinteger, hvalue⟩ := integerString_reads n
  change (if isIntegerText (integerString n) = true then _ else _) = _
  rw [if_pos hinteger, hvalue]

theorem integerString_ne_nil (n : Int) : integerString n ≠ [] := by
  intro hnil
  have h := (integerString_reads n).1
  rw [hnil] at h
  cases h

/-- A number is written so that it is read as the same number. -/
theorem jsValue_plainNumber {n : Int} (hdouble : toNumber n = n) (hsmall : n.natAbs < 2 ^ 1023) :
    jsValue (plainNumber n) = .number (.finite n) := by
  have hwritten := toNumber_writtenNumber hdouble
  have hlt : (writtenNumber n).natAbs < 2 ^ 1023 := by
    by_contra hlarge
    have hle := pow_le_roundNumber (k := 1023) (not_lt.mp hlarge)
    rw [← natAbs_toNumber, hwritten] at hle
    omega
  rw [plainNumber, numberText, jsValue_numeral hlt, hwritten]

theorem toNumber_lt {n : Int} (h : n.natAbs ≤ 2 ^ 64) : (toNumber n).natAbs < 2 ^ 1023 := by
  have hle := roundNumber_le n.natAbs
  have hdouble : 2 * 2 ^ 64 = 2 ^ 65 := rfl
  have hpow : 2 ^ 65 < 2 ^ 1023 := Nat.pow_lt_pow_right Nat.one_lt_two (by decide)
  rw [natAbs_toNumber]
  exact (hle.trans ((Nat.mul_le_mul_left 2 h).trans_eq hdouble)).trans_lt hpow

/-- Of a big integer, the file tells the number that it is converted to. -/
theorem requireSafeInt_plain {n : Int} (hsmall : n.natAbs ≤ 2 ^ 64) :
    requireSafeInt (some (jsValue (plainNumber (toNumber n)))) name =
      if n.natAbs ≤ MAX_SAFE_INTEGER then .ok n
      else .error (fail (name ++ " must be a safe integer")) := by
  rw [jsValue_plainNumber (toNumber_idem n) (toNumber_lt hsmall)]
  change okOr (JsNumber.finite (toNumber n)).safeInteger _ = _
  rw [safeInteger_int]
  by_cases hsafe : n.natAbs ≤ MAX_SAFE_INTEGER
  · rw [toNumber_small hsafe, if_pos hsafe, if_pos hsafe]
    rfl
  · rw [if_neg hsafe, if_neg (not_le.mpr (toNumber_large (not_le.mp hsafe)))]
    rfl

end Read

/-! ## What a record is read from -/

/-- Each limit of a record is read from the field it names. -/
structure LimitsFrom (lim : List (JsString × JsValue)) (limits : Limits) : Prop where
  cap : requireSafeInt (field lim "cap") "limits.cap" = .ok limits.cap
  perTxMax : requireSafeInt (field lim "per_tx_max") "limits.per_tx_max" = .ok limits.perTxMax
  expiresAt : requireSafeInt (field lim "expires_at") "limits.expires_at" = .ok limits.expiresAt
  merchant : requirePubkey (field lim "merchant") "limits.merchant" = .ok limits.merchant
  purpose : requireString (field lim "purpose") "limits.purpose" = .ok limits.purpose

/-- Each part of a record is read from the field it names. -/
structure RecordFrom (o lim : List (JsString × JsValue)) (record : DecisionRecord) : Prop where
  schemaVersion : ∃ n, requireSafeInt (field o "schema_version") "schema_version" = .ok n ∧
    toNumber n = record.schemaVersion
  supported : record.schemaVersion = 1
  kind : ∃ text, requireString (field o "kind") "kind" = .ok text ∧
    requireKind text = .ok record.kind
  limitsObject : requireObject (field o "limits") "limits must be an object" = .ok lim
  reasonCode : ∃ n, requireSafeInt (field o "reason_code") "reason_code" = .ok n ∧
    toNumber n = record.reasonCode
  byte : 0 ≤ record.reasonCode ∧ record.reasonCode ≤ 255
  cluster : requireString (field o "cluster") "cluster" = .ok record.cluster
  genesisHash : requireString (field o "genesis_hash") "genesis_hash" = .ok record.genesisHash
  programId : requirePubkey (field o "program_id") "program_id" = .ok record.programId
  mandate : requirePubkey (field o "mandate") "mandate" = .ok record.mandate
  limits : LimitsFrom lim record.limits
  amount : requireSafeInt (field o "amount") "amount" = .ok record.amount
  counterparty : requirePubkey (field o "counterparty") "counterparty" = .ok record.counterparty
  timestamp : requireSafeInt (field o "timestamp") "timestamp" = .ok record.timestamp
  nonce : requireSafeInt (field o "nonce") "nonce" = .ok record.nonce
  reasonText : requireString (field o "reason_text") "reason_text" = .ok record.reasonText
  suggestedOverride :
    requireSafeInt (field o "suggested_override") "suggested_override" = .ok record.suggestedOverride
  signature : fileSignature (field o "signature") "signature" = .ok record.signature

theorem parseLimits_eq_ok {lim : List (JsString × JsValue)} {limits : Limits} :
    parseLimits lim = .ok limits ↔ LimitsFrom lim limits := by
  unfold parseLimits
  simp only [bind_ok_iff, pure_eq_ok_iff]
  constructor
  · rintro ⟨_, hcap, _, hmax, _, hexpires, _, hmerchant, _, hpurpose, rfl⟩
    exact ⟨hcap, hmax, hexpires, hmerchant, hpurpose⟩
  · rintro ⟨hcap, hmax, hexpires, hmerchant, hpurpose⟩
    exact ⟨_, hcap, _, hmax, _, hexpires, _, hmerchant, _, hpurpose, rfl⟩

/-- **`parseRecord` takes each part from the field it names, or fails.** -/
theorem parseRecord_eq_ok {o : List (JsString × JsValue)} {record : DecisionRecord} :
    parseRecord (.object o) = .ok record ↔ ∃ lim, RecordFrom o lim record := by
  unfold parseRecord
  simp only [bind_ok_iff, require_eq_ok, pure_eq_ok_iff, parseLimits_eq_ok]
  constructor
  · rintro ⟨_, ⟨⟩, _, hversion, _, hone, _, hkindText, _, hkind, lim, hlim, _, hcode, _, hbyte, _,
      hcluster, _, hgenesis, _, hprogram, _, hmandate, _, hlimits, _, hamount, _, hcounterparty, _,
      htimestamp, _, hnonce, _, htext, _, hsuggested, _, hsignature, rfl⟩
    exact ⟨lim, ⟨_, hversion, rfl⟩, hone, ⟨_, hkindText, hkind⟩, hlim, ⟨_, hcode, rfl⟩, hbyte,
      hcluster, hgenesis, hprogram, hmandate, hlimits, hamount, hcounterparty, htimestamp, hnonce,
      htext, hsuggested, hsignature⟩
  · rintro ⟨lim, ⟨_, hversion, hversionEq⟩, hone, ⟨_, hkindText, hkind⟩, hlim, ⟨_, hcode, hcodeEq⟩,
      hbyte, hcluster, hgenesis, hprogram, hmandate, hlimits, hamount, hcounterparty, htimestamp,
      hnonce, htext, hsuggested, hsignature⟩
    refine ⟨o, rfl, _, hversion, (), hversionEq.trans hone, _, hkindText, _, hkind, lim, hlim, _,
      hcode, (), hcodeEq ▸ hbyte, _, hcluster, _, hgenesis, _, hprogram, _, hmandate, _, hlimits, _,
      hamount, _, hcounterparty, _, htimestamp, _, hnonce, _, htext, _, hsuggested, _, hsignature, ?_⟩
    rw [hversionEq, hcodeEq]

end Veto.Tools

import Veto.Sdk.AdvisoryMemo

/-!
# The platform as the engine has it

`JSON.parse` and the constructor of a `PublicKey`, with texts in place of strings: an unpaired
surrogate is U+FFFD in them.  The parser of a memo reads the same on texts as on strings.
-/

namespace Veto.Sdk.Memo

open Foundation

def lossyText (text : JsString) : String := String.ofList (lossyUtf16 text)

mutual

def toJson : JsonValue → Json
  | .null => .null
  | .bool value => .bool value
  | .number numeral => .number (String.ofList numeral)
  | .string text => .string (lossyText text)
  | .array items => .array (toJsons items)
  | .object fields => .object (toFields fields)

def toJsons : List JsonValue → List Json
  | [] => []
  | item :: items => toJson item :: toJsons items

def toFields : List (JsString × JsonValue) → List (String × Json)
  | [] => []
  | field :: fields => toField field :: toFields fields

def toField : JsString × JsonValue → String × Json
  | (key, value) => (lossyText key, toJson value)

end

/-- `new PublicKey(text)`. -/
def publicKeyOf (chars : Text) : Option Pubkey :=
  if chars.all base58Alphabet.contains then
    let n := base58Value 0 chars
    if (chars.takeWhile (· = '1')).length + byteCount n = 32 then some (BitVec.ofNat 256 n) else none
  else none

/-- Texts are compared as the locale has it. -/
def engine (localeCompare : String → String → Int) : Platform where
  parseJson text := (jsonParse text.toList).map toJson
  publicKey text := publicKeyOf text.toList
  localeCompare := localeCompare

def lossyBody (body : AdvisoryBody) : Sdk.AdvisoryBody where
  mandate := lossyText body.mandate
  amount := body.amount
  nonce := body.nonce
  reason := lossyText body.reason
  descriptionSha256 := lossyText body.descriptionSha256

/-! ## Strings without an unpaired surrogate -/

section Strings

variable {text : JsString} {name : String}

theorem utf16_lossy (h : '\ufffd' ∉ lossyUtf16 text) : utf16 (lossyUtf16 text) = text := by
  have hunit : ∀ {unit : UInt16} {chars : Text},
      '\ufffd' ∉ (if isSurrogate unit then '\ufffd' else Char.ofNat unit.toNat) :: chars →
      utf16Units (if isSurrogate unit then '\ufffd' else Char.ofNat unit.toNat) = [unit] := by
    intro unit chars hmem
    cases hsurrogate : isSurrogate unit with
    | true =>
        rw [hsurrogate, if_pos rfl] at hmem
        exact absurd List.mem_cons_self hmem
    | false =>
        rw [if_neg Bool.false_ne_true]
        exact utf16Units_unit hsurrogate
  fun_induction lossyUtf16 text with
  | case1 => rfl
  | case2 unit => rw [utf16_cons, hunit h, utf16_nil, List.append_nil]
  | case3 unit next rest hpair ih =>
      rw [utf16_cons, utf16Units_pair hpair, ih (fun hmem => h (List.mem_cons_of_mem _ hmem))]
      rfl
  | case4 unit next rest hpair ih =>
      rw [utf16_cons, hunit h, ih (fun hmem => h (List.mem_cons_of_mem _ hmem))]
      rfl

theorem mem_of_decode_none (h : decodeUtf16 text = none) : '\ufffd' ∈ lossyUtf16 text := by
  by_contra hmem
  rw [← utf16_lossy hmem, decodeUtf16_utf16] at h
  cases h

theorem lossyText_of_decode {chars : Text} (h : decodeUtf16 text = some chars) :
    lossyText text = String.ofList chars := by
  rw [lossyText, lossyUtf16_of_decode h]

theorem lossyText_eq (hname : '\ufffd' ∉ name.toList) : lossyText text = name ↔ text = js name := by
  constructor
  · rintro rfl
    unfold lossyText at hname ⊢
    rw [String.toList_ofList] at hname
    unfold js
    rw [String.toList_ofList, utf16_lossy hname]
  · rintro rfl
    rw [lossyText_of_decode (decodeUtf16_js name), String.ofList_toList]

theorem parseU64_lossy : Sdk.parseU64 (lossyText text) = parseU64 text := by
  unfold parseU64
  cases hdecode : decodeUtf16 text with
  | some chars => rw [lossyText_of_decode hdecode, Option.bind_some]
  | none =>
      have hmem := mem_of_decode_none hdecode
      have hnot : ¬ (lossyUtf16 text = ['0'] ∨ (lossyUtf16 text).length ≤ 20 ∧
          (lossyUtf16 text).all Char.isDigit = true ∧
          (lossyUtf16 text).head?.any (· ≠ '0') = true) := by
        rintro (hzero | ⟨-, hdigits, -⟩)
        · rw [hzero] at hmem
          revert hmem
          decide
        · have hdigit := List.all_eq_true.mp hdigits _ hmem
          revert hdigit
          decide
      unfold Sdk.parseU64 lossyText
      rw [String.toList_ofList]
      dsimp only
      rw [if_pos hnot]
      rfl

theorem isSha256Hex_lossy : Sdk.isSha256Hex (lossyText text) = isSha256Hex text := by
  unfold isSha256Hex
  cases hdecode : decodeUtf16 text with
  | some chars => rw [lossyText_of_decode hdecode, Option.any_some]
  | none =>
      have hmem := mem_of_decode_none hdecode
      rw [Option.any_none]
      unfold Sdk.isSha256Hex lossyText
      rw [String.toList_ofList, decide_eq_false_iff_not]
      rintro ⟨-, hall⟩
      have hhex := List.all_eq_true.mp hall _ hmem
      revert hhex
      decide

theorem publicKeyBase58_eq {chars : Text} (h : decodeUtf16 text = some chars) :
    publicKeyBase58 text = (publicKeyOf chars).map fun key => js key.display := by
  unfold publicKeyBase58 publicKeyOf
  rw [h, Option.bind_eq_bind, Option.bind_some]
  dsimp only
  split_ifs <;> rfl

/-- An address is canonical where the key of it is printed as it is. -/
theorem canonicalAddress_lossy : canonicalAddress text = true ↔
    ∃ key, publicKeyOf (lossyText text).toList = some key ∧ key.display = lossyText text := by
  unfold canonicalAddress
  rw [decide_eq_true_eq]
  cases hdecode : decodeUtf16 text with
  | some chars =>
      rw [publicKeyBase58_eq hdecode, lossyText_of_decode hdecode, String.toList_ofList,
        Option.map_eq_some_iff]
      refine exists_congr fun key => and_congr_right fun _ => ?_
      rw [← utf16_of_decode hdecode]
      constructor
      · intro hkey
        have hchars := congrArg decodeUtf16 hkey
        rw [decodeUtf16_js, decodeUtf16_utf16, Option.some_inj] at hchars
        rw [← hchars, String.ofList_toList]
      · intro hkey
        rw [hkey, js, String.toList_ofList]
  | none =>
      have hmem := mem_of_decode_none hdecode
      refine iff_of_false ?_ ?_
      · unfold publicKeyBase58
        rw [hdecode]
        exact fun h => by cases h
      · rintro ⟨key, -, hkey⟩
        have hin : '\ufffd' ∈ key.display.toList := by
          rw [hkey, lossyText, String.toList_ofList]
          exact hmem
        have halphabet := mem_base58Alphabet_of_display hin
        revert halphabet
        decide

end Strings

/-! ## Records -/

section Records

variable {record : List (JsString × JsonValue)} {name : String}

theorem toFields_eq (record : List (JsString × JsonValue)) :
    toFields record = record.map fun field => (lossyText field.1, toJson field.2) := by
  induction record with
  | nil => rw [toFields, List.map_nil]
  | cons field record ih =>
      obtain ⟨key, value⟩ := field
      rw [toFields, toField, ih, List.map_cons]

theorem lookup_toFields (hname : '\ufffd' ∉ name.toList) :
    (toFields record).lookup name = (record.lookup (js name)).map toJson := by
  rw [toFields_eq]
  induction record with
  | nil => rfl
  | cons field record ih =>
      obtain ⟨key, value⟩ := field
      have hkey : (name == lossyText key) = (js name == key) := by
        rw [Bool.eq_iff_iff, beq_iff_eq, beq_iff_eq, eq_comm, lossyText_eq hname, eq_comm]
      rw [List.map_cons, List.lookup_cons, List.lookup_cons, ih, hkey]
      cases js name == key <;> rfl

theorem stringField_toFields (hname : '\ufffd' ∉ name.toList) :
    Sdk.stringField (toFields record) name = (stringField record name).map lossyText := by
  unfold Sdk.stringField stringField
  rw [lookup_toFields hname]
  cases record.lookup (js name) with
  | none => rfl
  | some value => cases value <;> simp [toJson]

theorem keys_toFields : (toFields record).map Prod.fst = (record.map Prod.fst).map lossyText := by
  rw [toFields_eq, List.map_map, List.map_map]
  rfl

theorem expectedKeys_plain {key : String} (h : key ∈ expectedKeys) : '\ufffd' ∉ key.toList := by
  revert key
  decide

theorem missing_toFields :
    expectedKeys.any (fun key => key ∉ (toFields record).map Prod.fst) =
      expectedKeys.any (fun key => js key ∉ record.map Prod.fst) := by
  rw [keys_toFields, Bool.eq_iff_iff, List.any_eq_true, List.any_eq_true]
  refine exists_congr fun key => and_congr_right fun hkey => ?_
  rw [decide_eq_true_eq, decide_eq_true_eq, List.mem_map]
  refine not_congr ⟨?_, ?_⟩
  · rintro ⟨text, hmem, htext⟩
    rwa [← (lossyText_eq (expectedKeys_plain hkey)).mp htext]
  · intro hmem
    exact ⟨js key, hmem, (lossyText_eq (expectedKeys_plain hkey)).mpr rfl⟩

/-- The fields of a memo are read the same. -/
theorem stringField_engine {key : String} (h : key ∈ expectedKeys) :
    Sdk.stringField (toFields record) key = (stringField record key).map lossyText :=
  stringField_toFields (expectedKeys_plain h)

/-- What is read of the fields. -/
theorem readBody_engine (localeCompare : String → String → Int)
    (record : List (JsString × JsonValue)) :
    (do
      let mandate ← Sdk.stringField (toFields record) "mandate"
      let reason ← Sdk.stringField (toFields record) "reason"
      let amountText ← Sdk.stringField (toFields record) "amount"
      let nonceText ← Sdk.stringField (toFields record) "nonce"
      let hash ← Sdk.stringField (toFields record) "description_sha256"
      if ¬ Sdk.isSha256Hex hash then none
      let amount ← Sdk.parseU64 amountText
      let nonce ← Sdk.parseU64 nonceText
      let key ← (engine localeCompare).publicKey mandate
      if key.display ≠ mandate then none
      return ({ mandate, amount, nonce, reason, descriptionSha256 := hash } : Sdk.AdvisoryBody)) =
      (readBody record).map lossyBody := by
  unfold readBody
  rw [stringField_engine (by decide), stringField_engine (by decide),
    stringField_engine (by decide), stringField_engine (by decide),
    stringField_engine (by decide)]
  cases stringField record "mandate" with
  | none => rfl
  | some mandate =>
  cases stringField record "reason" with
  | none => rfl
  | some reason =>
  cases stringField record "amount" with
  | none => rfl
  | some amountText =>
  cases stringField record "nonce" with
  | none => rfl
  | some nonceText =>
  cases stringField record "description_sha256" with
  | none => rfl
  | some hash =>
  simp only [Option.map_some, Option.bind_eq_bind, Option.bind_some, isSha256Hex_lossy,
    parseU64_lossy]
  cases isSha256Hex hash with
  | false => rfl
  | true =>
  cases parseU64 amountText with
  | none => rfl
  | some amount =>
  cases parseU64 nonceText with
  | none => rfl
  | some nonce =>
  change (publicKeyOf (lossyText mandate).toList).bind (fun key =>
      if key.display ≠ lossyText mandate then none else
        some ⟨lossyText mandate, amount, nonce, lossyText reason, lossyText hash⟩) =
    Option.map lossyBody (if ¬ canonicalAddress mandate = true then none else
      some ⟨mandate, amount, nonce, reason, hash⟩)
  by_cases hcanonical : canonicalAddress mandate = true
  · obtain ⟨key, hkey, hdisplay⟩ := canonicalAddress_lossy.mp hcanonical
    rw [if_neg (not_not_intro hcanonical), hkey, Option.bind_some,
      if_neg (not_not_intro hdisplay)]
    rfl
  · rw [if_pos hcanonical]
    cases hkey : publicKeyOf (lossyText mandate).toList with
    | none => rfl
    | some key =>
        rw [Option.bind_some, if_pos]
        · rfl
        · exact fun hdisplay => hcanonical (canonicalAddress_lossy.mpr ⟨key, hkey, hdisplay⟩)

end Records

/-- **A memo is read on texts as it is on strings.** -/
theorem parseAdvisoryMemo_engine (localeCompare : String → String → Int) (text : String) :
    Sdk.parseAdvisoryMemo (engine localeCompare) text =
      (parseAdvisoryMemo text.toList).map lossyBody := by
  unfold Sdk.parseAdvisoryMemo parseAdvisoryMemo parseMemo
  cases text.toList.dropPrefix? ADVISORY_MEMO_PREFIX.toList with
  | none => rfl
  | some rest =>
      change (((jsonParse (String.ofList rest).toList).map toJson).bind _) =
        Option.map lossyBody ((jsonParse rest).bind _)
      rw [String.toList_ofList]
      cases jsonParse rest with
      | none => rfl
      | some value =>
          cases value with
          | object record =>
              rw [Option.map_some, Option.bind_some, Option.bind_some, toJson]
              dsimp only
              rw [missing_toFields, keys_toFields, List.length_map]
              by_cases hkeys : (record.map Prod.fst).length ≠ expectedKeys.length ∨
                  expectedKeys.any (fun key => js key ∉ record.map Prod.fst) = true
              · rw [if_pos hkeys, if_pos hkeys]
                rfl
              · rw [if_neg hkeys, if_neg hkeys]
                exact readBody_engine localeCompare record
          | _ => rfl

end Veto.Sdk.Memo

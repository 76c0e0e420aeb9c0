import Veto.Foundation.Json
import Veto.Foundation.Utf8Cut
import Veto.Sdk.Advisory
import Veto.Sdk.RequestFields

/-!
# The memo of an advisory decline

`advisory.ts`: the memo that an agent writes when it declines on its own, and the parser of it.
The reason is any string of JavaScript, cut to 256 bytes; the bytes of the memo are counted after
its strings are escaped.
-/

namespace Veto.Sdk.Memo

open Foundation

/-! ## The memo -/

def ADVISORY_REASON_MAX_BYTES : Nat := 256

/-- `Buffer.from(text, "utf8")`. -/
def utf8Of (text : JsString) : Bytes := textBytes (lossyUtf16 text)

def capAdvisoryReason (reason : JsString) : JsString :=
  let buf := utf8Of reason
  if buf.length ≤ ADVISORY_REASON_MAX_BYTES then reason
  else
    -- The width of the character at the cut is looked up, and the slice is the same either way.
    utf16 (Foundation.decodeUtf8 0 (buf.take (characterStart buf ADVISORY_REASON_MAX_BYTES)))

/-- `digest("hex")`. -/
def hexText (bytes : Bytes) : Text :=
  bytes.flatMap fun b => [hexDigitChar (b.toNat / 16), hexDigitChar (b.toNat % 16)]

structure MemoFields where
  mandate : JsString
  amount : Nat
  nonce : Nat
  reason : JsString
  description : JsString

structure AdvisoryMemo where
  text : Text
  reason : JsString

section Writer

variable (sha256 : Bytes → Vector UInt8 32)

def descriptionSha256 (description : JsString) : JsString :=
  utf16 (hexText (sha256 (utf8Of description)).toList)

def memoPairs (fields : MemoFields) (reason : JsString) : List (JsString × Scalar) :=
  [(js "mandate", .string fields.mandate),
    (js "amount", .string (decimal fields.amount)),
    (js "nonce", .string (decimal fields.nonce)),
    (js "reason", .string reason),
    (js "description_sha256", .string (descriptionSha256 sha256 fields.description))]

theorem memoPairs_distinct (fields : MemoFields) (reason : JsString) :
    ((memoPairs sha256 fields reason).map Prod.fst).Nodup := by
  change (expectedKeys.map js).Nodup
  decide

def memoRecord (fields : MemoFields) (reason : JsString) : Record :=
  ⟨memoPairs sha256 fields reason, memoPairs_distinct sha256 fields reason⟩

def advisoryMemoText (fields : MemoFields) : AdvisoryMemo :=
  let reason := capAdvisoryReason fields.reason
  { text := ADVISORY_MEMO_PREFIX.toList ++ (memoRecord sha256 fields reason).print
    reason }

end Writer

/-! ## The parser -/

structure AdvisoryBody where
  mandate : JsString
  amount : Nat
  nonce : Nat
  reason : JsString
  descriptionSha256 : JsString
  deriving DecidableEq

def stringField (record : List (JsString × JsonValue)) (name : String) : Option JsString := do
  match ← record.lookup (js name) with
  | .string text => some text
  | _ => none

def parseU64 (value : JsString) : Option Nat :=
  (decodeUtf16 value).bind fun text => Sdk.parseU64 (String.ofList text)

def isSha256Hex (value : JsString) : Bool :=
  (decodeUtf16 value).any fun text => Sdk.isSha256Hex (String.ofList text)

def readBody (record : List (JsString × JsonValue)) : Option AdvisoryBody := do
  let mandate ← stringField record "mandate"
  let reason ← stringField record "reason"
  let amountText ← stringField record "amount"
  let nonceText ← stringField record "nonce"
  let hash ← stringField record "description_sha256"
  if ¬ isSha256Hex hash then none
  let amount ← parseU64 amountText
  let nonce ← parseU64 nonceText
  if ¬ canonicalAddress mandate then none
  return { mandate, amount, nonce, reason, descriptionSha256 := hash }

/-- A memo with a prefix, and an object that has the expected keys and no other. -/
def parseMemo (memoPrefix : String) (expected : List String) (text : Text) :
    Option AdvisoryBody := do
  let rest ← text.dropPrefix? memoPrefix.toList
  match ← jsonParse rest with
  | .object record =>
    let keys := record.map Prod.fst
    if keys.length ≠ expected.length ∨ expected.any (fun key => js key ∉ keys) then none
    else readBody record
  | _ => none

def parseAdvisoryMemo (text : Text) : Option AdvisoryBody :=
  parseMemo ADVISORY_MEMO_PREFIX expectedKeys text

/-! ## The reason -/

/-- `front` is the longest prefix of a text that takes at most `room` bytes. -/
structure LongestPrefix (room : Nat) (text front : Text) : Prop where
  isPrefix : front <+: text
  fits : utf8Length front ≤ room
  longest : ∀ other, other <+: text → utf8Length other ≤ room → other <+: front

/-- The reason that is stored: the string itself, or the longest prefix of its characters.  An
unpaired surrogate is then the character U+FFFD. -/
structure Stored (reason stored : JsString) : Prop where
  short : (utf8Of reason).length ≤ ADVISORY_REASON_MAX_BYTES → stored = reason
  long : ADVISORY_REASON_MAX_BYTES < (utf8Of reason).length → ∃ front, stored = utf16 front ∧
    LongestPrefix ADVISORY_REASON_MAX_BYTES (lossyUtf16 reason) front

theorem longestPrefix_fitting (room : Nat) (text : Text) :
    LongestPrefix room text (fitting room text) :=
  ⟨fitting_isPrefix, utf8Length_fitting, fun _ hfront hroom => prefix_fitting hfront hroom⟩

theorem capAdvisoryReason_long {reason : JsString}
    (h : ADVISORY_REASON_MAX_BYTES < (utf8Of reason).length) :
    capAdvisoryReason reason = utf16 (fitting ADVISORY_REASON_MAX_BYTES (lossyUtf16 reason)) := by
  have hcut : (utf8Of reason).take (characterStart (utf8Of reason) ADVISORY_REASON_MAX_BYTES) =
      textBytes (fitting ADVISORY_REASON_MAX_BYTES (lossyUtf16 reason)) := take_characterStart h
  have hdecode := decodeUtf8_textBytes (fitting ADVISORY_REASON_MAX_BYTES (lossyUtf16 reason)) []
  rw [List.append_nil] at hdecode
  unfold capAdvisoryReason
  dsimp only
  rw [if_neg (Nat.not_le.mpr h), hcut, hdecode]
  simp [Foundation.decodeUtf8]

theorem capAdvisoryReason_stored (reason : JsString) : Stored reason (capAdvisoryReason reason) where
  short h := by
    unfold capAdvisoryReason
    exact if_pos h
  long h := ⟨_, capAdvisoryReason_long h, longestPrefix_fitting _ _⟩

/-- What is stored takes at most 256 bytes. -/
theorem utf8Of_capAdvisoryReason (reason : JsString) :
    (utf8Of (capAdvisoryReason reason)).length ≤ ADVISORY_REASON_MAX_BYTES := by
  by_cases h : (utf8Of reason).length ≤ ADVISORY_REASON_MAX_BYTES
  · rw [(capAdvisoryReason_stored reason).short h]
    exact h
  · rw [capAdvisoryReason_long (Nat.lt_of_not_le h), utf8Of, lossyUtf16_of_decode (decodeUtf16_utf16 _)]
    exact utf8Length_fitting

/-! ## Numbers, hashes and addresses are read back -/

theorem length_toDigits_u64 {n : Nat} (h : n < 2 ^ 64) : (Nat.toDigits 10 n).length ≤ 20 :=
  (Nat.length_toDigits_le_iff (by decide) (by decide)).mpr (by omega)

theorem parseU64_decimal {n : Nat} (h : n < 2 ^ 64) : parseU64 (decimal n) = some n := by
  have hcanonical : Nat.toDigits 10 n = ['0'] ∨ (Nat.toDigits 10 n).length ≤ 20 ∧
      (Nat.toDigits 10 n).all Char.isDigit = true ∧
      (Nat.toDigits 10 n).head?.any (· ≠ '0') = true := by
    rcases Nat.eq_zero_or_pos n with rfl | hpos
    · exact .inl (Nat.toDigits_zero 10)
    · right
      refine ⟨length_toDigits_u64 h, ?_, ?_⟩
      · rw [List.all_eq_true]
        intro c hc
        exact Nat.isDigit_of_mem_toDigits (by decide) (by decide) hc
      · obtain ⟨digit, rest, hmin, hmax, hdigits⟩ := toDigits_head hpos
        rw [hdigits]
        interval_cases digit <;> rfl
  unfold parseU64 decimal
  rw [decodeUtf16_utf16, Option.bind_some]
  unfold Sdk.parseU64
  rw [String.toList_ofList]
  dsimp only
  rw [if_neg (not_not_intro hcanonical), Nat.ofDigitChars_ten_toDigits, if_neg (by omega)]

theorem length_hexText (bytes : Bytes) : (hexText bytes).length = 2 * bytes.length := by
  unfold hexText
  induction bytes with
  | nil => rfl
  | cons b bytes ih =>
      rw [List.flatMap_cons, List.length_append, ih, List.length_cons]
      simp only [List.length_cons, List.length_nil]
      omega

/-- What each character of a hash is. -/
theorem mem_hexText {bytes : Bytes} {c : Char} (h : c ∈ hexText bytes) :
    ∃ digit < 16, c = hexDigitChar digit := by
  obtain ⟨b, -, hc⟩ := List.mem_flatMap.mp h
  have hlt := b.toNat_lt
  rcases List.mem_cons.mp hc with rfl | hc
  · exact ⟨b.toNat / 16, by omega, rfl⟩
  · exact ⟨b.toNat % 16, by omega, List.mem_singleton.mp hc⟩

theorem isSha256Hex_descriptionSha256 (sha256 : Bytes → Vector UInt8 32) (description : JsString) :
    isSha256Hex (descriptionSha256 sha256 description) = true := by
  unfold isSha256Hex descriptionSha256
  rw [decodeUtf16_utf16, Option.any_some]
  unfold Sdk.isSha256Hex
  rw [String.toList_ofList, decide_eq_true_eq]
  constructor
  · rw [length_hexText, Vector.length_toList]
  · rw [List.all_eq_true]
    intro c hc
    obtain ⟨digit, hlt, rfl⟩ := mem_hexText hc
    interval_cases digit <;> rfl

/-! ## Addresses are read back -/

theorem lt_byteCount (n : Nat) : n < 256 ^ byteCount n := by
  unfold byteCount
  split_ifs with hzero
  · omega
  · have hlog : n < 2 ^ (n.log2 + 1) := Nat.lt_log2_self
    have hpow : (256 : Nat) ^ (n.log2 / 8 + 1) = 2 ^ (8 * (n.log2 / 8 + 1)) := Nat.pow_mul 2 8 _ |>.symm
    rw [hpow]
    exact hlog.trans_le (Nat.pow_le_pow_right (by decide) (by omega))

theorem byteCount_le {n count : Nat} (h : n < 256 ^ count) : byteCount n ≤ count := by
  unfold byteCount
  split_ifs with hzero
  · exact Nat.zero_le _
  · have hlog : 2 ^ n.log2 ≤ n := Nat.log2_self_le hzero
    have hpow : (256 : Nat) ^ count = 2 ^ (8 * count) := Nat.pow_mul 2 8 _ |>.symm
    rw [hpow] at h
    have hlt : n.log2 < 8 * count :=
      (Nat.pow_lt_pow_iff_right (by decide : 1 < 2)).mp (hlog.trans_lt h)
    omega

theorem le_of_byteCount {n count : Nat} (h : byteCount n = count + 1) : 256 ^ count ≤ n := by
  by_contra hlt
  have hle := byteCount_le (Nat.lt_of_not_le hlt)
  omega

theorem toBytes_getElem? (key : Pubkey) {i : Nat} (h : i < 32) :
    key.toBytes[i]? = some (UInt8.ofNat (key.toNat / 256 ^ (31 - i))) := by
  have hpow : (2 : Nat) ^ (8 * (31 - i)) = 256 ^ (31 - i) := Nat.pow_mul 2 8 _
  unfold Pubkey.toBytes
  rw [List.getElem?_map, List.getElem?_range h, Option.map_some, Nat.shiftRight_eq_div_pow, hpow]

/-- The zero bytes in front of an address, and the others. -/
theorem leading_zeros (key : Pubkey) :
    (key.toBytes.takeWhile (· = 0)).length + byteCount key.toNat = 32 := by
  have hfits : byteCount key.toNat ≤ 32 := byteCount_le (key.isLt.trans_eq (by decide +kernel))
  have hsplit := List.take_append_drop (32 - byteCount key.toNat) key.toBytes
  have hzeros : ∀ b ∈ key.toBytes.take (32 - byteCount key.toNat), decide (b = 0) = true := by
    intro b hb
    obtain ⟨i, hget⟩ := List.mem_iff_getElem?.mp hb
    rw [List.getElem?_take] at hget
    split_ifs at hget with hi
    rw [toBytes_getElem? key (by omega)] at hget
    have hnone : key.toNat / 256 ^ (31 - i) = 0 := by
      refine Nat.div_eq_of_lt ((lt_byteCount _).trans_le ?_)
      exact Nat.pow_le_pow_right (by decide) (by omega)
    rw [hnone] at hget
    cases hget
    rfl
  have hstop : (key.toBytes.drop (32 - byteCount key.toNat)).head?.all
      (fun b => !decide (b = 0)) = true := by
    rw [List.head?_drop]
    cases hcount : byteCount key.toNat with
    | zero =>
        rw [List.getElem?_eq_none (by rw [Pubkey.length_toBytes])]
        rfl
    | succ count =>
        have hindex : 31 - (32 - (count + 1)) = count := by omega
        have hmin := le_of_byteCount hcount
        have hmax := lt_byteCount key.toNat
        rw [hcount, pow_succ] at hmax
        have hbyte : key.toNat / 256 ^ count < 256 := by
          rw [Nat.div_lt_iff_lt_mul (by positivity), Nat.mul_comm]
          exact hmax
        have hpos : 0 < key.toNat / 256 ^ count := Nat.div_pos hmin (by positivity)
        rw [toBytes_getElem? key (by omega), hindex, Option.all_some, Bool.not_eq_true',
          decide_eq_false_iff_not]
        intro hzero
        have hvalue := congrArg UInt8.toNat hzero
        rw [UInt8.toNat_ofNat_of_lt' hbyte] at hvalue
        exact Nat.ne_of_gt hpos hvalue
  rw [← hsplit, takeWhile_append_of_stops hzeros hstop, List.length_take, Pubkey.length_toBytes]
  omega

theorem decodeUtf16_js (s : String) : decodeUtf16 (js s) = some s.toList := decodeUtf16_utf16 _

/-- **The address of a key is canonical.** -/
theorem canonicalAddress_display (key : Pubkey) : canonicalAddress (js key.display) = true := by
  have halphabet : key.display.toList.all base58Alphabet.contains = true := by
    rw [List.all_eq_true]
    intro c hc
    exact List.contains_iff_mem.mpr (mem_base58Alphabet_of_display hc)
  have hones : (key.display.toList.takeWhile (· = '1')).length =
      (key.toBytes.takeWhile (· = 0)).length := by
    rw [Pubkey.display_chars, takeWhile_append_of_stops, List.length_replicate]
    · intro c hc
      rw [List.eq_of_mem_replicate hc, decide_eq_true rfl]
    · by_cases hzero : key.toNat = 0
      · rw [hzero]
        rfl
      · obtain ⟨c, rest, hdigits, hc⟩ := base58Digits_head hzero
          (key.isLt.trans (by decide +kernel : 2 ^ 256 < 58 ^ 44)) []
        rw [hdigits, List.head?_cons, Option.all_some, decide_eq_false hc]
        rfl
  unfold canonicalAddress publicKeyBase58
  rw [decide_eq_true_eq, decodeUtf16_js, Option.bind_eq_bind, Option.bind_some, if_pos halphabet]
  dsimp only
  rw [hones, key.value_display, leading_zeros, if_pos rfl, BitVec.ofNat_toNat, BitVec.setWidth_eq]
  rfl

theorem display_length_le (key : Pubkey) : key.display.toList.length ≤ 44 := by
  have hzeros := leading_zeros key
  have hroom : ∀ count < 33, 256 ^ count ≤ 58 ^ (12 + count) := by decide +kernel
  have hdigits : (base58Digits 44 key.toNat []).length ≤ 12 + byteCount key.toNat + 0 :=
    length_base58Digits_le
      ((lt_byteCount key.toNat).trans_le (hroom (byteCount key.toNat) (by omega))) []
  rw [Pubkey.display_chars, List.length_append, List.length_replicate]
  omega

/-! ## Reading the memo back -/

section Read

variable (sha256 : Bytes → Vector UInt8 32) {fields : MemoFields}

/-- What a memo says, with the reason that is stored. -/
def bodyOf (fields : MemoFields) : AdvisoryBody where
  mandate := fields.mandate
  amount := fields.amount
  nonce := fields.nonce
  reason := capAdvisoryReason fields.reason
  descriptionSha256 := descriptionSha256 sha256 fields.description

/-- The fields that a memo can be read back from. -/
structure MemoFields.Valid (fields : MemoFields) : Prop where
  mandate : canonicalAddress fields.mandate = true
  amount : fields.amount < 2 ^ 64
  nonce : fields.nonce < 2 ^ 64

theorem readBody_memo (h : fields.Valid) :
    readBody ((memoPairs sha256 fields (capAdvisoryReason fields.reason)).map
      fun field => (field.1, field.2.json)) = some (bodyOf sha256 fields) := by
  have hmandate : stringField ((memoPairs sha256 fields (capAdvisoryReason fields.reason)).map
      fun field => (field.1, field.2.json)) "mandate" = some fields.mandate := rfl
  have hreason : stringField ((memoPairs sha256 fields (capAdvisoryReason fields.reason)).map
      fun field => (field.1, field.2.json)) "reason" = some (capAdvisoryReason fields.reason) := rfl
  have hamount : stringField ((memoPairs sha256 fields (capAdvisoryReason fields.reason)).map
      fun field => (field.1, field.2.json)) "amount" = some (decimal fields.amount) := rfl
  have hnonce : stringField ((memoPairs sha256 fields (capAdvisoryReason fields.reason)).map
      fun field => (field.1, field.2.json)) "nonce" = some (decimal fields.nonce) := rfl
  have hhash : stringField ((memoPairs sha256 fields (capAdvisoryReason fields.reason)).map
      fun field => (field.1, field.2.json)) "description_sha256" =
      some (descriptionSha256 sha256 fields.description) := rfl
  unfold readBody
  simp only [hmandate, hreason, hamount, hnonce, hhash, Option.bind_eq_bind, Option.bind_some,
    isSha256Hex_descriptionSha256, parseU64_decimal h.amount, parseU64_decimal h.nonce, h.mandate,
    not_true_eq_false, if_false, Option.pure_def]
  rfl

/-- The text behind the prefix is the record. -/
theorem dropPrefix?_memo (text : Text) :
    (ADVISORY_MEMO_PREFIX.toList ++ text).dropPrefix? ADVISORY_MEMO_PREFIX.toList = some text :=
  Foundation.dropPrefix?_eq_some.mpr rfl

/-- **A memo is read back**, with the reason that is stored. -/
theorem parseAdvisoryMemo_text (h : fields.Valid) :
    parseAdvisoryMemo (advisoryMemoText sha256 fields).text = some (bodyOf sha256 fields) := by
  have hjson : jsonParse (memoRecord sha256 fields (capAdvisoryReason fields.reason)).print =
      some (.object ((memoPairs sha256 fields (capAdvisoryReason fields.reason)).map
        fun field => (field.1, field.2.json))) := Record.parse_print _
  have hkeys : ((memoPairs sha256 fields (capAdvisoryReason fields.reason)).map
      fun field => (field.1, field.2.json)).map Prod.fst = expectedKeys.map js := rfl
  unfold parseAdvisoryMemo parseMemo advisoryMemoText
  dsimp only
  rw [dropPrefix?_memo, Option.bind_eq_bind, Option.bind_some, hjson, Option.bind_eq_bind,
    Option.bind_some]
  dsimp only
  rw [hkeys, if_neg (by decide), readBody_memo sha256 h]

end Read

/-! ## The transaction -/

/-- The key that `MEMO_PROGRAM_ID` prints. -/
def memoProgram : Pubkey := 0x054a5350f85dc882d614a55672788a296ddf1eababd0a60678884932f4eef6a0

theorem memoProgram_display : memoProgram.display = MEMO_PROGRAM_ID := by decide +kernel

/-- The most bytes of a transaction that is sent. -/
def PACKET_DATA_SIZE : Nat := 1232

/-- A length as it is written in front of a list: seven bits a byte, the lowest first. -/
def shortVec (n : Nat) : Bytes :=
  if n < 0x80 then [UInt8.ofNat n]
  else if n < 0x4000 then [UInt8.ofNat (n % 0x80 + 0x80), UInt8.ofNat (n / 0x80)]
  else [UInt8.ofNat (n % 0x80 + 0x80), UInt8.ofNat (n / 0x80 % 0x80 + 0x80),
    UInt8.ofNat (n / 0x4000)]

/-- The message of one memo instruction.  The agent signs and pays; it, the mandate and the program
are listed once each. -/
def memoMessage (agent mandate blockhash : Pubkey) (memo : Text) : Bytes :=
  let keys := [agent, mandate, memoProgram].eraseDups
  let data := textBytes memo
  [1, 0, UInt8.ofNat (keys.length - 1)] ++
    shortVec keys.length ++ keys.flatMap Pubkey.toBytes ++ blockhash.toBytes ++
    shortVec 1 ++ [UInt8.ofNat (keys.idxOf memoProgram)] ++
    shortVec 2 ++ [UInt8.ofNat (keys.idxOf agent), UInt8.ofNat (keys.idxOf mandate)] ++
    shortVec data.length ++ data

def memoTransaction (signature : Vector UInt8 64) (agent mandate blockhash : Pubkey) (memo : Text) :
    Bytes :=
  shortVec 1 ++ signature.toList ++ memoMessage agent mandate blockhash memo

/-- Control characters of a string that are escaped with six characters. -/
def controls (text : JsString) : Nat :=
  text.countP fun unit => unit < 0x20 ∧ unit ∉ [0x8, 0x9, 0xa, 0xc, 0xd]

/-- The bytes of a string after it is escaped. -/
def escapedLength (text : JsString) : Nat := utf8Length (quoteUnits text)

section Escapes

variable {unit : UInt16} {rest : JsString} {text : Text}

theorem controls_cons : controls (unit :: rest) =
    controls rest + if unit < 0x20 ∧ unit ∉ [0x8, 0x9, 0xa, 0xc, 0xd] then 1 else 0 := by
  unfold controls
  rw [List.countP_cons]
  simp only [decide_eq_true_eq]

/-- The character that stands for a unit of its own. -/
def lossyUnit (unit : UInt16) : Char :=
  if isSurrogate unit then '\ufffd' else Char.ofNat unit.toNat

theorem hexDigitChar_ascii {n : Nat} (h : n < 16) : (hexDigitChar n).toNat < 0x80 := by
  revert n
  decide

/-- An escape takes twice the bytes of its character, or four more for a control character. -/
theorem utf8Length_quoteUnit (unit : UInt16) : utf8Length (quoteUnit unit) ≤
    2 * (lossyUnit unit).utf8Size +
      4 * if unit < 0x20 ∧ unit ∉ [0x8, 0x9, 0xa, 0xc, 0xd] then 1 else 0 := by
  have hpos := (lossyUnit unit).utf8Size_pos
  have hshort : ∀ c : Char, c.utf8Size = 1 → utf8Length ['\\', c] ≤ 2 * (lossyUnit unit).utf8Size +
      4 * if unit < 0x20 ∧ unit ∉ [0x8, 0x9, 0xa, 0xc, 0xd] then 1 else 0 := by
    intro c hc
    have hlength : utf8Length ['\\', c] = 2 := by
      rw [utf8Length_cons, utf8Length_cons, hc, utf8Length_nil]
      rfl
    omega
  unfold quoteUnit
  split
  · exact hshort _ rfl
  split
  · exact hshort _ rfl
  split
  · exact hshort _ rfl
  split
  · exact hshort _ rfl
  split
  · exact hshort _ rfl
  split
  · exact hshort _ rfl
  split
  · exact hshort _ rfl
  split
  · next hquote hslash h8 hc ha hd h9 hescaped =>
    have hlt := unit.toNat_lt
    have hlength : utf8Length ['\\', 'u', hexDigitChar (unit.toNat / 0x1000),
        hexDigitChar (unit.toNat / 0x100 % 0x10), hexDigitChar (unit.toNat / 0x10 % 0x10),
        hexDigitChar (unit.toNat % 0x10)] = 6 := by
      refine utf8Length_ascii ?_
      intro c hc
      simp only [List.mem_cons, List.not_mem_nil, or_false] at hc
      rcases hc with rfl | rfl | rfl | rfl | rfl | rfl
      · decide
      · decide
      all_goals exact hexDigitChar_ascii (by omega)
    rw [hlength]
    by_cases hsurrogate : isSurrogate unit = true
    · have hsize : (lossyUnit unit).utf8Size = 3 := by
        unfold lossyUnit
        rw [if_pos hsurrogate]
        rfl
      omega
    · have hcontrol : unit < 0x20 ∧ unit ∉ [0x8, 0x9, 0xa, 0xc, 0xd] := by
        rw [Bool.or_eq_true, decide_eq_true_eq] at hescaped
        refine ⟨hescaped.resolve_right hsurrogate, ?_⟩
        simp [h8, hc, ha, hd, h9]
      rw [if_pos hcontrol]
      omega
  · next hplain =>
    have hsurrogate : isSurrogate unit = false := by
      rw [Bool.or_eq_true, not_or] at hplain
      exact Bool.eq_false_of_not_eq_true hplain.2
    have hunit : lossyUnit unit = Char.ofNat unit.toNat := by
      unfold lossyUnit
      rw [hsurrogate]
      rfl
    rw [hunit, utf8Length_cons, utf8Length_nil]
    omega

/-- **Escapes at most double a string**, but for its control characters. -/
theorem escapedLength_le (text : JsString) :
    escapedLength text ≤ 2 * (utf8Of text).length + 4 * controls text := by
  change utf8Length (quoteUnits text) ≤ 2 * utf8Length (lossyUtf16 text) + 4 * controls text
  fun_induction quoteUnits text with
  | case1 => exact Nat.zero_le _
  | case2 unit =>
      have hunit := utf8Length_quoteUnit unit
      rw [lossyUtf16, controls_cons]
      change _ ≤ 2 * utf8Length [lossyUnit unit] + _
      rw [utf8Length_cons, utf8Length_nil]
      omega
  | case3 unit next rest hpair ih =>
      rw [lossyUtf16, if_pos hpair, controls_cons, controls_cons, utf8Length_cons, utf8Length_cons]
      omega
  | case4 unit next rest hpair ih =>
      have hunit := utf8Length_quoteUnit unit
      rw [lossyUtf16, if_neg hpair, controls_cons, utf8Length_append]
      change _ ≤ 2 * utf8Length (lossyUnit unit :: lossyUtf16 (next :: rest)) + _
      rw [utf8Length_cons]
      omega

/-- A character that a string of JSON shows as it is, in one byte. -/
def Plain (c : Char) : Prop := 0x20 ≤ c.toNat ∧ c.toNat < 0x80 ∧ c ≠ '"' ∧ c ≠ '\\'

theorem quoteUnits_cons (h : isSurrogate unit = false) :
    quoteUnits (unit :: rest) = quoteUnit unit ++ quoteUnits rest := by
  cases rest with
  | nil => rw [quoteUnits, quoteUnits, List.append_nil]
  | cons next rest =>
      rw [quoteUnits, if_neg]
      intro hpair
      rw [isSurrogate_of_isPair hpair] at h
      cases h

theorem quoteUnit_plain {c : Char} (h : Plain c) : quoteUnit (UInt16.ofNat c.toNat) = [c] := by
  obtain ⟨hmin, hmax, hquote, hslash⟩ := h
  have hall : ∀ n : Fin 0x80, 0x20 ≤ n.val → n.val ≠ '"'.toNat → n.val ≠ '\\'.toNat →
      quoteUnit (UInt16.ofNat n.val) = [Char.ofNat n.val] := by
    decide +kernel
  have hc := hall ⟨c.toNat, hmax⟩ hmin (fun heq => hquote (Char.toNat_inj.mp heq))
    (fun heq => hslash (Char.toNat_inj.mp heq))
  rwa [Char.ofNat_toNat] at hc

theorem quoteUnits_plain (h : ∀ c ∈ text, Plain c) : quoteUnits (utf16 text) = text := by
  induction text with
  | nil => rfl
  | cons c text ih =>
      have hc := h c List.mem_cons_self
      have hlt : c.toNat < 0x10000 := by
        have hmax := hc.2.1
        omega
      have hunit : isSurrogate (UInt16.ofNat c.toNat) = false := by
        rw [← Bool.not_eq_true, isSurrogate_iff, UInt16.toNat_ofNat_of_lt' hlt]
        have hmax := hc.2.1
        omega
      rw [utf16_cons, utf16Units, if_pos hlt, List.singleton_append, quoteUnits_cons hunit,
        quoteUnit_plain hc, ih fun d hd => h d (List.mem_cons_of_mem _ hd), List.singleton_append]

/-- A plain text takes a byte for each character, escaped or not. -/
theorem escapedLength_plain (h : ∀ c ∈ text, Plain c) :
    escapedLength (utf16 text) = text.length := by
  unfold escapedLength
  rw [quoteUnits_plain h, utf8Length_ascii fun c hc => (h c hc).2.1]

theorem utf8Length_quote (text : JsString) :
    utf8Length (quote text) = escapedLength text + 2 := by
  unfold quote escapedLength
  rw [utf8Length_cons, utf8Length_append, utf8Length_cons, utf8Length_nil]
  have hquote : '"'.utf8Size = 1 := rfl
  omega

end Escapes

section Size

variable (sha256 : Bytes → Vector UInt8 32) (fields : MemoFields)

theorem plain_of_alphabet {c : Char} (h : c ∈ base58Alphabet) : Plain c := by
  have hall : base58Alphabet.all
      (fun c => 0x20 ≤ c.toNat ∧ c.toNat < 0x80 ∧ c ≠ '"' ∧ c ≠ '\\') = true := by
    decide
  unfold Plain
  exact of_decide_eq_true (List.all_eq_true.mp hall c h)

theorem plain_of_digit {c : Char} (h : c.isDigit = true) : Plain c := by
  have hbounds : 0x30 ≤ c.toNat ∧ c.toNat ≤ 0x39 := Char.isDigit_iff_toNat.mp h
  have hne : ∀ d : Char, d.toNat < 0x30 ∨ 0x39 < d.toNat → c ≠ d := by
    rintro d hd rfl
    omega
  exact ⟨by omega, by omega, hne _ (by decide), hne _ (by decide)⟩

theorem plain_of_hexDigit {n : Nat} (h : n < 16) : Plain (hexDigitChar n) := by
  unfold Plain
  interval_cases n <;> decide

theorem escapedLength_decimal (n : Nat) : escapedLength (decimal n) = (Nat.toDigits 10 n).length :=
  escapedLength_plain fun _ hc =>
    plain_of_digit (Nat.isDigit_of_mem_toDigits (by decide) (by decide) hc)

theorem escapedLength_display (key : Pubkey) :
    escapedLength (js key.display) = key.display.toList.length :=
  escapedLength_plain fun _ hc => plain_of_alphabet (mem_base58Alphabet_of_display hc)

theorem escapedLength_descriptionSha256 (description : JsString) :
    escapedLength (descriptionSha256 sha256 description) = 64 := by
  unfold descriptionSha256
  rw [escapedLength_plain, length_hexText, Vector.length_toList]
  intro c hc
  obtain ⟨digit, hlt, rfl⟩ := mem_hexText hc
  exact plain_of_hexDigit hlt

theorem utf8Length_printField (name : String) (text : JsString) :
    utf8Length (printField (js name, .string text)) =
      escapedLength (js name) + escapedLength text + 5 := by
  unfold printField
  dsimp only
  rw [utf8Length_append, utf8Length_cons, utf8Length_quote, Scalar.print, utf8Length_quote]
  have hcolon : ':'.utf8Size = 1 := rfl
  omega

/-- How long a memo is. -/
theorem utf8Length_memo : utf8Length (advisoryMemoText sha256 fields).text =
    153 + escapedLength fields.mandate + (Nat.toDigits 10 fields.amount).length +
      (Nat.toDigits 10 fields.nonce).length + escapedLength (capAdvisoryReason fields.reason) := by
  have hprint : (memoRecord sha256 fields (capAdvisoryReason fields.reason)).print =
      '{' :: (printField (js "mandate", .string fields.mandate) ++ ',' ::
        (printField (js "amount", .string (decimal fields.amount)) ++ ',' ::
          (printField (js "nonce", .string (decimal fields.nonce)) ++ ',' ::
            (printField (js "reason", .string (capAdvisoryReason fields.reason)) ++ ',' ::
              (printField (js "description_sha256",
                .string (descriptionSha256 sha256 fields.description)) ++ ['}']))))) := by
    simp [Record.print, memoRecord, memoPairs, List.intercalate]
  have hmandate : escapedLength (js "mandate") = 7 := by decide
  have hamount : escapedLength (js "amount") = 6 := by decide
  have hnonce : escapedLength (js "nonce") = 5 := by decide
  have hreason : escapedLength (js "reason") = 6 := by decide
  have hhash : escapedLength (js "description_sha256") = 18 := by decide
  have hprefix : utf8Length ADVISORY_MEMO_PREFIX.toList = 16 := by decide
  have hcomma : ','.utf8Size = 1 := rfl
  have hopen : '{'.utf8Size = 1 := rfl
  have hclose : '}'.utf8Size = 1 := rfl
  unfold advisoryMemoText
  dsimp only
  rw [utf8Length_append, hprefix, hprint]
  simp only [utf8Length_cons, utf8Length_append, utf8Length_nil, utf8Length_printField,
    escapedLength_decimal, escapedLength_descriptionSha256, hmandate, hamount, hnonce, hreason,
    hhash, hcomma, hopen, hclose]
  generalize escapedLength fields.mandate = mandate
  generalize escapedLength (capAdvisoryReason fields.reason) = reason
  omega

theorem length_le_utf8Of (text : JsString) : text.length ≤ (utf8Of text).length := by
  change text.length ≤ utf8Length (lossyUtf16 text)
  fun_induction lossyUtf16 text with
  | case1 => exact Nat.le_refl _
  | case2 unit =>
      have hpos := (if isSurrogate unit then '\ufffd' else Char.ofNat unit.toNat).utf8Size_pos
      rw [utf8Length_cons, List.length_singleton]
      omega
  | case3 unit next rest hpair ih =>
      have hsize : 2 ≤ (pairChar unit next).utf8Size := by
        have hpos := (pairChar unit next).utf8Size_pos
        have hchar := toNat_pairChar hpair
        have hone : (pairChar unit next).utf8Size ≠ 1 := by
          rw [ne_eq, Char.utf8Size_eq_one_iff, UInt32.le_iff_toNat_le]
          change ¬ (pairChar unit next).toNat ≤ 127
          omega
        omega
      rw [utf8Length_cons, List.length_cons, List.length_cons]
      omega
  | case4 unit next rest hpair ih =>
      have hpos := (if isSurrogate unit then '\ufffd' else Char.ofNat unit.toNat).utf8Size_pos
      rw [utf8Length_cons, List.length_cons]
      omega

/-- The reason of a memo takes at most 256 bytes, which escapes double but for control
characters. -/
theorem escapedLength_capAdvisoryReason (reason : JsString) :
    escapedLength (capAdvisoryReason reason) ≤ 512 + 4 * controls (capAdvisoryReason reason) ∧
      controls (capAdvisoryReason reason) ≤ 256 := by
  have hescaped := escapedLength_le (capAdvisoryReason reason)
  have hcap : (utf8Of (capAdvisoryReason reason)).length ≤ 256 := utf8Of_capAdvisoryReason reason
  have hcount : controls (capAdvisoryReason reason) ≤ (capAdvisoryReason reason).length :=
    List.countP_le_length
  have hlength := length_le_utf8Of (capAdvisoryReason reason)
  exact ⟨by omega, by omega⟩

theorem shortVec_small {n : Nat} (h : n < 0x80) : (shortVec n).length = 1 := by
  unfold shortVec
  rw [if_pos h, List.length_singleton]

theorem shortVec_middle {n : Nat} (hmin : 0x80 ≤ n) (hmax : n < 0x4000) :
    (shortVec n).length = 2 := by
  unfold shortVec
  rw [if_neg (Nat.not_lt.mpr hmin), if_pos hmax]
  rfl

theorem length_flatMap_toBytes (keys : List Pubkey) :
    (keys.flatMap Pubkey.toBytes).length = 32 * keys.length := by
  induction keys with
  | nil => rfl
  | cons key keys ih =>
      rw [List.flatMap_cons, List.length_append, Pubkey.length_toBytes, ih, List.length_cons]
      omega

theorem length_eraseDups_le (keys : List Pubkey) : keys.eraseDups.length ≤ keys.length := by
  induction hlength : keys.length using Nat.strongRecOn generalizing keys with
  | ind n ih =>
    cases keys with
    | nil => exact Nat.zero_le _
    | cons key keys =>
        have hfilter := List.length_filter_le (fun other => !other == key) keys
        have hrest := ih _ (by rw [← hlength, List.length_cons]; omega)
          (keys.filter fun other => !other == key) rfl
        rw [List.eraseDups_cons, List.length_cons, ← hlength, List.length_cons]
        omega

theorem length_memoTransaction (signature : Vector UInt8 64) (agent mandate blockhash : Pubkey)
    {memo : Text} (hmin : 0x80 ≤ utf8Length memo) (hmax : utf8Length memo < 0x4000) :
    (memoTransaction signature agent mandate blockhash memo).length =
      108 + 32 * [agent, mandate, memoProgram].eraseDups.length + utf8Length memo := by
  have hkeys : [agent, mandate, memoProgram].eraseDups.length ≤ 3 := length_eraseDups_le _
  have hcount : (shortVec [agent, mandate, memoProgram].eraseDups.length).length = 1 :=
    shortVec_small (by omega)
  have hdata : (shortVec (textBytes memo).length).length = 2 := shortVec_middle hmin hmax
  unfold memoTransaction memoMessage
  dsimp only
  simp only [List.length_append, List.length_cons, List.length_nil, hcount, hdata,
    length_flatMap_toBytes, Pubkey.length_toBytes, Vector.length_toList,
    shortVec_small (show 1 < 0x80 by decide), shortVec_small (show 2 < 0x80 by decide)]
  rw [← utf8Length]
  omega

/-- **How many bytes the transaction of a memo takes.** -/
theorem length_advisoryTransaction (signature : Vector UInt8 64) (agent mandate blockhash : Pubkey)
    (hmandate : fields.mandate = js mandate.display) (h : fields.Valid) :
    (memoTransaction signature agent mandate blockhash
        (advisoryMemoText sha256 fields).text).length =
      261 + 32 * [agent, mandate, memoProgram].eraseDups.length + mandate.display.toList.length +
        (Nat.toDigits 10 fields.amount).length + (Nat.toDigits 10 fields.nonce).length +
        escapedLength (capAdvisoryReason fields.reason) := by
  have hlength := utf8Length_memo sha256 fields
  have haddress := display_length_le mandate
  have hamount := length_toDigits_u64 h.amount
  have hnonce := length_toDigits_u64 h.nonce
  have hreason := escapedLength_capAdvisoryReason fields.reason
  rw [hmandate, escapedLength_display] at hlength
  rw [length_memoTransaction signature agent mandate blockhash (by omega) (by omega), hlength]
  omega

/-- A memo is sent if at most 69 characters of its reason are control characters. -/
theorem advisoryTransaction_fits (signature : Vector UInt8 64) (agent mandate blockhash : Pubkey)
    (hmandate : fields.mandate = js mandate.display) (h : fields.Valid)
    (hcontrols : controls (capAdvisoryReason fields.reason) ≤ 69) :
    (memoTransaction signature agent mandate blockhash
      (advisoryMemoText sha256 fields).text).length ≤ PACKET_DATA_SIZE := by
  have hkeys : [agent, mandate, memoProgram].eraseDups.length ≤ 3 := length_eraseDups_le _
  have haddress := display_length_le mandate
  have hamount := length_toDigits_u64 h.amount
  have hnonce := length_toDigits_u64 h.nonce
  have hreason := escapedLength_capAdvisoryReason fields.reason
  rw [length_advisoryTransaction sha256 fields signature agent mandate blockhash hmandate h,
    PACKET_DATA_SIZE]
  omega

end Size

end Veto.Sdk.Memo

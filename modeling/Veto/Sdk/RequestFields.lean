import Veto.Display
import Veto.Foundation.JsNumber
import Veto.Foundation.QueryString
import Veto.Foundation.Result

/-!
# The fields of a rule request

The checks that `rule-request.ts` shares between the payment request and the trade request: how a
query becomes slots, how a slot is read as an address, an amount, a number of days or a text, and
how the same fields of an input object are read.  `κ` are the keys of the query.
-/

namespace Veto.Sdk

open Foundation

def PURPOSE_MAX_BYTES : Nat := 64

def LABEL_MAX_CHARS : Nat := 64

def RULE_REQUEST_DAYS_MIN : Nat := 1

def RULE_REQUEST_DAYS_MAX : Nat := 3650

def U64_MAX : Nat := 2 ^ 64 - 1

/-! ## Problems -/

/-- The problems of a request, by the key they are about. -/
inductive RequestProblem (κ : Type)
  | not_a_url
  | scheme
  | userinfo
  | port
  | host
  | path
  | duplicate (key : κ)
  | missing (key : κ)
  | bad (key : κ)
  | too_long (key : κ)
  /-- `max_above_cap`, and `limits_out_of_order` of a trade request. -/
  | out_of_order
  deriving DecidableEq

structure RequestError (κ : Type) where
  problem : RequestProblem κ
  message : String
  deriving DecidableEq

variable {κ : Type}

def fail {α : Type} (problem : RequestProblem κ) (message : String) : Except (RequestError κ) α :=
  .error ⟨problem, message⟩

def addressMessage (noun : String) : String := noun ++ " must be a canonical base58 address"

def amountMessage (noun : String) : String :=
  noun ++ " must be a base-unit integer greater than 0 and at most the u64 maximum"

def daysMessage : String :=
  s!"days must be an integer from {RULE_REQUEST_DAYS_MIN} to {RULE_REQUEST_DAYS_MAX}"

def purposeTooLongMessage : String := s!"purpose is longer than {PURPOSE_MAX_BYTES} bytes"

def labelTooLongMessage (noun : String) : String :=
  s!"{noun} is longer than {LABEL_MAX_CHARS} characters"

def encodingMessage (noun : String) : String := noun ++ " is not percent-encoded UTF-8"

def textMessage (noun : String) : String := noun ++ " must be UTF-8 text"

/-! ## Checks -/

/-- How many bytes a number takes. -/
def byteCount (n : Nat) : Nat := if n = 0 then 0 else n.log2 / 8 + 1

/-- `new PublicKey(text).toBase58()`, which throws unless the text decodes to 32 bytes. -/
def publicKeyBase58 (text : JsString) : Option JsString := do
  let chars ← decodeUtf16 text
  if chars.all base58Alphabet.contains then
    let n := base58Value 0 chars
    if (chars.takeWhile (· = '1')).length + byteCount n = 32 then
      return js (Pubkey.display (BitVec.ofNat 256 n))
    else none
  else none

def canonicalAddress (value : JsString) : Bool := publicKeyBase58 value = some value

def isDigit (unit : UInt16) : Bool := 0x30 ≤ unit && unit ≤ 0x39

/-- `/^[1-9][0-9]*$/`. -/
def isNumeral : JsString → Bool
  | [] => false
  | first :: rest => 0x31 ≤ first && first ≤ 0x39 && rest.all isDigit

/-- `BigInt` of digits. -/
def digitsValue (raw : JsString) : Nat := raw.foldl (fun n unit => 10 * n + (unit.toNat - 0x30)) 0

def parsePositiveU64 (raw : JsString) : Option Nat :=
  if isNumeral raw then
    if U64_MAX < digitsValue raw then none else some (digitsValue raw)
  else none

def isSafeInteger (n : Int) : Bool := n.natAbs ≤ MAX_SAFE_INTEGER

def parseDaysToken (raw : JsString) : Option Nat :=
  if isNumeral raw then
    let days := roundNumber (digitsValue raw)
    if !isSafeInteger days || days < RULE_REQUEST_DAYS_MIN || RULE_REQUEST_DAYS_MAX < days then none
    else some days
  else none

/-- `n.toString(10)`. -/
def decimal (n : Nat) : JsString := utf16 (Nat.toDigits 10 n)

/-! ## Slots -/

/-- What is kept of a key: how often it came and what it said first. -/
structure Slot where
  count : Nat
  value : Option JsString
  bad : Bool
  deriving DecidableEq

def Slot.empty : Slot := ⟨0, none, false⟩

/-- The key came once, with this value. -/
def Slot.one (value : JsString) : Slot := ⟨1, some value, false⟩

def Slot.add (slot : Slot) (value : Option JsString) : Slot :=
  if slot.count = 0 then ⟨1, value, value.isNone⟩ else { slot with count := slot.count + 1 }

/-- `search.startsWith("?") ? search.slice(1) : search`. -/
def queryBody (search : JsString) : JsString :=
  match search with
  | 0x3f :: body => body
  | _ => search

section Slots

variable [DecidableEq κ] (known : JsString → Option κ)

def addPart (slots : κ → Slot) (part : JsString) : κ → Slot :=
  match readPart known part with
  | none => slots
  | some (key, value) => Function.update slots key ((slots key).add value)

def parseSlots (search : JsString) : κ → Slot :=
  if queryBody search = [] then fun _ => .empty
  else (queryParts (queryBody search)).foldl (addPart known) fun _ => .empty

end Slots

/-! What a slot keeps of the values of its key. -/

/-- The slot of these values. -/
def Slot.of (values : List (Option JsString)) : Slot := values.foldl Slot.add .empty

theorem Slot.foldl_add (slot : Slot) (values : List (Option JsString)) (h : slot.count ≠ 0) :
    values.foldl Slot.add slot = { slot with count := slot.count + values.length } := by
  induction values generalizing slot with
  | nil => rfl
  | cons value values ih =>
      rw [List.foldl_cons, Slot.add, if_neg h, ih { slot with count := slot.count + 1 } (Nat.succ_ne_zero _),
        List.length_cons, Nat.add_assoc, Nat.add_comm 1]

theorem Slot.of_cons (value : Option JsString) (values : List (Option JsString)) :
    Slot.of (value :: values) = ⟨1 + values.length, value, value.isNone⟩ := by
  rw [Slot.of, List.foldl_cons, Slot.add, if_pos (show Slot.empty.count = 0 from rfl)]
  exact Slot.foldl_add ⟨1, value, value.isNone⟩ values (Nat.succ_ne_zero 0)

theorem Slot.of_count (values : List (Option JsString)) :
    (Slot.of values).count = 0 ↔ values = [] := by
  cases values with
  | nil => exact ⟨fun _ => rfl, fun _ => rfl⟩
  | cons value values =>
      rw [Slot.of_cons]
      simp only [reduceCtorEq, iff_false]
      omega

theorem Slot.of_eq_one {values : List (Option JsString)} {text : JsString} :
    Slot.of values = .one text ↔ values = [some text] := by
  cases values with
  | nil => simp [Slot.of, Slot.empty, Slot.one]
  | cons value values =>
      rw [Slot.of_cons, Slot.one, Slot.mk.injEq, List.cons.injEq]
      constructor
      · rintro ⟨hcount, hvalue, -⟩
        exact ⟨hvalue, List.length_eq_zero_iff.mp (by omega)⟩
      · rintro ⟨rfl, rfl⟩
        exact ⟨rfl, rfl, rfl⟩

section Parsed

variable [DecidableEq κ] {known : JsString → Option κ}

theorem foldl_addPart (parts : List JsString) (slots : κ → Slot) (key : κ) :
    parts.foldl (addPart known) slots key =
      (valuesOf key (parts.filterMap (readPart known))).foldl Slot.add (slots key) := by
  induction parts generalizing slots with
  | nil => rfl
  | cons part parts ih =>
      rw [List.foldl_cons, ih, addPart, List.filterMap_cons]
      cases readPart known part with
      | none => rfl
      | some param =>
          dsimp only
          rw [valuesOf, valuesOf, List.filter_cons]
          by_cases hkey : param.1 = key
          · rw [if_pos (decide_eq_true hkey), ← hkey, Function.update_self]
            rfl
          · rw [if_neg (by simpa using hkey), Function.update_of_ne (Ne.symm hkey)]

variable (known) in
/-- The values of the keys in a query. -/
def queryValues (query : JsString) (key : κ) : List (Option JsString) :=
  valuesOf key (parameters known query)

/-- The slot of a key keeps its values. -/
theorem parseSlots_apply (search : JsString) (key : κ) :
    parseSlots known search key = Slot.of (queryValues known (queryBody search) key) := by
  rw [parseSlots, queryValues, parameters]
  split
  · next hempty =>
    rw [hempty]
    rfl
  · exact foldl_addPart _ _ key

end Parsed

/-! ## Reading slots -/

section Reads

variable (slots : κ → Slot) (key : κ) (noun : String)

def readRequired (badMessage : String) : Except (RequestError κ) JsString :=
  if (slots key).count = 0 then fail (.missing key) (noun ++ " is missing")
  else if 1 < (slots key).count then fail (.duplicate key) (noun ++ " is repeated")
  else
    match (slots key).bad, (slots key).value with
    | false, some value => .ok value
    | _, _ => fail (.bad key) badMessage

def readOptional (badMessage : String) : Except (RequestError κ) (Option JsString) :=
  if (slots key).count = 0 then .ok none
  else if 1 < (slots key).count then fail (.duplicate key) (noun ++ " is repeated")
  else
    match (slots key).bad, (slots key).value with
    | false, some value => .ok (some value)
    | _, _ => fail (.bad key) badMessage

def readAddressField : Except (RequestError κ) JsString := do
  let raw ← readRequired slots key noun (addressMessage noun)
  if canonicalAddress raw then return raw else fail (.bad key) (addressMessage noun)

def readAmountField (message : String) : Except (RequestError κ) Nat := do
  let raw ← readRequired slots key noun message
  match parsePositiveU64 raw with
  | none => fail (.bad key) message
  | some amount => return amount

def readDaysField : Except (RequestError κ) Nat := do
  let raw ← readRequired slots key noun daysMessage
  match parseDaysToken raw with
  | none => fail (.bad key) daysMessage
  | some days => return days

def readPurposeField : Except (RequestError κ) JsString := do
  let raw ← readRequired slots key noun (encodingMessage noun)
  if !isWellFormedUtf16 raw then fail (.bad key) (encodingMessage noun)
  else if PURPOSE_MAX_BYTES < byteLength raw then fail (.too_long key) purposeTooLongMessage
  else return raw

def readLabelField : Except (RequestError κ) (Option JsString) := do
  match ← readOptional slots key noun (encodingMessage noun) with
  | none => return none
  | some raw =>
    if raw = [] then return none
    else if !isWellFormedUtf16 raw then fail (.bad key) (encodingMessage noun)
    else if LABEL_MAX_CHARS < codePointLength raw then
      fail (.too_long key) (labelTooLongMessage noun)
    else return some raw

end Reads

/-! ## Reading an input object -/

/-- A value of JavaScript, as far as the readers tell values apart.  A number that is no integer
has no value here. -/
inductive JsValue
  | undefined
  | string (text : JsString)
  | bigint (n : Int)
  | number (integer : Option Int)
  | other
  deriving DecidableEq

/-- A label, or nothing. -/
def JsValue.ofLabel : Option JsString → JsValue
  | none => .undefined
  | some text => .string text

def coercePositiveU64 : JsValue → Option Nat
  | .bigint n => if n < 1 || U64_MAX < n then none else some n.toNat
  | .number (some n) => if !isSafeInteger n || n < 1 then none else some n.toNat
  | .string text => parsePositiveU64 text
  | _ => none

def coerceDays : JsValue → Option Nat
  | .bigint n => if n < RULE_REQUEST_DAYS_MIN || RULE_REQUEST_DAYS_MAX < n then none else some n.toNat
  | .number (some n) =>
      if n < RULE_REQUEST_DAYS_MIN || RULE_REQUEST_DAYS_MAX < n then none else some n.toNat
  | .string text => parseDaysToken text
  | _ => none

section Inputs

variable (value : JsValue) (key : κ) (noun : String)

def readInputAddress : Except (RequestError κ) JsString :=
  match value with
  | .undefined => fail (.missing key) (noun ++ " is missing")
  | .string text =>
    if canonicalAddress text then .ok text else fail (.bad key) (addressMessage noun)
  | _ => fail (.bad key) (addressMessage noun)

def readInputAmount (message : String) : Except (RequestError κ) Nat :=
  if value = .undefined then fail (.missing key) (noun ++ " is missing")
  else
    match coercePositiveU64 value with
    | none => fail (.bad key) message
    | some amount => .ok amount

def readInputDays : Except (RequestError κ) Nat :=
  if value = .undefined then fail (.missing key) (noun ++ " is missing")
  else
    match coerceDays value with
    | none => fail (.bad key) daysMessage
    | some days => .ok days

def readInputPurpose : Except (RequestError κ) JsString :=
  match value with
  | .undefined => fail (.missing key) (noun ++ " is missing")
  | .string text =>
    if !isWellFormedUtf16 text then fail (.bad key) (textMessage noun)
    else if PURPOSE_MAX_BYTES < byteLength text then fail (.too_long key) purposeTooLongMessage
    else .ok text
  | _ => fail (.bad key) (textMessage noun)

def readInputLabel : Except (RequestError κ) (Option JsString) :=
  match value with
  | .undefined => .ok none
  | .string text =>
    if !isWellFormedUtf16 text then fail (.bad key) (textMessage noun)
    else if text = [] then .ok none
    else if LABEL_MAX_CHARS < codePointLength text then
      fail (.too_long key) (labelTooLongMessage noun)
    else .ok (some text)
  | _ => fail (.bad key) (textMessage noun)

end Inputs

/-! ## What a field may hold -/

def PurposeAllowed (purpose : JsString) : Prop :=
  isWellFormedUtf16 purpose = true ∧ byteLength purpose ≤ PURPOSE_MAX_BYTES

def AmountAllowed (amount : Nat) : Prop := 1 ≤ amount ∧ amount ≤ U64_MAX

def DaysAllowed (days : Nat) : Prop := RULE_REQUEST_DAYS_MIN ≤ days ∧ days ≤ RULE_REQUEST_DAYS_MAX

/-- A label that is there is not empty. -/
def LabelAllowed (label : Option JsString) : Prop :=
  ∀ text ∈ label, text ≠ [] ∧ isWellFormedUtf16 text = true ∧ codePointLength text ≤ LABEL_MAX_CHARS

/-- What a slot says of a label.  An empty one is none. -/
def Slot.Labels (slot : Slot) (label : Option JsString) : Prop :=
  (slot.count = 0 ∧ label = none) ∨
    ∃ raw, slot = .one raw ∧ label = if raw = [] then none else some raw

/-- What the values of a key say of a label. -/
def LabelWritten (values : List (Option JsString)) (label : Option JsString) : Prop :=
  (values = [] ∧ label = none) ∨
    ∃ raw, values = [some raw] ∧ label = if raw = [] then none else some raw

/-- What the values of a key say of a number that is read by `read`. -/
def NumberWritten (read : JsString → Option Nat) (values : List (Option JsString)) (n : Nat) : Prop :=
  ∃ raw, values = [some raw] ∧ read raw = some n

/-! ## Numerals -/

theorem isNumeral_append {raw : JsString} {unit : UInt16} (hraw : isNumeral raw = true)
    (hunit : isDigit unit = true) : isNumeral (raw ++ [unit]) = true := by
  cases raw with
  | nil => cases hraw
  | cons first rest =>
      rw [List.cons_append, isNumeral, List.all_append]
      rw [isNumeral] at hraw
      simpa [hunit] using hraw

theorem digitsValue_append (raw : JsString) (unit : UInt16) :
    digitsValue (raw ++ [unit]) = 10 * digitsValue raw + (unit.toNat - 0x30) := by
  rw [digitsValue, List.foldl_append]
  rfl

theorem le_digitsValue (raw : JsString) (n : Nat) :
    n ≤ raw.foldl (fun n unit => 10 * n + (unit.toNat - 0x30)) n := by
  induction raw generalizing n with
  | nil => exact Nat.le_refl n
  | cons unit raw ih => exact Nat.le_trans (by omega) (ih (10 * n + (unit.toNat - 0x30)))

/-- A numeral does not start with a zero. -/
theorem digitsValue_pos {raw : JsString} (h : isNumeral raw = true) : 1 ≤ digitsValue raw := by
  cases raw with
  | nil => cases h
  | cons first rest =>
      have hfirst : 0x31 ≤ first.toNat := by
        simp only [isNumeral, Bool.and_eq_true, decide_eq_true_eq, UInt16.le_iff_toNat_le] at h
        exact h.1.1
      exact Nat.le_trans (by omega) (le_digitsValue rest (10 * 0 + (first.toNat - 0x30)))

theorem units_digitChar {digit : Nat} (h : digit < 10) :
    utf16 [Nat.digitChar digit] = [UInt16.ofNat (0x30 + digit)] ∧
      isDigit (UInt16.ofNat (0x30 + digit)) = true ∧
      (UInt16.ofNat (0x30 + digit)).toNat - 0x30 = digit ∧
      (1 ≤ digit → isNumeral [UInt16.ofNat (0x30 + digit)] = true) := by
  revert digit
  decide

/-- A positive number is printed as a numeral of its value. -/
theorem numeral_decimal {n : Nat} (hpos : 1 ≤ n) :
    isNumeral (decimal n) = true ∧ digitsValue (decimal n) = n := by
  induction n using Nat.strongRecOn with
  | ind n ih =>
    by_cases hlt : n < 10
    · obtain ⟨hunits, -, hvalue, hnumeral⟩ := units_digitChar hlt
      rw [decimal, Nat.toDigits_of_lt_base hlt, hunits]
      refine ⟨hnumeral hpos, ?_⟩
      rw [← List.nil_append [_], digitsValue_append, hvalue]
      exact Nat.zero_add n
    · obtain ⟨hunits, hdigit, hvalue, -⟩ := units_digitChar (Nat.mod_lt n (show 0 < 10 by decide))
      obtain ⟨hnumeral, hrest⟩ := ih (n / 10) (by omega) (by omega)
      have hsplit : decimal n = decimal (n / 10) ++ [UInt16.ofNat (0x30 + n % 10)] := by
        rw [decimal, Nat.toDigits_of_base_le (by decide) (by omega), utf16, List.flatMap_append]
        exact congrArg (decimal (n / 10) ++ ·) hunits
      rw [hsplit]
      refine ⟨isNumeral_append hnumeral hdigit, ?_⟩
      rw [digitsValue_append, hrest, hvalue]
      omega

/-- A printed amount is read. -/
theorem parsePositiveU64_decimal {amount : Nat} (h : AmountAllowed amount) :
    parsePositiveU64 (decimal amount) = some amount := by
  obtain ⟨hnumeral, hvalue⟩ := numeral_decimal h.1
  rw [parsePositiveU64, if_pos hnumeral, hvalue, if_neg (Nat.not_lt.mpr h.2)]

theorem allowed_of_parsePositiveU64 {raw : JsString} {amount : Nat}
    (h : parsePositiveU64 raw = some amount) : AmountAllowed amount := by
  unfold parsePositiveU64 at h
  split at h
  · next hnumeral =>
    split at h
    · cases h
    · next hle =>
      obtain rfl := Option.some.inj h
      exact ⟨digitsValue_pos hnumeral, Nat.not_lt.mp hle⟩
  · cases h

theorem parseDaysToken_decimal {days : Nat} (h : DaysAllowed days) :
    parseDaysToken (decimal days) = some days := by
  have hmax : days ≤ 3650 := h.2
  have hsafe : isSafeInteger days = true := by
    rw [isSafeInteger, Int.natAbs_natCast, MAX_SAFE_INTEGER]
    exact decide_eq_true (by omega)
  obtain ⟨hnumeral, hvalue⟩ := numeral_decimal h.1
  have hround : roundNumber days = days := roundNumber_small (by omega)
  rw [parseDaysToken, if_pos hnumeral, hvalue, hround]
  dsimp only
  rw [hsafe, if_neg]
  simpa [DaysAllowed] using h

theorem allowed_of_parseDaysToken {raw : JsString} {days : Nat}
    (h : parseDaysToken raw = some days) : DaysAllowed days := by
  unfold parseDaysToken at h
  split at h
  · dsimp only at h
    split at h
    · cases h
    · next hdays =>
      obtain rfl := Option.some.inj h
      simp only [Bool.or_eq_true, decide_eq_true_eq, not_or, Nat.not_lt] at hdays
      exact ⟨hdays.1.2, hdays.2⟩
  · cases h

section Spec

variable {slots : κ → Slot} {key : κ} {noun message : String}

theorem readRequired_ok {value : JsString} :
    readRequired slots key noun message = .ok value ↔ slots key = .one value := by
  unfold readRequired
  obtain ⟨count, found, bad⟩ := slots key
  by_cases hzero : count = 0
  · simp [hzero, fail, Slot.one]
  by_cases hmany : 1 < count
  · simp [hzero, hmany, fail, Slot.one]
    omega
  have hone : count = 1 := by omega
  cases bad with
  | true => simp [hone, fail, Slot.one]
  | false => cases found <;> simp [hone, fail, Slot.one]

theorem readOptional_ok {value : Option JsString} :
    readOptional slots key noun message = .ok value ↔
      ((slots key).count = 0 ∧ value = none) ∨ ∃ text, value = some text ∧ slots key = .one text := by
  unfold readOptional
  obtain ⟨count, found, bad⟩ := slots key
  by_cases hzero : count = 0
  · simp [hzero, Slot.one, eq_comm]
  by_cases hmany : 1 < count
  · simp [hzero, hmany, fail, Slot.one]
    omega
  have hone : count = 1 := by omega
  cases bad with
  | true => simp [hone, fail, Slot.one]
  | false => cases found <;> simp [hone, fail, Slot.one, eq_comm]

theorem readAddressField_ok {address : JsString} :
    readAddressField slots key noun = .ok address ↔
      slots key = .one address ∧ canonicalAddress address = true := by
  unfold readAddressField
  rw [bind_ok_iff]
  simp only [readRequired_ok]
  constructor
  · rintro ⟨raw, hraw, h⟩
    split at h
    · next hcanonical =>
      cases h
      exact ⟨hraw, hcanonical⟩
    · cases h
  · rintro ⟨hslot, hcanonical⟩
    exact ⟨address, hslot, if_pos hcanonical⟩

/-- A number that could be read is returned. -/
theorem parsed_ok {x : Option Nat} {n : Nat} :
    (match x with
      | none => fail (.bad key) message
      | some m => pure m : Except (RequestError κ) Nat) = .ok n ↔ x = some n := by
  cases x with
  | none =>
      constructor
      · intro h
        cases h
      · intro h
        cases h
  | some m => exact ⟨fun h => congrArg some (Except.ok.inj h), fun h => congrArg _ (Option.some.inj h)⟩

theorem readAmountField_ok {amount : Nat} :
    readAmountField slots key noun message = .ok amount ↔
      ∃ raw, slots key = .one raw ∧ parsePositiveU64 raw = some amount := by
  unfold readAmountField
  rw [bind_ok_iff]
  simp only [readRequired_ok]
  exact exists_congr fun raw => and_congr_right fun _ => parsed_ok

theorem readDaysField_ok {days : Nat} :
    readDaysField slots key noun = .ok days ↔
      ∃ raw, slots key = .one raw ∧ parseDaysToken raw = some days := by
  unfold readDaysField
  rw [bind_ok_iff]
  simp only [readRequired_ok]
  exact exists_congr fun raw => and_congr_right fun _ => parsed_ok

/-- Of a text, its checks and nothing else. -/
theorem purpose_checks {raw purpose : JsString} {bad long : RequestError κ} :
    (if !isWellFormedUtf16 raw then Except.error bad
      else if PURPOSE_MAX_BYTES < byteLength raw then .error long
      else .ok raw) = .ok purpose ↔ raw = purpose ∧ PurposeAllowed purpose := by
  unfold PurposeAllowed
  by_cases hformed : isWellFormedUtf16 raw = true
  · by_cases hlong : PURPOSE_MAX_BYTES < byteLength raw
    · simp only [hformed, hlong, Bool.not_true, Bool.false_eq_true, if_false, if_true]
      refine ⟨nofun, ?_⟩
      rintro ⟨rfl, -, hfits⟩
      exact absurd hlong (Nat.not_lt.mpr hfits)
    · simp only [hformed, hlong, Bool.not_true, Bool.false_eq_true, if_false]
      constructor
      · rintro ⟨⟩
        exact ⟨rfl, hformed, Nat.not_lt.mp hlong⟩
      · rintro ⟨rfl, -, -⟩
        rfl
  · simp only [Bool.not_eq_true] at hformed
    simp only [hformed, Bool.not_false, if_true]
    refine ⟨nofun, ?_⟩
    rintro ⟨rfl, hformed', -⟩
    exact absurd hformed' (by rw [hformed]; decide)

theorem readPurposeField_ok {purpose : JsString} :
    readPurposeField slots key noun = .ok purpose ↔
      slots key = .one purpose ∧ PurposeAllowed purpose := by
  unfold readPurposeField
  rw [bind_ok_iff]
  simp only [readRequired_ok]
  constructor
  · rintro ⟨raw, hraw, h⟩
    obtain ⟨rfl, hallowed⟩ := purpose_checks.mp h
    exact ⟨hraw, hallowed⟩
  · rintro ⟨hslot, hallowed⟩
    exact ⟨purpose, hslot, purpose_checks.mpr ⟨rfl, hallowed⟩⟩

/-- The checks of a label that is there. -/
def labelChecks {ε : Type} (raw : JsString) (bad long : ε) : Except ε (Option JsString) :=
  if raw = [] then .ok none
  else if !isWellFormedUtf16 raw then .error bad
  else if LABEL_MAX_CHARS < codePointLength raw then .error long
  else .ok (some raw)

/-- An empty text is well formed, so the first two checks commute. -/
theorem labelChecks_eq {ε : Type} (raw : JsString) (bad long : ε) :
    labelChecks raw bad long =
      if !isWellFormedUtf16 raw then .error bad
      else if raw = [] then .ok none
      else if LABEL_MAX_CHARS < codePointLength raw then .error long
      else .ok (some raw) := by
  unfold labelChecks
  by_cases hempty : raw = []
  · rw [if_pos hempty, if_pos hempty, hempty]
    rfl
  · rw [if_neg hempty, if_neg hempty]

theorem labelChecks_ok {ε : Type} {raw : JsString} {label : Option JsString} {bad long : ε} :
    labelChecks raw bad long = .ok label ↔
      label = (if raw = [] then none else some raw) ∧ LabelAllowed label := by
  unfold labelChecks
  by_cases hempty : raw = []
  · rw [if_pos hempty, if_pos hempty]
    constructor
    · rintro ⟨⟩
      exact ⟨rfl, nofun⟩
    · rintro ⟨rfl, -⟩
      rfl
  rw [if_neg hempty, if_neg hempty]
  by_cases hformed : isWellFormedUtf16 raw = true
  · rw [if_neg (by simp [hformed])]
    by_cases hlong : LABEL_MAX_CHARS < codePointLength raw
    · rw [if_pos hlong]
      refine ⟨nofun, ?_⟩
      rintro ⟨rfl, hallowed⟩
      exact absurd hlong (Nat.not_lt.mpr (hallowed raw rfl).2.2)
    · rw [if_neg hlong]
      constructor
      · rintro ⟨⟩
        refine ⟨rfl, ?_⟩
        rintro _ ⟨⟩
        exact ⟨hempty, hformed, Nat.not_lt.mp hlong⟩
      · rintro ⟨rfl, -⟩
        rfl
  · rw [if_pos (by simp [hformed])]
    refine ⟨nofun, ?_⟩
    rintro ⟨rfl, hallowed⟩
    exact absurd (hallowed raw rfl).2.1 hformed

theorem readLabelField_ok {label : Option JsString} :
    readLabelField slots key noun = .ok label ↔
      (slots key).Labels label ∧ LabelAllowed label := by
  unfold readLabelField
  rw [bind_ok_iff]
  simp only [readOptional_ok]
  constructor
  · rintro ⟨_, ⟨hcount, rfl⟩ | ⟨raw, rfl, hslot⟩, h⟩
    · cases h
      exact ⟨.inl ⟨hcount, rfl⟩, nofun⟩
    · obtain ⟨hlabel, hallowed⟩ := labelChecks_ok.mp h
      exact ⟨.inr ⟨raw, hslot, hlabel⟩, hallowed⟩
  · rintro ⟨⟨hcount, rfl⟩ | ⟨raw, hslot, hlabel⟩, hallowed⟩
    · exact ⟨none, .inl ⟨hcount, rfl⟩, rfl⟩
    · exact ⟨some raw, .inr ⟨raw, rfl, hslot⟩, labelChecks_ok.mpr ⟨hlabel, hallowed⟩⟩

theorem Slot.labels_of {values : List (Option JsString)} {label : Option JsString} :
    (Slot.of values).Labels label ↔ LabelWritten values label := by
  unfold Slot.Labels LabelWritten
  simp only [Slot.of_count, Slot.of_eq_one]

theorem NumberWritten.amountAllowed {values : List (Option JsString)} {amount : Nat}
    (h : NumberWritten parsePositiveU64 values amount) : AmountAllowed amount := by
  obtain ⟨raw, -, hread⟩ := h
  exact allowed_of_parsePositiveU64 hread

theorem NumberWritten.daysAllowed {values : List (Option JsString)} {days : Nat}
    (h : NumberWritten parseDaysToken values days) : DaysAllowed days := by
  obtain ⟨raw, -, hread⟩ := h
  exact allowed_of_parseDaysToken hread

/-! ## Writing a label -/

def labelPair (key : κ) (label : Option JsString) : List (κ × JsString) :=
  match label with
  | none => []
  | some text => if text = [] then [] else [(key, text)]

theorem mem_labelPair {label : Option JsString} {param : κ × JsString}
    (h : param ∈ labelPair key label) : param.1 = key ∧ label = some param.2 := by
  unfold labelPair at h
  split at h
  · cases h
  · split at h
    · cases h
    · obtain rfl := List.mem_singleton.mp h
      exact ⟨rfl, rfl⟩

section Written

variable [DecidableEq κ]

theorem valuesOf_labelPair_of_ne {other : κ} (label : Option JsString) (h : other ≠ key) :
    valuesOf key (labelPair other label) = [] :=
  valuesOf_eq_nil fun _ hparam => (mem_labelPair hparam).1 ▸ h

theorem labelWritten_labelPair {label : Option JsString} (h : LabelAllowed label) :
    LabelWritten ((valuesOf key (labelPair key label)).map some) label := by
  cases label with
  | none => exact .inl ⟨rfl, rfl⟩
  | some text =>
      have hne : text ≠ [] := (h text rfl).1
      refine .inr ⟨text, ?_, (if_neg hne).symm⟩
      rw [labelPair, if_neg hne, valuesOf, List.filter_cons, if_pos (by simp)]
      rfl

/-! A request is written as fixed parameters and two labels. -/

variable {fixed : List (κ × JsString)} {first second : κ} {firstLabel secondLabel : Option JsString}

theorem fixed_written {text : JsString} (hfirst : first ≠ key) (hsecond : second ≠ key)
    (h : valuesOf key fixed = [text]) :
    (valuesOf key (fixed ++ labelPair first firstLabel ++ labelPair second secondLabel)).map some =
      [some text] := by
  rw [valuesOf_append, valuesOf_append, valuesOf_labelPair_of_ne _ hfirst,
    valuesOf_labelPair_of_ne _ hsecond, h]
  rfl

theorem firstLabel_written (hne : second ≠ first) (hfixed : valuesOf first fixed = [])
    (h : LabelAllowed firstLabel) : LabelWritten ((valuesOf first
      (fixed ++ labelPair first firstLabel ++ labelPair second secondLabel)).map some) firstLabel := by
  rw [valuesOf_append, valuesOf_append, valuesOf_labelPair_of_ne _ hne, hfixed, List.append_nil,
    List.nil_append]
  exact labelWritten_labelPair h

theorem secondLabel_written (hne : first ≠ second) (hfixed : valuesOf second fixed = [])
    (h : LabelAllowed secondLabel) : LabelWritten ((valuesOf second
      (fixed ++ labelPair first firstLabel ++ labelPair second secondLabel)).map some) secondLabel := by
  rw [valuesOf_append, valuesOf_append, valuesOf_labelPair_of_ne _ hne, hfixed, List.append_nil,
    List.nil_append]
  exact labelWritten_labelPair h

end Written

theorem wellFormed_of_canonicalAddress {address : JsString} (h : canonicalAddress address = true) :
    isWellFormedUtf16 address = true := by
  have hkey : publicKeyBase58 address = some address := of_decide_eq_true h
  unfold publicKeyBase58 at hkey
  obtain ⟨chars, hchars, -⟩ := Option.bind_eq_some_iff.mp hkey
  exact isWellFormedUtf16_iff.mpr ⟨chars, utf16_of_decode hchars⟩

theorem wellFormed_decimal (n : Nat) : isWellFormedUtf16 (decimal n) = true :=
  isWellFormedUtf16_iff.mpr ⟨_, rfl⟩

/-! Reading an input object. -/

theorem readInputAddress_ok {value : JsValue} {address : JsString} :
    readInputAddress value key noun = .ok address ↔
      value = .string address ∧ canonicalAddress address = true := by
  cases value with
  | string text =>
      rw [readInputAddress]
      by_cases hcanonical : canonicalAddress text = true
      · rw [if_pos hcanonical]
        constructor
        · rintro ⟨⟩
          exact ⟨rfl, hcanonical⟩
        · rintro ⟨⟨⟩, -⟩
          rfl
      · rw [if_neg hcanonical]
        refine ⟨nofun, ?_⟩
        rintro ⟨⟨⟩, h⟩
        exact absurd h hcanonical
  | _ => exact ⟨nofun, nofun⟩

theorem readInputAmount_ok {value : JsValue} {amount : Nat} :
    readInputAmount value key noun message = .ok amount ↔ coercePositiveU64 value = some amount := by
  unfold readInputAmount
  split
  · next hmissing =>
    rw [hmissing]
    exact iff_of_false (fun h => by cases h) (fun h => by cases h)
  · cases coercePositiveU64 value with
    | none => exact iff_of_false (fun h => by cases h) (fun h => by cases h)
    | some other => simp

theorem readInputDays_ok {value : JsValue} {days : Nat} :
    readInputDays value key noun = .ok days ↔ coerceDays value = some days := by
  unfold readInputDays
  split
  · next hmissing =>
    rw [hmissing]
    exact iff_of_false (fun h => by cases h) (fun h => by cases h)
  · cases coerceDays value with
    | none => exact iff_of_false (fun h => by cases h) (fun h => by cases h)
    | some other => simp

theorem readInputPurpose_ok {value : JsValue} {purpose : JsString} :
    readInputPurpose value key noun = .ok purpose ↔
      value = .string purpose ∧ PurposeAllowed purpose := by
  cases value with
  | string text =>
      rw [readInputPurpose]
      unfold fail
      rw [purpose_checks, JsValue.string.injEq]
  | _ => exact ⟨nofun, nofun⟩

/-- What an input says of a label. -/
def JsValue.Labels (value : JsValue) (label : Option JsString) : Prop :=
  (value = .undefined ∧ label = none) ∨
    ∃ raw, value = .string raw ∧ label = if raw = [] then none else some raw

theorem readInputLabel_ok {value : JsValue} {label : Option JsString} :
    readInputLabel value key noun = .ok label ↔ value.Labels label ∧ LabelAllowed label := by
  unfold JsValue.Labels
  cases value with
  | undefined =>
      constructor
      · rintro ⟨⟩
        exact ⟨.inl ⟨rfl, rfl⟩, nofun⟩
      · rintro ⟨⟨-, rfl⟩ | ⟨_, h, -⟩, -⟩
        · rfl
        · cases h
  | string text =>
      rw [readInputLabel]
      unfold fail
      rw [← labelChecks_eq, labelChecks_ok]
      refine and_congr_left fun _ => ⟨fun h => .inr ⟨text, rfl, h⟩, ?_⟩
      rintro (⟨h, -⟩ | ⟨_, ⟨⟩, h⟩)
      · cases h
      · exact h
  | _ =>
      refine ⟨nofun, ?_⟩
      rintro ⟨⟨h, -⟩ | ⟨_, h, -⟩, -⟩ <;> cases h

theorem toNat_of_bounds {n : Int} {least most : Nat} (h : ¬ (n < least || most < n) = true) :
    least ≤ n.toNat ∧ n.toNat ≤ most := by
  simp only [Bool.or_eq_true, decide_eq_true_eq] at h
  omega

theorem allowed_of_coercePositiveU64 {value : JsValue} {amount : Nat}
    (h : coercePositiveU64 value = some amount) : AmountAllowed amount := by
  unfold coercePositiveU64 at h
  split at h
  · split at h
    · cases h
    · next hbounds =>
      obtain rfl := Option.some.inj h
      exact toNat_of_bounds hbounds
  · next n =>
    split at h
    · cases h
    · next hbounds =>
      obtain rfl := Option.some.inj h
      simp only [isSafeInteger, Bool.or_eq_true, Bool.not_eq_true', decide_eq_true_eq,
        decide_eq_false_iff_not] at hbounds
      simp only [MAX_SAFE_INTEGER] at hbounds
      rw [AmountAllowed, U64_MAX]
      omega
  · exact allowed_of_parsePositiveU64 h
  · cases h

theorem allowed_of_coerceDays {value : JsValue} {days : Nat} (h : coerceDays value = some days) :
    DaysAllowed days := by
  unfold coerceDays at h
  split at h
  · split at h
    · cases h
    · next hbounds =>
      obtain rfl := Option.some.inj h
      exact toNat_of_bounds hbounds
  · split at h
    · cases h
    · next hbounds =>
      obtain rfl := Option.some.inj h
      exact toNat_of_bounds hbounds
  · exact allowed_of_parseDaysToken h
  · cases h

/-- An amount that is allowed is taken as it is. -/
theorem coercePositiveU64_bigint {amount : Nat} (h : AmountAllowed amount) :
    coercePositiveU64 (.bigint amount) = some amount := by
  obtain ⟨hmin, hmax⟩ := h
  rw [coercePositiveU64, if_neg, Int.toNat_natCast]
  simp only [Bool.or_eq_true, decide_eq_true_eq]
  omega

theorem coerceDays_number {days : Nat} (h : DaysAllowed days) :
    coerceDays (.number (some days)) = some days := by
  obtain ⟨hmin, hmax⟩ := h
  rw [coerceDays, if_neg, Int.toNat_natCast]
  simp only [Bool.or_eq_true, decide_eq_true_eq]
  omega

end Spec

end Veto.Sdk

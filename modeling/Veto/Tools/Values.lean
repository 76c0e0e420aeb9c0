import Veto.App.RuleRequest
import Veto.Foundation.Double

/-!
# The values of a file

What `JSON.parse` returns, with its numbers as doubles, and `Number` of such a value.
-/

namespace Veto.Tools

open Foundation

inductive JsValue
  | null
  | bool (value : Bool)
  | number (n : JsNumber)
  | string (text : JsString)
  | array (items : List JsValue)
  | object (fields : List (JsString × JsValue))

/-! ## Numbers -/

/-- A sign, and what stands behind it. -/
def takeMinus (text : Text) : Bool × Text :=
  match text with
  | '-' :: rest => (true, rest)
  | '+' :: rest => (false, rest)
  | rest => (false, rest)

def signed (negative : Bool) (n : Nat) : Int := if negative then -n else n

/-- The digits behind a point, and what stands behind them. -/
def takePoint (text : Text) : Text × Text :=
  match text with
  | '.' :: rest => (rest.takeWhile Char.isDigit, rest.dropWhile Char.isDigit)
  | rest => ([], rest)

/-- An exponent up to the end of a text. -/
def exponentOf (text : Text) : Option Int :=
  match text with
  | [] => some 0
  | e :: rest =>
      let (negative, digits) := takeMinus rest
      if (e = 'e' || e = 'E') && !digits.isEmpty && digits.all Char.isDigit then
        some (signed negative (Nat.ofDigitChars 10 digits 0))
      else none

/-- The number of a decimal literal.  The numerals of JSON are such literals. -/
def decimalLiteral (text : Text) : Option ℚ :=
  let (negative, text) := takeMinus text
  let whole := text.takeWhile Char.isDigit
  let (frac, rest) := takePoint (text.dropWhile Char.isDigit)
  if whole.isEmpty && frac.isEmpty then none
  else (exponentOf rest).map fun exponent : Int =>
    (signed negative (Nat.ofDigitChars 10 (whole ++ frac) 0) : ℚ) * 10 ^ (exponent - frac.length)

/-- The digits of a literal with a base, after its `0x`, `0o` or `0b`. -/
def basedLiteral (base : Nat) (digits : Text) : Option ℚ :=
  let values := digits.map hexDigitValue
  if !digits.isEmpty && values.all (·.any (· < base)) then
    some (values.foldl (fun n digit => base * n + digit.getD 0) 0 : Nat)
  else none

/-- `Number` of a string. -/
def stringToNumber (input : JsString) : JsNumber :=
  match decodeUtf16 (App.trim input) with
  | none => .nan
  | some text =>
      let (negative, unsigned) := takeMinus text
      if text = [] then .finite 0
      else if unsigned = ['I', 'n', 'f', 'i', 'n', 'i', 't', 'y'] then .infinite negative
      else
        let literal :=
          match text with
          | '0' :: 'x' :: digits | '0' :: 'X' :: digits => basedLiteral 16 digits
          | '0' :: 'o' :: digits | '0' :: 'O' :: digits => basedLiteral 8 digits
          | '0' :: 'b' :: digits | '0' :: 'B' :: digits => basedLiteral 2 digits
          | text => decimalLiteral text
        literal.elim .nan nearestDouble

mutual

/-- What `JSON.parse` makes of a value that is read. -/
def jsValue : JsonValue → JsValue
  | .null => .null
  | .bool value => .bool value
  | .number numeral => .number ((decimalLiteral numeral).elim .nan nearestDouble)
  | .string text => .string text
  | .array items => .array (jsItems items)
  | .object fields => .object (jsFields fields)

def jsItems : List JsonValue → List JsValue
  | [] => []
  | item :: items => jsValue item :: jsItems items

def jsField : JsString × JsonValue → JsString × JsValue
  | (key, value) => (key, jsValue value)

def jsFields : List (JsString × JsonValue) → List (JsString × JsValue)
  | [] => []
  | field :: fields => jsField field :: jsFields fields

end

theorem jsItems_eq (items : List JsonValue) : jsItems items = items.map jsValue := by
  induction items with
  | nil => rfl
  | cons item items ih => rw [jsItems, ih, List.map_cons]

theorem jsFields_eq (fields : List (JsString × JsonValue)) :
    jsFields fields = fields.map fun field => (field.1, jsValue field.2) := by
  induction fields with
  | nil => rfl
  | cons field fields ih => rw [jsFields, ih, List.map_cons, jsField]

/-- `Number` of the text that an item is joined as. -/
def itemNumber : JsValue → JsNumber
  | .null => .finite 0
  | .number n => n
  | .string text => stringToNumber text
  | .array [] => .finite 0
  | .array [item] => itemNumber item
  | _ => .nan

/-- `Number(value)`; an array is joined with commas first.  An object is `NaN`, or throws where it
has a `toString` of its own. -/
def numberOf : JsValue → JsNumber
  | .bool value => .finite (if value then 1 else 0)
  | value => itemNumber value

/-- A property of an object. -/
def field (fields : List (JsString × JsValue)) (name : String) : Option JsValue :=
  (fields.find? (·.1 = js name)).map Prod.snd

/-! ## Whole numbers are read back -/

theorem takeWhile_digits {digits rest : Text} (h : ∀ c ∈ digits, c.isDigit = true)
    (hrest : rest.head?.all (fun c => !c.isDigit) = true) :
    (digits ++ rest).takeWhile Char.isDigit = digits ∧
      (digits ++ rest).dropWhile Char.isDigit = rest := by
  rw [List.takeWhile_append_of_pos h, List.dropWhile_append_of_pos h]
  cases rest with
  | nil => exact ⟨List.append_nil _, rfl⟩
  | cons c rest =>
      have hc : ¬ c.isDigit = true := by
        simpa using hrest
      rw [List.takeWhile_cons_of_neg hc, List.dropWhile_cons_of_neg hc, List.append_nil]
      exact ⟨rfl, rfl⟩

theorem takeMinus_digits {digits : Text} (h : ∀ c ∈ digits, c.isDigit = true) :
    takeMinus digits = (false, digits) := by
  cases digits with
  | nil => rfl
  | cons c digits =>
      have hc := h c List.mem_cons_self
      unfold takeMinus
      split
      · rename_i heq
        cases heq
        exact absurd hc (by decide)
      · rename_i heq
        cases heq
        exact absurd hc (by decide)
      · rfl

theorem decimalLiteral_toDigits (n : Nat) :
    decimalLiteral (Nat.toDigits 10 n) = some (n : ℚ) ∧
      decimalLiteral ('-' :: Nat.toDigits 10 n) = some (-(n : ℚ)) := by
  have hdigits : ∀ c ∈ Nat.toDigits 10 n, c.isDigit = true := fun c hc =>
    Nat.isDigit_of_mem_toDigits (by decide) (by decide) hc
  have hne : (Nat.toDigits 10 n).isEmpty = false := by simp [Nat.toDigits_ne_nil]
  obtain ⟨htake, hdrop⟩ := @takeWhile_digits _ [] hdigits rfl
  rw [List.append_nil] at htake hdrop
  have hvalue : Nat.ofDigitChars 10 (Nat.toDigits 10 n) 0 = n := Nat.ofDigitChars_ten_toDigits
  constructor
  · unfold decimalLiteral
    rw [takeMinus_digits hdigits]
    simp [htake, hdrop, takePoint, exponentOf, hne, hvalue, signed]
  · unfold decimalLiteral
    simp [takeMinus, htake, hdrop, takePoint, exponentOf, hne, hvalue, signed]

theorem decimalLiteral_numeral (n : Int) : decimalLiteral (numeral n) = some (n : ℚ) := by
  unfold numeral
  by_cases hneg : n < 0
  · rw [if_pos hneg, (decimalLiteral_toDigits _).2, Nat.cast_natAbs, abs_of_neg hneg, Int.cast_neg,
      neg_neg]
  · rw [if_neg hneg, (decimalLiteral_toDigits _).1, Nat.cast_natAbs, abs_of_nonneg (not_lt.mp hneg)]

theorem jsValue_numeral {n : Int} (h : n.natAbs < 2 ^ 1023) :
    jsValue (.number (numeral n)) = .number (.finite (toNumber n)) := by
  rw [jsValue, decimalLiteral_numeral, Option.elim_some, nearestDouble_int h]

end Veto.Tools

import Veto.Foundation.JsonSource
import Veto.Watcher.Money
import Mathlib.Algebra.Order.Ring.Rat
import Mathlib.Algebra.Field.Rat

/-!
# The body of the price feed

`parseFeedBody` of `feed.ts`: the windows of a day.  `JSON.parse` tells which entries are windows,
and a walker of the text finds the token of a price that is a number.  A position in a text is what
is left of the text from there.
-/

namespace Veto.Watcher.Feed

open Foundation

/-- A window as the body has it; in `Veto.Watcher.PriceWindow` its start is read as a time. -/
structure PriceWindow where
  timeStart : JsString
  timeEnd : JsString
  sekPerKwh : JsString
  deriving DecidableEq

/-! ## The walker -/

/-- `text.slice(i, end)`, where `rest` is what is left from `end`. -/
def slice (text rest : Text) : Text := text.take (text.length - rest.length)

def skipWs (text : Text) : Text := text.dropWhile isJsonSpace

/-- The loop of `indexAfterJsonString`. -/
def afterString (escape : Bool) : Text → Option Text
  | [] => none
  | c :: rest =>
      if escape then afterString false rest
      else if c = '\\' then afterString true rest
      else if c = '"' then some rest
      else afterString false rest

def indexAfterJsonString (text : Text) : Option Text := afterString false (text.drop 1)

/-- The variables of the two loops that count brackets. -/
structure Scan where
  depth : Int
  inString : Bool
  escape : Bool

/-- What one turn of either loop makes of them. -/
def Scan.next (s : Scan) (c : Char) : Scan :=
  if s.inString then
    if s.escape then { s with escape := false }
    else if c = '\\' then { s with escape := true }
    else if c = '"' then { s with inString := false }
    else s
  else if c = '"' then { s with inString := true }
  else if c = '{' ∨ c = '[' then { s with depth := s.depth + 1 }
  else if c = '}' ∨ c = ']' then { s with depth := s.depth - 1 }
  else s

/-- The loop of `indexAfterJsonValue` over an array or an object. -/
def afterContainer (s : Scan) : Text → Option Text
  | [] => none
  | c :: rest =>
      if s.inString = false ∧ (c = '}' ∨ c = ']') ∧ (s.next c).depth = 0 then some rest
      else afterContainer (s.next c) rest

/-- `(?:[eE][+-]?\d+)?`. -/
def afterExponent (text : Text) : Text :=
  match text with
  | [] => []
  | e :: rest =>
      let digits := (takeSign rest).2
      if (e = 'e' ∨ e = 'E') ∧ digits.head?.any Char.isDigit then digits.dropWhile Char.isDigit
      else text

/-- `(?:\.\d+)?`. -/
def afterFraction (text : Text) : Text :=
  match text with
  | '.' :: rest => if rest.head?.any Char.isDigit then rest.dropWhile Char.isDigit else text
  | _ => text

/-- `-?(?:0|[1-9]\d*)(?:\.\d+)?(?:[eE][+-]?\d+)?`. -/
def afterNumber (text : Text) : Option Text :=
  match unsigned text with
  | '0' :: rest => some (afterExponent (afterFraction rest))
  | d :: rest =>
      if d.isDigit then some (afterExponent (afterFraction (rest.dropWhile Char.isDigit))) else none
  | [] => none

/-- What is left after `true`, `false`, `null` or a number. -/
def afterLiteral (text : Text) : Option Text :=
  (((text.dropPrefix? ['t', 'r', 'u', 'e']).or
    (text.dropPrefix? ['f', 'a', 'l', 's', 'e'])).or
    (text.dropPrefix? ['n', 'u', 'l', 'l'])).or (afterNumber text)

def indexAfterJsonValue (text : Text) : Option Text :=
  match skipWs text with
  | [] => none
  | c :: rest =>
      if c = '"' then indexAfterJsonString (c :: rest)
      else if c = '{' ∨ c = '[' then afterContainer ⟨0, false, false⟩ (c :: rest)
      else afterLiteral (c :: rest)

/-- The loop of `topLevelArraySpans`.  Each turn goes on by a character at least. -/
def spansFrom (expectValue : Bool) (spans : List Text) : (fuel : Nat) → Text → Option (List Text)
  | 0, _ => none
  | fuel + 1, text =>
      match skipWs text with
      | [] => none
      | c :: rest =>
          if c = ']' then some spans
          else if c = ',' then if expectValue then none else spansFrom true spans fuel rest
          else if !expectValue then none
          else
            match indexAfterJsonValue (c :: rest) with
            | none => none
            | some after => spansFrom false (spans ++ [slice (c :: rest) after]) fuel after

/-- Source text of each top-level array value, in order. -/
def topLevelArraySpans (text : Text) : Option (List Text) :=
  let text := if text.head? = some '\ufeff' then text.drop 1 else text
  match skipWs text with
  | '[' :: rest => spansFrom true [] (rest.length + 1) rest
  | _ => none

def PRICE_KEY : Text := ['S', 'E', 'K', '_', 'p', 'e', 'r', '_', 'k', 'W', 'h']

/-- `[-+0-9.eE]`. -/
def isTokenChar (c : Char) : Bool :=
  c = '-' || c = '+' || c = '.' || c = 'e' || c = 'E' || c.isDigit

/-- `(?:"([^"]*)"|([-+0-9.eE]+))`: the one group or the other. -/
def matchToken (text : Text) : Option Text :=
  match text with
  | '"' :: rest => if rest.any (· = '"') then some (rest.takeWhile (· ≠ '"')) else none
  | _ =>
      let token := text.takeWhile isTokenChar
      if token = [] then none else some token

/-- `\s*:\s*(?:"([^"]*)"|([-+0-9.eE]+))`. -/
def matchAfterKey (text : Text) : Option Text :=
  match text.dropWhile isSpace with
  | ':' :: rest => matchToken (rest.dropWhile isSpace)
  | _ => none

/-- `SEK_VALUE_RE`, matched at the head of a text. -/
def matchSekValue (text : Text) : Option Text :=
  (text.dropPrefix? ('"' :: (PRICE_KEY ++ ['"']))).bind matchAfterKey

/-- The loop of `topLevelSekToken`. -/
def sekTokenFrom (s : Scan) (found : Option Text) : Text → Option Text
  | [] => found
  | c :: rest =>
      let found :=
        if s.inString = false ∧ c = '"' ∧ s.depth = 1 then (matchSekValue (c :: rest)).or found
        else found
      sekTokenFrom (s.next c) found rest

/-- Raw SEK_per_kWh token at object depth 1. -/
def topLevelSekToken (objectSrc : Text) : Option Text :=
  match skipWs objectSrc with
  | '{' :: rest => sekTokenFrom ⟨0, false, false⟩ none ('{' :: rest)
  | _ => none

/-! ## The windows -/

/-- The number of a numeral. -/
def numeralValue (numeral : Text) : ℚ :=
  let (sign, text) := takeSign numeral
  let whole := text.takeWhile Char.isDigit
  let (frac, text) := takeFraction (text.dropWhile Char.isDigit)
  let (expSign, digits) := takeSign (text.drop 1)
  let exponent : Int := Nat.ofDigitChars 10 digits 0
  let exponent := if expSign = some '-' then -exponent else exponent
  let magnitude := (Nat.ofDigitChars 10 (whole ++ frac) 0 : ℚ) * 10 ^ (exponent - frac.length)
  if sign = some '-' then -magnitude else magnitude

/-- `Number.isFinite` of a number that is read: from halfway above the largest one on, numbers are
rounded to infinity. -/
def isFiniteNumber (numeral : Text) : Bool :=
  -(2 ^ 1024 - 2 ^ 970) < numeralValue numeral && numeralValue numeral < 2 ^ 1024 - 2 ^ 970

/-- True when a quoted price is a decimal the money path will price, as written.  A string with an
unpaired surrogate is none. -/
def quotedPriceIsDecimal (value : JsString) : Bool :=
  match decodeUtf16 value with
  | none => false
  | some text =>
      if text = [] ∨ text ≠ trim text then false
      else
        match sekPerKwhToScaled text with
        | .ok _ => true
        | .error _ => false

def sekFromParsed (value : JsonValue) (raw : Option Text) : Option JsString :=
  match value with
  | .string value => if quotedPriceIsDecimal value then some value else none
  | .number numeral =>
      if isFiniteNumber numeral then
        match raw with
        | none => none
        | some raw => if raw = [] then none else some (utf16 raw)
      else none
  | _ => none

/-- A string that is not empty. -/
def timeOf : Option JsonValue → Option JsString
  | some (.string time) => if time = [] then none else some time
  | _ => none

/-- One turn of the loop of `parseFeedBody`. -/
def windowOf (item : JsonValue) (span : Option Text) : Option PriceWindow :=
  match item with
  | .object fields => do
      let timeStart ← timeOf (property fields (js "time_start"))
      let timeEnd ← timeOf (property fields (js "time_end"))
      let sekValue ← property fields (js "SEK_per_kWh")
      let sekPerKwh ← sekFromParsed sekValue (span.bind topLevelSekToken)
      if sekPerKwh = [] then none
      else some ⟨timeStart, timeEnd, sekPerKwh⟩
  | _ => none

def parseFeedBody (text : Text) : List PriceWindow :=
  match jsonParse text with
  | some (.array parsed) =>
      let spans := topLevelArraySpans text
      parsed.zipIdx.filterMap fun (item, i) => windowOf item (spans.bind fun spans => spans[i]?)
  | _ => []

end Veto.Watcher.Feed

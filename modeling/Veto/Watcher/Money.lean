import Veto.Foundation.Text
import Mathlib.Algebra.Ring.Int.Defs

/-!
# From a spot price to base units

Integer conversion from a price in the feed's own text to mint base units, `money.ts` and
`plainDecimal` of `feed.ts`.  A price is read as text all the way: digits are moved, never
rounded through a float.
-/

namespace Veto.Watcher

open Foundation

/-! ## Text -/

/-- What `String.trim` takes off. -/
def isSpace (c : Char) : Bool :=
  c ∈ ['\t', '\n', '\x0b', '\x0c', '\r', ' ', '\u00a0', '\u1680', '\u2028', '\u2029', '\u202f',
    '\u205f', '\u3000', '\ufeff'] || ('\u2000' ≤ c && c ≤ '\u200a')

def trim (text : Text) : Text :=
  ((text.dropWhile isSpace).reverse.dropWhile isSpace).reverse

/-- The longest string the runtime makes. -/
def MAX_STRING_LENGTH : Nat := 536870888

/-- `"0".repeat(count)`, where the text around it has `around` characters. -/
def repeatZero (count around : Nat) : Except String Text :=
  if count + around ≤ MAX_STRING_LENGTH then .ok (List.replicate count '0')
  else .error "Invalid string length"

/-- An optional sign. -/
def takeSign (text : Text) : Option Char × Text :=
  match text with
  | '+' :: rest => (some '+', rest)
  | '-' :: rest => (some '-', rest)
  | rest => (none, rest)

/-- `(?:\.(\d+))?`, with the digits of its group. -/
def takeFraction (text : Text) : Text × Text :=
  match text with
  | '.' :: rest => (takeClass Char.isDigit rest).getD ([], text)
  | rest => ([], rest)

/-- `/^([+-]?)(\d+)(?:\.(\d+))?[eE]([+-]?\d+)$/`: the sign, the two runs of digits, and the
exponent. -/
def scientific (text : Text) : Option (Option Char × Text × Text × Int) := do
  let (sign, text) := takeSign text
  let (whole, text) ← takeClass Char.isDigit text
  let (frac, text) := takeFraction text
  let e :: text := text | none
  if e ≠ 'e' ∧ e ≠ 'E' then none
  let (expSign, text) := takeSign text
  let (exp, text) ← takeClass Char.isDigit text
  if text ≠ [] then none
  let value : Int := Nat.ofDigitChars 10 exp 0
  return (sign, whole, frac, if expSign = some '-' then -value else value)

/-- Expand scientific notation to a plain decimal string, textually. -/
def plainDecimal (raw : Text) : Except String Text := do
  let t := trim raw
  match scientific t with
  | none => return t
  | some (sign, intPart, fracPart, exp) =>
    let sign := if sign = some '-' then ['-'] else []
    let digits := intPart ++ fracPart
    let pointAt : Int := intPart.length + exp
    if pointAt ≤ 0 then
      let zeros ← repeatZero (-pointAt).toNat (sign.length + 2 + digits.length)
      return sign ++ (['0', '.'] ++ (zeros ++ digits))
    else if digits.length ≤ pointAt then
      let zeros ← repeatZero (pointAt - digits.length).toNat (sign.length + digits.length)
      return sign ++ (digits ++ zeros)
    else
      return sign ++ (digits.take pointAt.toNat ++ ('.' :: digits.drop pointAt.toNat))

/-! ## Scaled decimals -/

def PRICE_SCALE : Nat := 8

def KWH_MILLI_SCALE : Nat := 3

/-- `body.split(".")`. -/
def splitDots : Text → List Text
  | [] => [[]]
  | c :: rest =>
    match splitDots rest with
    | part :: parts => if c = '.' then [] :: part :: parts else (c :: part) :: parts
    | [] => [[c]]

def parseDecimalToScaled (raw : Text) (scale : Nat) : Except String Int := do
  let trimmed := trim raw
  let bad := "money.parseDecimalToScaled: bad decimal: " ++ String.ofList trimmed
  if trimmed.length = 0 then throw "money.parseDecimalToScaled: empty decimal"
  if trimmed.any (fun c => c = 'e' || c = 'E') then
    throw ("money.parseDecimalToScaled: scientific notation is not allowed: " ++
      String.ofList trimmed)
  let (sign, body) := takeSign trimmed
  let parts := splitDots body
  if 2 < parts.length then throw bad
  let wholeRaw := parts[0]?.getD []
  let fracRaw := parts[1]?.getD []
  if !wholeRaw.all Char.isDigit || !fracRaw.all Char.isDigit then throw bad
  if wholeRaw.length = 0 ∧ fracRaw.length = 0 then throw bad
  let fracDigits := fracRaw.take scale ++ List.replicate (scale - fracRaw.length) '0'
  let magnitude : Int :=
    Nat.ofDigitChars 10 wholeRaw 0 * 10 ^ scale + Nat.ofDigitChars 10 fracDigits 0
  return if sign = some '-' then -magnitude else magnitude

def sekPerKwhToScaled (sekPerKwh : Text) : Except String Int := do
  parseDecimalToScaled (← plainDecimal sekPerKwh) PRICE_SCALE

/-! ## Base units -/

/-- Milli-kWh times SEK per kWh in mint base units, leftover subunits dropped. -/
def amountBaseUnits (kwhMilli sekPerKwhScaled : Int) (mintDecimals : Nat) :
    Except String Int := do
  if kwhMilli ≤ 0 then throw "money.amountBaseUnits: kWh volume must be positive"
  if sekPerKwhScaled < 0 then throw "money.amountBaseUnits: negative price cannot become a charge"
  if sekPerKwhScaled = 0 then return 0
  let numerator := kwhMilli * sekPerKwhScaled * 10 ^ mintDecimals
  let denominator := 10 ^ KWH_MILLI_SCALE * 10 ^ PRICE_SCALE
  return numerator.tdiv denominator

/-- The same in USD, by the two rates against the euro. -/
def amountBaseUnitsUsd (kwhMilli sekPerKwhScaled usdRateScaled sekRateScaled : Int)
    (mintDecimals : Nat) : Except String Int := do
  if kwhMilli ≤ 0 then throw "money.amountBaseUnitsUsd: kWh volume must be positive"
  if sekPerKwhScaled < 0 then
    throw "money.amountBaseUnitsUsd: negative price cannot become a charge"
  if usdRateScaled < 0 then
    throw "money.amountBaseUnitsUsd: negative USD rate cannot become a charge"
  if sekRateScaled ≤ 0 then throw "money.amountBaseUnitsUsd: SEK rate must be positive"
  if sekPerKwhScaled = 0 ∨ usdRateScaled = 0 then return 0
  let numerator := kwhMilli * sekPerKwhScaled * usdRateScaled * 10 ^ mintDecimals
  let denominator := 10 ^ KWH_MILLI_SCALE * 10 ^ PRICE_SCALE * sekRateScaled
  return numerator.tdiv denominator

inductive SpotQuoteCurrency
  | sek
  | usd
  deriving DecidableEq

/-- One reading of the two rates, of one fixing date. -/
structure FxQuote where
  usdRateScaled : Int
  sekRateScaled : Int
  fixingDate : String
  sourceUrl : String

/-- SEK arithmetic unless USD is asked for, and then only with both rates. -/
def amountBaseUnitsQuoted (kwhMilli sekPerKwhScaled : Int) (mintDecimals : Nat)
    (quoteCurrency : SpotQuoteCurrency) (fx : Option FxQuote) : Except String Int :=
  match quoteCurrency, fx with
  | .sek, _ => amountBaseUnits kwhMilli sekPerKwhScaled mintDecimals
  | .usd, none => .error "money.amountBaseUnitsQuoted: USD quote needs both ECB rates"
  | .usd, some quote =>
      amountBaseUnitsUsd kwhMilli sekPerKwhScaled quote.usdRateScaled quote.sekRateScaled
        mintDecimals

example : sekPerKwhToScaled "-1.25e-1".toList = .ok (-12500000) := by decide

end Veto.Watcher

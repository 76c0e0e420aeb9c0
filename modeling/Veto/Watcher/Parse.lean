import Veto.Logs.Lines
import Veto.Ledger.Readers

/-!
# The decision lines of a charge

What the watcher reads in the log of a charge: the first line that looks like one of the
two the program writes, whoever wrote it.
-/

namespace Veto.Watcher

open Foundation

/-- The value of a run of digits, `Number.parseInt` or `BigInt`.  A number beyond what a
double holds exactly is no code of the program either way. -/
def digitsValue (digits : Text) : Nat := Nat.ofDigitChars 10 digits 0

/-- The reasons the watcher has a text for. -/
def reasonText (code : Nat) : String :=
  match code with
  | 0 => "ok"
  | 1 => "mandate not active"
  | 2 => "past expiry"
  | 3 => "nonce already settled"
  | 4 => "merchant not allowed"
  | 5 => "over per-payment maximum"
  | 6 => "over remaining cap"
  | 7 => "delegation withdrawn"
  | 8 => "insufficient funds"
  | 9 => "zero amount"
  | 10 => "account frozen"
  | _ => "unknown"

structure ChargeOutcome where
  decision : Decision
  reason : String
  reasonCode : Nat
  suggestedOverride : Option Nat

/-- `VETO PAID amount=(\d+)`, here. -/
def paidHere (text : Text) : Option Text := do
  let text ← text.dropPrefix? (lit "VETO PAID amount=")
  let (amount, _) ← takeClass Char.isDigit text
  return amount

/-- `override_to_clear=(\d+)`, here. -/
def overrideHere (text : Text) : Option Text := do
  let text ← text.dropPrefix? (lit "override_to_clear=")
  let (amount, _) ← takeClass Char.isDigit text
  return amount

/-- `VETO REFUSED reason=(\d+) \(([^)]*)\) amount=(\d+).*override_to_clear=(\d+)`, here, with
the groups for the reason, its text and the override. -/
def refusedHere (text : Text) : Option (Text × Text × Text) := do
  let text ← text.dropPrefix? (lit "VETO REFUSED reason=")
  let (reason, text) ← takeClass Char.isDigit text
  let text ← text.dropPrefix? (lit " (")
  let words := text.takeWhile (· ≠ ')')
  let text ← (text.dropWhile (· ≠ ')')).dropPrefix? (lit ") amount=")
  let (_, text) ← takeClass Char.isDigit text
  let override ← lastMatch overrideHere (text.takeWhile fun c => !Logs.isLineTerminator c)
  return (reason, words, override)

/-- What the two patterns read in one line. -/
def decisionLine (line : Text) : Option ChargeOutcome :=
  match firstMatch paidHere line with
  | some _ =>
      some { decision := .paid, reason := "ok", reasonCode := 0, suggestedOverride := none }
  | none =>
    match firstMatch refusedHere line with
    | some (reason, words, override) =>
        let code := digitsValue reason
        some {
          decision := .refused
          reason := if 0 < words.length then String.ofList words else reasonText code
          reasonCode := code
          suggestedOverride := some (digitsValue override) }
    | none => none

def parseChargeLogs : List Text → Except Thrown ChargeOutcome
  | [] => .error (.error
      "parse.parseChargeLogs: confirmed transaction had neither PAID nor REFUSED")
  | line :: logs =>
    match decisionLine line with
    | some outcome => .ok outcome
    | none => parseChargeLogs logs

end Veto.Watcher

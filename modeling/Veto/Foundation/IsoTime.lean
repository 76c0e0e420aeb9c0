import Mathlib.Tactic.Common

/-!
# `Date.prototype.toISOString`

Milliseconds since 1970 as a date and a time of the Gregorian calendar.  A date has at most
8640000000000000 milliseconds to either side.
-/

namespace Veto.Foundation

/-- Year, month and day, for a number of days since 1970-01-01.  Years begin in March here,
so that a leap day is the last day of its year. -/
def civilFromDays (days : Int) : Int × Int × Int :=
  let shifted := days + 719468
  let era := shifted / 146097
  let dayOfEra := shifted % 146097
  let yearOfEra := (dayOfEra - dayOfEra / 1460 + dayOfEra / 36524 - dayOfEra / 146096) / 365
  let dayOfYear := dayOfEra - (365 * yearOfEra + yearOfEra / 4 - yearOfEra / 100)
  let march := (5 * dayOfYear + 2) / 153
  let day := dayOfYear - (153 * march + 2) / 5 + 1
  let month := if march < 10 then march + 3 else march - 9
  (yearOfEra + era * 400 + (if month ≤ 2 then 1 else 0), month, day)

/-- `n` in decimal, with zeros in front up to `width` digits. -/
def padded (width n : Nat) : String :=
  String.ofList (List.replicate (width - (toString n).length) '0' ++ (toString n).toList)

/-- A year outside 0 to 9999 is written with its sign and six digits. -/
def yearText (year : Int) : String :=
  if 0 ≤ year ∧ year ≤ 9999 then padded 4 year.toNat
  else (if 0 ≤ year then "+" else "-") ++ padded 6 year.natAbs

/-- The text of a date, or none where the number of milliseconds is no date. -/
def toISOString (ms : Int) : Option String :=
  if ms.natAbs ≤ 8640000000000000 then
    let (year, month, day) := civilFromDays (ms / 86400000)
    let time := (ms % 86400000).toNat
    some (yearText year ++ "-" ++ padded 2 month.toNat ++ "-" ++ padded 2 day.toNat ++ "T" ++
      padded 2 (time / 3600000) ++ ":" ++ padded 2 (time / 60000 % 60) ++ ":" ++
      padded 2 (time / 1000 % 60) ++ "." ++ padded 3 (time % 1000) ++ "Z")
  else none

example : toISOString 1709164799999 = some "2024-02-28T23:59:59.999Z" := by decide +kernel

end Veto.Foundation

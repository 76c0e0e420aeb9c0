import Veto.Display
import Veto.Foundation.Decimal

/-!
# The id of a decision

`encodeDecisionId` and `parseDecisionId` of `exportRecord.ts`: the rule, the time, the kind and the
nonce of a decision, with colons between them.  The address of a rule has no colon, so an id reads
back as what it was made of.
-/

namespace Veto.App

open Foundation

/-- What an id names: a decision of a rule. -/
structure DecisionId where
  mandate : Text
  ts : Int
  kind : Nat
  nonce : Int
  deriving DecidableEq, Repr

/-- A whole number as it is written. -/
def signedText : Int → Text
  | .ofNat n => Nat.toDigits 10 n
  | .negSucc n => '-' :: Nat.toDigits 10 (n + 1)

def encodeDecisionId (mandate : Text) (ts : Int) (kind : Nat) (nonce : Int) : Text :=
  mandate ++ ':' :: (signedText ts ++ ':' :: (Nat.toDigits 10 kind ++ ':' :: signedText nonce))

/-- `/^\d+$/` -/
def isWhole (text : Text) : Bool := !text.isEmpty && text.all Char.isDigit

/-- `/^-?\d+$/` -/
def isSigned : Text → Bool
  | '-' :: text => isWhole text
  | text => isWhole text

/-- `BigInt` of a text that `isSigned` accepts. -/
def signedValue : Text → Int
  | '-' :: text => -(digits text : Int)
  | text => digits text

def parseDecisionId (id : Text) : Option DecisionId :=
  match id.splitOn ':' with
  | [mandate, tsRaw, kindRaw, nonceRaw] =>
      if mandate.isEmpty || !isSigned tsRaw || !isWhole kindRaw || !isSigned nonceRaw then none
      else some ⟨mandate, signedValue tsRaw, digits kindRaw, signedValue nonceRaw⟩
  | _ => none

/-! ## Numbers -/

theorem isWhole_toDigits (n : Nat) : isWhole (Nat.toDigits 10 n) = true := by
  unfold isWhole
  rw [Bool.and_eq_true, List.all_eq_true]
  constructor
  · simp [Nat.toDigits_ne_nil]
  · intro c hc
    exact Nat.isDigit_of_mem_toDigits (by decide) (by decide) hc

theorem digits_toDigits (n : Nat) : digits (Nat.toDigits 10 n) = n := Nat.ofDigitChars_ten_toDigits

/-- A number does not begin with a sign. -/
theorem toDigits_ne_minus (n : Nat) (text : Text) : Nat.toDigits 10 n ≠ '-' :: text := by
  intro h
  have hmem : '-' ∈ Nat.toDigits 10 n := by
    rw [h]
    exact List.mem_cons_self
  exact absurd (Nat.isDigit_of_mem_toDigits (by decide) (by decide) hmem) (by decide)

theorem isSigned_signedText (n : Int) : isSigned (signedText n) = true := by
  cases n with
  | ofNat n =>
      rw [signedText, isSigned]
      · exact isWhole_toDigits n
      · exact toDigits_ne_minus n
  | negSucc n => exact isWhole_toDigits (n + 1)

theorem signedValue_signedText (n : Int) : signedValue (signedText n) = n := by
  cases n with
  | ofNat n =>
      rw [signedText, signedValue]
      · rw [digits_toDigits]
        rfl
      · exact toDigits_ne_minus n
  | negSucc n =>
      rw [signedText, signedValue, digits_toDigits]
      rfl

theorem colon_not_mem_toDigits (n : Nat) : ':' ∉ Nat.toDigits 10 n := by
  intro h
  exact absurd (Nat.isDigit_of_mem_toDigits (by decide) (by decide) h) (by decide)

theorem colon_not_mem_signedText (n : Int) : ':' ∉ signedText n := by
  cases n with
  | ofNat n => exact colon_not_mem_toDigits n
  | negSucc n =>
      rw [signedText, List.mem_cons, not_or]
      exact ⟨by decide, colon_not_mem_toDigits (n + 1)⟩

/-! ## Ids -/

/-- An id of a rule whose name has no colon reads back. -/
theorem parseDecisionId_encode {mandate : Text} (hne : mandate ≠ []) (hcolon : ':' ∉ mandate)
    (ts : Int) (kind : Nat) (nonce : Int) :
    parseDecisionId (encodeDecisionId mandate ts kind nonce) = some ⟨mandate, ts, kind, nonce⟩ := by
  have hsplit : (encodeDecisionId mandate ts kind nonce).splitOn ':' =
      [mandate, signedText ts, Nat.toDigits 10 kind, signedText nonce] := by
    unfold encodeDecisionId
    rw [List.splitOn_append_cons_self_of_not_mem hcolon,
      List.splitOn_append_cons_self_of_not_mem (colon_not_mem_signedText ts),
      List.splitOn_append_cons_self_of_not_mem (colon_not_mem_toDigits kind),
      List.splitOn_eq_singleton (colon_not_mem_signedText nonce)]
  unfold parseDecisionId
  rw [hsplit]
  simp only [isSigned_signedText, isWhole_toDigits, signedValue_signedText, digits_toDigits]
  rw [if_neg (by simpa using hne)]

/-! ## Addresses of rules -/

theorem colon_not_mem_display (key : Pubkey) : ':' ∉ key.display.toList := by
  intro h
  exact absurd (mem_base58Alphabet_of_display h) (by decide)

theorem display_toList_ne_nil (key : Pubkey) : key.display.toList ≠ [] := by
  intro h
  have hzero : key = 0 := by
    apply BitVec.eq_of_toNat_eq
    have hvalue := key.value_display
    rw [h] at hvalue
    exact hvalue.symm
  rw [hzero] at h
  revert h
  decide

end Veto.App

import Veto.Indexer.Base64
import Veto.Node.Transaction

/-!
# The decisions of a transaction

`decisionsFromTx` of the indexer: one decision for each event the program wrote, or, where it
wrote none, the one its text line names.
-/

namespace Veto.Indexer

open Foundation

def TRADE_IX_DISC : Bytes := [178, 144, 26, 216, 241, 187, 206, 130]

structure CompiledIx where
  programId : String
  accounts : List String
  data : Bytes
  deriving DecidableEq

structure TxView where
  signature : String
  slot : Int
  blockTime : Option Int
  err : Bool
  logs : List Text
  instructions : List CompiledIx

structure Decision where
  rule : Option String
  amountIn : Option Nat
  amountOut : Option Nat
  minOut : Option Nat
  signature : String
  slot : Int
  timestamp : Option Int
  mandate : String
  amount : Nat
  nonce : Nat
  counterparty : String
  kind : DecisionKind
  reason : Nat
  reasonText : String
  suggestedOverride : Nat
  deriving DecidableEq

def isChargeIx (ix : CompiledIx) : Bool :=
  8 ≤ ix.data.length ∧ subarray ix.data 0 8 = CHARGE_DISCRIMINATOR

def counterpartyFromCharge (tx : TxView) (mandate : String) : String :=
  let named := tx.instructions.find? fun ix =>
    isChargeIx ix ∧ 5 ≤ ix.accounts.length ∧
      (ix.accounts[1]? = some mandate ∨ mandate ∈ ix.accounts)
  match named with
  | some ix => ix.accounts.getD 4 ""
  | none => ((tx.instructions.find? isChargeIx).bind fun ix => ix.accounts[4]?).getD ""

/-! ## The text line -/

structure ParsedLog where
  kind : DecisionKind
  reason : Nat
  amount : Nat
  suggestedOverride : Nat
  deriving DecidableEq

def digits (text : Text) : Nat := Nat.ofDigitChars 10 text 0

/-- `VETO PAID amount=(\d+)`, here. -/
def paidHere (text : Text) : Option Text := do
  let text ← text.dropPrefix? (lit "VETO PAID amount=")
  let (amount, _) ← takeClass Char.isDigit text
  return amount

/-- `override_to_clear=(\d+)`, here. -/
def overrideHere (text : Text) : Option Text := do
  let text ← text.dropPrefix? (lit "override_to_clear=")
  let (amount, _) ← takeClass Char.isDigit text
  return amount

/-- `VETO REFUSED reason=(\d+) \([^)]*\) amount=(\d+).*override_to_clear=(\d+)`, here, with its
groups. -/
def refusedHere (text : Text) : Option (Text × Text × Text) := do
  let text ← text.dropPrefix? (lit "VETO REFUSED reason=")
  let (reason, text) ← takeClass Char.isDigit text
  let text ← text.dropPrefix? (lit " (")
  let text ← (text.dropWhile (· ≠ ')')).dropPrefix? (lit ") amount=")
  let (amount, text) ← takeClass Char.isDigit text
  let override ← lastMatch overrideHere (text.takeWhile fun c => !Logs.isLineTerminator c)
  return (reason, amount, override)

def parseVetoTextLog (logs : List Text) (programId : String) : Option ParsedLog :=
  (Logs.Indexer.linesForProgram logs programId.toList).findSome? fun line =>
    match firstMatch paidHere line with
    | some amount => some ⟨.paid, 0, digits amount, 0⟩
    | none => (firstMatch refusedHere line).map fun (reason, amount, override) =>
        ⟨.refused, digits reason, digits amount, digits override⟩

/-- `reasonText` of a number. -/
def reasonTextOf (reason : Nat) : String :=
  if reason < 256 then reasonText (UInt8.ofNat reason) else "unknown"

def decisionFromChargeLog (tx : TxView) (programId : String) : Option Decision := do
  let parsed ← parseVetoTextLog tx.logs programId
  let charge ← tx.instructions.find? fun ix =>
    ix.programId = programId ∧ isChargeIx ix ∧ 5 ≤ ix.accounts.length ∧ 24 ≤ ix.data.length
  let amount := (u64At charge.data 8).toNat
  let nonce := (u64At charge.data 16).toNat
  if amount ≠ parsed.amount then none
  let mandate := charge.accounts.getD 1 ""
  if mandate.length = 0 then none
  return {
    rule := none, amountIn := none, amountOut := none, minOut := none
    signature := tx.signature
    slot := tx.slot
    timestamp := tx.blockTime
    mandate
    amount
    nonce
    counterparty := charge.accounts.getD 4 ""
    kind := parsed.kind
    reason := parsed.reason
    reasonText := reasonTextOf parsed.reason
    suggestedOverride := parsed.suggestedOverride }

/-! ## Events -/

/-- The instruction that a trade's event answers. -/
def tradeOf (tx : TxView) (programId : String) (event : DecodedEvent) : Option CompiledIx :=
  event.rule.bind fun rule => tx.instructions.find? fun ix =>
    ix.programId = programId ∧ ix.accounts[1]? = some rule.display ∧ ix.data.length = 32 ∧
      subarray ix.data 0 8 = TRADE_IX_DISC ∧ some (u64At ix.data 8) = event.amountIn ∧
      u64At ix.data 24 = event.nonce

/-- The decision of one event. -/
def decisionOf (tx : TxView) (programId : String) (event : DecodedEvent) : Decision :=
  let trade := tradeOf tx programId event
  let minOut := match event.minOut with
    | some minOut => some minOut.toNat
    | none => trade.map fun ix => (u64At ix.data 16).toNat
  { rule := event.rule.map Pubkey.display
    amountIn := event.rule.bind fun _ => event.amountIn.map UInt64.toNat
    amountOut := event.rule.bind fun _ => event.amountOut.map UInt64.toNat
    minOut := event.rule.bind fun _ => minOut
    signature := tx.signature
    slot := tx.slot
    timestamp := tx.blockTime
    mandate := event.mandate.display
    amount := event.amount.toNat
    nonce := event.nonce.toNat
    counterparty :=
      if event.rule.isSome then
        if event.reason = 12 then ""
        else ((trade.bind fun ix => ix.accounts[if event.reason = 11 then 4 else 6]?).getD "")
      else counterpartyFromCharge tx event.mandate.display
    kind := event.kind
    reason := event.reason.toNat
    reasonText :=
      if event.rule.isSome ∧ event.reason = 1 then "rule not active"
      else if event.rule.isSome ∧ event.reason = 5 then "over per-trade maximum"
      else reasonText event.reason
    suggestedOverride := event.suggestedOverride.toNat }

/-- The decisions of a transaction, of every mandate. -/
def decisionsFromTx (tx : TxView) (programId : String) : List Decision :=
  if tx.err then []
  else
    match decodeEventsFromLogs tx.logs programId.toList with
    | [] => (decisionFromChargeLog tx programId).toList
    | events => events.map (decisionOf tx programId)

/-- Without a charge of the program there is nothing for a text line to name. -/
theorem decisionFromChargeLog_eq_none {tx : TxView} {programId : String}
    (h : ∀ ix ∈ tx.instructions, ix.programId = programId → isChargeIx ix = false) :
    decisionFromChargeLog tx programId = none := by
  have hfind : tx.instructions.find? (fun ix => ix.programId = programId ∧ isChargeIx ix ∧
      5 ≤ ix.accounts.length ∧ 24 ≤ ix.data.length) = none := by
    rw [List.find?_eq_none]
    intro ix hix hcharge
    obtain ⟨hprogram, hcharge, -⟩ := of_decide_eq_true hcharge
    rw [h ix hix hprogram] at hcharge
    cases hcharge
  unfold decisionFromChargeLog
  rw [hfind]
  cases parseVetoTextLog tx.logs programId <;> rfl

end Veto.Indexer

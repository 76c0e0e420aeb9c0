import Veto.App.Ring
import Veto.Ledger.Agreement
import Veto.Mandate.Readers
import Veto.Trade.Readers

/-!
# Allow once

`override.ts` of the app: whether the override a refused row suggests can be granted, judged
from the row and the account as it stands.  A trade rule is judged in the shape of a mandate.
-/

namespace Veto.App

open Foundation

def Constants.STATUS_ACTIVE : UInt8 := 0

def Constants.STATUS_REVOKED : UInt8 := 1

def Constants.STATUS_EXHAUSTED : UInt8 := 2

def Constants.REASON_OVER_PER_TX_MAX : UInt8 := 5

def Constants.REASON_OVER_CAP : UInt8 := 6

def statusName (status : UInt8) : String :=
  match status.toNat with
  | 0 => "active"
  | 1 => "revoked"
  | 2 => "exhausted"
  | 3 => "expired"
  | n => "status:" ++ toString n

/-! ## Amounts in words -/

/-- `padStart(width, '0')`. -/
def padZeros (width : Nat) (digits : List Char) : List Char :=
  List.replicate (width - digits.length) '0' ++ digits

def formatBaseUnits (amount : Int) (decimals : Nat) : String :=
  let scale := 10 ^ decimals
  let whole := toString (amount.natAbs / scale)
  let frac := amount.natAbs % scale
  let sign := if amount < 0 then "-" else ""
  if frac = 0 then sign ++ whole
  else
    let fracStr := (padZeros decimals (toString frac).toList).rdropWhile (· = '0')
    sign ++ whole ++ "." ++ String.ofList fracStr

/-- The symbols of `KNOWN_TOKENS`, by mint. -/
def KNOWN_TOKENS : List (String × String) :=
  [ ("So11111111111111111111111111111111111111112", "wrapped SOL"),
    ("2dV6DLAUF63ugfD1sgNF8fUmQKr9pMDzeLxJGSwkMcCU", "VTEST"),
    ("4zMMC9srt5Ri5X14GAgXhaHii3GnPAEERYPJgZJDncDU", "USDC"),
    ("EPjFWdd5AufqSSqeM2qN1xzybapC8G4wEGGkZwyTDt1v", "USDC"),
    ("SKRbvo6Gf7GondiT3BbTfuRDPqLWei4j2Qy2NPGZhW3", "SKR") ]

def shortenMint (mint : String) : String :=
  let chars := mint.toList
  if chars.length ≤ 8 then mint
  else String.ofList (chars.take 4) ++ "..." ++ String.ofList (chars.drop (chars.length - 4))

/-- The mint is a key in base 58, which has no blanks to trim. -/
def tokenSymbol (mint : String) : String :=
  if mint = "" then "" else (KNOWN_TOKENS.lookup mint).getD (shortenMint mint)

def withToken (amount mint : String) : String :=
  let symbol := tokenSymbol mint
  if symbol = "" ∨ amount = "" then amount
  else if (" " ++ symbol).toList.isSuffixOf amount.toList then amount
  else amount ++ " " ++ symbol

def formatTokenAmount (amount : Int) (decimals : Nat) (mint : String) : String :=
  withToken (formatBaseUnits amount decimals) mint

/-! ## The account and the row -/

def isActive (mandate : MandateAccount) (nowSec : Int) : Bool :=
  mandate.status = Constants.STATUS_ACTIVE ∧ nowSec < mandate.expiresAt

def remainingCap (cap spent : Int) : Int := if spent < cap then cap - spent else 0

def mandateRemaining (mandate : MandateAccount) : Int := remainingCap mandate.cap mandate.spent

/-- Shape Allow-once already understands.  Amounts stay on the input token. -/
def tradeRuleAsMandate (rule : TradeRuleAccount) : MandateAccount where
  address := rule.address
  owner := rule.owner
  agent := rule.agent
  mint := rule.inMint
  source := rule.source
  merchant := rule.destination
  mandateId := rule.ruleId
  cap := rule.cap
  spent := rule.spent
  perTxMax := rule.perTradeMax
  expiresAt := rule.expiresAt
  overrideAmount := rule.overrideAmount
  overrideNonce := rule.overrideNonce
  lastNonce := rule.lastNonce
  purpose := rule.purpose
  status := rule.status
  spendCount := rule.tradeCount
  refusalCount := rule.refusalCount
  bump := rule.bump

structure OverrideSource where
  kind : UInt8
  reason : UInt8
  nonce : Int
  amount : Int
  suggestedOverride : Int
  deriving DecidableEq

/-- What a row of either ledger says of its refusal. -/
def RingEntry.overrideSource (row : RingEntry) : OverrideSource where
  kind := row.kind
  reason := row.reason
  nonce := row.nonce.toNat
  amount := row.amount.toNat
  suggestedOverride := row.suggestedOverride.toNat

/-- A row of a trade ledger has two amounts more. -/
structure TradeRingEntry extends RingEntry where
  amountOut : UInt64
  minOut : UInt64
  deriving DecidableEq

/-- A trade as the app shows it. -/
def TradeRingEntry.of (e : Raw.TradeEntry) : TradeRingEntry where
  ts := e.ts
  amount := e.amountIn
  counterparty := e.counterparty.display
  nonce := e.nonce
  suggestedOverride := e.suggestedOverride
  kind := e.kind
  kindName := App.kindName e.kind
  reason := e.reason
  reasonText := App.reasonText e.reason
  amountOut := e.amountOut
  minOut := e.minOut

def CAP_OVERRIDE_REFUSAL : String :=
  "An override cannot raise the cap because the program will not accept one."

inductive OverrideOffer
  | offer (amount : Int)
  | refusal (why : String)

inductive OverrideGuard
  | ok
  | refused (why : String)

structure OverrideCommit where
  title : String
  amount : String
  nonce : String
  paragraphs : List String
  deriving DecidableEq

inductive OverrideAssessment
  | none (why : String)
  | already (amount nonce : Int) (why : String)
  | blocked (why : String)
  | ready (amount nonce : Int) (commit : OverrideCommit)
  deriving DecidableEq

def overrideOfferForReason (reason : UInt8) (suggestedOverride : Int) : OverrideOffer :=
  if reason = Constants.REASON_OVER_CAP then .refusal CAP_OVERRIDE_REFUSAL
  else if reason = Constants.REASON_OVER_PER_TX_MAX ∧ suggestedOverride ≤ 0 then
    .refusal CAP_OVERRIDE_REFUSAL
  else if reason = Constants.REASON_OVER_PER_TX_MAX ∧ 0 < suggestedOverride then
    .offer suggestedOverride
  else
    .refusal ("The program records no override for this reason (" ++ reasonText reason ++ ").")

def overrideGuard (mandate : MandateAccount) (nonce amount : Int) (nowSec : Option Int) :
    OverrideGuard :=
  if nonce = 0 then
    .refused "This row has no nonce. The program will not accept an override."
  else if amount = 0 then
    .refused "This row has no override amount. The program will not accept an override."
  else if mandate.status = Constants.STATUS_REVOKED then
    .refused "This rule is revoked on chain. An override cannot be granted."
  else if mandate.status = Constants.STATUS_EXHAUSTED then
    .refused ("This rule is exhausted on chain. " ++ CAP_OVERRIDE_REFUSAL)
  else if mandate.status ≠ Constants.STATUS_ACTIVE then
    .refused ("This rule is " ++ statusName mandate.status ++
      " on chain. An override cannot be granted.")
  else if nowSec.any (fun nowSec => !isActive mandate nowSec) then
    .refused "This rule is expired on chain. An override cannot be granted."
  else if nonce ≤ mandate.lastNonce then
    .refused "This nonce is already settled on chain. An override cannot be granted."
  else if mandateRemaining mandate < amount then
    .refused ("The remaining cap is now below this amount. " ++ CAP_OVERRIDE_REFUSAL)
  else .ok

def overrideCommitCopy (amount nonce perTxMax remaining cap : Int) (decimals : Nat) (mint : String)
    (pendingOtherNonce : Option Int) : OverrideCommit :=
  let amount := formatTokenAmount amount decimals mint
  let perTxMax := formatTokenAmount perTxMax decimals mint
  let remaining := formatTokenAmount remaining decimals mint
  let cap := formatTokenAmount cap decimals mint
  let replaced := (pendingOtherNonce.filter (· ≠ 0)).toList.map fun pending =>
    "This replaces the pending override for nonce " ++ toString pending ++ "."
  { title := "Grant this override"
    amount
    nonce := toString nonce
    paragraphs :=
      [ "You are about to grant an override of " ++ amount ++ " for nonce " ++ toString nonce ++ ".",
        "The per-payment maximum on this rule is " ++ perTxMax ++ ". It does not change. " ++
          "This override allows this one payment of " ++ amount ++
          ", used once, never above the remaining cap (" ++ remaining ++ " remaining of " ++ cap ++
          "). " ++ CAP_OVERRIDE_REFUSAL ] ++ replaced ++
      [ "This is written to the ledger as an override, a recorded decision. It is not a settings change.",
        "The owner signs once. The agent can then retry this nonce." ] }

def assessOverride (row : OverrideSource) (mandate : MandateAccount) (decimals : Nat)
    (nowSec : Option Int) : OverrideAssessment :=
  if row.kind ≠ Constants.KIND_REFUSED then
    .none "An override is granted from a refused decision, not from this row."
  else
    match overrideOfferForReason row.reason row.suggestedOverride with
    | .refusal why => .none why
    | .offer amount =>
        match overrideGuard mandate row.nonce amount nowSec with
        | .refused why => .blocked why
        | .ok =>
            if mandate.overrideNonce = row.nonce ∧ 0 < mandate.overrideAmount then
              .already mandate.overrideAmount row.nonce
                ("This nonce already has an override of " ++
                  formatTokenAmount mandate.overrideAmount decimals mandate.mint ++
                  " on chain. The agent can retry it.")
            else
              let pending :=
                if mandate.overrideNonce ≠ 0 ∧ mandate.overrideNonce ≠ row.nonce then
                  some mandate.overrideNonce
                else none
              .ready amount row.nonce
                (overrideCommitCopy amount row.nonce mandate.perTxMax (mandateRemaining mandate)
                  mandate.cap decimals mandate.mint pending)

end Veto.App

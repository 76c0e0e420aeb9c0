import Veto.App.Events
import Veto.Foundation.Borsh
import Veto.Foundation.Utf16
import Veto.Service.Decoding
import Veto.Trade.Wire

/-!
# The instructions the app writes

The byte writers of `instructions.ts`, the arguments as the program reads them, and what the
service reads of the same bytes.  A writer keeps the low bits of a number and replaces an unpaired
surrogate of a text, so what is read back is what was given only where nothing is lost.
-/

namespace Veto

open Foundation

/-! ## The writers -/

namespace App

/-- `setBigUint64(0, value, true)`. -/
def u64Bytes (value : Int) : Bytes := toLE 8 (UInt64.ofInt value).toNat

/-- `setBigInt64(0, value, true)`. -/
def i64Bytes (value : Int) : Bytes := toLE 8 (Int64.ofInt value).toUInt64.toNat

/-- The text that `Buffer.from(purpose, 'utf8')` writes. -/
def writtenText (purpose : JsString) : String := String.ofList (lossyUtf16 purpose)

/-- What `encodeOpenMandateData` is given. -/
structure OpenMandateValues where
  mandateId : Int
  agent : Pubkey
  merchant : Pubkey
  cap : Int
  perTxMax : Int
  expiresAt : Int
  purpose : JsString

def encodeOpenMandateData (args : OpenMandateValues) : Bytes :=
  let purpose := utf8Bytes (writtenText args.purpose)
  fill (8 + 8 + 32 + 32 + 8 + 8 + 8 + 4 + purpose.length)
    [ (0, OPEN_MANDATE_DISC), (8, u64Bytes args.mandateId), (16, args.agent.toBytes),
      (48, args.merchant.toBytes), (80, u64Bytes args.cap), (88, u64Bytes args.perTxMax),
      (96, i64Bytes args.expiresAt), (104, toLE 4 purpose.length), (108, purpose) ]

/-- What `encodeOpenTradeData` is given. -/
structure OpenTradeValues where
  ruleId : Int
  agent : Pubkey
  exchangeKind : UInt8
  cap : Int
  perTradeMax : Int
  dailyLimit : Int
  floorNum : Int
  floorDen : Int
  expiresAt : Int
  purpose : JsString

def encodeOpenTradeData (args : OpenTradeValues) : Bytes :=
  let purpose := utf8Bytes (writtenText args.purpose)
  fill (8 + 8 + 32 + 1 + 8 + 8 + 8 + 8 + 8 + 8 + 4 + purpose.length)
    [ (0, OPEN_TRADE_RULE_DISC), (8, u64Bytes args.ruleId), (16, args.agent.toBytes),
      (48, [args.exchangeKind]), (49, u64Bytes args.cap), (57, u64Bytes args.perTradeMax),
      (65, u64Bytes args.dailyLimit), (73, u64Bytes args.floorNum), (81, u64Bytes args.floorDen),
      (89, i64Bytes args.expiresAt), (97, toLE 4 purpose.length), (101, purpose) ]

def encodeGrantOverrideData (amount nonce : Int) : Bytes :=
  fill 24 [(0, GRANT_OVERRIDE_DISC), (8, u64Bytes amount), (16, u64Bytes nonce)]

/-! ### As the program lays them out -/

/-- The words and the text that are written. -/
def OpenMandateValues.words (v : OpenMandateValues) : OpenMandateArgs where
  mandateId := .ofInt v.mandateId
  agent := v.agent
  merchant := v.merchant
  cap := .ofInt v.cap
  perTxMax := .ofInt v.perTxMax
  expiresAt := .ofInt v.expiresAt
  purpose := writtenText v.purpose

def OpenTradeValues.words (v : OpenTradeValues) : OpenTradeRuleArgs where
  ruleId := .ofInt v.ruleId
  agent := v.agent
  exchangeKind := v.exchangeKind
  cap := .ofInt v.cap
  perTradeMax := .ofInt v.perTradeMax
  dailyLimit := .ofInt v.dailyLimit
  floorNum := .ofInt v.floorNum
  floorDen := .ofInt v.floorDen
  expiresAt := .ofInt v.expiresAt
  purpose := writtenText v.purpose

theorem encodeOpenMandateData_eq (v : OpenMandateValues) :
    encodeOpenMandateData v = OPEN_MANDATE_DISCRIMINATOR ++ v.words.bytes := by
  unfold encodeOpenMandateData
  rw [fill_eq]
  · simp only [List.flatMap_cons, List.flatMap_nil, List.append_nil]
    rfl
  · simp [Consecutive, u64Bytes, i64Bytes, OPEN_MANDATE_DISC]
  · simp [u64Bytes, i64Bytes, OPEN_MANDATE_DISC]
    omega

theorem encodeOpenTradeData_eq (v : OpenTradeValues) :
    encodeOpenTradeData v = OPEN_TRADE_RULE_DISCRIMINATOR ++ v.words.bytes := by
  unfold encodeOpenTradeData
  rw [fill_eq]
  · simp only [List.flatMap_cons, List.flatMap_nil, List.append_nil]
    rfl
  · simp [Consecutive, u64Bytes, i64Bytes, OPEN_TRADE_RULE_DISC]
  · simp [u64Bytes, i64Bytes, OPEN_TRADE_RULE_DISC]
    omega

theorem encodeGrantOverrideData_eq (amount nonce : Int) :
    encodeGrantOverrideData amount nonce = GRANT_OVERRIDE_DISCRIMINATOR ++
      (toLE 8 (UInt64.ofInt amount).toNat ++ toLE 8 (UInt64.ofInt nonce).toNat) := by
  unfold encodeGrantOverrideData
  rw [fill_eq]
  · simp only [List.flatMap_cons, List.flatMap_nil, List.append_nil]
    rfl
  · simp [Consecutive, u64Bytes, GRANT_OVERRIDE_DISC]
  · simp [u64Bytes, GRANT_OVERRIDE_DISC]

end App

/-! ## The readers of the program -/

namespace Borsh

open Foundation.Borsh

def pubkey : Cursor BorshError Pubkey := do return Pubkey.ofBytes (← bytes 32)

theorem reads_pubkey (k : Pubkey) : Reads pubkey k.toBytes k := by
  have hread : Reads pubkey k.toBytes (Pubkey.ofBytes k.toBytes) :=
    (reads_bytes k.length_toBytes).last
  rwa [Pubkey.ofBytes_toBytes] at hread

/-- `OpenMandateArgs`, field by field. -/
def openMandateArgs : Cursor BorshError OpenMandateArgs := do
  let mandateId ← u64
  let agent ← pubkey
  let merchant ← pubkey
  let cap ← u64
  let perTxMax ← u64
  let expiresAt ← i64
  let purpose ← string
  return { mandateId, agent, merchant, cap, perTxMax, expiresAt, purpose }

/-- `OpenTradeRuleArgs`, field by field. -/
def openTradeRuleArgs : Cursor BorshError OpenTradeRuleArgs := do
  let ruleId ← u64
  let agent ← pubkey
  let exchangeKind ← u8
  let cap ← u64
  let perTradeMax ← u64
  let dailyLimit ← u64
  let floorNum ← u64
  let floorDen ← u64
  let expiresAt ← i64
  let purpose ← string
  return { ruleId, agent, exchangeKind, cap, perTradeMax, dailyLimit, floorNum, floorDen, expiresAt,
           purpose }

/-- The amount and the nonce of `grant_override`. -/
def grantOverrideArgs : Cursor BorshError (UInt64 × UInt64) := do
  let amount ← u64
  let nonce ← u64
  return (amount, nonce)

theorem reads_openMandateArgs {args : OpenMandateArgs}
    (h : (utf8Bytes args.purpose).length < 2 ^ 32) : Reads openMandateArgs args.bytes args := by
  refine (reads_u64 args.mandateId).bind ?_
  refine (reads_pubkey args.agent).bind ?_
  refine (reads_pubkey args.merchant).bind ?_
  refine (reads_u64 args.cap).bind ?_
  refine (reads_u64 args.perTxMax).bind ?_
  refine (reads_i64 args.expiresAt).bind ?_
  exact (reads_string h).last

theorem reads_openTradeRuleArgs {args : OpenTradeRuleArgs}
    (h : (utf8Bytes args.purpose).length < 2 ^ 32) : Reads openTradeRuleArgs args.bytes args := by
  refine (reads_u64 args.ruleId).bind ?_
  refine (reads_pubkey args.agent).bind ?_
  refine (reads_u8 args.exchangeKind).bind ?_
  refine (reads_u64 args.cap).bind ?_
  refine (reads_u64 args.perTradeMax).bind ?_
  refine (reads_u64 args.dailyLimit).bind ?_
  refine (reads_u64 args.floorNum).bind ?_
  refine (reads_u64 args.floorDen).bind ?_
  refine (reads_i64 args.expiresAt).bind ?_
  exact (reads_string h).last

theorem reads_grantOverrideArgs (amount nonce : UInt64) :
    Reads grantOverrideArgs (toLE 8 amount.toNat ++ toLE 8 nonce.toNat) (amount, nonce) :=
  (reads_u64 amount).bind (reads_u64 nonce).last

end Borsh

end Veto

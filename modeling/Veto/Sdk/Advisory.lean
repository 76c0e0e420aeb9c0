import Veto.Sdk.Events
import Veto.Service.Decode

/-!
# Advisory declines

`advisory.ts`: an agent that declines on its own writes a memo, which is read back as a decision
of the mandate it names.
-/

namespace Veto.Sdk

open Foundation

/-- A value that `JSON.parse` returns, an object with each of its own keys once. -/
inductive Json
  | null
  | bool (value : Bool)
  | number (text : String)
  | string (value : String)
  | array (values : List Json)
  | object (fields : List (String × Json))

/-- What the readers take from their platform: `JSON.parse`, which fails on a text that is not
JSON, the constructor of a `PublicKey`, which fails on a text that is no key, and
`localeCompare`. -/
structure Platform where
  parseJson : String → Option Json
  publicKey : String → Option Pubkey
  localeCompare : String → String → Int

def MEMO_PROGRAM_ID : String := "Memo1UhkJRfHyvLMcVucJwxXeuD728EqVDDwQDxFMNo"

def ADVISORY_MEMO_PREFIX : String := "veto-advisory:v1"

def ADVISORY_DECLINED_TEXT : String := "Agent declined (advisory)"

structure AdvisoryBody where
  mandate : String
  amount : Nat
  nonce : Nat
  reason : String
  descriptionSha256 : String

structure AccountFlag where
  signer : Bool
  writable : Bool

/-- Which accounts of a message sign and which it may write. -/
def accountFlags (tx : TxView) : Option (List AccountFlag) := do
  let header ← tx.header
  let keys := tx.accountKeys
  let staticCount := tx.staticKeyCount
  let req := header.numRequiredSignatures
  let roSigned := header.numReadonlySignedAccounts
  let roUnsigned := header.numReadonlyUnsignedAccounts
  if req < 1 then none
  else if req < roSigned ∨ staticCount < req ∨ keys.length < staticCount then none
  else if staticCount - req < roUnsigned then none
  else
    let writableSigners := req - roSigned
    let writableUnsigned := staticCount - req - roUnsigned
    some <| (List.range keys.length).map fun i =>
      if i < staticCount then
        { signer := i < req
          writable := if i < req then i < writableSigners else i < req + writableUnsigned }
      else { signer := false, writable := i - staticCount < tx.loadedWritableCount }

def decodeUtf8 (data : Bytes) : Option String := (Service.decodeText data).toOption

/-- `/^(0|[1-9][0-9]{0,19})$/`, and no more than a `u64` holds. -/
def parseU64 (value : String) : Option Nat :=
  let digits := value.toList
  let canonical := digits = ['0'] ∨ digits.length ≤ 20 ∧ digits.all Char.isDigit = true ∧
    digits.head?.any (· ≠ '0') = true
  if ¬ canonical then none
  else
    let parsed := Nat.ofDigitChars 10 digits 0
    if 2 ^ 64 ≤ parsed then none else some parsed

/-- `/^[0-9a-f]{64}$/`. -/
def isSha256Hex (text : String) : Bool :=
  text.toList.length = 64 ∧ text.toList.all fun c => c.isDigit || ('a' ≤ c && c ≤ 'f')

def expectedKeys : List String := ["mandate", "amount", "nonce", "reason", "description_sha256"]

def stringField (fields : List (String × Json)) (name : String) : Option String := do
  match ← fields.lookup name with
  | .string value => some value
  | _ => none

section Reader

variable (platform : Platform)

def parseAdvisoryMemo (text : String) : Option AdvisoryBody := do
  let rest ← text.toList.dropPrefix? ADVISORY_MEMO_PREFIX.toList
  match ← platform.parseJson (String.ofList rest) with
  | .object fields =>
    let keys := fields.map Prod.fst
    if keys.length ≠ expectedKeys.length ∨ expectedKeys.any (fun key => key ∉ keys) then none
    let mandate ← stringField fields "mandate"
    let reason ← stringField fields "reason"
    let amountText ← stringField fields "amount"
    let nonceText ← stringField fields "nonce"
    let hash ← stringField fields "description_sha256"
    if ¬ isSha256Hex hash then none
    let amount ← parseU64 amountText
    let nonce ← parseU64 nonceText
    let key ← platform.publicKey mandate
    if key.display ≠ mandate then none
    return { mandate, amount, nonce, reason, descriptionSha256 := hash }
  | _ => none

/-- The memo instruction names the mandate as an account that neither signs nor is written. -/
def namesMandate (tx : TxView) (flags : List AccountFlag) (mandate : String)
    (ix : Indexer.CompiledIx) : Bool :=
  ix.accounts.any fun pubkey => pubkey = mandate ∧
    (flags[tx.accountKeys.idxOf pubkey]?).any fun flag => !flag.signer && !flag.writable

def advisoryDecision (tx : TxView) (flags : List AccountFlag) (mandate : String)
    (ix : Indexer.CompiledIx) : Option Decision := do
  if ix.programId ≠ MEMO_PROGRAM_ID then none
  if ¬ namesMandate tx flags mandate ix then none
  let text ← decodeUtf8 ix.data
  let parsed ← parseAdvisoryMemo platform text
  if parsed.mandate ≠ mandate then none
  return {
    signature := tx.signature
    slot := tx.slot
    timestamp := tx.blockTime
    mandate
    amount := parsed.amount
    nonce := parsed.nonce
    counterparty := ""
    kind := .advisoryDeclined
    reason := 0
    reasonText := ADVISORY_DECLINED_TEXT
    suggestedOverride := 0
    advisoryReason := some parsed.reason
    descriptionSha256 := some parsed.descriptionSha256 }

/-- The memos of a transaction that the mandate's agent signed. -/
def advisoryDecisionsFromTx (tx : TxView) (mandate agent : String) : List Decision :=
  if tx.err ∨ mandate = "" ∨ agent = "" then []
  else
    match accountFlags tx with
    | none => []
    | some flags =>
      let agentSigned := (flags.zip tx.accountKeys).any fun (flag, key) => flag.signer && key = agent
      if !agentSigned then []
      else tx.instructions.filterMap (advisoryDecision platform tx flags mandate)

end Reader

end Veto.Sdk

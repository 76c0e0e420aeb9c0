import Veto.Watcher.Node

/-!
# Submitting and recovering a charge

`chain.ts`: a charge is sent unless the chain already went past its nonce, and a payment is
looked up in the ring of the ledger first and in the signature history after that.
-/

namespace Veto.Watcher

open Foundation

structure ChargeReceipt extends ChargeOutcome where
  signature : String

structure RecoveredCharge extends ChargeReceipt where
  amount : UInt64

def RECOVERED_SIGNATURE : String := "recovered-from-chain"

def MANDATE_LAST_NONCE_OFFSET : Nat := 224

def PAID_UNRECOVERED_REASON : String :=
  "chain shows this window paid; signature could not be recovered"

/-! ## `isRateLimitError` -/

def isWordEnd (text : Text) : Bool := text.head?.all fun c => !Logs.isWordChar c

/-- `/\b429\b|too many requests|rate limit/i`, from a place on; `word` says whether the
character before it is one of a word. -/
def rateLimitFrom (word : Bool) : Text → Bool
  | [] => false
  | c :: text =>
      let here := (c :: text).map Char.toLower
      (!word && (lit "429").isPrefixOf here && isWordEnd (here.drop 3)) ||
        (lit "too many requests").isPrefixOf here || (lit "rate limit").isPrefixOf here ||
        rateLimitFrom (Logs.isWordChar c) text

def isRateLimitError : Thrown → Bool
  | .error message => rateLimitFrom false message.toList
  | .outOfRange => false

/-! ## Account reads -/

def decodeMandateLastNonce (data : Bytes) : Except Thrown UInt64 := do
  if data.length < MANDATE_LAST_NONCE_OFFSET + 8 then
    throw (.error "mandate account too small to read last_nonce")
  readBigUInt64LE (subarray data MANDATE_LAST_NONCE_OFFSET (MANDATE_LAST_NONCE_OFFSET + 8)) 0

structure RingPaid where
  amount : UInt64
  suggestedOverride : UInt64

structure RingRefused where
  amount : UInt64
  reason : UInt8
  suggestedOverride : UInt64

/-- The 72 bytes of the entry in a slot of the ring. -/
def ringEntry (body : Bytes) (idx : Nat) : Bytes :=
  subarray body (LEDGER_HEADER_SIZE + idx * ENTRY_SIZE)
    (LEDGER_HEADER_SIZE + idx * ENTRY_SIZE + ENTRY_SIZE)

/-- An entry, if it is of this kind and nonce. -/
def entryOf (kind : UInt8) (nonce : Nat) (raw : Bytes) : Except Thrown (Option Bytes) := do
  if raw.length < ENTRY_SIZE then return none
  let entryNonce ← readBigUInt64LE (subarray raw 48 56) 0
  if entryNonce.toNat ≠ nonce ∨ byteAt raw 64 ≠ kind then return none
  return some raw

/-- The entries of this kind and nonce that the ring still has, oldest first. -/
def entriesOf (kind : UInt8) (data : Bytes) (nonce : Nat) : Except Thrown (List Bytes) := do
  let minSize := 8 + LEDGER_HEADER_SIZE + ENTRY_SIZE
  if data.length < minSize then return []
  if subarray data 0 8 ≠ LEDGER_DISCRIMINATOR then return []
  let body := data.drop 8
  let total ← readUInt32LE (subarray body 32 36) 0
  let head ← readUInt16LE (subarray body 36 38) 0
  let found ← (Ring.walk LEDGER_CAPACITY total.toNat head.toNat).mapM fun idx =>
    entryOf kind nonce (ringEntry body idx)
  return found.filterMap id

/-- The first payment of the nonce in the ring. -/
def findPaidInLedgerBytes (data : Bytes) (nonce : Nat) : Except Thrown (Option RingPaid) := do
  match (← entriesOf KIND_PAID data nonce).head? with
  | none => return none
  | some raw =>
    return some {
      amount := ← readBigUInt64LE (subarray raw 8 16) 0
      suggestedOverride := ← readBigUInt64LE (subarray raw 56 64) 0 }

/-- The last refusal of the nonce in the ring. -/
def findRefusedInLedgerBytes (data : Bytes) (nonce : Nat) :
    Except Thrown (Option RingRefused) := do
  match (← entriesOf KIND_REFUSED data nonce).getLast? with
  | none => return none
  | some raw =>
    return some {
      amount := ← readBigUInt64LE (subarray raw 8 16) 0
      reason := byteAt raw 65
      suggestedOverride := ← readBigUInt64LE (subarray raw 56 64) 0 }

/-- `override === 0n ? null : override`. -/
def overrideOrNull (n : UInt64) : Option Nat := if n = 0 then none else some n.toNat

def RingPaid.recovered (hit : RingPaid) (signature : String) : RecoveredCharge where
  decision := .paid
  reason := "ok"
  reasonCode := 0
  suggestedOverride := overrideOrNull hit.suggestedOverride
  signature := signature
  amount := hit.amount

/-- A payment wins over a refusal of the same nonce. -/
def recordedFromLedgerBytes (data : Bytes) (nonce : Nat) :
    Except Thrown (Option RecoveredCharge) := do
  match ← findPaidInLedgerBytes data nonce with
  | some paid => return some (paid.recovered RECOVERED_SIGNATURE)
  | none =>
    match ← findRefusedInLedgerBytes data nonce with
    | none => return none
    | some refused =>
      return some {
        decision := .refused
        reason := reasonText refused.reason.toNat
        reasonCode := refused.reason.toNat
        suggestedOverride := overrideOrNull refused.suggestedOverride
        signature := RECOVERED_SIGNATURE
        amount := refused.amount }

/-! ## The history -/

/-- A transaction, if it reads as a payment of the nonce. -/
def paymentOf (programId : Pubkey) (nonce : Nat) (signature : String) (tx : RpcTx) :
    Option RecoveredCharge :=
  match chargeFromTx tx programId with
  | none => none
  | some (amount, charged) =>
    if charged.toNat ≠ nonce then none
    else match parseChargeLogs (tx.logMessages.getD []) with
      | .error _ => none
      | .ok outcome =>
        if outcome.decision ≠ .paid then none else some { outcome with signature, amount }

/-- One listed transaction; a read that fails ends the search. -/
def paidIn (programId : Pubkey) (nonce : Nat) (info : ListedSignature) :
    Except Thrown (Option RecoveredCharge) :=
  if info.err then .ok none
  else do
    match ← info.fetched with
    | none => return none
    | some tx => return paymentOf programId nonce info.signature tx

/-- The pages of the history, at most `pages` of them. -/
def findPaidFrom (programId : Pubkey) (history : SignaturePages) (nonce : Nat) :
    Nat → Option String → Except Thrown (Option RecoveredCharge)
  | 0, _ => return none
  | page + 1, before => do
    let sigs ← history before
    let found ← sigs.findSomeM? (paidIn programId nonce)
    match found with
    | some charge => return some charge
    | none =>
      if sigs.length < 200 then return none
      else findPaidFrom programId history nonce page (sigs.getLast?.map (·.signature))

def findPaidInHistory (programId : Pubkey) (history : SignaturePages) (nonce : Nat) :
    Except Thrown (Option RecoveredCharge) :=
  findPaidFrom programId history nonce 50 none

/-! ## The calls -/

section Calls

variable {rt : Runtime} (programId : Pubkey)

/-- `BN` arguments are encoded in eight bytes. -/
def encodeU64 (n : Nat) : Except Thrown UInt64 :=
  if n < 2 ^ 64 then .ok (UInt64.ofNat n) else .error (.error "byte array longer than desired length")

def readLastNonceFromAccount (asked : Question) : Rpc rt UInt64 :=
  .ask asked <| Moment.call fun m =>
    match m.mandateInfo with
    | none => .error (.error ("mandate " ++ m.chain.key.display ++ " not found"))
    | some data => decodeMandateLastNonce data

def readLastNonce : Rpc rt UInt64 := readLastNonceFromAccount .lastNonce

def readRecordedCharge (nonce : Nat) : Rpc rt (Option RecoveredCharge) :=
  .ask (.recorded nonce) <| Moment.call fun m =>
    match m.ledgerInfo with
    | none => .ok none
    | some data => recordedFromLedgerBytes data nonce

def recoverFromConnection (why : Lookup) (nonce : Nat) : Rpc rt (Option RecoveredCharge) := do
  let ringHit ← .ask (.ledger why nonce) <| Moment.call fun m =>
    match m.ledgerInfo with
    | none => .ok none
    | some data => findPaidInLedgerBytes data nonce
  match ringHit with
  | some hit =>
    let historyHit ← .handle
      (.ask (.signature nonce) <| Moment.call fun m => findPaidInHistory programId m.history nonce)
      fun e => if isRateLimitError e then return none else .fail e
    return some (hit.recovered ((historyHit.map (·.signature)).getD ""))
  | none =>
    .ask (.history why nonce) <| Moment.call fun m => findPaidInHistory programId m.history nonce

/-- `settled` is what the caller read as the last nonce. -/
def recoverSettledCharge (settled nonce : Nat) : Rpc rt (Option RecoveredCharge) :=
  recoverFromConnection programId (.closing settled) nonce

def submitCharge (amount nonce : Nat) : Rpc rt ChargeReceipt := do
  let lastNonce ← readLastNonceFromAccount (.submit nonce amount)
  if nonce ≤ lastNonce.toNat then
    match ← recoverFromConnection programId .resend nonce with
    | some recovered => return recovered.toChargeReceipt
    | none =>
      return {
        decision := .paid
        reason := PAID_UNRECOVERED_REASON
        reasonCode := 0
        suggestedOverride := none
        signature := "" }
  let amount ← .lift (encodeU64 amount)
  let nonce ← .lift (encodeU64 nonce)
  let signature ← .ask (.send nonce amount) <| Moment.call fun m => .ok m.signature
  let logs ← .ask (.sent nonce amount signature) <| Moment.call fun m =>
    .ok ((m.sent nonce amount).getD [])
  let outcome ← .lift (parseChargeLogs logs)
  return { outcome with signature }

end Calls

end Veto.Watcher

import Veto.Ledger.Layout

/-!
# The readers of the ledger accounts

The decoders of the indexer, the watcher, the tools and the SDK, each with the offsets
and the order of its own.  A buffer read past its end throws.
-/

namespace Veto

open Foundation

def ENTRY_SIZE : Nat := 72

/-- Bytes of the ledger body before the first entry, after the discriminator. -/
def LEDGER_HEADER_SIZE : Nat := 40

/-- `Buffer.from(buf.subarray(offset, offset + 8)).readBigUInt64LE(0)`. -/
def readU64Le (buf : Bytes) (offset : Nat) : Except Thrown UInt64 :=
  readBigUInt64LE (subarray buf offset (offset + 8)) 0

def readI64Le (buf : Bytes) (offset : Nat) : Except Thrown Int64 :=
  readBigInt64LE (subarray buf offset (offset + 8)) 0

def readU32Le (buf : Bytes) (offset : Nat) : Except Thrown UInt32 :=
  readUInt32LE (subarray buf offset (offset + 4)) 0

def readU16Le (buf : Bytes) (offset : Nat) : Except Thrown UInt16 :=
  readUInt16LE (subarray buf offset (offset + 2)) 0

/-- `buf[i] ?? 0`. -/
def byteAt (buf : Bytes) (i : Nat) : UInt8 := buf.getD i 0

/-- Throw `message` unless `c`. -/
def throwUnless (c : Prop) [Decidable c] (message : String) : Except Thrown Unit :=
  require c (.error message)

/-! ## The indexer -/

namespace Indexer

def LEDGER_ACCOUNT_SIZE : Nat := 8 + LEDGER_HEADER_SIZE + LEDGER_CAPACITY * ENTRY_SIZE

def kindName (kind : UInt8) : String :=
  match kind.toNat with
  | 0 => "opened"
  | 1 => "paid"
  | 2 => "refused"
  | 3 => "override"
  | 4 => "revoked"
  | n => "kind:" ++ toString n

def reasonText (reason : UInt8) : String :=
  match reason.toNat with
  | 0 => "ok"
  | 1 => "mandate not active"
  | 2 => "past expiry"
  | 3 => "nonce already settled"
  | 4 => "merchant not allowed"
  | 5 => "over per-payment maximum"
  | 6 => "over remaining cap"
  | 7 => "delegation withdrawn"
  | 8 => "insufficient funds"
  | 9 => "zero amount"
  | 10 => "account frozen"
  | 11 => "destination not allowed"
  | 12 => "pool account not allowed"
  | 13 => "over daily limit"
  | 14 => "below price floor"
  | _ => "unknown"

structure RingEntry where
  ts : Int64
  amount : UInt64
  counterparty : String
  nonce : UInt64
  suggestedOverride : UInt64
  kind : UInt8
  kindName : String
  reason : UInt8
  reasonText : String

structure LedgerSnapshot where
  address : String
  mandate : String
  total : UInt32
  head : UInt16
  bump : UInt8
  entries : List RingEntry

def decodeEntry (raw : Bytes) : Except Thrown RingEntry := do
  let kind := byteAt raw 64
  let reason := byteAt raw 65
  return {
    ts := ← readI64Le raw 0
    amount := ← readU64Le raw 8
    counterparty := (Pubkey.ofBytes (subarray raw 16 48)).display
    nonce := ← readU64Le raw 48
    suggestedOverride := ← readU64Le raw 56
    kind
    kindName := kindName kind
    reason
    reasonText := reasonText reason }

def decodeLedgerAccount (address : String) (data : Bytes) : Except Thrown LedgerSnapshot := do
  throwUnless (LEDGER_ACCOUNT_SIZE ≤ data.length)
    ("ledger " ++ address ++ " is " ++ toString data.length ++ " bytes, expected " ++
      toString LEDGER_ACCOUNT_SIZE)
  throwUnless (data.take 8 = LEDGER_DISCRIMINATOR)
    ("ledger " ++ address ++ " does not have the Ledger discriminator")
  let body := data.drop 8
  let mandate := (Pubkey.ofBytes (subarray body 0 32)).display
  let total ← readU32Le body 32
  let head ← readU16Le body 36
  let bump := byteAt body 38
  let entries ← (Ring.walk LEDGER_CAPACITY total.toNat head.toNat).mapM fun idx =>
    let off := LEDGER_HEADER_SIZE + idx * ENTRY_SIZE
    decodeEntry (subarray body off (off + ENTRY_SIZE))
  return { address, mandate, total, head, bump, entries }

end Indexer

/-! ## The watcher -/

namespace Watcher

def KIND_PAID : UInt8 := 1

def KIND_REFUSED : UInt8 := 2

inductive Decision
  | paid
  | refused
  deriving DecidableEq, Repr

/-- The milliseconds of `new Date(Number(seconds) * 1000)`, if the date is valid. -/
def dateOfSeconds (seconds : Int) : Option Int :=
  if seconds.natAbs ≤ 8640000000000 then some (seconds * 1000) else none

structure ChainDecision where
  nonce : UInt64
  decision : Decision
  amount : UInt64
  ts : Option Int
  reason : Nat
  suggestedOverride : Nat
  /-- Set when the history walk read this decision from its transaction. -/
  signature : Option String
  deriving DecidableEq

/-- The message of a `LedgerDecodeError`. -/
def ledgerDecodeError (account reason : String) : String :=
  let tail := if reason.length = 0 then "" else ": " ++ reason
  "journal repair: account " ++ account ++ " is not a Ledger" ++ tail

/-- What one slot adds to the list, if anything. -/
def decodeDecision (raw : Bytes) : Except Thrown (Option ChainDecision) := do
  if raw.length < ENTRY_SIZE then return none
  let kind := byteAt raw 64
  if kind ≠ KIND_PAID ∧ kind ≠ KIND_REFUSED then return none
  let tsUnix ← readI64Le raw 0
  let reason := byteAt raw 65
  return some {
    nonce := ← readU64Le raw 48
    decision := if kind = KIND_PAID then .paid else .refused
    amount := ← readU64Le raw 8
    ts := dateOfSeconds tsUnix.toInt
    reason := reason.toNat
    suggestedOverride := (← readU64Le raw 56).toNat
    signature := none }

def decodeLedgerDecisions (data : Bytes) (account : String) :
    Except Thrown (List ChainDecision) := do
  throwUnless (8 + LEDGER_HEADER_SIZE ≤ data.length)
    (ledgerDecodeError account "ledger account is too small")
  throwUnless (data.take 8 = LEDGER_DISCRIMINATOR) (ledgerDecodeError account "")
  let body := data.drop 8
  let total ← readU32Le body 32
  let head ← readU16Le body 36
  let slots ← (Ring.walk LEDGER_CAPACITY total.toNat head.toNat).mapM fun idx =>
    let off := LEDGER_HEADER_SIZE + idx * ENTRY_SIZE
    decodeDecision (subarray body off (off + ENTRY_SIZE))
  return slots.filterMap id

end Watcher

/-! ## The tools and the SDK -/

/-- `requireDisc`, the same in each package. -/
def requireDisc (data expected : Bytes) (what : String) : Except Thrown Unit :=
  throwUnless (expected.length ≤ data.length ∧ subarray data 0 expected.length = expected)
    (what ++ " account discriminator mismatch")

/-- `need`, the same in each package. -/
def need (data : Bytes) (offset length : Nat) (what : String) : Except Thrown Unit :=
  throwUnless (offset + length ≤ data.length) (what ++ " overruns account data")

structure LedgerEntry where
  ts : Int64
  amount : UInt64
  counterparty : Pubkey
  nonce : UInt64
  suggestedOverride : UInt64
  kind : UInt8
  reason : UInt8
  deriving DecidableEq

structure LedgerAccount where
  mandate : Pubkey
  total : UInt32
  head : UInt16
  bump : UInt8
  entries : List LedgerEntry

namespace Tools

def decodeEntry (data : Bytes) (offset : Nat) : Except Thrown LedgerEntry := do
  let ts ← readBigInt64LE data offset
  let amount ← readBigUInt64LE data (offset + 8)
  let counterparty := Pubkey.ofBytes (subarray data (offset + 16) (offset + 48))
  let nonce ← readBigUInt64LE data (offset + 48)
  let suggestedOverride ← readBigUInt64LE data (offset + 56)
  let kind ← readUInt8 data (offset + 64)
  let reason ← readUInt8 data (offset + 65)
  return { ts, amount, counterparty, nonce, suggestedOverride, kind, reason }

end Tools

namespace Sdk

def decodeEntry (data : Bytes) (offset : Nat) : Except Thrown LedgerEntry := do
  need data offset ENTRY_SIZE "ledger entry"
  return {
    ts := ← readBigInt64LE data offset
    amount := ← readBigUInt64LE data (offset + 8)
    counterparty := Pubkey.ofBytes (subarray data (offset + 16) (offset + 48))
    nonce := ← readBigUInt64LE data (offset + 48)
    suggestedOverride := ← readBigUInt64LE data (offset + 56)
    kind := ← readUInt8 data (offset + 64)
    reason := ← readUInt8 data (offset + 65) }

structure TradeLedgerEntry where
  ts : Int64
  amountIn : UInt64
  amountOut : UInt64
  minOut : UInt64
  counterparty : Pubkey
  nonce : UInt64
  suggestedOverride : UInt64
  kind : UInt8
  reason : UInt8

def LEDGER_LEN : Nat := 2096

def HOLD_ENTRY_SIZE : Nat := 64

def ENTRY_BASE : Nat := 48

structure HoldLedgerEntry where
  ts : Int64
  amount : UInt64
  destination : Pubkey
  withdrawalId : UInt64
  kind : UInt8
  reason : UInt8

end Sdk

end Veto

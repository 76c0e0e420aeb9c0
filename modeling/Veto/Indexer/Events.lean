import Veto.Logs.Lines
import Veto.Mandate.Wire
import Veto.Ledger.Agreement

/-!
# The events in a log

`events.ts` of the indexer: the `Program data:` lines that the program wrote itself, decoded
as the events of a charge or a trade.
-/

namespace Veto

open Foundation

def TRADED_EVENT_DISC : Bytes := [225, 202, 73, 175, 147, 43, 160, 150]

def TRADE_REFUSED_EVENT_DISC : Bytes := [97, 219, 5, 169, 115, 219, 109, 235]

namespace Indexer

/-! ## The buffers of a log -/

/-- The class `[A-Za-z0-9+/=]`. -/
def isBase64 (c : Char) : Bool := c.isAlphanum || c = '+' || c = '/' || c = '='

/-- `/^Program data: ([A-Za-z0-9+/=]+)$/`, with its group. -/
def programData (line : Text) : Option Text := do
  let line ← line.dropPrefix? (lit "Program data: ")
  let (text, line) ← takeClass isBase64 line
  if line = [] then some text else none

/-- The six bits of a character. -/
def sextet (c : Char) : Nat :=
  if c.isUpper then c.toNat - 65
  else if c.isLower then c.toNat - 71
  else if c.isDigit then c.toNat + 4
  else if c = '+' then 62
  else 63

/-- Three bytes of every four characters, and what the last two or three still give. -/
def joinSextets : List Nat → Bytes
  | a :: b :: c :: d :: rest =>
      UInt8.ofNat (a * 4 + b / 16) :: UInt8.ofNat (b * 16 + c / 4) :: UInt8.ofNat (c * 64 + d) ::
        joinSextets rest
  | [a, b, c] => [UInt8.ofNat (a * 4 + b / 16), UInt8.ofNat (b * 16 + c / 4)]
  | [a, b] => [UInt8.ofNat (a * 4 + b / 16)]
  | _ => []

/-- `Buffer.from(text, "base64")`, which ends at the first `=`. -/
def fromBase64 (text : Text) : Bytes := joinSextets ((text.takeWhile (· ≠ '=')).map sextet)

/-- The buffers that a program wrote into a log. -/
def dataBuffers (logs : List Text) (programId : Text) : List Bytes :=
  (Logs.Indexer.linesForProgram logs programId).filterMap fun line =>
    (programData line).map fromBase64

/-! ## Events -/

inductive DecisionKind
  | paid
  | refused
  | traded
  deriving DecidableEq, Repr

structure DecodedEvent where
  rule : Option Pubkey
  amountIn : Option UInt64
  amountOut : Option UInt64
  minOut : Option UInt64
  kind : DecisionKind
  kindCode : UInt8
  mandate : Pubkey
  amount : UInt64
  nonce : UInt64
  reason : UInt8
  suggestedOverride : UInt64
  deriving DecidableEq

/-- `readU64Le` of a buffer that reaches that far. -/
def u64At (raw : Bytes) (offset : Nat) : UInt64 :=
  UInt64.ofNat (ofLE (subarray raw offset (offset + 8)))

def decodeEventBytes (raw : Bytes) : Option DecodedEvent :=
  if raw.length < 8 then none
  else
    let disc := subarray raw 0 8
    let key := Pubkey.ofBytes (subarray raw 8 40)
    if disc = TRADED_EVENT_DISC then
      if raw.length ≠ 72 then none
      else some {
        rule := some key, mandate := key, kind := .traded, kindCode := 1
        amount := u64At raw 40, amountIn := some (u64At raw 40), amountOut := some (u64At raw 48)
        minOut := none, nonce := u64At raw 56, reason := 0, suggestedOverride := 0 }
    else if disc = TRADE_REFUSED_EVENT_DISC then
      if raw.length ≠ 73 then none
      else some {
        rule := some key, mandate := key, kind := .refused, kindCode := 2
        amount := u64At raw 40, amountIn := some (u64At raw 40), amountOut := some 0
        minOut := some (u64At raw 48), nonce := u64At raw 56, reason := byteAt raw 64
        suggestedOverride := u64At raw 65 }
    else if disc = PAID_EVENT_DISC then
      if raw.length < 64 then none
      else some {
        rule := none, amountIn := none, amountOut := none, minOut := none
        kind := .paid, kindCode := 1, mandate := key
        amount := u64At raw 40, nonce := u64At raw 48, reason := 0, suggestedOverride := 0 }
    else if disc = REFUSED_EVENT_DISC then
      if raw.length < 65 then none
      else some {
        rule := none, amountIn := none, amountOut := none, minOut := none
        kind := .refused, kindCode := 2, mandate := key
        amount := u64At raw 40, nonce := u64At raw 48, reason := byteAt raw 56
        suggestedOverride := u64At raw 57 }
    else none

def decodeEventsFromLogs (logs : List Text) (programId : Text) : List DecodedEvent :=
  (dataBuffers logs programId).filterMap decodeEventBytes

/-! ## The events of a mandate -/

/-- What is read of an event of a mandate. -/
def DecodedEvent.of : MandateEvent → DecodedEvent
  | .paid mandate amount nonce _ => {
      rule := none, amountIn := none, amountOut := none, minOut := none
      kind := .paid, kindCode := 1, mandate, amount, nonce, reason := 0, suggestedOverride := 0 }
  | .refused mandate amount nonce reason suggestedOverride => {
      rule := none, amountIn := none, amountOut := none, minOut := none
      kind := .refused, kindCode := 2, mandate, amount, nonce, reason := reason.code
      suggestedOverride }

theorem u64At_eq {raw : Bytes} {offset : Nat} {v : UInt64}
    (h : subarray raw offset (offset + 8) = toLE 8 v.toNat) : u64At raw offset = v := by
  rw [u64At, h, ofLE_toLE v.toNat_lt, UInt64.ofNat_toNat]

/-- An event is read back from its bytes. -/
theorem decodeEventBytes_bytes (event : MandateEvent) :
    decodeEventBytes event.bytes = some (.of event) := by
  cases event with
  | paid mandate amount nonce spent =>
      have hlength : (MandateEvent.paid mandate amount nonce spent).bytes.length = 64 := by
        simp [MandateEvent.bytes, PAID_EVENT_DISC]
      have hdisc : subarray (MandateEvent.paid mandate amount nonce spent).bytes 0 8 =
          PAID_EVENT_DISC := subarray_append_left rfl
      have hkey : subarray (MandateEvent.paid mandate amount nonce spent).bytes 8 40 =
          mandate.toBytes := by
        simp [MandateEvent.bytes, PAID_EVENT_DISC]
      have hamount : u64At (MandateEvent.paid mandate amount nonce spent).bytes 40 = amount :=
        u64At_eq (by simp [MandateEvent.bytes, PAID_EVENT_DISC])
      have hnonce : u64At (MandateEvent.paid mandate amount nonce spent).bytes 48 = nonce :=
        u64At_eq (by simp [MandateEvent.bytes, PAID_EVENT_DISC])
      rw [decodeEventBytes, hlength, hdisc, hkey, hamount, hnonce, Pubkey.ofBytes_toBytes]
      rfl
  | refused mandate amount nonce reason suggestion =>
      let raw := (MandateEvent.refused mandate amount nonce reason suggestion).bytes
      have hlength : raw.length = 65 := by simp [raw, MandateEvent.bytes, REFUSED_EVENT_DISC]
      have hdisc : subarray raw 0 8 = REFUSED_EVENT_DISC := subarray_append_left rfl
      have hkey : subarray raw 8 40 = mandate.toBytes := by
        simp [raw, MandateEvent.bytes, REFUSED_EVENT_DISC]
      have hamount : u64At raw 40 = amount :=
        u64At_eq (by simp [raw, MandateEvent.bytes, REFUSED_EVENT_DISC])
      have hnonce : u64At raw 48 = nonce :=
        u64At_eq (by simp [raw, MandateEvent.bytes, REFUSED_EVENT_DISC])
      have hreason : byteAt raw 56 = reason.code :=
        byteAt_eq (by simp [raw, MandateEvent.bytes, REFUSED_EVENT_DISC])
      have hsuggestion : u64At raw 57 = suggestion :=
        u64At_eq (by simp [raw, MandateEvent.bytes, REFUSED_EVENT_DISC, subarray_whole])
      show decodeEventBytes raw = _
      rw [decodeEventBytes, hlength, hdisc, hkey, hamount, hnonce, hreason, hsuggestion,
        Pubkey.ofBytes_toBytes]
      rfl

end Indexer

end Veto

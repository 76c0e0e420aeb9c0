import Veto.App.Ring
import Veto.Node.Transaction

/-!
# The events in the app

`events.ts` of the app.  A `Program data:` line counts whichever program wrote it, and no
account of an event is compared.
-/

namespace Veto.App

open Foundation
open Indexer (programData fromBase64 u64At)

def OPEN_MANDATE_DISC : Bytes := [116, 145, 190, 28, 86, 223, 105, 74]

def REVOKE_MANDATE_DISC : Bytes := [252, 97, 140, 119, 67, 43, 177, 108]

def GRANT_OVERRIDE_DISC : Bytes := [225, 146, 123, 110, 56, 16, 99, 141]

def OPEN_TRADE_RULE_DISC : Bytes := [109, 183, 63, 166, 60, 202, 82, 15]

def GRANT_TRADE_OVERRIDE_DISC : Bytes := [133, 223, 203, 45, 174, 92, 157, 151]

def REVOKE_TRADE_RULE_DISC : Bytes := [112, 252, 178, 223, 55, 115, 217, 201]

def CLOSE_TRADE_RULE_DISC : Bytes := [93, 102, 200, 106, 195, 121, 250, 120]

def decodeEventBytes (signature : String) (raw : Bytes) : Option DecodedTxDecision :=
  if raw.length < 8 then none
  else
    let disc := subarray raw 0 8
    if disc = PAID_EVENT_DISC then
      if raw.length < 64 then none
      else some {
        signature, kind := Constants.KIND_PAID, amount := u64At raw 40, nonce := u64At raw 48,
        reason := 0
        blockTime := none, slot := none, suggestedOverride := none }
    else if disc = REFUSED_EVENT_DISC then
      if raw.length < 65 then none
      else some {
        signature, kind := Constants.KIND_REFUSED, amount := u64At raw 40, nonce := u64At raw 48
        reason := byteAt raw 56, blockTime := none, slot := none
        suggestedOverride := some (u64At raw 57) }
    else if disc = TRADED_EVENT_DISC then
      if raw.length < 72 then none
      else some {
        signature, kind := Constants.KIND_PAID, amount := u64At raw 40, nonce := u64At raw 56,
        reason := 0
        blockTime := none, slot := none, suggestedOverride := none }
    else if disc = TRADE_REFUSED_EVENT_DISC then
      if raw.length < 73 then none
      else some {
        signature, kind := Constants.KIND_REFUSED, amount := u64At raw 40, nonce := u64At raw 56
        reason := byteAt raw 64, blockTime := none, slot := none
        suggestedOverride := some (u64At raw 65) }
    else none

def decodeEventsFromLogs (signature : String) (logs : List Text) : List DecodedTxDecision :=
  logs.filterMap fun line =>
    ((programData line).map fromBase64).bind (decodeEventBytes signature)

/-- A decision that an instruction names by its kind alone. -/
def bareDecision (signature : String) (kind : UInt8) : DecodedTxDecision where
  signature := signature
  kind := kind
  amount := 0
  nonce := 0
  reason := 0
  blockTime := none
  slot := none
  suggestedOverride := none

def overrideDecision (signature : String) (data : Bytes) : DecodedTxDecision :=
  if data.length < 24 then bareDecision signature Constants.KIND_OVERRIDE
  else
    { bareDecision signature Constants.KIND_OVERRIDE with
      amount := u64At data 8, nonce := u64At data 16 }

def decodeInstructionKind (signature : String) (data : Bytes) : Option DecodedTxDecision :=
  if data.length < 8 then none
  else
    let disc := subarray data 0 8
    if disc = OPEN_MANDATE_DISC then some (bareDecision signature Constants.KIND_OPENED)
    else if disc = REVOKE_MANDATE_DISC then some (bareDecision signature Constants.KIND_REVOKED)
    else if disc = GRANT_OVERRIDE_DISC then some (overrideDecision signature data)
    else if disc = CHARGE_DISCRIMINATOR ∨ disc = CLOSE_TRADE_RULE_DISC then none
    else if disc = OPEN_TRADE_RULE_DISC then some (bareDecision signature Constants.KIND_OPENED)
    else if disc = REVOKE_TRADE_RULE_DISC then some (bareDecision signature Constants.KIND_REVOKED)
    else if disc = GRANT_TRADE_OVERRIDE_DISC then some (overrideDecision signature data)
    else none

/-! ## What they give -/

/-- What is read of an event of a mandate, whichever mandate it is. -/
def DecodedTxDecision.of (signature : String) : MandateEvent → DecodedTxDecision
  | .paid _ amount nonce _ => {
      signature, kind := Constants.KIND_PAID, amount, nonce, reason := 0
      blockTime := none, slot := none, suggestedOverride := none }
  | .refused _ amount nonce reason suggestedOverride => {
      signature, kind := Constants.KIND_REFUSED, amount, nonce, reason := reason.code
      blockTime := none, slot := none, suggestedOverride := some suggestedOverride }

/-- The decision of an event of a charge that the indexer reads. -/
def DecodedTxDecision.ofEvent (signature : String) (event : Indexer.DecodedEvent) :
    DecodedTxDecision where
  signature := signature
  kind := event.kindCode
  amount := event.amount
  nonce := event.nonce
  reason := event.reason
  blockTime := none
  slot := none
  suggestedOverride := if event.kind = .refused then some event.suggestedOverride else none

/-- The app reads an event of a charge as the indexer does. -/
theorem decodeEventBytes_of_indexer {raw : Bytes} {event : Indexer.DecodedEvent}
    (h : Indexer.decodeEventBytes raw = some event) (signature : String) :
    decodeEventBytes signature raw = some (.ofEvent signature event) := by
  unfold Indexer.decodeEventBytes at h
  unfold decodeEventBytes
  by_cases hshort : raw.length < 8
  · rw [if_pos hshort] at h
    cases h
  · rw [if_neg hshort] at h ⊢
    dsimp only at h ⊢
    by_cases htraded : subarray raw 0 8 = TRADED_EVENT_DISC
    · rw [if_pos htraded] at h
      rw [htraded, if_neg (by decide), if_neg (by decide), if_pos rfl]
      split at h
      · cases h
      · cases h
        rw [if_neg (by omega)]
        rfl
    · rw [if_neg htraded] at h
      by_cases hrefused : subarray raw 0 8 = TRADE_REFUSED_EVENT_DISC
      · rw [if_pos hrefused] at h
        rw [hrefused, if_neg (by decide), if_neg (by decide), if_neg (by decide), if_pos rfl]
        split at h
        · cases h
        · cases h
          rw [if_neg (by omega)]
          rfl
      · rw [if_neg hrefused] at h
        split at h
        · rename_i hpaid
          rw [if_pos hpaid]
          split at h
          · cases h
          · rename_i hlong
            cases h
            rw [if_neg hlong]
            rfl
        · rename_i hpaid
          rw [if_neg hpaid]
          split at h
          · rename_i hcharge
            rw [if_pos hcharge]
            split at h
            · cases h
            · rename_i hlong
              cases h
              rw [if_neg hlong]
              rfl
          · cases h

theorem decodeEventBytes_signature {signature : String} {raw : Bytes} {d : DecodedTxDecision}
    (h : decodeEventBytes signature raw = some d) : d.signature = signature := by
  unfold decodeEventBytes at h
  grind

theorem decodeInstructionKind_signature {signature : String} {data : Bytes}
    {d : DecodedTxDecision} (h : decodeInstructionKind signature data = some d) :
    d.signature = signature := by
  unfold decodeInstructionKind overrideDecision at h
  grind [bareDecision]

end Veto.App

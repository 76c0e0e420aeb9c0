import Veto.Node.Transaction
import Veto.Watcher.Parse
import Veto.Foundation.FirstHits

/-!
# The chain decisions of a mandate

How the watcher rebuilds the decisions of a mandate: the ring of its ledger, and a walk
over the signatures that touched its address.
-/

namespace Veto.Watcher

open Foundation

/-- The amount and nonce of an instruction, if it is a charge of the program. -/
def chargeOf (keys : List Pubkey) (programId : Pubkey) (ix : CompiledIx) :
    Option (UInt64 × UInt64) :=
  if keys[ix.programIdIndex]? ≠ some programId then none
  else if ix.data.length < 24 then none
  else if subarray ix.data 0 8 ≠ CHARGE_DISCRIMINATOR then none
  else match readBigUInt64LE ix.data 8, readBigUInt64LE ix.data 16 with
    | .ok amount, .ok nonce => some (amount, nonce)
    | _, _ => none

/-- The amount and nonce of the first top-level charge of the program. -/
def chargeFromTx (tx : RpcTx) (programId : Pubkey) : Option (UInt64 × UInt64) :=
  tx.compiledInstructions.findSome? (chargeOf tx.keys programId)

/-- The decision of one transaction of the walk, before it is looked up among those found. -/
def readDecision (programId : Pubkey) (info : ListedSignature) : Option ChainDecision :=
  if info.err then none
  else match info.fetched with
    | .ok (some tx) =>
      match chargeFromTx tx programId with
      | none => none
      | some (amount, nonce) =>
        match parseChargeLogs (tx.logMessages.getD []) with
        | .error _ => none
        | .ok outcome =>
          let blockTime := tx.blockTime.or info.blockTime
          some {
            nonce
            decision := outcome.decision
            amount
            ts := dateOfSeconds (blockTime.getD nonce.toNat)
            reason := outcome.reasonCode
            suggestedOverride := outcome.suggestedOverride.getD 0
            signature := some info.signature }
    | _ => none

/-- The maps of a walk: the decisions found, by their nonces, and the nonces still sought
when there is such a list. -/
abbrev Walk := Hits ChainDecision UInt64

namespace Walk

def visit (programId : Pubkey) : Walk → ListedSignature → Walk :=
  Hits.visit (readDecision programId) ChainDecision.nonce

/-- The pages of the history, at most `pages` of them. -/
def pages (programId : Pubkey) (history : SignaturePages) : Nat → Option String → Walk → Walk
  | 0, _, w => w
  | page + 1, before, w =>
    if w.done then w
    else match history before with
      | .error _ => w
      | .ok sigs =>
        let w := sigs.foldl (visit programId) w
        if w.done then w
        else if sigs.length < 200 then w
        else match sigs.getLast? with
          | none => w
          | some last => pages programId history page (some last.signature) w

end Walk

/-- Newest first, so the first hit for a nonce is the row that is kept. -/
def decisionsFromMandateHistory (programId : Pubkey) (history : SignaturePages)
    (missing : Option (List UInt64)) : List ChainDecision :=
  (Walk.pages programId history 50 none { found := [], outstanding := missing }).found

/-- `Map.set` with the nonce as the key. -/
def setNonce (rows : List ChainDecision) (row : ChainDecision) : List ChainDecision :=
  if rows.any (·.nonce = row.nonce) then
    rows.map fun r => if r.nonce = row.nonce then row else r
  else rows ++ [row]

def mergeChainDecisions (ring walked : List ChainDecision) : List ChainDecision :=
  let byNonce := walked.foldl setNonce (ring.foldl setNonce [])
  byNonce.mergeSort fun a b => a.nonce ≤ b.nonce

/-- The nonces a repair of a journal that holds part of the ring looks for. -/
def missingNonces (held : Option (UInt64 → Bool)) (ring : List ChainDecision) :
    Option (List UInt64) :=
  match held with
  | none => none
  | some held =>
    if ring.all fun row => !held row.nonce then none
    else some ((ring.filter fun row => !held row.nonce).map (·.nonce)).dedup

/-- The journal holds the whole ring. -/
def ringHeld (held : Option (UInt64 → Bool)) (ring : List ChainDecision) : Bool :=
  match held with
  | none => false
  | some held => ring.all fun row => held row.nonce

def readRing (account : String) (ledgerInfo : Except Thrown (Option Bytes)) :
    Except Thrown (List ChainDecision) := do
  match ← ledgerInfo with
  | none => return []
  | some data => decodeLedgerDecisions data account

/-- `history` is absent on a connection that cannot list signatures. -/
def fetchChainDecisions (programId : Pubkey) (account : String)
    (ledgerInfo : Except Thrown (Option Bytes)) (history : Option SignaturePages)
    (held : Option (UInt64 → Bool)) : Except Thrown (List ChainDecision) := do
  let ring ← readRing account ledgerInfo
  match history with
  | none => return mergeChainDecisions ring []
  | some history =>
    if ringHeld held ring then return mergeChainDecisions ring []
    return mergeChainDecisions ring
      (decisionsFromMandateHistory programId history (missingNonces held ring))

end Veto.Watcher

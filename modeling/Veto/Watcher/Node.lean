import Veto.Foundation.Client
import Veto.Mandate.Layout
import Veto.Watcher.Repair
import Veto.Watcher.ReadBack

/-!
# What the watcher's node answers

The watcher asks a node one question at a time, and other clients' transactions land
between any two of them.  A moment is the chain as it stands then, with what the node makes
of it: an answer, or a failure.
-/

namespace Veto.Watcher

open Foundation

/-- The chain at a moment, and what a node answers then. -/
structure Moment (rt : Runtime) where
  chain : MandateChain rt
  /-- The mandate that a read of its accounts finds, if there is one. -/
  live : Option (Tenure rt)
  live_mem : ∀ t, live = some t → t ∈ chain.tenures
  /-- What a call fails with. -/
  failure : Option Thrown
  /-- The signatures that touched the address, with their transactions. -/
  history : SignaturePages
  /-- The signature of a transaction that is sent and confirmed. -/
  signature : String
  /-- The log of the transaction that was sent to charge so, if the node has it. -/
  sent : UInt64 → UInt64 → Option (List Text)
  sent_logged : ∀ nonce amount logs, sent nonce amount = some logs →
    chain.Logged nonce amount logs

/-- A call, which fails or is answered. -/
def Moment.call {rt : Runtime} {α : Type} (answer : Moment rt → Except Thrown α) (m : Moment rt) :
    Except Thrown α :=
  match m.failure with
  | some e => .error e
  | none => answer m

/-- The bytes of the mandate account. -/
def Moment.mandateInfo {rt : Runtime} (m : Moment rt) : Option Bytes :=
  m.live.map fun t => t.state.mandate.data

/-- The bytes of the ledger account. -/
def Moment.ledgerInfo {rt : Runtime} (m : Moment rt) : Option Bytes :=
  m.live.map fun t => Raw.ledgerData t.state.ledger.raw

/-- A world that moves on from moment to moment and forgets nothing. -/
structure Surroundings (rt : Runtime) where
  moment : Nat → Moment rt
  grows : ∀ k, (moment k).chain.Extends (moment (k + 1)).chain

theorem Surroundings.extends {rt : Runtime} (env : Surroundings rt) {k n : Nat} (h : k ≤ n) :
    (env.moment k).chain.Extends (env.moment n).chain := by
  induction h with
  | refl => exact .refl _
  | step _ ih => exact ih.trans (env.grows _)

/-! ## Questions -/

/-- What a look at the payment of a nonce is for. -/
inductive Lookup
  /-- To close a window after `settled` was read as the last nonce. -/
  | closing (settled : Nat)
  /-- In place of a send. -/
  | resend
  deriving DecidableEq

/-- The calls of the watcher, each with what it is asked for. -/
inductive Question
  /-- The last nonce, before a window is decided. -/
  | lastNonce
  /-- The ledger, for a record of the nonce. -/
  | recorded (nonce : Nat)
  /-- The last nonce, before a charge is sent. -/
  | submit (nonce amount : Nat)
  /-- Send the charge and wait until it is confirmed. -/
  | send (nonce amount : UInt64)
  /-- The transaction of a confirmed charge. -/
  | sent (nonce amount : UInt64) (signature : String)
  /-- The ledger, for a payment of the nonce. -/
  | ledger (why : Lookup) (nonce : Nat)
  /-- The history, for the signature of a payment that is in the ring. -/
  | signature (nonce : Nat)
  /-- The history, for a payment that is not in the ring. -/
  | history (why : Lookup) (nonce : Nat)
  deriving DecidableEq

/-- A program of the watcher. -/
abbrev Rpc (rt : Runtime) := Client (Moment rt) Question Thrown

end Veto.Watcher

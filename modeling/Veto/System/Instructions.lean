import Veto.Hold.Wire
import Veto.Mandate.Wire
import Veto.Node.Transaction
import Veto.Trade.Wire

/-!
# The instructions of the program

An instruction as it stands in a transaction: its accounts in the order of the IDL, its
discriminator and its serialized arguments.  The program deserializes what it needs from the
front of the data, so bytes behind the arguments change nothing, and neither do accounts
behind those it names.
-/

namespace Veto

open Foundation

def GRANT_OVERRIDE_DISCRIMINATOR : Bytes := [225, 146, 123, 110, 56, 16, 99, 141]

def REVOKE_MANDATE_DISCRIMINATOR : Bytes := [252, 97, 140, 119, 67, 43, 177, 108]

def systemProgramId : Pubkey := 0

/-- The instructions that open, change or end rules of trade and vaults. -/
inductive OtherIx
  | openTradeRule
  | grantTradeOverride
  | revokeTradeRule
  | closeTradeRule
  | initVault
  | deposit
  | withdraw
  | execute
  | stop
  | freeze
  | unfreeze
  | skip
  | recover
  | proposeChange
  | applyChange
  | cancelChange
  deriving DecidableEq, Repr

def OtherIx.discriminator : OtherIx → Bytes
  | .openTradeRule => [109, 183, 63, 166, 60, 202, 82, 15]
  | .grantTradeOverride => [133, 223, 203, 45, 174, 92, 157, 151]
  | .revokeTradeRule => [112, 252, 178, 223, 55, 115, 217, 201]
  | .closeTradeRule => [93, 102, 200, 106, 195, 121, 250, 120]
  | .initVault => [77, 79, 85, 150, 33, 217, 52, 106]
  | .deposit => [242, 35, 198, 137, 82, 225, 242, 182]
  | .withdraw => [183, 18, 70, 156, 148, 109, 161, 34]
  | .execute => [130, 221, 242, 154, 13, 193, 189, 29]
  | .stop => [42, 133, 32, 60, 171, 253, 184, 155]
  | .freeze => [255, 91, 207, 84, 251, 194, 254, 63]
  | .unfreeze => [133, 160, 68, 253, 80, 232, 218, 247]
  | .skip => [154, 63, 181, 53, 19, 26, 117, 45]
  | .recover => [108, 216, 38, 58, 109, 146, 116, 17]
  | .proposeChange => [167, 211, 18, 222, 93, 215, 74, 159]
  | .applyChange => [248, 177, 9, 41, 50, 98, 255, 50]
  | .cancelChange => [100, 30, 4, 148, 3, 244, 243, 168]

inductive VetoInstr
  | openMandate (accts : OpenMandate) (args : OpenMandateArgs)
  | grantOverride (mandate : Pubkey) (accts : OwnerAction) (amount nonce : UInt64)
  | revokeMandate (mandate : Pubkey) (accts : OwnerAction)
  | closeMandate (mandate : Pubkey) (accts : CloseMandate)
  | charge (mandate : Pubkey) (accts : Charge) (amount nonce : UInt64)
  | trade (rule : Pubkey) (accts : Trade) (amountIn minOut nonce : UInt64)
  | other (name : OtherIx) (accounts : List Pubkey) (args : Bytes)

inductive VetoEvent
  | mandate (event : MandateEvent)
  | trade (event : TradeEvent)
  | hold (event : HoldEvent)

def VetoEvent.bytes : VetoEvent → Bytes
  | .mandate event => event.bytes
  | .trade event => event.bytes
  | .hold event => event.bytes

namespace VetoInstr

def discriminator : VetoInstr → Bytes
  | openMandate .. => OPEN_MANDATE_DISCRIMINATOR
  | grantOverride .. => GRANT_OVERRIDE_DISCRIMINATOR
  | revokeMandate .. => REVOKE_MANDATE_DISCRIMINATOR
  | closeMandate .. => CLOSE_MANDATE_DISCRIMINATOR
  | charge .. => CHARGE_DISCRIMINATOR
  | trade .. => TRADE_DISCRIMINATOR
  | other name _ _ => name.discriminator

def args : VetoInstr → Bytes
  | openMandate _ args => args.bytes
  | grantOverride _ _ amount nonce => toLE 8 amount.toNat ++ toLE 8 nonce.toNat
  | revokeMandate .. => []
  | closeMandate .. => []
  | charge _ _ amount nonce => toLE 8 amount.toNat ++ toLE 8 nonce.toNat
  | trade _ _ amountIn minOut nonce =>
      toLE 8 amountIn.toNat ++ (toLE 8 minOut.toNat ++ toLE 8 nonce.toNat)
  | other _ _ args => args

def accounts : VetoInstr → List Pubkey
  | openMandate a _ =>
      [a.owner, a.mandate, a.ledger, a.source, a.mint, a.tokenProgram, systemProgramId]
  | grantOverride mandate a _ _ => [a.owner, mandate, a.ledger, a.source, a.tokenProgram]
  | revokeMandate mandate a => [a.owner, mandate, a.ledger, a.source, a.tokenProgram]
  | closeMandate mandate a => [a.owner, mandate, a.ledger]
  | charge mandate a _ _ =>
      [a.agent, mandate, a.ledger, a.source, a.destination, a.mint, a.tokenProgram]
  | trade rule a _ _ _ =>
      [a.agent, rule, a.ledger, a.source, a.destination, a.exchangeProgram, a.pool,
        a.poolAuthority, a.poolInVault, a.poolOutVault, a.poolMint, a.poolFeeAccount,
        a.tokenProgram] ++ a.remainingAccounts
  | other _ accounts _ => accounts

/-- It opens, charges, allows, revokes or closes a mandate. -/
def OfMandate : VetoInstr → Bool
  | trade .. => false
  | other .. => false
  | _ => true

def IsTrade : VetoInstr → Bool
  | trade .. => true
  | _ => false

/-- The program runs the instruction and emits these events.  What the other instructions
emit is an event of a vault, or nothing. -/
inductive Runs : VetoInstr → List VetoEvent → Prop
  | openMandate {rt : Runtime} {now : Int64} {signers : List Pubkey} {accts : OpenMandate}
      {args : OpenMandateArgs} {w : World} {o : MandateOutput} {s' : MandateState}
      (h : Veto.openMandate rt now signers accts args w = .ok (o, s')) :
      Runs (openMandate accts args) (o.events.map .mandate)
  | grantOverride {rt : Runtime} {now : Int64} {signers : List Pubkey} {accts : OwnerAction}
      {amount nonce : UInt64} {s s' : MandateState} {o : MandateOutput}
      (h : Veto.grantOverride rt now signers accts amount nonce s = .ok (o, s')) :
      Runs (grantOverride s.key accts amount nonce) (o.events.map .mandate)
  | revokeMandate {rt : Runtime} {now : Int64} {signers : List Pubkey} {accts : OwnerAction}
      {s s' : MandateState} {o : MandateOutput}
      (h : Veto.revokeMandate rt now signers accts s = .ok (o, s')) :
      Runs (revokeMandate s.key accts) (o.events.map .mandate)
  | closeMandate {rt : Runtime} {signers : List Pubkey} {accts : CloseMandate}
      {s : MandateState} {closing : Closing}
      (h : Veto.closeMandate rt signers accts s = .ok closing) :
      Runs (closeMandate s.key accts) []
  | charge {rt : Runtime} {now : Int64} {signers : List Pubkey} {accts : Charge}
      {amount nonce : UInt64} {s s' : MandateState} {o : MandateOutput}
      (h : Veto.charge rt now signers accts amount nonce s = .ok (o, s')) :
      Runs (charge s.key accts amount nonce) (o.events.map .mandate)
  | trade {rt : Runtime} {now : Int64} {signers : List Pubkey} {accts : Trade}
      {amountIn minOut nonce : UInt64} {exchange : Callee} {s s' : TradeState} {o : TradeOutput}
      (h : Veto.trade rt now signers accts amountIn minOut nonce exchange s = .ok (o, s')) :
      Runs (trade s.key accts amountIn minOut nonce) (o.events.map .trade)
  | other {name : OtherIx} {accounts : List Pubkey} {args : Bytes} (events : List HoldEvent) :
      Runs (other name accounts args) (events.map .hold)

theorem length_discriminator (instr : VetoInstr) : instr.discriminator.length = 8 := by
  cases instr with
  | other name accounts args => cases name <;> rfl
  | _ => rfl

/-! ### What each instruction emits -/

section

variable {rt : Runtime} {now : Int64} {signers : List Pubkey} {o : MandateOutput}
  {s s' : MandateState}

theorem openMandate_silent {accts : OpenMandate} {args : OpenMandateArgs} {w : World}
    (h : Veto.openMandate rt now signers accts args w = .ok (o, s')) : o.events = [] := by
  unfold Veto.openMandate at h
  repeat' first
    | (obtain ⟨-, h⟩ := require_bind_ok_iff.mp h)
    | (obtain ⟨_, -, h⟩ := bind_ok_iff.mp h)
  cases h
  rfl

/-- A mandate that opens has a short purpose. -/
theorem openMandate_purpose {accts : OpenMandate} {args : OpenMandateArgs} {w : World}
    (h : Veto.openMandate rt now signers accts args w = .ok (o, s')) :
    args.purpose.length ≤ PURPOSE_MAX_LEN := by
  unfold Veto.openMandate at h
  simp only [vacant, tokenInterface] at h
  simp only [↓signer_bind_ok_iff, ↓require_bind_ok_iff, bind_ok_iff] at h
  obtain ⟨-, -, -, -, -, -, -, -, -, -, -, -, -, -, -, -, hpurpose, -⟩ := h
  exact hpurpose

theorem grantOverride_silent {accts : OwnerAction} {amount nonce : UInt64}
    (h : Veto.grantOverride rt now signers accts amount nonce s = .ok (o, s')) :
    o.events = [] := by
  unfold Veto.grantOverride at h
  repeat' first
    | (obtain ⟨-, h⟩ := require_bind_ok_iff.mp h)
    | (obtain ⟨_, -, h⟩ := bind_ok_iff.mp h)
  cases h
  rfl

theorem revokeMandate_silent {accts : OwnerAction}
    (h : Veto.revokeMandate rt now signers accts s = .ok (o, s')) : o.events = [] := by
  unfold Veto.revokeMandate at h
  repeat' first
    | (obtain ⟨-, h⟩ := require_bind_ok_iff.mp h)
    | (obtain ⟨_, -, h⟩ := bind_ok_iff.mp h)
  cases h
  rfl

end

/-- What the indexer reads of an event. -/
def readEvent (event : VetoEvent) : Option Indexer.DecodedEvent :=
  Indexer.decodeEventBytes event.bytes

/-- The events of an instruction, as the indexer reads them. -/
inductive Decided : VetoInstr → List Indexer.DecodedEvent → Prop
  | charged {mandate : Pubkey} {accts : Charge} {amount nonce : UInt64}
      {decoded : Indexer.DecodedEvent} (event : MandateEvent)
      (read : decoded = .of event) (key : decoded.mandate = mandate)
      (asked : decoded.amount = amount ∧ decoded.nonce = nonce) :
      Decided (charge mandate accts amount nonce) [decoded]
  | traded {rule : Pubkey} {accts : Trade} {amountIn minOut nonce : UInt64}
      {decoded : Indexer.DecodedEvent} (key : decoded.rule = some rule) :
      Decided (trade rule accts amountIn minOut nonce) [decoded]
  | nothing {instr : VetoInstr} (undecided : ∀ m a x n, instr ≠ charge m a x n)
      (untraded : instr.IsTrade = false) : Decided instr []

/-- A charge and a trade are decided by one event each, and nothing else decides anything. -/
theorem Runs.decided {instr : VetoInstr} {events : List VetoEvent} (h : Runs instr events) :
    Decided instr (events.filterMap readEvent) := by
  cases h with
  | openMandate h =>
      rw [openMandate_silent h]
      exact .nothing (fun _ _ _ _ heq => nomatch heq) rfl
  | grantOverride h =>
      rw [grantOverride_silent h]
      exact .nothing (fun _ _ _ _ heq => nomatch heq) rfl
  | revokeMandate h =>
      rw [revokeMandate_silent h]
      exact .nothing (fun _ _ _ _ heq => nomatch heq) rfl
  | closeMandate h => exact .nothing (fun _ _ _ _ heq => nomatch heq) rfl
  | charge h =>
      have hread : ∀ event : MandateEvent,
          readEvent (.mandate event) = some (.of event) := Indexer.decodeEventBytes_bytes
      rcases charge_emits h with ⟨spent, -, hevents⟩ | ⟨reason, suggestion, -, -, hevents⟩
      · rw [hevents, List.map_singleton, List.filterMap_cons_some (hread _), List.filterMap_nil]
        exact .charged _ rfl rfl ⟨rfl, rfl⟩
      · rw [hevents, List.map_singleton, List.filterMap_cons_some (hread _), List.filterMap_nil]
        exact .charged _ rfl rfl ⟨rfl, rfl⟩
  | trade h =>
      obtain ⟨event, hevents, hrule⟩ := trade_emits h
      obtain ⟨decoded, hread, hkey⟩ := Indexer.decodeEventBytes_trade event
      have hread : readEvent (.trade event) = some decoded := hread
      rw [hevents, List.map_singleton, List.filterMap_cons_some hread, List.filterMap_nil]
      exact .traded (hkey.trans (congrArg some hrule))
  | other holds =>
      have hnone : (holds.map VetoEvent.hold).filterMap readEvent = [] := by
        rw [List.filterMap_eq_nil_iff]
        intro event hevent
        obtain ⟨hold, -, rfl⟩ := List.mem_map.mp hevent
        exact Indexer.decodeEventBytes_hold hold
      rw [hnone]
      exact .nothing (fun _ _ _ _ heq => nomatch heq) rfl

end VetoInstr

end Veto

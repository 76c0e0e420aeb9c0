import Veto.Display
import Veto.Service.Records
import Veto.Service.Sources

/-!
# The history of the mandates

What happened on chain, transaction by transaction: mandates are opened, used, revoked and
closed, and an address whose mandate was closed can be opened again, with another agent.
-/

namespace Veto

/-- An instruction about an open mandate, as the program is called. -/
def MandateInstr.on (mandate : Pubkey) : MandateInstr → Option VetoInstr
  | charge accts amount nonce => some (.charge mandate accts amount nonce)
  | grantOverride accts amount nonce => some (.grantOverride mandate accts amount nonce)
  | revokeMandate accts => some (.revokeMandate mandate accts)
  | outside _ => none

end Veto

namespace Veto.Service

open Foundation

/-! ## The mandates -/

/-- The mandate accounts there are, each with its ledger. -/
abbrev Mandates := Pubkey → Option (Mandate × Ledger)

/-- The program runs an instruction.  Accounts of other programs are as they happen to be. -/
inductive MandatesStep (rt : Runtime) : Mandates → VetoCall → Unit → Mandates → Prop
  | opened {m : Mandates} {call : VetoCall} {now : Int64} {signers : List Pubkey}
      {accts : OpenMandate} {args : OpenMandateArgs} {w : World} {o : MandateOutput}
      {s' : MandateState} (instr : call.instr = .openMandate accts args)
      (events : call.events = o.events.map .mandate) (vacant : m accts.mandate = none)
      (exec : openMandate rt now signers accts args w = .ok (o, s')) :
      MandatesStep rt m call ()
        (Function.update m accts.mandate (some (s'.mandate, s'.ledger)))
  | changed {m : Mandates} {call : VetoCall} {i : MandateInput} {o : MandateOutput}
      {s s' : MandateState} (there : m s.key = some (s.mandate, s.ledger))
      (instr : i.instr.on s.key = some call.instr) (events : call.events = o.events.map .mandate)
      (exec : MandateStep rt s i o s') :
      MandatesStep rt m call () (Function.update m s.key (some (s'.mandate, s'.ledger)))
  | closed {m : Mandates} {call : VetoCall} {signers : List Pubkey} {accts : CloseMandate}
      {s : MandateState} {closing : Closing} (there : m s.key = some (s.mandate, s.ledger))
      (instr : call.instr = .closeMandate s.key accts) (events : call.events = [])
      (exec : closeMandate rt signers accts s = .ok closing) :
      MandatesStep rt m call () (Function.update m s.key none)
  | elsewhere {m : Mandates} {call : VetoCall} (instr : call.instr.OfMandate = false)
      (runs : call.instr.Runs call.events) : MandatesStep rt m call () m

/-- A transaction that was finalized, with what it ran if it succeeded. -/
structure OnChain where
  signature : String
  slot : Int
  trace : Option TxTrace

namespace OnChain

def calls (tx : OnChain) : List VetoCall := tx.trace.elim [] TxTrace.vetoCalls

def placed (tx : OnChain) : List PlacedCall := tx.trace.elim [] TxTrace.placedVeto

theorem placed_calls (tx : OnChain) : tx.placed.map Prod.fst = tx.calls := by
  unfold placed calls
  cases tx.trace with
  | none => rfl
  | some t => exact placedVeto_calls t

end OnChain

structure History (rt : Runtime) where
  /-- Oldest first. -/
  transactions : List OnChain
  slotTime : Int → Option Int
  mandates : Mandates
  steps : List (Transition Mandates VetoCall Unit)
  run : Run (MandatesStep rt) (fun _ => none) steps mandates
  calls : (steps.map Transition.input).reverse = transactions.flatMap OnChain.calls
  wellRun : ∀ tx ∈ transactions, ∀ t, tx.trace = some t → t.WellRun PROGRAM_ID
  distinct : (transactions.map OnChain.signature).Nodup

/-! ## Owners and agents -/

/-- The instruction opens this address for an owner and an agent. -/
def VetoInstr.Opens (instr : VetoInstr) (key owner agent : Pubkey) : Prop :=
  ∃ accts args, instr = .openMandate accts args ∧ accts.mandate = key ∧ accts.owner = owner ∧
    args.agent = agent

/-- The instruction is one of a tenure with this owner and agent. -/
inductive VetoInstr.Under (owner agent : Pubkey) : VetoInstr → Pubkey → Prop
  | openMandate (accts : OpenMandate) (args : OpenMandateArgs) (owned : accts.owner = owner)
      (named : args.agent = agent) : Under owner agent (.openMandate accts args) accts.mandate
  | grantOverride (key : Pubkey) (accts : OwnerAction) (amount nonce : UInt64) :
      Under owner agent (.grantOverride key accts amount nonce) key
  | revokeMandate (key : Pubkey) (accts : OwnerAction) :
      Under owner agent (.revokeMandate key accts) key
  | closeMandate (key : Pubkey) (accts : CloseMandate) :
      Under owner agent (.closeMandate key accts) key
  | charge (key : Pubkey) (accts : Charge) (amount nonce : UInt64) (signed : accts.agent = agent) :
      Under owner agent (.charge key accts amount nonce) key

variable {rt : Runtime} {m m' : Mandates} {call : VetoCall}

theorem Charge.agent_of_charge {now : Int64} {signers : List Pubkey} {accts : Charge}
    {amount nonce : UInt64} {s s' : MandateState} {o : MandateOutput}
    (h : charge rt now signers accts amount nonce s = .ok (o, s')) :
    accts.agent = s.mandate.agent := by
  unfold charge at h
  obtain ⟨ctx, hload, -⟩ := bind_ok_iff.mp h
  unfold Charge.load at hload
  rw [signer_bind_ok_iff, require_bind_ok_iff] at hload
  exact hload.2.1.symm

theorem MandatesStep.runs (h : MandatesStep rt m call () m') : call.instr.Runs call.events := by
  cases h with
  | opened instr events vacant exec =>
      rw [instr, events]
      exact .openMandate exec
  | @changed i o s s' there instr events exec =>
      unfold MandateStep MandateState.exec at exec
      rw [events]
      cases hi : i.instr with
      | charge accts amount nonce =>
          rw [hi] at instr exec
          rw [← Option.some.inj instr]
          exact .charge exec
      | grantOverride accts amount nonce =>
          rw [hi] at instr exec
          rw [← Option.some.inj instr]
          exact .grantOverride exec
      | revokeMandate accts =>
          rw [hi] at instr exec
          rw [← Option.some.inj instr]
          exact .revokeMandate exec
      | outside w =>
          rw [hi] at instr
          cases instr
  | closed there instr events exec =>
      rw [instr, events]
      exact .closeMandate exec
  | elsewhere instr runs => exact runs

/-- A step about mandates is one of the tenure that is there, before it or after it. -/
theorem MandatesStep.under (h : MandatesStep rt m call () m') (hof : call.instr.OfMandate = true) :
    ∃ key mandate ledger, (m key = some (mandate, ledger) ∨ m' key = some (mandate, ledger)) ∧
      VetoInstr.Under mandate.owner mandate.agent call.instr key := by
  cases h with
  | @opened now signers accts args w o s' instr events vacant exec =>
      obtain ⟨bump, hmandate⟩ := (openMandate_opened exec).mandate
      refine ⟨accts.mandate, s'.mandate, s'.ledger, .inr (Function.update_self ..), ?_⟩
      rw [instr, hmandate]
      exact .openMandate accts args rfl rfl
  | @changed i o s s' there instr events exec =>
      refine ⟨s.key, s.mandate, s.ledger, .inl there, ?_⟩
      cases hi : i.instr with
      | charge accts amount nonce =>
          rw [hi] at instr
          rw [← Option.some.inj instr]
          unfold MandateStep MandateState.exec at exec
          rw [hi] at exec
          exact .charge s.key accts amount nonce (Charge.agent_of_charge exec)
      | grantOverride accts amount nonce =>
          rw [hi] at instr
          rw [← Option.some.inj instr]
          exact .grantOverride s.key accts amount nonce
      | revokeMandate accts =>
          rw [hi] at instr
          rw [← Option.some.inj instr]
          exact .revokeMandate s.key accts
      | outside w =>
          rw [hi] at instr
          cases instr
  | @closed signers accts s closing there instr events exec =>
      refine ⟨s.key, s.mandate, s.ledger, .inl there, ?_⟩
      rw [instr]
      exact .closeMandate s.key accts
  | elsewhere instr runs =>
      rw [instr] at hof
      cases hof

/-- Where the owner and the agent of a mandate come from. -/
theorem MandatesStep.names (h : MandatesStep rt m call () m') {key : Pubkey} {mandate : Mandate}
    {ledger : Ledger} (hthere : m' key = some (mandate, ledger)) :
    (∃ before l, m key = some (before, l) ∧ before.owner = mandate.owner ∧
      before.agent = mandate.agent) ∨ VetoInstr.Opens call.instr key mandate.owner mandate.agent := by
  cases h with
  | @opened now signers accts args w o s' instr events vacant exec =>
      by_cases hkey : key = accts.mandate
      · subst hkey
        rw [Function.update_self] at hthere
        obtain ⟨rfl, rfl⟩ := Prod.mk.inj (Option.some.inj hthere)
        obtain ⟨bump, hmandate⟩ := (openMandate_opened exec).mandate
        rw [hmandate]
        exact .inr ⟨accts, args, instr, rfl, rfl, rfl⟩
      · rw [Function.update_of_ne hkey] at hthere
        exact .inl ⟨mandate, ledger, hthere, rfl, rfl⟩
  | @changed i o s s' there instr events exec =>
      by_cases hkey : key = s.key
      · subst hkey
        rw [Function.update_self] at hthere
        obtain ⟨rfl, rfl⟩ := Prod.mk.inj (Option.some.inj hthere)
        have hterms := (MandateStep.effect exec).terms_eq
        exact .inl ⟨s.mandate, s.ledger, there, (congrArg MandateTerms.owner hterms).symm,
          (congrArg MandateTerms.agent hterms).symm⟩
      · rw [Function.update_of_ne hkey] at hthere
        exact .inl ⟨mandate, ledger, hthere, rfl, rfl⟩
  | @closed signers accts s closing there instr events exec =>
      by_cases hkey : key = s.key
      · subst hkey
        rw [Function.update_self] at hthere
        cases hthere
      · rw [Function.update_of_ne hkey] at hthere
        exact .inl ⟨mandate, ledger, hthere, rfl, rfl⟩
  | elsewhere instr runs => exact .inl ⟨mandate, ledger, hthere, rfl, rfl⟩

namespace History

variable (chain : History rt)

/-- The mandates at some moment. -/
def Moment (m : Mandates) : Prop := m = chain.mandates ∨ ∃ T ∈ chain.steps, m = T.pre

/-- Some transaction opened the address for this owner and this agent. -/
def OpenedAs (key owner agent : Pubkey) : Prop :=
  ∃ tx ∈ chain.transactions, ∃ call ∈ tx.calls, VetoInstr.Opens call.instr key owner agent

/-- No address is opened again for another owner or another agent. -/
def Steady : Prop :=
  ∀ key owner agent owner' agent', chain.OpenedAs key owner agent →
    chain.OpenedAs key owner' agent' → owner = owner' ∧ agent = agent'

variable {chain}

theorem mem_calls {call : VetoCall} :
    (∃ T ∈ chain.steps, T.input = call) ↔ ∃ tx ∈ chain.transactions, call ∈ tx.calls := by
  rw [← List.mem_flatMap, ← chain.calls, List.mem_reverse, List.mem_map]

theorem opened_of_run {h : List (Transition Mandates VetoCall Unit)}
    (run : Run (MandatesStep rt) (fun _ => none) h m) {key : Pubkey} {mandate : Mandate}
    {ledger : Ledger} (hthere : m key = some (mandate, ledger)) :
    ∃ T ∈ h, VetoInstr.Opens T.input.instr key mandate.owner mandate.agent := by
  induction run generalizing mandate ledger with
  | start => cases hthere
  | next run hstep ih =>
      rcases hstep.names hthere with ⟨before, l, hbefore, howner, hagent⟩ | hopens
      · obtain ⟨T, hT, hopens⟩ := ih hbefore
        rw [howner, hagent] at hopens
        exact ⟨T, List.mem_cons_of_mem _ hT, hopens⟩
      · exact ⟨_, List.mem_cons_self, hopens⟩

theorem openedAs_of_mem {T : Transition Mandates VetoCall Unit} (hT : T ∈ chain.steps)
    {key owner agent : Pubkey} (hopens : VetoInstr.Opens T.input.instr key owner agent) :
    chain.OpenedAs key owner agent := by
  obtain ⟨tx, htx, hcall⟩ := mem_calls.mp ⟨T, hT, rfl⟩
  exact ⟨tx, htx, T.input, hcall, hopens⟩

/-- Every mandate there ever is was opened for its owner and its agent. -/
theorem Moment.opened (h : chain.Moment m) {key : Pubkey} {mandate : Mandate} {ledger : Ledger}
    (hthere : m key = some (mandate, ledger)) :
    chain.OpenedAs key mandate.owner mandate.agent := by
  rcases h with rfl | ⟨T, hT, rfl⟩
  · obtain ⟨T, hT, hopens⟩ := opened_of_run chain.run hthere
    exact openedAs_of_mem hT hopens
  · obtain ⟨newer, older, hsplit, before, -, -⟩ := chain.run.of_mem hT
    obtain ⟨first, hfirst, hopens⟩ := opened_of_run before hthere
    refine openedAs_of_mem ?_ hopens
    rw [hsplit]
    exact List.mem_append_right _ (List.mem_cons_of_mem T hfirst)

/-- Every instruction about a mandate is one of a tenure that was opened. -/
theorem under_of_mem {tx : OnChain} (htx : tx ∈ chain.transactions) (hcall : call ∈ tx.calls)
    (hof : call.instr.OfMandate = true) :
    ∃ key owner agent, chain.OpenedAs key owner agent ∧
      VetoInstr.Under owner agent call.instr key := by
  obtain ⟨T, hT, rfl⟩ := mem_calls.mpr ⟨tx, htx, hcall⟩
  obtain ⟨newer, older, hsplit, before, hstep, after⟩ := chain.run.of_mem hT
  obtain ⟨key, mandate, ledger, hthere, hunder⟩ := hstep.under hof
  refine ⟨key, mandate.owner, mandate.agent, ?_, hunder⟩
  rcases hthere with hthere | hthere
  · exact (show chain.Moment T.pre from .inr ⟨T, hT, rfl⟩).opened hthere
  · obtain ⟨first, hfirst, hopens⟩ := opened_of_run (before.next hstep) hthere
    refine openedAs_of_mem ?_ hopens
    rw [hsplit]
    rcases List.mem_cons.mp hfirst with rfl | hfirst
    · exact List.mem_append_right _ List.mem_cons_self
    · exact List.mem_append_right _ (List.mem_cons_of_mem T hfirst)

end History

end Veto.Service

import Veto.Display
import Veto.Sdk.Events
import Veto.Service.Records

/-!
# The counterparty of a decision

An event of a charge names no destination.  Both readers take it from the first instruction of
the message that looks like a charge and names the mandate, whichever charge the event is of.
-/

namespace Veto

open Foundation Logs Service

/-! ## The indexer's view -/

def Indexer.compiledToView (tx : Sdk.RpcTransaction) (signature : String) (slot : Int)
    (info : Sdk.RpcMeta) (logs : List Text) : Indexer.TxView where
  signature := signature
  slot := tx.slot.getD slot
  blockTime := tx.blockTime
  err := info.err
  logs := logs
  instructions := Sdk.instructionsOf tx.message tx.keys

/-- The indexer's view of an answer that has its log. -/
def Indexer.rpcToView (tx : Sdk.RpcTransaction) (signature : String) (slot : Int) :
    Option Indexer.TxView :=
  if signature = "" then none
  else tx.info.bind fun info =>
    info.logMessages.map (Indexer.compiledToView tx signature slot info)

namespace Sdk

/-! ## What ran -/

/-- A charge that ran. -/
structure ChargeRun where
  mandate : Pubkey
  destination : Pubkey
  amount : UInt64
  nonce : UInt64
  deriving DecidableEq

end Sdk

namespace Service

def VetoCall.charge? (call : VetoCall) : Option Sdk.ChargeRun :=
  match call.instr with
  | .charge mandate a amount nonce => some ⟨mandate, a.destination, amount, nonce⟩
  | _ => none

/-- The charges that ran, at the top or below, in order. -/
def TxTrace.charges (t : TxTrace) : List Sdk.ChargeRun := t.vetoCalls.filterMap VetoCall.charge?

/-- The instructions of the message. -/
def TxTrace.top (t : TxTrace) : List Invoked := t.topCalls.map Prod.fst

/-- It begins as a charge does, whichever program it calls. -/
def Invoked.LooksCharge (i : Invoked) : Prop :=
  8 ≤ i.data.length ∧ subarray i.data 0 8 = CHARGE_DISCRIMINATOR

instance (i : Invoked) : Decidable i.LooksCharge := inferInstanceAs (Decidable (_ ∧ _))

/-- The mandate is among its accounts, and a destination can be. -/
def Invoked.Names (mandate : Pubkey) (i : Invoked) : Prop :=
  5 ≤ i.accounts.length ∧ mandate ∈ i.accounts

instance (mandate : Pubkey) (i : Invoked) : Decidable (i.Names mandate) :=
  inferInstanceAs (Decidable (_ ∧ _))

/-- The first instruction with a property. -/
def FirstOf (p : Invoked → Prop) (instructions : List Invoked) (i : Invoked) : Prop :=
  ∃ front back, instructions = front ++ i :: back ∧ p i ∧ ∀ j ∈ front, ¬ p j

/-- The first instruction that looks like a charge and names the mandate pays this destination.
Where none names it, the first that looks like a charge does. -/
def TxTrace.Leads (t : TxTrace) (c : Sdk.ChargeRun) : Prop :=
  (∃ i, FirstOf (fun i => i.LooksCharge ∧ i.Names c.mandate) t.top i ∧
    i.accounts[4]? = some c.destination) ∨
  (∀ i ∈ t.top, i.LooksCharge → ¬ i.Names c.mandate) ∧
    ∃ i, FirstOf Invoked.LooksCharge t.top i ∧ i.accounts[4]? = some c.destination

/-- The instruction as a reader sees it. -/
def Invoked.shown (veto : ProgramId) (i : Invoked) : Indexer.CompiledIx where
  programId := String.ofList (i.program veto).chars
  accounts := i.accounts.map Pubkey.display
  data := i.data

end Service

namespace Sdk

variable {veto : ProgramId} {tx : RpcTransaction} {t : TxTrace} {keys : List String}

/-- The instruction of the message is this one. -/
structure Listed (veto : ProgramId) (keys : List String) (ix : CompiledIx) (i : Invoked) :
    Prop where
  program : keys[ix.programIdIndex]? = some (String.ofList (i.program veto).chars)
  accounts : List.Forall₂ (fun index key => keys[index]? = some (Pubkey.display key))
    ix.accountKeyIndexes i.accounts
  data : ix.data = i.data

/-- The node answers with the transaction, which succeeded, and its whole log. -/
structure Answers (veto : ProgramId) (tx : RpcTransaction) (t : TxTrace) : Prop where
  logged : ∃ info, tx.info = some info ∧ info.err = false ∧
    info.logMessages = some (t.log veto).lines
  top : List.Forall₂ (Listed veto tx.keys) tx.message.compiledInstructions t.top
  /-- Only programs write lines. -/
  silent : t.calls = [] → (t.log veto).lines = []

theorem instructionsOf_listed (h : Answers veto tx t) :
    instructionsOf tx.message tx.keys = t.top.map (Invoked.shown veto) := by
  have haccounts : ∀ {indexes : List Nat} {accounts : List Pubkey},
      List.Forall₂ (fun index key => tx.keys[index]? = some (Pubkey.display key)) indexes
        accounts →
      (indexes.map fun index => tx.keys.getD index "") = accounts.map Pubkey.display := by
    intro indexes accounts hall
    induction hall with
    | nil => rfl
    | cons hkey _ ih => rw [List.map_cons, List.map_cons, ih, List.getD_eq_getElem?_getD, hkey]; rfl
  have hlist : ∀ {compiled : List CompiledIx} {top : List Invoked},
      List.Forall₂ (Listed veto tx.keys) compiled top →
      (compiled.map fun ix => ({
        programId := tx.keys.getD ix.programIdIndex ""
        accounts := ix.accountKeyIndexes.map fun index => tx.keys.getD index ""
        data := ix.data } : Indexer.CompiledIx)) = top.map (Invoked.shown veto) := by
    intro compiled top hall
    induction hall with
    | nil => rfl
    | cons hlisted _ ih =>
        rw [List.map_cons, List.map_cons, ih, haccounts hlisted.accounts, hlisted.data,
          List.getD_eq_getElem?_getD, hlisted.program]
        rfl
  exact hlist h.top

/-! ## Which instruction is taken -/

theorem find?_firstOf {p : Invoked → Prop} [DecidablePred p] {instructions : List Invoked}
    {i : Invoked} : instructions.find? (fun i => p i) = some i ↔ FirstOf p instructions i := by
  rw [List.find?_eq_some_iff_append]
  unfold FirstOf
  constructor
  · rintro ⟨hi, front, back, hsplit, hfront⟩
    exact ⟨front, back, hsplit, by simpa using hi, by simpa using hfront⟩
  · rintro ⟨front, back, hsplit, hi, hfront⟩
    exact ⟨by simpa using hi, front, back, hsplit, by simpa using hfront⟩

theorem isChargeIx_shown (i : Invoked) : isChargeIx (i.shown veto) = decide i.LooksCharge := rfl

theorem mem_shown {mandate : Pubkey} {i : Invoked} :
    mandate.display ∈ (i.shown veto).accounts ↔ mandate ∈ i.accounts := by
  unfold Invoked.shown
  rw [List.mem_map]
  constructor
  · rintro ⟨key, hkey, hsame⟩
    rwa [← Pubkey.display_inj.mp hsame]
  · exact fun h => ⟨mandate, h, rfl⟩

variable (veto) in
theorem named_shown (mandate : Pubkey) (i : Invoked) :
    (isChargeIx (i.shown veto) ∧ 5 ≤ (i.shown veto).accounts.length ∧
      ((i.shown veto).accounts[1]? = some mandate.display ∨
        mandate.display ∈ (i.shown veto).accounts)) ↔
      i.LooksCharge ∧ i.Names mandate := by
  have hlength : (i.shown veto).accounts.length = i.accounts.length := List.length_map _
  have hin : ((i.shown veto).accounts[1]? = some mandate.display ∨
      mandate.display ∈ (i.shown veto).accounts) ↔ mandate ∈ i.accounts := by
    have hshown : mandate.display ∈ (i.shown veto).accounts ↔ mandate ∈ i.accounts := mem_shown
    rw [← hshown]
    exact or_iff_right_of_imp List.mem_of_getElem?
  rw [isChargeIx_shown, decide_eq_true_iff, hlength, hin]
  exact Iff.rfl

theorem shown_destination {i : Invoked} {destination : Pubkey} :
    (i.shown veto).accounts[4]? = some destination.display ↔
      i.accounts[4]? = some destination := by
  unfold Invoked.shown
  rw [List.getElem?_map, Option.map_eq_some_iff]
  constructor
  · rintro ⟨key, hkey, hsame⟩
    rwa [← Pubkey.display_inj.mp hsame]
  · exact fun h => ⟨destination, h, rfl⟩

theorem display_ne_empty (key : Pubkey) : key.display ≠ "" := by
  intro h
  have hzero : key = 0 := by
    apply BitVec.eq_of_toNat_eq
    have hvalue := key.value_display
    rw [h] at hvalue
    exact hvalue.symm
  rw [hzero] at h
  revert h
  decide

theorem getD_display {text : Option String} {key : Pubkey} :
    text.getD "" = key.display ↔ text = some key.display := by
  cases text with
  | none =>
      have hempty := display_ne_empty key
      simp [hempty.symm]
  | some text => simp

theorem find?_shown {p : Indexer.CompiledIx → Prop} [DecidablePred p] {q : Invoked → Prop}
    [DecidablePred q] (h : ∀ i : Invoked, p (i.shown veto) ↔ q i) (instructions : List Invoked) :
    (instructions.map (Invoked.shown veto)).find? (fun ix => p ix) =
      (instructions.find? fun i => q i).map (Invoked.shown veto) := by
  rw [List.find?_map]
  congr 2
  funext i
  exact decide_eq_decide.mpr (h i)

/-- The counterparty of a decision is right exactly when the charge leads. -/
theorem counterparty_iff {view : TxView} (hview : view.instructions = t.top.map (Invoked.shown veto))
    (c : ChargeRun) :
    counterpartyFromCharge view c.mandate.display = c.destination.display ↔ t.Leads c := by
  have hnamed := find?_shown (p := fun ix => isChargeIx ix ∧ 5 ≤ ix.accounts.length ∧
    (ix.accounts[1]? = some c.mandate.display ∨ c.mandate.display ∈ ix.accounts))
    (named_shown veto c.mandate) t.top
  have hcharge : (t.top.map (Invoked.shown veto)).find? isChargeIx =
      (t.top.find? fun i => i.LooksCharge).map (Invoked.shown veto) := List.find?_map ..
  have hpays : ∀ i : Invoked, (((i.shown veto).accounts[4]?).getD "" = c.destination.display ↔
      i.accounts[4]? = some c.destination) := fun i => getD_display.trans shown_destination
  unfold counterpartyFromCharge TxTrace.Leads
  rw [hview, hnamed, hcharge]
  cases hfirst : t.top.find? (fun i => i.LooksCharge ∧ i.Names c.mandate) with
  | some i =>
      have hleads := find?_firstOf.mp hfirst
      have hnone : ¬ ∀ i ∈ t.top, i.LooksCharge → ¬ i.Names c.mandate := by
        obtain ⟨front, back, hsplit, ⟨hlooks, hnames⟩, -⟩ := hleads
        intro hall
        exact hall i (by rw [hsplit]; simp) hlooks hnames
      simp only [Option.map_some, List.getD_eq_getElem?_getD, hpays, hnone, false_and, or_false]
      constructor
      · exact fun hpay => ⟨i, hleads, hpay⟩
      · rintro ⟨j, hj, hpay⟩
        rw [← find?_firstOf, hfirst] at hj
        cases hj
        exact hpay
  | none =>
      have hall : ∀ i ∈ t.top, i.LooksCharge → ¬ i.Names c.mandate := by
        intro i hi hlooks hnames
        simpa [hlooks, hnames] using List.find?_eq_none.mp hfirst i hi
      have hno : ¬ ∃ i, FirstOf (fun i => i.LooksCharge ∧ i.Names c.mandate) t.top i ∧
          i.accounts[4]? = some c.destination := by
        rintro ⟨i, hi, -⟩
        rw [← find?_firstOf, hfirst] at hi
        cases hi
      simp only [Option.map_none, hno, false_or, eq_true hall, true_and]
      cases hany : t.top.find? (fun i => i.LooksCharge) with
      | some i =>
          simp only [Option.map_some, Option.bind_some, hpays]
          constructor
          · exact fun hpay => ⟨i, find?_firstOf.mp hany, hpay⟩
          · rintro ⟨j, hj, hpay⟩
            rw [← find?_firstOf, hany] at hj
            cases hj
            exact hpay
      | none =>
          simp only [Option.map_none, Option.bind_none, Option.getD_none]
          constructor
          · exact fun hempty => absurd hempty.symm (display_ne_empty _)
          · rintro ⟨i, hi, -⟩
            rw [← find?_firstOf, hany] at hi
            cases hi

/-! ## The events of the charges -/

/-- The event is the one of the charge. -/
structure EventOf (event : Indexer.DecodedEvent) (c : ChargeRun) : Prop where
  untraded : event.rule = none
  mandate : event.mandate = c.mandate
  amount : event.amount = c.amount
  nonce : event.nonce = c.nonce

/-- A charge is decided by one event, and of the other events all name a rule. -/
theorem decided_charge {call : VetoCall} (hruns : call.instr.Runs call.events) :
    List.Forall₂ EventOf (call.decided.filter (·.rule.isNone)) call.charge?.toList := by
  have hdecided : VetoInstr.Decided call.instr call.decided := hruns.decided
  generalize call.decided = decided at hdecided
  obtain ⟨instr, more, trailing, events⟩ := call
  dsimp only at hdecided
  cases hdecided with
  | @charged mandate accts amount nonce decoded event read key asked =>
      have hrule : decoded.rule = none := by
        rw [read]
        cases event <;> rfl
      rw [List.filter_cons_of_pos (by rw [hrule]; rfl)]
      exact .cons ⟨hrule, key, asked.1, asked.2⟩ .nil
  | @traded rule accts amountIn minOut nonce decoded key =>
      rw [List.filter_cons_of_neg (by simp [key])]
      exact .nil
  | nothing undecided untraded =>
      cases instr with
      | charge mandate a amount nonce => exact absurd rfl (undecided mandate a amount nonce)
      | _ => exact .nil

theorem decided_charges {calls : List VetoCall} (h : ∀ call ∈ calls, call.instr.Runs call.events) :
    List.Forall₂ EventOf ((calls.flatMap VetoCall.decided).filter (·.rule.isNone))
      (calls.filterMap VetoCall.charge?) := by
  rw [List.filter_flatMap, List.filterMap_eq_flatMap_toList]
  induction calls with
  | nil => exact .nil
  | cons call calls ih =>
      have hfirst := decided_charge (h call List.mem_cons_self)
      have hrest := ih fun call hcall => h call (List.mem_cons_of_mem _ hcall)
      rw [List.flatMap_cons, List.flatMap_cons]
      exact List.rel_append hfirst hrest

theorem events_answered (h : Answers veto tx t) (hrun : t.WellRun veto) :
    decodeEventsFromLogs (t.log veto).lines veto.chars =
      ((t.vetoCalls.flatMap VetoCall.decided).filter (·.rule.isNone)).map .of := by
  have hlines : Logs.Sdk.linesForProgram (t.log veto).lines veto.chars =
      Logs.Indexer.linesForProgram (t.log veto).lines veto.chars := by
    have hlog : Logs.framed (t.log veto).lines = true ∨ t.calls = [] := framed_log t
    rcases hlog with hframed | hcalls
    · exact (indexer_eq_sdk hframed _).symm
    · rw [h.silent hcalls]
      rfl
  have hindexer : t.vetoCalls.flatMap VetoCall.decided =
      (Indexer.dataBuffers (t.log veto).lines veto.chars).filterMap Indexer.decodeEventBytes :=
    (decodeEventsFromLogs_log hrun).symm
  unfold decodeEventsFromLogs
  rw [hlines, hindexer]
  unfold Indexer.dataBuffers
  rw [List.filterMap_filterMap, List.filter_filterMap, List.map_filterMap]
  congr 1
  funext line
  cases Indexer.programData line with
  | none => rfl
  | some text => exact decodeEventBytes_eq _

/-! ## Both readers -/

/-- Up to its counterparty the decision is the one of the charge. -/
def Decides (c : ChargeRun) (decision : String × Nat × Nat) : Prop :=
  decision = (c.mandate.display, c.amount.toNat, c.nonce.toNat)

theorem forall₂_iff_of_forall₂ {α β : Type} {P : α → β → Prop} {Q : β → Prop} {l : List α}
    {l' : List β} (h : List.Forall₂ (fun a b => P a b ↔ Q b) l l') :
    List.Forall₂ P l l' ↔ ∀ b ∈ l', Q b := by
  induction h with
  | nil => simp
  | cons hab _ ih => simp [hab, ih]

/-- Each reader's events of the charges are in the order of the charges. -/
theorem eventOf_charges (hrun : t.WellRun veto) :
    List.Forall₂ EventOf ((t.vetoCalls.flatMap VetoCall.decided).filter (·.rule.isNone))
      t.charges :=
  decided_charges fun _ hcall => runs_of_vetoCalls hrun hcall

theorem decisionsFromTx_charges (hshows : Answers veto tx t) (hrun : t.WellRun veto)
    (signature : String) (slot : Int) (mandateFilter : Option String) :
    List.Forall₂ (fun d c => Decides c (d.mandate, d.amount, d.nonce) ∧
        (d.counterparty = c.destination.display ↔ t.Leads c))
      (decisionsFromTx (viewFromRpc tx signature slot) (String.ofList veto.chars) mandateFilter)
      (t.charges.filter fun c => mandateFilter.all (· = c.mandate.display)) := by
  obtain ⟨info, hinfo, herr, hlogs⟩ := hshows.logged
  have herr' : (viewFromRpc tx signature slot).err = false := by
    unfold viewFromRpc
    rw [hinfo]
    exact herr
  have hlogs' : (viewFromRpc tx signature slot).logs = (t.log veto).lines := by
    unfold viewFromRpc
    rw [hinfo, Option.bind_some, hlogs]
    rfl
  have hinstructions : (viewFromRpc tx signature slot).instructions =
      t.top.map (Invoked.shown veto) := instructionsOf_listed hshows
  unfold decisionsFromTx
  rw [herr', if_neg Bool.false_ne_true, hlogs', String.toList_ofList]
  dsimp only
  rw [events_answered hshows hrun, List.forall₂_map_left_iff, List.filter_map,
    List.forall₂_map_left_iff]
  have hof : List.Forall₂ (fun event c => EventOf event c)
      (((t.vetoCalls.flatMap VetoCall.decided).filter (·.rule.isNone)).filter
        fun event => mandateFilter.all (· = event.mandate.display))
      (t.charges.filter fun c => mandateFilter.all (· = c.mandate.display)) :=
    List.rel_filter (fun {event c} hevent => by dsimp only; rw [hevent.mandate])
      (eventOf_charges hrun)
  refine hof.imp ?_
  intro event c hevent
  constructor
  · simp [Decides, decisionOf, DecodedEvent.of, hevent.mandate, hevent.amount, hevent.nonce]
  · have hmandate : (DecodedEvent.of event).mandate = c.mandate := hevent.mandate
    unfold decisionOf
    rw [hmandate]
    exact counterparty_iff hinstructions c

theorem top_subset_calls {i : Invoked} (h : i ∈ t.top) : i ∈ t.calls := by
  obtain ⟨c, hc, rfl⟩ := List.mem_map.mp h
  rw [← CallTrace.flatMap_topCalls]
  exact List.mem_flatMap.mpr ⟨c, hc, List.mem_cons_self⟩

/-- Where no event was written, no instruction of the program is a charge. -/
theorem isChargeIx_silent (hrun : t.WellRun veto) (h : t.vetoCalls.flatMap VetoCall.decided = [])
    {i : Invoked} (hi : i ∈ t.top) (hprogram : (i.shown veto).programId = String.ofList veto.chars) :
    Indexer.isChargeIx (i.shown veto) = false := by
  have hcall := top_subset_calls hi
  cases i with
  | veto call =>
      have hcall : call ∈ t.vetoCalls := List.mem_filterMap.mpr ⟨_, hcall, rfl⟩
      have hundecided := List.flatMap_eq_nil_iff.mp h call hcall
      exact isChargeIx_undecided (p := (call, 0, none)) (runs_of_vetoCalls hrun hcall) hundecided
  | foreign program accounts data =>
      have hne := program_of_calls hrun hcall rfl
      have hchars : program.chars = veto.chars := by
        simpa [Invoked.shown, Invoked.program] using congrArg String.toList hprogram
      exact absurd (ProgramId.ext_iff'.mpr hchars) hne

/-- The indexer makes one decision of each event. -/
theorem indexed_decisions (hrun : t.WellRun veto) {view : Indexer.TxView}
    (herr : view.err = false) (hlogs : view.logs = (t.log veto).lines)
    (hview : view.instructions = t.top.map (Invoked.shown veto)) :
    Indexer.decisionsFromTx view (String.ofList veto.chars) =
      (t.vetoCalls.flatMap VetoCall.decided).map
        (Indexer.decisionOf view (String.ofList veto.chars)) := by
  have hevents : Indexer.decodeEventsFromLogs view.logs (String.ofList veto.chars).toList =
      t.vetoCalls.flatMap VetoCall.decided := by
    rw [hlogs, String.toList_ofList]
    exact decodeEventsFromLogs_log hrun
  unfold Indexer.decisionsFromTx
  rw [herr, if_neg Bool.false_ne_true, hevents]
  split
  · rename_i hnone
    rw [hnone, Indexer.decisionFromChargeLog_eq_none]
    · rfl
    · intro ix hix hprogram
      rw [hview] at hix
      obtain ⟨i, hi, rfl⟩ := List.mem_map.mp hix
      exact isChargeIx_silent hrun hnone hi hprogram
  · rfl

theorem indexed_charges (hshows : Answers veto tx t) (hrun : t.WellRun veto)
    (signature : String) (slot : Int) (hsigned : signature ≠ "") :
    ∃ view, Indexer.rpcToView tx signature slot = some view ∧
      List.Forall₂ (fun d c => Decides c (d.mandate, d.amount, d.nonce) ∧
          (d.counterparty = c.destination.display ↔ t.Leads c))
        ((Indexer.decisionsFromTx view (String.ofList veto.chars)).filter fun d => d.rule = none)
        t.charges := by
  obtain ⟨info, hinfo, herr, hlogs⟩ := hshows.logged
  refine ⟨Indexer.compiledToView tx signature slot info (t.log veto).lines, ?_, ?_⟩
  · unfold Indexer.rpcToView
    rw [if_neg hsigned, hinfo, Option.bind_some, hlogs]
    rfl
  · have hview := instructionsOf_listed hshows
    have hrule : ((t.vetoCalls.flatMap VetoCall.decided).filter fun event =>
        decide ((Indexer.decisionOf (Indexer.compiledToView tx signature slot info
          (t.log veto).lines) (String.ofList veto.chars) event).rule = none)) =
        (t.vetoCalls.flatMap VetoCall.decided).filter (·.rule.isNone) := by
      apply List.filter_congr
      intro event _
      unfold Indexer.decisionOf
      cases event.rule <;> rfl
    rw [indexed_decisions hrun herr rfl hview, List.filter_map, List.forall₂_map_left_iff,
      Function.comp_def, hrule]
    refine (eventOf_charges hrun).imp ?_
    intro event c hevent
    constructor
    · simp [Decides, Indexer.decisionOf, hevent.mandate, hevent.amount, hevent.nonce]
    · unfold Indexer.decisionOf
      rw [hevent.untraded, hevent.mandate]
      exact counterparty_iff (show (viewFromRpc tx signature slot).instructions = _ from hview) c

/-- The readers make one decision of each charge, and give it the destination of its own charge
exactly where the charge leads. -/
theorem counterparty_exact_iff (hshows : Answers veto tx t) (hrun : t.WellRun veto)
    (signature : String) (slot : Int) (mandateFilter : Option String) :
    let charges := t.charges.filter fun c => mandateFilter.all (· = c.mandate.display)
    let decisions := decisionsFromTx (viewFromRpc tx signature slot) (String.ofList veto.chars)
      mandateFilter
    List.Forall₂ (fun d c => Decides c (d.mandate, d.amount, d.nonce)) decisions charges ∧
      (List.Forall₂ (fun d c => d.counterparty = c.destination.display) decisions charges ↔
        ∀ c ∈ charges, t.Leads c) ∧
      (signature ≠ "" → ∃ view, Indexer.rpcToView tx signature slot = some view ∧
        let indexed := (Indexer.decisionsFromTx view (String.ofList veto.chars)).filter
          fun d => d.rule = none
        List.Forall₂ (fun d c => Decides c (d.mandate, d.amount, d.nonce)) indexed t.charges ∧
        (List.Forall₂ (fun d c => d.counterparty = c.destination.display) indexed t.charges ↔
          ∀ c ∈ t.charges, t.Leads c)) := by
  have hsdk := decisionsFromTx_charges hshows hrun signature slot mandateFilter
  refine ⟨hsdk.imp fun _ _ h => h.1, forall₂_iff_of_forall₂ (hsdk.imp fun _ _ h => h.2), ?_⟩
  intro hsigned
  obtain ⟨view, hview, hindexed⟩ := indexed_charges hshows hrun signature slot hsigned
  exact ⟨view, hview, hindexed.imp fun _ _ h => h.1,
    forall₂_iff_of_forall₂ (hindexed.imp fun _ _ h => h.2)⟩

/-! ### Two charges in one transaction -/

section Sample

/-- Instructions of the message, one after the other. -/
def topLevel : List VetoCall → TxTrace
  | [] => .done
  | call :: calls => .call (.veto call) 1 (emitLines call.events) (topLevel calls)

/-- The address of the program. -/
def programKey : Pubkey := Pubkey.ofBytes ((fromBase58 PROGRAM_ID.chars).getD [])

theorem display_programKey : programKey.display = String.ofList PROGRAM_ID.chars := by
  decide +kernel

/-- The answer of a node for them. -/
def answer (calls : List VetoCall) : RpcTransaction :=
  let keys := programKey :: calls.flatMap VetoCall.accounts
  { slot := some 5
    blockTime := some 20
    info := some {
      err := false
      logMessages := some ((topLevel calls).log PROGRAM_ID).lines
      loadedWritable := []
      loadedReadonly := [] }
    signatures := []
    message := {
      header := none
      staticAccountKeys := keys
      compiledInstructions := calls.map fun call =>
        ⟨0, call.accounts.map fun key => keys.idxOf key, call.data⟩ } }

theorem wellRun_topLevel {calls : List VetoCall}
    (h : ∀ call ∈ calls, call.instr.Runs call.events) : (topLevel calls).WellRun PROGRAM_ID := by
  induction calls with
  | nil => trivial
  | cons call calls ih =>
      obtain ⟨hcall, -⟩ := wellRun_oneCall (h call List.mem_cons_self)
      exact ⟨hcall, ih fun other hother => h other (List.mem_cons_of_mem _ hother)⟩

theorem top_topLevel (calls : List VetoCall) : (topLevel calls).top = calls.map .veto := by
  unfold TxTrace.top
  induction calls with
  | nil => rfl
  | cons call calls ih => rw [topLevel, CallTrace.topCalls, List.map_cons, ih, List.map_cons]

theorem answers_topLevel (calls : List VetoCall) :
    Answers PROGRAM_ID (answer calls) (topLevel calls) where
  logged := ⟨_, rfl, rfl, rfl⟩
  top := by
    have hkeys : (answer calls).keys =
        (programKey :: calls.flatMap VetoCall.accounts).map Pubkey.display := by
      unfold RpcTransaction.keys
      rw [show (answer calls).loadedWritable = [] from rfl,
        show (answer calls).loadedReadonly = [] from rfl, List.append_nil, List.append_nil]
      rfl
    rw [top_topLevel, hkeys]
    unfold answer
    dsimp only
    rw [List.forall₂_map_left_iff, List.forall₂_map_right_iff, List.forall₂_same]
    intro call hcall
    refine ⟨?_, ?_, rfl⟩
    · exact congrArg some display_programKey
    · rw [List.forall₂_map_left_iff]
      refine List.forall₂_same.mpr fun key hkey => ?_
      have hin : key ∈ programKey :: calls.flatMap VetoCall.accounts :=
        List.mem_cons_of_mem _ (List.mem_flatMap.mpr ⟨call, hcall, hkey⟩)
      rw [List.getElem?_map, List.getElem?_idxOf hin]
      rfl
  silent := by
    intro hcalls
    cases calls with
    | nil => rfl
    | cons call calls => cases hcalls

/-- After the payment, a charge to an account that is not the merchant's. -/
def strayCharge : MandateResult :=
  charge sampleRuntime 20 [2] { chargeAccounts with destination := 10 } 30 2
    (okValue sampleCharge sampleCharge_ok).2

theorem strayCharge_ok : strayCharge.toBool = true := rfl

def strayCall : VetoCall where
  instr := .charge (okValue sampleCharge sampleCharge_ok).2.key
    { chargeAccounts with destination := 10 } 30 2
  more := []
  trailing := []
  events := (okValue strayCharge strayCharge_ok).1.events.map .mandate

theorem strayCall_runs : strayCall.instr.Runs strayCall.events :=
  .charge (eq_ok_okValue_pair strayCharge strayCharge_ok)

/-- The refusal is shown with the destination of the payment before it. -/
theorem counterparty_of_first_charge :
    ∃ (tx : RpcTransaction) (t : TxTrace), Answers PROGRAM_ID tx t ∧ t.WellRun PROGRAM_ID ∧
      (decisionsFromTx (viewFromRpc tx "5h" 5) (String.ofList PROGRAM_ID.chars) none).map
          Decision.counterparty = [Pubkey.display 11, Pubkey.display 11] ∧
      t.charges.map (fun c => c.destination.display) =
        [Pubkey.display 11, Pubkey.display 10] := by
  refine ⟨answer [paidCall, strayCall], topLevel [paidCall, strayCall], answers_topLevel _,
    wellRun_topLevel ?_, ?_, ?_⟩
  · intro call hcall
    rcases List.mem_cons.mp hcall with rfl | hcall
    · exact paidCall_runs
    · rw [List.mem_singleton.mp hcall]
      exact strayCall_runs
  · decide +kernel
  · decide

/-- A payment alone is shown with its destination. -/
theorem counterparty_exact_iff_sample :
    List.Forall₂ (fun d c => d.counterparty = c.destination.display)
      (decisionsFromTx (viewFromRpc (answer [paidCall]) "5h" 5) (String.ofList PROGRAM_ID.chars)
        none)
      ((topLevel [paidCall]).charges.filter fun _ => true) := by
  have hrun : (topLevel [paidCall]).WellRun PROGRAM_ID := wellRun_topLevel fun call hcall => by
    rw [List.mem_singleton.mp hcall]
    exact paidCall_runs
  have hclaim := counterparty_exact_iff (answers_topLevel [paidCall]) hrun "5h" 5 none
  refine hclaim.2.1.mpr fun c hc => ?_
  have hcharges : (topLevel [paidCall]).charges = [⟨paidCall.accounts.getD 1 0, 11, 30, 1⟩] := by
    decide
  rw [hcharges] at hc
  rw [List.mem_singleton.mp hc]
  refine .inl ⟨.veto paidCall, ⟨[], [], ?_, ⟨⟨?_, ?_⟩, ?_, ?_⟩, ?_⟩, ?_⟩
  · rw [top_topLevel]
    rfl
  · decide
  · decide
  · decide
  · exact List.mem_of_getElem? (i := 1) rfl
  · exact fun j hj => absurd hj List.not_mem_nil
  · rfl

end Sample

end Sdk

end Veto

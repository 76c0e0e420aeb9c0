import Veto.Trade.Step
import Veto.Foundation.Meter
import Veto.Foundation.OneShot

/-!
# Runs of a trade rule

A run starts with a successful `open_trade_rule` and goes on with any trades,
overrides, revocations and outside changes, whatever the exchange does in each
call.  `TradeInv` ties the counters to the trades recorded so far, and an
override in force is traced back to the grant that set it.
-/

namespace Veto

open Foundation

abbrev TradeTransition := Transition TradeState TradeInput TradeOutput

abbrev TradeHistory := List TradeTransition

def tradedRecords (records : List TradeEntry) : List TradeEntry :=
  records.filter fun e => e.kind = .traded

def totalSold (records : List TradeEntry) : Nat := (records.map fun e => e.amountIn.toNat).sum

/-- What the owner pinned when the rule was opened. -/
structure TradeTerms where
  owner : Pubkey
  agent : Pubkey
  source : Pubkey
  destination : Pubkey
  inMint : Pubkey
  outMint : Pubkey
  exchangeProgram : Pubkey
  exchangeKind : UInt8
  pool : Pubkey
  poolAuthority : Pubkey
  poolInVault : Pubkey
  poolOutVault : Pubkey
  poolMint : Pubkey
  poolFeeAccount : Pubkey
  cap : UInt64
  perTradeMax : UInt64
  dailyLimit : UInt64
  floorNum : UInt64
  floorDen : UInt64
  expiresAt : Int64

def TradeRule.terms (rule : TradeRule) : TradeTerms where
  owner := rule.owner
  agent := rule.agent
  source := rule.source
  destination := rule.destination
  inMint := rule.inMint
  outMint := rule.outMint
  exchangeProgram := rule.exchangeProgram
  exchangeKind := rule.exchangeKind
  pool := rule.pool
  poolAuthority := rule.poolAuthority
  poolInVault := rule.poolInVault
  poolOutVault := rule.poolOutVault
  poolMint := rule.poolMint
  poolFeeAccount := rule.poolFeeAccount
  cap := rule.cap
  perTradeMax := rule.perTradeMax
  dailyLimit := rule.dailyLimit
  floorNum := rule.floorNum
  floorDen := rule.floorDen
  expiresAt := rule.expiresAt

/-- The terms that a call of `open_trade_rule` names. -/
def OpenTradeRule.terms (accts : OpenTradeRule) (args : OpenTradeRuleArgs) : TradeTerms where
  owner := accts.owner
  agent := args.agent
  source := accts.source
  destination := accts.destination
  inMint := accts.inMint
  outMint := accts.outMint
  exchangeProgram := accts.exchangeProgram
  exchangeKind := args.exchangeKind
  pool := accts.pool
  poolAuthority := accts.poolAuthority
  poolInVault := accts.poolInVault
  poolOutVault := accts.poolOutVault
  poolMint := accts.poolMint
  poolFeeAccount := accts.poolFeeAccount
  cap := args.cap
  perTradeMax := args.perTradeMax
  dailyLimit := args.dailyLimit
  floorNum := args.floorNum
  floorDen := args.floorDen
  expiresAt := args.expiresAt

@[simp] theorem TradeRule.terms_settle (rule : TradeRule) (buckets : TradeBuckets)
    (spent nonce : UInt64) : (rule.settle buckets spent nonce).terms = rule.terms := rfl

@[simp] theorem TradeRule.terms_refuse (rule : TradeRule) (reason : TradeReason) :
    (rule.refuse reason).terms = rule.terms := rfl

@[simp] theorem TradeRule.terms_grant (rule : TradeRule) (amountIn nonce : UInt64) :
    (rule.grant amountIn nonce).terms = rule.terms := rfl

@[simp] theorem TradeRule.terms_revoke (rule : TradeRule) : rule.revoke.terms = rule.terms := rfl

/-! ## Overrides -/

/-- The nonce and the amount of the override in force. -/
def TradeRule.pendingOverride (rule : TradeRule) : Option (UInt64 × UInt64) :=
  if rule.overrideNonce = 0 then none else some (rule.overrideNonce, rule.overrideAmount)

/-- A step by which the owner granted an override of this amount for this nonce. -/
structure TradeTransition.Grants (G : TradeTransition) (owner : Pubkey)
    (nonce amount : UInt64) : Prop where
  signed : owner ∈ G.input.signers
  instr : ∃ accts, G.input.instr = .grantTradeOverride accts amount nonce

theorem TradeRule.pendingOverride_eq_some {rule : TradeRule} {nonce amount : UInt64} :
    rule.pendingOverride = some (nonce, amount) ↔
      rule.overrideNonce ≠ 0 ∧ rule.overrideNonce = nonce ∧ rule.overrideAmount = amount :=
  pendingSlot_eq_some

/-- A trade consumes the override of its nonce and leaves any other in force. -/
theorem TradeRule.pendingOverride_settle {rule : TradeRule} {buckets : TradeBuckets}
    {spent nonce : UInt64} {pending : UInt64 × UInt64}
    (h : (rule.settle buckets spent nonce).pendingOverride = some pending) :
    rule.pendingOverride = some pending :=
  pendingSlot_pay h

/-- The ceiling of a trade is the rule's own, or the override in force for its nonce. -/
theorem TradeRule.le_effectivePerTradeMax {rule : TradeRule} {amountIn nonce : UInt64}
    (h : amountIn ≤ rule.effectivePerTradeMax nonce) :
    amountIn ≤ rule.perTradeMax ∨
      ∃ amount, rule.pendingOverride = some (nonce, amount) ∧ amountIn ≤ amount :=
  le_slotCeiling h

/-! ## One step -/

section Effect

variable {s s' : TradeState} {i : TradeInput} {o : TradeOutput}

theorem TradeEffect.terms_eq (h : TradeEffect s i o s') : s'.rule.terms = s.rule.terms := by
  cases h with
  | traded => exact TradeRule.terms_settle _ _ _ _
  | refused => exact TradeRule.terms_refuse _ _
  | granted => exact TradeRule.terms_grant _ _ _
  | revoked => exact TradeRule.terms_revoke _
  | outside => rfl

/-- An override comes into force by a grant of the owner, and not otherwise. -/
theorem TradeEffect.override_origin (h : TradeEffect s i o s') {pending : UInt64 × UInt64}
    (hpending : s'.rule.pendingOverride = some pending) :
    s.rule.pendingOverride = some pending ∨
      TradeTransition.Grants ⟨s, i, o, s'⟩ s.rule.owner pending.1 pending.2 := by
  cases h with
  | traded => exact .inl (TradeRule.pendingOverride_settle hpending)
  | refused => exact .inl hpending
  | granted instr signed =>
      obtain ⟨-, hnonce, hamount⟩ := TradeRule.pendingOverride_eq_some.mp hpending
      rw [← hnonce, ← hamount]
      exact .inr ⟨signed, _, instr⟩
  | revoked => cases hpending
  | outside => exact .inl hpending

/-- A trade is recorded with the clock of its step, before the expiry, while
the rule is active, and under the ceiling of its nonce. -/
theorem TradeEffect.traded_guard (h : TradeEffect s i o s') {e : TradeEntry}
    (he : e ∈ o.records) (hkind : e.kind = .traded) :
    e.ts = i.now ∧ i.now < s.rule.expiresAt ∧ s.rule.status = .active ∧
      e.amountIn ≤ s.rule.effectivePerTradeMax e.nonce := by
  cases h with
  | traded _ _ allowed _ _ _ observed _ _ _ _ _ hrecords =>
      rw [hrecords, List.mem_singleton] at he
      subst he
      exact ⟨rfl, allowed.unexpired, allowed.active,
        UInt64.le_trans observed allowed.ceiling⟩
  | refused _ _ _ _ hrecords =>
      rw [hrecords, List.mem_singleton] at he
      subst he
      cases hkind
  | granted _ _ _ _ _ _ _ hrecords =>
      rw [hrecords, List.mem_singleton] at he
      subst he
      cases hkind
  | revoked _ _ _ hrecords =>
      rw [hrecords, List.mem_singleton] at he
      subst he
      cases hkind
  | outside _ hrecords =>
      rw [hrecords] at he
      cases he

end Effect

/-! ## The invariant -/

/-- The counters agree with the trades recorded so far, latest first. -/
def TradeInv (records : List TradeEntry) (rule : TradeRule) : Prop :=
  Metered (fun e : TradeEntry => e.amountIn.toNat) (fun e => e.nonce.toNat)
    (tradedRecords records) rule.cap.toNat rule.spent.toNat rule.lastNonce.toNat

/-- Every step keeps the invariant.  The debit is at most what the policy
counted, so the cap that held for the request holds for the debit. -/
theorem TradeInv.step {records : List TradeEntry} {s s' : TradeState} {i : TradeInput}
    {o : TradeOutput} (h : TradeInv records s.rule) (heff : TradeEffect s i o s') :
    TradeInv (o.records.reverse ++ records) s'.rule := by
  cases heff with
  | @traded accts requested minOut nonce bound amountIn amountOut spent exchange source buckets w o
      _ _ allowed _ _ _ observed _ _ _ _ total hrecords =>
      rw [hrecords]
      have htraded : tradedRecords
          (tradedEntry i.now s.rule.pool amountIn amountOut minOut nonce :: records) =
          tradedEntry i.now s.rule.pool amountIn amountOut minOut nonce :: tradedRecords records :=
        List.filter_cons_of_pos rfl
      have room : spent.toNat ≤ s.rule.cap.toNat := by
        obtain ⟨counted, hcounted, hcap⟩ := allowed.capped
        rw [checkedAdd_eq_some] at hcounted
        rw [UInt64.le_iff_toNat_le] at hcap observed
        omega
      have hpay := Metered.pay
        (p := tradedEntry i.now s.rule.pool amountIn amountOut minOut nonce) h
        (UInt64.lt_iff_toNat_lt.mp allowed.fresh) total room
      rw [← htraded] at hpay
      exact hpay
  -- The other steps write no trade and keep the three counters.
  | refused _ _ _ _ hrecords =>
      rw [hrecords]
      exact h
  | granted _ _ _ _ _ _ _ hrecords =>
      rw [hrecords]
      exact h
  | revoked _ _ _ hrecords =>
      rw [hrecords]
      exact h
  | outside _ hrecords =>
      rw [hrecords]
      exact h

/-! ## Opening -/

/-- A rule that was opened carries the terms it was opened with, and nothing else yet. -/
theorem openTradeRule_ok {rt : Runtime} {now : Int64} {signers : List Pubkey}
    {accts : OpenTradeRule} {args : OpenTradeRuleArgs} {w : World} {o : TradeOutput}
    {s : TradeState} (h : openTradeRule rt now signers accts args w = .ok (o, s)) :
    (∃ bump, s.rule = freshRule accts args bump) ∧
      o.records = [tradeOpenedEntry now args.cap accts.pool] := by
  unfold openTradeRule at h
  simp only [vacant, classicProgram] at h
  simp only [↓signer_bind_ok_iff, ↓require_bind_ok_iff, bind_ok_iff] at h
  obtain ⟨-, -, -, -, -, source, -, destination, -, inMint, -, outMint, -, h⟩ := h
  obtain ⟨-, -, -, -, -, -, -, -, -, -, -, -, -, -, -, h⟩ := h
  obtain ⟨_, -, -, w', -, h⟩ := h
  cases h
  exact ⟨⟨_, rfl⟩, rfl⟩

theorem TradeInv.opened {rt : Runtime} {now : Int64} {signers : List Pubkey}
    {accts : OpenTradeRule} {args : OpenTradeRuleArgs} {w : World} {o : TradeOutput}
    {s : TradeState} (h : openTradeRule rt now signers accts args w = .ok (o, s)) :
    TradeInv o.records s.rule := by
  obtain ⟨⟨bump, hrule⟩, hrecords⟩ := openTradeRule_ok h
  rw [hrule, hrecords]
  exact Metered.start

/-! ## Whole runs -/

section Run

variable {rt : Runtime} {s₀ s : TradeState} {h : TradeHistory}

theorem TradeRule.terms_of_run (run : Run (TradeStep rt) s₀ h s) :
    s.rule.terms = s₀.rule.terms :=
  run.preserves (P := fun s => s.rule.terms = s₀.rule.terms)
    (fun _ _ _ _ hs hstep => (TradeStep.effect hstep).terms_eq.trans hs) rfl

theorem TradeInv.run {opening : List TradeEntry} (run : Run (TradeStep rt) s₀ h s)
    (start : TradeInv opening s₀.rule) : TradeInv (written h ++ opening) s.rule := by
  refine run.carries (P := fun h s => TradeInv (written h ++ opening) s.rule) start ?_
  intro h s i o s' _ ih hstep
  rw [written_cons, List.append_assoc]
  exact ih.step (TradeStep.effect hstep)

/-- The override in force was granted by the owner earlier in the run. -/
theorem granted_of_run (run : Run (TradeStep rt) s₀ h s) (start : s₀.rule.pendingOverride = none)
    {nonce amount : UInt64} (hpending : s.rule.pendingOverride = some (nonce, amount)) :
    ∃ G ∈ h, TradeTransition.Grants G s₀.rule.owner nonce amount := by
  obtain ⟨G, hG, hgrants⟩ := run.origin
    (fun s => s.rule.pendingOverride)
    (fun G pending => TradeTransition.Grants G G.pre.rule.owner pending.1 pending.2)
    (fun _ _ _ _ _ hstep hpost => (TradeStep.effect hstep).override_origin hpost) start hpending
  obtain ⟨_, _, _, before, _, _⟩ := run.of_mem hG
  have howner : G.pre.rule.owner = s₀.rule.owner :=
    congrArg TradeTerms.owner (TradeRule.terms_of_run before)
  rw [howner] at hgrants
  exact ⟨G, hG, hgrants⟩

end Run

/-- **The trade rule run invariant.**  Whatever is traded, granted or revoked
after a successful `open_trade_rule`, at any clock readings and whatever the
exchange does: the input spent is the input recorded as sold and stays within
the cap; trades carry increasing nonces, and each was made in time, on an active
rule, and below the per-trade maximum or under an override that the owner had
granted for its nonce and that no other trade can use; and what was pinned at
open stays pinned. -/
theorem trade_run_invariant {rt : Runtime} {now : Int64} {signers : List Pubkey}
    {accts : OpenTradeRule} {args : OpenTradeRuleArgs} {w : World} {opening : TradeOutput}
    {s₀ s : TradeState} {h : TradeHistory}
    (hopen : openTradeRule rt now signers accts args w = .ok (opening, s₀))
    (run : Run (TradeStep rt) s₀ h s) :
    let traded := tradedRecords (written h ++ opening.records)
    s.rule.spent ≤ s.rule.cap ∧
    s.rule.spent.toNat = totalSold traded ∧
    (traded.map TradeEntry.nonce).Pairwise (· > ·) ∧
    s.rule.lastNonce = (traded.map TradeEntry.nonce).headD 0 ∧
    (∀ newer T older, h = newer ++ T :: older → ∀ e ∈ T.output.records, e.kind = .traded →
      (e.amountIn ≤ args.perTradeMax ∨
        (∃ G ∈ older, ∃ amount, TradeTransition.Grants G accts.owner e.nonce amount ∧
          e.amountIn ≤ amount) ∧
        traded.filter (fun e' => e'.nonce = e.nonce) = [e]) ∧
      e.ts = T.input.now ∧ T.input.now < args.expiresAt ∧ T.pre.rule.status = .active) ∧
    (∀ T ∈ h, T.pre.rule.terms = accts.terms args) ∧
    s.rule.terms = accts.terms args := by
  have inv := (TradeInv.opened hopen).run run
  obtain ⟨⟨bump, hrule⟩, -⟩ := openTradeRule_ok hopen
  have hterms : s₀.rule.terms = accts.terms args := by
    rw [hrule]
    rfl
  have hnone : s₀.rule.pendingOverride = none := by
    rw [hrule]
    rfl
  refine ⟨Metered.le_cap inv, Metered.total inv, Metered.pairwise_nonce inv,
    Metered.last_eq inv, ?_, ?_, (TradeRule.terms_of_run run).trans hterms⟩
  · rintro newer T older rfl e he hkind
    obtain ⟨before, hstep, -⟩ := run.split
    have hpinned := (TradeRule.terms_of_run before).trans hterms
    have hmax : T.pre.rule.perTradeMax = args.perTradeMax :=
      congrArg TradeTerms.perTradeMax hpinned
    have hexpires : T.pre.rule.expiresAt = args.expiresAt := congrArg TradeTerms.expiresAt hpinned
    have howner : s₀.rule.owner = accts.owner := congrArg TradeTerms.owner hterms
    obtain ⟨hts, unexpired, active, ceiling⟩ :=
      (TradeStep.effect hstep).traded_guard he hkind
    rw [hexpires] at unexpired
    refine ⟨?_, hts, unexpired, active⟩
    rcases TradeRule.le_effectivePerTradeMax ceiling with hbelow | ⟨amount, hpending, hcovered⟩
    · rw [hmax] at hbelow
      exact .inl hbelow
    · obtain ⟨G, hG, hgrants⟩ := granted_of_run before hnone hpending
      rw [howner] at hgrants
      have hmem : e ∈ tradedRecords (written (newer ++ T :: older) ++ opening.records) := by
        refine List.mem_filter.mpr ⟨List.mem_append_left _ ?_, decide_eq_true hkind⟩
        exact List.mem_flatMap.mpr ⟨T, List.mem_append_right _ List.mem_cons_self,
          List.mem_reverse.mpr he⟩
      have honly := Metered.filter_nonce inv hmem
      simp only [UInt64.toNat_inj] at honly
      exact .inr ⟨⟨G, hG, amount, hgrants, hcovered⟩, honly⟩
  · intro T hT
    obtain ⟨_, _, _, before, _, _⟩ := run.of_mem hT
    exact (TradeRule.terms_of_run before).trans hterms

/-! ### One such run -/

section Sample

/-- Addresses 100 and 101 for the rule and its ledger, 21 for the pool's authority. -/
def tradeRuntime : Runtime :=
  .classic fun seeds => match seeds with
    | .text "trade" :: _ => 100
    | .text "trade-ledger" :: _ => 101
    | _ => 21

/-- The pool at 20, with vaults 22 and 23, mint 24 and fee account 25. -/
def samplePool : List UInt8 :=
  [1, 1, 255] ++ ([splTokenId, 22, 23, 24, 3, 4, 25] : List Pubkey).flatMap Pubkey.toBytes ++
    expectedFees.flatMap leBytes ++ List.replicate 33 0

/-- Owner 1 holds 500 of mint 3 in account 10, and account 11 of mint 4. -/
def tradeWorld : World := fun k =>
  if k = 3 ∨ k = 4 ∨ k = 24 then some ⟨splTokenId, .mint ⟨6⟩⟩
  else if k = 10 then some ⟨splTokenId, .token ⟨3, 1, 500, none, 0, false⟩⟩
  else if k = 11 then some ⟨splTokenId, .token ⟨4, 1, 0, none, 0, false⟩⟩
  else if k = 20 then some ⟨SPL_TOKEN_SWAP_ID, .bytes samplePool⟩
  else if k = 22 then some ⟨splTokenId, .token ⟨3, 21, 1000000, none, 0, false⟩⟩
  else if k = 23 then some ⟨splTokenId, .token ⟨4, 21, 2000000, none, 0, false⟩⟩
  else if k = 25 then some ⟨splTokenId, .token ⟨24, 5, 0, none, 0, false⟩⟩
  else none

/-- A cap of 100, at most 90 a day and 40 a trade, for agent 2, until second 1000. -/
def tradeOpen : TradeResult :=
  openTradeRule tradeRuntime 10 [1]
    { owner := 1, rule := 100, ledger := 101, source := 10, destination := 11, inMint := 3,
      outMint := 4, exchangeProgram := SPL_TOKEN_SWAP_ID, pool := 20, poolAuthority := 21,
      poolInVault := 22, poolOutVault := 23, poolMint := 24, poolFeeAccount := 25,
      tokenProgram := splTokenId }
    { ruleId := 7, agent := 2, exchangeKind := 0, cap := 100, perTradeMax := 40,
      dailyLimit := 90, floorNum := 1, floorDen := 1, expiresAt := 1000, purpose := "rebalance" }
    tradeWorld

set_option maxRecDepth 20000 in
theorem tradeOpen_ok : tradeOpen.toBool = true := by decide

/-- An exchange that takes `debit` from the rule's source and pays `credit`. -/
def sampleSwap (debit credit : UInt64) : Callee := fun _ w =>
  (classicTransfer splTokenId w ⟨10, 22, 100, 3⟩ debit 6).bind fun w =>
    classicTransfer splTokenId w ⟨23, 11, 21, 4⟩ credit 6

/-- A trade, a refusal above the ceiling, the override that clears it, and its
trade, of which the curve leaves one unit. -/
def tradeInputs : List TradeInput :=
  let accts : Trade :=
    { agent := 2, ledger := 101, source := 10, destination := 11,
      exchangeProgram := SPL_TOKEN_SWAP_ID, pool := 20, poolAuthority := 21, poolInVault := 22,
      poolOutVault := 23, poolMint := 24, poolFeeAccount := 25, tokenProgram := splTokenId,
      remainingAccounts := [] }
  [ { now := 20, signers := [2], instr := .trade accts 30 0 1 (sampleSwap 30 55) },
    { now := 30, signers := [2], instr := .trade accts 50 0 2 (sampleSwap 50 95) },
    { now := 40, signers := [1], instr := .grantTradeOverride ⟨1, 101⟩ 50 2 },
    { now := 50, signers := [2], instr := .trade accts 50 0 2 (sampleSwap 49 95) },
    { now := 60, signers := [1], instr := .revokeTradeRule ⟨1, 101, 10, splTokenId⟩ } ]

def tradeRun : Except ProgramError (TradeHistory × TradeState) :=
  execAll (TradeState.exec tradeRuntime) [] (okValue tradeOpen tradeOpen_ok).2 tradeInputs

set_option maxRecDepth 20000 in
theorem tradeRun_ok : tradeRun.toBool = true := by decide

theorem tradeRun_run : Run (TradeStep tradeRuntime) (okValue tradeOpen tradeOpen_ok).2
    (okValue tradeRun tradeRun_ok).1 (okValue tradeRun tradeRun_ok).2 :=
  run_okValue tradeRun_ok

set_option maxRecDepth 20000 in
/-- In the sample run the two debits of 30 and 49 are what was spent. -/
theorem trade_run_invariant_sample :
    let opening := (okValue tradeOpen tradeOpen_ok).1
    let h := (okValue tradeRun tradeRun_ok).1
    let s := (okValue tradeRun tradeRun_ok).2
    s.rule.spent.toNat = totalSold (tradedRecords (written h ++ opening.records)) ∧
    s.rule.spent = 79 ∧ s.rule.status = .revoked :=
  ⟨(trade_run_invariant (eq_ok_okValue_pair tradeOpen tradeOpen_ok) tradeRun_run).2.1,
    by decide, by decide⟩

end Sample

end Veto

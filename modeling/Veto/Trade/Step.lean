import Veto.Trade.Instructions

/-!
# What one trade instruction can do

`TradeRule.Allows` lists what the policy has checked when it lets a trade
through, and `TradeEffect` every way a step can change a trade rule.
`TradeStep.effect` reads the second off the instructions once.
-/

namespace Veto

open Foundation

theorem balance_of_unpackToken {w : World} {k : Pubkey} {a : TokenAccount}
    (h : unpackToken w k = .ok a) : w.balance k = a.amount.toNat := by
  unfold unpackToken at h
  split at h
  · rename_i owner token hk
    rw [World.balance_eq (World.tokenAt_eq hk)]
    split at h
    · cases h
      rfl
    · cases h
  · cases h

/-! ## The policy -/

/-- What the policy has checked about a trade it lets through. -/
structure TradeRule.Allows (rule : TradeRule) (ruleKey : Pubkey) (source : TokenAccount)
    (accts : Trade) (w : World) (amountIn nonce : UInt64) (now : Int64) : Prop where
  active : rule.status = .active
  unexpired : now < rule.expiresAt
  positive : amountIn ≠ 0
  fresh : rule.lastNonce < nonce
  destination : accts.destination = rule.destination
  pinned : ∀ got ∈ rule.pinned accts, got.1 = got.2
  ceiling : amountIn ≤ rule.effectivePerTradeMax nonce
  daily : ∃ windowSpent total, Veto.spent rule.dailyBuckets now = some windowSpent ∧
    checkedAdd windowSpent amountIn = some total ∧ total ≤ rule.dailyLimit
  capped : ∃ total, checkedAdd rule.spent amountIn = some total ∧ total ≤ rule.cap
  delegated : source.delegate = some ruleKey
  funded : amountIn ≤ source.delegatedAmount ∧ amountIn ≤ source.amount
  quoted : ∃ inVault outVault, unpackToken w accts.poolInVault = .ok inVault ∧
    unpackToken w accts.poolOutVault = .ok outVault ∧
    spotBelowFloor amountIn inVault.amount outVault.amount rule.floorNum rule.floorDen = false
  thawed : source.isFrozen = false ∧ ∃ destination,
    unpackToken w accts.destination = .ok destination ∧ destination.isFrozen = false

/-- A verdict of one reason came from beyond the refusals of other reasons. -/
theorem refusal_eq_ok_iff {broken : Prop} [Decidable broken] {refusal verdict : Verdict}
    {reason : TradeReason} {next : Except ProgramError Verdict}
    (hrefusal : refusal.reason ≠ reason) (hreason : verdict.reason = reason) :
    (if broken then .ok refusal else next) = .ok verdict ↔ ¬ broken ∧ next = .ok verdict := by
  by_cases h : broken
  · rw [if_pos h]
    constructor
    · intro heq
      cases heq
      exact absurd hreason hrefusal
    · intro hnot
      exact absurd h hnot.1
  · rw [if_neg h]
    exact ⟨fun heq => ⟨h, heq⟩, fun hand => hand.2⟩

theorem any_le_eq_true {total : Option UInt64} {limit : UInt64} :
    total.any (· ≤ limit) = true ↔ ∃ t, total = some t ∧ t ≤ limit := by
  cases total <;> simp

theorem TradeRule.allows_of_evaluate {rule : TradeRule} {ruleKey : Pubkey} {source : TokenAccount}
    {accts : Trade} {w : World} {amountIn nonce : UInt64} {now : Int64} {verdict : Verdict}
    (h : rule.evaluate ruleKey source accts w amountIn nonce now = .ok verdict)
    (hok : verdict.reason = .ok) : rule.Allows ruleKey source accts w amountIn nonce now := by
  unfold TradeRule.evaluate at h
  have refused (reason : TradeReason) (hreason : reason ≠ .ok) :
      (rule.poolVerdict reason).reason ≠ .ok := hreason
  rw [refusal_eq_ok_iff (refused _ (by decide)) hok, refusal_eq_ok_iff (refused _ (by decide)) hok,
    refusal_eq_ok_iff (refused _ (by decide)) hok, refusal_eq_ok_iff (refused _ (by decide)) hok,
    refusal_eq_ok_iff TradeReason.noConfusion hok] at h
  obtain ⟨active, unexpired, positive, fresh, destination, h⟩ := h
  split at h
  · cases h
    cases hok
  rename_i hpinned
  rw [refusal_eq_ok_iff (refused _ (by decide)) hok] at h
  obtain ⟨ceiling, h⟩ := h
  obtain ⟨windowSpent, hwindow, h⟩ := bind_ok_iff.mp h
  rw [TradeRule.currentWindowSpent, okOr_eq_ok] at hwindow
  rw [refusal_eq_ok_iff (refused _ (by decide)) hok, refusal_eq_ok_iff (refused _ (by decide)) hok,
    refusal_eq_ok_iff (refused _ (by decide)) hok, refusal_eq_ok_iff (refused _ (by decide)) hok]
    at h
  obtain ⟨daily, capped, delegated, funded, h⟩ := h
  obtain ⟨inVault, hin, h⟩ := bind_ok_iff.mp h
  obtain ⟨outVault, hout, h⟩ := bind_ok_iff.mp h
  rw [refusal_eq_ok_iff (refused _ (by decide)) hok] at h
  obtain ⟨quoted, h⟩ := h
  obtain ⟨dest, hdest, h⟩ := bind_ok_iff.mp h
  rw [refusal_eq_ok_iff (refused _ (by decide)) hok] at h
  obtain ⟨thawed, -⟩ := h
  rw [not_not, any_le_eq_true] at daily capped
  simp only [not_or, UInt64.not_lt, Bool.not_eq_true] at funded thawed
  obtain ⟨total, htotal, hlimit⟩ := daily
  constructor
  · exact not_not.mp active
  · exact Int64.not_le.mp unexpired
  · exact positive
  · exact UInt64.not_le.mp fresh
  · exact not_not.mp destination
  · intro got hgot
    have hsame := List.find?_eq_none.mp hpinned got hgot
    simpa using hsame
  · exact UInt64.not_lt.mp ceiling
  · exact ⟨windowSpent, total, hwindow, htotal, hlimit⟩
  · exact capped
  · exact not_not.mp delegated
  · exact funded
  · exact ⟨inVault, outVault, hin, hout, Bool.not_eq_true _ ▸ quoted⟩
  · exact ⟨thawed.1, dest, hdest, thawed.2⟩

/-! ## Steps -/

/-- Every way one step can change a trade rule. -/
inductive TradeEffect (s : TradeState) (i : TradeInput) : TradeOutput → TradeState → Prop
  | traded {accts : Trade} {requested minOut nonce bound amountIn amountOut spent : UInt64}
      {exchange : Callee} {source : TokenAccount} {buckets : TradeBuckets} {w : World}
      {o : TradeOutput}
      (instr : i.instr = .trade accts requested minOut nonce exchange)
      (signed : s.rule.agent ∈ i.signers)
      (allowed : s.rule.Allows s.key source accts s.world requested nonce i.now)
      (floor : floorBound requested s.rule.floorNum s.rule.floorDen = .ok bound)
      (called : exchange (accts.swapExactIn s.key requested (max minOut bound)) s.world = some w)
      (positive : 0 < amountIn)
      (observed : amountIn ≤ requested)
      (debited : s.world.balance accts.source = w.balance accts.source + amountIn.toNat)
      (credited : w.balance accts.destination =
        s.world.balance accts.destination + amountOut.toNat)
      (enough : max minOut bound ≤ amountOut)
      (committed : commit s.rule.dailyBuckets amountIn i.now = (some (), buckets))
      (total : spent.toNat = s.rule.spent.toNat + amountIn.toNat)
      (records : o.records = [tradedEntry i.now s.rule.pool amountIn amountOut minOut nonce]) :
      TradeEffect s i o
        { s with
          rule := s.rule.settle buckets spent nonce
          ledger := s.ledger.record
            (tradedEntry i.now s.rule.pool amountIn amountOut minOut nonce)
          world := w }
  | refused {accts : Trade} {amountIn minOut nonce suggestion : UInt64} {exchange : Callee}
      {verdict : Verdict} {o : TradeOutput}
      (instr : i.instr = .trade accts amountIn minOut nonce exchange)
      (signed : s.rule.agent ∈ i.signers)
      (broken : verdict.reason ≠ .ok)
      (suggested : s.rule.suggestedOverride verdict.reason amountIn i.now = .ok suggestion)
      (records : o.records = [tradeRefusedEntry i.now verdict.counterparty amountIn minOut nonce
        suggestion verdict.reason]) :
      TradeEffect s i o
        { s with
          rule := s.rule.refuse verdict.reason
          ledger := s.ledger.record (tradeRefusedEntry i.now verdict.counterparty amountIn minOut
            nonce suggestion verdict.reason) }
  | granted {accts : GrantTradeOverride} {amountIn nonce : UInt64} {o : TradeOutput}
      (instr : i.instr = .grantTradeOverride accts amountIn nonce)
      (signed : s.rule.owner ∈ i.signers)
      (named : nonce ≠ 0)
      (positive : 0 < amountIn)
      (active : s.rule.status = .active)
      (fresh : s.rule.lastNonce < nonce)
      (capped : amountIn ≤ s.rule.remaining)
      (records : o.records = [tradeOverrideEntry i.now s.rule.pool amountIn nonce]) :
      TradeEffect s i o
        { s with
          rule := s.rule.grant amountIn nonce
          ledger := s.ledger.record (tradeOverrideEntry i.now s.rule.pool amountIn nonce) }
  | revoked {accts : RevokeTradeRule} {w : World} {o : TradeOutput}
      (instr : i.instr = .revokeTradeRule accts)
      (signed : s.rule.owner ∈ i.signers)
      (live : s.rule.status ≠ .revoked)
      (records : o.records = [tradeRevokedEntry i.now s.rule.pool]) :
      TradeEffect s i o
        { s with
          rule := s.rule.revoke
          ledger := s.ledger.record (tradeRevokedEntry i.now s.rule.pool)
          world := w }
  | outside {w : World} {o : TradeOutput}
      (instr : i.instr = .outside w)
      (records : o.records = []) :
      TradeEffect s i o { s with world := w }

section Reading

variable {rt : Runtime} {s s' : TradeState} {i : TradeInput} {o : TradeOutput}

theorem Trade.load_eq_ok {accts : Trade} {signers : List Pubkey} {source : TokenAccount}
    (h : accts.load rt signers s = .ok source) :
    s.rule.agent ∈ signers ∧ s.world.splToken accts.source = .ok source := by
  unfold Trade.load classicProgram at h
  simp only [↓signer_bind_ok_iff, ↓require_bind_ok_iff, bind_ok_iff] at h
  obtain ⟨hsigner, hagent, -, -, source', hsource, -, h⟩ := h
  cases h
  rw [hagent]
  exact ⟨hsigner, hsource⟩

theorem effect_of_settleTrade {accts : Trade} {source : TokenAccount}
    {requested minOut nonce : UInt64} {exchange : Callee}
    (instr : i.instr = .trade accts requested minOut nonce exchange)
    (signed : s.rule.agent ∈ i.signers) (hsource : s.world.splToken accts.source = .ok source)
    (allowed : s.rule.Allows s.key source accts s.world requested nonce i.now)
    (h : s.settleTrade accts source requested minOut nonce i.now exchange = .ok (o, s')) :
    TradeEffect s i o s' := by
  unfold TradeState.settleTrade at h
  simp only [↓require_bind_ok_iff] at h
  obtain ⟨-, -, h⟩ := h
  obtain ⟨bound, floor, h⟩ := bind_ok_iff.mp h
  obtain ⟨destBefore, hbefore, h⟩ := bind_ok_iff.mp h
  obtain ⟨w, called, h⟩ := bind_ok_iff.mp h
  obtain ⟨sourceAfter, hafter, h⟩ := bind_ok_iff.mp h
  obtain ⟨destAfter, hdest, h⟩ := bind_ok_iff.mp h
  obtain ⟨amountIn, hdebit, h⟩ := bind_ok_iff.mp h
  obtain ⟨amountOut, hcredit, h⟩ := bind_ok_iff.mp h
  obtain ⟨enough, h⟩ := require_bind_ok_iff.mp h
  obtain ⟨_, hcommit, h⟩ := bind_ok_iff.mp h
  obtain ⟨spent, hspent, h⟩ := bind_ok_iff.mp h
  obtain ⟨windowSpent, -, h⟩ := bind_ok_iff.mp h
  rw [okOr_eq_ok] at called hdebit hcredit hcommit hspent
  rw [Option.filter_eq_some_iff, decide_eq_true_eq] at hdebit
  obtain ⟨hdebit, positive, observed⟩ := hdebit
  have debited : s.world.balance accts.source = w.balance accts.source + amountIn.toNat := by
    rw [World.balance_of_load hsource, World.balance_of_load hafter]
    exact checkedSub_eq_some.mp hdebit
  have credited : w.balance accts.destination =
      s.world.balance accts.destination + amountOut.toNat := by
    rw [balance_of_unpackToken hdest, balance_of_unpackToken hbefore]
    exact checkedSub_eq_some.mp hcredit
  cases h
  exact .traded instr signed allowed floor called positive observed debited credited enough
    (Prod.ext hcommit rfl) (checkedAdd_eq_some.mp hspent) rfl

theorem effect_of_trade {accts : Trade} {amountIn minOut nonce : UInt64} {exchange : Callee}
    (instr : i.instr = .trade accts amountIn minOut nonce exchange)
    (h : trade rt i.now i.signers accts amountIn minOut nonce exchange s = .ok (o, s')) :
    TradeEffect s i o s' := by
  unfold trade at h
  obtain ⟨source, hload, h⟩ := bind_ok_iff.mp h
  obtain ⟨-, h⟩ := require_bind_ok_iff.mp h
  obtain ⟨expected, -, h⟩ := bind_ok_iff.mp h
  obtain ⟨-, h⟩ := require_bind_ok_iff.mp h
  obtain ⟨verdict, hverdict, h⟩ := bind_ok_iff.mp h
  obtain ⟨signed, hsource⟩ := Trade.load_eq_ok hload
  by_cases hok : verdict.reason = .ok
  · rw [if_pos hok] at h
    exact effect_of_settleTrade instr signed hsource (TradeRule.allows_of_evaluate hverdict hok) h
  · rw [if_neg hok] at h
    unfold TradeState.recordRefusal at h
    obtain ⟨suggestion, suggested, h⟩ := bind_ok_iff.mp h
    obtain ⟨windowSpent, -, h⟩ := bind_ok_iff.mp h
    cases h
    exact .refused instr signed hok suggested rfl

theorem effect_of_grantTradeOverride {accts : GrantTradeOverride} {amountIn nonce : UInt64}
    (instr : i.instr = .grantTradeOverride accts amountIn nonce)
    (h : grantTradeOverride rt i.now i.signers accts amountIn nonce s = .ok (o, s')) :
    TradeEffect s i o s' := by
  unfold grantTradeOverride at h
  obtain ⟨_, hload, h⟩ := bind_ok_iff.mp h
  simp only [↓require_bind_ok_iff] at h
  obtain ⟨named, positive, active, fresh, capped, h⟩ := h
  unfold GrantTradeOverride.load at hload
  obtain ⟨hsigner, hload⟩ := signer_bind_ok_iff.mp hload
  obtain ⟨howner, -⟩ := require_bind_ok_iff.mp hload
  rw [← howner] at hsigner
  cases h
  exact .granted instr hsigner named positive active fresh capped rfl

theorem effect_of_revokeTradeRule {accts : RevokeTradeRule}
    (instr : i.instr = .revokeTradeRule accts)
    (h : revokeTradeRule rt i.now i.signers accts s = .ok (o, s')) : TradeEffect s i o s' := by
  unfold revokeTradeRule at h
  obtain ⟨source, hload, h⟩ := bind_ok_iff.mp h
  obtain ⟨live, h⟩ := require_bind_ok_iff.mp h
  obtain ⟨w, -, h⟩ := bind_ok_iff.mp h
  unfold RevokeTradeRule.load at hload
  obtain ⟨hsigner, hload⟩ := signer_bind_ok_iff.mp hload
  obtain ⟨howner, -⟩ := require_bind_ok_iff.mp hload
  rw [← howner] at hsigner
  cases h
  exact .revoked instr hsigner live rfl

end Reading

/-- A step does one of the things `TradeEffect` lists. -/
theorem TradeStep.effect {rt : Runtime} {s s' : TradeState} {i : TradeInput} {o : TradeOutput}
    (h : TradeStep rt s i o s') : TradeEffect s i o s' := by
  unfold TradeStep TradeState.exec at h
  cases hi : i.instr with
  | trade accts amountIn minOut nonce exchange =>
      rw [hi] at h
      exact effect_of_trade hi h
  | grantTradeOverride accts amountIn nonce =>
      rw [hi] at h
      exact effect_of_grantTradeOverride hi h
  | revokeTradeRule accts =>
      rw [hi] at h
      exact effect_of_revokeTradeRule hi h
  | outside w =>
      rw [hi] at h
      cases h
      exact .outside hi rfl

end Veto

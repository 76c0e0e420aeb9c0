import Veto.Trade.Run

/-!
# What a refused trade suggests

As for a charge, a refused trade records the one-shot ceiling that would clear it: its input,
where the per-trade maximum is the first rule the trade breaks and both the cap and the day
have room.  The delegation, the funds, the floor and the exchange come after the maximum.
-/

namespace Veto

open Foundation

/-- The per-trade maximum is the first rule the trade breaks, and cap and day have room. -/
structure Trade.OverMaximum (accts : Trade) (s : TradeState) (amountIn nonce : UInt64)
    (now : Int64) : Prop where
  active : s.rule.status = .active
  unexpired : now < s.rule.expiresAt
  positive : amountIn ≠ 0
  fresh : s.rule.lastNonce < nonce
  destination : accts.destination = s.rule.destination
  pinned : ∀ got ∈ s.rule.pinned accts, got.1 = got.2
  above : s.rule.effectivePerTradeMax nonce < amountIn
  room : amountIn ≤ s.rule.remaining
  today : ∃ windowSpent, Veto.spent s.rule.dailyBuckets now = some windowSpent ∧
    amountIn ≤ saturatingSub s.rule.dailyLimit windowSpent

/-- The exchange takes some of the input and no more than asked, pays the least output, and
the bucket of the hour has room for what it took. -/
structure Trade.Swaps (accts : Trade) (s : TradeState) (source : TokenAccount)
    (amountIn minOut : UInt64) (now : Int64) (exchange : Callee) (debit amountOut : UInt64)
    (buckets : TradeBuckets) (w : World) : Prop where
  called : ∃ bound, floorBound amountIn s.rule.floorNum s.rule.floorDen = .ok bound ∧
    exchange (accts.swapExactIn s.key amountIn (max minOut bound)) s.world = some w ∧
    max minOut bound ≤ amountOut
  debited : ∃ sourceAfter, w.reloadToken accts.source = .ok sourceAfter ∧
    checkedSub source.amount sourceAfter.amount = some debit
  credited : ∃ before after, unpackToken s.world accts.destination = .ok before ∧
    unpackToken w accts.destination = .ok after ∧
    checkedSub after.amount before.amount = some amountOut
  positive : 0 < debit
  asked : debit ≤ amountIn
  committed : commit s.rule.dailyBuckets debit now = (some (), buckets)

/-- What the rules behind the per-trade maximum and the exchange ask. -/
structure Trade.Tradable (accts : Trade) (s : TradeState) (source : TokenAccount)
    (amountIn minOut : UInt64) (now : Int64) (exchange : Callee) : Prop where
  delegated : source.delegate = some s.key
  funded : amountIn ≤ source.delegatedAmount ∧ amountIn ≤ source.amount
  quoted : ∃ inVault outVault, unpackToken s.world accts.poolInVault = .ok inVault ∧
    unpackToken s.world accts.poolOutVault = .ok outVault ∧
    spotBelowFloor amountIn inVault.amount outVault.amount s.rule.floorNum s.rule.floorDen = false
  thawed : source.isFrozen = false ∧ ∃ destination,
    unpackToken s.world accts.destination = .ok destination ∧ destination.isFrozen = false
  swaps : ∃ debit amountOut buckets w,
    accts.Swaps s source amountIn minOut now exchange debit amountOut buckets w

/-- A request for a trade, with what the exchange does when it is called. -/
structure TradeRequest where
  signers : List Pubkey
  accts : Trade
  amountIn : UInt64
  minOut : UInt64
  nonce : UInt64
  exchange : Callee

def TradeRequest.submit (r : TradeRequest) (rt : Runtime) (now : Int64) (s : TradeState) :
    TradeResult :=
  trade rt now r.signers r.accts r.amountIn r.minOut r.nonce r.exchange s

/-- Once the owner has granted an override of `granted` for the nonce, the same request at the
same clock reading trades. -/
def TradeState.ClearedBy (rt : Runtime) (now : Int64) (r : TradeRequest) (s : TradeState)
    (granted : UInt64) : Prop :=
  ∃ owners action o₁ s₁ o₂ s₂,
    grantTradeOverride rt now owners action granted r.nonce s = .ok (o₁, s₁) ∧
    r.submit rt now s₁ = .ok (o₂, s₂) ∧ ∃ e ∈ o₂.records, e.kind = .traded

/-! ## The policy around the maximum -/

section Policy

variable {rule : TradeRule} {ruleKey : Pubkey} {source : TokenAccount} {accts : Trade} {w : World}
  {amountIn nonce : UInt64} {now : Int64} {verdict : Verdict}

theorem find_pinned_eq_none :
    (rule.pinned accts).find? (fun got => got.1 ≠ got.2) = none ↔
      ∀ got ∈ rule.pinned accts, got.1 = got.2 := by
  rw [List.find?_eq_none]
  simp only [decide_eq_true_eq, not_not]

/-- A trade the policy has nothing against. -/
theorem TradeRule.Allows.evaluate (h : rule.Allows ruleKey source accts w amountIn nonce now) :
    rule.evaluate ruleKey source accts w amountIn nonce now = .ok (rule.poolVerdict .ok) := by
  obtain ⟨windowSpent, dailyTotal, hwindow, hdaily, hlimit⟩ := h.daily
  obtain ⟨inVault, outVault, hin, hout, hquote⟩ := h.quoted
  obtain ⟨hsource, destination, hdestination, hthawed⟩ := h.thawed
  have hcurrent : rule.currentWindowSpent now = .ok windowSpent := okOr_eq_ok.mpr hwindow
  unfold TradeRule.evaluate
  rw [if_neg (not_not.mpr h.active), if_neg (Int64.not_le.mpr h.unexpired), if_neg h.positive,
    if_neg (UInt64.not_le.mpr h.fresh), if_neg (not_not.mpr h.destination),
    find_pinned_eq_none.mpr h.pinned]
  show (if _ then _ else _) = _
  rw [if_neg (UInt64.not_lt.mpr h.ceiling), hcurrent, ok_bind,
    if_neg (not_not.mpr (any_le_eq_true.mpr ⟨dailyTotal, hdaily, hlimit⟩)),
    if_neg (not_not.mpr (any_le_eq_true.mpr h.capped)), if_neg (not_not.mpr h.delegated),
    if_neg (not_or.mpr ⟨UInt64.not_lt.mpr h.funded.1, UInt64.not_lt.mpr h.funded.2⟩), hin, ok_bind,
    hout, ok_bind, if_neg (Bool.not_eq_true _ ▸ hquote), hdestination, ok_bind,
    if_neg (not_or.mpr ⟨Bool.not_eq_true _ ▸ hsource, Bool.not_eq_true _ ▸ hthawed⟩)]

/-- A trade whose first broken rule is the per-trade maximum. -/
theorem TradeRule.evaluate_overPerTxMax (active : rule.status = .active)
    (unexpired : now < rule.expiresAt) (positive : amountIn ≠ 0) (fresh : rule.lastNonce < nonce)
    (destination : accts.destination = rule.destination)
    (pinned : ∀ got ∈ rule.pinned accts, got.1 = got.2)
    (above : rule.effectivePerTradeMax nonce < amountIn) :
    rule.evaluate ruleKey source accts w amountIn nonce now =
      .ok (rule.poolVerdict .overPerTxMax) := by
  unfold TradeRule.evaluate
  rw [if_neg (not_not.mpr active), if_neg (Int64.not_le.mpr unexpired), if_neg positive,
    if_neg (UInt64.not_le.mpr fresh), if_neg (not_not.mpr destination),
    find_pinned_eq_none.mpr pinned]
  exact if_pos above

/-- The maximum is reported for a trade that broke no rule before it. -/
theorem TradeRule.above_of_evaluate
    (h : rule.evaluate ruleKey source accts w amountIn nonce now = .ok verdict)
    (hreason : verdict.reason = .overPerTxMax) :
    rule.status = .active ∧ now < rule.expiresAt ∧ amountIn ≠ 0 ∧ rule.lastNonce < nonce ∧
      accts.destination = rule.destination ∧ (∀ got ∈ rule.pinned accts, got.1 = got.2) ∧
      rule.effectivePerTradeMax nonce < amountIn := by
  unfold TradeRule.evaluate at h
  have refused (reason : TradeReason) (hne : reason ≠ .overPerTxMax) :
      (rule.poolVerdict reason).reason ≠ .overPerTxMax := hne
  rw [refusal_eq_ok_iff (refused _ (by decide)) hreason,
    refusal_eq_ok_iff (refused _ (by decide)) hreason,
    refusal_eq_ok_iff (refused _ (by decide)) hreason,
    refusal_eq_ok_iff (refused _ (by decide)) hreason,
    refusal_eq_ok_iff TradeReason.noConfusion hreason] at h
  obtain ⟨active, unexpired, positive, fresh, destination, h⟩ := h
  split at h
  · cases h
    cases hreason
  rename_i hpinned
  refine ⟨not_not.mp active, Int64.not_le.mp unexpired, positive, UInt64.not_le.mp fresh,
    not_not.mp destination, find_pinned_eq_none.mp hpinned, ?_⟩
  by_contra hbelow
  -- beyond the maximum every verdict has another reason
  rw [if_neg hbelow] at h
  obtain ⟨windowSpent, -, h⟩ := bind_ok_iff.mp h
  rw [refusal_eq_ok_iff (refused _ (by decide)) hreason,
    refusal_eq_ok_iff (refused _ (by decide)) hreason,
    refusal_eq_ok_iff (refused _ (by decide)) hreason,
    refusal_eq_ok_iff (refused _ (by decide)) hreason] at h
  obtain ⟨-, -, -, -, h⟩ := h
  obtain ⟨inVault, -, h⟩ := bind_ok_iff.mp h
  obtain ⟨outVault, -, h⟩ := bind_ok_iff.mp h
  rw [refusal_eq_ok_iff (refused _ (by decide)) hreason] at h
  obtain ⟨dest, -, h⟩ := bind_ok_iff.mp h.2
  rw [refusal_eq_ok_iff (refused _ (by decide)) hreason] at h
  cases h.2
  cases hreason

end Policy

/-! ## One trade -/

section Trade

variable {rt : Runtime} {now : Int64} {signers : List Pubkey} {accts : Trade}
  {amountIn minOut nonce : UInt64} {exchange : Callee} {s s' : TradeState} {o : TradeOutput}
  {source : TokenAccount}

/-- The exchange the rule was opened for. -/
structure TradeRule.PinsExchange (rule : TradeRule) : Prop where
  kind : rule.exchangeKind = EXCHANGE_KIND_SPL_TOKEN_SWAP
  program : rule.exchangeProgram = SPL_TOKEN_SWAP_ID

theorem openTradeRule_pinsExchange {opening : OpenTradeRule} {args : OpenTradeRuleArgs} {w : World}
    (h : openTradeRule rt now signers opening args w = .ok (o, s)) : s.rule.PinsExchange := by
  unfold openTradeRule at h
  simp only [vacant, classicProgram] at h
  simp only [↓signer_bind_ok_iff, ↓require_bind_ok_iff, bind_ok_iff] at h
  obtain ⟨-, -, -, -, -, source, -, destination, -, inMint, -, outMint, -, h⟩ := h
  obtain ⟨-, -, -, -, -, -, -, -, -, hkind, hprogram, -, -, -, -, h⟩ := h
  obtain ⟨_, -, -, w', -, h⟩ := h
  cases h
  exact ⟨hkind, hprogram⟩

theorem TradeRule.PinsExchange.run {s₀ : TradeState} {h : TradeHistory}
    (run : Run (TradeStep rt) s₀ h s) (start : s₀.rule.PinsExchange) : s.rule.PinsExchange := by
  have hterms := TradeRule.terms_of_run run
  have hkind : s.rule.exchangeKind = s₀.rule.exchangeKind := congrArg TradeTerms.exchangeKind hterms
  have hprogram : s.rule.exchangeProgram = s₀.rule.exchangeProgram :=
    congrArg TradeTerms.exchangeProgram hterms
  exact ⟨hkind.trans start.kind, hprogram.trans start.program⟩

/-- A sale that fits the day leaves a window that can be read. -/
theorem spent_of_commit {buckets buckets' : TradeBuckets} {amount windowSpent total : UInt64}
    (hspent : Veto.spent buckets now = some windowSpent)
    (htotal : checkedAdd windowSpent amount = some total)
    (hcommit : commit buckets amount now = (some (), buckets')) :
    ∃ after, Veto.spent buckets' now = some after := by
  apply spent_ok
  rw [ring_commit hcommit]
  rw [spent_eq_some] at hspent
  rw [checkedAdd_eq_some] at htotal
  have hlt := total.toNat_lt
  have hle := windowTotal_recordIn_le bucketMax buckets.ring (hourOf now).toInt
    ((hourOf now).toInt - BUCKET_COUNT + 1) amount.toNat
  omega

/-- A sum that fits a limit fits it for a smaller amount. -/
theorem checkedAdd_mono {used amount smaller limit : UInt64} (hle : smaller ≤ amount)
    (h : ∃ total, checkedAdd used amount = some total ∧ total ≤ limit) :
    ∃ total, checkedAdd used smaller = some total ∧ total ≤ limit := by
  obtain ⟨total, htotal, hlimit⟩ := h
  have hlt := limit.toNat_lt
  rw [checkedAdd_eq_some] at htotal
  rw [UInt64.le_iff_toNat_le] at hle hlimit
  have hfits : used.toNat + smaller.toNat < 2 ^ 64 := by omega
  refine ⟨.ofNat (used.toNat + smaller.toNat), ?_, ?_⟩
  · rw [checkedAdd_eq_some, UInt64.toNat_ofNat_of_lt' hfits]
  · rw [UInt64.le_iff_toNat_le, UInt64.toNat_ofNat_of_lt' hfits]
    omega

/-- An allowed trade is settled exactly when the exchange swaps. -/
theorem settleTrade_ok_iff (hpins : s.rule.PinsExchange)
    (allowed : s.rule.Allows s.key source accts s.world amountIn nonce now) :
    (∃ o s', s.settleTrade accts source amountIn minOut nonce now exchange = .ok (o, s')) ↔
      ∃ debit amountOut buckets w,
        accts.Swaps s source amountIn minOut now exchange debit amountOut buckets w := by
  unfold TradeState.settleTrade
  constructor
  · rintro ⟨o, s', h⟩
    simp only [↓require_bind_ok_iff] at h
    obtain ⟨-, -, h⟩ := h
    obtain ⟨bound, floor, h⟩ := bind_ok_iff.mp h
    obtain ⟨before, hbefore, h⟩ := bind_ok_iff.mp h
    obtain ⟨w, called, h⟩ := bind_ok_iff.mp h
    obtain ⟨sourceAfter, hafter, h⟩ := bind_ok_iff.mp h
    obtain ⟨after, hdest, h⟩ := bind_ok_iff.mp h
    obtain ⟨debit, hdebit, h⟩ := bind_ok_iff.mp h
    obtain ⟨amountOut, hcredit, h⟩ := bind_ok_iff.mp h
    obtain ⟨enough, h⟩ := require_bind_ok_iff.mp h
    obtain ⟨_, hcommit, -⟩ := bind_ok_iff.mp h
    rw [okOr_eq_ok] at called hdebit hcredit hcommit
    rw [Option.filter_eq_some_iff, decide_eq_true_eq] at hdebit
    obtain ⟨hdebit, positive, asked⟩ := hdebit
    exact ⟨debit, amountOut, _, w, ⟨bound, floor, called, enough⟩, ⟨sourceAfter, hafter, hdebit⟩,
      ⟨before, after, hbefore, hdest, hcredit⟩, positive, asked, Prod.ext hcommit rfl⟩
  · rintro ⟨debit, amountOut, buckets, w, ⟨bound, floor, called, enough⟩,
      ⟨sourceAfter, hafter, hdebit⟩, ⟨before, after, hbefore, hdest, hcredit⟩, positive, asked,
      committed⟩
    obtain ⟨windowSpent, hwindow, hdaily⟩ : ∃ windowSpent,
        Veto.spent s.rule.dailyBuckets now = some windowSpent ∧
        ∃ total, checkedAdd windowSpent amountIn = some total ∧ total ≤ s.rule.dailyLimit := by
      obtain ⟨windowSpent, total, hwindow, htotal, hlimit⟩ := allowed.daily
      exact ⟨windowSpent, hwindow, total, htotal, hlimit⟩
    obtain ⟨total, htotal, -⟩ := checkedAdd_mono asked hdaily
    obtain ⟨spent, hspent, -⟩ := checkedAdd_mono asked allowed.capped
    obtain ⟨left, hleft⟩ := spent_of_commit hwindow htotal committed
    have hfilter : (checkedSub source.amount sourceAfter.amount).filter
        (fun delta => 0 < delta ∧ delta ≤ amountIn) = some debit := by
      rw [hdebit, Option.filter_some, if_pos (decide_eq_true ⟨positive, asked⟩)]
    have hcurrent : (s.rule.settle buckets spent nonce).currentWindowSpent now = .ok left :=
      okOr_eq_ok.mpr hleft
    rw [require_true hpins.kind, ok_bind, require_true hpins.program, ok_bind, floor, ok_bind,
      hbefore, ok_bind, called]
    show ∃ o s', (w.reloadToken accts.source >>= _) = .ok (o, s')
    rw [hafter, ok_bind, hdest, ok_bind, hfilter, hcredit]
    show ∃ o s', (require (max minOut bound ≤ amountOut) _ >>= _) = .ok (o, s')
    rw [require_true enough, ok_bind, committed]
    show ∃ o s', (okOr (checkedAdd s.rule.spent debit) _ >>= _) = .ok (o, s')
    rw [hspent]
    show ∃ o s', ((s.rule.settle buckets spent nonce).currentWindowSpent now >>= _) = .ok (o, s')
    rw [hcurrent]
    exact ⟨_, _, rfl⟩

theorem settleTrade_recorded
    (h : s.settleTrade accts source amountIn minOut nonce now exchange = .ok (o, s')) :
    ∃ e, o.records = [e] ∧ e.kind = .traded := by
  unfold TradeState.settleTrade at h
  simp only [↓require_bind_ok_iff] at h
  obtain ⟨-, -, h⟩ := h
  obtain ⟨bound, -, h⟩ := bind_ok_iff.mp h
  obtain ⟨before, -, h⟩ := bind_ok_iff.mp h
  obtain ⟨w, -, h⟩ := bind_ok_iff.mp h
  obtain ⟨sourceAfter, -, h⟩ := bind_ok_iff.mp h
  obtain ⟨after, -, h⟩ := bind_ok_iff.mp h
  obtain ⟨debit, -, h⟩ := bind_ok_iff.mp h
  obtain ⟨amountOut, -, h⟩ := bind_ok_iff.mp h
  obtain ⟨-, h⟩ := require_bind_ok_iff.mp h
  obtain ⟨_, -, h⟩ := bind_ok_iff.mp h
  obtain ⟨spent, -, h⟩ := bind_ok_iff.mp h
  obtain ⟨windowSpent, -, h⟩ := bind_ok_iff.mp h
  cases h
  exact ⟨_, rfl, rfl⟩

/-- The state after a refusal. -/
def TradeState.refused (s : TradeState) (reason : TradeReason) (entry : TradeEntry) : TradeState :=
  { s with rule := s.rule.refuse reason, ledger := s.ledger.record entry }

/-- The state after a grant. -/
def TradeState.granted (s : TradeState) (now : Int64) (amountIn nonce : UInt64) : TradeState :=
  { s with
    rule := s.rule.grant amountIn nonce
    ledger := s.ledger.record (tradeOverrideEntry now s.rule.pool amountIn nonce) }

/-- When a grant goes through, and what it leaves. -/
theorem grantTradeOverride_ok_iff {owners : List Pubkey} {action : GrantTradeOverride} :
    (∃ o, grantTradeOverride rt now owners action amountIn nonce s = .ok (o, s')) ↔
      action.load rt owners s = .ok () ∧ nonce ≠ 0 ∧ 0 < amountIn ∧
      s.rule.status = .active ∧ s.rule.lastNonce < nonce ∧ amountIn ≤ s.rule.remaining ∧
      s' = s.granted now amountIn nonce := by
  unfold grantTradeOverride
  simp only [↓require_bind_ok_iff, bind_ok_iff]
  constructor
  · rintro ⟨o, _, hload, named, positive, active, fresh, capped, h⟩
    cases h
    exact ⟨hload, named, positive, active, fresh, capped, rfl⟩
  · rintro ⟨hload, named, positive, active, fresh, capped, rfl⟩
    exact ⟨_, (), hload, named, positive, active, fresh, capped, rfl⟩

/-- The checks of a trade that come before the policy. -/
structure Trade.Addressed (accts : Trade) (rt : Runtime) (s : TradeState) : Prop where
  exactly : accts.remainingAccounts = []
  canonical : rt.pda.create
    (tradeSeeds s.rule.owner s.rule.ruleId ++ [.bump s.rule.bump]) = some s.key

/-- A trade is settled or refused as the policy says. -/
theorem trade_ok_iff (hload : accts.load rt signers s = .ok source) :
    trade rt now signers accts amountIn minOut nonce exchange s = .ok (o, s') ↔
      accts.Addressed rt s ∧ ∃ verdict,
        s.rule.evaluate s.key source accts s.world amountIn nonce now = .ok verdict ∧
        (if verdict.reason = .ok then
          s.settleTrade accts source amountIn minOut nonce now exchange
        else s.recordRefusal amountIn minOut nonce now verdict) = .ok (o, s') := by
  unfold trade
  rw [hload, ok_bind, require_bind_ok_iff]
  constructor
  · rintro ⟨hexactly, h⟩
    obtain ⟨expected, hcreate, h⟩ := bind_ok_iff.mp h
    obtain ⟨hexpected, hnext⟩ := require_bind_ok_iff.mp h
    rw [okOr_eq_ok, hexpected] at hcreate
    exact ⟨⟨hexactly, hcreate⟩, bind_ok_iff.mp hnext⟩
  · rintro ⟨⟨hexactly, hcanonical⟩, verdict, hverdict, h⟩
    refine ⟨hexactly, ?_⟩
    rw [hcanonical]
    show (require (s.key = s.key) _ >>= _) = _
    rw [require_true rfl, ok_bind, hverdict, ok_bind]
    exact h

theorem recordRefusal_ok {verdict : Verdict}
    (h : s.recordRefusal amountIn minOut nonce now verdict = .ok (o, s')) :
    ∃ suggestion, s.rule.suggestedOverride verdict.reason amountIn now = .ok suggestion ∧
      ∃ entry, entry = tradeRefusedEntry now verdict.counterparty amountIn minOut nonce suggestion
        verdict.reason ∧ o.records = [entry] ∧ s' = s.refused verdict.reason entry := by
  unfold TradeState.recordRefusal at h
  obtain ⟨suggestion, hsuggestion, h⟩ := bind_ok_iff.mp h
  obtain ⟨windowSpent, -, h⟩ := bind_ok_iff.mp h
  cases h
  exact ⟨suggestion, hsuggestion, _, rfl, rfl, rfl⟩

theorem Trade.OverMaximum.verdict (h : accts.OverMaximum s amountIn nonce now) :
    s.rule.evaluate s.key source accts s.world amountIn nonce now =
      .ok (s.rule.poolVerdict .overPerTxMax) :=
  TradeRule.evaluate_overPerTxMax h.active h.unexpired h.positive h.fresh h.destination h.pinned
    h.above

theorem Trade.OverMaximum.suggested (h : accts.OverMaximum s amountIn nonce now) :
    s.rule.suggestedOverride .overPerTxMax amountIn now = .ok amountIn := by
  obtain ⟨windowSpent, hwindow, htoday⟩ := h.today
  have hcurrent : s.rule.currentWindowSpent now = .ok windowSpent := okOr_eq_ok.mpr hwindow
  unfold TradeRule.suggestedOverride
  rw [if_neg (not_not.mpr rfl), hcurrent, ok_bind]
  exact if_pos ⟨h.room, htoday⟩

/-- What is suggested for a trade, if anything, it breaks the maximum first. -/
theorem Trade.overMaximum_of_suggested {verdict : Verdict} {suggestion : UInt64}
    (hverdict : s.rule.evaluate s.key source accts s.world amountIn nonce now = .ok verdict)
    (h : s.rule.suggestedOverride verdict.reason amountIn now = .ok suggestion)
    (hne : suggestion ≠ 0) : accts.OverMaximum s amountIn nonce now := by
  unfold TradeRule.suggestedOverride at h
  by_cases hreason : verdict.reason = .overPerTxMax
  · rw [if_neg (not_not.mpr hreason)] at h
    obtain ⟨windowSpent, hwindow, h⟩ := bind_ok_iff.mp h
    by_cases hroom : amountIn ≤ s.rule.remaining ∧
        amountIn ≤ saturatingSub s.rule.dailyLimit windowSpent
    · obtain ⟨active, unexpired, positive, fresh, destination, pinned, above⟩ :=
        TradeRule.above_of_evaluate hverdict hreason
      exact ⟨active, unexpired, positive, fresh, destination, pinned, above, hroom.1,
        windowSpent, okOr_eq_ok.mp hwindow, hroom.2⟩
    · simp only [if_neg hroom] at h
      cases h
      exact absurd rfl hne
  · rw [if_pos hreason] at h
    cases h
    exact absurd rfl hne

/-- The owner can name the accounts of a grant. -/
theorem grantTradeOverride_load (rt : Runtime) (s : TradeState) :
    ∃ action, GrantTradeOverride.load action rt [s.rule.owner] s = .ok () := by
  refine ⟨⟨s.rule.owner, (rt.pda.find (tradeLedgerSeeds s.key)).1⟩, ?_⟩
  unfold GrantTradeOverride.load
  rw [signer_bind_ok_iff, require_bind_ok_iff]
  exact ⟨List.mem_singleton_self _, rfl, require_true rfl⟩

end Trade

/-! ## Clearing a refusal -/

section Clearing

variable {rt : Runtime} {now : Int64} {r : TradeRequest} {s : TradeState} {source : TokenAccount}
  {reason : TradeReason} {entry : TradeEntry} {granted : UInt64} {verdict : Verdict}

theorem TradeRule.active_of_refuse {rule : TradeRule} (h : (rule.refuse reason).status = .active) :
    rule.status = .active := by
  unfold TradeRule.refuse at h
  by_cases hexpired : reason = .expired ∧ rule.status = .active
  · exact hexpired.2
  · simp only [if_neg hexpired] at h
    exact h

/-- An override clears only what breaks the maximum first, and only if the rest is in order. -/
theorem TradeState.ClearedBy.tradable (hpins : s.rule.PinsExchange)
    (hload : r.accts.load rt r.signers s = .ok source)
    (hverdict : s.rule.evaluate s.key source r.accts s.world r.amountIn r.nonce now = .ok verdict)
    (hbroken : verdict.reason ≠ .ok)
    (h : (s.refused reason entry).ClearedBy rt now r granted) :
    r.accts.OverMaximum s r.amountIn r.nonce now ∧
      r.accts.Tradable s source r.amountIn r.minOut now r.exchange := by
  obtain ⟨owners, action, o₁, s₁, o₂, s₂, hgrant, htrade, e, he, hkind⟩ := h
  obtain ⟨-, -, -, -, -, -, rfl⟩ := grantTradeOverride_ok_iff.mp ⟨o₁, hgrant⟩
  have hload' : r.accts.load rt r.signers ((s.refused reason entry).granted now granted r.nonce) =
      .ok source := hload
  obtain ⟨-, verdict', hverdict', hdone⟩ := (trade_ok_iff hload').mp htrade
  by_cases hok : verdict'.reason = .ok
  · rw [if_pos hok] at hdone
    have allowed := TradeRule.allows_of_evaluate hverdict' hok
    have hpins' : ((s.refused reason entry).granted now granted r.nonce).rule.PinsExchange :=
      ⟨hpins.kind, hpins.program⟩
    obtain ⟨debit, amountOut, buckets, w, hswaps⟩ :=
      (settleTrade_ok_iff hpins' allowed).mp ⟨o₂, s₂, hdone⟩
    have active : s.rule.status = .active := TradeRule.active_of_refuse allowed.active
    have above : s.rule.effectivePerTradeMax r.nonce < r.amountIn := by
      by_contra hle
      have hallows : s.rule.Allows s.key source r.accts s.world r.amountIn r.nonce now :=
        ⟨active, allowed.unexpired, allowed.positive, allowed.fresh, allowed.destination,
          allowed.pinned, UInt64.not_lt.mp hle, allowed.daily, allowed.capped, allowed.delegated,
          allowed.funded, allowed.quoted, allowed.thawed⟩
      have hevaluate := hallows.evaluate
      rw [hverdict, Except.ok.injEq] at hevaluate
      rw [hevaluate] at hbroken
      exact hbroken rfl
    obtain ⟨windowSpent, total, hwindow, htotal, hlimit⟩ := allowed.daily
    refine ⟨⟨active, allowed.unexpired, allowed.positive, allowed.fresh, allowed.destination,
      allowed.pinned, above, (le_saturatingSub_iff allowed.positive).mpr allowed.capped,
      windowSpent, hwindow, (le_saturatingSub_iff allowed.positive).mpr ⟨total, htotal, hlimit⟩⟩,
      allowed.delegated, allowed.funded, allowed.quoted, allowed.thawed, debit, amountOut, buckets,
      w, hswaps.called, hswaps.debited, hswaps.credited, hswaps.positive, hswaps.asked,
      hswaps.committed⟩
  · rw [if_neg hok] at hdone
    obtain ⟨suggestion, -, entry', rfl, hrecords, -⟩ := recordRefusal_ok hdone
    rw [hrecords, List.mem_singleton] at he
    rw [he] at hkind
    cases hkind

/-- Where the rest is in order, the override of the input clears the trade. -/
theorem Trade.Tradable.cleared (hpins : s.rule.PinsExchange)
    (hload : r.accts.load rt r.signers s = .ok source) (haddressed : r.accts.Addressed rt s)
    (hover : r.accts.OverMaximum s r.amountIn r.nonce now)
    (h : r.accts.Tradable s source r.amountIn r.minOut now r.exchange) :
    (s.refused .overPerTxMax entry).ClearedBy rt now r r.amountIn := by
  have hnonce : r.nonce ≠ 0 := by
    intro hzero
    have hfresh := hover.fresh
    rw [hzero] at hfresh
    exact UInt64.not_lt_zero hfresh
  have hpositive : 0 < r.amountIn := UInt64.pos_iff_ne_zero.mpr hover.positive
  let after := (s.refused .overPerTxMax entry).granted now r.amountIn r.nonce
  obtain ⟨action, haction⟩ := grantTradeOverride_load rt (s.refused .overPerTxMax entry)
  obtain ⟨o₁, hgrant⟩ := grantTradeOverride_ok_iff.mpr
    ⟨haction, hnonce, hpositive, hover.active, hover.fresh, hover.room, rfl⟩
  have hceiling : r.amountIn ≤ after.rule.effectivePerTradeMax r.nonce := by
    have hmax : after.rule.effectivePerTradeMax r.nonce = max s.rule.perTradeMax r.amountIn :=
      if_pos ⟨hnonce, rfl⟩
    rw [hmax]
    exact le_max_iff_of_words.mpr (.inr UInt64.le_rfl)
  obtain ⟨windowSpent, hwindow, htoday⟩ := hover.today
  obtain ⟨total, htotal, hlimit⟩ := (le_saturatingSub_iff hover.positive).mp htoday
  have allowed : after.rule.Allows after.key source r.accts after.world r.amountIn r.nonce now :=
    ⟨hover.active, hover.unexpired, hover.positive, hover.fresh, hover.destination, hover.pinned,
      hceiling, ⟨windowSpent, total, hwindow, htotal, hlimit⟩,
      (le_saturatingSub_iff hover.positive).mp hover.room, h.delegated, h.funded, h.quoted,
      h.thawed⟩
  obtain ⟨debit, amountOut, buckets, w, hswaps⟩ := h.swaps
  have hswaps' : r.accts.Swaps after source r.amountIn r.minOut now r.exchange debit amountOut
      buckets w :=
    ⟨hswaps.called, hswaps.debited, hswaps.credited, hswaps.positive, hswaps.asked,
      hswaps.committed⟩
  have hpins' : after.rule.PinsExchange := ⟨hpins.kind, hpins.program⟩
  obtain ⟨o₂, s₂, hsettle⟩ :=
    (settleTrade_ok_iff hpins' allowed).mpr ⟨debit, amountOut, buckets, w, hswaps'⟩
  have hload' : r.accts.load rt r.signers after = .ok source := hload
  have htrade : r.submit rt now after = .ok (o₂, s₂) :=
    (trade_ok_iff hload').mpr ⟨⟨haddressed.exactly, haddressed.canonical⟩, _, allowed.evaluate,
      hsettle⟩
  obtain ⟨e, hrecords, hkind⟩ := settleTrade_recorded hsettle
  exact ⟨_, action, o₁, after, o₂, s₂, hgrant, htrade, e, hrecords ▸ List.mem_singleton_self _,
    hkind⟩

/-- When the ceiling a refused trade suggests is exact: where the maximum is the first rule the
trade breaks and cap and day have room, the rest must be in order.  No override clears a trade
that gets no suggestion. -/
theorem trade_suggestion_iff {opened : Int64} {owners : List Pubkey} {opening : OpenTradeRule}
    {args : OpenTradeRuleArgs} {w : World} {o₀ o : TradeOutput} {s₀ s' : TradeState}
    {h : TradeHistory} {e : TradeEntry}
    (hopen : openTradeRule rt opened owners opening args w = .ok (o₀, s₀))
    (run : Run (TradeStep rt) s₀ h s) (hload : r.accts.load rt r.signers s = .ok source)
    (htrade : r.submit rt now s = .ok (o, s')) (he : e ∈ o.records)
    (hkind : e.kind = .refused) :
    ((e.suggestedOverride ≠ 0 ↔ s'.ClearedBy rt now r e.suggestedOverride) ↔
      (r.accts.OverMaximum s r.amountIn r.nonce now →
        r.accts.Tradable s source r.amountIn r.minOut now r.exchange)) ∧
    (e.suggestedOverride = 0 → ∀ granted, ¬ s'.ClearedBy rt now r granted) := by
  have hpins := (openTradeRule_pinsExchange hopen).run run
  obtain ⟨haddressed, verdict, hverdict, hdone⟩ := (trade_ok_iff hload).mp htrade
  by_cases hok : verdict.reason = .ok
  · rw [if_pos hok] at hdone
    obtain ⟨e', hrecords, htraded⟩ := settleTrade_recorded hdone
    rw [hrecords, List.mem_singleton] at he
    rw [he, htraded] at hkind
    cases hkind
  · rw [if_neg hok] at hdone
    obtain ⟨suggestion, hsuggestion, entry, hentry, hrecords, rfl⟩ := recordRefusal_ok hdone
    rw [hrecords, List.mem_singleton] at he
    subst he
    have hsuggested : e.suggestedOverride = suggestion := by
      rw [hentry]
      rfl
    rw [hsuggested]
    apply suggestion_iff r.amountIn
    · intro hover
      rw [hover.verdict, Except.ok.injEq] at hverdict
      rw [← hverdict] at hsuggestion
      have hsame := hsuggestion.symm.trans hover.suggested
      rw [Except.ok.injEq] at hsame
      exact ⟨hsame, hover.positive⟩
    · intro hne
      exact Trade.overMaximum_of_suggested hverdict hsuggestion hne
    · intro granted hclear
      exact hclear.tradable hpins hload hverdict hok
    · intro hover htradable
      rw [hover.verdict, Except.ok.injEq] at hverdict
      rw [← hverdict]
      exact htradable.cleared hpins hload haddressed hover

end Clearing

end Veto

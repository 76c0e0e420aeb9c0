import Veto.Mandate.Suggestion
import Veto.Trade.Suggestion

/-!
# The suggested override

`Entry::suggested_override` promises the override that would have cleared a refused charge,
and a trade rule promises the same of a refused trade.  Both look at the ceiling and at what
is left, and at nothing that the policy checks after the ceiling.
-/

namespace Veto

open Foundation

/-- **When a suggestion is exact.**  For every refused charge of a mandate and every refused
trade of a rule, in any state they can reach: the suggested override is nonzero exactly when
granting it and submitting the same request again would pay, if and only if a request whose
first broken rule is the ceiling, with room under the limits, meets the rest of the policy and
its transfer or swap goes through.  Where nothing is suggested, no override would do. -/
theorem suggested_override_exact_iff {rt : Runtime} (htoken : rt.token.DecidesTransfers) :
    (∀ (opened now : Int64) (owners : List Pubkey) (opening : OpenMandate)
      (args : OpenMandateArgs) (w : World) (o₀ : MandateOutput) (s₀ s : MandateState)
      (h : MandateHistory), openMandate rt opened owners opening args w = .ok (o₀, s₀) →
      Run (MandateStep rt) s₀ h s →
      ∀ (r : ChargeRequest) (ctx : ChargeCtx), r.accts.load rt r.signers s = .ok ctx →
      (r.accts.source ≠ r.accts.destination →
        ctx.source.amount.toNat + ctx.destination.amount.toNat < 2 ^ 64) →
      ∀ o s', r.submit rt now s = .ok (o, s') → ∀ e ∈ o.records, e.kind = .refused →
      ((e.suggestedOverride ≠ 0 ↔ s'.ClearedBy rt now r e.suggestedOverride) ↔
        (Charge.OverMaximum s ctx r.amount r.nonce now → r.accts.Payable s ctx r.amount)) ∧
      (e.suggestedOverride = 0 → ∀ granted, ¬ s'.ClearedBy rt now r granted)) ∧
    (∀ (opened now : Int64) (owners : List Pubkey) (opening : OpenTradeRule)
      (args : OpenTradeRuleArgs) (w : World) (o₀ : TradeOutput) (s₀ s : TradeState)
      (h : TradeHistory), openTradeRule rt opened owners opening args w = .ok (o₀, s₀) →
      Run (TradeStep rt) s₀ h s →
      ∀ (r : TradeRequest) (source : TokenAccount), r.accts.load rt r.signers s = .ok source →
      ∀ o s', r.submit rt now s = .ok (o, s') → ∀ e ∈ o.records, e.kind = .refused →
      ((e.suggestedOverride ≠ 0 ↔ s'.ClearedBy rt now r e.suggestedOverride) ↔
        (r.accts.OverMaximum s r.amountIn r.nonce now →
          r.accts.Tradable s source r.amountIn r.minOut now r.exchange)) ∧
      (e.suggestedOverride = 0 → ∀ granted, ¬ s'.ClearedBy rt now r granted)) := by
  constructor
  · intro opened now owners opening args w o₀ s₀ s h hopen run r ctx hload hfit o s' hcharge e he
      hkind
    exact charge_suggestion_iff htoken hopen run hload hfit hcharge he hkind
  · intro opened now owners opening args w o₀ s₀ s h hopen run r source hload o s' htrade e he hkind
    exact trade_suggestion_iff hopen run hload htrade he hkind

/-! ### A suggestion that holds, and one that does not -/

section Sample

/-- A charge of 50 where at most 40 may be paid at once. -/
def largeCharge : ChargeRequest := ⟨[2], chargeAccounts, 50, 1⟩

def largeRefusal : MandateResult :=
  largeCharge.submit sampleRuntime 20 (okValue sampleOpen sampleOpen_ok).2

theorem largeRefusal_ok : largeRefusal.toBool = true := rfl

def tradeAccounts : Trade :=
  { agent := 2, ledger := 101, source := 10, destination := 11,
    exchangeProgram := SPL_TOKEN_SWAP_ID, pool := 20, poolAuthority := 21, poolInVault := 22,
    poolOutVault := 23, poolMint := 24, poolFeeAccount := 25, tokenProgram := splTokenId,
    remainingAccounts := [] }

/-- The same for the trade rule, with an exchange that would take 49. -/
def largeTrade : TradeRequest := ⟨[2], tradeAccounts, 50, 0, 1, sampleSwap 49 95⟩

def largeTradeLoad : Except ProgramError TokenAccount :=
  tradeAccounts.load tradeRuntime [2] (okValue tradeOpen tradeOpen_ok).2

set_option maxRecDepth 20000 in
theorem largeTradeLoad_ok : largeTradeLoad.toBool = true := by decide

def largeTradeRefusal : TradeResult :=
  largeTrade.submit tradeRuntime 20 (okValue tradeOpen tradeOpen_ok).2

set_option maxRecDepth 20000 in
theorem largeTradeRefusal_ok : largeTradeRefusal.toBool = true := by decide

/-- The accounts of the sample can pay 50. -/
theorem samplePayable :
    chargeAccounts.Payable (okValue sampleOpen sampleOpen_ok).2
      (okValue sampleLoad sampleLoad_ok) 50 ∧
    (okValue sampleLoad sampleLoad_ok).source.amount.toNat +
      (okValue sampleLoad sampleLoad_ok).destination.amount.toNat < 2 ^ 64 := by
  have hsource : (okValue sampleLoad sampleLoad_ok).source = ⟨3, 1, 500, some 100, 100, false⟩ ∧
      (okValue sampleLoad sampleLoad_ok).destination = ⟨3, 4, 0, none, 0, false⟩ ∧
      (okValue sampleOpen sampleOpen_ok).2.key = 100 ∧
      (okValue sampleOpen sampleOpen_ok).2.mandate.mint = 3 ∧
      (okValue sampleOpen sampleOpen_ok).2.world.ownerOf 10 = some splTokenId ∧
      (okValue sampleOpen sampleOpen_ok).2.world.ownerOf 11 = some splTokenId ∧
      (okValue sampleOpen sampleOpen_ok).2.world.ownerOf 3 = some splTokenId := by
    decide
  obtain ⟨hsource, hdestination, hkey, hmint, howner, howner', hmintOwner⟩ := hsource
  rw [hsource, hdestination]
  refine ⟨⟨?_, ?_, ?_, ?_⟩, by decide⟩
  · rw [hsource, hkey]
  · rw [hsource]
    decide
  · rw [hsource, hdestination]
    exact ⟨rfl, rfl⟩
  · rw [hsource]
    exact ⟨howner, howner', hmintOwner, hmint.symm⟩

set_option maxRecDepth 20000 in
/-- Both refusals suggest 50.  The one of the mandate is cleared by it; the one of the trade
rule is exact if the exchange swaps. -/
theorem suggested_override_exact_iff_sample :
    (∃ e ∈ (okValue largeRefusal largeRefusal_ok).1.records, e.suggestedOverride = 50 ∧
      (okValue largeRefusal largeRefusal_ok).2.ClearedBy sampleRuntime 20 largeCharge
        e.suggestedOverride) ∧
    ∃ e ∈ (okValue largeTradeRefusal largeTradeRefusal_ok).1.records, e.suggestedOverride = 50 ∧
      ((e.suggestedOverride ≠ 0 ↔ (okValue largeTradeRefusal largeTradeRefusal_ok).2.ClearedBy
          tradeRuntime 20 largeTrade e.suggestedOverride) ↔
        (tradeAccounts.OverMaximum (okValue tradeOpen tradeOpen_ok).2 50 1 20 →
          tradeAccounts.Tradable (okValue tradeOpen tradeOpen_ok).2
            (okValue largeTradeLoad largeTradeLoad_ok) 50 0 20 (sampleSwap 49 95))) := by
  have htoken : sampleRuntime.token.DecidesTransfers := classicToken_decides
  have htoken' : tradeRuntime.token.DecidesTransfers := classicToken_decides
  have hcharge := (suggested_override_exact_iff htoken).1
  have htrade := (suggested_override_exact_iff htoken').2
  have hrefused : (∃ e ∈ (okValue largeRefusal largeRefusal_ok).1.records,
      e.kind = .refused ∧ e.suggestedOverride = 50) ∧
      ∃ e ∈ (okValue largeTradeRefusal largeTradeRefusal_ok).1.records,
        e.kind = .refused ∧ e.suggestedOverride = 50 := by decide
  obtain ⟨⟨e, he, hkind, hamount⟩, e', he', hkind', hamount'⟩ := hrefused
  constructor
  · have hpayable : chargeAccounts.Payable (okValue sampleOpen sampleOpen_ok).2
        (okValue sampleLoad sampleLoad_ok) 50 :=
      samplePayable.1
    have hexact := hcharge 10 20 _ _ _ _ _ _ _ [] (eq_ok_okValue_pair sampleOpen sampleOpen_ok)
      .start largeCharge _ (eq_ok_okValue sampleLoad sampleLoad_ok) (fun _ => samplePayable.2) _ _
      (eq_ok_okValue_pair largeRefusal largeRefusal_ok) e he hkind
    have hpositive : e.suggestedOverride ≠ 0 := by
      rw [hamount]
      decide
    exact ⟨e, he, hamount, (hexact.1.mpr fun _ => hpayable).mp hpositive⟩
  · have hexact := htrade 10 20 _ _ _ _ _ _ _ [] (eq_ok_okValue_pair tradeOpen tradeOpen_ok)
      .start largeTrade _ (eq_ok_okValue largeTradeLoad largeTradeLoad_ok) _ _
      (eq_ok_okValue_pair largeTradeRefusal largeTradeRefusal_ok) e' he' hkind'
    exact ⟨e', he', hamount', hexact.1⟩

/-- The owner takes the delegation of account 10 back, outside the program. -/
def withdrawnRun : Except ProgramError (MandateHistory × MandateState) :=
  execAll (MandateState.exec sampleRuntime) [] (okValue sampleOpen sampleOpen_ok).2
    [{ now := 15, signers := [1], instr := .outside sampleWorld }]

theorem withdrawnRun_ok : withdrawnRun.toBool = true := rfl

def withdrawnLoad : Except ProgramError ChargeCtx :=
  chargeAccounts.load sampleRuntime [2] (okValue withdrawnRun withdrawnRun_ok).2

theorem withdrawnLoad_ok : withdrawnLoad.toBool = true := rfl

def withdrawnRefusal : MandateResult :=
  largeCharge.submit sampleRuntime 20 (okValue withdrawnRun withdrawnRun_ok).2

theorem withdrawnRefusal_ok : withdrawnRefusal.toBool = true := rfl

/-- Without a delegation the refusal of 50 suggests 50, and that override clears nothing. -/
theorem suggested_override_misleads :
    sampleRuntime.token.DecidesTransfers ∧
    Run (MandateStep sampleRuntime) (okValue sampleOpen sampleOpen_ok).2
      (okValue withdrawnRun withdrawnRun_ok).1 (okValue withdrawnRun withdrawnRun_ok).2 ∧
    ∃ o s' e, largeCharge.submit sampleRuntime 20 (okValue withdrawnRun withdrawnRun_ok).2 =
        .ok (o, s') ∧ e ∈ o.records ∧ e.kind = .refused ∧
      ¬ (e.suggestedOverride ≠ 0 ↔
        s'.ClearedBy sampleRuntime 20 largeCharge e.suggestedOverride) := by
  have htoken : sampleRuntime.token.DecidesTransfers := classicToken_decides
  have hfacts : (∃ e ∈ (okValue withdrawnRefusal withdrawnRefusal_ok).1.records,
      e.kind = .refused) ∧
      (okValue withdrawnLoad withdrawnLoad_ok).source = ⟨3, 1, 500, none, 0, false⟩ ∧
      (okValue withdrawnLoad withdrawnLoad_ok).destination = ⟨3, 4, 0, none, 0, false⟩ ∧
      (okValue withdrawnRun withdrawnRun_ok).2.mandate.status = .active ∧
      20 < (okValue withdrawnRun withdrawnRun_ok).2.mandate.expiresAt ∧
      (okValue withdrawnRun withdrawnRun_ok).2.mandate.lastNonce < 1 ∧
      (okValue withdrawnRun withdrawnRun_ok).2.mandate.merchant = 4 ∧
      (okValue withdrawnRun withdrawnRun_ok).2.mandate.effectivePerTxMax 1 < 50 ∧
      50 ≤ (okValue withdrawnRun withdrawnRun_ok).2.mandate.remaining := by
    decide
  obtain ⟨⟨e, he, hkind⟩, hsource, hdestination, active, unexpired, fresh, merchant, above, room⟩ :=
    hfacts
  have hover : Charge.OverMaximum (okValue withdrawnRun withdrawnRun_ok).2
      (okValue withdrawnLoad withdrawnLoad_ok) 50 1 20 := by
    refine ⟨active, unexpired, by decide, fresh, ?_, above, room⟩
    rw [hdestination, merchant]
  have hrefusal := eq_ok_okValue_pair withdrawnRefusal withdrawnRefusal_ok
  refine ⟨htoken, run_okValue withdrawnRun_ok, _, _, e, hrefusal, he, hkind, ?_⟩
  intro hexact
  have hsuggestion := charge_suggestion_iff htoken (r := largeCharge)
    (eq_ok_okValue_pair sampleOpen sampleOpen_ok) (run_okValue withdrawnRun_ok)
    (eq_ok_okValue withdrawnLoad withdrawnLoad_ok) ?_ hrefusal he hkind
  · have hdelegated := (hsuggestion.1.mp hexact hover).delegated
    rw [hsource] at hdelegated
    cases hdelegated
  · intro _
    rw [hsource, hdestination]
    decide

end Sample

end Veto

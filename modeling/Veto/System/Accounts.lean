import Veto.Mandate.Run
import Veto.Trade.Run
import Veto.Trade.Readers
import Veto.Hold.Window

/-!
# What the accounts hold

A purpose is checked in characters, and the account that is to hold it has room in bytes.  No
instruction changes a purpose, so whether an account holds what the program writes to it is
decided when it is opened.
-/

namespace Veto

open Foundation

/-! ## The purpose along a run -/

section Mandates

variable {rt : Runtime} {s₀ s s' : MandateState} {h : MandateHistory} {i : MandateInput}
  {o : MandateOutput}

theorem MandateEffect.purpose_eq (h : MandateEffect s i o s') :
    s'.mandate.purpose = s.mandate.purpose := by
  cases h <;> rfl

theorem Mandate.purpose_of_run (run : Run (MandateStep rt) s₀ h s) :
    s.mandate.purpose = s₀.mandate.purpose :=
  run.preserves (P := fun s => s.mandate.purpose = s₀.mandate.purpose)
    (fun _ _ _ _ hs hstep => (MandateStep.effect hstep).purpose_eq.trans hs) rfl

/-- The purpose a mandate was opened with, in any state after. -/
theorem Mandate.purpose_of_open {now : Int64} {signers : List Pubkey} {accts : OpenMandate}
    {args : OpenMandateArgs} {w : World} {opening : MandateOutput}
    (hopen : openMandate rt now signers accts args w = .ok (opening, s₀))
    (run : Run (MandateStep rt) s₀ h s) : s.mandate.purpose = args.purpose := by
  obtain ⟨bump, hfresh⟩ := (openMandate_opened hopen).mandate
  rw [Mandate.purpose_of_run run, hfresh, freshMandate]

end Mandates

section Trades

variable {rt : Runtime} {s₀ s s' : TradeState} {h : TradeHistory} {i : TradeInput}
  {o : TradeOutput}

theorem TradeEffect.purpose_eq (h : TradeEffect s i o s') : s'.rule.purpose = s.rule.purpose := by
  cases h <;> rfl

theorem TradeRule.purpose_of_run (run : Run (TradeStep rt) s₀ h s) :
    s.rule.purpose = s₀.rule.purpose :=
  run.preserves (P := fun s => s.rule.purpose = s₀.rule.purpose)
    (fun _ _ _ _ hs hstep => (TradeStep.effect hstep).purpose_eq.trans hs) rfl

theorem TradeRule.purpose_of_open {now : Int64} {signers : List Pubkey} {accts : OpenTradeRule}
    {args : OpenTradeRuleArgs} {w : World} {opening : TradeOutput}
    (hopen : openTradeRule rt now signers accts args w = .ok (opening, s₀))
    (run : Run (TradeStep rt) s₀ h s) : s.rule.purpose = args.purpose := by
  obtain ⟨⟨bump, hfresh⟩, -⟩ := openTradeRule_ok hopen
  rw [TradeRule.purpose_of_run run, hfresh, freshRule]

end Trades

/-! ## The accounts -/

/-- **An account holds what was admitted exactly when the purpose fits in bytes.**  In every
state after a successful open, the account takes the mandate or the rule and both clients read
it back field by field, if and only if the purpose takes at most `PURPOSE_MAX_LEN` bytes.  Every
vault is held and read back. -/
theorem accounts_hold_iff (rt : Runtime) (vault : HoldVault) :
    (∀ {now : Int64} {signers : List Pubkey} {accts : OpenMandate}
        {args : OpenMandateArgs} {w : World} {opening : MandateOutput} {s₀ s : MandateState}
        {h : MandateHistory}, openMandate rt now signers accts args w = .ok (opening, s₀) →
        Run (MandateStep rt) s₀ h s →
        (s.mandate.store.isSome ↔ args.purpose.utf8ByteSize ≤ PURPOSE_MAX_LEN) ∧
        (s.mandate.RoundTrips ↔ args.purpose.utf8ByteSize ≤ PURPOSE_MAX_LEN)) ∧
    (∀ {now : Int64} {signers : List Pubkey} {accts : OpenTradeRule}
        {args : OpenTradeRuleArgs} {w : World} {opening : TradeOutput} {s₀ s : TradeState}
        {h : TradeHistory}, openTradeRule rt now signers accts args w = .ok (opening, s₀) →
        Run (TradeStep rt) s₀ h s →
        (s.rule.store.isSome ↔ args.purpose.utf8ByteSize ≤ PURPOSE_MAX_LEN) ∧
        (s.rule.RoundTrips ↔ args.purpose.utf8ByteSize ≤ PURPOSE_MAX_LEN)) ∧
    vault.RoundTrips := by
  refine ⟨?_, ?_, vault.roundTrips⟩
  · intro now signers accts args w opening s₀ s h hopen run
    have hpurpose := Mandate.purpose_of_open hopen run
    rw [Option.isSome_iff_exists, s.mandate.roundTrips_iff, ← hpurpose]
    exact ⟨⟨fun ⟨_, hstore⟩ => (s.mandate.store_eq_some_iff.mp hstore).1,
      fun hfits => ⟨_, s.mandate.store_eq_some_iff.mpr ⟨hfits, rfl⟩⟩⟩, Iff.rfl⟩
  · intro now signers accts args w opening s₀ s h hopen run
    have hpurpose := TradeRule.purpose_of_open hopen run
    rw [Option.isSome_iff_exists, s.rule.roundTrips_iff, ← hpurpose]
    exact ⟨⟨fun ⟨_, hstore⟩ => (s.rule.store_eq_some_iff.mp hstore).1,
      fun hfits => ⟨_, s.rule.store_eq_some_iff.mpr ⟨hfits, rfl⟩⟩⟩, Iff.rfl⟩

/-- The mandate and the rule of the samples are held and read back after their runs. -/
theorem accounts_hold_iff_sample :
    (okValue sampleRun sampleRun_ok).2.mandate.RoundTrips ∧
    (okValue tradeRun tradeRun_ok).2.rule.RoundTrips :=
  ⟨((accounts_hold_iff _ (okValue (openSample 2) openSample_ok).2.vault).1 (eq_ok_okValue_pair sampleOpen sampleOpen_ok)
      (run_okValue sampleRun_ok)).2.mpr (by decide),
    ((accounts_hold_iff _ (okValue (openSample 2) openSample_ok).2.vault).2.1 (eq_ok_okValue_pair tradeOpen tradeOpen_ok) tradeRun_run).2.mpr (by decide)⟩

/-- The mandate of the samples, for a purpose of 64 letters of two bytes each. -/
def accentedOpen : MandateResult :=
  openMandate sampleRuntime 10 [1]
    { owner := 1, mandate := 100, ledger := 101, source := 10, mint := 3,
      tokenProgram := splTokenId }
    { mandateId := 7, agent := 2, merchant := 4, cap := 100, perTxMax := 40,
      expiresAt := 1000, purpose := String.ofList (List.replicate 64 'é') } sampleWorld

set_option maxRecDepth 20000 in
theorem accentedOpen_ok : accentedOpen.toBool = true := by decide

set_option maxRecDepth 20000 in
/-- **Admitted and not held.**  A purpose of 64 letters passes the check of `open_mandate`, and
the account has no room for the mandate that the instruction made. -/
theorem account_overflows :
    ∃ o s, accentedOpen = .ok (o, s) ∧ s.mandate.purpose.length = PURPOSE_MAX_LEN ∧
      s.mandate.store = none :=
  ⟨_, _, eq_ok_okValue_pair accentedOpen accentedOpen_ok, by decide, by decide⟩

end Veto

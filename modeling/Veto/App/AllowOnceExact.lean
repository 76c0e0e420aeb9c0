import Veto.App.AllowOnce
import Veto.System.Overrides

/-!
# The assessment against the program

Every refused row of a run keeps what its refusal established, whatever happens later: the
maximum it broke does not change, and the room that was missing does not come back.  With that
the assessments of both kinds of rule are compared with the answers of the program.
-/

namespace Veto

open Foundation App

/-! ## The rows of a mandate -/

/-- What a refused row says, as long as the mandate stands. -/
structure Mandate.Explains (m : Mandate) (e : Entry) : Prop where
  suggested : e.suggestedOverride ≠ 0 → e.suggestedOverride = e.amount
  above : e.reason = .overPerTxMax → m.perTxMax < e.amount
  capped : e.reason = .overPerTxMax → e.suggestedOverride = 0 → m.remaining < e.amount

theorem perTxMax_le_effective (m : Mandate) (nonce : UInt64) :
    m.perTxMax ≤ m.effectivePerTxMax nonce := by
  unfold Mandate.effectivePerTxMax
  split
  · exact le_max_iff_of_words.mpr (.inl UInt64.le_rfl)
  · exact UInt64.le_rfl

section MandateRows

variable {rt : Runtime} {s₀ s s' : MandateState} {i : MandateInput} {o : MandateOutput}
  {h : MandateHistory} {e : Entry}

theorem MandateEffect.remaining_le (heff : MandateEffect s i o s') :
    s'.mandate.remaining ≤ s.mandate.remaining := by
  cases heff with
  | paid _ _ _ _ _ _ _ total =>
      rw [UInt64.le_iff_toNat_le]
      unfold Mandate.remaining
      rw [toNat_saturatingSub, toNat_saturatingSub]
      simp only [Mandate.settle]
      omega
  | refused => exact UInt64.le_rfl
  | granted => exact UInt64.le_rfl
  | revoked => exact UInt64.le_rfl
  | outside => exact UInt64.le_rfl

theorem Mandate.Explains.step (hexplains : s.mandate.Explains e)
    (heff : MandateEffect s i o s') : s'.mandate.Explains e := by
  have hmax : s'.mandate.perTxMax = s.mandate.perTxMax := congrArg MandateTerms.perTxMax heff.terms_eq
  refine ⟨hexplains.suggested, fun hreason => ?_, fun hreason hzero => ?_⟩
  · rw [hmax]
    exact hexplains.above hreason
  · exact UInt64.lt_of_le_of_lt heff.remaining_le (hexplains.capped hreason hzero)

/-- A step that writes a refused row is a charge, and the row explains its refusal. -/
theorem MandateStep.explains (hstep : MandateStep rt s i o s') (he : e ∈ o.records)
    (hkind : e.kind = .refused) : s.mandate.Explains e := by
  cases MandateStep.effect hstep with
  | paid _ _ _ _ _ _ _ _ _ records =>
      rw [records, List.mem_singleton] at he
      rw [he] at hkind
      cases hkind
  | @refused accts amount nonce _ _ _ instr _ _ _ =>
      unfold MandateStep MandateState.exec at hstep
      rw [instr] at hstep
      obtain ⟨ctx, hload, -⟩ := bind_ok_iff.mp hstep
      have hrecorded := charge_recorded hload hstep
      by_cases hok : evaluate s.mandate s.key ctx.source ctx.destination amount nonce i.now = .ok
      · rw [hrecorded.1 hok, List.mem_singleton] at he
        rw [he] at hkind
        cases hkind
      obtain ⟨entry, hentry, hrecords, -⟩ := hrecorded.2 hok
      rw [hrecords, List.mem_singleton] at he
      subst he
      rw [hentry]
      refine ⟨fun hne => ?_, fun hreason => ?_, fun hreason hzero => ?_⟩
      · have hmade : suggestedOverride s.mandate _ amount ≠ 0 := hne
        unfold suggestedOverride at hmade
        exact if_pos (ite_ne_right_iff.mp hmade).1
      · obtain ⟨-, -, -, -, -, above⟩ := evaluate_eq_overPerTxMax_iff.mp hreason
        exact UInt64.lt_of_le_of_lt (perTxMax_le_effective _ _) above
      · obtain ⟨-, -, hpositive, -⟩ := evaluate_eq_overPerTxMax_iff.mp hreason
        by_contra hroom
        have hsuggested : suggestedOverride s.mandate _ amount = amount :=
          if_pos ⟨hreason, UInt64.not_lt.mp hroom⟩
        exact hpositive (hsuggested.symm.trans hzero)
  | granted _ _ _ _ _ _ _ records =>
      rw [records, List.mem_singleton] at he
      rw [he] at hkind
      cases hkind
  | revoked _ _ _ records =>
      rw [records, List.mem_singleton] at he
      rw [he] at hkind
      cases hkind
  | outside _ records =>
      rw [records] at he
      cases he

/-- **Every refused row explains its refusal to the end.** -/
theorem Mandate.Explains.run {opened : List Entry} (run : Run (MandateStep rt) s₀ h s)
    (start : ∀ e ∈ opened, e.kind ≠ .refused) (he : e ∈ written h ++ opened)
    (hkind : e.kind = .refused) : s.mandate.Explains e := by
  refine run.carries (P := fun h s => ∀ e ∈ written h ++ opened, e.kind = .refused →
    s.mandate.Explains e) ?_ ?_ e he hkind
  · intro e he hkind
    exact absurd hkind (start e he)
  · intro h s i o s' _ ih hstep e he hkind
    rw [written_cons, List.append_assoc] at he
    rcases List.mem_append.mp he with hnew | hold
    · exact (hstep.explains (List.mem_reverse.mp hnew) hkind).step (MandateStep.effect hstep)
    · exact (ih e hold hkind).step (MandateStep.effect hstep)

end MandateRows

/-! ## The answers of a mandate -/

/-- The accounts of the grant that the app builds. -/
def MandateState.overrideAction (rt : Runtime) (s : MandateState) (tokenProgram : Pubkey) :
    OwnerAction where
  owner := s.mandate.owner
  ledger := (rt.pda.find (ledgerSeeds s.key)).1
  source := s.mandate.source
  tokenProgram := tokenProgram

/-- The program accepts the owner's grant, at any time and through either token program, and
the mandate then stands so. -/
def MandateState.AcceptsGrant (rt : Runtime) (s : MandateState) (nonce granted : UInt64)
    (after : Standing) : Prop :=
  ∀ t tokenProgram, tokenProgram = splTokenId ∨ tokenProgram = splToken2022Id →
    ∃ o s', grantOverride rt t [s.mandate.owner] (s.overrideAction rt tokenProgram) granted nonce s =
      .ok (o, s') ∧ s'.mandate.standing = after

/-- The source account of the mandate is still a token account. -/
def MandateState.HasSource (s : MandateState) : Prop :=
  ∃ source, s.world.interfaceToken s.mandate.source = .ok source

/-- The accounts and the clock that a retried charge finds. -/
structure ChargeRetry where
  source : TokenAccount
  destination : TokenAccount
  now : Int64

/-- The policy has nothing against the retry of a refused charge. -/
def ChargeRetry.Passes (r : ChargeRetry) (s : MandateState) (e : Entry) : Prop :=
  evaluate s.mandate s.key r.source r.destination e.amount e.nonce r.now = .ok

/-- Some grant for the nonce goes through, and the retry is then not refused. -/
def ChargeRetry.ClearedBy (r : ChargeRetry) (rt : Runtime) (s : MandateState) (e : Entry) : Prop :=
  ∃ t signers action granted o s',
    grantOverride rt t signers action granted e.nonce s = .ok (o, s') ∧ r.Passes s' e

section MandateAnswers

variable {rt : Runtime} {s : MandateState} {e : Entry} {r : ChargeRetry}

theorem MandateState.overrideAction_load {tokenProgram : Pubkey}
    (hprogram : tokenProgram = splTokenId ∨ tokenProgram = splToken2022Id) :
    (∃ source, (s.overrideAction rt tokenProgram).load rt [s.mandate.owner] s = .ok source) ↔
      s.HasSource := by
  unfold OwnerAction.load tokenInterface HasSource
  simp only [↓signer_bind_ok_iff, ↓require_bind_ok_iff, bind_ok_iff]
  constructor
  · rintro ⟨_, -, -, -, -, source, hsource, -⟩
    exact ⟨source, hsource⟩
  · rintro ⟨source, hsource⟩
    exact ⟨source, List.mem_singleton_self _, rfl, rfl, rfl, source, hsource, hprogram, rfl⟩

theorem MandateState.acceptsGrant_iff {nonce granted : UInt64} {after : Standing}
    (h : s.mandate.standing.Grantable granted nonce) :
    s.AcceptsGrant rt nonce granted after ↔
      s.HasSource ∧ after = s.mandate.standing.grant granted nonce := by
  constructor
  · intro haccepts
    obtain ⟨o, s', hgrant, rfl⟩ := haccepts 0 splTokenId (.inl rfl)
    obtain ⟨hload, -, -, -, -, -, rfl⟩ := grantOverride_ok_iff.mp ⟨o, hgrant⟩
    exact ⟨(overrideAction_load (.inl rfl)).mp hload, rfl⟩
  · rintro ⟨hsource, rfl⟩ t tokenProgram hprogram
    obtain ⟨o, hgrant⟩ := grantOverride_ok_iff.mpr ⟨(overrideAction_load hprogram).mpr hsource,
      h.named, h.positive, h.active, h.fresh, h.capped, rfl⟩
    exact ⟨o, _, hgrant, rfl⟩

/-- A retry that passes after the grant of its own amount could be granted. -/
theorem ChargeRetry.Passes.grantable {now : Int64}
    (h : r.Passes (s.granted now e.amount e.nonce) e) :
    s.mandate.standing.Grantable e.amount e.nonce := by
  obtain ⟨active, -, positive, fresh, -, -, capped, -⟩ := evaluate_eq_ok_iff.mp h
  refine ⟨?_, UInt64.pos_iff_ne_zero.mpr positive, active, fresh,
    (le_saturatingSub_iff positive).mpr capped⟩
  intro hzero
  rw [hzero] at fresh
  exact UInt64.not_lt_zero fresh

theorem ChargeRetry.Passes.unexpired {now : Int64}
    (h : r.Passes (s.granted now e.amount e.nonce) e) : r.now < s.mandate.expiresAt :=
  (evaluate_eq_ok_iff.mp h).2.1

/-- A grant that clears a retry clears it also when it is of the refused amount. -/
theorem ChargeRetry.clearedBy_iff :
    r.ClearedBy rt s e ↔ s.HasSource ∧ r.Passes (s.granted r.now e.amount e.nonce) e := by
  constructor
  · rintro ⟨t, signers, action, granted, o, s', hgrant, hpasses⟩
    obtain ⟨⟨source, hload⟩, hnamed, -, -, -, -, rfl⟩ := grantOverride_ok_iff.mp ⟨o, hgrant⟩
    unfold OwnerAction.load at hload
    simp only [↓signer_bind_ok_iff, ↓require_bind_ok_iff, bind_ok_iff] at hload
    obtain ⟨-, -, hsource, -, source', hinterface, -⟩ := hload
    rw [← hsource] at hinterface
    refine ⟨⟨source', hinterface⟩, ?_⟩
    obtain ⟨active, unexpired, positive, fresh, merchant, -, rest⟩ := evaluate_eq_ok_iff.mp hpasses
    have hceiling : (s.mandate.grant e.amount e.nonce).effectivePerTxMax e.nonce =
        max s.mandate.perTxMax e.amount := if_pos ⟨hnamed, rfl⟩
    refine evaluate_eq_ok_iff.mpr ⟨active, unexpired, positive, fresh, merchant, ?_, rest⟩
    show e.amount ≤ (s.mandate.grant e.amount e.nonce).effectivePerTxMax e.nonce
    rw [hceiling]
    exact le_max_iff_of_words.mpr (.inr UInt64.le_rfl)
  · rintro ⟨hsource, hpasses⟩
    obtain ⟨o, s', hgrant, -⟩ := (MandateState.acceptsGrant_iff hpasses.grantable).mpr
      ⟨hsource, rfl⟩ r.now splTokenId (.inl rfl)
    obtain ⟨-, -, -, -, -, -, hs'⟩ := grantOverride_ok_iff.mp ⟨o, hgrant⟩
    exact ⟨_, _, _, e.amount, o, s', hgrant, hs' ▸ hpasses⟩

end MandateAnswers

/-! ## The rows of a trade rule -/

/-- What a refused trade says, as long as the rule stands.  A missing suggestion says less than
for a mandate: the room of the day comes back. -/
structure TradeRule.Explains (rule : TradeRule) (e : TradeEntry) : Prop where
  suggested : e.suggestedOverride ≠ 0 → e.suggestedOverride = e.amountIn
  above : e.reason = .overPerTxMax → rule.perTradeMax < e.amountIn

theorem perTradeMax_le_effective (rule : TradeRule) (nonce : UInt64) :
    rule.perTradeMax ≤ rule.effectivePerTradeMax nonce := by
  unfold TradeRule.effectivePerTradeMax
  split
  · exact le_max_iff_of_words.mpr (.inl UInt64.le_rfl)
  · exact UInt64.le_rfl

theorem TradeRule.suggested_eq {rule : TradeRule} {reason : TradeReason}
    {amountIn suggestion : UInt64} {now : Int64}
    (h : rule.suggestedOverride reason amountIn now = .ok suggestion) (hne : suggestion ≠ 0) :
    suggestion = amountIn := by
  unfold TradeRule.suggestedOverride at h
  by_cases hreason : reason = .overPerTxMax
  · rw [if_neg (not_not.mpr hreason)] at h
    obtain ⟨windowSpent, -, h⟩ := bind_ok_iff.mp h
    by_cases hroom : amountIn ≤ rule.remaining ∧
        amountIn ≤ saturatingSub rule.dailyLimit windowSpent
    · simp only [if_pos hroom] at h
      cases h
      rfl
    · simp only [if_neg hroom] at h
      cases h
      exact absurd rfl hne
  · rw [if_pos hreason] at h
    cases h
    exact absurd rfl hne

section TradeRows

variable {rt : Runtime} {s₀ s s' : TradeState} {i : TradeInput} {o : TradeOutput}
  {h : TradeHistory} {e : TradeEntry}

theorem TradeRule.Explains.step (hexplains : s.rule.Explains e)
    (heff : TradeEffect s i o s') : s'.rule.Explains e := by
  have hmax : s'.rule.perTradeMax = s.rule.perTradeMax :=
    congrArg TradeTerms.perTradeMax heff.terms_eq
  refine ⟨hexplains.suggested, fun hreason => ?_⟩
  rw [hmax]
  exact hexplains.above hreason

/-- A step that writes a refused row is a trade, and the row explains its refusal. -/
theorem TradeStep.explains (hstep : TradeStep rt s i o s') (he : e ∈ o.records)
    (hkind : e.kind = .refused) : s.rule.Explains e := by
  cases TradeStep.effect hstep with
  | traded _ _ _ _ _ _ _ _ _ _ _ _ records =>
      rw [records, List.mem_singleton] at he
      rw [he] at hkind
      cases hkind
  | @refused accts amountIn minOut nonce _ exchange _ _ instr _ _ _ _ =>
      unfold TradeStep TradeState.exec at hstep
      rw [instr] at hstep
      obtain ⟨source, hload, -⟩ := bind_ok_iff.mp hstep
      obtain ⟨-, verdict, hverdict, hdone⟩ := (trade_ok_iff hload).mp hstep
      by_cases hok : verdict.reason = .ok
      · rw [if_pos hok] at hdone
        obtain ⟨e', hrecords, htraded⟩ := settleTrade_recorded hdone
        rw [hrecords, List.mem_singleton] at he
        rw [he, htraded] at hkind
        cases hkind
      rw [if_neg hok] at hdone
      obtain ⟨suggestion, hsuggestion, entry, hentry, hrecords, -⟩ := recordRefusal_ok hdone
      rw [hrecords, List.mem_singleton] at he
      subst he
      rw [hentry]
      refine ⟨TradeRule.suggested_eq hsuggestion, fun hreason => ?_⟩
      obtain ⟨-, -, -, -, -, -, above⟩ := TradeRule.above_of_evaluate hverdict hreason
      exact UInt64.lt_of_le_of_lt (perTradeMax_le_effective _ _) above
  | granted _ _ _ _ _ _ _ records =>
      rw [records, List.mem_singleton] at he
      rw [he] at hkind
      cases hkind
  | revoked _ _ _ records =>
      rw [records, List.mem_singleton] at he
      rw [he] at hkind
      cases hkind
  | outside _ records =>
      rw [records] at he
      cases he

/-- **Every refused trade explains its refusal to the end.** -/
theorem TradeRule.Explains.run {opened : List TradeEntry} (run : Run (TradeStep rt) s₀ h s)
    (start : ∀ e ∈ opened, e.kind ≠ .refused) (he : e ∈ written h ++ opened)
    (hkind : e.kind = .refused) : s.rule.Explains e := by
  refine run.carries (P := fun h s => ∀ e ∈ written h ++ opened, e.kind = .refused →
    s.rule.Explains e) ?_ ?_ e he hkind
  · intro e he hkind
    exact absurd hkind (start e he)
  · intro h s i o s' _ ih hstep e he hkind
    rw [written_cons, List.append_assoc] at he
    rcases List.mem_append.mp he with hnew | hold
    · exact (hstep.explains (List.mem_reverse.mp hnew) hkind).step (TradeStep.effect hstep)
    · exact (ih e hold hkind).step (TradeStep.effect hstep)

end TradeRows

/-! ## The answers of a trade rule -/

/-- The accounts of the grant that the app builds. -/
def TradeState.overrideAction (rt : Runtime) (s : TradeState) : GrantTradeOverride where
  owner := s.rule.owner
  ledger := (rt.pda.find (tradeLedgerSeeds s.key)).1

/-- The program accepts the owner's grant, at any time, and the rule then stands so. -/
def TradeState.AcceptsGrant (rt : Runtime) (s : TradeState) (nonce granted : UInt64)
    (after : Standing) : Prop :=
  ∀ t, ∃ o s', grantTradeOverride rt t [s.rule.owner] (s.overrideAction rt) granted nonce s =
    .ok (o, s') ∧ s'.rule.standing = after

/-- The accounts and the clock that a retried trade finds. -/
structure TradeRetry where
  accts : Trade
  source : TokenAccount
  world : World
  now : Int64

/-- The policy has nothing against the retry of a refused trade. -/
def TradeRetry.Passes (r : TradeRetry) (s : TradeState) (e : TradeEntry) : Prop :=
  ∃ verdict, s.rule.evaluate s.key r.source r.accts r.world e.amountIn e.nonce r.now = .ok verdict ∧
    verdict.reason = .ok

/-- Some grant for the nonce goes through, and the retry is then not refused. -/
def TradeRetry.ClearedBy (r : TradeRetry) (rt : Runtime) (s : TradeState) (e : TradeEntry) : Prop :=
  ∃ t signers action granted o s',
    grantTradeOverride rt t signers action granted e.nonce s = .ok (o, s') ∧ r.Passes s' e

section TradeAnswers

variable {rt : Runtime} {s : TradeState} {e : TradeEntry} {r : TradeRetry}

theorem TradeRetry.passes_iff : r.Passes s e ↔
    s.rule.Allows s.key r.source r.accts r.world e.amountIn e.nonce r.now := by
  constructor
  · rintro ⟨verdict, hverdict, hok⟩
    exact TradeRule.allows_of_evaluate hverdict hok
  · intro hallows
    exact ⟨_, hallows.evaluate, rfl⟩

theorem TradeState.acceptsGrant_iff {nonce granted : UInt64} {after : Standing}
    (h : s.rule.standing.Grantable granted nonce) :
    s.AcceptsGrant rt nonce granted after ↔ after = s.rule.standing.grant granted nonce := by
  constructor
  · intro haccepts
    obtain ⟨o, s', hgrant, rfl⟩ := haccepts 0
    obtain ⟨-, -, -, -, -, -, rfl⟩ := grantTradeOverride_ok_iff.mp ⟨o, hgrant⟩
    rfl
  · rintro rfl t
    have hload : (s.overrideAction rt).load rt [s.rule.owner] s = .ok () := by
      unfold GrantTradeOverride.load
      rw [signer_bind_ok_iff, require_bind_ok_iff]
      exact ⟨List.mem_singleton_self _, rfl, require_true rfl⟩
    obtain ⟨o, hgrant⟩ := grantTradeOverride_ok_iff.mpr
      ⟨hload, h.named, h.positive, h.active, h.fresh, h.capped, rfl⟩
    exact ⟨o, _, hgrant, rfl⟩

theorem TradeRetry.Passes.grantable {now : Int64}
    (h : r.Passes (s.granted now e.amountIn e.nonce) e) :
    s.rule.standing.Grantable e.amountIn e.nonce := by
  have hallows := TradeRetry.passes_iff.mp h
  have fresh : s.rule.lastNonce < e.nonce := hallows.fresh
  refine ⟨?_, UInt64.pos_iff_ne_zero.mpr hallows.positive, hallows.active, fresh,
    (le_saturatingSub_iff hallows.positive).mpr hallows.capped⟩
  intro hzero
  rw [hzero] at fresh
  exact UInt64.not_lt_zero fresh

theorem TradeRetry.clearedBy_iff :
    r.ClearedBy rt s e ↔ r.Passes (s.granted r.now e.amountIn e.nonce) e := by
  constructor
  · rintro ⟨t, signers, action, granted, o, s', hgrant, hpasses⟩
    obtain ⟨-, hnamed, -, -, -, -, rfl⟩ := grantTradeOverride_ok_iff.mp ⟨o, hgrant⟩
    have hallows := TradeRetry.passes_iff.mp hpasses
    have hceiling : (s.rule.grant e.amountIn e.nonce).effectivePerTradeMax e.nonce =
        max s.rule.perTradeMax e.amountIn := if_pos ⟨hnamed, rfl⟩
    refine TradeRetry.passes_iff.mpr { hallows with ceiling := ?_ }
    show e.amountIn ≤ (s.rule.grant e.amountIn e.nonce).effectivePerTradeMax e.nonce
    rw [hceiling]
    exact le_max_iff_of_words.mpr (.inr UInt64.le_rfl)
  · intro hpasses
    obtain ⟨o, s', hgrant, -⟩ := (TradeState.acceptsGrant_iff hpasses.grantable).mpr rfl r.now
    obtain ⟨-, -, -, -, -, -, hs'⟩ := grantTradeOverride_ok_iff.mp ⟨o, hgrant⟩
    exact ⟨_, _, _, e.amountIn, o, s', hgrant, hs' ▸ hpasses⟩

end TradeAnswers

/-! ## The assessments -/

theorem Reason.code_eq_overPerTxMax {reason : Reason} :
    reason.code = Constants.REASON_OVER_PER_TX_MAX ↔ reason = .overPerTxMax := by
  cases reason <;> decide

theorem TradeReason.code_eq_overPerTxMax {reason : TradeReason} :
    reason.code = Constants.REASON_OVER_PER_TX_MAX ↔ reason = .overPerTxMax := by
  cases reason <;> decide

/-- The answers of a mandate to a row of its ledger. -/
theorem Mandate.Explains.answers {rt : Runtime} {s : MandateState} {e : Entry}
    (h : s.mandate.Explains e) (nowSec : Int) (r : ChargeRetry) :
    Answers s.mandate.standing (.of e.raw) nowSec (s.AcceptsGrant rt e.nonce) (r.ClearedBy rt s e)
      s.HasSource (s.mandate.expiresAt.toInt ≤ nowSec)
      (s.HasSource ∧ r.Passes (s.granted r.now e.amount e.nonce) e) where
  suggested := h.suggested
  above hreason := h.above (Reason.code_eq_overPerTxMax.mp hreason)
  accepts _ _ hgrantable := MandateState.acceptsGrant_iff hgrantable
  clears := ChargeRetry.clearedBy_iff
  grantable hpasses := hpasses.2.grantable
  doubt hexpired := .inr hexpired
  certain hreason hpasses hclock := by
    refine ⟨fun hzero => ?_, not_le.mp hclock⟩
    have hroom := h.capped (Reason.code_eq_overPerTxMax.mp hreason) hzero
    exact absurd hpasses.2.grantable.capped (UInt64.not_le.mpr hroom)

/-- The answers of a trade rule to a row of its ledger. -/
theorem TradeRule.Explains.answers {rt : Runtime} {s : TradeState} {e : TradeEntry}
    (h : s.rule.Explains e) (nowSec : Int) (r : TradeRetry) :
    Answers s.rule.standing (TradeRingEntry.of e.raw).toRingEntry nowSec (s.AcceptsGrant rt e.nonce)
      (r.ClearedBy rt s e) True (e.suggestedOverride = 0 ∨ s.rule.expiresAt.toInt ≤ nowSec)
      (r.Passes (s.granted r.now e.amountIn e.nonce) e) where
  suggested := h.suggested
  above hreason := h.above (TradeReason.code_eq_overPerTxMax.mp hreason)
  accepts _ _ hgrantable := by
    rw [true_and]
    exact TradeState.acceptsGrant_iff hgrantable
  clears := TradeRetry.clearedBy_iff
  grantable hpasses := hpasses.grantable
  doubt hdoubt := hdoubt
  certain _ _ hclear := ⟨fun hzero => hclear (.inl hzero), not_le.mp fun hle => hclear (.inr hle)⟩

/-- **When the assessment of an override is exact.**  For every row a mandate or a trade rule has
refused, at any time after: the assessment is borne out exactly when a pending override for the
row's nonce reaches the refused amount, the source of a mandate is there for its grant to name,
and no retry passes that the app has given up: one it holds to be past the expiry, or a trade for
which the program made no suggestion. -/
theorem assessOverride_exact_iff (rt : Runtime) (address : String) (decimals : Nat) (nowSec : Int) :
    (∀ {opened : Int64} {signers : List Pubkey} {opening : OpenMandate} {args : OpenMandateArgs}
      {w : World} {o₀ : MandateOutput} {s₀ s : MandateState} {h : MandateHistory} {e : Entry},
      openMandate rt opened signers opening args w = .ok (o₀, s₀) →
      Run (MandateStep rt) s₀ h s → e ∈ written h ++ o₀.records → e.kind = .refused →
      ∀ r : ChargeRetry,
        (assessOverride (RingEntry.of e.raw).overrideSource (.read address s.mandate) decimals
          (some nowSec)).BorneOut s.mandate.standing (.of e.raw) (s.AcceptsGrant rt e.nonce)
            (r.ClearedBy rt s e) ↔
        Told s.mandate.standing (.of e.raw) nowSec s.HasSource
          (s.mandate.expiresAt.toInt ≤ nowSec)
          (s.HasSource ∧ r.Passes (s.granted r.now e.amount e.nonce) e)) ∧
    (∀ {opened : Int64} {signers : List Pubkey} {opening : OpenTradeRule} {args : OpenTradeRuleArgs}
      {w : World} {o₀ : TradeOutput} {s₀ s : TradeState} {h : TradeHistory} {e : TradeEntry},
      openTradeRule rt opened signers opening args w = .ok (o₀, s₀) →
      Run (TradeStep rt) s₀ h s → e ∈ written h ++ o₀.records → e.kind = .refused →
      ∀ r : TradeRetry,
        (assessOverride (TradeRingEntry.of e.raw).overrideSource
          (tradeRuleAsMandate (.read address s.rule)) decimals (some nowSec)).BorneOut
            s.rule.standing (TradeRingEntry.of e.raw).toRingEntry (s.AcceptsGrant rt e.nonce)
            (r.ClearedBy rt s e) ↔
        Told s.rule.standing (TradeRingEntry.of e.raw).toRingEntry nowSec True
          (e.suggestedOverride = 0 ∨ s.rule.expiresAt.toInt ≤ nowSec)
          (r.Passes (s.granted r.now e.amountIn e.nonce) e)) := by
  constructor
  · intro opened signers opening args w o₀ s₀ s h e hopen run he hkind r
    have start : ∀ e ∈ o₀.records, e.kind ≠ .refused := by
      intro e he
      rw [(openMandate_opened hopen).records, List.mem_singleton] at he
      rw [he]
      exact Kind.noConfusion
    have hexplains := Mandate.Explains.run run start he hkind
    have hcode : (RingEntry.of e.raw).kind = Constants.KIND_REFUSED := congrArg Kind.code hkind
    exact (assessOverride_assessed (shows_read address s.mandate) decimals).borneOut_iff hcode
      (hexplains.answers nowSec r)
  · intro opened signers opening args w o₀ s₀ s h e hopen run he hkind r
    have start : ∀ e ∈ o₀.records, e.kind ≠ .refused := by
      intro e he
      rw [(openTradeRule_ok hopen).2, List.mem_singleton] at he
      rw [he]
      exact TradeKind.noConfusion
    have hexplains := TradeRule.Explains.run run start he hkind
    have hcode : (TradeRingEntry.of e.raw).kind = Constants.KIND_REFUSED :=
      congrArg TradeKind.code hkind
    exact (assessOverride_assessed (shows_tradeRuleAsMandate address s.rule) decimals).borneOut_iff
      hcode (hexplains.answers nowSec r)

/-! ### A row that is ready, and two that are misjudged -/

section Sample

/-- The first two steps of the sample: a payment of 30, and a charge of 50 that is refused. -/
def refusedRun : Except ProgramError (MandateHistory × MandateState) :=
  execAll (MandateState.exec sampleRuntime) [] (okValue sampleOpen sampleOpen_ok).2
    (sampleInputs.take 2)

theorem refusedRun_ok : refusedRun.toBool = true := rfl

/-- The row of the charge of 50. -/
def refusedRow : Entry := refusedEntry 30 11 50 2 50 .overPerTxMax

/-- The charge of 50 again, on the accounts as they are. -/
def sampleRetry : ChargeRetry :=
  { source := ⟨3, 1, 470, some 100, 70, false⟩, destination := ⟨3, 4, 30, none, 0, false⟩, now := 50 }

/-- In the sample the refusal of 50 is ready for its override, and that is borne out. -/
theorem assessOverride_exact_iff_sample :
    let s := (okValue refusedRun refusedRun_ok).2
    let row := RingEntry.of refusedRow.raw
    (∃ commit, assessOverride row.overrideSource (.read "" s.mandate) 6 (some 40) =
      .ready 50 2 commit) ∧
    (assessOverride row.overrideSource (.read "" s.mandate) 6 (some 40)).BorneOut s.mandate.standing
      row (s.AcceptsGrant sampleRuntime 2) (sampleRetry.ClearedBy sampleRuntime s refusedRow) := by
  refine ⟨⟨_, rfl⟩, ?_⟩
  have hmem : refusedRow ∈ written (okValue refusedRun refusedRun_ok).1 ++
      (okValue sampleOpen sampleOpen_ok).1.records := by decide
  refine ((assessOverride_exact_iff sampleRuntime "" 6 40).1
    (eq_ok_okValue_pair sampleOpen sampleOpen_ok) (run_okValue refusedRun_ok) hmem rfl
    sampleRetry).mpr ?_
  refine ⟨fun _ _ hpending => absurd hpending.2 (by decide), fun _ _ _ => ⟨_, rfl⟩,
    fun _ hexpired => ?_⟩
  exact absurd hexpired (by decide)

/-- A charge of 45 is refused and its override granted; the charge for the nonce is then of 50,
and refused as well. -/
def raisedInputs : List MandateInput :=
  [ { now := 20, signers := [2], instr := .charge chargeAccounts 45 1 },
    { now := 30, signers := [1], instr := .grantOverride ⟨1, 101, 10, splTokenId⟩ 45 1 },
    { now := 40, signers := [2], instr := .charge chargeAccounts 50 1 } ]

def raisedRun : Except ProgramError (MandateHistory × MandateState) :=
  execAll (MandateState.exec sampleRuntime) [] (okValue sampleOpen sampleOpen_ok).2 raisedInputs

theorem raisedRun_ok : raisedRun.toBool = true := rfl

/-- The trade rule of the sample, open for two days more. -/
def longTradeOpen : TradeResult :=
  openTradeRule tradeRuntime 10 [1]
    { owner := 1, rule := 100, ledger := 101, source := 10, destination := 11, inMint := 3,
      outMint := 4, exchangeProgram := SPL_TOKEN_SWAP_ID, pool := 20, poolAuthority := 21,
      poolInVault := 22, poolOutVault := 23, poolMint := 24, poolFeeAccount := 25,
      tokenProgram := splTokenId }
    { ruleId := 7, agent := 2, exchangeKind := 0, cap := 100, perTradeMax := 40,
      dailyLimit := 90, floorNum := 1, floorDen := 1, expiresAt := 200000, purpose := "rebalance" }
    tradeWorld

set_option maxRecDepth 20000 in
theorem longTradeOpen_ok : longTradeOpen.toBool = true := by decide

/-- A trade of 40, and one of 55 for which the day has no room left. -/
def fullDayInputs : List TradeInput :=
  [ { now := 20, signers := [2], instr := .trade tradeAccounts 40 0 1 (sampleSwap 40 75) },
    { now := 30, signers := [2], instr := .trade tradeAccounts 55 0 2 (sampleSwap 55 95) } ]

def fullDayRun : Except ProgramError (TradeHistory × TradeState) :=
  execAll (TradeState.exec tradeRuntime) [] (okValue longTradeOpen longTradeOpen_ok).2 fullDayInputs

set_option maxRecDepth 20000 in
theorem fullDayRun_ok : fullDayRun.toBool = true := by decide

/-- The trade of 55 again, on the second day. -/
def nextDayRetry : TradeRetry :=
  { accts := tradeAccounts
    source := ⟨3, 1, 460, some 100, 60, false⟩
    world := (okValue fullDayRun fullDayRun_ok).2.world
    now := 100000 }

set_option maxRecDepth 20000 in
/-- The app says of a refused 50 that the nonce already has its override, which is of 45: no retry
passes.  It says of a refused trade that the program will not accept an override: the program
accepts it, and the policy lets the retry through on the next day. -/
theorem assessOverride_misjudges :
    (let s := (okValue raisedRun raisedRun_ok).2
     let e := refusedEntry 40 11 50 1 50 .overPerTxMax
     e ∈ written (okValue raisedRun raisedRun_ok).1 ++ (okValue sampleOpen sampleOpen_ok).1.records ∧
     (∃ why, assessOverride (RingEntry.of e.raw).overrideSource (.read "" s.mandate) 6 (some 40) =
       .already 45 1 why) ∧
     ¬ s.mandate.standing.Passes e.amount e.nonce) ∧
    (let s := (okValue fullDayRun fullDayRun_ok).2
     let e := tradeRefusedEntry 30 20 55 0 2 0 .overPerTxMax
     e ∈ written (okValue fullDayRun fullDayRun_ok).1 ++
       (okValue longTradeOpen longTradeOpen_ok).1.records ∧
     assessOverride (TradeRingEntry.of e.raw).overrideSource (tradeRuleAsMandate (.read "" s.rule)) 6
       (some 100000) = .none CAP_OVERRIDE_REFUSAL ∧
     nextDayRetry.ClearedBy tradeRuntime s e) := by
  refine ⟨⟨by decide, ⟨_, rfl⟩, fun hpasses => ?_⟩, by decide, rfl, ?_⟩
  · exact absurd hpasses.ceiling (by decide)
  · refine TradeRetry.clearedBy_iff.mpr ⟨_, rfl, rfl⟩

end Sample

end Veto

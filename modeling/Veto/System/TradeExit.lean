import Veto.System.Delegates

/-!
# The owner's way out of a trade rule

`close_trade_rule` needs no source: where the source is gone, frozen or delegated to someone
else it revokes nothing.  Where the source still delegates to the rule it asks the token
program to revoke, as the owner of the rule, who need not hold the source any more.
-/

namespace Veto

open Foundation

/-- Somebody other than the owner of the rule holds the source, and delegates it to the rule. -/
def TradeState.HeldElsewhere (s : TradeState) : Prop :=
  ∃ a, s.world s.rule.source = some ⟨splTokenId, .token a⟩ ∧ a.delegate = some s.key ∧
    a.frozen = false ∧ a.owner ≠ s.rule.owner

/-- Every delegation to a key other than `key` is as it was. -/
def KeepsOthers (w w' : World) (key : Pubkey) : Prop :=
  ∀ k a d, w.tokenAt k = some a → a.delegate = some d → d ≠ key → w'.tokenAt k = some a

/-- What the owner passes to `close_trade_rule`. -/
def TradeState.closing (rt : Runtime) (s : TradeState) : CloseTradeRule :=
  { owner := s.rule.owner, ledger := (rt.pda.find (tradeLedgerSeeds s.key)).1,
    source := s.rule.source, tokenProgram := splTokenId }

section Exit

variable {rt : Runtime} {now : Int64} {signers : List Pubkey} {s : TradeState}

theorem shouldRevoke_eq_true {w : World} {source rule : Pubkey} :
    shouldRevoke w source rule = true ↔ ∃ a, w source = some ⟨splTokenId, .token a⟩ ∧
      a.delegate = some rule ∧ a.frozen = false := by
  unfold shouldRevoke
  constructor
  · intro h
    split at h
    · rename_i owner a hsource
      simp only [Bool.and_eq_true, decide_eq_true_eq, Bool.not_eq_true'] at h
      obtain ⟨⟨rfl, hdelegate⟩, hthawed⟩ := h
      exact ⟨a, hsource, hdelegate, hthawed⟩
    · cases h
  · rintro ⟨a, hsource, hdelegate, hthawed⟩
    rw [hsource]
    simp [hdelegate, TokenAccount.isFrozen, hthawed]

/-- The delegation is dropped, or there is none to drop, unless the source is held elsewhere. -/
theorem dropDelegation_ok_iff (htoken : rt.token.DecidesDelegation) :
    (∃ w, (s.closing rt).dropDelegation rt s = .ok w) ↔ ¬ s.HeldElsewhere := by
  unfold CloseTradeRule.dropDelegation
  by_cases hrevoke : shouldRevoke s.world (s.closing rt).source s.key = true
  · rw [if_pos hrevoke]
    obtain ⟨a, hsource, hdelegate, hthawed⟩ := shouldRevoke_eq_true.mp hrevoke
    have hasked : (∃ w, okOr (rt.token.revoke (s.closing rt).tokenProgram s.world
        { source := (s.closing rt).source, authority := (s.closing rt).owner }) .cpi =
          (.ok w : Except ProgramError World)) ↔ a.owner = s.rule.owner := by
      simp only [okOr_eq_ok]
      rw [← Option.isSome_iff_exists, htoken.revoke_iff]
      constructor
      · rintro ⟨b, hb, -, howner⟩
        have hsame := hsource.symm.trans hb
        cases hsame
        exact howner
      · intro howner
        exact ⟨a, hsource, hthawed, howner⟩
    rw [hasked]
    constructor
    · rintro howner ⟨b, hb, -, -, hother⟩
      have hsame := hsource.symm.trans hb
      cases hsame
      exact hother howner
    · intro hhere
      by_contra hother
      exact hhere ⟨a, hsource, hdelegate, hthawed, hother⟩
  · rw [if_neg hrevoke]
    constructor
    · rintro - ⟨a, hsource, hdelegate, hthawed, -⟩
      exact hrevoke (shouldRevoke_eq_true.mpr ⟨a, hsource, hdelegate, hthawed⟩)
    · intro _
      exact ⟨_, rfl⟩

/-- A call that rewrites one account, which delegates to `key`, keeps every other delegation. -/
theorem keepsOthers_of_own {w w' : World} {source key : Pubkey}
    (h : w' = w ∨ (∃ a, w.tokenAt source = some a ∧ a.delegate = some key) ∧
      ∃ info, w' = w.set source info) : KeepsOthers w w' key := by
  intro k a d hk hd hne
  rcases h with rfl | ⟨⟨b, hsource, hown⟩, info, rfl⟩
  · exact hk
  · have hother : k ≠ source := by
      rintro rfl
      rw [hsource, Option.some.injEq] at hk
      subst hk
      rw [hown, Option.some.injEq] at hd
      exact hne hd.symm
    rw [World.tokenAt_set_of_ne _ _ hother]
    exact hk

/-- **The owner's exit from a trade rule.**  A rule that is not active or is past its expiry
closes under the owner's signature, whatever became of its source, exactly when the source is
not held by someone else who delegates it to the rule.  Neither closing nor revoking touches a
delegation to any other key. -/
theorem trade_rule_exit_iff (htoken : rt.token.DecidesDelegation)
    (hended : s.rule.status ≠ .active ∨ s.rule.expiresAt ≤ now)
    (hsigned : s.rule.owner ∈ signers) :
    ((∃ closing, closeTradeRule rt now signers (s.closing rt) s = .ok closing ∧
        s.key ∈ closing.closed ∧ closing.rentTo = s.rule.owner) ↔ ¬ s.HeldElsewhere) ∧
    (∀ accts closing, closeTradeRule rt now signers accts s = .ok closing →
      KeepsOthers s.world closing.world s.key) ∧
    ∀ accts o s', revokeTradeRule rt now signers accts s = .ok (o, s') →
      KeepsOthers s.world s'.world s.key := by
  have hload : (s.closing rt).load rt signers s = .ok () := by
    unfold CloseTradeRule.load classicProgram
    simp only [↓signer_bind_ok_iff, ↓require_bind_ok_iff]
    exact ⟨hsigned, rfl, rfl, rfl, require_true rfl⟩
  refine ⟨?_, ?_, ?_⟩
  · rw [← dropDelegation_ok_iff htoken]
    unfold closeTradeRule
    rw [hload, ok_bind, require_true hended, ok_bind]
    constructor
    · rintro ⟨closing, h, -⟩
      obtain ⟨w, hw, -⟩ := bind_ok_iff.mp h
      exact ⟨w, hw⟩
    · rintro ⟨w, hw⟩
      rw [hw, ok_bind]
      exact ⟨_, rfl, List.mem_cons_self, rfl⟩
  · intro accts closing h
    exact keepsOthers_of_own (closeTradeRule_revokes htoken h)
  · intro accts o s' h
    exact keepsOthers_of_own (revokeTradeRule_revokes htoken h)

end Exit

/-! ### With the source there, and with the source given away -/

section Sample

set_option maxRecDepth 20000 in
/-- Past its expiry the rule of the sample closes. -/
theorem trade_rule_exit_iff_sample :
    ∃ closing, closeTradeRule tradeRuntime 2000 [1]
      ((okValue tradeOpen tradeOpen_ok).2.closing tradeRuntime) (okValue tradeOpen tradeOpen_ok).2 =
        .ok closing := by
  have hfacts : (okValue tradeOpen tradeOpen_ok).2.rule.expiresAt ≤ 2000 ∧
      (okValue tradeOpen tradeOpen_ok).2.rule.owner = 1 ∧
      (okValue tradeOpen tradeOpen_ok).2.world.tokenOwner
        (okValue tradeOpen tradeOpen_ok).2.rule.source = some 1 := by decide
  obtain ⟨hexpired, howner, hholder⟩ := hfacts
  have htoken : tradeRuntime.token.DecidesDelegation := classicToken_delegates
  have hsigned : (okValue tradeOpen tradeOpen_ok).2.rule.owner ∈ [1] :=
    List.mem_singleton.mpr howner
  have hexit := trade_rule_exit_iff htoken (.inr hexpired) hsigned
  have hhere : ¬ (okValue tradeOpen tradeOpen_ok).2.HeldElsewhere := by
    rintro ⟨a, hsource, -, -, hother⟩
    unfold World.tokenOwner at hholder
    rw [World.tokenAt_eq hsource] at hholder
    exact hother ((Option.some.inj hholder).trans howner.symm)
  obtain ⟨closing, hclose, -⟩ := hexit.1.mpr hhere
  exact ⟨closing, hclose⟩

/-- The owner gave account 10 to 5, who made the rule its delegate again. -/
def givenWorld : World := fun k =>
  if k = 10 then some ⟨splTokenId, .token ⟨3, 5, 500, some 100, 1, false⟩⟩ else tradeWorld k

def givenRun : Except ProgramError (TradeHistory × TradeState) :=
  execAll (TradeState.exec tradeRuntime) [] (okValue tradeOpen tradeOpen_ok).2
    [{ now := 15, signers := [1, 5], instr := .outside givenWorld }]

theorem givenRun_ok : givenRun.toBool = true := rfl

set_option maxRecDepth 20000 in
/-- Past its expiry the rule does not close as long as 5 keeps that delegation. -/
theorem trade_rule_has_no_exit :
    let s := (okValue givenRun givenRun_ok).2
    tradeRuntime.token.DecidesDelegation ∧
    Run (TradeStep tradeRuntime) (okValue tradeOpen tradeOpen_ok).2
      (okValue givenRun givenRun_ok).1 s ∧
    s.rule.expiresAt ≤ 2000 ∧ s.rule.owner = 1 ∧
    ¬ ∃ closing, closeTradeRule tradeRuntime 2000 [1] (s.closing tradeRuntime) s = .ok closing := by
  have hfacts : (okValue givenRun givenRun_ok).2.rule.expiresAt ≤ 2000 ∧
      (okValue givenRun givenRun_ok).2.rule.owner = 1 ∧
      (closeTradeRule tradeRuntime 2000 [1] ((okValue givenRun givenRun_ok).2.closing tradeRuntime)
        (okValue givenRun givenRun_ok).2).toBool = false := by decide
  obtain ⟨hexpired, howner, hfails⟩ := hfacts
  refine ⟨classicToken_delegates, run_okValue givenRun_ok, hexpired, howner, ?_⟩
  rintro ⟨closing, hclose⟩
  rw [hclose] at hfails
  cases hfails

end Sample

end Veto

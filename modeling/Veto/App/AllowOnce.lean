import Veto.App.Override
import Veto.Mandate.Suggestion
import Veto.Trade.Suggestion

/-!
# When the assessment of an override is borne out

A mandate and a trade rule share the eight fields an assessment is made from.  What the app says
is compared with what the program answers: to the grant, and to the retry of the refused amount.
-/

namespace Veto

open Foundation

/-! ## What an override is judged by -/

/-- The fields of a mandate, or of a trade rule, that an override depends on. -/
structure Standing where
  status : Status
  cap : UInt64
  spent : UInt64
  perMax : UInt64
  expiresAt : Int64
  overrideAmount : UInt64
  overrideNonce : UInt64
  lastNonce : UInt64

def Mandate.standing (m : Mandate) : Standing where
  status := m.status
  cap := m.cap
  spent := m.spent
  perMax := m.perTxMax
  expiresAt := m.expiresAt
  overrideAmount := m.overrideAmount
  overrideNonce := m.overrideNonce
  lastNonce := m.lastNonce

def TradeRule.standing (rule : TradeRule) : Standing where
  status := rule.status
  cap := rule.cap
  spent := rule.spent
  perMax := rule.perTradeMax
  expiresAt := rule.expiresAt
  overrideAmount := rule.overrideAmount
  overrideNonce := rule.overrideNonce
  lastNonce := rule.lastNonce

namespace Standing

def ceiling (p : Standing) (nonce : UInt64) : UInt64 :=
  if p.overrideNonce ≠ 0 ∧ p.overrideNonce = nonce then max p.perMax p.overrideAmount
  else p.perMax

def remaining (p : Standing) : UInt64 := saturatingSub p.cap p.spent

def grant (p : Standing) (amount nonce : UInt64) : Standing :=
  { p with overrideAmount := amount, overrideNonce := nonce }

/-- The per-payment check and the cap check. -/
structure Passes (p : Standing) (amount nonce : UInt64) : Prop where
  ceiling : amount ≤ p.ceiling nonce
  capped : ∃ total, checkedAdd p.spent amount = some total ∧ total ≤ p.cap

/-- What the program asks of a grant, the accounts apart. -/
structure Grantable (p : Standing) (amount nonce : UInt64) : Prop where
  named : nonce ≠ 0
  positive : 0 < amount
  active : p.status = .active
  fresh : p.lastNonce < nonce
  capped : amount ≤ p.remaining

/-- An override is pending for the nonce. -/
def Pending (p : Standing) (nonce : UInt64) : Prop :=
  p.overrideNonce = nonce ∧ p.overrideAmount ≠ 0

variable {p : Standing} {amount nonce : UInt64}

/-- A payment above the ordinary maximum passes on the override alone. -/
theorem passes_iff_of_pending (h : p.Grantable amount nonce) (habove : p.perMax < amount)
    (hpending : p.Pending nonce) : p.Passes amount nonce ↔ amount ≤ p.overrideAmount := by
  have hnamed : p.overrideNonce ≠ 0 := by
    rw [hpending.1]
    exact h.named
  have hceiling : p.ceiling nonce = max p.perMax p.overrideAmount :=
    if_pos ⟨hnamed, hpending.1⟩
  constructor
  · intro hpasses
    have hle := hpasses.ceiling
    rw [hceiling, le_max_iff_of_words] at hle
    exact hle.resolve_left (UInt64.not_le.mpr habove)
  · intro hle
    refine ⟨?_, (le_saturatingSub_iff (UInt64.pos_iff_ne_zero.mp h.positive)).mp h.capped⟩
    rw [hceiling, le_max_iff_of_words]
    exact .inr hle

theorem passes_of_grant (h : p.Grantable amount nonce) :
    (p.grant amount nonce).Passes amount nonce := by
  refine ⟨?_, (le_saturatingSub_iff (UInt64.pos_iff_ne_zero.mp h.positive)).mp h.capped⟩
  have hceiling : (p.grant amount nonce).ceiling nonce = max p.perMax amount :=
    if_pos ⟨h.named, rfl⟩
  rw [hceiling]
  exact le_max_iff_of_words.mpr (.inr UInt64.le_rfl)

end Standing

namespace App

/-! ## What an assessment says -/

/-- The account shows these fields. -/
structure MandateAccount.Shows (m : MandateAccount) (p : Standing) : Prop where
  status : m.status = p.status.code
  cap : m.cap = p.cap.toNat
  spent : m.spent = p.spent.toNat
  expiresAt : m.expiresAt = p.expiresAt.toInt
  overrideAmount : m.overrideAmount = p.overrideAmount.toNat
  overrideNonce : m.overrideNonce = p.overrideNonce.toNat
  lastNonce : m.lastNonce = p.lastNonce.toNat

/-- The app's reading of a mandate. -/
def MandateAccount.read (address : String) (m : Mandate) : MandateAccount :=
  { toMandateAccount := .of Pubkey.display m, address }

/-- The app's reading of a trade rule. -/
def TradeRuleAccount.read (address : String) (rule : TradeRule) : TradeRuleAccount :=
  { toTradeRuleAccount := .of Pubkey.display rule, address }

theorem shows_read (address : String) (m : Mandate) :
    (MandateAccount.read address m).Shows m.standing :=
  ⟨rfl, rfl, rfl, rfl, rfl, rfl, rfl⟩

theorem shows_tradeRuleAsMandate (address : String) (rule : TradeRule) :
    (tradeRuleAsMandate (.read address rule)).Shows rule.standing :=
  ⟨rfl, rfl, rfl, rfl, rfl, rfl, rfl⟩

/-- A refusal for the per-payment maximum that suggests an override. -/
structure RingEntry.Offers (row : RingEntry) : Prop where
  kind : row.kind = Constants.KIND_REFUSED
  reason : row.reason = Constants.REASON_OVER_PER_TX_MAX
  suggested : row.suggestedOverride ≠ 0

/-- By the clock of the app, a grant for the nonce is still open to the owner. -/
structure Live (p : Standing) (amount nonce : UInt64) (nowSec : Int) : Prop
    extends p.Grantable amount nonce where
  unexpired : nowSec < p.expiresAt.toInt

/-- What each assessment says of the row and the account. -/
inductive Assessed (p : Standing) (row : RingEntry) (nowSec : Int) : OverrideAssessment → Prop
  | none (why : String) (withheld : ¬ row.Offers) : Assessed p row nowSec (.none why)
  | blocked (why : String) (offers : row.Offers)
      (dead : ¬ Live p row.suggestedOverride row.nonce nowSec) : Assessed p row nowSec (.blocked why)
  | already (why : String) (offers : row.Offers)
      (live : Live p row.suggestedOverride row.nonce nowSec) (pending : p.Pending row.nonce) :
      Assessed p row nowSec (.already p.overrideAmount.toNat row.nonce.toNat why)
  | ready (commit : OverrideCommit) (offers : row.Offers)
      (live : Live p row.suggestedOverride row.nonce nowSec) (clear : ¬ p.Pending row.nonce) :
      Assessed p row nowSec (.ready row.suggestedOverride.toNat row.nonce.toNat commit)

section Assess

variable {p : Standing} {row : RingEntry} {m : MandateAccount} {nowSec : Int}

theorem mandateRemaining_eq (hshows : m.Shows p) : mandateRemaining m = p.remaining.toNat := by
  unfold mandateRemaining remainingCap Standing.remaining
  rw [toNat_saturatingSub, hshows.cap, hshows.spent]
  split <;> omega

theorem natCast_lt_iff {a b : UInt64} : (a.toNat : Int) < b.toNat ↔ a < b := by
  rw [UInt64.lt_iff_toNat_lt]
  omega

theorem natCast_le_iff {a b : UInt64} : (a.toNat : Int) ≤ b.toNat ↔ a ≤ b := by
  rw [UInt64.le_iff_toNat_le]
  omega

theorem natCast_eq_iff {a b : UInt64} : (a.toNat : Int) = b.toNat ↔ a = b := by
  rw [← UInt64.toNat_inj]
  omega

theorem natCast_eq_zero_iff {a : UInt64} : (a.toNat : Int) = 0 ↔ a = 0 := natCast_eq_iff (b := 0)

/-- The offer is the suggestion of the row. -/
theorem overrideOfferForReason_cases (hkind : row.kind = Constants.KIND_REFUSED) :
    (∃ why, overrideOfferForReason row.reason row.suggestedOverride.toNat = .refusal why ∧
      ¬ row.Offers) ∨
    (overrideOfferForReason row.reason row.suggestedOverride.toNat =
      .offer row.suggestedOverride.toNat ∧ row.Offers) := by
  unfold overrideOfferForReason
  by_cases hcap : row.reason = Constants.REASON_OVER_CAP
  · rw [if_pos hcap]
    refine .inl ⟨_, rfl, fun hoffers => ?_⟩
    have hreason := hoffers.reason
    rw [hcap] at hreason
    exact absurd hreason (by decide)
  · rw [if_neg hcap]
    by_cases hreason : row.reason = Constants.REASON_OVER_PER_TX_MAX
    · by_cases hzero : row.suggestedOverride = 0
      · rw [if_pos ⟨hreason, by rw [hzero]; exact le_rfl⟩]
        exact .inl ⟨_, rfl, fun hoffers => hoffers.suggested hzero⟩
      · have hpositive : (0 : Int) < row.suggestedOverride.toNat := by
          have hne := mt natCast_eq_zero_iff.mp hzero
          omega
        rw [if_neg (fun h => absurd h.2 (not_le.mpr hpositive)), if_pos ⟨hreason, hpositive⟩]
        exact .inr ⟨rfl, hkind, hreason, hzero⟩
    · rw [if_neg (fun h => hreason h.1), if_neg (fun h => hreason h.1)]
      exact .inl ⟨_, rfl, fun hoffers => hreason hoffers.reason⟩

theorem code_eq_active {status : Status} :
    status.code = Constants.STATUS_ACTIVE ↔ status = .active := by
  cases status <;> decide

/-- The guard passes what is live and refuses the rest. -/
theorem overrideGuard_cases (nowSec : Int) (hshows : m.Shows p) (amount nonce : UInt64) :
    (overrideGuard m nonce.toNat amount.toNat (some nowSec) = .ok ∧ Live p amount nonce nowSec) ∨
    (∃ why, overrideGuard m nonce.toNat amount.toNat (some nowSec) = .refused why ∧
      ¬ Live p amount nonce nowSec) := by
  have hactive : m.status = Constants.STATUS_ACTIVE ↔ p.status = .active := by
    rw [hshows.status]
    exact code_eq_active
  unfold overrideGuard
  by_cases hnonce : nonce = 0
  · rw [if_pos (natCast_eq_zero_iff.mpr hnonce)]
    exact .inr ⟨_, rfl, fun h => h.named hnonce⟩
  rw [if_neg (mt natCast_eq_zero_iff.mp hnonce)]
  by_cases hamount : amount = 0
  · rw [if_pos (natCast_eq_zero_iff.mpr hamount)]
    exact .inr ⟨_, rfl, fun h => UInt64.pos_iff_ne_zero.mp h.positive hamount⟩
  rw [if_neg (mt natCast_eq_zero_iff.mp hamount)]
  by_cases hstatus : m.status = Constants.STATUS_ACTIVE
  · have hrevoked : m.status ≠ Constants.STATUS_REVOKED := by
      rw [hstatus]
      decide
    have hexhausted : m.status ≠ Constants.STATUS_EXHAUSTED := by
      rw [hstatus]
      decide
    rw [if_neg hrevoked, if_neg hexhausted, if_neg (not_not.mpr hstatus)]
    have hclock : (some nowSec).any (fun t => !isActive m t) = true ↔
        p.expiresAt.toInt ≤ nowSec := by
      unfold isActive
      simp only [Option.any_some, hstatus, true_and, hshows.expiresAt, Bool.not_eq_true',
        decide_eq_false_iff_not, not_lt]
    by_cases hexpired : p.expiresAt.toInt ≤ nowSec
    · rw [if_pos (hclock.mpr hexpired)]
      exact .inr ⟨_, rfl, fun h => absurd h.unexpired (not_lt.mpr hexpired)⟩
    rw [if_neg (mt hclock.mp hexpired), hshows.lastNonce, mandateRemaining_eq hshows]
    by_cases hstale : nonce ≤ p.lastNonce
    · rw [if_pos (natCast_le_iff.mpr hstale)]
      exact .inr ⟨_, rfl, fun h => absurd h.fresh (UInt64.not_lt.mpr hstale)⟩
    rw [if_neg (mt natCast_le_iff.mp hstale)]
    by_cases hroom : p.remaining < amount
    · rw [if_pos (natCast_lt_iff.mpr hroom)]
      exact .inr ⟨_, rfl, fun h => absurd h.capped (UInt64.not_le.mpr hroom)⟩
    · rw [if_neg (mt natCast_lt_iff.mp hroom)]
      exact .inl ⟨rfl, ⟨hnonce, UInt64.pos_iff_ne_zero.mpr hamount, hactive.mp hstatus,
        UInt64.not_le.mp hstale, UInt64.not_lt.mp hroom⟩, not_le.mp hexpired⟩
  · have hdead : ¬ Live p amount nonce nowSec := fun h => hstatus (hactive.mpr h.active)
    refine .inr ?_
    by_cases hrevoked : m.status = Constants.STATUS_REVOKED
    · rw [if_pos hrevoked]
      exact ⟨_, rfl, hdead⟩
    by_cases hexhausted : m.status = Constants.STATUS_EXHAUSTED
    · rw [if_neg hrevoked, if_pos hexhausted]
      exact ⟨_, rfl, hdead⟩
    · rw [if_neg hrevoked, if_neg hexhausted, if_pos hstatus]
      exact ⟨_, rfl, hdead⟩

/-- **What the app makes of a row.** -/
theorem assessOverride_assessed (hshows : m.Shows p) (decimals : Nat) :
    Assessed p row nowSec (assessOverride row.overrideSource m decimals (some nowSec)) := by
  dsimp only [assessOverride, RingEntry.overrideSource]
  by_cases hkind : row.kind = Constants.KIND_REFUSED
  · rw [if_neg (not_not.mpr hkind)]
    rcases overrideOfferForReason_cases hkind with ⟨why, hoffer, hnot⟩ | ⟨hoffer, hoffers⟩
    · rw [hoffer]
      exact .none why hnot
    rw [hoffer]
    dsimp only
    rcases overrideGuard_cases nowSec hshows row.suggestedOverride row.nonce with
      ⟨hguard, hlive⟩ | ⟨why, hguard, hdead⟩
    · have hmatch : (m.overrideNonce = row.nonce.toNat ∧ 0 < m.overrideAmount) ↔
          p.Pending row.nonce := by
        rw [hshows.overrideNonce, hshows.overrideAmount]
        refine and_congr natCast_eq_iff ?_
        rw [ne_eq, ← natCast_eq_zero_iff]
        omega
      rw [hguard]
      dsimp only
      by_cases hpending : p.Pending row.nonce
      · rw [if_pos (hmatch.mpr hpending), hshows.overrideAmount]
        exact .already _ hoffers hlive hpending
      · rw [if_neg (mt hmatch.mp hpending)]
        exact .ready _ hoffers hlive hpending
    · rw [hguard]
      exact .blocked why hoffers hdead
  · rw [if_pos hkind]
    exact .none _ fun hoffers => hkind hoffers.kind

end Assess

/-! ## What the program answers -/

/-- What the program answers bears the assessment out: a ready grant is accepted and its retry
passes the per-payment and the cap check, a retry under an override that is already there passes
them, and no grant clears a row that is refused one. -/
def OverrideAssessment.BorneOut (p : Standing) (row : RingEntry)
    (accepted : UInt64 → Standing → Prop) (cleared : Prop) : OverrideAssessment → Prop
  | .ready amount nonce _ => ∃ granted after, amount = (granted : UInt64).toNat ∧
      nonce = row.nonce.toNat ∧ accepted granted after ∧ after.Passes row.amount row.nonce
  | .already _ _ _ => p.Passes row.amount row.nonce
  | .none _ | .blocked _ => row.reason = Constants.REASON_OVER_PER_TX_MAX → ¬ cleared

/-- What an assessment depends on besides what it reads: that the pending override reaches the
refused amount, that the accounts of a grant can be named, and that no retry passes where the
app has reason to doubt. -/
structure Told (p : Standing) (row : RingEntry) (nowSec : Int) (named doubtful passes : Prop) :
    Prop where
  pending : row.Offers → Live p row.suggestedOverride row.nonce nowSec → p.Pending row.nonce →
    row.amount ≤ p.overrideAmount
  accounts : row.Offers → Live p row.suggestedOverride row.nonce nowSec → ¬ p.Pending row.nonce →
    named
  retried : row.reason = Constants.REASON_OVER_PER_TX_MAX → doubtful → ¬ passes

/-- How the program answers for a row it wrote.  It accepts a grant together with the standing
that the grant leaves. -/
structure Answers (p : Standing) (row : RingEntry) (nowSec : Int)
    (accepted : UInt64 → Standing → Prop) (cleared named doubtful passes : Prop) : Prop where
  suggested : row.suggestedOverride ≠ 0 → row.suggestedOverride = row.amount
  above : row.reason = Constants.REASON_OVER_PER_TX_MAX → p.perMax < row.amount
  accepts : ∀ granted after, p.Grantable granted row.nonce →
    (accepted granted after ↔ named ∧ after = p.grant granted row.nonce)
  clears : cleared ↔ passes
  grantable : passes → p.Grantable row.amount row.nonce
  doubt : doubtful → row.suggestedOverride = 0 ∨ p.expiresAt.toInt ≤ nowSec
  certain : row.reason = Constants.REASON_OVER_PER_TX_MAX → passes → ¬ doubtful →
    row.suggestedOverride ≠ 0 ∧ nowSec < p.expiresAt.toInt

section Borne

variable {p : Standing} {row : RingEntry} {nowSec : Int} {a : OverrideAssessment}
  {accepted : UInt64 → Standing → Prop} {cleared named doubtful passes : Prop}

/-- A live row leaves the app nothing to doubt. -/
theorem Answers.not_doubtful (h : Answers p row nowSec accepted cleared named doubtful passes)
    (hoffers : row.Offers) (hlive : Live p row.suggestedOverride row.nonce nowSec) :
    ¬ doubtful := by
  intro hdoubt
  rcases h.doubt hdoubt with hzero | hexpired
  · exact hoffers.suggested hzero
  · exact absurd hlive.unexpired (not_lt.mpr hexpired)

/-- **An assessment is borne out exactly when what it does not read is in order.** -/
theorem Assessed.borneOut_iff (hkind : row.kind = Constants.KIND_REFUSED)
    (h : Answers p row nowSec accepted cleared named doubtful passes)
    (hassessed : Assessed p row nowSec a) :
    a.BorneOut p row accepted cleared ↔ Told p row nowSec named doubtful passes := by
  cases hassessed with
  | none why withheld =>
      constructor
      · intro hborne
        refine ⟨fun hoffers => absurd hoffers withheld, fun hoffers => absurd hoffers withheld, ?_⟩
        intro hreason _ hpasses
        exact hborne hreason (h.clears.mpr hpasses)
      · intro htold hreason hcleared
        have hpasses := h.clears.mp hcleared
        by_cases hdoubt : doubtful
        · exact htold.retried hreason hdoubt hpasses
        · exact withheld ⟨hkind, hreason, (h.certain hreason hpasses hdoubt).1⟩
  | blocked why offers dead =>
      constructor
      · intro hborne
        refine ⟨fun _ hlive => absurd hlive dead, fun _ hlive => absurd hlive dead, ?_⟩
        intro hreason _ hpasses
        exact hborne hreason (h.clears.mpr hpasses)
      · intro htold hreason hcleared
        have hpasses := h.clears.mp hcleared
        by_cases hdoubt : doubtful
        · exact htold.retried hreason hdoubt hpasses
        · apply dead
          rw [h.suggested offers.suggested]
          exact ⟨h.grantable hpasses, (h.certain hreason hpasses hdoubt).2⟩
  | already why offers live pending =>
      have hgrantable := live.toGrantable
      rw [h.suggested offers.suggested] at hgrantable
      have hpasses := Standing.passes_iff_of_pending hgrantable (h.above offers.reason) pending
      constructor
      · intro hborne
        refine ⟨fun _ _ _ => hpasses.mp hborne, fun _ _ hclear => absurd pending hclear, ?_⟩
        intro _ hdoubt
        exact absurd hdoubt (h.not_doubtful offers live)
      · intro htold
        exact hpasses.mpr (htold.pending offers live pending)
  | ready commit offers live clear =>
      have hgrantable := live.toGrantable
      rw [h.suggested offers.suggested] at hgrantable
      constructor
      · rintro ⟨granted, after, hamount, -, haccepted, -⟩
        have hsame : row.suggestedOverride = granted := natCast_eq_iff.mp hamount
        rw [← hsame] at haccepted
        refine ⟨fun _ _ hpending => absurd hpending clear,
          fun _ _ _ => ((h.accepts _ _ live.toGrantable).mp haccepted).1, ?_⟩
        intro _ hdoubt
        exact absurd hdoubt (h.not_doubtful offers live)
      · intro htold
        have hnamed := htold.accounts offers live clear
        refine ⟨_, _, rfl, rfl, (h.accepts _ _ live.toGrantable).mpr ⟨hnamed, rfl⟩, ?_⟩
        rw [h.suggested offers.suggested]
        exact Standing.passes_of_grant hgrantable

end Borne

end App

end Veto

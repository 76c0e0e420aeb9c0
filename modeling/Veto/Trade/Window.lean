import Veto.Trade.Run
import Veto.RollingWindow
import Mathlib.Algebra.Order.Archimedean.Real.Basic

/-!
# The rolling daily limit of a trade rule

The buckets of a rule track every trade of its history.  The policy compares the
request with the whole hours of the window, so the trades of any 24 hours stay
within the daily limit, and the sum it takes never overflows.
-/

namespace Veto

open Foundation

def TradeInput.clock (i : TradeInput) : Int := i.now.toInt

/-- The input sold by some records, by the second. -/
def soldOf (records : List TradeEntry) : List Payment :=
  (tradedRecords records).map fun e => (e.ts.toInt, e.amountIn.toNat)

@[simp] theorem soldOf_append (xs ys : List TradeEntry) :
    soldOf (xs ++ ys) = soldOf xs ++ soldOf ys := by
  simp [soldOf, tradedRecords]

/-- The input sold in the 24 hours that end at the instant `t`. -/
noncomputable def soldWithin24h (records : List TradeEntry) (t : ℝ) : Nat :=
  (((tradedRecords records).filter fun e =>
    t - 86400 < (e.ts.toInt : ℝ) ∧ (e.ts.toInt : ℝ) ≤ t).map fun e => e.amountIn.toNat).sum

/-- Clock readings are whole seconds, so an instant may be taken as its whole second. -/
theorem soldWithin24h_eq (records : List TradeEntry) (t : ℝ) :
    soldWithin24h records t = sumWhere (soldOf records) fun ts => ⌊t⌋ - 86400 < ts ∧ ts ≤ ⌊t⌋ := by
  have hsecond : ∀ ts : Int, (t - 86400 < (ts : ℝ) ∧ (ts : ℝ) ≤ t) ↔
      (⌊t⌋ - 86400 < ts ∧ ts ≤ ⌊t⌋) := by
    intro ts
    have hlow : t - 86400 < (ts : ℝ) ↔ ⌊t⌋ - 86400 < ts := by
      rw [sub_lt_iff_lt_add, sub_lt_iff_lt_add, Int.floor_lt]
      push_cast
      rfl
    rw [hlow, Int.le_floor]
  unfold soldWithin24h sumWhere soldOf
  rw [List.filter_map, List.map_map]
  simp only [hsecond, Function.comp_def]

/-! ## One step -/

/-- A step sells once, for what the window has room for, and counts it in the buckets,
or does neither. -/
theorem TradeEffect.sale {s s' : TradeState} {i : TradeInput} {o : TradeOutput}
    (h : TradeEffect s i o s') :
    (s'.rule.dailyBuckets = s.rule.dailyBuckets ∧ soldOf o.records.reverse = []) ∨
      ∃ amount windowSpent, spent s.rule.dailyBuckets i.now = some windowSpent ∧
        windowSpent.toNat + amount.toNat ≤ s.rule.dailyLimit.toNat ∧
        commit s.rule.dailyBuckets amount i.now = (some (), s'.rule.dailyBuckets) ∧
        soldOf o.records.reverse = [(i.now.toInt, amount.toNat)] := by
  cases h with
  | traded _ _ allowed _ _ _ observed _ _ _ committed _ hrecords =>
      obtain ⟨windowSpent, total, hwindow, htotal, hlimit⟩ := allowed.daily
      rw [checkedAdd_eq_some] at htotal
      rw [UInt64.le_iff_toNat_le] at hlimit observed
      rw [hrecords]
      exact .inr ⟨_, windowSpent, hwindow, by omega, committed, rfl⟩
  | refused _ _ _ _ hrecords =>
      rw [hrecords]
      exact .inl ⟨rfl, rfl⟩
  | granted _ _ _ _ _ _ _ hrecords =>
      rw [hrecords]
      exact .inl ⟨rfl, rfl⟩
  | revoked _ _ _ hrecords =>
      rw [hrecords]
      exact .inl ⟨rfl, rfl⟩
  | outside _ hrecords =>
      rw [hrecords]
      exact .inl ⟨rfl, rfl⟩

/-! ## The invariant -/

/-- The whole hours that a window ending at `now` reaches back to. -/
def oldestHour (now : Int) : Int := now / BUCKET_SECS - BUCKET_COUNT + 1

/-- At any clock reading the history has reached, the buckets track its sales and the
whole hours of the window hold at most the daily limit; no 24 hours hold more. -/
structure TradeWindow (h : TradeHistory) (rule : TradeRule) : Prop where
  tracks : ∀ now : Int, (∀ T ∈ h, T.input.clock ≤ now) →
    Tracks bucketMax rule.dailyBuckets.ring (now / BUCKET_SECS)
      (hours BUCKET_SECS (soldOf (written h)))
  limited : ∀ now : Int, (∀ T ∈ h, T.input.clock ≤ now) →
    sumWhere (hours BUCKET_SECS (soldOf (written h))) (oldestHour now ≤ ·) ≤
      rule.dailyLimit.toNat
  sold : ∀ t : Int, sumWhere (soldOf (written h)) (fun ts => t - 86400 < ts ∧ ts ≤ t) ≤
    rule.dailyLimit.toNat

namespace TradeWindow

variable {h : TradeHistory} {rule : TradeRule}

theorem fresh (accts : OpenTradeRule) (args : OpenTradeRuleArgs) (bump : UInt8) :
    TradeWindow [] (freshRule accts args bump) where
  tracks now _ := by
    apply Tracks.empty
    intro i
    show ((TradeBuckets.default)[i]).amount.toNat = 0
    simp [TradeBuckets.default]
  limited _ _ := Nat.zero_le _
  sold _ := Nat.zero_le _

/-- The window's total is what was sold in its hours. -/
theorem windowTotal_eq (hw : TradeWindow h rule) {now : Int}
    (hclock : ∀ T ∈ h, T.input.clock ≤ now) :
    windowTotal rule.dailyBuckets.ring (oldestHour now) =
      sumWhere (hours BUCKET_SECS (soldOf (written h))) (oldestHour now ≤ ·) := by
  have hlimit := rule.dailyLimit.toNat_lt
  have hlimited := hw.limited now hclock
  refine (hw.tracks now hclock).windowTotal_of_le ?_
  show sumWhere _ (oldestHour now ≤ ·) ≤ bucketMax
  unfold bucketMax
  omega

theorem windowTotal_le (hw : TradeWindow h rule) {now : Int}
    (hclock : ∀ T ∈ h, T.input.clock ≤ now) :
    windowTotal rule.dailyBuckets.ring (oldestHour now) ≤ rule.dailyLimit.toNat := by
  rw [hw.windowTotal_eq hclock]
  exact hw.limited now hclock

theorem oldestHour_mono {now now' : Int} (hle : now ≤ now') : oldestHour now ≤ oldestHour now' := by
  have hhour : now / BUCKET_SECS ≤ now' / BUCKET_SECS := Int.ediv_le_ediv (by decide) hle
  unfold oldestHour
  omega

/-- The seconds of 24 hours lie in the whole hours of the window. -/
theorem sold_le_hours (pays : List Payment) (t : Int) :
    sumWhere pays (fun ts => t - 86400 < ts ∧ ts ≤ t) ≤
      sumWhere (hours BUCKET_SECS pays) (oldestHour t ≤ ·) := by
  have hperiod : 0 < BUCKET_SECS := by decide
  have hseconds := sumWhere_seconds_le hperiod pays 24 t
  have holdest : oldestHour t = t / BUCKET_SECS - 24 := by
    show t / BUCKET_SECS - (25 : Int) + 1 = t / BUCKET_SECS - 24
    omega
  rw [holdest]
  exact hseconds

/-- A sale the window has room for stays within the limit. -/
theorem hours_cons_le (hw : TradeWindow h rule) {now : Int64} {amount windowSpent : UInt64}
    (hclock : ∀ T ∈ h, T.input.clock ≤ now.toInt)
    (hspent : spent rule.dailyBuckets now = some windowSpent)
    (hroom : windowSpent.toNat + amount.toNat ≤ rule.dailyLimit.toNat) :
    sumWhere (hours BUCKET_SECS ((now.toInt, amount.toNat) :: soldOf (written h)))
      (oldestHour now.toInt ≤ ·) ≤ rule.dailyLimit.toNat := by
  have htotal : windowTotal rule.dailyBuckets.ring (oldestHour now.toInt) =
      windowSpent.toNat := by
    rw [spent_eq_some, toInt_hourOf] at hspent
    exact hspent.symm
  calc sumWhere (hours BUCKET_SECS ((now.toInt, amount.toNat) :: soldOf (written h)))
        (oldestHour now.toInt ≤ ·)
      ≤ amount.toNat + sumWhere (hours BUCKET_SECS (soldOf (written h)))
          (oldestHour now.toInt ≤ ·) := sumWhere_cons_le _ _ _
    _ = amount.toNat + windowSpent.toNat := by rw [← hw.windowTotal_eq hclock, htotal]
    _ ≤ rule.dailyLimit.toNat := by omega

/-- A sale the window had room for keeps all three. -/
theorem sell (hw : TradeWindow h rule) {T : TradeTransition} {amount windowSpent : UInt64}
    {rule' : TradeRule} (hclock : ∀ E ∈ h, E.input.clock ≤ T.input.clock)
    (hspent : spent rule.dailyBuckets T.input.now = some windowSpent)
    (hroom : windowSpent.toNat + amount.toNat ≤ rule.dailyLimit.toNat)
    (hcommit : commit rule.dailyBuckets amount T.input.now = (some (), rule'.dailyBuckets))
    (hsold : soldOf T.output.records.reverse = [(T.input.now.toInt, amount.toNat)])
    (hlimit : rule'.dailyLimit = rule.dailyLimit) : TradeWindow (T :: h) rule' := by
  have hpays : soldOf (written (T :: h)) = (T.input.clock, amount.toNat) :: soldOf (written h) := by
    rw [written_cons, soldOf_append, hsold]
    rfl
  have hwindow : sumWhere (hours BUCKET_SECS (soldOf (written (T :: h))))
      (oldestHour T.input.clock ≤ ·) ≤ rule.dailyLimit.toNat := by
    rw [hpays]
    exact hw.hours_cons_le hclock hspent hroom
  have hlimited : ∀ now : Int, (∀ E ∈ T :: h, E.input.clock ≤ now) →
      sumWhere (hours BUCKET_SECS (soldOf (written (T :: h)))) (oldestHour now ≤ ·) ≤
        rule'.dailyLimit.toNat := by
    intro now hnow
    rw [hlimit]
    exact (sumWhere_anti (oldestHour_mono (hnow T List.mem_cons_self))).trans hwindow
  constructor
  · intro now hnow
    have hhour : T.input.clock / BUCKET_SECS ≤ now / BUCKET_SECS :=
      Int.ediv_le_ediv (by decide) (hnow T List.mem_cons_self)
    rw [hpays, ring_commit hcommit, toInt_hourOf]
    exact ((hw.tracks T.input.clock hclock).record (by decide) amount.toNat).advance hhour
  · exact hlimited
  · intro t
    by_cases ht : T.input.clock ≤ t
    · -- the window ends at or after this trade, so the whole hours bound it
      have hnow : ∀ E ∈ T :: h, E.input.clock ≤ t := by
        intro E hE
        rcases List.mem_cons.mp hE with rfl | hE
        · exact ht
        · exact (hclock E hE).trans ht
      exact (sold_le_hours _ t).trans (hlimited t hnow)
    · -- the window ends before this trade and holds what it held before
      rw [hpays, sumWhere_cons, if_neg (fun hin => ht hin.2), Nat.zero_add, hlimit]
      exact hw.sold t

/-- The accounting of a sale the window has room for does not fail, before or after it. -/
theorem commits (hw : TradeWindow h rule) (amount : UInt64) {now : Int64} {windowSpent : UInt64}
    (hclock : ∀ T ∈ h, T.input.clock ≤ now.toInt)
    (hspent : spent rule.dailyBuckets now = some windowSpent)
    (hroom : windowSpent.toNat + amount.toNat ≤ rule.dailyLimit.toNat) :
    ∃ buckets, commit rule.dailyBuckets amount now = (some (), buckets) ∧
      ∃ windowSpent', spent buckets now = some windowSpent' := by
  have hlimit := rule.dailyLimit.toNat_lt
  have htracks := hw.tracks now.toInt hclock
  have htotal := spent_eq_some.mp hspent
  have hhour := toInt_hourOf now
  rw [← hhour] at htracks
  obtain ⟨buckets, hcommit⟩ := commit_eq_some amount htracks (by omega)
  refine ⟨buckets, hcommit, spent_ok _ _ ?_⟩
  have hsold := hw.hours_cons_le hclock hspent hroom
  have hafter := htracks.record (by decide) amount.toNat
  rw [← ring_commit hcommit] at hafter
  unfold oldestHour at hsold
  rw [← hhour] at hsold
  have hpays : hours BUCKET_SECS ((now.toInt, amount.toNat) :: soldOf (written h)) =
      ((hourOf now).toInt, amount.toNat) :: hours BUCKET_SECS (soldOf (written h)) := by
    rw [hhour]
    rfl
  rw [hpays] at hsold
  have hexact := hafter.windowTotal_of_le (by unfold bucketMax; omega)
  omega

theorem keep (hw : TradeWindow h rule) {T : TradeTransition} {rule' : TradeRule}
    (hbuckets : rule'.dailyBuckets = rule.dailyBuckets)
    (hsold : soldOf T.output.records.reverse = [])
    (hlimit : rule'.dailyLimit = rule.dailyLimit) : TradeWindow (T :: h) rule' := by
  have hpays : soldOf (written (T :: h)) = soldOf (written h) := by
    rw [written_cons, soldOf_append, hsold, List.nil_append]
  have hpast : ∀ {now : Int}, (∀ E ∈ T :: h, E.input.clock ≤ now) →
      ∀ E ∈ h, E.input.clock ≤ now := fun hnow E hE => hnow E (List.mem_cons_of_mem _ hE)
  constructor
  · intro now hnow
    rw [hpays, hbuckets]
    exact hw.tracks now (hpast hnow)
  · intro now hnow
    rw [hpays, hlimit]
    exact hw.limited now (hpast hnow)
  · intro t
    rw [hpays, hlimit]
    exact hw.sold t

theorem step (hw : TradeWindow h rule) {s s' : TradeState} {i : TradeInput} {o : TradeOutput}
    (hrule : s.rule = rule) (heff : TradeEffect s i o s')
    (hclock : ∀ T ∈ h, T.input.clock ≤ i.clock) : TradeWindow (⟨s, i, o, s'⟩ :: h) s'.rule := by
  subst hrule
  have hlimit : s'.rule.dailyLimit = s.rule.dailyLimit :=
    congrArg TradeTerms.dailyLimit heff.terms_eq
  obtain ⟨hbuckets, hnone⟩ | ⟨amount, windowSpent, hspent, hroom, hcommit, hsale⟩ := heff.sale
  · exact hw.keep hbuckets hnone hlimit
  · exact hw.sell hclock hspent hroom hcommit hsale hlimit

theorem of_run {rt : Runtime} {s₀ s : TradeState} {h : TradeHistory}
    (start : TradeWindow [] s₀.rule) (run : Run (TradeStep rt) s₀ h s)
    (hclock : Nondecreasing TradeInput.clock h) : TradeWindow h s.rule := by
  revert hclock
  refine run.carries (P := fun h s => Nondecreasing TradeInput.clock h → TradeWindow h s.rule)
    (fun _ => start) ?_
  intro h s i o s' _ ih hstep hclock
  obtain ⟨hle, hclock⟩ := Nondecreasing.cons_iff.mp hclock
  exact (ih hclock).step rfl (TradeStep.effect hstep) hle

end TradeWindow

/-! ## The limit -/

/-- No call of the window accounting fails at this clock reading: neither the sum that the
policy, a suggestion or a refusal takes, nor the booking of a debit of a request that the
policy lets through, nor the sum taken after it. -/
structure TradeState.AccountingHolds (s : TradeState) (now : Int64) : Prop where
  current : ∃ windowSpent, s.rule.currentWindowSpent now = .ok windowSpent
  booked : ∀ source accts w requested nonce verdict debit,
    s.rule.evaluate s.key source accts w requested nonce now = .ok verdict →
    verdict.reason = .ok → debit ≤ requested →
    ∃ buckets, commit s.rule.dailyBuckets debit now = (some (), buckets) ∧
      ∀ spent, ∃ windowSpent,
        (s.rule.settle buckets spent nonce).currentWindowSpent now = .ok windowSpent

theorem TradeWindow.accountingHolds {h : TradeHistory} {s : TradeState} {now : Int64}
    (hw : TradeWindow h s.rule) (hclock : ∀ T ∈ h, T.input.clock ≤ now.toInt) :
    s.AccountingHolds now := by
  constructor
  · have hlimit := s.rule.dailyLimit.toNat_lt
    have hle := hw.windowTotal_le hclock
    obtain ⟨windowSpent, hspent⟩ := spent_ok s.rule.dailyBuckets now (by
      rw [toInt_hourOf]
      show windowTotal _ (oldestHour now.toInt) < _
      omega)
    exact ⟨windowSpent, okOr_eq_ok.mpr hspent⟩
  · intro source accts w requested nonce verdict debit hverdict hok hdebit
    obtain ⟨windowSpent, total, hspent, htotal, hle⟩ :=
      (TradeRule.allows_of_evaluate hverdict hok).daily
    rw [checkedAdd_eq_some] at htotal
    rw [UInt64.le_iff_toNat_le] at hle hdebit
    obtain ⟨buckets, hcommit, windowSpent', hafter⟩ :=
      hw.commits debit hclock hspent (by omega)
    exact ⟨buckets, hcommit, fun _ => ⟨windowSpent', okOr_eq_ok.mpr hafter⟩⟩

/-- **The rolling daily limit.**  In a run whose clock never goes back, whatever the
exchange does and whatever overrides are used, any 24 hours hold trades for at most the
daily limit, and no call of the window accounting ever fails. -/
theorem trade_daily_limit {rt : Runtime} {now : Int64} {signers : List Pubkey}
    {accts : OpenTradeRule} {args : OpenTradeRuleArgs} {w : World} {opening : TradeOutput}
    {s₀ s : TradeState} {h : TradeHistory}
    (hopen : openTradeRule rt now signers accts args w = .ok (opening, s₀))
    (run : Run (TradeStep rt) s₀ h s) (hclock : Nondecreasing TradeInput.clock h) :
    (∀ t : ℝ, soldWithin24h (written h ++ opening.records) t ≤ args.dailyLimit.toNat) ∧
    ∀ next : Int64, (∀ T ∈ h, T.input.clock ≤ next.toInt) → s.AccountingHolds next := by
  obtain ⟨⟨bump, hrule⟩, hrecords⟩ := openTradeRule_ok hopen
  have start : TradeWindow [] s₀.rule := by
    rw [hrule]
    exact .fresh accts args bump
  have hw := TradeWindow.of_run start run hclock
  have hlimit : s.rule.dailyLimit = args.dailyLimit := by
    have hkept := congrArg TradeTerms.dailyLimit (TradeRule.terms_of_run run)
    rw [hrule] at hkept
    exact hkept
  refine ⟨?_, fun next hnext => hw.accountingHolds hnext⟩
  intro t
  have hopening : soldOf opening.records = [] := by
    rw [hrecords]
    rfl
  rw [soldWithin24h_eq, soldOf_append, hopening, List.append_nil, ← hlimit]
  exact hw.sold ⌊t⌋

set_option maxRecDepth 20000 in
/-- In the sample run 79 of the daily 90 are sold within a minute. -/
theorem trade_daily_limit_sample :
    let opening := (okValue tradeOpen tradeOpen_ok).1
    let h := (okValue tradeRun tradeRun_ok).1
    soldWithin24h (written h ++ opening.records) 60 ≤ 90 ∧
      totalSold (tradedRecords (written h)) = 79 := by
  have hclock : Nondecreasing TradeInput.clock (okValue tradeRun tradeRun_ok).1 := by
    decide
  exact ⟨(trade_daily_limit (eq_ok_okValue_pair tradeOpen tradeOpen_ok) tradeRun_run hclock).1 60,
    by decide⟩

end Veto

import Veto.App.Grade
import Mathlib.Algebra.Order.Group.Nat

/-!
# A grade after the ring has moved on

The refusals of a nonce that an override cleared may roll off the ring, and the override then counts
in their place.
-/

namespace Veto.App

open Foundation

/-- The rule without the refusals of a nonce. -/
def RuleFacts.evict (rule : RuleFacts) (nonce : Int) : RuleFacts :=
  { rule with rows := rule.rows.filter fun row => ¬ (row.kind = KIND_REFUSED ∧ row.nonce = nonce) }

/-- The refusals of a nonce. -/
def refusals (nonce : Int) (rows : List GradeDecision) : Nat :=
  rows.countP fun row => row.kind = KIND_REFUSED ∧ row.nonce = nonce

/-- The overrides of a nonce. -/
def overrides (nonce : Int) (rows : List GradeDecision) : Nat :=
  rows.countP fun row => row.kind = KIND_OVERRIDE ∧ row.nonce = nonce

section Evict

variable {rule : RuleFacts} {nonce : Int}

/-- Rows of another kind all stay. -/
theorem filter_evict {p : GradeDecision → Bool} (hp : ∀ row, p row = true → row.kind ≠ KIND_REFUSED) :
    (rule.evict nonce).rows.filter p = rule.rows.filter p := by
  unfold RuleFacts.evict
  dsimp only
  rw [List.filter_filter]
  apply List.filter_congr
  intro row _
  cases hrow : p row with
  | false => rfl
  | true =>
      have hkind := hp row hrow
      simp [hkind]

theorem evict_kind (rule : RuleFacts) (nonce : Int) {kind : Int} (hkind : kind ≠ KIND_REFUSED) :
    (rule.evict nonce).rows.filter (fun row => row.kind = kind) =
      rule.rows.filter fun row => row.kind = kind := by
  apply filter_evict
  intro row hrow
  rw [of_decide_eq_true hrow]
  exact hkind

theorem refused_evict (rule : RuleFacts) (nonce : Int) :
    ((rule.evict nonce).rows.filter fun row => row.kind = KIND_REFUSED).length +
        refusals nonce rule.rows =
      (rule.rows.filter fun row => row.kind = KIND_REFUSED).length := by
  unfold RuleFacts.evict refusals
  dsimp only
  induction rule.rows with
  | nil => rfl
  | cons row rows ih =>
      rw [List.filter_cons, List.countP_cons, List.filter_cons]
      by_cases hkind : row.kind = KIND_REFUSED
      · by_cases hnonce : row.nonce = nonce
        · simp only [hkind, hnonce, and_self, not_true, decide_false, decide_true, if_true,
            Bool.false_eq_true, if_false, List.length_cons]
          omega
        · simp only [hkind, hnonce, and_false, not_false_eq_true, decide_true, if_true,
            List.filter_cons, decide_false, Bool.false_eq_true, if_false, List.length_cons]
          omega
      · simp only [hkind, false_and, not_false_eq_true, decide_true, if_true, List.filter_cons,
          decide_false, Bool.false_eq_true, if_false, Nat.add_zero]
        exact ih

theorem mem_refused_evict {n : Int} :
    n ∈ ((rule.evict nonce).rows.filter fun row => row.kind = KIND_REFUSED).map (·.nonce) ↔
      n ∈ (rule.rows.filter fun row => row.kind = KIND_REFUSED).map (·.nonce) ∧ n ≠ nonce := by
  unfold RuleFacts.evict
  simp only [List.mem_map, List.mem_filter, decide_eq_true_eq, not_and]
  constructor
  · rintro ⟨row, ⟨⟨hmem, hother⟩, hkind⟩, rfl⟩
    exact ⟨⟨row, ⟨hmem, hkind⟩, rfl⟩, hother hkind⟩
  · rintro ⟨⟨row, ⟨hmem, hkind⟩, rfl⟩, hother⟩
    exact ⟨row, ⟨⟨hmem, fun _ => hother⟩, hkind⟩, rfl⟩

/-- One nonce less among those that were refused. -/
theorem length_missing {rows : List GradeDecision} {nonces nonces' : List Int}
    (hnonces : ∀ n, n ∈ nonces' ↔ n ∈ nonces ∧ n ≠ nonce) (hnonce : nonce ∈ nonces) :
    (rows.filter fun row => row.nonce ∉ nonces').length =
      (rows.filter fun row => row.nonce ∉ nonces).length +
        rows.countP fun row => row.nonce = nonce := by
  induction rows with
  | nil => rfl
  | cons row rows ih =>
      rw [List.filter_cons, List.filter_cons, List.countP_cons]
      have hmem := hnonces row.nonce
      by_cases hsame : row.nonce = nonce
      · have hout : row.nonce ∉ nonces' := fun h => (hmem.mp h).2 hsame
        have hin : row.nonce ∈ nonces := hsame ▸ hnonce
        rw [if_pos (decide_eq_true hout), if_neg (by simpa using hin),
          if_pos (decide_eq_true hsame), List.length_cons, ih, Nat.add_assoc]
      · have hzero : (if decide (row.nonce = nonce) = true then 1 else 0) = 0 :=
          if_neg (by simpa using hsame)
        rw [hzero, Nat.add_zero]
        by_cases hin : row.nonce ∈ nonces
        · have hin' := hmem.mpr ⟨hin, hsame⟩
          rw [if_neg (by simpa using hin'), if_neg (by simpa using hin), ih]
        · have hout : row.nonce ∉ nonces' := fun h => hin (hmem.mp h).1
          rw [if_pos (decide_eq_true hout), if_pos (decide_eq_true hin), List.length_cons,
            List.length_cons, ih]
          omega

/-- **What an eviction does to the count.**  The refusals of the nonce are lost, and each of its
overrides counts instead. -/
theorem outsideCount_evict
    (hrefused : ∃ row ∈ rule.rows, row.kind = KIND_REFUSED ∧ row.nonce = nonce) :
    outsideCount (rule.evict nonce) + refusals nonce rule.rows =
      outsideCount rule + overrides nonce rule.rows := by
  have hallowances := evict_kind rule nonce (show KIND_OVERRIDE ≠ KIND_REFUSED by decide)
  have hmissing : (countRule (rule.evict nonce).rows).outsideFromMissingRefusal.length =
      (countRule rule.rows).outsideFromMissingRefusal.length + overrides nonce rule.rows := by
    unfold countRule overrides
    dsimp only
    rw [hallowances, length_missing (fun n => mem_refused_evict), List.countP_filter]
    · simp only [Bool.decide_and, Bool.and_comm]
    · obtain ⟨row, hmem, hkind, hnonce⟩ := hrefused
      exact List.mem_map.mpr ⟨row, List.mem_filter.mpr ⟨hmem, decide_eq_true hkind⟩, hnonce⟩
  have hlost := refused_evict rule nonce
  unfold outsideCount
  rw [hmissing]
  unfold countRule
  dsimp only
  omega

theorem openTimes_evict (rule : RuleFacts) (nonce : Int) :
    openTimes (rule.evict nonce).rows = openTimes rule.rows := by
  unfold openTimes
  rw [filter_evict]
  intro row hrow hkind
  have hopened := (of_decide_eq_true hrow).1
  rw [hkind] at hopened
  exact absurd hopened (by decide)

/-- The other sums of the grade do not see a refusal. -/
theorem add_evict (t : Totals) (h : outsideCount (rule.evict nonce) = outsideCount rule) :
    t.add (rule.evict nonce) = t.add rule := by
  have hallowances := evict_kind rule nonce (show KIND_OVERRIDE ≠ KIND_REFUSED by decide)
  have hpaid := evict_kind rule nonce (show KIND_PAID ≠ KIND_REFUSED by decide)
  have hdeclines := evict_kind rule nonce (show KIND_ADVISORY_DECLINE ≠ KIND_REFUSED by decide)
  unfold outsideCount at h
  unfold Totals.add
  dsimp only
  rw [h]
  unfold countRule
  dsimp only
  rw [hallowances, hpaid, hdeclines]

end Evict

/-- A rule of the list has an opening row. -/
def OpeningKnown (rules : List RuleFacts) : Prop :=
  ∃ rule ∈ rules, ∃ row ∈ rule.rows, row.kind = KIND_OPENED ∧ 0 < row.ts

theorem daysForRules_evict {front back : List RuleFacts} {rule : RuleFacts} {nonce nowSec : Int}
    (hopening : OpeningKnown (front ++ rule :: back)) :
    daysForRules (front ++ rule.evict nonce :: back) nowSec =
      daysForRules (front ++ rule :: back) nowSec := by
  have htimes : (front ++ rule.evict nonce :: back).flatMap (fun r => openTimes r.rows) =
      (front ++ rule :: back).flatMap fun r => openTimes r.rows := by
    simp only [List.flatMap_append, List.flatMap_cons, openTimes_evict]
  rw [daysForRules_eq, daysForRules_eq, htimes]
  cases hmin : ((front ++ rule :: back).flatMap fun r => openTimes r.rows).min? with
  | some opened => rfl
  | none =>
      obtain ⟨r, hr, row, hrow, hkind, hts⟩ := hopening
      have hmem : row.ts ∈ (front ++ rule :: back).flatMap fun r => openTimes r.rows :=
        List.mem_flatMap.mpr ⟨r, hr, List.mem_map.mpr
          ⟨row, List.mem_filter.mpr ⟨hrow, decide_eq_true ⟨hkind, hts⟩⟩, rfl⟩⟩
      rw [List.min?_eq_none_iff.mp hmin] at hmem
      cases hmem

/-- **When a grade survives the loss of a nonce's refusals.**  The count of requests outside the
rule, and with a known opening the whole grade, stay what they were if and only if the nonce was
granted as often as it was refused. -/
theorem grade_survives_eviction_iff (front back : List RuleFacts) (rule : RuleFacts)
    (nonce nowSec : Int)
    (hrefused : ∃ row ∈ rule.rows, row.kind = KIND_REFUSED ∧ row.nonce = nonce) :
    (outsideCount (rule.evict nonce) = outsideCount rule ∧
      (OpeningKnown (front ++ rule :: back) →
        gradeRules (front ++ rule.evict nonce :: back) nowSec =
          gradeRules (front ++ rule :: back) nowSec)) ↔
      refusals nonce rule.rows = overrides nonce rule.rows := by
  have hcount := outsideCount_evict hrefused
  constructor
  · rintro ⟨hsame, -⟩
    rw [hsame] at hcount
    omega
  · intro hequal
    have hsame : outsideCount (rule.evict nonce) = outsideCount rule := by
      rw [hequal] at hcount
      omega
    refine ⟨hsame, fun hopening => ?_⟩
    have htotals : (front ++ rule.evict nonce :: back).foldl Totals.add ⟨0, 0, 0, 0⟩ =
        (front ++ rule :: back).foldl Totals.add ⟨0, 0, 0, 0⟩ := by
      rw [List.foldl_append, List.foldl_cons, add_evict _ hsame, List.foldl_append, List.foldl_cons]
    unfold gradeRules
    rw [htotals, daysForRules_evict hopening]

/-! ### Refused three times, granted once -/

section Sample

def gradeRow (kind ts nonce : Int) : GradeDecision := ⟨kind, ts, 14, nonce, 0, "merchant"⟩

/-- A rule opened ten days ago with nine payments, a nonce that was refused `k` times, an override
of it and its payment. -/
def clearedRule (k : Nat) : RuleFacts where
  address := "rule"
  rows := gradeRow KIND_OPENED 1 0 ::
    ((List.range 9).map fun i => gradeRow KIND_PAID (10 + i) i) ++
    List.replicate k (gradeRow KIND_REFUSED 30 9) ++
    [gradeRow KIND_OVERRIDE 40 9, gradeRow KIND_PAID 50 9]

theorem grade_survives_eviction_iff_sample :
    (outsideCount ((clearedRule 1).evict 9) = outsideCount (clearedRule 1) ∧
      (OpeningKnown ([] ++ clearedRule 1 :: []) →
        gradeRules ([] ++ (clearedRule 1).evict 9 :: []) 864000 =
          gradeRules ([] ++ clearedRule 1 :: []) 864000)) ↔
      refusals 9 (clearedRule 1).rows = overrides 9 (clearedRule 1).rows :=
  grade_survives_eviction_iff [] [] (clearedRule 1) 9 864000
    ⟨gradeRow KIND_REFUSED 30 9, by decide, rfl, rfl⟩

/-- **A better grade by eviction.**  Three refusals of the nonce and its override are three requests
outside the rule, the override alone is one, and the grade goes up. -/
theorem eviction_raises_grade :
    outsideCount (clearedRule 3) = 3 ∧ outsideCount ((clearedRule 3).evict 9) = 1 ∧
      (gradeRules [clearedRule 3] 864000).id = .band .pushed ∧
      (gradeRules [(clearedRule 3).evict 9] 864000).id = .band .tested := by
  decide

end Sample

end Veto.App

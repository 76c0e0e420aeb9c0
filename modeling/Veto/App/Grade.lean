import Veto.Foundation.JsNumber
import Veto.Foundation.Aggregates
import Mathlib.Data.List.Basic

/-!
# The app's grade

`grade.ts` of the app: an agent's rules and the rows of each, walked rule by rule.
-/

namespace Veto.App

open Foundation

def KIND_OPENED : Int := 0
def KIND_PAID : Int := 1
def KIND_REFUSED : Int := 2
def KIND_OVERRIDE : Int := 3
def KIND_ADVISORY_DECLINE : Int := 100

def GRADE_MIN_REQUESTS : Nat := 10
def GRADE_MIN_DAYS : Nat := 3

structure GradeDecision where
  kind : Int
  ts : Int
  amount : Int
  nonce : Int
  reason : Int
  counterparty : String
deriving DecidableEq, Repr

/-- A rule's address and its rows, which is what a grade reads of it. -/
structure RuleFacts where
  address : String
  rows : List GradeDecision
deriving DecidableEq, Repr

inductive GradedBand
  | stayed
  | tested
  | pushed
deriving DecidableEq, Repr

inductive GradeId
  | tooNew
  | band (band : GradedBand)
deriving DecidableEq, Repr

def GRADE_LABEL : GradeId → String
  | .band .stayed => "Stayed inside its rule"
  | .band .tested => "Tested its limit now and then"
  | .band .pushed => "Pushed its limit often"
  | .tooNew => "Too new to grade"

structure Grade where
  id : GradeId
  label : String
  requests : Nat
  outside : Nat
  paid : Nat
  allowances : Nat
  declines : Nat
  daysRunning : Option Nat
  band : Option GradedBand
  steppedDown : Bool
  movedOutside : Nat
deriving DecidableEq, Repr

/-! ## Days -/

def elapsedDays (startedAt nowSec : Int) : Nat :=
  if nowSec ≤ startedAt then 1
  else
    let whole := (nowSec - startedAt) / 86400
    if whole > MAX_SAFE_INTEGER - 1 then MAX_SAFE_INTEGER else whole.toNat + 1

/-- The earlier of the best time so far and another. -/
def earlier (best : Option Int) (ts : Int) : Option Int :=
  match best with
  | none => some ts
  | some b => if ts < b then some ts else some b

def openedAtOf (rows : List GradeDecision) : Option Int :=
  rows.foldl (fun opened row =>
    if row.kind ≠ KIND_OPENED ∨ row.ts ≤ 0 then opened else earlier opened row.ts) none

def daysForRules (rules : List RuleFacts) (nowSec : Int) : Option Nat :=
  let earliest := rules.foldl (fun (best : Option Int × Option Int) rule =>
    let earliestOpen := match openedAtOf rule.rows with
      | some opened => earlier best.1 opened
      | none => best.1
    let earliestStamp := rule.rows.foldl (fun stamp row =>
      if row.ts ≤ 0 then stamp else earlier stamp row.ts) best.2
    (earliestOpen, earliestStamp)) (none, none)
  match earliest.1 with
  | some earliestOpen => some (elapsedDays earliestOpen nowSec)
  | none =>
    match earliest.2 with
    | none => none
    | some earliestStamp =>
      let span := elapsedDays earliestStamp nowSec
      if GRADE_MIN_DAYS ≤ span then some span else none

/-! ## Counts -/

structure CountedRule where
  paidInside : List GradeDecision
  refused : List GradeDecision
  allowances : List GradeDecision
  settlements : List GradeDecision
  declines : List GradeDecision
  openedAt : Option Int
  outsideFromMissingRefusal : List GradeDecision
deriving DecidableEq, Repr

def countRule (rows : List GradeDecision) : CountedRule :=
  let allowances := rows.filter fun row => row.kind = KIND_OVERRIDE
  let refused := rows.filter fun row => row.kind = KIND_REFUSED
  let allowanceNonces := allowances.map (·.nonce)
  let refusalNonces := refused.map (·.nonce)
  let paid := rows.filter fun row => row.kind = KIND_PAID
  { paidInside := paid.filter fun row => row.nonce ∉ allowanceNonces
    refused := refused
    allowances := allowances
    settlements := paid.filter fun row => row.nonce ∈ allowanceNonces
    declines := rows.filter fun row => row.kind = KIND_ADVISORY_DECLINE
    openedAt := openedAtOf rows
    outsideFromMissingRefusal := allowances.filter fun row => row.nonce ∉ refusalNonces }

/-! ## Bands -/

def bandFor (outside requests : Nat) : GradedBand :=
  if roundNumber (outside * 20) < requests then .stayed
  else if roundNumber (outside * 20) ≤ roundNumber (requests * 4) then .tested
  else .pushed

def BANDS : List GradedBand := [.stayed, .tested, .pushed]

def stepDown (band : GradedBand) (allowances : Nat) : GradedBand × Bool :=
  if allowances < 2 then (band, false)
  else
    let index := BANDS.idxOf band
    let next := BANDS[min (index + 1) (BANDS.length - 1)]?.getD band
    (next, next ≠ band)

/-- The sums of `gradeRules`, each addition rounded as a number's is. -/
structure Totals where
  paid : Nat
  outside : Nat
  allowances : Nat
  declines : Nat
deriving DecidableEq, Repr

def Totals.add (t : Totals) (rule : RuleFacts) : Totals :=
  let facts := countRule rule.rows
  { paid := roundNumber (t.paid + facts.paidInside.length)
    outside := roundNumber (t.outside +
      roundNumber (facts.refused.length + facts.outsideFromMissingRefusal.length))
    allowances := roundNumber (t.allowances + facts.allowances.length)
    declines := roundNumber (t.declines + facts.declines.length) }

def gradeRules (rules : List RuleFacts) (nowSec : Int) : Grade :=
  let t := rules.foldl Totals.add ⟨0, 0, 0, 0⟩
  let requests := roundNumber (t.paid + t.outside)
  let daysRunning := daysForRules rules nowSec
  let tooNew : Grade := {
    id := .tooNew
    label := GRADE_LABEL .tooNew
    requests := requests
    outside := t.outside
    paid := t.paid
    allowances := t.allowances
    declines := t.declines
    daysRunning := daysRunning
    band := none
    steppedDown := false
    movedOutside := 0 }
  match daysRunning with
  | none => tooNew
  | some days =>
    if requests < GRADE_MIN_REQUESTS ∨ days < GRADE_MIN_DAYS then tooNew
    else
      let band := bandFor t.outside requests
      let stepped := stepDown band t.allowances
      { tooNew with
        id := .band stepped.1
        label := GRADE_LABEL (.band stepped.1)
        band := some band
        steppedDown := stepped.2 }

/-! ## What the walks find -/

theorem earlier_eq (best : Option Int) (ts : Int) : earlier best ts = best.merge min (some ts) := by
  cases best with
  | none => rfl
  | some b =>
      rw [Option.merge_some_some]
      unfold earlier
      dsimp only
      split <;> congr 1 <;> omega

theorem foldl_earlier {l : List Int} {best : Option Int} :
    l.foldl earlier best = best.merge min l.min? := by
  induction l generalizing best with
  | nil => rw [List.foldl_nil, List.min?_nil, Option.merge_none_right]
  | cons ts l ih =>
      rw [List.foldl_cons, ih, earlier_eq, List.min?_cons]
      cases best <;> cases l.min? <;> simp [min_assoc]

/-- A loop that passes over some rows is the loop over the others. -/
theorem foldl_skip {α β : Type} {skip : α → Prop} [DecidablePred skip] {f : β → α → β}
    {l : List α} {b : β} :
    l.foldl (fun b a => if skip a then b else f b a) b =
      (l.filter fun a => ¬ skip a).foldl f b := by
  induction l generalizing b with
  | nil => rfl
  | cons a l ih =>
      rw [List.foldl_cons, ih]
      by_cases h : skip a
      · rw [if_pos h, List.filter_cons_of_neg (by simpa using h)]
      · rw [if_neg h, List.filter_cons_of_pos (by simpa using h), List.foldl_cons]

/-- The times of the rows that count as an opening. -/
def openTimes (rows : List GradeDecision) : List Int :=
  (rows.filter fun row => row.kind = KIND_OPENED ∧ 0 < row.ts).map (·.ts)

def stampTimes (rows : List GradeDecision) : List Int :=
  (rows.filter fun row => 0 < row.ts).map (·.ts)

theorem openedAtOf_eq (rows : List GradeDecision) : openedAtOf rows = (openTimes rows).min? := by
  have hrows : rows.filter (fun row => ¬ (row.kind ≠ KIND_OPENED ∨ row.ts ≤ 0)) =
      rows.filter fun row => row.kind = KIND_OPENED ∧ 0 < row.ts := by
    simp only [not_or, not_not, not_le]
  unfold openedAtOf openTimes
  rw [foldl_skip, hrows, ← List.foldl_map, foldl_earlier, Option.merge_none_left]

theorem stamps_eq (rows : List GradeDecision) (best : Option Int) :
    rows.foldl (fun stamp row => if row.ts ≤ 0 then stamp else earlier stamp row.ts) best =
      best.merge min (stampTimes rows).min? := by
  have hrows : rows.filter (fun row => ¬ row.ts ≤ 0) = rows.filter fun row => 0 < row.ts := by
    simp only [not_le]
  unfold stampTimes
  rw [foldl_skip, hrows, ← List.foldl_map, foldl_earlier]

/-- The walk over the rules finds the earliest opening and the earliest time of all rows. -/
theorem daysForRules_eq (rules : List RuleFacts) (nowSec : Int) :
    daysForRules rules nowSec =
      match (rules.flatMap fun r => openTimes r.rows).min?,
          (rules.flatMap fun r => stampTimes r.rows).min? with
      | some opened, _ => some (elapsedDays opened nowSec)
      | none, none => none
      | none, some stamp =>
          if GRADE_MIN_DAYS ≤ elapsedDays stamp nowSec then some (elapsedDays stamp nowSec)
          else none := by
  have hwalk : ∀ (rules : List RuleFacts) (best : Option Int × Option Int),
      rules.foldl (fun best rule =>
        ((match openedAtOf rule.rows with
            | some opened => earlier best.1 opened
            | none => best.1),
          rule.rows.foldl (fun stamp row =>
            if row.ts ≤ 0 then stamp else earlier stamp row.ts) best.2)) best =
      (best.1.merge min (rules.flatMap fun r => openTimes r.rows).min?,
        best.2.merge min (rules.flatMap fun r => stampTimes r.rows).min?) := by
    intro rules
    induction rules with
    | nil => intro best; simp
    | cons rule rules ih =>
        intro best
        have hopen : (match openedAtOf rule.rows with
            | some opened => earlier best.1 opened
            | none => best.1) = best.1.merge min (openTimes rule.rows).min? := by
          rw [openedAtOf_eq]
          cases (openTimes rule.rows).min? with
          | none => rw [Option.merge_none_right]
          | some opened => exact earlier_eq best.1 opened
        rw [List.foldl_cons, ih, hopen, stamps_eq, List.flatMap_cons, List.flatMap_cons, min?_append,
          min?_append]
        have hassoc := (Option.associative_merge (min : Int → Int → Int)).assoc
        rw [hassoc, hassoc]
  unfold daysForRules
  dsimp only
  rw [hwalk rules (none, none), Option.merge_none_left, Option.merge_none_left]
  cases (rules.flatMap fun r => openTimes r.rows).min? with
  | some opened => rfl
  | none => cases (rules.flatMap fun r => stampTimes r.rows).min? <;> rfl

/-! ## Sums below `2 ^ 53` -/

def insideCount (rule : RuleFacts) : Nat := (countRule rule.rows).paidInside.length

def outsideCount (rule : RuleFacts) : Nat :=
  (countRule rule.rows).refused.length + (countRule rule.rows).outsideFromMissingRefusal.length

def allowanceCount (rule : RuleFacts) : Nat := (countRule rule.rows).allowances.length

def declineCount (rule : RuleFacts) : Nat := (countRule rule.rows).declines.length

theorem totals_eq (rules : List RuleFacts) (t : Totals)
    (hpaid : t.paid + (rules.map insideCount).sum < 2 ^ 53)
    (houtside : t.outside + (rules.map outsideCount).sum < 2 ^ 53)
    (hallowances : t.allowances + (rules.map allowanceCount).sum < 2 ^ 53)
    (hdeclines : t.declines + (rules.map declineCount).sum < 2 ^ 53) :
    rules.foldl Totals.add t = {
      paid := t.paid + (rules.map insideCount).sum
      outside := t.outside + (rules.map outsideCount).sum
      allowances := t.allowances + (rules.map allowanceCount).sum
      declines := t.declines + (rules.map declineCount).sum } := by
  induction rules generalizing t with
  | nil => rfl
  | cons rule rules ih =>
      rw [List.map_cons, List.sum_cons, ← Nat.add_assoc] at hpaid houtside hallowances hdeclines
      have hstep : t.add rule = {
          paid := t.paid + insideCount rule
          outside := t.outside + outsideCount rule
          allowances := t.allowances + allowanceCount rule
          declines := t.declines + declineCount rule } := by
        change Totals.mk (roundNumber (t.paid + insideCount rule))
          (roundNumber (t.outside + roundNumber (outsideCount rule)))
          (roundNumber (t.allowances + allowanceCount rule))
          (roundNumber (t.declines + declineCount rule)) = _
        rw [roundNumber_small (n := outsideCount rule) (by omega), roundNumber_small (by omega),
          roundNumber_small (by omega), roundNumber_small (by omega), roundNumber_small (by omega)]
      rw [List.foldl_cons, hstep, ih _ hpaid houtside hallowances hdeclines]
      simp only [List.map_cons, List.sum_cons, Nat.add_assoc]

end Veto.App

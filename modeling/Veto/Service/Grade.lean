import Veto.App.Grade
import Veto.Service.Recompute

/-!
# The service's grade

`grade.ts` of the service, over the statistics of an agent, and its parity with the app's.
The app walks the rows of each rule; the service has sums and extremes of all decisions of
the agent, in milliseconds where the app has seconds.
-/

namespace Veto.Service

open Foundation

inductive Band
  | stayed
  | tested
  | pushed
deriving DecidableEq, Repr

inductive GradeId
  | tooNew
  | band (band : Band)
deriving DecidableEq, Repr

def GRADE_MIN_REQUESTS : Int := 10
def GRADE_MIN_DAYS : Int := 3

def GRADE_LABEL : GradeId → String
  | .band .stayed => "Stayed inside its rule"
  | .band .tested => "Tested its limit now and then"
  | .band .pushed => "Pushed its limit often"
  | .tooNew => "Too new to grade"

structure Counters where
  paid : Int
  outside : Int
  allowances : Int
  declines : Int
  firstOpenTs : Option Int
  firstTs : Option Int
deriving DecidableEq, Repr

structure Grade where
  id : GradeId
  label : String
  requests : Int
  paid : Int
  outside : Int
  allowances : Int
  declines : Int
  daysRunning : Option Int
  band : Option Band
  steppedDown : Bool
  movedOutside : Int
deriving DecidableEq, Repr

def daysRunning (c : Counters) (nowSec : Int) : Option Int :=
  let start := match c.firstOpenTs with
    | some opened => some opened
    | none => c.firstTs
  let days := start.map fun start => if nowSec ≤ start then 1 else (nowSec - start) / 86400 + 1
  let days := days.map fun days =>
    if (MAX_SAFE_INTEGER : Int) < days then (MAX_SAFE_INTEGER : Int) else days
  if c.firstOpenTs = none then days.filter fun days => GRADE_MIN_DAYS ≤ days else days

def bandFor (outside requests : Int) : Band :=
  if outside * 20 < requests then .stayed
  else if outside * 20 ≤ requests * 4 then .tested
  else .pushed

def grade (c : Counters) (nowSec : Int) : Grade :=
  let requests := c.paid + c.outside
  let daysRunning := daysRunning c nowSec
  let graded : Option Band × GradeId := match daysRunning with
    | some days =>
      if GRADE_MIN_REQUESTS ≤ requests ∧ GRADE_MIN_DAYS ≤ days then
        let band := bandFor c.outside requests
        (some band, .band (if c.allowances < 2 then band
          else if band = .stayed then .tested else .pushed))
      else (none, .tooNew)
    | none => (none, .tooNew)
  { id := graded.2
    label := GRADE_LABEL graded.2
    requests := requests
    paid := c.paid
    outside := c.outside
    allowances := c.allowances
    declines := c.declines
    daysRunning := daysRunning
    band := graded.1
    steppedDown := match graded.1 with
      | some band => graded.2 ≠ .band band
      | none => false
    movedOutside := 0 }

/-- `Math.floor(date.getTime() / 1000)`. -/
def seconds (date : Option Int) : Option Int := date.map fun ms => ms / 1000

/-- The grade of `record`: an agent without statistics has no counts and no times. -/
def record (db : Db) (agent : String) (nowSec : Int) : Grade :=
  let s := (db.stats (.agent agent)).getD .fresh
  grade {
    paid := s.counts .paid
    outside := s.counts .outside
    allowances := s.counts .allowances
    declines := s.counts .declines
    firstOpenTs := seconds s.extrema.firstOpenTs
    firstTs := seconds s.extrema.firstTs } nowSec

/-! ## The same grade -/

def Band.app : Band → App.GradedBand
  | .stayed => .stayed
  | .tested => .tested
  | .pushed => .pushed

def GradeId.app : GradeId → App.GradeId
  | .tooNew => .tooNew
  | .band b => .band b.app

/-- The two grades agree field by field. -/
structure SameGrade (s : Grade) (a : App.Grade) : Prop where
  id : s.id.app = a.id
  label : s.label = a.label
  requests : s.requests = a.requests
  paid : s.paid = a.paid
  outside : s.outside = a.outside
  allowances : s.allowances = a.allowances
  declines : s.declines = a.declines
  daysRunning : s.daysRunning = a.daysRunning.map fun days : Nat => (days : Int)
  band : s.band.map Band.app = a.band
  steppedDown : s.steppedDown = a.steppedDown
  movedOutside : s.movedOutside = a.movedOutside

/-- A stored decision as the app reads it. -/
def Decision.row (d : Decision) : App.GradeDecision where
  kind := d.kind
  ts := d.blockTime / 1000
  amount := d.amount
  nonce := d.nonce
  reason := d.reason
  counterparty := d.counterparty

/-- The rules are the agent's, each with its rows, in any order. -/
structure RulesOf (decisions : List Decision) (agent : String) (rules : List App.RuleFacts) :
    Prop where
  distinct : (rules.map (·.address)).Nodup
  rows : ∀ rule ∈ rules,
    rule.rows.Perm ((decisions.filter fun d => d.rule = rule.address).map Decision.row)
  own : ∀ d ∈ decisions, d.agent = agent ↔ ∃ rule ∈ rules, rule.address = d.rule
  /-- Block times are whole seconds. -/
  wholeSeconds : ∀ d ∈ decisions, d.agent = agent → 1000 ∣ d.blockTime

/-! ### Days -/

variable {c : Counters} {nowSec : Int}

theorem elapsedDays_eq (start nowSec : Int) :
    (let days := if nowSec ≤ start then 1 else (nowSec - start) / 86400 + 1
      if (MAX_SAFE_INTEGER : Int) < days then (MAX_SAFE_INTEGER : Int) else days) =
      App.elapsedDays start nowSec := by
  have hmax : (MAX_SAFE_INTEGER : Int) = 9007199254740991 := rfl
  unfold App.elapsedDays
  dsimp only
  by_cases hnow : nowSec ≤ start
  · rw [if_pos hnow, if_pos hnow, if_neg (by omega)]
    rfl
  · rw [if_neg hnow, if_neg hnow]
    by_cases hlong : (nowSec - start) / 86400 > (MAX_SAFE_INTEGER : Int) - 1
    · rw [if_pos hlong, if_pos (by omega)]
    · rw [if_neg hlong, if_neg (by omega)]
      have hpos : 0 ≤ (nowSec - start) / 86400 := by omega
      push_cast
      rw [Int.toNat_of_nonneg hpos]

theorem daysRunning_eq : daysRunning c nowSec =
    (match c.firstOpenTs, c.firstTs with
      | some opened, _ => some (App.elapsedDays opened nowSec)
      | none, none => none
      | none, some stamp =>
          if App.GRADE_MIN_DAYS ≤ App.elapsedDays stamp nowSec
          then some (App.elapsedDays stamp nowSec) else none).map fun days : Nat => (days : Int) := by
  unfold daysRunning
  cases c.firstOpenTs with
  | some opened =>
      simp only [reduceCtorEq, if_false, Option.map_some]
      exact congrArg some (elapsedDays_eq opened nowSec)
  | none =>
      cases c.firstTs with
      | none => rfl
      | some stamp =>
          simp only [if_true, Option.map_some]
          rw [elapsedDays_eq]
          by_cases hdays : App.GRADE_MIN_DAYS ≤ App.elapsedDays stamp nowSec
          · rw [if_pos hdays, Option.filter_some, if_pos]
            · rfl
            · exact decide_eq_true (Int.ofNat_le.mpr hdays)
          · rw [if_neg hdays, Option.filter_some, if_neg]
            · rfl
            · rw [decide_eq_true_eq]
              exact fun hle => hdays (Int.ofNat_le.mp hle)

/-! ### Bands -/

/-- Rounding does not move a comparison of the bands to its other side. -/
theorem bandFor_eq {outside requests : Nat} (h : requests < 2 ^ 53) :
    (bandFor outside requests).app = App.bandFor outside requests := by
  have hfirst : roundNumber (outside * 20) < requests ↔ outside * 20 < requests := by
    rcases Nat.lt_or_ge (outside * 20) (2 ^ 53) with hsmall | hlarge
    · rw [roundNumber_small hsmall]
    · have := pow_le_roundNumber hlarge
      omega
  have hfour : roundNumber (requests * 4) = requests * 4 := roundNumber_mul_pow (k := 2) h
  have hsecond : roundNumber (outside * 20) ≤ roundNumber (requests * 4) ↔
      outside * 20 ≤ requests * 4 := by
    rw [hfour]
    rcases Nat.lt_or_ge (outside * 5) (2 ^ 53) with hsmall | hlarge
    · have hexact := roundNumber_mul_pow (k := 2) hsmall
      rw [show outside * 20 = outside * 5 * 2 ^ 2 by omega, hexact]
    · have hbig : 2 ^ 55 ≤ outside * 20 := by omega
      have := pow_le_roundNumber hbig
      omega
  unfold bandFor App.bandFor
  rw [if_congr hfirst rfl (if_congr hsecond rfl rfl)]
  by_cases hstayed : outside * 20 < requests
  · rw [if_pos (by omega), if_pos hstayed]
    rfl
  · rw [if_neg (by omega), if_neg hstayed]
    by_cases htested : outside * 20 ≤ requests * 4
    · rw [if_pos (by omega), if_pos htested]
      rfl
    · rw [if_neg (by omega), if_neg htested]
      rfl

theorem stepDown_eq (band : Band) (allowances : Nat) :
    let id := if (allowances : Int) < 2 then band else if band = .stayed then .tested else .pushed
    id.app = (App.stepDown band.app allowances).1 ∧
      decide (id ≠ band) = (App.stepDown band.app allowances).2 := by
  by_cases h : allowances < 2
  · have hint : (allowances : Int) < 2 := by omega
    simp [App.stepDown, h, hint]
  · have hint : ¬ (allowances : Int) < 2 := by omega
    cases band <;> simp [App.stepDown, h, hint, App.BANDS, Band.app]

/-! ### Counts -/

variable {decisions : List Decision} {agent : String} {rules : List App.RuleFacts}
  {rule : App.RuleFacts}

/-- A row of a nonce and a kind, in the rule's rows and in the table. -/
theorem RulesOf.nonce_mem (h : RulesOf decisions agent rules) (hrule : rule ∈ rules)
    (nonce kind : Int) :
    nonce ∈ (rule.rows.filter fun row => row.kind = kind).map (·.nonce) ↔
      ∃ s ∈ decisions, s.rule = rule.address ∧ s.nonce = nonce ∧ s.kind = kind := by
  have hrows : ∀ row, row ∈ rule.rows ↔
      row ∈ (decisions.filter fun d => d.rule = rule.address).map Decision.row :=
    fun row => (h.rows rule hrule).mem_iff
  constructor
  · intro hmem
    obtain ⟨row, hrow, rfl⟩ := List.mem_map.mp hmem
    obtain ⟨hrow, hkind⟩ := List.mem_filter.mp hrow
    obtain ⟨s, hs, rfl⟩ := List.mem_map.mp ((hrows row).mp hrow)
    obtain ⟨hs, haddress⟩ := List.mem_filter.mp hs
    exact ⟨s, hs, of_decide_eq_true haddress, rfl, of_decide_eq_true hkind⟩
  · rintro ⟨s, hs, haddress, rfl, hkind⟩
    have hrow : s.row ∈ rule.rows :=
      (hrows s.row).mpr (List.mem_map_of_mem (List.mem_filter.mpr ⟨hs, decide_eq_true haddress⟩))
    exact List.mem_map.mpr ⟨s.row, List.mem_filter.mpr ⟨hrow, decide_eq_true hkind⟩, rfl⟩

/-- Counting rows of a rule counts its decisions. -/
theorem RulesOf.countP_rows (h : RulesOf decisions agent rules) (hrule : rule ∈ rules)
    {p : App.GradeDecision → Bool} {q : Decision → Prop} [DecidablePred q]
    (hpq : ∀ d ∈ decisions, d.rule = rule.address → (p d.row = true ↔ q d)) :
    (rule.rows.countP p : Int) =
      ((decisions.filter fun d => d.rule = rule.address).map fun d =>
        if q d then (1 : Int) else 0).sum := by
  rw [(h.rows rule hrule).countP_eq, List.countP_map, sum_map_ite_eq_countP]
  congr 1
  apply List.countP_congr
  intro d hd
  obtain ⟨hd, haddress⟩ := List.mem_filter.mp hd
  rw [decide_eq_true_iff]
  exact hpq d hd (of_decide_eq_true haddress)

/-- What the app counts of a rule, as sums over its decisions. -/
theorem RulesOf.counts_rule (h : RulesOf decisions agent rules) (hrule : rule ∈ rules) :
    let own := decisions.filter fun d => d.rule = rule.address
    (App.insideCount rule : Int) = (own.map fun d => weight decisions d .paid).sum ∧
      (App.outsideCount rule : Int) = (own.map fun d => weight decisions d .outside).sum ∧
      (App.allowanceCount rule : Int) = (own.map fun d => weight decisions d .allowances).sum ∧
      (App.declineCount rule : Int) = (own.map fun d => weight decisions d .declines).sum := by
  have hnone : ∀ d : Decision, d.rule = rule.address → ∀ kind,
      (d.nonce ∉ (rule.rows.filter fun row => row.kind = kind).map (·.nonce)) ↔
        ∀ s ∈ decisions, ¬ (s.rule = d.rule ∧ s.nonce = d.nonce ∧ s.kind = kind) := by
    intro d haddress kind
    rw [h.nonce_mem hrule, haddress]
    push Not
    rfl
  dsimp only
  refine ⟨?_, ?_, ?_, ?_⟩
  · unfold App.insideCount App.countRule
    dsimp only
    rw [List.filter_filter, ← List.countP_eq_length_filter]
    apply h.countP_rows hrule
    intro d _ haddress
    rw [Bool.and_eq_true, decide_eq_true_iff, decide_eq_true_iff, and_comm]
    exact and_congr_right fun _ => hnone d haddress 3
  · unfold App.outsideCount App.countRule
    dsimp only
    rw [List.filter_filter, ← List.countP_eq_length_filter, ← List.countP_eq_length_filter]
    have hsplit : ∀ d, weight decisions d .outside = (if d.kind = 2 then (1 : Int) else 0) +
        if d.kind = 3 ∧ ∀ s ∈ decisions, ¬ (s.rule = d.rule ∧ s.nonce = d.nonce ∧ s.kind = 2)
        then 1 else 0 := by
      intro d
      change (if AskedOutside decisions d then (1 : Int) else 0) = _
      by_cases htwo : d.kind = 2
      · have hthree : ¬ d.kind = 3 := by omega
        have houtside : AskedOutside decisions d := Or.inl htwo
        rw [if_pos houtside, if_pos htwo, if_neg fun hboth => hthree hboth.1, add_zero]
      · rw [if_neg htwo, zero_add]
        exact if_congr (or_iff_right htwo) rfl rfl
    simp only [hsplit]
    rw [List.sum_map_add]
    push_cast
    congr 1
    · apply h.countP_rows hrule
      intro d _ _
      exact decide_eq_true_iff
    · apply h.countP_rows hrule
      intro d _ haddress
      rw [Bool.and_eq_true, decide_eq_true_iff, decide_eq_true_iff, and_comm]
      exact and_congr_right fun _ => hnone d haddress 2
  · unfold App.allowanceCount App.countRule
    dsimp only
    rw [← List.countP_eq_length_filter]
    apply h.countP_rows hrule
    intro d _ _
    exact decide_eq_true_iff
  · unfold App.declineCount App.countRule
    dsimp only
    rw [← List.countP_eq_length_filter]
    apply h.countP_rows hrule
    intro d _ _
    exact decide_eq_true_iff

/-- The decisions of the agent, rule by rule. -/
theorem RulesOf.sum_agent (h : RulesOf decisions agent rules) (f : Decision → Int) :
    ((decisions.filter (StatsKey.agent agent).holds).map f).sum =
      (rules.map fun rule => ((decisions.filter fun d => d.rule = rule.address).map f).sum).sum := by
  have hfilter : decisions.filter (StatsKey.agent agent).holds =
      decisions.filter fun d => d.rule ∈ rules.map (·.address) := by
    apply List.filter_congr
    intro d hd
    apply Bool.eq_iff_iff.mpr
    rw [decide_eq_true_iff, List.mem_map, ← h.own d hd]
    exact decide_eq_true_iff
  rw [hfilter, sum_map_by_name h.distinct, List.map_map]
  rfl

theorem sum_cast {f : App.RuleFacts → Nat} {g : App.RuleFacts → Int}
    (h : ∀ rule ∈ rules, (f rule : Int) = g rule) :
    (((rules.map f).sum : Nat) : Int) = (rules.map g).sum := by
  induction rules with
  | nil => rfl
  | cons rule rules ih =>
      rw [List.map_cons, List.map_cons, List.sum_cons, List.sum_cons, Nat.cast_add,
        h rule List.mem_cons_self, ih fun r hr => h r (List.mem_cons_of_mem rule hr)]

/-! ### Times -/

/-- The least of the agent's times is the least of its rules' rows. -/
theorem RulesOf.min?_times (h : RulesOf decisions agent rules) {p : App.GradeDecision → Bool}
    {q : Decision → Bool} (hpq : ∀ d ∈ decisions, d.agent = agent → p d.row = q d) :
    (rules.flatMap fun rule => (rule.rows.filter p).map (·.ts)).min? =
      seconds ((decisions.filter fun d => d.agent = agent ∧ q d = true).map (·.blockTime)).min? := by
  have hmono : Monotone fun ms : Int => ms / 1000 := fun _ _ hle =>
    Int.ediv_le_ediv (by decide) hle
  rw [seconds, ← min?_map_monotone hmono, List.map_map]
  apply min?_congr
  intro ts
  rw [List.mem_flatMap, List.mem_map]
  constructor
  · rintro ⟨rule, hrule, hts⟩
    obtain ⟨row, hrow, rfl⟩ := List.mem_map.mp hts
    obtain ⟨hrow, hp⟩ := List.mem_filter.mp hrow
    obtain ⟨d, hd, rfl⟩ := List.mem_map.mp ((h.rows rule hrule).mem_iff.mp hrow)
    obtain ⟨hd, haddress⟩ := List.mem_filter.mp hd
    have hagent : d.agent = agent :=
      (h.own d hd).mpr ⟨rule, hrule, (of_decide_eq_true haddress).symm⟩
    refine ⟨d, List.mem_filter.mpr ⟨hd, decide_eq_true ⟨hagent, ?_⟩⟩, rfl⟩
    rw [← hpq d hd hagent]
    exact hp
  · rintro ⟨d, hd, rfl⟩
    obtain ⟨hd, hboth⟩ := List.mem_filter.mp hd
    obtain ⟨hagent, hq⟩ := of_decide_eq_true hboth
    obtain ⟨rule, hrule, haddress⟩ := (h.own d hd).mp hagent
    have hrow : d.row ∈ rule.rows := (h.rows rule hrule).mem_iff.mpr
      (List.mem_map_of_mem (List.mem_filter.mpr ⟨hd, decide_eq_true haddress.symm⟩))
    refine ⟨rule, hrule, List.mem_map.mpr ⟨d.row, List.mem_filter.mpr ⟨hrow, ?_⟩, rfl⟩⟩
    rw [hpq d hd hagent]
    exact hq

theorem RulesOf.firstOpen (h : RulesOf decisions agent rules) :
    (rules.flatMap fun rule => App.openTimes rule.rows).min? =
      seconds (minOpenTs decisions (.agent agent)) := by
  have htimes := h.min?_times (p := fun row => row.kind = App.KIND_OPENED ∧ 0 < row.ts)
    (q := fun d => d.kind = 0 ∧ 0 < d.blockTime) (by
      intro d hd hagent
      have hdvd := h.wholeSeconds d hd hagent
      apply decide_eq_decide.mpr
      exact and_congr_right fun _ => by simp only [Decision.row]; omega)
  unfold App.openTimes minOpenTs
  rw [htimes]
  simp only [StatsKey.holds, decide_eq_true_eq]

theorem RulesOf.firstStamp (h : RulesOf decisions agent rules) :
    (rules.flatMap fun rule => App.stampTimes rule.rows).min? =
      seconds (minTs decisions (.agent agent)) := by
  have htimes := h.min?_times (p := fun row => 0 < row.ts) (q := fun d => 0 < d.blockTime) (by
      intro d hd hagent
      have hdvd := h.wholeSeconds d hd hagent
      apply decide_eq_decide.mpr
      simp only [Decision.row]
      omega)
  unfold App.stampTimes minTs
  rw [htimes]
  simp only [StatsKey.holds, decide_eq_true_eq]

theorem label_eq (id : GradeId) : GRADE_LABEL id = App.GRADE_LABEL id.app := by
  rcases id with _ | _ | _ | _ <;> rfl

/-! ### The grades -/

/-- Equal counts and times give equal grades. -/
theorem grade_same {t : App.Totals} {days : Option Nat} {a : App.Grade}
    (hpaid : c.paid = t.paid) (houtside : c.outside = t.outside)
    (hallowances : c.allowances = t.allowances) (hdeclines : c.declines = t.declines)
    (hrequests : t.paid + t.outside < 2 ^ 53)
    (htotals : rules.foldl App.Totals.add ⟨0, 0, 0, 0⟩ = t)
    (hdays : daysRunning c nowSec = days.map fun days : Nat => (days : Int))
    (happ : App.daysForRules rules nowSec = days) (ha : a = App.gradeRules rules nowSec) :
    SameGrade (grade c nowSec) a := by
  have hexact : roundNumber (t.paid + t.outside) = t.paid + t.outside :=
    roundNumber_small hrequests
  subst ha
  unfold grade App.gradeRules
  simp only [htotals, hexact, happ, hdays, hpaid, houtside, hallowances, hdeclines]
  cases days with
  | none => exact ⟨rfl, rfl, rfl, rfl, rfl, rfl, rfl, rfl, rfl, rfl, rfl⟩
  | some days =>
      by_cases hnew : t.paid + t.outside < App.GRADE_MIN_REQUESTS ∨ days < App.GRADE_MIN_DAYS
      · have hservice : ¬ (GRADE_MIN_REQUESTS ≤ (t.paid : Int) + t.outside ∧
            GRADE_MIN_DAYS ≤ (days : Int)) := by
          unfold App.GRADE_MIN_REQUESTS App.GRADE_MIN_DAYS at hnew
          unfold GRADE_MIN_REQUESTS GRADE_MIN_DAYS
          omega
        simp only [Option.map_some, if_neg hservice, if_pos hnew]
        exact ⟨rfl, rfl, rfl, rfl, rfl, rfl, rfl, rfl, rfl, rfl, rfl⟩
      · have hservice : GRADE_MIN_REQUESTS ≤ (t.paid : Int) + t.outside ∧
            GRADE_MIN_DAYS ≤ (days : Int) := by
          unfold App.GRADE_MIN_REQUESTS App.GRADE_MIN_DAYS at hnew
          unfold GRADE_MIN_REQUESTS GRADE_MIN_DAYS
          omega
        have hband : (bandFor (t.outside : Int) ((t.paid : Int) + t.outside)).app =
            App.bandFor t.outside (t.paid + t.outside) := by
          rw [← bandFor_eq hrequests]
          push_cast
          rfl
        obtain ⟨hid, hstepped⟩ :=
          stepDown_eq (bandFor (t.outside : Int) ((t.paid : Int) + t.outside)) t.allowances
        rw [hband] at hid hstepped
        simp only [Option.map_some, if_pos hservice, if_neg hnew]
        constructor
        · exact congrArg App.GradeId.band hid
        · rw [label_eq]
          exact congrArg App.GRADE_LABEL (congrArg App.GradeId.band hid)
        · push_cast
          rfl
        · rfl
        · rfl
        · rfl
        · rfl
        · rfl
        · exact congrArg some hband
        · rw [← hstepped]
          simp only [ne_eq, GradeId.band.injEq]
        · rfl

/-- The grade of the statistics that ingest maintains is the app's grade of the rows. -/
theorem record_same_gradeRules (calls : List Call) {agent : String} {rules : List App.RuleFacts}
    (nowSec : Int) (hrules : RulesOf (runCalls calls).decisions agent rules)
    (hcounts : ∀ c, (runCalls calls).counts (.agent agent) c < 2 ^ 53) :
    SameGrade (record (runCalls calls) agent nowSec) (App.gradeRules rules nowSec) := by
  obtain ⟨-, hrecomputed⟩ := runCalls_recomputed calls
  have hsum : ∀ (f : App.RuleFacts → Nat) c, (∀ rule ∈ rules, (f rule : Int) =
      (((runCalls calls).decisions.filter fun d => d.rule = rule.address).map fun d =>
        weight (runCalls calls).decisions d c).sum) →
      (runCalls calls).counts (.agent agent) c = ((rules.map f).sum : Nat) := by
    intro f c hf
    rw [hrecomputed.counts, hrules.sum_agent, sum_cast hf]
  have hpaid := hsum App.insideCount .paid fun rule hrule => (hrules.counts_rule hrule).1
  have houtside := hsum App.outsideCount .outside fun rule hrule => (hrules.counts_rule hrule).2.1
  have hallowances := hsum App.allowanceCount .allowances fun rule hrule =>
    (hrules.counts_rule hrule).2.2.1
  have hdeclines := hsum App.declineCount .declines fun rule hrule =>
    (hrules.counts_rule hrule).2.2.2
  have hrequests : (runCalls calls).counts (.agent agent) .requests =
      (runCalls calls).counts (.agent agent) .paid +
        (runCalls calls).counts (.agent agent) .outside := by
    rw [hrecomputed.counts, hrecomputed.counts, hrecomputed.counts, ← List.sum_map_add]
    rfl
  have hbound := hcounts .requests
  have hbound₁ := hcounts .allowances
  have hbound₂ := hcounts .declines
  rw [hrequests, hpaid, houtside] at hbound
  rw [hallowances] at hbound₁
  rw [hdeclines] at hbound₂
  have htotals := App.totals_eq rules ⟨0, 0, 0, 0⟩
    (by dsimp only; omega) (by dsimp only; omega) (by dsimp only; omega) (by dsimp only; omega)
  simp only [Nat.zero_add] at htotals
  have hextrema := hrecomputed.extrema (.agent agent)
  apply grade_same hpaid houtside hallowances hdeclines (by dsimp only; omega) htotals _ rfl rfl
  rw [daysRunning_eq, App.daysForRules_eq, hrules.firstOpen, hrules.firstStamp]
  change _ = (match seconds (extremaOf _ _).firstOpenTs, seconds (extremaOf _ _).firstTs with
    | some opened, _ => _
    | none, none => _
    | none, some stamp => _ : Option Nat).map _
  rw [← hextrema]
  rfl

/-- A row of one agent, at a second after 1970. -/
def sampleDecision (signature rule : String) (kind nonce second : Int) : Decision where
  signature := signature
  instructionIndex := 0
  innerIndex := -1
  slot := second
  blockTime := second * 1000
  programVersion := 1
  ruleKind := .mandate
  rule := rule
  agent := "agent"
  owner := "owner"
  kind := kind
  reason := 0
  amount := 5
  nonce := nonce
  counterparty := "merchant"
  suggestedOverride := none
  commitment := .confirmed
  source := .webhook

/-- An allowed refusal and its settlement under one rule, an override without a refusal under
another, and a payment that was taken back. -/
def sampleCalls : List Call :=
  let lunch := sampleDecision "paid" "lunch" 1 2 400
  [.insert (sampleDecision "allowed" "lunch" 3 1 300), .insert lunch,
    .insert (sampleDecision "opened" "lunch" 0 0 100),
    .insert (sampleDecision "refused" "lunch" 2 1 200), .reverse lunch.key,
    .insert (sampleDecision "early" "rent" 3 1 50), .insert (sampleDecision "settled" "lunch" 1 1 500)]

def sampleRules : List App.RuleFacts :=
  [⟨"rent", [(sampleDecision "early" "rent" 3 1 50).row]⟩,
    ⟨"lunch", [(sampleDecision "opened" "lunch" 0 0 100).row,
      (sampleDecision "refused" "lunch" 2 1 200).row,
      (sampleDecision "allowed" "lunch" 3 1 300).row,
      (sampleDecision "settled" "lunch" 1 1 500).row]⟩]

theorem record_same_gradeRules_sample :
    SameGrade (record (runCalls sampleCalls) "agent" 400000)
      (App.gradeRules sampleRules 400000) := by
  have hrules : RulesOf (runCalls sampleCalls).decisions "agent" sampleRules :=
    ⟨by decide, by decide, by decide, by decide⟩
  have hcounts : ∀ c, (runCalls sampleCalls).counts (.agent "agent") c < 2 ^ 53 := by
    intro c
    cases c <;> decide
  exact record_same_gradeRules sampleCalls 400000 hrules hcounts

end Veto.Service

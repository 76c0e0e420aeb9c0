import Veto.Service.Ingest
import Veto.Foundation.Aggregates
import Mathlib.Algebra.BigOperators.Pi
import Mathlib.Data.List.Nodup

/-!
# The statistics of the index

The counters and extremes are what a recompute over the stored decisions gives.  `Tallied`
says that a counter is the sum of the stored deltas, whatever these are; every write keeps
it, and after `recomputeNonce` the deltas are the contributions.
-/

namespace Veto.Service

open Foundation

/-! ## A recompute from scratch -/

/-- A payment for which no override of its nonce is stored. -/
def PaidInside (decisions : List Decision) (d : Decision) : Prop :=
  d.kind = 1 ∧ ∀ s ∈ decisions, ¬ (s.rule = d.rule ∧ s.nonce = d.nonce ∧ s.kind = 3)

/-- A refusal, or an override for which no refusal of its nonce is stored. -/
def AskedOutside (decisions : List Decision) (d : Decision) : Prop :=
  d.kind = 2 ∨
    (d.kind = 3 ∧ ∀ s ∈ decisions, ¬ (s.rule = d.rule ∧ s.nonce = d.nonce ∧ s.kind = 2))

instance (decisions : List Decision) (d : Decision) : Decidable (PaidInside decisions d) :=
  inferInstanceAs (Decidable (_ ∧ _))

instance (decisions : List Decision) (d : Decision) : Decidable (AskedOutside decisions d) :=
  inferInstanceAs (Decidable (_ ∨ _))

/-- What a stored decision counts for. -/
def weight (decisions : List Decision) (d : Decision) : Counts
  | .paid => if PaidInside decisions d then 1 else 0
  | .outside => if AskedOutside decisions d then 1 else 0
  | .allowances => if d.kind = 3 then 1 else 0
  | .declines => if d.kind = 100 then 1 else 0
  | .requests =>
      (if PaidInside decisions d then 1 else 0) + if AskedOutside decisions d then 1 else 0

def Db.counts (db : Db) (key : StatsKey) : Counts := ((db.stats key).getD .fresh).counts

def Db.extrema (db : Db) (key : StatsKey) : Extrema := ((db.stats key).getD .fresh).extrema

/-- The extremes of the decisions of one statistics row. -/
def extremaOf (decisions : List Decision) (key : StatsKey) : Extrema where
  firstOpenTs := minOpenTs decisions key
  firstTs := minTs decisions key
  lastTs := maxTs decisions key
  lastSlot := maxSlot decisions key

/-- The statistics and the deltas are those of the stored decisions. -/
structure Recomputed (db : Db) : Prop where
  counts : ∀ key c, db.counts key c =
    ((db.decisions.filter key.holds).map fun d => weight db.decisions d c).sum
  extrema : ∀ key, db.extrema key = extremaOf db.decisions key
  deltas : ∀ d ∈ db.decisions, db.deltas d.key = some ⟨d.rule, d.agent, weight db.decisions d⟩
  noOther : ∀ key, (∀ d ∈ db.decisions, d.key ≠ key) → db.deltas key = none

/-- What the index can store: the columns' types and constraints, and a month it has. -/
def Storable (row : Decision) : Prop :=
  row.key.Fits ∧ (firstMonth ≤ row.blockTime ∧ row.blockTime < lastMonth) ∧ row.Fits

instance (row : Decision) : Decidable (Storable row) := inferInstanceAs (Decidable (_ ∧ _ ∧ _))

def survive (decisions : List Decision) : Call → List Decision
  | .insert row =>
      if (∀ d ∈ decisions, d.key ≠ row.key) ∧ Storable row then decisions ++ [row] else decisions
  | .reverse key => decisions.filter fun d => d.key ≠ key

/-- The decisions inserted and not reversed since. -/
def survivors (calls : List Call) : List Decision := calls.foldl survive []

/-! ## Contributions -/

theorem hasKind_eq_true {decisions : List Decision} {rule : String} {nonce kind : Int} :
    hasKind decisions rule nonce kind = true ↔
      ∃ s ∈ decisions, s.rule = rule ∧ s.nonce = nonce ∧ s.kind = kind := by
  simp [hasKind]

theorem contribution_eq_weight (decisions : List Decision) (d : Decision) :
    contribution decisions d = weight decisions d := by
  have hkind : ∀ kind, (¬ hasKind decisions d.rule d.nonce kind = true) ↔
      ∀ s ∈ decisions, ¬ (s.rule = d.rule ∧ s.nonce = d.nonce ∧ s.kind = kind) := by
    intro kind
    rw [hasKind_eq_true]
    simp only [not_exists, not_and]
  have hpaid : (d.kind = 1 ∧ ¬ hasKind decisions d.rule d.nonce 3 = true) ↔
      PaidInside decisions d := and_congr_right fun _ => hkind 3
  have houtside : (d.kind = 2 ∨ (d.kind = 3 ∧ ¬ hasKind decisions d.rule d.nonce 2 = true)) ↔
      AskedOutside decisions d := or_congr_right (and_congr_right fun _ => hkind 2)
  funext c
  cases c with
  | requests => exact congrArg₂ (· + ·) (if_congr hpaid rfl rfl) (if_congr houtside rfl rfl)
  | paid => exact if_congr hpaid rfl rfl
  | outside => exact if_congr houtside rfl rfl
  | allowances => rfl
  | declines => rfl

/-- A decision of another rule or nonce does not change what a row counts for. -/
theorem weight_congr {decisions decisions' : List Decision} {d : Decision}
    (h : ∀ s, s.rule = d.rule → s.nonce = d.nonce → (s ∈ decisions ↔ s ∈ decisions')) :
    weight decisions d = weight decisions' d := by
  have hkind : ∀ kind, (∀ s ∈ decisions, ¬ (s.rule = d.rule ∧ s.nonce = d.nonce ∧ s.kind = kind)) ↔
      ∀ s ∈ decisions', ¬ (s.rule = d.rule ∧ s.nonce = d.nonce ∧ s.kind = kind) := by
    intro kind
    constructor
    · intro hall s hs hsame
      exact hall s ((h s hsame.1 hsame.2.1).mpr hs) hsame
    · intro hall s hs hsame
      exact hall s ((h s hsame.1 hsame.2.1).mp hs) hsame
  have hpaid : PaidInside decisions d ↔ PaidInside decisions' d :=
    and_congr_right fun _ => hkind 3
  have houtside : AskedOutside decisions d ↔ AskedOutside decisions' d :=
    or_congr_right (and_congr_right fun _ => hkind 2)
  funext c
  cases c with
  | requests => exact congrArg₂ (· + ·) (if_congr hpaid rfl rfl) (if_congr houtside rfl rfl)
  | paid => exact if_congr hpaid rfl rfl
  | outside => exact if_congr houtside rfl rfl
  | allowances => rfl
  | declines => rfl

/-! ### The `CHECK` constraints -/

theorem Counts.fair_zero : Counts.Fair 0 := by decide

theorem Counts.Fair.add {x y : Counts} (hx : x.Fair) (hy : y.Fair) : Counts.Fair (x + y) := by
  unfold Counts.Fair at *
  simp only [Pi.add_apply]
  omega

theorem weight_fair (decisions : List Decision) (d : Decision) :
    (weight decisions d).Fair := by
  unfold Counts.Fair weight
  refine ⟨rfl, ?_, ?_, ?_, ?_⟩ <;> dsimp only <;> split <;> omega

/-! ## Counters kept by differences -/

/-- What the stored delta of a decision counts for. -/
def Db.stored (db : Db) (d : Decision) : Counts := (db.deltas d.key).elim 0 (·.counts)

/-- The sum of the stored deltas. -/
def Db.tally (db : Db) (key : StatsKey) : Counts :=
  (db.decisions.map fun d => if key.holds d then db.stored d else 0).sum

structure Tallied (db : Db) : Prop where
  nodup : (db.decisions.map Decision.key).Nodup
  owned : ∀ key delta, db.deltas key = some delta → ∃ d ∈ db.decisions, d.key = key ∧
    delta.rule = d.rule ∧ delta.agent = d.agent ∧ delta.counts.Fair
  tally : ∀ key, db.counts key = db.tally key

theorem Tallied.rows_nodup {db : Db} (h : Tallied db) : db.decisions.Nodup := h.nodup.of_map _

theorem Tallied.eq_of_key {db : Db} (h : Tallied db) {d e : Decision} (hd : d ∈ db.decisions)
    (he : e ∈ db.decisions) (hkey : d.key = e.key) : d = e :=
  List.inj_on_of_nodup_map h.nodup hd he hkey

theorem Tallied.stored_fair {db : Db} (h : Tallied db) (d : Decision) : (db.stored d).Fair := by
  unfold Db.stored
  cases hdelta : db.deltas d.key with
  | none => exact Counts.fair_zero
  | some delta =>
      obtain ⟨-, -, -, -, -, hfair⟩ := h.owned d.key delta hdelta
      exact hfair

/-- A delta is its own decision's. -/
theorem Tallied.delta_eq {db : Db} (h : Tallied db) {d : Decision} (hd : d ∈ db.decisions)
    {delta : Delta} (hdelta : db.deltas d.key = some delta) :
    delta = ⟨d.rule, d.agent, db.stored d⟩ := by
  obtain ⟨e, he, hkey, hrule, hagent, -⟩ := h.owned d.key delta hdelta
  obtain rfl := h.eq_of_key he hd hkey
  unfold Db.stored
  rw [hdelta, ← hrule, ← hagent]
  rfl

/-- The tables with the counters of one statistics row changed. -/
def Db.withCounts (db : Db) (key : StatsKey) (counts : Counts) : Db :=
  let row := (db.stats key).getD .fresh
  { db with stats := Function.update db.stats key (some { row with counts := row.counts + counts }) }

variable {db db' : Db} {key k : StatsKey} {counts : Counts} {row d : Decision}

theorem Db.counts_withCounts :
    (db.withCounts key counts).counts k = db.counts k + if k = key then counts else 0 := by
  unfold Db.counts Db.withCounts
  by_cases h : k = key
  · subst h
    simp
  · simp [h]

theorem Db.extrema_withCounts : (db.withCounts key counts).extrema k = db.extrema k := by
  unfold Db.extrema Db.withCounts
  by_cases h : k = key
  · subst h
    simp
  · simp [h]

theorem Db.isSome_withCounts :
    ((db.withCounts key counts).stats k).isSome ↔ (db.stats k).isSome ∨ k = key := by
  unfold Db.withCounts
  by_cases h : k = key
  · subst h
    simp
  · simp [h]

theorem addCounts_ok (h : (db.counts key + counts).Fair) :
    addCounts db key counts = .ok (db.withCounts key counts) := by
  change (require (db.counts key + counts).Fair _ >>= _) = _
  rw [require_true h]
  rfl

/-- The statistics rows that a delta is counted in. -/
def Delta.In (delta : Delta) (key : StatsKey) : Prop :=
  key = .rule delta.rule ∨ key = .agent delta.agent

instance (delta : Delta) (key : StatsKey) : Decidable (delta.In key) :=
  inferInstanceAs (Decidable (_ ∨ _))

/-- What `apply` changes. -/
structure Applied (db : Db) (delta : Delta) (counts : Counts) (db' : Db) : Prop where
  decisionKeys : db'.decisionKeys = db.decisionKeys
  decisions : db'.decisions = db.decisions
  deltas : db'.deltas = db.deltas
  counts : ∀ key, db'.counts key = db.counts key + if delta.In key then counts else 0
  extrema : ∀ key, db'.extrema key = db.extrema key
  present : ∀ key, (db'.stats key).isSome ↔ (db.stats key).isSome ∨ delta.In key

theorem apply_ok (db : Db) (delta : Delta) (sign : Int)
    (h : ∀ key, delta.In key → (db.counts key + fun c => delta.counts c * sign).Fair) :
    ∃ db', apply db delta sign = .ok db' ∧
      Applied db delta (fun c => delta.counts c * sign) db' := by
  let rule : StatsKey := .rule delta.rule
  let agent : StatsKey := .agent delta.agent
  let counts : Counts := fun c => delta.counts c * sign
  have hne : agent ≠ rule := nofun
  have hrule : addCounts db rule counts = .ok (db.withCounts rule counts) :=
    addCounts_ok (h rule (Or.inl rfl))
  have hagent : addCounts (db.withCounts rule counts) agent counts =
      .ok ((db.withCounts rule counts).withCounts agent counts) := by
    apply addCounts_ok
    rw [Db.counts_withCounts, if_neg hne, add_zero]
    exact h agent (Or.inr rfl)
  refine ⟨(db.withCounts rule counts).withCounts agent counts, ?_, rfl, rfl, rfl, ?_, ?_, ?_⟩
  · unfold apply
    rw [hrule, ok_bind, hagent]
  · intro key
    rw [Db.counts_withCounts, Db.counts_withCounts]
    by_cases hr : key = rule
    · have ha : key ≠ agent := fun heq => hne (heq ▸ hr)
      have hin : delta.In key := Or.inl hr
      rw [if_pos hr, if_neg ha, if_pos hin, add_zero]
    · by_cases ha : key = agent
      · have hin : delta.In key := Or.inr ha
        rw [if_neg hr, if_pos ha, if_pos hin, add_zero]
      · have hno : ¬ delta.In key := fun hin => hin.elim hr ha
        rw [if_neg hr, if_neg ha, if_neg hno, add_zero, add_zero]
  · intro key
    rw [Db.extrema_withCounts, Db.extrema_withCounts]
  · intro key
    rw [Db.isSome_withCounts, Db.isSome_withCounts, or_assoc]
    rfl

theorem StatsKey.holds_iff_in {counts : Counts} :
    key.holds d = true ↔ (⟨d.rule, d.agent, counts⟩ : Delta).In key := by
  cases key <;> simp [StatsKey.holds, Delta.In, eq_comm]

theorem Tallied.counts_fair (h : Tallied db) (key : StatsKey) : (db.counts key).Fair := by
  rw [h.tally key]
  apply sum_map_of_forall Counts.fair_zero fun _ _ => Counts.Fair.add
  intro d _
  split
  · exact h.stored_fair d
  · exact Counts.fair_zero

/-- The sum of the deltas without one row's own is still fair. -/
theorem Tallied.others_fair (h : Tallied db) (hd : d ∈ db.decisions) {counts : Counts}
    (hfair : counts.Fair) (hkey : key.holds d = true) :
    (db.counts key + (counts - db.stored d)).Fair := by
  have hsum := sum_map_rewrite (M := Counts) (a := d)
    (f := fun e => if key.holds e then db.stored e else 0)
    (g := fun e => if e = d then counts else if key.holds e then db.stored e else 0)
    h.rows_nodup hd fun e _ hne => if_neg hne
  rw [if_pos rfl, if_pos hkey] at hsum
  rw [h.tally key]
  change (_ + _ : Counts).Fair
  unfold Db.tally
  rw [← hsum]
  apply sum_map_of_forall Counts.fair_zero fun _ _ => Counts.Fair.add
  intro e _
  split
  · exact hfair
  · split
    · exact h.stored_fair e
    · exact Counts.fair_zero

/-! ### Reclassifying one rule and nonce -/

/-- What reclassifying some rows keeps. -/
structure Reclassified (db : Db) (rows : List Decision) (db' : Db) : Prop where
  tallied : Tallied db'
  decisionKeys : db'.decisionKeys = db.decisionKeys
  decisions : db'.decisions = db.decisions
  extrema : ∀ key, db'.extrema key = db.extrema key
  present : ∀ key, (db.stats key).isSome ∨ (∃ d ∈ rows, key.holds d) → (db'.stats key).isSome

theorem recomputeRow_ok (h : Tallied db) (hrow : row ∈ db.decisions) (hfair : counts.Fair) :
    ∃ db', recomputeRow row.rule db row counts = .ok db' ∧ Reclassified db [row] db' ∧
      db'.deltas = Function.update db.deltas row.key (some ⟨row.rule, row.agent, counts⟩) := by
  let difference : Delta := ⟨row.rule, row.agent, counts - db.stored row⟩
  have hone : (fun c => difference.counts c * 1) = counts - db.stored row :=
    funext fun c => mul_one _
  obtain ⟨after, hafter, happlied⟩ := apply_ok db difference 1 (by
    intro key hin
    rw [hone]
    exact h.others_fair hrow hfair (StatsKey.holds_iff_in.mpr hin))
  rw [hone] at happlied
  have hprevious : (fun c => counts c - (db.deltas row.key).elim 0 fun p => p.counts c) =
      difference.counts := by
    funext c
    unfold difference Db.stored
    cases db.deltas row.key <;> rfl
  have hstored : upsertDelta (db.deltas row.key) ⟨row.rule, row.agent, counts⟩ =
      ⟨row.rule, row.agent, counts⟩ := by
    cases hdelta : db.deltas row.key with
    | none => rfl
    | some p => rw [h.delta_eq hrow hdelta, upsertDelta]
  let deltas := Function.update db.deltas row.key (some ⟨row.rule, row.agent, counts⟩)
  let db' : Db := { after with deltas := deltas }
  refine ⟨db', ?_, ⟨⟨?_, ?_, ?_⟩, ?_, ?_, ?_, ?_⟩, rfl⟩
  · unfold recomputeRow
    simp only [hprevious]
    rw [hafter, ok_bind, hstored, happlied.deltas]
    rfl
  · change (after.decisions.map Decision.key).Nodup
    rw [happlied.decisions]
    exact h.nodup
  · intro key delta hdelta
    change ∃ d ∈ after.decisions, _
    rw [happlied.decisions]
    by_cases hkey : key = row.key
    · subst hkey
      have hsome : some (⟨row.rule, row.agent, counts⟩ : Delta) = some delta := by
        rw [← hdelta]
        exact (Function.update_self (f := db.deltas) ..).symm
      obtain rfl := Option.some.inj hsome
      exact ⟨row, hrow, rfl, rfl, rfl, hfair⟩
    · exact h.owned key delta ((Function.update_of_ne hkey ..).symm.trans hdelta)
  · intro key
    have hother : ∀ d ∈ db.decisions, d ≠ row →
        (if key.holds d then db'.stored d else 0) = if key.holds d then db.stored d else 0 := by
      intro d hd hne
      have hkey : d.key ≠ row.key := fun heq => hne (h.eq_of_key hd hrow heq)
      unfold Db.stored
      rw [show db'.deltas d.key = db.deltas d.key from Function.update_of_ne hkey ..]
    have hown : db'.stored row = counts := by
      unfold Db.stored
      rw [show db'.deltas row.key = some _ from Function.update_self ..]
      rfl
    have htally : db'.tally key = db.tally key + ((if key.holds row then db'.stored row else 0) -
        if key.holds row then db.stored row else 0) := by
      unfold Db.tally
      rw [show db'.decisions = db.decisions from happlied.decisions]
      exact sum_map_rewrite h.rows_nodup hrow hother
    rw [htally, hown, ← h.tally key]
    change after.counts key = _
    rw [happlied.counts key]
    by_cases hholds : key.holds row = true
    · rw [if_pos (StatsKey.holds_iff_in.mp hholds), if_pos hholds, if_pos hholds]
    · have hnot : ¬ difference.In key := fun hin => hholds (StatsKey.holds_iff_in.mpr hin)
      rw [if_neg hnot, if_neg hholds, if_neg hholds, sub_zero]
  · exact happlied.decisionKeys
  · exact happlied.decisions
  · exact happlied.extrema
  · rintro key (hsome | ⟨d, hd, hholds⟩)
    · exact (happlied.present key).mpr (Or.inl hsome)
    · obtain rfl := List.mem_singleton.mp hd
      exact (happlied.present key).mpr (Or.inr (StatsKey.holds_iff_in.mp hholds))

theorem Reclassified.refl (h : Tallied db) : Reclassified db [] db where
  tallied := h
  decisionKeys := rfl
  decisions := rfl
  extrema _ := rfl
  present _ hkey := hkey.elim id fun ⟨_, hd, _⟩ => nomatch hd

theorem Reclassified.trans {rows : List Decision} {last : Db} (h : Reclassified db [row] db')
    (hrest : Reclassified db' rows last) : Reclassified db (row :: rows) last where
  tallied := hrest.tallied
  decisionKeys := hrest.decisionKeys.trans h.decisionKeys
  decisions := hrest.decisions.trans h.decisions
  extrema key := (hrest.extrema key).trans (h.extrema key)
  present key hkey := by
    apply hrest.present key
    rcases hkey with hsome | ⟨d, hd, hholds⟩
    · exact Or.inl (h.present key (Or.inl hsome))
    · rcases List.mem_cons.mp hd with rfl | hd
      · exact Or.inl (h.present key (Or.inr ⟨d, List.mem_singleton_self d, hholds⟩))
      · exact Or.inr ⟨d, hd, hholds⟩

/-- The loop of `recomputeNonce` over any rows of one rule. -/
theorem recomputeRows_ok {rule : String} {next : Decision → Counts} {rows : List Decision}
    (hfair : ∀ d, (next d).Fair) (db : Db) (h : Tallied db)
    (hrows : ∀ d ∈ rows, d ∈ db.decisions ∧ d.rule = rule) :
    ∃ db', (rows.map fun d => (d, next d)).foldlM
        (fun db row => recomputeRow rule db row.1 row.2) db = .ok db' ∧
      Reclassified db rows db' ∧
      (∀ d ∈ rows, db'.deltas d.key = some ⟨d.rule, d.agent, next d⟩) ∧
      ∀ key, (∀ d ∈ rows, d.key ≠ key) → db'.deltas key = db.deltas key := by
  induction rows generalizing db with
  | nil =>
      refine ⟨db, ?_, .refl h, by simp, fun _ _ => rfl⟩
      rw [List.map_nil, List.foldlM_nil]
      rfl
  | cons row rows ih =>
      obtain ⟨hrow, hrule⟩ := hrows row List.mem_cons_self
      obtain ⟨mid, hmid, hfirst, hdeltas⟩ := recomputeRow_ok h hrow (hfair row)
      have hmem : ∀ d ∈ rows, d ∈ mid.decisions ∧ d.rule = rule := by
        intro d hd
        rw [hfirst.decisions]
        exact hrows d (List.mem_cons_of_mem row hd)
      obtain ⟨db', hrun, hrest, hset, hkept⟩ := ih mid hfirst.tallied hmem
      refine ⟨db', ?_, hfirst.trans hrest, ?_, ?_⟩
      · rw [List.map_cons, List.foldlM_cons, ← hrule, hmid, ok_bind, hrule]
        exact hrun
      · intro d hd
        rcases List.mem_cons.mp hd with rfl | hd
        · by_cases hlater : ∀ e ∈ rows, e.key ≠ d.key
          · rw [hkept d.key hlater, hdeltas, Function.update_self]
          · -- the row comes again, and is the same row
            push Not at hlater
            obtain ⟨e, he, hkey⟩ := hlater
            have hemem := (hrows e (List.mem_cons_of_mem d he)).1
            obtain rfl := h.eq_of_key hemem hrow hkey
            exact hset e he
        · exact hset d hd
      · intro key hkey
        have hne : key ≠ row.key := (hkey row List.mem_cons_self).symm
        rw [hkept key fun d hd => hkey d (List.mem_cons_of_mem row hd), hdeltas,
          Function.update_of_ne hne]

theorem recomputeNonce_ok (h : Tallied db) (rule : String) (nonce : Int) :
    ∃ db', recomputeNonce db rule nonce = .ok db' ∧
      Reclassified db (db.decisions.filter fun d => d.rule = rule ∧ d.nonce = nonce) db' ∧
      (∀ d ∈ db.decisions, d.rule = rule → d.nonce = nonce →
        db'.deltas d.key = some ⟨d.rule, d.agent, weight db.decisions d⟩) ∧
      (∀ d ∈ db.decisions, ¬ (d.rule = rule ∧ d.nonce = nonce) →
        db'.deltas d.key = db.deltas d.key) ∧
      ∀ key, (∀ d ∈ db.decisions, d.key ≠ key) → db'.deltas key = db.deltas key := by
  have hfair : ∀ d, (contribution db.decisions d).Fair := by
    intro d
    rw [contribution_eq_weight]
    exact weight_fair db.decisions d
  have hrows : ∀ d ∈ db.decisions.filter fun d => d.rule = rule ∧ d.nonce = nonce,
      d ∈ db.decisions ∧ d.rule = rule := by
    intro d hd
    simp only [List.mem_filter, decide_eq_true_eq] at hd
    exact ⟨hd.1, hd.2.1⟩
  obtain ⟨db', hrun, hreclassified, hset, hkept⟩ := recomputeRows_ok hfair db h hrows
  refine ⟨db', hrun, hreclassified, ?_, ?_, ?_⟩
  · intro d hd hrule hnonce
    rw [hset d (by simp [hd, hrule, hnonce]), contribution_eq_weight]
  · intro d hd hother
    apply hkept
    intro e he hkey
    simp only [List.mem_filter, decide_eq_true_eq] at he
    exact hother (h.eq_of_key he.1 hd hkey ▸ he.2)
  · intro key hkey
    exact hkept key fun d hd => hkey d (List.mem_of_mem_filter hd)

end Veto.Service

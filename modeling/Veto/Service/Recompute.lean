import Veto.Service.Statistics

/-!
# Every write leaves a recompute

`Indexed` is the invariant of the tables.  Inserting a decision and reversing one keep it,
the extremes by looking up again only what the removed decision may have held, and so the
statistics after any calls are those of the surviving decisions.
-/

namespace Veto.Service

open Foundation

structure Indexed (db : Db) : Prop where
  tallied : Tallied db
  keys : db.decisionKeys = db.decisions.map Decision.key
  deltas : ∀ d ∈ db.decisions, db.deltas d.key = some ⟨d.rule, d.agent, weight db.decisions d⟩
  extrema : ∀ key, db.extrema key = extremaOf db.decisions key
  present : ∀ d ∈ db.decisions, ∀ key : StatsKey, key.holds d → (db.stats key).isSome

variable {db db' : Db} {key k : StatsKey} {row removed d : Decision} {decisions : List Decision}

theorem indexed_empty : Indexed .empty where
  tallied := ⟨.nil, fun _ _ h => (nomatch h), fun _ => rfl⟩
  keys := rfl
  deltas _ hd := nomatch hd
  extrema _ := rfl
  present _ hd := nomatch hd

theorem Tallied.congr (h : Tallied db) (hdecisions : db'.decisions = db.decisions)
    (hdeltas : db'.deltas = db.deltas) (hcounts : ∀ key, db'.counts key = db.counts key) :
    Tallied db' := by
  have htally : ∀ key, db'.tally key = db.tally key := by
    intro key
    unfold Db.tally Db.stored
    rw [hdecisions, hdeltas]
  constructor
  · rw [hdecisions]
    exact h.nodup
  · rw [hdecisions, hdeltas]
    exact h.owned
  · intro key
    rw [hcounts, htally, h.tally key]

theorem Indexed.recomputed (h : Indexed db) : Recomputed db where
  counts key c := by
    rw [h.tallied.tally key]
    unfold Db.tally
    have hzero : ∀ d ∈ db.decisions, key.holds d = false →
        (if key.holds d then db.stored d else 0) = 0 := by
      intro d _ hkey
      rw [hkey]
      rfl
    rw [← sum_map_filter_of_zero hzero, Pi.list_sum_apply, List.map_map]
    apply congrArg List.sum
    apply List.map_congr_left
    intro d hd
    obtain ⟨hmem, hkey⟩ := List.mem_filter.mp hd
    change (if key.holds d then db.stored d else 0) c = weight db.decisions d c
    rw [if_pos hkey, Db.stored, h.deltas d hmem]
    rfl
  extrema := h.extrema
  deltas := h.deltas
  noOther key hkey := by
    cases hdelta : db.deltas key with
    | none => rfl
    | some delta =>
        obtain ⟨d, hd, heq, -⟩ := h.tallied.owned key delta hdelta
        exact absurd heq (hkey d hd)

/-! ## Rewriting the extremes of one statistics row -/

/-- The tables with the extremes of a statistics row replaced, if the row is there. -/
def Db.withExtrema (db : Db) (key : StatsKey) (change : Extrema → Extrema) : Db :=
  match db.stats key with
  | none => db
  | some stats => { db with
      stats := Function.update db.stats key (some { stats with extrema := change stats.extrema }) }

variable {change : Extrema → Extrema}

theorem Db.decisions_withExtrema : (db.withExtrema key change).decisions = db.decisions := by
  unfold Db.withExtrema
  split <;> rfl

theorem Db.decisionKeys_withExtrema :
    (db.withExtrema key change).decisionKeys = db.decisionKeys := by
  unfold Db.withExtrema
  split <;> rfl

theorem Db.deltas_withExtrema : (db.withExtrema key change).deltas = db.deltas := by
  unfold Db.withExtrema
  split <;> rfl

theorem Db.counts_withExtrema : (db.withExtrema key change).counts k = db.counts k := by
  unfold Db.withExtrema
  split
  · rfl
  · rename_i stats hstats
    unfold Db.counts
    by_cases h : k = key
    · subst h
      simp [hstats]
    · simp [h]

theorem Db.isSome_withExtrema :
    ((db.withExtrema key change).stats k).isSome = (db.stats k).isSome := by
  unfold Db.withExtrema
  split
  · rfl
  · rename_i stats hstats
    by_cases h : k = key
    · subst h
      simp [hstats]
    · simp [h]

theorem Db.extrema_withExtrema (h : (db.stats key).isSome) :
    (db.withExtrema key change).extrema k =
      if k = key then change (db.extrema k) else db.extrema k := by
  obtain ⟨stats, hstats⟩ := Option.isSome_iff_exists.mp h
  unfold Db.withExtrema
  rw [hstats]
  unfold Db.extrema
  by_cases hk : k = key
  · subst hk
    simp [hstats]
  · simp [hk]

/-- The tables with the extremes of a decision's rule and agent replaced. -/
def Db.withBoth (db : Db) (rule agent : String) (change : StatsKey → Extrema → Extrema) : Db :=
  (db.withExtrema (.rule rule) (change (.rule rule))).withExtrema (.agent agent)
    (change (.agent agent))

theorem Db.extrema_withBoth {change : StatsKey → Extrema → Extrema}
    (hpresent : ∀ key : StatsKey, key.holds d → (db.stats key).isSome) :
    (db.withBoth d.rule d.agent change).extrema k =
      if k.holds d then change k (db.extrema k) else db.extrema k := by
  have hrule : (StatsKey.rule d.rule).holds d = true := decide_eq_true rfl
  have hagent : (StatsKey.agent d.agent).holds d = true := decide_eq_true rfl
  unfold Db.withBoth
  rw [Db.extrema_withExtrema (by rw [Db.isSome_withExtrema]; exact hpresent _ hagent),
    Db.extrema_withExtrema (hpresent _ hrule)]
  cases k with
  | rule name =>
      rw [if_neg nofun]
      by_cases h : d.rule = name
      · subst h
        rw [if_pos rfl, if_pos hrule]
      · have hno : (StatsKey.rule name).holds d ≠ true := fun hholds => h (of_decide_eq_true hholds)
        rw [if_neg fun heq => h (StatsKey.rule.inj heq).symm, if_neg hno]
  | agent name =>
      rw [if_neg (c := StatsKey.agent name = StatsKey.rule d.rule) nofun]
      by_cases h : d.agent = name
      · subst h
        rw [if_pos rfl, if_pos hagent]
      · have hno : (StatsKey.agent name).holds d ≠ true := fun hholds => h (of_decide_eq_true hholds)
        rw [if_neg fun heq => h (StatsKey.agent.inj heq).symm, if_neg hno]

/-- Replacing extremes keeps the rest of the invariant. -/
theorem Indexed.withBoth {rule agent : String} {change : StatsKey → Extrema → Extrema}
    (tallied : Tallied db) (keys : db.decisionKeys = db.decisions.map Decision.key)
    (deltas : ∀ d ∈ db.decisions, db.deltas d.key = some ⟨d.rule, d.agent, weight db.decisions d⟩)
    (present : ∀ d ∈ db.decisions, ∀ key : StatsKey, key.holds d → (db.stats key).isSome)
    (extrema : ∀ key, (db.withBoth rule agent change).extrema key = extremaOf db.decisions key) :
    Indexed (db.withBoth rule agent change) := by
  have hdecisions : (db.withBoth rule agent change).decisions = db.decisions := by
    rw [Db.withBoth, Db.decisions_withExtrema, Db.decisions_withExtrema]
  have hdeltas : (db.withBoth rule agent change).deltas = db.deltas := by
    rw [Db.withBoth, Db.deltas_withExtrema, Db.deltas_withExtrema]
  constructor
  · apply tallied.congr hdecisions hdeltas
    intro key
    rw [Db.withBoth, Db.counts_withExtrema, Db.counts_withExtrema]
  · rw [hdecisions, ← keys, Db.withBoth, Db.decisionKeys_withExtrema, Db.decisionKeys_withExtrema]
  · rw [hdecisions, hdeltas]
    exact deltas
  · rw [hdecisions]
    exact extrema
  · intro d hd key hkey
    rw [Db.withBoth, Db.isSome_withExtrema, Db.isSome_withExtrema]
    exact present d (hdecisions ▸ hd) key hkey

/-! ## Inserting -/

def bumped (row : Decision) (e : Extrema) : Extrema where
  firstOpenTs := leastIf (row.kind = 0 ∧ 0 < row.blockTime) e.firstOpenTs row.blockTime
  firstTs := leastIf (0 < row.blockTime) e.firstTs row.blockTime
  lastTs := e.lastTs.merge max (some row.blockTime)
  lastSlot := e.lastSlot.merge max (some row.slot)

theorem bumpExtrema_eq : bumpExtrema db key row = db.withExtrema key (bumped row) := by
  unfold bumpExtrema Db.withExtrema
  cases db.stats key <;> rfl

theorem extremaOf_append : extremaOf (decisions ++ [row]) key =
    if key.holds row then bumped row (extremaOf decisions key) else extremaOf decisions key := by
  unfold extremaOf minOpenTs minTs maxTs maxSlot
  rw [min?_filter_append, min?_filter_append, max?_filter_append, max?_filter_append]
  by_cases hkey : key.holds row = true
  · simp only [hkey, true_and, if_true, decide_eq_true_eq]
    rfl
  · rw [Bool.not_eq_true] at hkey
    simp [hkey]

/-- The tables with a fresh row and no delta of its own yet. -/
theorem Tallied.append (h : Tallied db) (hfresh : ∀ d ∈ db.decisions, d.key ≠ row.key)
    {keys : List DecisionKey} :
    Tallied { db with decisionKeys := keys, decisions := db.decisions ++ [row] } := by
  have hdelta : db.deltas row.key = none := by
    cases hdelta : db.deltas row.key with
    | none => rfl
    | some delta =>
        obtain ⟨d, hd, heq, -⟩ := h.owned row.key delta hdelta
        exact absurd heq (hfresh d hd)
  constructor
  · rw [List.map_append, List.nodup_append]
    refine ⟨h.nodup, List.nodup_singleton _, ?_⟩
    intro a ha b hb
    obtain ⟨d, hd, rfl⟩ := List.mem_map.mp ha
    obtain rfl := List.mem_singleton.mp hb
    exact hfresh d hd
  · intro key delta hkey
    obtain ⟨d, hd, hrest⟩ := h.owned key delta hkey
    exact ⟨d, List.mem_append_left _ hd, hrest⟩
  · intro key
    change db.counts key = ((db.decisions ++ [row]).map fun d =>
      if key.holds d then db.stored d else 0).sum
    have hrow : (if key.holds row then db.stored row else 0) = 0 := by
      unfold Db.stored
      rw [hdelta]
      exact ite_self 0
    rw [List.map_append, List.sum_append, List.map_singleton, List.sum_singleton, hrow, add_zero,
      h.tally key]
    rfl

/-- A fresh row that the index can store is stored. -/
theorem insertDecision_ok (h : Indexed db) (hfresh : ∀ d ∈ db.decisions, d.key ≠ row.key)
    (hstorable : Storable row) :
    ∃ db', insertDecision db row = .ok (true, db') ∧ Indexed db' ∧
      db'.decisions = db.decisions ++ [row] := by
  obtain ⟨hkey, hmonth, hfits⟩ := hstorable
  have hmem : row.key ∉ db.decisionKeys := by
    rw [h.keys, List.mem_map]
    rintro ⟨d, hd, heq⟩
    exact hfresh d hd heq
  let db₁ : Db := { db with
    decisionKeys := db.decisionKeys ++ [row.key]
    decisions := db.decisions ++ [row] }
  have htallied : Tallied db₁ := h.tallied.append hfresh
  obtain ⟨db₂, hrun, hkept, hset, hsame, -⟩ := recomputeNonce_ok htallied row.rule row.nonce
  have hdecisions : db₂.decisions = db.decisions ++ [row] := hkept.decisions
  have hpresent : ∀ d ∈ db₂.decisions, ∀ key : StatsKey, key.holds d → (db₂.stats key).isSome := by
    intro d hd key hholds
    apply hkept.present key
    rw [hdecisions] at hd
    rcases List.mem_append.mp hd with hd | hd
    · exact Or.inl (h.present d hd key hholds)
    · obtain rfl := List.mem_singleton.mp hd
      exact Or.inr ⟨d, List.mem_filter.mpr ⟨by simp [db₁], decide_eq_true ⟨rfl, rfl⟩⟩, hholds⟩
  have hdeltas : ∀ d ∈ db₂.decisions,
      db₂.deltas d.key = some ⟨d.rule, d.agent, weight db₂.decisions d⟩ := by
    intro d hd
    rw [hkept.decisions] at hd ⊢
    by_cases hnonce : d.rule = row.rule ∧ d.nonce = row.nonce
    · exact hset d hd hnonce.1 hnonce.2
    · have hne : d ≠ row := fun heq => hnonce (by rw [heq]; exact ⟨rfl, rfl⟩)
      have hold : d ∈ db.decisions :=
        (List.mem_append.mp hd).resolve_right fun hlast => hne (List.mem_singleton.mp hlast)
      have hweight : weight db.decisions d = weight db₁.decisions d := by
        apply weight_congr
        intro s hrule hsnonce
        have hnot : s ≠ row := fun heq => hnonce (by rw [← hrule, ← hsnonce, heq]; exact ⟨rfl, rfl⟩)
        simp [db₁, hnot]
      rw [hsame d hd hnonce, ← hweight]
      exact h.deltas d hold
  have hrow : row ∈ db₂.decisions := by
    rw [hdecisions]
    exact List.mem_append_right _ (List.mem_singleton_self row)
  refine ⟨db₂.withBoth row.rule row.agent fun _ => bumped row, ?_, ?_, ?_⟩
  · have hconflict : ∀ d ∈ db.decisions, ¬ (d.key = row.key ∧ d.blockTime = row.blockTime) :=
      fun d hd hsame => hfresh d hd hsame.1
    unfold insertDecision ensureMonth
    rw [if_neg hmem, require_true hkey, ok_bind, require_true hmonth, ok_bind,
      require_true hfits, ok_bind, require_true hconflict, ok_bind]
    change (recomputeNonce db₁ row.rule row.nonce >>= _) = _
    rw [hrun, ok_bind]
    change Except.ok (true, bumpExtrema (bumpExtrema db₂ _ row) _ row) = _
    rw [bumpExtrema_eq, bumpExtrema_eq]
    rfl
  · apply Indexed.withBoth hkept.tallied _ hdeltas hpresent
    · intro key
      rw [Db.extrema_withBoth (hpresent row hrow), hkept.extrema key, hdecisions, extremaOf_append]
      rw [show db₁.extrema key = db.extrema key from rfl, h.extrema key]
    · rw [hkept.decisionKeys, hkept.decisions]
      change db.decisionKeys ++ [row.key] = (db.decisions ++ [row]).map Decision.key
      rw [h.keys, List.map_append]
      rfl
  · rw [Db.withBoth, Db.decisions_withExtrema, Db.decisions_withExtrema, hdecisions]

/-! ## Reversing -/

def rescanned (decisions : List Decision) (removed : Decision) (key : StatsKey) (e : Extrema) :
    Extrema where
  firstOpenTs := if removed.kind = 0 ∧ e.firstOpenTs = some removed.blockTime
    then minOpenTs decisions key else e.firstOpenTs
  firstTs := if e.firstTs = some removed.blockTime ∧ 0 < removed.blockTime
    then minTs decisions key else e.firstTs
  lastTs := if e.lastTs = some removed.blockTime then maxTs decisions key else e.lastTs
  lastSlot := if e.lastSlot = some removed.slot then maxSlot decisions key else e.lastSlot

theorem rescanExtrema_eq :
    rescanExtrema db key removed = db.withExtrema key (rescanned db.decisions removed key) := by
  unfold rescanExtrema Db.withExtrema
  cases db.stats key <;> rfl

/-- An extreme that is not looked up again is the extreme of the rows that are left. -/
theorem rescanned_extremaOf {keep : Decision → Bool}
    (honly : ∀ d ∈ decisions, keep d = false → d = removed) :
    rescanned (decisions.filter keep) removed key (extremaOf decisions key) =
      extremaOf (decisions.filter keep) key := by
  unfold rescanned extremaOf
  congr 1
  · split
    · rfl
    · rename_i h
      symm
      apply min?_filter_of_kept
      intro d hd hkeep hcounts heq
      obtain rfl := honly d hd hkeep
      exact h ⟨(of_decide_eq_true hcounts).2.1, heq⟩
  · split
    · rfl
    · rename_i h
      symm
      apply min?_filter_of_kept
      intro d hd hkeep hcounts heq
      obtain rfl := honly d hd hkeep
      exact h ⟨heq, (of_decide_eq_true hcounts).2⟩
  · split
    · rfl
    · rename_i h
      symm
      apply max?_filter_of_kept
      intro d hd hkeep _ heq
      obtain rfl := honly d hd hkeep
      exact h heq
  · split
    · rfl
    · rename_i h
      symm
      apply max?_filter_of_kept
      intro d hd hkeep _ heq
      obtain rfl := honly d hd hkeep
      exact h heq

/-- Removing decisions of other rules and agents keeps the extremes. -/
theorem extremaOf_filter {keep : Decision → Bool}
    (hother : ∀ d ∈ decisions, keep d = false → key.holds d = false) :
    extremaOf (decisions.filter keep) key = extremaOf decisions key := by
  unfold extremaOf
  congr 1
  · apply min?_filter_of_kept
    intro d hd hkeep hcounts
    have hholds := (of_decide_eq_true hcounts).1
    rw [hother d hd hkeep] at hholds
    cases hholds
  · apply min?_filter_of_kept
    intro d hd hkeep hcounts
    have hholds := (of_decide_eq_true hcounts).1
    rw [hother d hd hkeep] at hholds
    cases hholds
  · apply max?_filter_of_kept
    intro d hd hkeep hcounts
    rw [hother d hd hkeep] at hcounts
    cases hcounts
  · apply max?_filter_of_kept
    intro d hd hkeep hcounts
    rw [hother d hd hkeep] at hcounts
    cases hcounts

/-- The tables without a decision and its delta, with its delta taken off the counters. -/
def Db.without (after : Db) (key : DecisionKey) : Db where
  decisionKeys := after.decisionKeys.filter fun k => k ≠ key
  decisions := after.decisions.filter fun d => d.key ≠ key
  deltas := Function.update after.deltas key none
  stats := after.stats

theorem Tallied.without {after : Db} {delta : Delta} (h : Tallied db) (hd : d ∈ db.decisions)
    (hdelta : delta = ⟨d.rule, d.agent, db.stored d⟩)
    (happlied : Applied db delta (-db.stored d) after) : Tallied (after.without d.key) := by
  have hdecisions : (after.without d.key).decisions =
      db.decisions.filter fun e => e.key ≠ d.key := by
    unfold Db.without
    rw [happlied.decisions]
  have hdeltas : (after.without d.key).deltas = Function.update db.deltas d.key none := by
    unfold Db.without
    rw [happlied.deltas]
  have hgone : (after.without d.key).stored d = 0 := by
    unfold Db.stored
    rw [hdeltas, Function.update_self]
    rfl
  have hkept : ∀ e ∈ db.decisions, e ≠ d → (after.without d.key).stored e = db.stored e := by
    intro e he hne
    have hkey : e.key ≠ d.key := fun heq => hne (h.eq_of_key he hd heq)
    unfold Db.stored
    rw [hdeltas, Function.update_of_ne hkey]
  constructor
  · rw [hdecisions]
    exact h.nodup.sublist (List.filter_sublist.map _)
  · intro key other hother
    rw [hdeltas] at hother
    by_cases hkey : key = d.key
    · rw [hkey, Function.update_self] at hother
      cases hother
    · rw [Function.update_of_ne hkey] at hother
      obtain ⟨e, he, heq, hrest⟩ := h.owned key other hother
      rw [hdecisions]
      exact ⟨e, List.mem_filter.mpr ⟨he, decide_eq_true (heq ▸ hkey)⟩, heq, hrest⟩
  · intro key
    have hzero : ∀ e ∈ db.decisions, decide (e.key ≠ d.key) = false →
        (if key.holds e then (after.without d.key).stored e else 0) = 0 := by
      intro e he hout
      obtain rfl := h.eq_of_key he hd (by simpa using hout)
      rw [hgone]
      exact ite_self 0
    have hsum := sum_map_rewrite (M := Counts) (f := fun e => if key.holds e then db.stored e else 0)
      (g := fun e => if key.holds e then (after.without d.key).stored e else 0) h.rows_nodup hd
      fun e he hne => by rw [hkept e he hne]
    change after.counts key = ((after.without d.key).decisions.map _).sum
    rw [hdecisions, sum_map_filter_of_zero hzero, hsum, happlied.counts key, h.tally key, hgone]
    by_cases hholds : key.holds d = true
    · have hin : delta.In key := hdelta ▸ StatsKey.holds_iff_in.mp hholds
      rw [if_pos hin, if_pos hholds, if_pos hholds, zero_sub]
      rfl
    · have hnot : ¬ delta.In key := fun hin => hholds (StatsKey.holds_iff_in.mpr (hdelta ▸ hin))
      rw [if_neg hnot, if_neg hholds, if_neg hholds, sub_zero]
      rfl

/-- A stored decision can always be reversed. -/
theorem reverseDecision_ok (h : Indexed db) (hd : d ∈ db.decisions) :
    ∃ db', reverseDecision db d.key = .ok (true, db') ∧ Indexed db' ∧
      db'.decisions = db.decisions.filter fun e => e.key ≠ d.key := by
  have hstored : db.stored d = weight db.decisions d := by
    unfold Db.stored
    rw [h.deltas d hd]
    rfl
  let delta : Delta := ⟨d.rule, d.agent, weight db.decisions d⟩
  have hfind : db.decisions.find? (fun e => e.key = d.key) = some d := by
    cases hfind : db.decisions.find? (fun e => e.key = d.key) with
    | none => exact absurd (decide_eq_true rfl) (List.find?_eq_none.mp hfind d hd)
    | some e =>
        have hkey : e.key = d.key := by simpa using List.find?_some hfind
        rw [h.tallied.eq_of_key (List.mem_of_find?_eq_some hfind) hd hkey]
  have hneg : (fun c => delta.counts c * -1) = -db.stored d := by
    rw [hstored]
    exact funext fun c => mul_neg_one _
  obtain ⟨after, hafter, happlied⟩ := apply_ok db delta (-1) (by
    intro key hin
    have hfair := h.tallied.others_fair hd Counts.fair_zero (StatsKey.holds_iff_in.mpr hin)
    rw [hneg]
    rwa [zero_sub] at hfair)
  rw [hneg] at happlied
  have htallied : Tallied (after.without d.key) :=
    h.tallied.without hd (by rw [hstored]) happlied
  obtain ⟨db₂, hrun, hkept, hset, hsame, -⟩ := recomputeNonce_ok htallied d.rule d.nonce
  have hdecisions : db₂.decisions = db.decisions.filter fun e => e.key ≠ d.key := by
    rw [hkept.decisions, Db.without, happlied.decisions]
  have hmem : ∀ e ∈ db₂.decisions, e ∈ db.decisions ∧ e.key ≠ d.key := by
    intro e he
    rw [hdecisions] at he
    exact ⟨List.mem_of_mem_filter he, of_decide_eq_true (List.mem_filter.mp he).2⟩
  have hpresent : ∀ e ∈ db.decisions, ∀ key : StatsKey, key.holds e → (db₂.stats key).isSome := by
    intro e he key hholds
    apply hkept.present key
    exact Or.inl ((happlied.present key).mpr (Or.inl (h.present e he key hholds)))
  have hdeltas : ∀ e ∈ db₂.decisions,
      db₂.deltas e.key = some ⟨e.rule, e.agent, weight db₂.decisions e⟩ := by
    intro e he
    obtain ⟨hold, hkey⟩ := hmem e he
    rw [hkept.decisions] at he ⊢
    by_cases hnonce : e.rule = d.rule ∧ e.nonce = d.nonce
    · exact hset e he hnonce.1 hnonce.2
    · have hweight : weight db.decisions e = weight (after.without d.key).decisions e := by
        apply weight_congr
        intro s hrule hsnonce
        rw [← hkept.decisions, hdecisions, List.mem_filter]
        constructor
        · intro hs
          refine ⟨hs, decide_eq_true fun heq => hnonce ?_⟩
          obtain rfl := h.tallied.eq_of_key hs hd heq
          exact ⟨hrule.symm, hsnonce.symm⟩
        · exact And.left
      rw [hsame e he hnonce, ← hweight]
      change Function.update after.deltas d.key none e.key = _
      rw [Function.update_of_ne hkey, happlied.deltas]
      exact h.deltas e hold
  let change := fun key => rescanned db₂.decisions d key
  refine ⟨db₂.withBoth d.rule d.agent change, ?_, ?_, ?_⟩
  · unfold reverseDecision
    rw [h.deltas d hd]
    dsimp only
    rw [hfind, okOr, ok_bind, hafter, ok_bind]
    change (recomputeNonce (after.without d.key) d.rule d.nonce >>= _) = _
    rw [hrun, ok_bind]
    change Except.ok (true, rescanExtrema (rescanExtrema db₂ _ d) _ d) = _
    rw [rescanExtrema_eq, rescanExtrema_eq, Db.decisions_withExtrema]
    rfl
  · apply Indexed.withBoth hkept.tallied _ hdeltas fun e he => hpresent e (hmem e he).1
    · intro key
      have honly : ∀ e ∈ db.decisions, decide (e.key ≠ d.key) = false → e = d :=
        fun e he hout => h.tallied.eq_of_key he hd (by simpa using hout)
      rw [Db.extrema_withBoth (hpresent d hd), hkept.extrema key]
      change (if key.holds d then change key (after.extrema key) else after.extrema key) = _
      rw [happlied.extrema key, h.extrema key]
      unfold change
      rw [hdecisions]
      by_cases hholds : key.holds d = true
      · rw [if_pos hholds]
        exact rescanned_extremaOf honly
      · rw [if_neg hholds]
        refine (extremaOf_filter fun e he hout => ?_).symm
        rw [honly e he hout]
        exact Bool.eq_false_of_not_eq_true hholds
    · rw [hkept.decisionKeys, hkept.decisions]
      change after.decisionKeys.filter _ = (after.decisions.filter _).map _
      rw [happlied.decisionKeys, happlied.decisions, h.keys, List.filter_map]
      rfl
  · rw [Db.withBoth, Db.decisions_withExtrema, Db.decisions_withExtrema, hdecisions]

/-! ## Runs -/

theorem insertDecision_duplicate (h : row.key ∈ db.decisionKeys) :
    insertDecision db row = .ok (false, db) := by
  unfold insertDecision
  rw [if_pos h]
  rfl

/-- What the index cannot store is an error. -/
theorem storable_of_insertDecision {out : Bool × Db} (hfresh : row.key ∉ db.decisionKeys)
    (hrun : insertDecision db row = .ok out) : Storable row := by
  unfold insertDecision ensureMonth at hrun
  rw [if_neg hfresh] at hrun
  obtain ⟨hkey, hrun⟩ := require_bind_ok_iff.mp hrun
  obtain ⟨hmonth, hrun⟩ := require_bind_ok_iff.mp hrun
  obtain ⟨hfits, -⟩ := require_bind_ok_iff.mp hrun
  exact ⟨hkey, hmonth, hfits⟩

/-- One call keeps the invariant and leaves the surviving decisions. -/
theorem Indexed.run (h : Indexed db) (call : Call) :
    Indexed (call.run db) ∧ (call.run db).decisions = survive db.decisions call := by
  have hkeys : ∀ key, key ∈ db.decisionKeys ↔ ∃ d ∈ db.decisions, d.key = key := by
    intro key
    rw [h.keys, List.mem_map]
  cases call with
  | insert row =>
      unfold Call.run survive
      dsimp only
      by_cases hfresh : ∀ d ∈ db.decisions, d.key ≠ row.key
      · by_cases hstorable : Storable row
        · obtain ⟨db', hrun, hindexed, hdecisions⟩ := insertDecision_ok h hfresh hstorable
          rw [hrun, if_pos ⟨hfresh, hstorable⟩]
          exact ⟨hindexed, hdecisions⟩
        · have hnot : row.key ∉ db.decisionKeys := by
            rw [hkeys]
            rintro ⟨d, hd, heq⟩
            exact hfresh d hd heq
          rw [if_neg fun hboth => hstorable hboth.2]
          cases hrun : insertDecision db row with
          | error e => exact ⟨h, rfl⟩
          | ok out => exact absurd (storable_of_insertDecision hnot hrun) hstorable
      · have hmem : row.key ∈ db.decisionKeys := by
          rw [hkeys]
          push Not at hfresh
          exact hfresh
        rw [insertDecision_duplicate hmem, if_neg fun hboth => hfresh hboth.1]
        exact ⟨h, rfl⟩
  | reverse key =>
      unfold Call.run survive
      dsimp only
      by_cases hstored : ∃ d ∈ db.decisions, d.key = key
      · obtain ⟨d, hd, rfl⟩ := hstored
        obtain ⟨db', hrun, hindexed, hdecisions⟩ := reverseDecision_ok h hd
        rw [hrun]
        exact ⟨hindexed, hdecisions⟩
      · push Not at hstored
        have hdelta := h.recomputed.noOther key hstored
        have hrun : reverseDecision db key = .ok (false, db) := by
          unfold reverseDecision
          rw [hdelta]
        rw [hrun]
        refine ⟨h, (List.filter_eq_self.mpr fun d hd => ?_).symm⟩
        exact decide_eq_true (hstored d hd)

theorem indexed_foldl (calls : List Call) : ∀ {db : Db}, Indexed db →
    Indexed (calls.foldl Call.run db) ∧
      (calls.foldl Call.run db).decisions = calls.foldl survive db.decisions := by
  induction calls with
  | nil => exact fun h => ⟨h, rfl⟩
  | cons call calls ih =>
      intro db h
      obtain ⟨hindexed, hdecisions⟩ := h.run call
      obtain ⟨hlast, hsurvive⟩ := ih hindexed
      rw [List.foldl_cons, List.foldl_cons, ← hdecisions]
      exact ⟨hlast, hsurvive⟩

/-- After any calls the statistics and the deltas are those of the surviving decisions. -/
theorem runCalls_recomputed (calls : List Call) :
    (runCalls calls).decisions = survivors calls ∧ Recomputed (runCalls calls) := by
  obtain ⟨hindexed, hdecisions⟩ := indexed_foldl calls indexed_empty
  exact ⟨hdecisions, hindexed.recomputed⟩

end Veto.Service

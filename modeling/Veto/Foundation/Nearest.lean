import Mathlib.Data.List.Count
import Mathlib.Data.List.MinMax
import Mathlib.Data.List.Nodup

/-!
# Rows that take the nearest candidate

Rows choose from a pool of candidates, one after the other, and none is chosen twice.  Each
takes the candidate of its label that is nearest to it, the first of those equally near.
Candidates and rows have owners, and a row is right when it takes none but its owner's.
-/

namespace Veto.Foundation

variable {ρ γ κ σ : Type}

/-! ## The nearest candidate -/

/-- The first candidate of the least cost.  One without a cost is out of reach. -/
def nearest (cost : γ → Option Nat) (pool : List γ) : Option γ :=
  (pool.filter fun c => (cost c).isSome).argmin fun c => (cost c).getD 0

section Nearest

variable {cost : γ → Option Nat} {pool : List γ} {c : γ}

@[simp] theorem nearest_nil : nearest cost [] = none := rfl

theorem nearest_eq_none : nearest cost pool = none ↔ ∀ c ∈ pool, cost c = none := by
  simp [nearest, List.argmin_eq_none, List.filter_eq_nil_iff]

theorem mem_of_nearest (h : nearest cost pool = some c) : c ∈ pool :=
  (List.mem_filter.mp (List.argmin_mem h)).1

theorem cost_of_nearest (h : nearest cost pool = some c) : ∃ k, cost c = some k :=
  Option.isSome_iff_exists.mp (List.mem_filter.mp (List.argmin_mem h)).2

/-- A further candidate is taken when it is nearer than all before. -/
theorem nearest_concat : nearest cost (pool ++ [c]) =
    match cost c with
    | none => nearest cost pool
    | some k =>
        match nearest cost pool with
        | none => some c
        | some best => if k < (cost best).getD 0 then some c else some best := by
  unfold nearest
  cases hcost : cost c with
  | none => simp [List.filter_append, hcost]
  | some k =>
      rw [List.filter_append, List.filter_cons_of_pos (by simp [hcost]), List.filter_nil,
        List.argmin_concat]
      simp only [hcost, Option.getD_some]
      split <;> rename_i hbest <;> rw [hbest]

/-- In a pool sorted by `R`, what is not the nearest costs more or stands behind it. -/
theorem nearest_le {R : γ → γ → Prop} (hsorted : pool.Pairwise R)
    (h : nearest cost pool = some c) {k : Nat} (hk : cost c = some k) {c' : γ} (hc' : c' ∈ pool)
    {k' : Nat} (hk' : cost c' = some k') (hne : c' ≠ c) : k < k' ∨ k = k' ∧ R c c' := by
  classical
  have hmem' : c' ∈ pool.filter fun c => (cost c).isSome :=
    List.mem_filter.mpr ⟨hc', by rw [hk']; rfl⟩
  obtain ⟨hmem, hleast, hfirst⟩ := List.mem_argmin_iff.mp (Option.mem_def.mpr h)
  have hle := hleast c' hmem'
  rw [hk, hk'] at hle
  refine (Nat.lt_or_eq_of_le hle).imp_right fun heq => ⟨heq, ?_⟩
  have hbefore := hfirst c' hmem' (by rw [hk, hk']; exact Nat.le_of_eq heq.symm)
  -- equally near: the one that was chosen stands first
  have hlt := Nat.lt_of_le_of_ne hbefore fun hidx => hne ((List.idxOf_inj hmem).mp hidx).symm
  have hpair := List.pairwise_iff_getElem.mp (hsorted.sublist List.filter_sublist) _ _
    (List.idxOf_lt_length_of_mem hmem) (List.idxOf_lt_length_of_mem hmem') hlt
  rwa [List.getElem_idxOf, List.getElem_idxOf] at hpair

/-- What is left without `c` is what is left with its index used. -/
theorem erase_index {ι : Type} [DecidableEq γ] [DecidableEq ι] {index : γ → ι}
    (hindexes : (pool.map index).Nodup) (hc : c ∈ pool) (used : List ι) :
    (pool.filter fun c' => index c' ∉ used).erase c =
      pool.filter fun c' => index c' ∉ index c :: used := by
  rw [((List.Nodup.of_map _ hindexes).filter _).erase_eq_filter, List.filter_filter]
  refine List.filter_congr fun c' hc' => ?_
  have hsame : c' = c ↔ index c' = index c :=
    ⟨congrArg index, fun heq => List.inj_on_of_nodup_map hindexes hc' hc heq⟩
  by_cases heq : index c' = index c
  · simp [hsame.mpr heq]
  · simp [hsame.not.mpr heq, heq]

end Nearest

/-! ## Rows and candidates -/

/-- What rows and candidates are told apart by. -/
structure Contest (ρ γ κ σ : Type) where
  key : ρ → κ
  label : γ → κ
  owner : γ → σ
  near : ρ → γ → Option Nat

namespace Contest

variable [DecidableEq κ] (C : Contest ρ γ κ σ)

/-- A row takes only candidates of its label. -/
def cost (r : ρ) (c : γ) : Option Nat := if C.label c = C.key r then C.near r c else none

/-- The candidates that the rows take, of those that are left. -/
def assign [DecidableEq γ] : List γ → List ρ → List (Option γ)
  | _, [] => []
  | left, r :: rows =>
      match nearest (C.cost r) left with
      | none => none :: assign left rows
      | some c => some c :: assign (left.erase c) rows

theorem length_assign [DecidableEq γ] (left : List γ) (rows : List ρ) :
    (C.assign left rows).length = rows.length := by
  induction rows generalizing left with
  | nil => rfl
  | cons r rows ih =>
      rw [assign]
      split <;> simp [ih]

/-- The candidates of an owner stand together, in the order `pos` of the owners, and are all
equally near to a row. -/
structure Lawful (pos : σ → Nat) (pool : List γ) : Prop where
  once : pool.Nodup
  sorted : pool.Pairwise fun c c' => pos (C.owner c) ≤ pos (C.owner c')
  apart : ∀ c ∈ pool, ∀ σ, pos (C.owner c) = pos σ → C.owner c = σ
  alike : ∀ c ∈ pool, ∀ c' ∈ pool, C.owner c = C.owner c' → ∀ r, C.near r c = C.near r c'

variable [DecidableEq σ]

/-- How many candidates an owner has for a row. -/
def number (pool : List γ) (r : ρ) (o : σ) : Nat :=
  pool.countP fun c => C.label c = C.key r ∧ C.owner c = o

/-- How many of them earlier rows of the owner take. -/
def drawn (pool : List γ) (front : List (ρ × σ)) (r : ρ) (o : σ) : Nat :=
  front.countP fun row => row.2 = o ∧ C.key row.1 = C.key r ∧
    ∃ c ∈ pool, C.owner c = o ∧ (C.cost row.1 c).isSome

/-- The owner still has a candidate for the row. -/
def Left (pool : List γ) (front : List (ρ × σ)) (r : ρ) (o : σ) : Prop :=
  C.drawn pool front r o < C.number pool r o

/-- Whoever else still has a candidate in the row's reach, the row's owner has one that comes
before it: nearer, or as near and earlier in the pool. -/
def Fair (pos : σ → Nat) (pool : List γ) (front : List (ρ × σ)) (row : ρ × σ) : Prop :=
  ∀ c' ∈ pool, C.owner c' ≠ row.2 → C.Left pool front row.1 (C.owner c') →
    ∀ k', C.cost row.1 c' = some k' →
      C.Left pool front row.1 row.2 ∧ ∃ c ∈ pool, C.owner c = row.2 ∧
        ∃ k, C.cost row.1 c = some k ∧ (k < k' ∨ k = k' ∧ pos row.2 < pos (C.owner c'))

/-- The row takes no candidate but its owner's. -/
def Right (row : ρ × σ) (choice : Option γ) : Prop := ∀ c, choice = some c → C.owner c = row.2

/-- While every row was right, the owners have what their rows did not take. -/
structure Counted (pool : List γ) (front : List (ρ × σ)) (left : List γ) : Prop where
  part : left.Sublist pool
  counts : ∀ r o, C.number left r o = C.number pool r o - C.drawn pool front r o

variable {C} {pos : σ → Nat} {pool left : List γ} {front : List (ρ × σ)}

omit [DecidableEq σ] in
theorem cost_eq_some {r : ρ} {c : γ} {k : Nat} :
    C.cost r c = some k ↔ C.label c = C.key r ∧ C.near r c = some k := by
  unfold cost
  split
  · rename_i h
    simp [h]
  · rename_i h
    simp [h]

theorem Counted.start : C.Counted pool [] pool where
  part := List.Sublist.refl _
  counts _ _ := rfl

/-- An owner that has one left has it in what is left. -/
theorem Counted.left_iff (h : C.Counted pool front left) {r : ρ} {o : σ} :
    C.Left pool front r o ↔ ∃ c ∈ left, C.label c = C.key r ∧ C.owner c = o := by
  have hcounts := h.counts r o
  have hpos : C.Left pool front r o ↔ 0 < C.number left r o := by
    unfold Left
    omega
  rw [hpos, number, List.countP_pos_iff]
  simp

/-- A row is right exactly when it is fair. -/
theorem Lawful.right_iff (hlaw : C.Lawful pos pool) (h : C.Counted pool front left)
    (row : ρ × σ) :
    C.Right row (nearest (C.cost row.1) left) ↔ C.Fair pos pool front row := by
  have hsorted := hlaw.sorted.sublist h.part
  constructor
  · intro hright c' hc' howner hleft k' hk'
    -- the other owner's candidate may be gone, but one as near is left
    obtain ⟨c'', hc'', hlabel, howner''⟩ := h.left_iff.mp hleft
    have hk'' : C.cost row.1 c'' = some k' :=
      cost_eq_some.mpr ⟨hlabel, (hlaw.alike _ (h.part.subset hc'') _ hc' howner'' _).trans
        (cost_eq_some.mp hk').2⟩
    cases hchoice : nearest (C.cost row.1) left with
    | none =>
        rw [nearest_eq_none.mp hchoice c'' hc''] at hk''
        cases hk''
    | some c =>
        have hown := hright c hchoice
        have hc := mem_of_nearest hchoice
        obtain ⟨k, hk⟩ := cost_of_nearest hchoice
        refine ⟨h.left_iff.mpr ⟨c, hc, (cost_eq_some.mp hk).1, hown⟩, c, h.part.subset hc, hown,
          k, hk, ?_⟩
        have hne : c'' ≠ c := by
          rintro rfl
          exact howner (howner''.symm.trans hown)
        refine (nearest_le hsorted hchoice hk hc'' hk'' hne).imp_right fun ⟨heq, hpos⟩ =>
          ⟨heq, ?_⟩
        rw [hown, howner''] at hpos
        exact Nat.lt_of_le_of_ne hpos fun heq => howner (hlaw.apart c' hc' _ heq.symm)
  · intro hfair c hchoice
    by_contra howner
    have hc := mem_of_nearest hchoice
    obtain ⟨k, hk⟩ := cost_of_nearest hchoice
    obtain ⟨hleft, c₀, hc₀, hown, k₀, hk₀, hbefore⟩ := hfair c (h.part.subset hc) howner
      (h.left_iff.mpr ⟨c, hc, (cost_eq_some.mp hk).1, rfl⟩) k hk
    obtain ⟨c₁, hc₁, hlabel, hown₁⟩ := h.left_iff.mp hleft
    have hk₁ : C.cost row.1 c₁ = some k₀ :=
      cost_eq_some.mpr ⟨hlabel, (hlaw.alike _ (h.part.subset hc₁) _ hc₀
        (hown₁.trans hown.symm) _).trans (cost_eq_some.mp hk₀).2⟩
    have hne : c₁ ≠ c := by
      rintro rfl
      exact howner hown₁
    have hlater := nearest_le hsorted hchoice hk hc₁ hk₁ hne
    rw [hown₁] at hlater
    omega

variable [DecidableEq γ]

/-- A right row leaves the others what they had. -/
theorem Lawful.counted_next (hlaw : C.Lawful pos pool) (h : C.Counted pool front left)
    {row : ρ × σ} (hright : C.Right row (nearest (C.cost row.1) left)) :
    C.Counted pool (front ++ [row])
      (match nearest (C.cost row.1) left with
        | none => left
        | some c => left.erase c) := by
  cases hchoice : nearest (C.cost row.1) left with
  | none =>
      show C.Counted pool (front ++ [row]) left
      refine ⟨h.part, fun r o => ?_⟩
      have hcounts := h.counts r o
      unfold drawn at hcounts ⊢
      rw [List.countP_append, List.countP_singleton]
      split
      · -- the row would take one, so none of them is left
        rename_i hdraws
        obtain ⟨hown, hkey, c, hc, howner, hreach⟩ := of_decide_eq_true hdraws
        have hzero : C.number left r o = 0 := by
          rw [number, List.countP_eq_zero]
          intro c' hc' htaken
          obtain ⟨hlabel, howner'⟩ := of_decide_eq_true htaken
          obtain ⟨k, hk⟩ := Option.isSome_iff_exists.mp hreach
          have hk' : C.cost row.1 c' = some k :=
            cost_eq_some.mpr ⟨hlabel.trans hkey.symm,
              (hlaw.alike _ (h.part.subset hc') _ hc (howner'.trans howner.symm) _).trans
                (cost_eq_some.mp hk).2⟩
          rw [nearest_eq_none.mp hchoice c' hc'] at hk'
          cases hk'
        omega
      · exact hcounts
  | some c =>
      show C.Counted pool (front ++ [row]) (left.erase c)
      have hc := mem_of_nearest hchoice
      obtain ⟨k, hk⟩ := cost_of_nearest hchoice
      refine ⟨List.erase_sublist.trans h.part, fun r o => ?_⟩
      have hcounts := h.counts r o
      have htakes : (C.label c = C.key r ∧ C.owner c = o) ↔ (row.2 = o ∧ C.key row.1 = C.key r ∧
          ∃ c ∈ pool, C.owner c = o ∧ (C.cost row.1 c).isSome) := by
        rw [(cost_eq_some.mp hk).1, hright c hchoice]
        constructor
        · rintro ⟨hkey, rfl⟩
          exact ⟨rfl, hkey, c, h.part.subset hc, hright c hchoice, by rw [hk]; rfl⟩
        · rintro ⟨hown, hkey, -⟩
          exact ⟨hkey, hown⟩
      unfold number drawn at hcounts ⊢
      rw [List.countP_erase, List.countP_append, List.countP_singleton, hcounts,
        decide_eq_decide.mpr htakes]
      simp only [hc, true_and]
      omega

/-- Every row is right exactly when every row is fair.  Induction on the rows; `front` are the
rows before. -/
theorem Lawful.assign_right_iff (hlaw : C.Lawful pos pool) (rows : List (ρ × σ)) :
    List.Forall₂ C.Right rows (C.assign pool (rows.map Prod.fst)) ↔
      ∀ front row back, rows = front ++ row :: back → C.Fair pos pool front row := by
  have hrest : ∀ (rows front : List (ρ × σ)) (left : List γ), C.Counted pool front left →
      (List.Forall₂ C.Right rows (C.assign left (rows.map Prod.fst)) ↔
        ∀ done row back, rows = done ++ row :: back → C.Fair pos pool (front ++ done) row) := by
    intro rows
    induction rows with
    | nil =>
        intro front left _
        simp [assign]
    | cons row rows ih =>
        intro front left h
        have hassign : C.assign left ((row :: rows).map Prod.fst) =
            nearest (C.cost row.1) left :: C.assign (match nearest (C.cost row.1) left with
              | none => left
              | some c => left.erase c) (rows.map Prod.fst) := by
          rw [List.map_cons, assign]
          split
          · rename_i hnone
            rw [hnone]
          · rename_i c hsome
            rw [hsome]
        rw [hassign, List.forall₂_cons]
        constructor
        · rintro ⟨hright, hrights⟩ done row' back hsplit
          cases done with
          | nil =>
              obtain ⟨rfl, -⟩ := List.cons.inj hsplit
              rw [List.append_nil]
              exact (hlaw.right_iff h row).mp hright
          | cons first done =>
              obtain ⟨rfl, htail⟩ := List.cons.inj hsplit
              have hfair := (ih _ _ (hlaw.counted_next h hright)).mp hrights done row' back htail
              rwa [List.append_assoc] at hfair
        · intro hfair
          have hright := (hlaw.right_iff h row).mpr (by simpa using hfair [] row rows rfl)
          refine ⟨hright, (ih _ _ (hlaw.counted_next h hright)).mpr ?_⟩
          intro done row' back hsplit
          rw [List.append_assoc]
          exact hfair (row :: done) row' back (congrArg (row :: ·) hsplit)
  simpa using hrest rows [] pool Counted.start

end Contest

end Veto.Foundation

import Mathlib.Data.List.Induction
import Mathlib.Data.List.Nodup

/-!
# The first hit of each key

A scan that keeps the first item it can read for each key.  When a list of wanted keys is
given, the scan ends as soon as all of them were read.
-/

namespace Veto.Foundation

/-- The hits so far, in order, and the wanted keys that are still to be read. -/
structure Hits (β κ : Type) where
  found : List β
  outstanding : Option (List κ)

namespace Hits

variable {α β κ : Type}

section

variable (read : α → Option β) (key : β → κ)

/-- Some item is read with the key `k`. -/
def ReadIn (items : List α) (k : κ) : Prop :=
  ∃ item ∈ items, ∃ hit, read item = some hit ∧ key hit = k

/-- There is more to look for once `items` were read: no list of keys is wanted, or one of
them was not read. -/
def Sought (wanted : Option (List κ)) (items : List α) : Prop :=
  ∀ keys, wanted = some keys → ∃ k ∈ keys, ¬ ReadIn read key items k

/-- The hit that is kept: the first of its key, read while something was sought. -/
def Kept (wanted : Option (List κ)) (items : List α) (hit : β) : Prop :=
  ∃ front item back, items = front ++ item :: back ∧ read item = some hit ∧
    ¬ ReadIn read key front (key hit) ∧ Sought read key wanted front

end

variable {read : α → Option β} {key : β → κ} {wanted : Option (List κ)} {items : List α}

theorem readIn_append {more : List α} {k : κ} :
    ReadIn read key (items ++ more) k ↔ ReadIn read key items k ∨ ReadIn read key more k := by
  simp [ReadIn, or_and_right, exists_or]

theorem readIn_singleton {item : α} {k : κ} :
    ReadIn read key [item] k ↔ ∃ hit, read item = some hit ∧ key hit = k := by
  simp [ReadIn]

/-- The last item is where a new hit can be. -/
theorem kept_append {item : α} {hit : β} :
    Kept read key wanted (items ++ [item]) hit ↔ Kept read key wanted items hit ∨
      read item = some hit ∧ ¬ ReadIn read key items (key hit) ∧ Sought read key wanted items := by
  constructor
  · rintro ⟨front, x, back, hsplit, hread, hfirst, hsought⟩
    cases back using List.reverseRecOn with
    | nil =>
        obtain ⟨rfl, hlast⟩ := List.append_inj' hsplit rfl
        obtain rfl : item = x := List.singleton_inj.mp hlast
        exact .inr ⟨hread, hfirst, hsought⟩
    | append_singleton back last =>
        rw [← List.cons_append, ← List.append_assoc] at hsplit
        obtain ⟨rfl, -⟩ := List.append_inj' hsplit rfl
        exact .inl ⟨front, x, back, rfl, hread, hfirst, hsought⟩
  · rintro (⟨front, x, back, rfl, hread, hfirst, hsought⟩ | ⟨hread, hfirst, hsought⟩)
    · exact ⟨front, x, back ++ [item], by simp, hread, hfirst, hsought⟩
    · exact ⟨items, item, [], rfl, hread, hfirst, hsought⟩

variable [DecidableEq κ]

/-- Nothing is left to look for. -/
def done (w : Hits β κ) : Bool := w.outstanding = some []

def visit (read : α → Option β) (key : β → κ) (w : Hits β κ) (item : α) : Hits β κ :=
  if w.done then w
  else match read item with
    | none => w
    | some hit =>
      if w.found.any (key · = key hit) then w
      else {
        found := w.found ++ [hit]
        outstanding := w.outstanding.map (·.filter (· ≠ key hit)) }

theorem visit_done {w : Hits β κ} (h : w.done = true) (item : α) : visit read key w item = w := by
  rw [visit, if_pos h]

theorem foldl_done {w : Hits β κ} (h : w.done = true) (items : List α) :
    items.foldl (visit read key) w = w := by
  induction items with
  | nil => rfl
  | cons item items ih => rw [List.foldl_cons, visit_done h, ih]

/-- What a scan knows after `items`. -/
structure Scanned (read : α → Option β) (key : β → κ) (wanted : Option (List κ))
    (items : List α) (w : Hits β κ) : Prop where
  found : ∀ hit, hit ∈ w.found ↔ Kept read key wanted items hit
  distinct : (w.found.map key).Nodup
  outstanding : w.outstanding = wanted.map (·.filter fun k => !w.found.any (key · = k))
  complete : w.done = false → ∀ k, ReadIn read key items k → w.found.any (key · = k) = true

namespace Scanned

variable {w : Hits β κ}

theorem readIn_of_found (h : Scanned read key wanted items w) {k : κ}
    (hk : w.found.any (key · = k) = true) : ReadIn read key items k := by
  obtain ⟨hit, hhit, hkey⟩ := List.any_eq_true.mp hk
  obtain ⟨front, item, back, rfl, hread, -, -⟩ := (h.found hit).mp hhit
  exact ⟨item, by simp, hit, hread, of_decide_eq_true hkey⟩

/-- The scan is over exactly when nothing more is sought. -/
theorem done_iff (h : Scanned read key wanted items w) :
    w.done = true ↔ ¬ Sought read key wanted items := by
  constructor
  · intro hdone hsought
    have hempty : w.outstanding = some [] := of_decide_eq_true hdone
    rw [h.outstanding] at hempty
    obtain ⟨keys, hkeys, hfilter⟩ := Option.map_eq_some_iff.mp hempty
    obtain ⟨k, hk, hunread⟩ := hsought keys hkeys
    have hfound : w.found.any (key · = k) = true := by
      simpa using List.filter_eq_nil_iff.mp hfilter k hk
    exact hunread (h.readIn_of_found hfound)
  · intro hover
    by_contra hdone
    apply hover
    intro keys hkeys
    have hkept : keys.filter (fun k => !w.found.any (key · = k)) ≠ [] := by
      intro hnil
      apply hdone
      simp [done, h.outstanding, hkeys, hnil]
    obtain ⟨k, hk⟩ := List.exists_mem_of_ne_nil _ hkept
    obtain ⟨hmem, hnew⟩ := List.mem_filter.mp hk
    refine ⟨k, hmem, ?_⟩
    intro hread
    have hfound := h.complete (Bool.eq_false_iff.mpr hdone) k hread
    simp [hfound] at hnew

theorem start (wanted : Option (List κ)) :
    Scanned read key wanted ([] : List α) ⟨[], wanted⟩ where
  found := by simp [Kept]
  distinct := List.nodup_nil
  outstanding := by cases wanted <;> simp
  complete := by simp [ReadIn]

/-- One more item. -/
theorem visit (h : Scanned read key wanted items w) (item : α) :
    Scanned read key wanted (items ++ [item]) (Hits.visit read key w item) := by
  by_cases hdone : w.done = true
  · -- nothing is sought any more, so nothing is kept
    rw [visit_done hdone]
    refine ⟨?_, h.distinct, h.outstanding, ?_⟩
    · intro hit
      rw [h.found, kept_append]
      simp [h.done_iff.mp hdone]
    · intro hopen
      rw [hdone] at hopen
      cases hopen
  · have hsought : Sought read key wanted items := by
      by_contra hover
      exact hdone (h.done_iff.mpr hover)
    have hcomplete := h.complete (Bool.eq_false_iff.mpr hdone)
    rw [Hits.visit, if_neg hdone]
    cases hread : read item with
    | none =>
        refine ⟨?_, h.distinct, h.outstanding, ?_⟩
        · intro hit
          rw [h.found, kept_append]
          simp [hread]
        · intro _ k hk
          rw [readIn_append, readIn_singleton] at hk
          simp only [hread, reduceCtorEq, false_and, exists_false, or_false] at hk
          exact hcomplete k hk
    | some hit =>
        by_cases hseen : w.found.any (key · = key hit) = true
        · simp only [if_pos hseen]
          refine ⟨?_, h.distinct, h.outstanding, ?_⟩
          · intro other
            rw [h.found, kept_append, hread]
            constructor
            · exact .inl
            · rintro (hkept | ⟨heq, hfirst, -⟩)
              · exact hkept
              · obtain rfl := Option.some.inj heq
                exact absurd (h.readIn_of_found hseen) hfirst
          · intro _ k hk
            rw [readIn_append, readIn_singleton] at hk
            rcases hk with hk | ⟨other, heq, rfl⟩
            · exact hcomplete k hk
            · obtain rfl := Option.some.inj (hread.symm.trans heq)
              exact hseen
        · simp only [if_neg hseen]
          have hnew : ¬ ReadIn read key items (key hit) := fun hk => hseen (hcomplete _ hk)
          refine ⟨?_, ?_, ?_, ?_⟩
          · intro other
            rw [List.mem_append, List.mem_singleton, h.found, kept_append, hread]
            apply or_congr_right
            constructor
            · rintro rfl
              exact ⟨rfl, hnew, hsought⟩
            · rintro ⟨heq, -, -⟩
              exact (Option.some.inj heq).symm
          · rw [List.map_append, List.map_singleton]
            apply List.Nodup.append h.distinct (List.nodup_singleton _)
            rw [List.disjoint_singleton]
            intro hmem
            obtain ⟨other, hother, hkey⟩ := List.mem_map.mp hmem
            exact hseen (List.any_eq_true.mpr ⟨other, hother, decide_eq_true hkey⟩)
          · rw [h.outstanding]
            cases wanted with
            | none => rfl
            | some keys =>
                simp only [Option.map_some, List.filter_filter]
                congr 1
                apply List.filter_congr
                intro k _
                rw [List.any_append, Bool.not_or, Bool.and_comm]
                simp [eq_comm]
          · intro _ k hk
            rw [readIn_append, readIn_singleton] at hk
            rw [List.any_append, Bool.or_eq_true]
            rcases hk with hk | ⟨other, heq, rfl⟩
            · exact .inl (hcomplete k hk)
            · obtain rfl := Option.some.inj (hread.symm.trans heq)
              exact .inr (by simp)

theorem foldl (wanted : Option (List κ)) (items : List α) :
    Scanned read key wanted items (items.foldl (Hits.visit read key) ⟨[], wanted⟩) := by
  induction items using List.reverseRecOn with
  | nil => exact start wanted
  | append_singleton items item ih =>
      rw [List.foldl_append]
      exact ih.visit item

end Scanned

end Hits

end Veto.Foundation

import Mathlib.Algebra.BigOperators.Group.List.Basic
import Mathlib.Order.Monotone.Basic
import Mathlib.Algebra.Order.Group.Int
import Mathlib.Tactic.Abel

/-!
# Aggregates of a table

Sums and extremes over the rows of a table, and how they change when one row is added,
removed or rewritten.  A total that is kept by differences stays the sum; an extreme has to
be looked up again only when a row that had it is removed.
-/

namespace Veto.Foundation

/-! ## Sums -/

section Sum

variable {α M : Type} [AddCommGroup M] {f g : α → M} {a : α} {l : List α}

/-- Rewriting one row changes the sum by the difference. -/
theorem sum_map_rewrite (hnodup : l.Nodup) (ha : a ∈ l) (h : ∀ b ∈ l, b ≠ a → g b = f b) :
    (l.map g).sum = (l.map f).sum + (g a - f a) := by
  induction l with
  | nil => cases ha
  | cons b l ih =>
      obtain ⟨hb, hl⟩ := List.nodup_cons.mp hnodup
      rw [List.map_cons, List.map_cons, List.sum_cons, List.sum_cons]
      rcases List.mem_cons.mp ha with rfl | hal
      · have hrest : l.map g = l.map f :=
          List.map_congr_left fun c hc => h c (List.mem_cons_of_mem a hc) fun heq => hb (heq ▸ hc)
        rw [hrest]
        abel
      · have hne : b ≠ a := fun heq => hb (heq ▸ hal)
        rw [h b List.mem_cons_self hne, ih hl hal fun c hc => h c (List.mem_cons_of_mem b hc)]
        abel

/-- A property that sums keep holds of the sum of rows that have it. -/
theorem sum_map_of_forall {P : M → Prop} (hzero : P 0) (hadd : ∀ x y, P x → P y → P (x + y))
    (h : ∀ b ∈ l, P (f b)) : P (l.map f).sum := by
  induction l with
  | nil => exact hzero
  | cons b l ih =>
      rw [List.map_cons, List.sum_cons]
      exact hadd _ _ (h b List.mem_cons_self) (ih fun c hc => h c (List.mem_cons_of_mem b hc))

/-- Rows that add nothing can be dropped from a sum. -/
theorem sum_map_filter_of_zero {keep : α → Bool} (h : ∀ b ∈ l, keep b = false → f b = 0) :
    ((l.filter keep).map f).sum = (l.map f).sum := by
  induction l with
  | nil => rfl
  | cons b l ih =>
      have ih := ih fun c hc => h c (List.mem_cons_of_mem b hc)
      rw [List.map_cons, List.sum_cons]
      cases hkeep : keep b with
      | true => rw [List.filter_cons_of_pos hkeep, List.map_cons, List.sum_cons, ih]
      | false =>
          rw [List.filter_cons_of_neg (by simp [hkeep]), ih, h b List.mem_cons_self hkeep, zero_add]

/-- The rows whose name is listed, taken name by name. -/
theorem sum_map_by_name {κ : Type} [DecidableEq κ] {name : α → κ} {names : List κ}
    (hnames : names.Nodup) :
    ((l.filter fun b => name b ∈ names).map f).sum =
      (names.map fun n => ((l.filter fun b => name b = n).map f).sum).sum := by
  induction l with
  | nil => simp
  | cons b l ih =>
      have hsplit : ∀ n, ((l.filter fun c => name c = n).map f).sum + (if name b = n then f b else 0) =
          (((b :: l).filter fun c => name c = n).map f).sum := by
        intro n
        by_cases h : name b = n
        · rw [if_pos h, List.filter_cons_of_pos (by simpa using h), List.map_cons, List.sum_cons,
            add_comm]
        · rw [if_neg h, List.filter_cons_of_neg (by simpa using h), add_zero]
      simp only [← hsplit]
      rw [List.sum_map_add, ← ih]
      by_cases h : name b ∈ names
      · have hone : (names.map fun n => if name b = n then f b else 0).sum = f b := by
          have hrewrite := sum_map_rewrite (f := fun _ => (0 : M))
            (g := fun n => if name b = n then f b else 0) hnames h fun n _ hne => if_neg hne.symm
          rw [hrewrite, if_pos rfl, List.sum_map_zero, sub_zero, zero_add]
        rw [hone, List.filter_cons_of_pos (by simpa using h), List.map_cons, List.sum_cons, add_comm]
      · have hnone : (names.map fun n => if name b = n then f b else 0) = names.map fun _ => 0 :=
          List.map_congr_left fun n hn => if_neg fun (heq : name b = n) => h (heq ▸ hn)
        rw [hnone, List.sum_map_zero, add_zero, List.filter_cons_of_neg (by simpa using h)]

/-- A sum of zeros and ones counts the ones. -/
theorem sum_map_ite_eq_countP {p : α → Prop} [DecidablePred p] {l : List α} :
    (l.map fun a => if p a then (1 : Int) else 0).sum = l.countP (fun a => p a) := by
  induction l with
  | nil => rfl
  | cons a l ih =>
      rw [List.map_cons, List.sum_cons, ih]
      by_cases h : p a
      · rw [List.countP_cons_of_pos (by simpa using h), if_pos h]
        push_cast
        omega
      · rw [List.countP_cons_of_neg (by simpa using h), if_neg h, zero_add]

end Sum

/-! ## Extremes -/

section Extreme

variable {α : Type} [LinearOrder α] {l l' : List α}

theorem min?_append : (l ++ l').min? = l.min?.merge min l'.min? := by
  induction l with
  | nil => rw [List.nil_append, List.min?_nil, Option.merge_none_left]
  | cons x l ih =>
      rw [List.cons_append, List.min?_cons, List.min?_cons, ih]
      cases l.min? <;> cases l'.min? <;> simp [min_assoc]

theorem min?_of_perm (h : l.Perm l') : l.min? = l'.min? := by
  induction h with
  | nil => rfl
  | cons x _ ih => rw [List.min?_cons, List.min?_cons, ih]
  | swap x y l =>
      rw [List.min?_cons, List.min?_cons, List.min?_cons, List.min?_cons]
      cases l.min? <;> simp [min_comm, min_left_comm]
  | trans _ _ ih ih' => rw [ih, ih']

theorem max?_of_perm (h : l.Perm l') : l.max? = l'.max? := by
  induction h with
  | nil => rfl
  | cons x _ ih => rw [List.max?_cons, List.max?_cons, ih]
  | swap x y l =>
      rw [List.max?_cons, List.max?_cons, List.max?_cons, List.max?_cons]
      cases l.max? <;> simp [max_comm, max_left_comm]
  | trans _ _ ih ih' => rw [ih, ih']

theorem max?_append : (l ++ l').max? = l.max?.merge max l'.max? := by
  induction l with
  | nil => rw [List.nil_append, List.max?_nil, Option.merge_none_left]
  | cons x l ih =>
      rw [List.cons_append, List.max?_cons, List.max?_cons, ih]
      cases l.max? <;> cases l'.max? <;> simp [max_assoc]

/-- The least value stays the least while a row that has it stays. -/
theorem min?_of_subset (hsub : ∀ b ∈ l', b ∈ l) (hkeep : ∀ m, l.min? = some m → m ∈ l') :
    l'.min? = l.min? := by
  cases h : l.min? with
  | none =>
      rw [List.min?_eq_none_iff] at h ⊢
      subst h
      exact List.eq_nil_iff_forall_not_mem.mpr fun b hb => nomatch hsub b hb
  | some m =>
      obtain ⟨-, hle⟩ := List.min?_eq_some_iff.mp h
      rw [List.min?_eq_some_iff]
      exact ⟨hkeep m h, fun b hb => hle b (hsub b hb)⟩

theorem max?_of_subset (hsub : ∀ b ∈ l', b ∈ l) (hkeep : ∀ m, l.max? = some m → m ∈ l') :
    l'.max? = l.max? := by
  cases h : l.max? with
  | none =>
      rw [List.max?_eq_none_iff] at h ⊢
      subst h
      exact List.eq_nil_iff_forall_not_mem.mpr fun b hb => nomatch hsub b hb
  | some m =>
      obtain ⟨-, hle⟩ := List.max?_eq_some_iff.mp h
      rw [List.max?_eq_some_iff]
      exact ⟨hkeep m h, fun b hb => hle b (hsub b hb)⟩

/-- The least value depends on which values there are only. -/
theorem min?_congr (h : ∀ a, a ∈ l' ↔ a ∈ l) : l'.min? = l.min? :=
  min?_of_subset (fun a ha => (h a).mp ha)
    fun m hm => (h m).mpr (List.min?_eq_some_iff.mp hm).1

theorem min?_map_monotone {α' : Type} [LinearOrder α'] {g : α → α'} (hg : Monotone g) :
    (l.map g).min? = l.min?.map g := by
  induction l with
  | nil => rfl
  | cons a l ih =>
      rw [List.map_cons, List.min?_cons, List.min?_cons, ih]
      cases l.min? <;> simp [hg.map_min]

/-! ### Extremes of a column -/

variable {β : Type} {rows : List β} {row : β} {p keep : β → Bool} {f : β → α}

theorem min?_filter_append :
    (((rows ++ [row]).filter p).map f).min? =
      if p row then ((rows.filter p).map f).min?.merge min (some (f row))
      else ((rows.filter p).map f).min? := by
  rw [List.filter_append, List.map_append]
  cases h : p row with
  | true => rw [List.filter_cons_of_pos h, List.filter_nil, if_pos rfl]; exact min?_append
  | false => rw [List.filter_cons_of_neg (by simp [h]), List.filter_nil, List.map_nil,
      List.append_nil, if_neg Bool.false_ne_true]

theorem max?_filter_append :
    (((rows ++ [row]).filter p).map f).max? =
      if p row then ((rows.filter p).map f).max?.merge max (some (f row))
      else ((rows.filter p).map f).max? := by
  rw [List.filter_append, List.map_append]
  cases h : p row with
  | true => rw [List.filter_cons_of_pos h, List.filter_nil, if_pos rfl]; exact max?_append
  | false => rw [List.filter_cons_of_neg (by simp [h]), List.filter_nil, List.map_nil,
      List.append_nil, if_neg Bool.false_ne_true]

/-- Removing rows that do not have the least value keeps it. -/
theorem min?_filter_of_kept
    (h : ∀ b ∈ rows, keep b = false → p b = true → ((rows.filter p).map f).min? ≠ some (f b)) :
    (((rows.filter keep).filter p).map f).min? = ((rows.filter p).map f).min? := by
  apply min?_of_subset
  · intro a ha
    obtain ⟨b, hb, rfl⟩ := List.mem_map.mp ha
    obtain ⟨hb, hp⟩ := List.mem_filter.mp hb
    exact List.mem_map.mpr ⟨b, List.mem_filter.mpr ⟨List.mem_of_mem_filter hb, hp⟩, rfl⟩
  · intro m hm
    obtain ⟨b, hb, rfl⟩ := List.mem_map.mp (List.min?_eq_some_iff.mp hm).1
    obtain ⟨hb, hp⟩ := List.mem_filter.mp hb
    have hkeep : keep b = true := by
      by_contra hkeep
      exact h b hb (Bool.eq_false_of_not_eq_true hkeep) hp hm
    exact List.mem_map.mpr ⟨b, List.mem_filter.mpr ⟨List.mem_filter.mpr ⟨hb, hkeep⟩, hp⟩, rfl⟩

theorem max?_filter_of_kept
    (h : ∀ b ∈ rows, keep b = false → p b = true → ((rows.filter p).map f).max? ≠ some (f b)) :
    (((rows.filter keep).filter p).map f).max? = ((rows.filter p).map f).max? := by
  apply max?_of_subset
  · intro a ha
    obtain ⟨b, hb, rfl⟩ := List.mem_map.mp ha
    obtain ⟨hb, hp⟩ := List.mem_filter.mp hb
    exact List.mem_map.mpr ⟨b, List.mem_filter.mpr ⟨List.mem_of_mem_filter hb, hp⟩, rfl⟩
  · intro m hm
    obtain ⟨b, hb, rfl⟩ := List.mem_map.mp (List.max?_eq_some_iff.mp hm).1
    obtain ⟨hb, hp⟩ := List.mem_filter.mp hb
    have hkeep : keep b = true := by
      by_contra hkeep
      exact h b hb (Bool.eq_false_of_not_eq_true hkeep) hp hm
    exact List.mem_map.mpr ⟨b, List.mem_filter.mpr ⟨List.mem_filter.mpr ⟨hb, hkeep⟩, hp⟩, rfl⟩

end Extreme

end Veto.Foundation

import Mathlib.Logic.Function.Basic
import Mathlib.Data.List.Basic

/-!
# Numbered tickets in reused slots

A desk issues tickets with increasing numbers and keeps each in a slot until the
ticket is settled or dropped.  Slots are used again, numbers are not: a settled
ticket is one that was issued, and no number is settled twice.
-/

namespace Veto.Foundation

/-- A number and what it stands for. -/
structure Ticket (α : Type) where
  id : Nat
  terms : α

/-- The open tickets in their slots, and all that were issued and settled so far,
latest first. -/
structure TicketDesk (κ α : Type) where
  next : Nat
  slot : κ → Option (Ticket α)
  issued : List (Ticket α)
  settled : List (Ticket α)

namespace TicketDesk

variable {κ α : Type} {first : Nat} {d d' : TicketDesk κ α} {k : κ} {t : Ticket α}

/-! ## Books in order -/

/-- The books of a desk whose numbers start at `first` are in order. -/
structure Sound (first : Nat) (d : TicketDesk κ α) : Prop where
  first_le : first ≤ d.next
  increasing : d.issued.Pairwise fun later earlier => earlier.id < later.id
  range : ∀ t ∈ d.issued, first ≤ t.id ∧ t.id < d.next
  settled_issued : ∀ t ∈ d.settled, t ∈ d.issued
  settled_once : (d.settled.map Ticket.id).Nodup
  open_issued : ∀ k t, d.slot k = some t → t ∈ d.issued
  open_unsettled : ∀ k t, d.slot k = some t → t.id ∉ d.settled.map Ticket.id
  open_apart : ∀ k k' t t', d.slot k = some t → d.slot k' = some t' → t.id = t'.id → k = k'

namespace Sound

/-- A desk with empty slots and empty books. -/
theorem start {slot : κ → Option (Ticket α)} (vacant : ∀ k, slot k = none) :
    Sound first ⟨first, slot, [], []⟩ := by
  have hnone : ∀ k t, slot k ≠ some t := by
    intro k t hk
    rw [vacant k] at hk
    cases hk
  constructor
  · exact Nat.le_refl first
  · exact .nil
  · intro t ht
    cases ht
  · intro t ht
    cases ht
  · exact .nil
  · intro k t hk
    exact absurd hk (hnone k t)
  · intro k t hk
    exact absurd hk (hnone k t)
  · intro k k' t t' hk
    exact absurd hk (hnone k t)

theorem open_range (h : Sound first d) (hk : d.slot k = some t) : first ≤ t.id ∧ t.id < d.next :=
  h.range t (h.open_issued k t hk)

theorem settled_range (h : Sound first d) (ht : t ∈ d.settled) : first ≤ t.id ∧ t.id < d.next :=
  h.range t (h.settled_issued t ht)

/-- Open tickets may disappear. -/
theorem drop (h : Sound first d) {slot : κ → Option (Ticket α)}
    (kept : ∀ k t, slot k = some t → d.slot k = some t) :
    Sound first ⟨d.next, slot, d.issued, d.settled⟩ := by
  constructor
  · exact h.first_le
  · exact h.increasing
  · exact h.range
  · exact h.settled_issued
  · exact h.settled_once
  · intro j u hj
    exact h.open_issued j u (kept j u hj)
  · intro j u hj
    exact h.open_unsettled j u (kept j u hj)
  · intro i j u w hi hj
    exact h.open_apart i j u w (kept i u hi) (kept j w hj)

end Sound

/-! ## Steps -/

variable [DecidableEq κ]

inductive Step (d : TicketDesk κ α) : TicketDesk κ α → Prop
  | issue {k : κ} {t : Ticket α} {next : Nat} (vacant : d.slot k = none) (id : t.id = d.next)
      (next_gt : d.next < next) :
      Step d ⟨next, Function.update d.slot k (some t), t :: d.issued, d.settled⟩
  | settle {k : κ} {t : Ticket α} (found : d.slot k = some t) :
      Step d ⟨d.next, Function.update d.slot k none, d.issued, t :: d.settled⟩
  | drop {slot : κ → Option (Ticket α)} (kept : ∀ k t, slot k = some t → d.slot k = some t) :
      Step d ⟨d.next, slot, d.issued, d.settled⟩

namespace Sound

theorem issue (h : Sound first d) {next : Nat} (id : t.id = d.next) (next_gt : d.next < next) :
    Sound first ⟨next, Function.update d.slot k (some t), t :: d.issued, d.settled⟩ := by
  have hslot : ∀ j u, Function.update d.slot k (some t) j = some u →
      (j = k ∧ u = t) ∨ d.slot j = some u := by
    intro j u hj
    by_cases hjk : j = k
    · subst hjk
      rw [Function.update_self] at hj
      cases hj
      exact .inl ⟨rfl, rfl⟩
    · rw [Function.update_of_ne hjk] at hj
      exact .inr hj
  have hfresh : ∀ j u, d.slot j = some u → u.id ≠ t.id := by
    intro j u hj
    have hlt := (h.open_range hj).2
    omega
  have hfirst := h.first_le
  constructor
  · exact Nat.le_of_lt (Nat.lt_of_le_of_lt hfirst next_gt)
  · rw [List.pairwise_cons]
    refine ⟨fun u hu => ?_, h.increasing⟩
    rw [id]
    exact (h.range u hu).2
  · intro u hu
    rcases List.mem_cons.mp hu with rfl | hu
    · rw [id]
      exact ⟨hfirst, next_gt⟩
    · obtain ⟨hge, hlt⟩ := h.range u hu
      exact ⟨hge, Nat.lt_trans hlt next_gt⟩
  · intro u hu
    exact List.mem_cons_of_mem t (h.settled_issued u hu)
  · exact h.settled_once
  · intro j u hj
    rcases hslot j u hj with ⟨-, rfl⟩ | hopen
    · exact List.mem_cons_self
    · exact List.mem_cons_of_mem t (h.open_issued j u hopen)
  · intro j u hj hmem
    rcases hslot j u hj with ⟨-, rfl⟩ | hopen
    · -- a number that was settled is below the next one
      obtain ⟨s, hs, hid⟩ := List.mem_map.mp hmem
      have hlt := (h.settled_range hs).2
      omega
    · exact h.open_unsettled j u hopen hmem
  · intro i j u w hi hj heq
    rcases hslot i u hi with ⟨rfl, rfl⟩ | hopen
    · rcases hslot j w hj with ⟨rfl, -⟩ | hopen'
      · rfl
      · exact absurd heq.symm (hfresh j w hopen')
    · rcases hslot j w hj with ⟨rfl, rfl⟩ | hopen'
      · exact absurd heq (hfresh i u hopen)
      · exact h.open_apart i j u w hopen hopen' heq

theorem settle (h : Sound first d) (found : d.slot k = some t) :
    Sound first ⟨d.next, Function.update d.slot k none, d.issued, t :: d.settled⟩ := by
  have hslot : ∀ j u, Function.update d.slot k none j = some u → j ≠ k ∧ d.slot j = some u := by
    intro j u hj
    by_cases hjk : j = k
    · subst hjk
      rw [Function.update_self] at hj
      cases hj
    · rw [Function.update_of_ne hjk] at hj
      exact ⟨hjk, hj⟩
  have hrest := h.drop fun j u hj => (hslot j u hj).2
  constructor
  · exact hrest.first_le
  · exact hrest.increasing
  · exact hrest.range
  · intro u hu
    rcases List.mem_cons.mp hu with rfl | hu
    · exact h.open_issued k u found
    · exact h.settled_issued u hu
  · rw [List.map_cons, List.nodup_cons]
    exact ⟨h.open_unsettled k t found, h.settled_once⟩
  · exact hrest.open_issued
  · intro j u hj
    obtain ⟨hjk, hopen⟩ := hslot j u hj
    rw [List.map_cons, List.mem_cons, not_or]
    refine ⟨fun heq => hjk ?_, h.open_unsettled j u hopen⟩
    exact h.open_apart j k u t hopen found heq
  · exact hrest.open_apart

theorem step (h : Sound first d) (hstep : Step d d') : Sound first d' := by
  cases hstep with
  | issue _ id next_gt => exact h.issue id next_gt
  | settle found => exact h.settle found
  | drop kept => exact h.drop kept

end Sound

end TicketDesk

end Veto.Foundation

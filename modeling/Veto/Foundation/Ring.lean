import Veto.Foundation.MachineInt
import Mathlib.Data.List.Induction
import Mathlib.Data.Vector.Basic

/-!
# Ring buffers of records

A ledger account keeps its last `capacity` records in a ring: `head` is the
slot the next record is written to, and `total` counts every record ever
written until it saturates.  `Holds` ties a ring to the whole log, and `walk` is
the order in which a reader visits the slots.
-/

namespace Veto.Foundation

/-- A ring of the most recent records. -/
structure Ring (α : Type) (capacity : Nat) where
  total : UInt32
  head : UInt16
  entries : Vector α capacity

namespace Ring

variable {α : Type} {capacity : Nat}

def empty (a : α) : Ring α capacity := ⟨0, 0, Vector.replicate capacity a⟩

/-- Write one record over the oldest slot. -/
def record (r : Ring α capacity) (entry : α) : Ring α capacity :=
  let slot := r.head.toNat % capacity
  { total := saturatingSucc r.total
    head := UInt16.ofNat ((slot + 1) % capacity)
    entries := r.entries.setIfInBounds slot entry }

/-- The slots of the live records, oldest first. -/
def walk (capacity total head : Nat) : List Nat :=
  let occupied := min total capacity
  let start := if capacity ≤ total then head % capacity else 0
  (List.range occupied).map fun i => (start + i) % capacity

/-- The records of a log that a ring still has, oldest first. -/
def recent (capacity : Nat) (log : List α) : List α := log.drop (log.length - capacity)

theorem recent_map {β : Type} (f : α → β) (log : List α) :
    recent capacity (log.map f) = (recent capacity log).map f := by
  rw [recent, recent, List.length_map, List.map_drop]

/-- The ring is what recording `log` leaves: the record of index `i` is in slot
`i % capacity` until `capacity` later ones are written. -/
structure Holds (r : Ring α capacity) (log : List α) : Prop where
  total : r.total.toNat = min log.length (2 ^ 32 - 1)
  head : r.head.toNat = log.length % capacity
  entries : ∀ i, i < log.length → log.length ≤ i + capacity →
    r.entries[i % capacity]? = log[i]?

theorem holds_empty (a : α) : (empty a : Ring α capacity).Holds [] where
  total := rfl
  head := by simp [empty]
  entries := by simp

theorem toNat_saturatingSucc (n : UInt32) :
    (saturatingSucc n).toNat = min (n.toNat + 1) (2 ^ 32 - 1) := by
  unfold saturatingSucc
  have hn : n.toNat < 2 ^ 32 := n.toNat_lt
  split
  · rw [UInt32.toNat_add]
    simp only [UInt32.toNat_one]
    omega
  · omega

variable {r : Ring α capacity} {log : List α}

theorem Holds.record (h : r.Holds log) (hpos : 0 < capacity) (hfits : capacity ≤ 2 ^ 16)
    (entry : α) : (r.record entry).Holds (log ++ [entry]) where
  total := by
    have htotal := h.total
    simp only [Ring.record, toNat_saturatingSucc, List.length_append, List.length_singleton]
    omega
  head := by
    have hslot : r.head.toNat % capacity = log.length % capacity := by
      rw [h.head, Nat.mod_mod]
    have hlt : (log.length + 1) % capacity < 2 ^ 16 :=
      Nat.lt_of_lt_of_le (Nat.mod_lt _ hpos) hfits
    simp only [Ring.record, hslot, Nat.mod_add_mod, List.length_append, List.length_singleton]
    exact UInt16.toNat_ofNat_of_lt' hlt
  entries := by
    intro i hi hlast
    rw [List.length_append, List.length_singleton] at hi hlast
    have hslot : r.head.toNat % capacity = log.length % capacity := by
      rw [h.head, Nat.mod_mod]
    simp only [Ring.record, hslot]
    rcases Nat.lt_succ_iff_lt_or_eq.1 hi with hold | rfl
    · -- fewer than `capacity` records apart, so not the slot just written
      have hne : log.length % capacity ≠ i % capacity := by
        intro heq
        have hdiff : (log.length - i) % capacity = 0 := Nat.sub_mod_eq_zero_of_mod_eq heq
        have hsmall : log.length - i < capacity := by omega
        rw [Nat.mod_eq_of_lt hsmall] at hdiff
        omega
      rw [Vector.getElem?_setIfInBounds_ne hne, h.entries i hold (by omega),
        List.getElem?_append_left hold]
    · rw [Vector.getElem?_setIfInBounds_self_of_lt (Nat.mod_lt _ hpos)]
      simp

theorem holds_foldl (hpos : 0 < capacity) (hfits : capacity ≤ 2 ^ 16) (a : α) (log : List α) :
    (log.foldl Ring.record (empty a : Ring α capacity)).Holds log := by
  induction log using List.reverseRecOn with
  | nil => exact holds_empty a
  | append_singleton log entry ih =>
      rw [List.foldl_append]
      exact ih.record hpos hfits entry

/-- A ring with each record seen through `f`. -/
def map {β : Type} (f : α → β) (r : Ring α capacity) : Ring β capacity :=
  ⟨r.total, r.head, r.entries.map f⟩

theorem map_record {β : Type} (f : α → β) (r : Ring α capacity) (entry : α) :
    (r.record entry).map f = (r.map f).record (f entry) := by
  simp [map, record, Vector.map_setIfInBounds]

theorem Holds.map {β : Type} (h : r.Holds log) (f : α → β) : (r.map f).Holds (log.map f) where
  total := by simpa [Ring.map] using h.total
  head := by simpa [Ring.map] using h.head
  entries := by
    intro i hi hlast
    rw [List.length_map] at hi hlast
    simp [Ring.map, h.entries i hi hlast]

/-- Walking the slots visits the recent records in order. -/
theorem Holds.walk_eq (h : r.Holds log) (hpos : 0 < capacity) (hfits : capacity ≤ 2 ^ 16) :
    (walk capacity r.total.toNat r.head.toNat).map (r.entries[·]?) =
      (recent capacity log).map some := by
  have hcap : capacity ≤ 2 ^ 32 - 1 := hfits.trans (by omega)
  have hoccupied : min r.total.toNat capacity = min log.length capacity := by
    rw [h.total, Nat.min_assoc, Nat.min_eq_right hcap]
  apply List.ext_getElem
  · simp only [walk, recent, List.length_map, List.length_range, List.length_drop, hoccupied]
    omega
  · intro i hi _
    have hi' : i < min log.length capacity := by
      simpa [walk, hoccupied] using hi
    simp only [walk, recent, List.getElem_map, List.getElem_range, List.getElem_drop]
    by_cases hfull : capacity ≤ log.length
    · have hstart : capacity ≤ r.total.toNat := by
        rw [h.total]
        omega
      have hslot : (r.head.toNat % capacity + i) % capacity =
          (log.length - capacity + i) % capacity := by
        rw [h.head, Nat.mod_mod, Nat.mod_add_mod, ← Nat.add_mod_right (log.length - capacity + i)]
        congr 1
        omega
      rw [if_pos hstart, hslot, h.entries _ (by omega) (by omega), List.getElem?_eq_getElem]
    · have hstart : ¬capacity ≤ r.total.toNat := by
        rw [h.total]
        omega
      have hzero : log.length - capacity = 0 := by omega
      rw [if_neg hstart, h.entries (0 + i) (by omega) (by omega),
        List.getElem?_eq_getElem (by omega)]
      simp only [hzero]

/-- A loop that decodes what a table holds at each index. -/
theorem mapM_of_lookup {ι ε β : Type} {indices : List ι} {records : List α}
    (lookup : ι → Option α) {decode : ι → Except ε β} {view : α → β}
    (hlookup : indices.map lookup = records.map some)
    (hdecode : ∀ i record, lookup i = some record → decode i = .ok (view record)) :
    indices.mapM decode = .ok (records.map view) := by
  induction indices generalizing records with
  | nil =>
      cases records with
      | nil => rfl
      | cons record records => cases hlookup
  | cons i indices ih =>
      cases records with
      | nil => cases hlookup
      | cons record records =>
          obtain ⟨hrecord, hrest⟩ := List.cons.inj hlookup
          rw [List.mapM_cons, hdecode i record hrecord]
          simp [bind, Except.bind, ih hrest, pure, Except.pure]

/-- A reader that walks the ring reads the recent records. -/
theorem Holds.mapM_walk {ε β : Type} (h : r.Holds log) (hpos : 0 < capacity)
    (hfits : capacity ≤ 2 ^ 16) (decode : Nat → Except ε β) {view : α → β}
    (hdecode : ∀ slot (hslot : slot < capacity), decode slot = .ok (view r.entries[slot])) :
    (walk capacity r.total.toNat r.head.toNat).mapM decode =
      .ok ((recent capacity log).map view) := by
  refine mapM_of_lookup _ (h.walk_eq hpos hfits) ?_
  intro slot record hrecord
  obtain ⟨hlt, rfl⟩ := Vector.getElem?_eq_some_iff.1 hrecord
  exact hdecode slot hlt

/-- A loop over the indices of an array. -/
theorem mapM_vector {ε β : Type} {n : Nat} (v : Vector α n) (decode : Nat → Except ε β)
    {view : α → β} (hdecode : ∀ i (hi : i < n), decode i = .ok (view v[i])) :
    (List.range n).mapM decode = .ok (v.toList.map view) := by
  refine mapM_of_lookup (fun i => v[i]?) ?_ ?_
  · apply List.ext_getElem
    · simp
    · intro i hi _
      have hlt : i < n := by simpa using hi
      simp [hlt]
  · intro i record hrecord
    obtain ⟨hlt, rfl⟩ := Vector.getElem?_eq_some_iff.1 hrecord
    exact hdecode i hlt

end Ring

end Veto.Foundation

import Veto.Foundation.Tickets
import Veto.Hold.History

/-!
# Held withdrawals

Five instructions fill, clear and reuse the eight rows of a vault.  `RowEffect`
is all they can do to the rows and the ids.  With the records written so far the
rows are a desk of tickets, each for an amount and a destination: every step of a
vault is a step of its desk.
-/

namespace Veto

open Foundation

/-! ## Records about rows -/

def HoldEntry.holdsRow (e : HoldEntry) : Bool := e.kind = .held

/-- A payment that had waited.  An instant payment carries no id. -/
def HoldEntry.paysRow (e : HoldEntry) : Bool :=
  e.kind = .skipped ∨ e.kind = .paid ∧ e.withdrawalId ≠ 0

/-- Executed, skipped or stopped. -/
def HoldEntry.endsRow (e : HoldEntry) : Bool := e.paysRow ∨ e.kind = .stopped

/-- The ids that the records of some sort carry. -/
def idsOf (sort : HoldEntry → Bool) (records : List HoldEntry) : List UInt64 :=
  (records.filter sort).map HoldEntry.withdrawalId

theorem HoldEntry.endsRow_of_paysRow {e : HoldEntry} (h : e.paysRow = true) : e.endsRow = true := by
  unfold HoldEntry.endsRow
  rw [decide_eq_true_eq]
  exact .inl h

theorem idsOf_paysRow_sublist (records : List HoldEntry) :
    (idsOf HoldEntry.paysRow records).Sublist (idsOf HoldEntry.endsRow records) := by
  unfold idsOf
  apply List.Sublist.map
  apply List.monotone_filter_right
  intro e he
  exact HoldEntry.endsRow_of_paysRow he

/-! ## What a step does to the rows -/

/-- The step wrote about no row. -/
def AboutNoRow (records : List HoldEntry) : Prop :=
  ∀ e ∈ records, e.holdsRow = false ∧ e.endsRow = false

/-- Every way one step can change the rows and the next id. -/
inductive RowEffect (v : HoldVault) : List HoldEntry → HoldVault → Prop
  | quiet {records : List HoldEntry} {v' : HoldVault}
      (rows : v'.pending = v.pending)
      (next : v'.nextWithdrawalId = v.nextWithdrawalId)
      (none : AboutNoRow records) : RowEffect v records v'
  | filled {ts : Int64} {index : Fin HOLD_PENDING_CAPACITY} {row : PendingWithdrawal}
      {v' : HoldVault}
      (vacant : (v.pending.row index).status = .empty)
      (pending : row.status = .pending)
      (id : row.id = v.nextWithdrawalId)
      (rows : v'.pending = v.pending.put index row)
      (succ : v'.nextWithdrawalId.toNat = v.nextWithdrawalId.toNat + 1) :
      RowEffect v [holdEntry ts .held row.amount row.destination row.id HOLD_REASON_NONE] v'
  | closed {ts : Int64} {kind : HoldKind} {id : UInt64} {index : Fin HOLD_PENDING_CAPACITY}
      {row : PendingWithdrawal} {v' : HoldVault}
      (found : RowAt v id index row)
      (ends : kind = .paid ∨ kind = .skipped ∨ kind = .stopped)
      (rows : v'.pending = v.pending.put index .default)
      (next : v'.nextWithdrawalId = v.nextWithdrawalId) :
      RowEffect v [holdEntry ts kind row.amount row.destination id HOLD_REASON_NONE] v'
  | cleared {records : List HoldEntry} {v' : HoldVault}
      (rows : v'.pending = Vector.replicate HOLD_PENDING_CAPACITY .default)
      (next : v'.nextWithdrawalId = v.nextWithdrawalId)
      (none : AboutNoRow records) : RowEffect v records v'

namespace AboutNoRow

theorem nil : AboutNoRow [] := by
  intro e he
  cases he

theorem single {e : HoldEntry} (h : (e.holdsRow || e.endsRow) = false) : AboutNoRow [e] := by
  intro e' he'
  rw [List.mem_singleton] at he'
  subst he'
  exact Bool.or_eq_false_iff.mp h

theorem append {xs ys : List HoldEntry} (hxs : AboutNoRow xs) (hys : AboutNoRow ys) :
    AboutNoRow (xs ++ ys) := by
  intro e he
  rcases List.mem_append.mp he with he | he
  · exact hxs e he
  · exact hys e he

theorem tightenOutput (now : Int64) (key : Pubkey) (tighten : UInt8) :
    AboutNoRow (tightenOutput now key tighten).records := by
  unfold Veto.tightenOutput
  split
  · exact single rfl
  · exact nil

end AboutNoRow

theorem HoldEffect.rowEffect {rt : Runtime} {s : HoldState} {i : HoldInput}
    {records : List HoldEntry} {v : HoldVault} {w : World} (h : HoldEffect rt s i records v w) :
    RowEffect s.vault records v := by
  cases h with
  | held _ _ _ _ vacant succ =>
      exact @RowEffect.filled _ _ _ (heldRow _ _ _ _) _ vacant rfl rfl rfl succ
  | executed _ found => exact .closed found (.inl rfl) rfl rfl
  | skipped _ _ _ _ _ found => exact .closed found (.inr (.inl rfl)) rfl rfl
  | stopped _ _ found => exact .closed found (.inr (.inr rfl)) rfl rfl
  | recovered => exact .cleared rfl rfl (.single rfl)
  | tightened => exact .quiet rfl rfl (.tightenOutput _ _ _)
  | proposed => exact .quiet rfl rfl (.append (.tightenOutput _ _ _) (.single rfl))
  | outside => exact .quiet rfl rfl .nil
  | _ => exact .quiet rfl rfl (.single rfl)

/-! ## The rows as a desk of tickets -/

/-- What a withdrawal pays, and to whom. -/
abbrev RowTicket := Ticket (UInt64 × Pubkey)

def PendingWithdrawal.ticket (row : PendingWithdrawal) : Option RowTicket :=
  if row.status = .pending then some ⟨row.id.toNat, row.amount, row.destination⟩ else none

def HoldEntry.ticket (e : HoldEntry) : RowTicket := ⟨e.withdrawalId.toNat, e.amount, e.destination⟩

/-- The desk of a vault after some records, latest first. -/
def HoldVault.desk (v : HoldVault) (records : List HoldEntry) :
    TicketDesk (Fin HOLD_PENDING_CAPACITY) (UInt64 × Pubkey) where
  next := v.nextWithdrawalId.toNat
  slot := fun j => (v.pending.row j).ticket
  issued := (records.filter HoldEntry.holdsRow).map HoldEntry.ticket
  settled := (records.filter HoldEntry.endsRow).map HoldEntry.ticket

section Desk

variable {v v' : HoldVault} {records new : List HoldEntry} {first : Nat}

theorem PendingWithdrawal.ticket_of_pending {row : PendingWithdrawal} (h : row.status = .pending) :
    row.ticket = some ⟨row.id.toNat, row.amount, row.destination⟩ := if_pos h

theorem PendingRows.ticket_put (rows : PendingRows) (index : Fin HOLD_PENDING_CAPACITY)
    (row : PendingWithdrawal) :
    (fun j => ((rows.put index row).row j).ticket) =
      Function.update (fun j => (rows.row j).ticket) index row.ticket := by
  funext j
  rw [PendingRows.row_put]
  by_cases hj : j = index
  · rw [hj, if_pos rfl, Function.update_self]
  · rw [if_neg hj, Function.update_of_ne hj]

/-- Records about no row leave the books alone. -/
theorem HoldVault.desk_append (hnext : v'.nextWithdrawalId = v.nextWithdrawalId)
    (hnone : AboutNoRow new) :
    v'.desk (new.reverse ++ records) =
      ⟨(v.desk records).next, (v'.desk records).slot, (v.desk records).issued,
        (v.desk records).settled⟩ := by
  have hheld : new.reverse.filter HoldEntry.holdsRow = [] := by
    rw [List.filter_eq_nil_iff]
    intro e he
    rw [(hnone e (List.mem_reverse.mp he)).1]
    exact Bool.false_ne_true
  have hends : new.reverse.filter HoldEntry.endsRow = [] := by
    rw [List.filter_eq_nil_iff]
    intro e he
    rw [(hnone e (List.mem_reverse.mp he)).2]
    exact Bool.false_ne_true
  unfold HoldVault.desk
  rw [hnext, List.filter_append, hheld, List.filter_append, hends]
  rfl

/-- A row that is filled is a ticket issued. -/
theorem HoldVault.desk_filled {ts : Int64} {index : Fin HOLD_PENDING_CAPACITY}
    {row : PendingWithdrawal} (pending : row.status = .pending)
    (rows : v'.pending = v.pending.put index row) :
    v'.desk (holdEntry ts .held row.amount row.destination row.id HOLD_REASON_NONE :: records) =
      ⟨v'.nextWithdrawalId.toNat,
        Function.update (v.desk records).slot index
          (some ⟨row.id.toNat, row.amount, row.destination⟩),
        ⟨row.id.toNat, row.amount, row.destination⟩ :: (v.desk records).issued,
        (v.desk records).settled⟩ := by
  have hslot := v.pending.ticket_put index row
  rw [← rows, PendingWithdrawal.ticket_of_pending pending] at hslot
  unfold HoldVault.desk
  rw [hslot]
  rfl

/-- A row that is closed under an id other than zero is a ticket settled. -/
theorem HoldVault.desk_closed {ts : Int64} {kind : HoldKind} {id : UInt64}
    {index : Fin HOLD_PENDING_CAPACITY} {row : PendingWithdrawal}
    (ends : kind = .paid ∨ kind = .skipped ∨ kind = .stopped) (hid : id ≠ 0)
    (rows : v'.pending = v.pending.put index .default)
    (next : v'.nextWithdrawalId = v.nextWithdrawalId) :
    v'.desk (holdEntry ts kind row.amount row.destination id HOLD_REASON_NONE :: records) =
      ⟨(v.desk records).next, Function.update (v.desk records).slot index none,
        (v.desk records).issued,
        ⟨id.toNat, row.amount, row.destination⟩ :: (v.desk records).settled⟩ := by
  have hslot := v.pending.ticket_put index .default
  rw [← rows] at hslot
  have hends : (holdEntry ts kind row.amount row.destination id HOLD_REASON_NONE).endsRow =
      true := by
    rcases ends with rfl | rfl | rfl
    · simp [holdEntry, HoldEntry.endsRow, HoldEntry.paysRow, hid]
    · rfl
    · rfl
  have hholds : (holdEntry ts kind row.amount row.destination id HOLD_REASON_NONE).holdsRow =
      false := by
    rcases ends with rfl | rfl | rfl <;> rfl
  unfold HoldVault.desk
  rw [next, hslot, List.filter_cons_of_neg (by simp [hholds]), List.filter_cons_of_pos hends]
  rfl

/-- **Every step of a vault is a step of its desk.** -/
theorem RowEffect.refines (h : RowEffect v new v') (hsound : (v.desk records).Sound first)
    (hfirst : 0 < first) : TicketDesk.Step (v.desk records) (v'.desk (new.reverse ++ records)) := by
  cases h with
  | quiet rows next none =>
      rw [HoldVault.desk_append next none]
      refine .drop fun j t hj => ?_
      unfold HoldVault.desk at hj
      rw [rows] at hj
      exact hj
  | cleared rows next none =>
      rw [HoldVault.desk_append next none]
      refine .drop fun j t hj => ?_
      unfold HoldVault.desk at hj
      rw [rows] at hj
      simp [PendingWithdrawal.default, PendingWithdrawal.ticket] at hj
  | @filled ts index row _ vacant pending id rows succ =>
      have hvacant : (v.desk records).slot index = none := by
        show (v.pending.row index).ticket = none
        unfold PendingWithdrawal.ticket
        rw [vacant]
        rfl
      have hgt : (v.desk records).next < v'.nextWithdrawalId.toNat := by
        show v.nextWithdrawalId.toNat < _
        omega
      rw [List.reverse_singleton, List.singleton_append, HoldVault.desk_filled pending rows]
      exact .issue hvacant (congrArg UInt64.toNat id) hgt
  | @closed ts kind id index row _ found ends rows next =>
      have hfound : (v.desk records).slot index = some ⟨id.toNat, row.amount, row.destination⟩ := by
        show (v.pending.row index).ticket = _
        rw [found.row_eq, PendingWithdrawal.ticket_of_pending found.pending, found.id_eq]
      -- the record shows, because the ids of rows start above zero
      have hid : id ≠ 0 := by
        rintro rfl
        have hge := (hsound.open_range hfound).1
        exact Nat.not_lt_zero 0 (Nat.lt_of_lt_of_le hfirst hge)
      rw [List.reverse_singleton, List.singleton_append,
        HoldVault.desk_closed ends hid rows next]
      exact .settle hfound

/-! ## Reading the books -/

theorem row_range (h : (v.desk records).Sound first)
    {j : Fin HOLD_PENDING_CAPACITY} (hj : (v.pending.row j).status = .pending) :
    first ≤ (v.pending.row j).id.toNat ∧ (v.pending.row j).id < v.nextWithdrawalId := by
  obtain ⟨hge, hlt⟩ := h.open_range (PendingWithdrawal.ticket_of_pending hj)
  exact ⟨hge, UInt64.lt_iff_toNat_lt.mpr hlt⟩

theorem row_apart (h : (v.desk records).Sound first)
    {j k : Fin HOLD_PENDING_CAPACITY} (hj : (v.pending.row j).status = .pending)
    (hk : (v.pending.row k).status = .pending)
    (hid : (v.pending.row j).id = (v.pending.row k).id) : j = k :=
  h.open_apart j k _ _ (PendingWithdrawal.ticket_of_pending hj)
    (PendingWithdrawal.ticket_of_pending hk) (congrArg UInt64.toNat hid)

theorem pairwise_held (h : (v.desk records).Sound first) :
    (idsOf HoldEntry.holdsRow records).Pairwise (· > ·) := by
  have hincreasing := h.increasing
  unfold HoldVault.desk at hincreasing
  rw [List.pairwise_map] at hincreasing
  unfold idsOf
  rw [List.pairwise_map]
  exact hincreasing.imp UInt64.lt_iff_toNat_lt.mpr

theorem nodup_ended (h : (v.desk records).Sound first) :
    (idsOf HoldEntry.endsRow records).Nodup := by
  have honce := h.settled_once
  unfold HoldVault.desk at honce
  rw [List.map_map] at honce
  unfold idsOf
  refine List.Nodup.of_map UInt64.toNat ?_
  rw [List.map_map]
  exact honce

/-- A record that ends a row has the id, the amount and the destination of the
record that held it. -/
theorem held_of_ended (h : (v.desk records).Sound first) {e : HoldEntry}
    (he : e ∈ records) (hends : e.endsRow = true) :
    first ≤ e.withdrawalId.toNat ∧ ∃ e' ∈ records, e'.kind = .held ∧
      e'.withdrawalId = e.withdrawalId ∧ e'.amount = e.amount ∧ e'.destination = e.destination := by
  have hsettled : e.ticket ∈ (v.desk records).settled :=
    List.mem_map_of_mem (List.mem_filter.mpr ⟨he, hends⟩)
  refine ⟨(h.settled_range hsettled).1, ?_⟩
  obtain ⟨e', he', hticket⟩ := List.mem_map.mp (h.settled_issued _ hsettled)
  obtain ⟨hmem, hholds⟩ := List.mem_filter.mp he'
  unfold HoldEntry.ticket at hticket
  injection hticket with hid hterms
  injection hterms with hamount hdestination
  exact ⟨e', hmem, of_decide_eq_true hholds, UInt64.toNat_inj.mp hid, hamount, hdestination⟩

end Desk

/-! ## Along a run -/

section Runs

variable {rt : Runtime} {opening : HoldOutput} {s₀ s : HoldState} {h : HoldHistory}

/-- From a vault where nothing waits the books stay in order along every run. -/
theorem desk_of_run (hpos : 0 < s₀.vault.nextWithdrawalId)
    (hvacant : ∀ j : Fin HOLD_PENDING_CAPACITY, (s₀.vault.pending.row j).status = .empty)
    (run : Run (HoldStep rt) s₀ h s) :
    (s.vault.desk (written h)).Sound s₀.vault.nextWithdrawalId.toNat := by
  refine run.carries (P := fun h (s : HoldState) =>
    (s.vault.desk (written h)).Sound s₀.vault.nextWithdrawalId.toNat) ?_ ?_
  · refine .start fun j => ?_
    show (s₀.vault.pending.row j).ticket = none
    unfold PendingWithdrawal.ticket
    rw [hvacant j]
    rfl
  · intro h s i o s' _ ih hstep
    rw [written_cons]
    have hfirst : 0 < s₀.vault.nextWithdrawalId.toNat := UInt64.lt_iff_toNat_lt.mp hpos
    exact ih.step (hstep.stepEffect.effect.rowEffect.refines ih hfirst)

theorem desk_of_opens (hopen : Opens rt opening s₀) (run : Run (HoldStep rt) s₀ h s) :
    (s.vault.desk (written h)).Sound 1 := by
  obtain ⟨-, accts, args, bump, tokenBump, ledgerBump, hvault⟩ := hopen.fresh
  have hnext : s₀.vault.nextWithdrawalId = 1 := by
    rw [hvault]
    rfl
  have hsound := desk_of_run (by rw [hnext]; decide) (fun j => ?_) run
  · rw [hnext] at hsound
    exact hsound
  · rw [hvault]
    simp [freshVault, PendingWithdrawal.default]

end Runs

end Veto

import Veto.Hold.Rows
import Veto.Hold.Window

/-!
# Known destinations

A destination becomes known by a payment that waited or that both keys signed,
and every row goes back to a withdrawal the owner signed.  So the first payment
to an address is never an instant one.
-/

namespace Veto

open Foundation

/-! ## Where rows come from -/

/-- A step held the withdrawal of a row, signed by the owner. -/
structure Holds (s : HoldState) (i : HoldInput) (records : List HoldEntry)
    (row : PendingWithdrawal) : Prop where
  instr : ∃ accts amount, i.instr = .withdraw accts amount
  signed : s.vault.owner ∈ i.signers
  records : records =
    [holdEntry i.now .held row.amount row.destination row.id HOLD_REASON_NONE]
  unlock : row.unlockAt.toInt = i.now.toInt + s.vault.delaySecs.toInt

def HoldTransition.Holds (H : HoldTransition) (row : PendingWithdrawal) : Prop :=
  Veto.Holds H.pre H.input H.output.records row

/-- A row that is pending after a step was there before it, or the step held it. -/
theorem HoldEffect.row_origin {rt : Runtime} {s : HoldState} {i : HoldInput}
    {records : List HoldEntry} {v : HoldVault} {w : World} (h : HoldEffect rt s i records v w)
    {j : Fin HOLD_PENDING_CAPACITY} (hj : (v.pending.row j).status = .pending) :
    v.pending.row j = s.vault.pending.row j ∨ Holds s i records (v.pending.row j) := by
  have hclear : ∀ index : Fin HOLD_PENDING_CAPACITY,
      ((s.vault.pending.put index .default).row j).status = .pending →
      (s.vault.pending.put index .default).row j = s.vault.pending.row j := by
    intro index hpending
    rw [PendingRows.row_put] at hpending ⊢
    by_cases hjx : j = index
    · rw [if_pos hjx] at hpending
      cases hpending
    · rw [if_neg hjx]
  cases h with
  | @held accts amount next unlockAt index instr signed positive unlock vacant succ =>
      show (s.vault.pending.put index _).row j = _ ∨
        Holds s i _ ((s.vault.pending.put index _).row j)
      rw [PendingRows.row_put]
      by_cases hjx : j = index
      · rw [if_pos hjx]
        exact .inr ⟨⟨_, _, instr⟩, signed, rfl, unlock⟩
      · rw [if_neg hjx]
        exact .inl rfl
  | executed => exact .inl (hclear _ hj)
  | stopped => exact .inl (hclear _ hj)
  | skipped => exact .inl (hclear _ hj)
  | recovered => simp [PendingWithdrawal.default] at hj
  | _ => exact .inl rfl

/-- Every waiting row was held by a transition of the run. -/
theorem rows_held {rt : Runtime} {opening : HoldOutput} {s₀ s : HoldState} {h : HoldHistory}
    (hopen : Opens rt opening s₀) (run : Run (HoldStep rt) s₀ h s)
    (j : Fin HOLD_PENDING_CAPACITY) (hj : (s.vault.pending.row j).status = .pending) :
    ∃ H ∈ h, H.Holds (s.vault.pending.row j) := by
  revert j
  refine run.carries (P := fun h (s : HoldState) => ∀ j : Fin HOLD_PENDING_CAPACITY,
    (s.vault.pending.row j).status = .pending →
      ∃ H ∈ h, HoldTransition.Holds H (s.vault.pending.row j))
    ?_ ?_
  · intro j hj
    obtain ⟨-, accts, args, bump, tokenBump, ledgerBump, hvault⟩ := hopen.fresh
    rw [hvault] at hj
    simp [freshVault, PendingWithdrawal.default] at hj
  · intro h s i o s' _ ih hstep j hj
    obtain hsame | hholds := hstep.stepEffect.effect.row_origin hj
    · rw [hsame] at hj ⊢
      obtain ⟨H, hH, hholds⟩ := ih j hj
      exact ⟨H, List.mem_cons_of_mem _ hH, hholds⟩
    · exact ⟨_, List.mem_cons_self, hholds⟩

/-! ## Where known destinations come from -/

theorem HoldVault.mem_knownKeys_remember {v : HoldVault} {destination k : Pubkey}
    (h : k ∈ (v.remember destination).knownKeys) : k ∈ v.knownKeys ∨ k = destination := by
  unfold remember at h
  split at h
  · exact .inl h
  split at h
  · exact .inl h
  rename_i hroom
  have hlt : v.knownLen.toNat < HOLD_KNOWN_CAPACITY := Nat.lt_of_not_le hroom
  have hcapacity : HOLD_KNOWN_CAPACITY = 16 := rfl
  have hsucc : (saturatingSucc8 v.knownLen).toNat = v.knownLen.toNat + 1 := by
    unfold saturatingSucc8
    rw [if_pos (by omega), UInt8.toNat_add]
    show (v.knownLen.toNat + 1) % 2 ^ 8 = _
    omega
  unfold knownKeys at h ⊢
  simp only [hsucc] at h
  rw [Nat.min_eq_left (by omega), List.take_add_one] at h
  rw [Nat.min_eq_left (by omega)]
  have hlength : v.knownLen.toNat < v.known.toList.length := by simpa using hlt
  rw [Vector.toList_setIfInBounds, List.take_set_of_le (Nat.le_refl _),
    List.getElem?_set_self hlength] at h
  rcases List.mem_append.mp h with h | h
  · exact .inl h
  · exact .inr (by simpa using h)

def HoldTransition.PaysRow (T : HoldTransition) (destination : Pubkey) : Prop :=
  T.FromRow ∧ ∃ id, T.Pays destination id

/-- A destination that is known after a step was known before it, or the step paid a row to it. -/
theorem HoldEffect.known {rt : Runtime} {T : HoldTransition}
    (h : HoldEffect rt T.pre T.input T.output.records T.post.vault T.post.world) {k : Pubkey}
    (hk : k ∈ T.post.vault.knownKeys) : k ∈ T.pre.vault.knownKeys ∨ T.PaysRow k := by
  obtain ⟨s, i, o, s'⟩ := T
  have hrow : ∀ index : Fin HOLD_PENDING_CAPACITY,
      k ∈ (s.vault.afterPayment index i.now).knownKeys →
      k ∈ s.vault.knownKeys ∨ k = (s.vault.pending.row index).destination := fun index hmem =>
    HoldVault.mem_knownKeys_remember hmem
  generalize hrecords : o.records = records at h
  generalize hvault : s'.vault = v at h hk
  generalize s'.world = w at h
  cases h with
  | @executed accts id index row _ instr found =>
      obtain hold | rfl := hrow index hk
      · exact .inl hold
      · rw [found.row_eq]
        refine .inr ⟨.inl ⟨_, _, instr⟩, id, holdEntry i.now .paid row.amount row.destination id
          HOLD_REASON_NONE, ?_, rfl, rfl, rfl⟩
        show _ ∈ o.records
        rw [hrecords]
        exact List.mem_singleton_self _
  | @skipped accts id index row _ instr _ _ _ _ found =>
      obtain hold | rfl := hrow index hk
      · exact .inl hold
      · rw [found.row_eq]
        refine .inr ⟨.inr ⟨_, _, instr⟩, id, holdEntry i.now .skipped row.amount row.destination id
          HOLD_REASON_NONE, ?_, rfl, rfl, rfl⟩
        show _ ∈ o.records
        rw [hrecords]
        exact List.mem_singleton_self _
  | _ => exact .inl hk

/-- Every known destination was paid by an executed or skipped row. -/
theorem known_paid {rt : Runtime} {opening : HoldOutput} {s₀ s : HoldState} {h : HoldHistory}
    (hopen : Opens rt opening s₀) (run : Run (HoldStep rt) s₀ h s) {k : Pubkey}
    (hk : s.vault.isKnown k) : ∃ E ∈ h, HoldTransition.PaysRow E k := by
  revert hk
  refine run.carries (P := fun h (s : HoldState) => k ∈ s.vault.knownKeys →
    ∃ E ∈ h, HoldTransition.PaysRow E k) ?_ ?_
  · intro hk
    obtain ⟨-, accts, args, bump, tokenBump, ledgerBump, hvault⟩ := hopen.fresh
    rw [hvault] at hk
    simp [freshVault, HoldVault.knownKeys] at hk
  · intro h s i o s' _ ih hstep hk
    have heff : HoldEffect rt s i o.records s'.vault s'.world := hstep.stepEffect.effect
    obtain hold | hpays := HoldEffect.known (T := ⟨s, i, o, s'⟩) heff hk
    · obtain ⟨E, hE, hpays⟩ := ih hold
      exact ⟨E, List.mem_cons_of_mem _ hE, hpays⟩
    · exact ⟨_, List.mem_cons_self, hpays⟩

/-- **Known destinations.**  An instant payment goes to an address that an
earlier `execute` or `skip` paid.  The first payment to an address, `recover`
apart, is an `execute` that comes the full delay after the owner's withdrawal of
the very row, or a `skip` signed by two different keys, the owner and the
guardian in force. -/
theorem known_destinations {rt : Runtime} {opening : HoldOutput} {s₀ s : HoldState}
    {h newer older : HoldHistory} {T : HoldTransition} (hopen : Opens rt opening s₀)
    (run : Run (HoldStep rt) s₀ h s) (hsplit : h = newer ++ T :: older) :
    (∀ accts amount, T.PaysInstantly accts amount →
      ∃ E ∈ older, HoldTransition.PaysRow E accts.out.destination) ∧
    (∀ destination id, T.Pays destination id →
      (∀ E ∈ older, ∀ id', ¬ HoldTransition.Pays E destination id') →
      (∃ accts H row, T.input.instr = .execute accts id ∧ H ∈ older ∧
          HoldTransition.Holds H row ∧ row.id = id ∧ row.destination = destination ∧
          H.input.clock + H.pre.vault.delaySecs.toInt ≤ T.input.clock) ∨
        (∃ accts, T.input.instr = .skip accts id) ∧ T.pre.vault.owner ∈ T.input.signers ∧
          T.pre.vault.guardian ∈ T.input.signers ∧ T.pre.vault.guardian ≠ T.pre.vault.owner) := by
  subst hsplit
  obtain ⟨before, hstep, -⟩ := run.split
  have heff := hstep.stepEffect.effect
  constructor
  · rintro accts amount ⟨hinstr, e, he, hkind⟩
    obtain ⟨-, hpayment⟩ := heff.payment he hkind
    obtain ⟨-, -, hrules⟩ := hpayment.of_withdraw hinstr
    exact known_paid hopen before hrules.known
  · rintro destination id ⟨e, he, hkind, hdestination, hid⟩ hfirst
    obtain ⟨-, hpayment⟩ := heff.payment he hkind
    cases hpayment with
    | instant _ _ _ rules =>
        -- an instant payment goes to an address that was paid before
        obtain ⟨E, hE, -, id', hpays⟩ := known_paid hopen before rules.known
        rw [← hdestination] at hfirst
        exact absurd hpays (hfirst E hE id')
    | @executed accts id' index row _ instr found _ unlocked =>
        have hrow := rows_held hopen before index
        rw [found.row_eq] at hrow
        obtain ⟨H, hH, hholds⟩ := hrow found.pending
        have hunlock := hholds.unlock
        rw [Int64.le_iff_toInt_le, hunlock] at unlocked
        refine .inl ⟨accts, H, row, ?_, hH, hholds, ?_, hdestination, unlocked⟩
        · rw [instr, ← hid]
          rfl
        · rw [found.id_eq, ← hid]
          rfl
    | @skipped accts id' _ _ _ instr signed _ cosigned distinct =>
        refine .inr ⟨⟨accts, ?_⟩, signed, cosigned, distinct⟩
        rw [instr, ← hid]
        rfl

/-- In the sample run the instant payment goes where the executed row went. -/
theorem known_destinations_sample :
    ∃ E ∈ instantHistory.tail, HoldTransition.PaysRow E 11 :=
  (known_destinations instantRun_opens instantRun_run instantHistory_split).1 _ _
    instantHistory_paid

end Veto

import Veto.Hold.Rows
import Veto.Hold.Window

/-!
# The life of a held withdrawal

Ids are given out once, a row is paid at most once and as it was held, and
nothing that waited before a `recover` is paid after it.
-/

namespace Veto

open Foundation

theorem HoldEffect.cleared_of_recover {rt : Runtime} {s : HoldState} {i : HoldInput}
    {records : List HoldEntry} {v : HoldVault} {w : World} (h : HoldEffect rt s i records v w)
    {accts : Recover} (hinstr : i.instr = .recover accts) :
    v.pending = Vector.replicate HOLD_PENDING_CAPACITY .default ∧
      v.nextWithdrawalId = s.vault.nextWithdrawalId := by
  cases h with
  | recovered => exact ⟨rfl, rfl⟩
  | _ => simp_all

/-- No id that waited before a recover is paid or stopped after it. -/
theorem not_paid_after_recover {rt : Runtime} {opening : HoldOutput} {s₀ s : HoldState}
    {h newer older : HoldHistory} {T : HoldTransition} (hopen : Opens rt opening s₀)
    (run : Run (HoldStep rt) s₀ h s) (hsplit : h = newer ++ T :: older) {accts : Recover}
    (hinstr : T.input.instr = .recover accts) {j : Fin HOLD_PENDING_CAPACITY}
    (hj : (T.pre.vault.pending.row j).status = .pending) :
    (T.pre.vault.pending.row j).id ∉ idsOf HoldEntry.endsRow (written newer) := by
  subst hsplit
  obtain ⟨before, hstep, after⟩ := run.split
  have hbefore := desk_of_opens hopen before
  obtain ⟨hcleared, hnext⟩ := hstep.stepEffect.effect.cleared_of_recover hinstr
  have hpos : 0 < T.post.vault.nextWithdrawalId := by
    rw [hnext]
    exact UInt64.lt_iff_toNat_lt.mpr hbefore.first_le
  -- a recover leaves an empty desk, so every id ended after it is one given out after it
  have hafter := desk_of_run hpos (fun k => by rw [hcleared]; simp [PendingWithdrawal.default])
    after
  intro hmem
  obtain ⟨e, he, hid⟩ := List.mem_map.mp hmem
  obtain ⟨hwritten, hends⟩ := List.mem_filter.mp he
  have hge := (held_of_ended hafter hwritten hends).1
  have hlt := (row_range hbefore hj).2
  rw [hnext, hid] at hge
  rw [UInt64.lt_iff_toNat_lt] at hlt
  omega

/-- A withdrawal refused because every row is taken leaves the vault as it was. -/
theorem HoldEffect.refused_full {rt : Runtime} {s : HoldState} {i : HoldInput}
    {records : List HoldEntry} {v : HoldVault} {w : World} (h : HoldEffect rt s i records v w)
    {e : HoldEntry} (he : e ∈ records) (hkind : e.kind = .refused) :
    v = s.vault := by
  have hne : e.kind ≠ .changeApplied := by
    rw [hkind]
    exact HoldKind.noConfusion
  cases h with
  | tightened => exact absurd he (not_mem_tightenOutput hne)
  | proposed =>
      rcases List.mem_append.mp he with he | he
      · exact absurd he (not_mem_tightenOutput hne)
      · rw [List.mem_singleton] at he
        subst he
        cases hkind
  | refused => rfl
  | outside => rfl
  | deposited => rfl
  | _ =>
      rw [List.mem_singleton] at he
      subst he
      cases hkind

/-- **The life of a held withdrawal.**  In every run of a vault: held ids
strictly increase; the waiting rows have distinct ids below the next one; an id
is paid at most once, and as its hold record says; it is executed, stopped or
skipped at most once; nothing that waited before a recover is paid after it;
and a withdrawal refused because the list is full changes nothing in the vault. -/
theorem withdrawal_lifecycle {rt : Runtime} {opening : HoldOutput} {s₀ s : HoldState}
    {h : HoldHistory} (hopen : Opens rt opening s₀) (run : Run (HoldStep rt) s₀ h s) :
    (idsOf HoldEntry.holdsRow (written h)).Pairwise (· > ·) ∧
    (∀ j : Fin HOLD_PENDING_CAPACITY, (s.vault.pending.row j).status = .pending →
      0 < (s.vault.pending.row j).id ∧ (s.vault.pending.row j).id < s.vault.nextWithdrawalId) ∧
    (∀ j k : Fin HOLD_PENDING_CAPACITY, (s.vault.pending.row j).status = .pending →
      (s.vault.pending.row k).status = .pending → j ≠ k →
      (s.vault.pending.row j).id ≠ (s.vault.pending.row k).id) ∧
    (idsOf HoldEntry.paysRow (written h)).Nodup ∧
    (∀ e ∈ written h, e.paysRow = true →
      ∃ e' ∈ written h, e'.kind = .held ∧ e'.withdrawalId = e.withdrawalId ∧
        e'.amount = e.amount ∧ e'.destination = e.destination) ∧
    (idsOf HoldEntry.endsRow (written h)).Nodup ∧
    (∀ newer T older accts, h = newer ++ T :: older → T.input.instr = .recover accts →
      ∀ j : Fin HOLD_PENDING_CAPACITY, (T.pre.vault.pending.row j).status = .pending →
        (T.pre.vault.pending.row j).id ∉ idsOf HoldEntry.paysRow (written newer)) ∧
    (∀ T ∈ h, ∀ e ∈ T.output.records, e.kind = .refused →
      e.reason = HOLD_REASON_PENDING_FULL → T.post.vault = T.pre.vault) := by
  have hdesk := desk_of_opens hopen run
  refine ⟨pairwise_held hdesk, ?_, ?_, ?_, ?_, nodup_ended hdesk, ?_, ?_⟩
  · intro j hj
    obtain ⟨hge, hlt⟩ := row_range hdesk hj
    exact ⟨UInt64.lt_iff_toNat_lt.mpr hge, hlt⟩
  · intro j k hj hk hne heq
    exact hne (row_apart hdesk hj hk heq)
  · exact (nodup_ended hdesk).sublist (idsOf_paysRow_sublist _)
  · intro e he hpays
    exact (held_of_ended hdesk he (HoldEntry.endsRow_of_paysRow hpays)).2
  · intro newer T older accts hsplit hinstr j hj hmem
    exact not_paid_after_recover hopen run hsplit hinstr hj
      ((idsOf_paysRow_sublist _).subset hmem)
  · intro T hT e he hkind _
    exact (effect_of_mem run hT).refused_full he hkind

/-- In the sample run the one held id, 1, is paid, and 1 is below the next id. -/
theorem withdrawal_lifecycle_sample :
    idsOf HoldEntry.holdsRow (written instantHistory) = [1] ∧
      idsOf HoldEntry.paysRow (written instantHistory) = [1] ∧
      (idsOf HoldEntry.paysRow (written instantHistory)).Nodup :=
  ⟨by decide, by decide,
    (withdrawal_lifecycle instantRun_opens instantRun_run).2.2.2.1⟩

end Veto

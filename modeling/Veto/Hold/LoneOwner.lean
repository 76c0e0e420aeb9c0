import Veto.Hold.StolenKey

/-!
# A vault without a guardian

Without a guardian the owner has to wait out the delay, but only as long as no
guardian is set: a first guardian is set at once, by the owner alone, and the
two keys together skip and unfreeze without a wait.
-/

namespace Veto

open Foundation

/-- The waits of a vault are kept in `after`, a history that continues `before`:
no held withdrawal is paid before its unlock time, and no freeze is cleared
before a wait that was scheduled in the same freeze has passed. -/
structure WaitsOut (before after : HoldHistory) : Prop where
  unlocked : ∀ T ∈ after, ∀ j : Fin HOLD_PENDING_CAPACITY,
    (T.pre.vault.pending.row j).status = .pending →
    (∃ e ∈ T.output.records, e.kind.isPayment = true ∧
      e.withdrawalId = (T.pre.vault.pending.row j).id) →
    (T.pre.vault.pending.row j).unlockAt ≤ T.input.now
  scheduled : ∀ newer T older, after = newer ++ T :: older → HoldTransition.Clears T →
    ∃ unfreezeAt, ScheduledIn (older ++ before) unfreezeAt ∧ unfreezeAt ≤ T.input.now

/-- The step is not a proposal that names a guardian. -/
def NamesNoGuardian (i : HoldInput) : Prop :=
  ∀ accts values, i.instr = .proposeChange accts values → values.guardian = Pubkey.default

/-- No guardian is set, and the change that waits, if any, does not set one. -/
structure NoGuardian (s : HoldState) : Prop where
  none : s.vault.guardian = Pubkey.default
  change : s.vault.change.active = true → s.vault.change.fields &&& CHANGE_GUARDIAN = 0

/-- A proposal that names no guardian, where none is set, does not touch the guardian. -/
theorem loosen_guardian_eq_zero {v : HoldVault} {values : HoldChange}
    (hnone : v.guardian = Pubkey.default) (hvalues : values.guardian = Pubkey.default) :
    values.loosen v &&& CHANGE_GUARDIAN = 0 := by
  by_contra hbit
  unfold HoldChange.loosen at hbit
  rw [← ne_eq, changeMask_guardian, decide_eq_true_eq] at hbit
  exact hbit.1 (hvalues.trans hnone.symm)

theorem NoGuardian.step {rt : Runtime} {s s' : HoldState} {i : HoldInput} {o : HoldOutput}
    (h : NoGuardian s) (hstep : HoldStep rt s i o s') (hi : NamesNoGuardian i) :
    NoGuardian s' := by
  have heff := hstep.stepEffect.effect
  have htighten : ∀ accts values, i.instr = .proposeChange accts values →
      (s.vault.applyTighten (values.tighten s.vault) values).guardian = Pubkey.default := by
    intro accts values hinstr
    rw [HoldVault.applyTighten_guardian]
    split
    · exact hi accts values hinstr
    · exact h.none
  constructor
  · generalize o.records = records at heff
    generalize s'.vault = v at heff ⊢
    generalize s'.world = w at heff
    cases heff with
    | applied _ active =>
        show (if _ then _ else _) = _
        rw [if_neg (not_not.mpr (h.change active))]
        exact h.none
    | tightened instr => exact htighten _ _ instr
    | proposed instr => exact htighten _ _ instr
    | _ => exact h.none
  · intro hactive
    obtain ⟨hsame, -⟩ | ⟨-, -, -, values, hqueues⟩ | ⟨hdefault, -⟩ :=
      StepEffect.change (T := ⟨s, i, o, s'⟩) hstep.stepEffect
    · have hsame' : s'.vault.change = s.vault.change := hsame
      rw [hsame'] at hactive ⊢
      exact h.change hactive
    · obtain ⟨accts, hinstr⟩ := hqueues.instr
      obtain ⟨effectiveAt, hchange, -⟩ := hqueues.change_eq
      have hfields : s'.vault.change.fields = values.loosen s.vault :=
        congrArg PendingChange.fields hchange
      rw [hfields]
      exact loosen_guardian_eq_zero h.none (hi accts values hinstr)
    · have hdefault' : s'.vault.change = .default := hdefault
      rw [hdefault'] at hactive
      cases hactive

theorem NoGuardian.run {rt : Runtime} {s₁ s : HoldState} {h : HoldHistory}
    (start : NoGuardian s₁) (run : Run (HoldStep rt) s₁ h s)
    (hnames : ∀ T ∈ h, NamesNoGuardian T.input) : NoGuardian s := by
  revert hnames
  refine run.carries (P := fun h (s : HoldState) =>
    (∀ T ∈ h, NamesNoGuardian T.input) → NoGuardian s) (fun _ => start) ?_
  intro h s i o s' _ ih hstep hnames
  exact (ih fun T hT => hnames T (List.mem_cons_of_mem _ hT)).step hstep
    (hnames _ List.mem_cons_self)

/-- **A vault without a guardian.**  From a reachable state with no guardian and
no pending change, every run in which no proposal names a guardian keeps the
waits: no held withdrawal is paid before its unlock time, and no freeze is
cleared before the delay that was in force when its unfreeze was scheduled. -/
theorem lone_owner_waits {rt : Runtime} {opening : HoldOutput} {s₀ s₁ s : HoldState}
    {before after : HoldHistory} (hopen : Opens rt opening s₀)
    (reach : Run (HoldStep rt) s₀ before s₁) (hnone : s₁.vault.guardian = Pubkey.default)
    (hidle : s₁.vault.change.active = false) (run : Run (HoldStep rt) s₁ after s)
    (hnames : ∀ T ∈ after, NamesNoGuardian T.input) : WaitsOut before after := by
  have hstart : NoGuardian s₁ := by
    refine ⟨hnone, fun hactive => ?_⟩
    rw [hidle] at hactive
    cases hactive
  have hat : ∀ newer T older, after = newer ++ T :: older →
      Run (HoldStep rt) s₀ (older ++ before) T.pre ∧ HoldStep rt T.pre T.input T.output T.post ∧
        T.pre.vault.guardian = Pubkey.default := by
    rintro newer T older rfl
    obtain ⟨run', hstep, -⟩ := run.split
    have hpre := hstart.run run' fun E hE =>
      hnames E (List.mem_append_right _ (List.mem_cons_of_mem _ hE))
    exact ⟨reach.append run', hstep, hpre.none⟩
  constructor
  · rintro T hT j hj ⟨e, he, hkind, hid⟩
    obtain ⟨newer, older, hsplit⟩ := List.append_of_mem hT
    obtain ⟨run', hstep, hpre⟩ := hat newer T older hsplit
    have hdesk := desk_of_opens hopen run'
    obtain ⟨-, hpayment⟩ := hstep.stepEffect.effect.payment he hkind
    cases hpayment with
    | instant =>
        have hpos := (row_range hdesk hj).1
        rw [← hid] at hpos
        exact absurd hpos (Nat.not_succ_le_zero 0)
    | @executed accts id k row _ _ found _ unlocked =>
        have hk : (T.pre.vault.pending.row k).status = .pending := by
          rw [found.row_eq]
          exact found.pending
        have hkid : (T.pre.vault.pending.row k).id = (T.pre.vault.pending.row j).id := by
          rw [found.row_eq, found.id_eq, ← hid]
          rfl
        have hkj := row_apart hdesk hk hj hkid
        rw [← hkj, found.row_eq]
        exact unlocked
    | skipped _ _ guarded => exact absurd hpre guarded
  · intro newer T older hsplit hclears
    obtain ⟨run', hstep, hpre⟩ := hat newer T older hsplit
    obtain ⟨hfrozen, hcleared⟩ := hclears
    obtain ⟨hsame, -⟩ | ⟨hlive, -⟩ | ⟨hon, -⟩ | ⟨-, -, -, -, -, hallowed⟩ :=
      StepEffect.freeze hstep.stepEffect
    · rw [hsame, hfrozen] at hcleared
      cases hcleared
    · rw [hfrozen] at hlive
      cases hlive
    · rw [hcleared] at hon
      cases hon
    · rcases hallowed with ⟨hset, -⟩ | ⟨-, harmed, hready⟩
      · exact absurd hpre hset
      · exact ⟨_, (scheduled_of_run hopen run' harmed).2, hready⟩

/-! ### With a guardian of the owner's making -/

section Sample

/-- No guardian; 1000 in the vault, and 40 of it waiting until second 86420. -/
def aloneRun : Except ProgramError (HoldHistory × HoldState) :=
  execAll (HoldState.exec vaultRuntime) []
    (okValue (openSample Pubkey.default) openAlone_ok).2 [fundVault 10 1000, withdrawTo 20 40]

theorem aloneRun_ok : aloneRun.toBool = true := rfl

def aloneHistory : HoldHistory := (okValue aloneRun aloneRun_ok).1

def aloneState : HoldState := (okValue aloneRun aloneRun_ok).2

theorem aloneRun_run : Run (HoldStep vaultRuntime)
    (okValue (openSample Pubkey.default) openAlone_ok).2 aloneHistory aloneState :=
  run_okValue aloneRun_ok

/-- The owner waits, and executes the row when it is ready. -/
def patientRun : Except ProgramError (HoldHistory × HoldState) :=
  execAll (HoldState.exec vaultRuntime) [] aloneState [executeTo 86420 1]

theorem patientRun_ok : patientRun.toBool = true := rfl

def patientHistory : HoldHistory := (okValue patientRun patientRun_ok).1

theorem patientHistory_ne_nil : patientHistory ≠ [] :=
  okValue_ne_nil patientRun_ok (List.cons_ne_nil _ _)

/-- In the sample run the row is paid, at its unlock time. -/
theorem lone_owner_waits_sample :
    WaitsOut aloneHistory patientHistory ∧ aloneState.vault.guardian = Pubkey.default := by
  have hnone : aloneState.vault.guardian = Pubkey.default := by decide
  have hidle : aloneState.vault.change.active = false := by decide
  have run : Run (HoldStep vaultRuntime) aloneState patientHistory _ :=
    run_okValue patientRun_ok
  have hnames : ∀ T ∈ patientHistory, NamesNoGuardian T.input := by
    have hone : patientHistory = [patientHistory.head patientHistory_ne_nil] := rfl
    intro T hT accts values hinstr
    rw [hone, List.mem_singleton] at hT
    rw [hT] at hinstr
    exact absurd hinstr HoldInstr.noConfusion
  exact ⟨lone_owner_waits openAlone_opens aloneRun_run hnone hidle run hnames, hnone⟩

/-- The owner names key 9 as the guardian, and the two skip the wait ten seconds later. -/
def hastyRun : Except ProgramError (HoldHistory × HoldState) :=
  execAll (HoldState.exec vaultRuntime) [] aloneState
    [proposeValues 30 ⟨100, HOLD_DELAY_1_DAY, 2500, 9, 5⟩,
      { now := 40, signers := [1, 9],
        instr := .skip { owner := 1, guardian := 9, out := payoutTo 11 } 1 }]

theorem hastyRun_ok : hastyRun.toBool = true := rfl

def hastyHistory : HoldHistory := (okValue hastyRun hastyRun_ok).1

theorem hastyHistory_ne_nil : hastyHistory ≠ [] :=
  okValue_ne_nil hastyRun_ok (List.cons_ne_nil _ _)

/-- A lone owner does not have to wait: with no guardian set and no change
pending, and no signature but the owner's and a fresh key's, a withdrawal held at
second 20 for a day is paid at second 40. -/
theorem lone_owner_skips_wait :
    ∃ opening s₀ s₁ s before after, Opens vaultRuntime opening s₀ ∧
      Run (HoldStep vaultRuntime) s₀ before s₁ ∧ s₁.vault.guardian = Pubkey.default ∧
      s₁.vault.change.active = false ∧ Run (HoldStep vaultRuntime) s₁ after s ∧
      Nondecreasing HoldInput.clock (after ++ before) ∧
      (∀ T ∈ after, s₁.vault.safeAddress ∉ T.input.signers) ∧ ¬ WaitsOut before after := by
  refine ⟨_, _, aloneState, _, aloneHistory, hastyHistory, openAlone_opens, aloneRun_run,
    by decide, by decide, run_okValue hastyRun_ok,
    by decide, by decide, ?_⟩
  intro hwaits
  have hearly := hwaits.unlocked (hastyHistory.head hastyHistory_ne_nil) (List.head_mem _)
    ⟨0, by decide⟩ (by decide) (by decide)
  revert hearly
  decide

end Sample

end Veto

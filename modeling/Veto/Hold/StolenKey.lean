import Veto.Hold.Change
import Veto.Hold.Freeze
import Veto.Hold.Known

/-!
# A stolen key

What a thief can reach with one of the two keys.  With the guardian key only,
nothing new can start; with the owner key only, and before the delay has
passed, nothing can be loosened and no new withdrawal can leave.
-/

namespace Veto

open Foundation

/-- An executed row that was waiting in `s₁`, paid to its destination after its unlock time. -/
def HoldTransition.PaysWaiting (T : HoldTransition) (s₁ : HoldState) : Prop :=
  ∃ accts, ∃ j : Fin HOLD_PENDING_CAPACITY, (s₁.vault.pending.row j).status = .pending ∧
    T.input.instr = .execute accts (s₁.vault.pending.row j).id ∧
    (s₁.vault.pending.row j).unlockAt ≤ T.input.now ∧
    T.Releases (s₁.vault.pending.row j).destination (s₁.vault.pending.row j).amount

def HoldTransition.RecoversTo (T : HoldTransition) (safe : Pubkey) : Prop :=
  ∃ accts amount, T.input.instr = .recover accts ∧
    T.pre.world.tokenOwner accts.out.destination = some safe ∧
    T.Releases accts.out.destination amount

/-! ## The guardian key -/

def HoldVault.rules (v : HoldVault) : HoldChange :=
  { dailyLimit := v.dailyLimit, delaySecs := v.delaySecs, bigShareBps := v.bigShareBps,
    guardian := v.guardian, safeAddress := v.safeAddress }

/-- Without the owner, only `apply_change` touches the rules. -/
theorem HoldEffect.rules_unsigned {rt : Runtime} {s : HoldState} {i : HoldInput}
    {records : List HoldEntry} {v : HoldVault} {w : World} (h : HoldEffect rt s i records v w)
    (hsilent : s.vault.owner ∉ i.signers) (hrules : v.rules ≠ s.vault.rules) :
    (∃ accts, i.instr = .applyChange accts) ∧ s.vault.change.active = true ∧
      s.vault.change.effectiveAt ≤ i.now ∧ v = s.vault.applyPending s.vault.change := by
  cases h with
  | applied instr active ready => exact ⟨⟨_, instr⟩, active, ready, rfl⟩
  | tightened _ signed => exact absurd signed hsilent
  | proposed _ signed => exact absurd signed hsilent
  | _ => exact absurd rfl hrules

/-- What a run without the owner has kept of the state it started in. -/
structure NothingNew (s₁ s : HoldState) : Prop where
  owner : s.vault.owner = s₁.vault.owner
  rows : ∀ j : Fin HOLD_PENDING_CAPACITY, (s.vault.pending.row j).status = .pending →
    s.vault.pending.row j = s₁.vault.pending.row j
  change : s.vault.change.active = true → s.vault.change = s₁.vault.change

theorem NothingNew.step {rt : Runtime} {s₁ s s' : HoldState} {i : HoldInput} {o : HoldOutput}
    (h : NothingNew s₁ s) (hstep : HoldStep rt s i o s') (hsilent : s₁.vault.owner ∉ i.signers) :
    NothingNew s₁ s' := by
  have hsigned : s.vault.owner ∉ i.signers := by
    rw [h.owner]
    exact hsilent
  constructor
  · have hidentity := hstep.stepEffect.effect.identity_eq
    exact (congrArg VaultIdentity.owner hidentity).trans h.owner
  · intro j hj
    obtain hsame | hholds := hstep.stepEffect.effect.row_origin hj
    · rw [hsame] at hj ⊢
      exact h.rows j hj
    · exact absurd hholds.signed hsigned
  · intro hactive
    obtain ⟨hsame, -⟩ | ⟨-, -, -, values, hqueues⟩ | ⟨hdefault, -⟩ :=
      StepEffect.change (T := ⟨s, i, o, s'⟩) hstep.stepEffect
    · have hsame' : s'.vault.change = s.vault.change := hsame
      rw [hsame'] at hactive ⊢
      exact h.change hactive
    · exact absurd hqueues.signed hsigned
    · have hdefault' : s'.vault.change = .default := hdefault
      rw [hdefault'] at hactive
      cases hactive

theorem NothingNew.run {rt : Runtime} {s₁ s : HoldState} {h : HoldHistory}
    (run : Run (HoldStep rt) s₁ h s) (hsilent : ∀ T ∈ h, s₁.vault.owner ∉ T.input.signers) :
    NothingNew s₁ s := by
  revert hsilent
  refine run.carries (P := fun h (s : HoldState) =>
    (∀ T ∈ h, s₁.vault.owner ∉ T.input.signers) → NothingNew s₁ s)
    (fun _ => ⟨rfl, fun _ _ => rfl, fun _ => rfl⟩) ?_
  intro h s i o s' _ ih hstep hsilent
  exact (ih fun T hT => hsilent T (List.mem_cons_of_mem _ hT)).step hstep
    (hsilent _ List.mem_cons_self)

/-- **A stolen guardian key.**  In a run the owner never signs, from any state
of a vault: the pending list gains no row and no change becomes pending; the
rules change only by an `apply_change` of the change that was pending at the
start, at or after its time; and tokens leave only by an `execute` of a row that
was pending at the start, to its destination at or after its unlock time, or by
a `recover` to a token account of the safe address in force. -/
theorem stolen_guardian_key {rt : Runtime} {s₁ s : HoldState} {h : HoldHistory}
    (hclassic : rt.token.ClassicTransfer) (run : Run (HoldStep rt) s₁ h s)
    (hsilent : ∀ T ∈ h, s₁.vault.owner ∉ T.input.signers) :
    (∀ j : Fin HOLD_PENDING_CAPACITY, (s.vault.pending.row j).status = .pending →
      s.vault.pending.row j = s₁.vault.pending.row j) ∧
    (s.vault.change.active = true → s.vault.change = s₁.vault.change) ∧
    (∀ T ∈ h, T.post.vault.rules ≠ T.pre.vault.rules →
      (∃ accts, T.input.instr = .applyChange accts) ∧ s₁.vault.change.active = true ∧
        s₁.vault.change.effectiveAt ≤ T.input.now ∧
        T.post.vault = T.pre.vault.applyPending s₁.vault.change) ∧
    (∀ T ∈ h, HoldTransition.IsInstruction T → HoldTransition.Drains T →
      HoldTransition.PaysWaiting T s₁ ∨
        HoldTransition.RecoversTo T T.pre.vault.safeAddress) := by
  have hend := NothingNew.run run hsilent
  -- what the start state says about the state before each transition
  have hat : ∀ T ∈ h, NothingNew s₁ T.pre ∧ T.pre.vault.owner ∉ T.input.signers := by
    intro T hT
    obtain ⟨newer, older, rfl, before, -, -⟩ := run.of_mem hT
    have hpre := NothingNew.run before fun E hE =>
      hsilent E (List.mem_append_right _ (List.mem_cons_of_mem _ hE))
    refine ⟨hpre, ?_⟩
    rw [hpre.owner]
    exact hsilent T hT
  refine ⟨hend.rows, hend.change, ?_, ?_⟩
  · intro T hT hrules
    obtain ⟨hpre, hsigned⟩ := hat T hT
    obtain ⟨hinstr, hactive, hready, hvault⟩ := (effect_of_mem run hT).rules_unsigned hsigned hrules
    have hchange := hpre.change hactive
    rw [hchange] at hactive hready hvault
    exact ⟨hinstr, hactive, hready, hvault⟩
  · intro T hT hinstr hdrain
    obtain ⟨hpre, hsigned⟩ := hat T hT
    have heff := effect_of_mem run hT
    obtain ⟨e, he, hkind⟩ | ⟨accts, amount, hrecover, hsafe, hpays⟩ :=
      heff.drain hclassic hinstr hdrain
    · obtain ⟨-, hpayment⟩ := heff.payment he hkind
      cases hpayment with
      | instant _ signed => exact absurd signed hsigned
      | @executed accts id j row _ instr found _ unlocked pays =>
          have hrow : s₁.vault.pending.row j = row := by
            rw [← hpre.rows j (by rw [found.row_eq]; exact found.pending), found.row_eq]
          refine .inl ⟨accts, j, ?_⟩
          rw [hrow, found.id_eq]
          exact ⟨found.pending, instr, unlocked, pays.moved hclassic⟩
      | skipped _ signed => exact absurd signed hsigned
    · exact .inr ⟨accts, amount, hrecover, hsafe, hpays.moved hclassic⟩

/-! ### A vault with one waiting withdrawal -/

section Sample

/-- 1000 in the vault, and 40 of it waiting for account 11 until second 86420. -/
def waitingRun : Except ProgramError (HoldHistory × HoldState) :=
  execAll (HoldState.exec vaultRuntime) [] (okValue (openSample 2) openSample_ok).2
    [fundVault 10 1000, withdrawTo 20 40]

theorem waitingRun_ok : waitingRun.toBool = true := rfl

def waitingHistory : HoldHistory := (okValue waitingRun waitingRun_ok).1

def waitingState : HoldState := (okValue waitingRun waitingRun_ok).2

theorem waitingRun_run : Run (HoldStep vaultRuntime) (okValue (openSample 2) openSample_ok).2
    waitingHistory waitingState :=
  run_okValue waitingRun_ok

/-- The guardian alone: the row is executed by anyone, and the rest is recovered. -/
def guardianRun : Except ProgramError (HoldHistory × HoldState) :=
  execAll (HoldState.exec vaultRuntime) [] waitingState
    [executeTo 86420 1,
      { now := 86430, signers := [2], instr := .recover { authority := 2, out := payoutTo 12 } }]

theorem guardianRun_ok : guardianRun.toBool = true := rfl

def guardianHistory : HoldHistory := (okValue guardianRun guardianRun_ok).1

theorem guardianHistory_ne_nil : guardianHistory ≠ [] :=
  okValue_ne_nil guardianRun_ok (List.cons_ne_nil _ _)

/-- In the sample run 40 go to account 11 and 960 to the account of the safe address. -/
theorem stolen_guardian_key_sample :
    let T := guardianHistory.head guardianHistory_ne_nil
    T.pre.balance = 960 ∧ (HoldTransition.PaysWaiting T waitingState ∨
      HoldTransition.RecoversTo T T.pre.vault.safeAddress) := by
  have run : Run (HoldStep vaultRuntime) waitingState guardianHistory _ :=
    run_okValue guardianRun_ok
  have hsilent : ∀ T ∈ guardianHistory, waitingState.vault.owner ∉ T.input.signers := by
    decide
  have hinstr : HoldTransition.IsInstruction
      (guardianHistory.head guardianHistory_ne_nil) := by
    intro w
    show HoldInstr.recover _ ≠ _
    exact HoldInstr.noConfusion
  have hdrain : HoldTransition.Drains (guardianHistory.head guardianHistory_ne_nil) := by
    show _ < _
    decide
  exact ⟨by decide, (stolen_guardian_key classicToken_transfers run hsilent).2.2.2 _
    (List.head_mem _) hinstr hdrain⟩

end Sample

/-! ## The owner key -/

/-- The guardian of `s₁` does not sign, and the delay of `s₁` has not passed since `t₀`. -/
structure BeforeDelay (s₁ : HoldState) (t₀ : Int) (i : HoldInput) : Prop where
  silent : s₁.vault.guardian ∉ i.signers
  since : t₀ ≤ i.clock
  early : i.clock < t₀ + s₁.vault.delaySecs.toInt

/-- What a run without the guardian has kept, before the delay has passed: no
rule is looser, and whatever was started since waits until after it. -/
structure Protected (s₁ : HoldState) (t₀ : Int) (s : HoldState) : Prop where
  daily : s.vault.dailyLimit ≤ s₁.vault.dailyLimit
  share : s.vault.bigShareBps ≤ s₁.vault.bigShareBps
  delay : s₁.vault.delaySecs ≤ s.vault.delaySecs
  guardian : s.vault.guardian = s₁.vault.guardian
  safe : s.vault.safeAddress = s₁.vault.safeAddress
  change : s.vault.change.active = true →
    t₀ + s₁.vault.delaySecs.toInt ≤ s.vault.change.effectiveAt.toInt
  rows : ∀ j : Fin HOLD_PENDING_CAPACITY, (s.vault.pending.row j).status = .pending →
    s.vault.pending.row j = s₁.vault.pending.row j ∨
      t₀ + s₁.vault.delaySecs.toInt ≤ (s.vault.pending.row j).unlockAt.toInt

theorem Protected.start {s₁ : HoldState} (hidle : s₁.vault.change.active = false) (t₀ : Int) :
    Protected s₁ t₀ s₁ where
  daily := UInt64.le_refl _
  share := UInt16.le_refl _
  delay := Int64.le_refl _
  guardian := rfl
  safe := rfl
  change := by
    intro hactive
    rw [hidle] at hactive
    cases hactive
  rows _ _ := .inl rfl

theorem Protected.step {rt : Runtime} {s₁ s s' : HoldState} {t₀ : Int} {i : HoldInput}
    {o : HoldOutput} (h : Protected s₁ t₀ s) (hset : s₁.vault.guardian ≠ Pubkey.default)
    (hstep : HoldStep rt s i o s') (hi : BeforeDelay s₁ t₀ i) : Protected s₁ t₀ s' := by
  have heff := hstep.stepEffect.effect
  have hearly := hi.early
  have hsince := hi.since
  have hdelay := h.delay
  rw [Int64.le_iff_toInt_le] at hdelay
  -- a change cannot be applied yet
  have happly : ∀ accts, i.instr ≠ .applyChange accts := by
    intro accts hinstr
    obtain ⟨hactive, hready, -⟩ := heff.of_applyChange hinstr
    have hwait := h.change hactive
    have hle := Int64.le_iff_toInt_le.mp hready
    have hclock : i.clock = i.now.toInt := rfl
    omega
  have htight := heff.tighter happly
  have hlonger := htight.delay
  rw [Int64.le_iff_toInt_le] at hlonger
  constructor
  · exact UInt64.le_trans htight.daily h.daily
  · exact UInt16.le_trans htight.share h.share
  · exact Int64.le_trans h.delay htight.delay
  · rcases htight.guardian with hsame | hnone
    · exact hsame.trans h.guardian
    · rw [h.guardian] at hnone
      exact absurd hnone hset
  · exact htight.safe.trans h.safe
  · intro hactive
    obtain ⟨hsame, -⟩ | ⟨-, -, -, values, hqueues⟩ | ⟨hdefault, -⟩ :=
      StepEffect.change (T := ⟨s, i, o, s'⟩) hstep.stepEffect
    · have hsame' : s'.vault.change = s.vault.change := hsame
      rw [hsame'] at hactive ⊢
      exact h.change hactive
    · obtain ⟨effectiveAt, hchange, heffective⟩ := hqueues.change_eq
      have hchange' : s'.vault.change.effectiveAt = effectiveAt :=
        congrArg PendingChange.effectiveAt hchange
      have heffective' : effectiveAt.toInt = i.clock + s'.vault.delaySecs.toInt := heffective
      rw [hchange', heffective']
      omega
    · have hdefault' : s'.vault.change = .default := hdefault
      rw [hdefault'] at hactive
      cases hactive
  · intro j hj
    obtain hsame | hholds := heff.row_origin hj
    · rw [hsame] at hj ⊢
      exact h.rows j hj
    · have hunlock := hholds.unlock
      have hclock : i.clock = i.now.toInt := rfl
      right
      omega

/-- Without the guardian a freeze is not cleared. -/
theorem Protected.frozen_step {rt : Runtime} {s₁ s s' : HoldState} {t₀ : Int} {i : HoldInput}
    {o : HoldOutput} (h : Protected s₁ t₀ s) (hset : s₁.vault.guardian ≠ Pubkey.default)
    (hstep : HoldStep rt s i o s') (hi : BeforeDelay s₁ t₀ i) (hfrozen : s.vault.frozen = true) :
    s'.vault.frozen = true := by
  have hcases := StepEffect.freeze (T := ⟨s, i, o, s'⟩) hstep.stepEffect
  simp only at hcases
  obtain ⟨hsame, -⟩ | ⟨hlive, -⟩ | ⟨hon, -⟩ | ⟨-, -, -, -, -, hallowed⟩ := hcases
  · exact hsame.trans hfrozen
  · rw [hfrozen] at hlive
    cases hlive
  · exact hon
  · rw [h.guardian] at hallowed
    rcases hallowed with ⟨-, hcosigned, -⟩ | ⟨hnone, -⟩
    · exact absurd hcosigned hi.silent
    · exact absurd hnone hset

theorem Protected.run {rt : Runtime} {s₁ s : HoldState} {t₀ : Int} {h : HoldHistory}
    (hset : s₁.vault.guardian ≠ Pubkey.default) (hidle : s₁.vault.change.active = false)
    (run : Run (HoldStep rt) s₁ h s) (hquiet : ∀ T ∈ h, BeforeDelay s₁ t₀ T.input) :
    Protected s₁ t₀ s := by
  revert hquiet
  refine run.carries (P := fun h (s : HoldState) =>
    (∀ T ∈ h, BeforeDelay s₁ t₀ T.input) → Protected s₁ t₀ s) (fun _ => .start hidle t₀) ?_
  intro h s i o s' _ ih hstep hquiet
  exact (ih fun T hT => hquiet T (List.mem_cons_of_mem _ hT)).step hset hstep
    (hquiet _ List.mem_cons_self)

/-- A vault frozen at some point of the run is frozen at its end. -/
theorem frozen_of_run {rt : Runtime} {s₁ s : HoldState} {t₀ : Int} {h : HoldHistory}
    (hset : s₁.vault.guardian ≠ Pubkey.default) (hidle : s₁.vault.change.active = false)
    (run : Run (HoldStep rt) s₁ h s) (hquiet : ∀ T ∈ h, BeforeDelay s₁ t₀ T.input)
    {T : HoldTransition} (hT : T ∈ h)
    (hfrozen : T.pre.vault.frozen = true ∨ T.post.vault.frozen = true) :
    s.vault.frozen = true := by
  revert hquiet hT
  refine run.carries (P := fun h (s : HoldState) =>
    (∀ T ∈ h, BeforeDelay s₁ t₀ T.input) → T ∈ h → s.vault.frozen = true) ?_ ?_
  · intro _ hT
    cases hT
  · intro h s i o s' run ih hstep hquiet hT
    have hquiet' : ∀ E ∈ h, BeforeDelay s₁ t₀ E.input := fun E hE =>
      hquiet E (List.mem_cons_of_mem _ hE)
    have hprotected := Protected.run hset hidle run hquiet'
    have hi := hquiet _ List.mem_cons_self
    rcases List.mem_cons.mp hT with rfl | hT
    · rcases hfrozen with hpre | hpost
      · exact hprotected.frozen_step hset hstep hi hpre
      · exact hpost
    · exact hprotected.frozen_step hset hstep hi (ih hquiet' hT)

/-- An instant payment under the rules, within what really left in the last 24 hours. -/
structure HoldTransition.PaysByRules (T : HoldTransition) (past : HoldHistory)
    (accts : Withdraw) (amount : UInt64) : Prop where
  instr : T.input.instr = .withdraw accts amount
  rules : InstantRules T.pre T.input.now accts.out.destination amount
  released : T.Releases accts.out.destination amount
  within : Nondecreasing HoldInput.clock (T :: past) →
    releasedWithin24h (T :: past) T.input.clock ≤ T.pre.vault.dailyLimit.toNat ∧
      releasedWithin24h (T :: past) T.input.clock ≤
        T.pre.balance * T.pre.vault.bigShareBps.toNat / 10000

/-- **A stolen owner key.**  From a reachable state with a guardian and no
pending change, in a run without the guardian's signature that ends before the
delay has passed: tokens leave only by instant withdrawals under the instant
rules, by an `execute` of a row that was pending at the start and has reached
its unlock time, to its destination, or by a `recover` to a token account of the
safe address; guardian and safe address stay, no limit rises and the delay does
not fall; and a vault frozen at some point stays frozen. -/
theorem stolen_owner_key {rt : Runtime} {opening : HoldOutput} {s₀ s₁ s : HoldState}
    {before after : HoldHistory} {t₀ : Int} (hclassic : rt.token.ClassicTransfer)
    (hopen : Opens rt opening s₀) (reach : Run (HoldStep rt) s₀ before s₁)
    (hset : s₁.vault.guardian ≠ Pubkey.default) (hidle : s₁.vault.change.active = false)
    (run : Run (HoldStep rt) s₁ after s) (hquiet : ∀ T ∈ after, BeforeDelay s₁ t₀ T.input) :
    (∀ newer T older, after = newer ++ T :: older → HoldTransition.IsInstruction T →
      HoldTransition.Drains T →
      (∃ accts amount, HoldTransition.PaysByRules T (older ++ before) accts amount) ∨
        HoldTransition.PaysWaiting T s₁ ∨
        HoldTransition.RecoversTo T s₁.vault.safeAddress) ∧
    (s.vault.guardian = s₁.vault.guardian ∧ s.vault.safeAddress = s₁.vault.safeAddress ∧
      s.vault.dailyLimit ≤ s₁.vault.dailyLimit ∧ s.vault.bigShareBps ≤ s₁.vault.bigShareBps ∧
      s₁.vault.delaySecs ≤ s.vault.delaySecs) ∧
    (∀ T ∈ after, T.pre.vault.frozen = true ∨ T.post.vault.frozen = true →
      s.vault.frozen = true) := by
  have hend := Protected.run hset hidle run hquiet
  refine ⟨?_, ⟨hend.guardian, hend.safe, hend.daily, hend.share, hend.delay⟩, fun T hT hfrozen =>
    frozen_of_run hset hidle run hquiet hT hfrozen⟩
  rintro newer T older rfl hinstr hdrain
  obtain ⟨run', hstep, -⟩ := run.split
  have hquiet' : ∀ E ∈ older, BeforeDelay s₁ t₀ E.input := fun E hE =>
    hquiet E (List.mem_append_right _ (List.mem_cons_of_mem _ hE))
  have hT : BeforeDelay s₁ t₀ T.input := hquiet T (List.mem_append_right _ List.mem_cons_self)
  have hpre := Protected.run hset hidle run' hquiet'
  have heff := hstep.stepEffect.effect
  obtain ⟨e, he, hkind⟩ | ⟨accts, amount, hrecover, hsafe, hpays⟩ :=
    heff.drain hclassic hinstr hdrain
  · obtain ⟨hrecords, hpayment⟩ := heff.payment he hkind
    cases hpayment with
    | @instant accts amount _ instr _ positive rules pays =>
        refine .inl ⟨accts, amount, instr, rules, pays.moved hclassic, fun hclock => ?_⟩
        obtain ⟨hle, holder⟩ := Nondecreasing.cons_iff.mp hclock
        have ht := tracked_of_run hopen (reach.append run') holder
        rw [releasedWithin24h_cons hrecords]
        exact rules.released_le positive ht hle
    | @executed accts id j row _ instr found _ unlocked pays =>
        rcases hpre.rows j (by rw [found.row_eq]; exact found.pending) with hsame | hlate
        · rw [found.row_eq] at hsame
          refine .inr (.inl ⟨accts, j, ?_⟩)
          rw [← hsame, found.id_eq]
          exact ⟨found.pending, instr, unlocked, pays.moved hclassic⟩
        · -- a row held since waits until after the delay
          rw [found.row_eq] at hlate
          have hearly := hT.early
          have hclock : T.input.clock = T.input.now.toInt := rfl
          rw [Int64.le_iff_toInt_le] at unlocked
          omega
    | skipped _ _ _ cosigned =>
        rw [hpre.guardian] at cosigned
        exact absurd cosigned hT.silent
  · rw [hpre.safe] at hsafe
    exact .inr (.inr ⟨accts, amount, hrecover, hsafe, hpays.moved hclassic⟩)

section Sample

/-- The owner alone: a new withdrawal is held, the old row is executed, and 50
go at once to the account it made known. -/
def ownerRun : Except ProgramError (HoldHistory × HoldState) :=
  execAll (HoldState.exec vaultRuntime) [] waitingState
    [withdrawTo 40 30, executeTo 86420 1, withdrawTo 86425 50]

theorem ownerRun_ok : ownerRun.toBool = true := rfl

def ownerHistory : HoldHistory := (okValue ownerRun ownerRun_ok).1

theorem ownerHistory_ne_nil : ownerHistory ≠ [] :=
  okValue_ne_nil ownerRun_ok (List.cons_ne_nil _ _)

theorem ownerHistory_quiet :
    ∀ T ∈ ownerHistory, BeforeDelay waitingState 30 T.input := by
  have hsilent : ∀ T ∈ ownerHistory, waitingState.vault.guardian ∉ T.input.signers := by
    decide
  have hclock : ∀ T ∈ ownerHistory, 30 ≤ T.input.clock ∧
      T.input.clock < 30 + waitingState.vault.delaySecs.toInt := by
    decide
  exact fun T hT => ⟨hsilent T hT, (hclock T hT).1, (hclock T hT).2⟩

/-- In the sample run, which starts at second 30, the last 50 leave under the rules. -/
theorem stolen_owner_key_sample :
    let T := ownerHistory.head ownerHistory_ne_nil
    T.pre.balance = 960 ∧
      ((∃ accts amount, HoldTransition.PaysByRules T (ownerHistory.tail ++ waitingHistory)
          accts amount) ∨
        HoldTransition.PaysWaiting T waitingState ∨
        HoldTransition.RecoversTo T waitingState.vault.safeAddress) := by
  have run : Run (HoldStep vaultRuntime) waitingState ownerHistory _ :=
    run_okValue ownerRun_ok
  have hset : waitingState.vault.guardian ≠ Pubkey.default := by decide
  have hidle : waitingState.vault.change.active = false := by decide
  have hsplit : ownerHistory =
      [] ++ ownerHistory.head ownerHistory_ne_nil :: ownerHistory.tail :=
    (List.cons_head_tail _).symm
  have hinstr : HoldTransition.IsInstruction (ownerHistory.head ownerHistory_ne_nil) := by
    intro w
    show HoldInstr.withdraw _ _ ≠ _
    exact HoldInstr.noConfusion
  have hdrain : HoldTransition.Drains (ownerHistory.head ownerHistory_ne_nil) := by
    show _ < _
    decide
  exact ⟨by decide, (stolen_owner_key classicToken_transfers instantRun_opens
    waitingRun_run hset hidle run ownerHistory_quiet).1 _ _ _ hsplit hinstr hdrain⟩

end Sample

end Veto

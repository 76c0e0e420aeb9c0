import Veto.Hold.Window

/-!
# The change protocol

A looser rule is proposed, waits for the delay, and is applied.  `QueuedBy` ties
the waiting record to the proposal it came from.
-/

namespace Veto

open Foundation

def Loosens (v v' : HoldVault) : Prop :=
  v.dailyLimit < v'.dailyLimit ∨ v.bigShareBps < v'.bigShareBps ∨ v'.delaySecs < v.delaySecs ∨
    (v.guardian ≠ Pubkey.default ∧ v'.guardian ≠ v.guardian) ∨ v'.safeAddress ≠ v.safeAddress

/-- Every rule that changed took the value a proposal named. -/
structure TakesValues (v v' : HoldVault) (values : HoldChange) : Prop where
  daily : v'.dailyLimit = v.dailyLimit ∨ v'.dailyLimit = values.dailyLimit
  delay : v'.delaySecs = v.delaySecs ∨ v'.delaySecs = values.delaySecs
  share : v'.bigShareBps = v.bigShareBps ∨ v'.bigShareBps = values.bigShareBps
  guardian : v'.guardian = v.guardian ∨ v'.guardian = values.guardian
  safe : v'.safeAddress = v.safeAddress ∨ v'.safeAddress = values.safeAddress

theorem Tighter.not_loosens {v v' : HoldVault} (h : Tighter v v') : ¬ Loosens v v' := by
  rintro (hdaily | hshare | hdelay | ⟨hset, hguardian⟩ | hsafe)
  · exact UInt64.not_lt.mpr h.daily hdaily
  · exact UInt16.not_lt.mpr h.share hshare
  · exact Int64.not_lt.mpr h.delay hdelay
  · rcases h.guardian with hsame | hnone
    · exact hguardian hsame
    · exact hset hnone
  · exact hsafe h.safe

/-- Applying a queued proposal takes its values, in the fields that wait. -/
theorem takesValues_applyPending (v : HoldVault) (values : HoldChange) (fields : UInt8)
    (effectiveAt : Int64) :
    TakesValues v (v.applyPending (values.queued fields effectiveAt)) values := by
  constructor
  · show (if _ then _ else _) = _ ∨ (if _ then _ else _) = _
    split
    · exact .inr rfl
    · exact .inl rfl
  · show (if _ then _ else _) = _ ∨ (if _ then _ else _) = _
    split
    · exact .inr rfl
    · exact .inl rfl
  · show (if _ then _ else _) = _ ∨ (if _ then _ else _) = _
    split
    · exact .inr rfl
    · exact .inl rfl
  · show (if _ then _ else _) = _ ∨ (if _ then _ else _) = _
    split
    · exact .inr rfl
    · exact .inl rfl
  · show (if _ then _ else _) = _ ∨ (if _ then _ else _) = _
    split
    · exact .inr rfl
    · exact .inl rfl

/-! ## What a step does to the waiting change -/

/-- The transition is an `apply_change` or a `cancel_change`. -/
def HoldTransition.Settles (T : HoldTransition) : Prop :=
  (∃ accts, T.input.instr = .applyChange accts) ∨ ∃ accts, T.input.instr = .cancelChange accts

/-- The transition is an owner-signed proposal that queued a change. -/
structure HoldTransition.Queues (P : HoldTransition) (values : HoldChange)
    (change : PendingChange) : Prop where
  instr : ∃ accts, P.input.instr = .proposeChange accts values
  signed : P.pre.vault.owner ∈ P.input.signers
  change_eq : ∃ effectiveAt, change = values.queued (values.loosen P.pre.vault) effectiveAt ∧
    effectiveAt.toInt = P.input.clock + P.post.vault.delaySecs.toInt

/-- A step leaves the waiting change alone, queues one where none was waiting,
or settles it. -/
theorem StepEffect.change {rt : Runtime} {T : HoldTransition}
    (h : StepEffect rt T.pre T.input T.output T.post) :
    (T.post.vault.change = T.pre.vault.change ∧ ¬ T.Settles ∧
        ∀ e ∈ T.output.records, e.kind ≠ .changeProposed) ∨
      (T.pre.vault.change.active = false ∧ T.post.vault.change.active = true ∧ ¬ T.Settles ∧
        ∃ values, T.Queues values T.post.vault.change) ∨
      (T.post.vault.change = .default ∧ T.Settles ∧
        ∀ e ∈ T.output.records, e.kind ≠ .changeProposed) := by
  obtain ⟨s, i, o, s'⟩ := T
  obtain ⟨heff, -, -⟩ := h
  have htighten : ∀ tighten, ∀ e ∈ (tightenOutput i.now s.key tighten).records,
      e.kind ≠ .changeProposed := by
    intro tighten e he heq
    refine not_mem_tightenOutput ?_ he
    rw [heq]
    exact HoldKind.noConfusion
  simp only [HoldTransition.Settles] at heff ⊢
  generalize hrecords : o.records = records at heff ⊢
  generalize hvault : s'.vault = v at heff ⊢
  generalize s'.world = w at heff
  cases heff with
  | applied instr =>
      refine .inr (.inr ⟨rfl, .inl ⟨_, instr⟩, ?_⟩)
      simp [holdEntry]
  | cancelled instr =>
      refine .inr (.inr ⟨rfl, .inr ⟨_, instr⟩, ?_⟩)
      simp [holdEntry]
  | @proposed accts values effectiveAt instr signed _ _ idle effective =>
      refine .inr (.inl ⟨idle, rfl, by simp [instr], values, ⟨_, instr⟩, signed, effectiveAt, rfl,
        ?_⟩)
      show _ = _ + s'.vault.delaySecs.toInt
      rw [hvault]
      exact effective
  | tightened instr => exact .inl ⟨rfl, by simp [instr], htighten _⟩
  | _ => exact .inl ⟨rfl, by simp_all, by simp [holdEntry]⟩

/-! ## The waiting change of a run -/

/-- The waiting change was queued by a transition of the history, and nothing
touched it since. -/
def QueuedBy (h : HoldHistory) (change : PendingChange) : Prop :=
  ∃ (between : HoldHistory) (P : HoldTransition) (earlier : HoldHistory) (values : HoldChange),
    h = between ++ P :: earlier ∧ P.Queues values change ∧
      ∀ E ∈ between, ¬ HoldTransition.Settles E ∧ E.post.vault.change = E.pre.vault.change

theorem queued_of_run {rt : Runtime} {opening : HoldOutput} {s₀ s : HoldState} {h : HoldHistory}
    (hopen : Opens rt opening s₀) (run : Run (HoldStep rt) s₀ h s)
    (hactive : s.vault.change.active = true) : QueuedBy h s.vault.change := by
  revert hactive
  refine run.carries (P := fun h (s : HoldState) =>
    s.vault.change.active = true → QueuedBy h s.vault.change) ?_ ?_
  · intro hactive
    obtain ⟨-, accts, args, bump, tokenBump, ledgerBump, hvault⟩ := hopen.fresh
    rw [hvault] at hactive
    cases hactive
  · intro h s i o s' _ ih hstep hactive
    obtain ⟨hsame, hsettles, -⟩ | ⟨-, -, -, values, hqueues⟩ | ⟨hdefault, -, -⟩ :=
      StepEffect.change (T := ⟨s, i, o, s'⟩) hstep.stepEffect
    · have hsame' : s'.vault.change = s.vault.change := hsame
      rw [hsame'] at hactive ⊢
      obtain ⟨between, P, earlier, values, rfl, hqueues, hbetween⟩ := ih hactive
      refine ⟨⟨s, i, o, s'⟩ :: between, P, earlier, values, rfl, hqueues, fun E hE => ?_⟩
      rcases List.mem_cons.mp hE with rfl | hE
      · exact ⟨hsettles, hsame⟩
      · exact hbetween E hE
    · exact ⟨[], _, h, values, rfl, hqueues, fun E hE => by cases hE⟩
    · have hdefault' : s'.vault.change = .default := hdefault
      rw [hdefault'] at hactive
      cases hactive

theorem active_of_unsettled {rt : Runtime} {s₀ s : HoldState} {h : HoldHistory}
    (run : Run (HoldStep rt) s₀ h s) (hactive : s₀.vault.change.active = true)
    (hnone : ∀ E ∈ h, ¬ HoldTransition.Settles E) : s.vault.change.active = true := by
  revert hnone
  refine run.carries (P := fun h (s : HoldState) =>
    (∀ E ∈ h, ¬ HoldTransition.Settles E) → s.vault.change.active = true) (fun _ => hactive) ?_
  intro h s i o s' _ ih hstep hnone
  have hprev := ih fun E hE => hnone E (List.mem_cons_of_mem _ hE)
  obtain ⟨hsame, -, -⟩ | ⟨-, hact, -, -⟩ | ⟨-, hsettles, -⟩ :=
    StepEffect.change (T := ⟨s, i, o, s'⟩) hstep.stepEffect
  · have hsame' : s'.vault.change = s.vault.change := hsame
    rw [hsame']
    exact hprev
  · exact hact
  · exact absurd hsettles (hnone _ List.mem_cons_self)

theorem delay_pos {delaySecs : Int64} (h : delayAllowed delaySecs) : 0 < delaySecs.toInt := by
  rcases h with rfl | rfl | rfl <;> decide

/-- An `apply_change` that goes through finds a change that waits and is ready. -/
theorem HoldEffect.of_applyChange {rt : Runtime} {s : HoldState} {i : HoldInput}
    {records : List HoldEntry} {v : HoldVault} {w : World} (h : HoldEffect rt s i records v w)
    {accts : ApplyChange} (hinstr : i.instr = .applyChange accts) :
    s.vault.change.active = true ∧ s.vault.change.effectiveAt ≤ i.now ∧
      v = s.vault.applyPending s.vault.change := by
  cases h with
  | applied _ active ready => exact ⟨active, ready, rfl⟩
  | _ => simp_all

/-- A step that loosens a rule applies the change that was waiting. -/
theorem HoldEffect.loosening {rt : Runtime} {s : HoldState} {i : HoldInput}
    {records : List HoldEntry} {v : HoldVault} {w : World} (h : HoldEffect rt s i records v w)
    (hloosens : Loosens s.vault v) :
    (∃ accts, i.instr = .applyChange accts) ∧ s.vault.change.active = true ∧
      s.vault.change.effectiveAt ≤ i.now ∧ v = s.vault.applyPending s.vault.change := by
  by_cases hinstr : ∃ accts, i.instr = .applyChange accts
  · refine ⟨hinstr, ?_⟩
    obtain ⟨accts, hinstr⟩ := hinstr
    exact h.of_applyChange hinstr
  · rw [not_exists] at hinstr
    exact absurd hloosens (h.tighter hinstr).not_loosens

/-- The transition queued a change: its ledger record says so. -/
def HoldTransition.Proposes (T : HoldTransition) : Prop :=
  ∃ e ∈ T.output.records, e.kind = .changeProposed

/-- **The change protocol.**  In every run of a vault: a step that loosens a
rule is an `apply_change`; the values it takes are those of an earlier proposal
that the owner signed and that nothing settled or replaced since, and the delay
in force right after the proposal has passed; between two proposals that queue
a change one was settled; and while a change waits, only `apply_change` and
`cancel_change` alter it. -/
theorem change_protocol {rt : Runtime} {opening : HoldOutput} {s₀ s : HoldState}
    {h : HoldHistory} (hopen : Opens rt opening s₀) (run : Run (HoldStep rt) s₀ h s) :
    (∀ newer T older, h = newer ++ T :: older → Loosens T.pre.vault T.post.vault →
      (∃ accts, T.input.instr = .applyChange accts) ∧
      ∃ between P earlier accts values, older = between ++ P :: earlier ∧
        P.input.instr = .proposeChange accts values ∧ P.pre.vault.owner ∈ P.input.signers ∧
        (∀ E ∈ between, ¬ HoldTransition.Settles E ∧
          E.post.vault.change = E.pre.vault.change) ∧
        P.input.clock + P.post.vault.delaySecs.toInt ≤ T.input.clock ∧
        P.input.clock < T.input.clock ∧
        TakesValues T.pre.vault T.post.vault values) ∧
    (∀ newer T₂ between T₁ older, h = newer ++ T₂ :: (between ++ T₁ :: older) →
      HoldTransition.Proposes T₁ → HoldTransition.Proposes T₂ →
      ∃ E ∈ between, HoldTransition.Settles E) ∧
    (∀ T ∈ h, T.pre.vault.change.active = true → T.post.vault.change ≠ T.pre.vault.change →
      HoldTransition.Settles T) := by
  refine ⟨?_, ?_, ?_⟩
  · rintro newer T older rfl hloosens
    obtain ⟨before, hstep, -⟩ := run.split
    obtain ⟨happly, hactive, hready, hvault⟩ := hstep.stepEffect.effect.loosening hloosens
    obtain ⟨between, P, earlier, values, rfl, hqueues, hbetween⟩ :=
      queued_of_run hopen before hactive
    obtain ⟨⟨accts, hinstr⟩, hsigned, effectiveAt, hchange, heffective⟩ := hqueues
    obtain ⟨beforeP, hstepP, -⟩ := before.split
    have hvalid := valid_of_run hopen (beforeP.next hstepP)
    have hpositive := delay_pos hvalid.delay
    have hwait : P.input.clock + P.post.vault.delaySecs.toInt ≤ T.input.clock := by
      rw [hchange] at hready
      rw [Int64.le_iff_toInt_le] at hready
      rw [← heffective]
      exact hready
    refine ⟨happly, between, P, earlier, accts, values, rfl, hinstr, hsigned, hbetween, hwait,
      by omega, ?_⟩
    rw [hvault, hchange]
    exact takesValues_applyPending _ _ _ _
  · rintro newer T₂ between T₁ older rfl ⟨e, he, hkind⟩ ⟨e', he', hkind'⟩
    obtain ⟨before, hstep₂, -⟩ := run.split
    obtain ⟨-, hstep₁, middle⟩ := before.split
    by_contra hnone
    have hnone' : ∀ E ∈ between, ¬ HoldTransition.Settles E := fun E hE hsettles =>
      hnone ⟨E, hE, hsettles⟩
    obtain ⟨-, -, hrecords⟩ | ⟨-, hactive, -, -⟩ | ⟨-, -, hrecords⟩ :=
      StepEffect.change hstep₁.stepEffect
    · exact hrecords e he hkind
    · have hstill := active_of_unsettled middle hactive hnone'
      obtain ⟨-, -, hrecords⟩ | ⟨hidle, -⟩ | ⟨-, -, hrecords⟩ :=
        StepEffect.change hstep₂.stepEffect
      · exact hrecords e' he' hkind'
      · rw [hstill] at hidle
        cases hidle
      · exact hrecords e' he' hkind'
    · exact hrecords e he hkind
  · intro T hT hactive hne
    obtain ⟨_, _, _, _, hstep, _⟩ := run.of_mem hT
    obtain ⟨hsame, -, -⟩ | ⟨hidle, -⟩ | ⟨-, hsettles, -⟩ := StepEffect.change hstep.stepEffect
    · exact absurd hsame hne
    · rw [hactive] at hidle
      cases hidle
    · exact hsettles

section Sample

def proposeValues (now : Int64) (values : HoldChange) : HoldInput :=
  { now := now, signers := [1], instr := .proposeChange { owner := 1, ledger := 101 } values }

/-- A higher daily limit is proposed and, a day later, applied by anyone. -/
def changeRun : Except ProgramError (HoldHistory × HoldState) :=
  execAll (HoldState.exec vaultRuntime) [] (okValue (openSample 2) openSample_ok).2
    [proposeValues 10 ⟨200, HOLD_DELAY_1_DAY, 2500, 2, 5⟩,
      { now := 86410, signers := [], instr := .applyChange { ledger := 101 } }]

theorem changeRun_ok : changeRun.toBool = true := rfl

def changeHistory : HoldHistory := (okValue changeRun changeRun_ok).1

theorem changeHistory_ne_nil : changeHistory ≠ [] :=
  okValue_ne_nil changeRun_ok (List.cons_ne_nil _ _)

/-- In the sample run the limit of 200 was proposed before it was applied. -/
theorem change_protocol_sample :
    let T := changeHistory.head changeHistory_ne_nil
    T.post.vault.dailyLimit = 200 ∧ ∃ P ∈ changeHistory.tail, ∃ accts values,
      P.input.instr = .proposeChange accts values ∧
        P.input.clock + P.post.vault.delaySecs.toInt ≤ T.input.clock := by
  have run : Run (HoldStep vaultRuntime) _ changeHistory _ :=
    run_okValue changeRun_ok
  have hsplit : changeHistory =
      [] ++ changeHistory.head changeHistory_ne_nil :: changeHistory.tail :=
    (List.cons_head_tail _).symm
  have hloosens : Loosens (changeHistory.head changeHistory_ne_nil).pre.vault
      (changeHistory.head changeHistory_ne_nil).post.vault := .inl (by decide)
  obtain ⟨-, between, P, earlier, accts, values, holder, hinstr, -, -, hwait, -⟩ :=
    (change_protocol instantRun_opens run).1 _ _ _ hsplit hloosens
  refine ⟨by decide, P, ?_, accts, values, hinstr, hwait⟩
  rw [holder]
  exact List.mem_append_right _ List.mem_cons_self

end Sample

end Veto

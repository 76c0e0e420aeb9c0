import Veto.Mandate.Run
import Veto.Foundation.OneShot

/-!
# Overrides of a mandate

A mandate has one slot for an override.  The owner's next grant replaces what it holds, the
payment of its nonce and a revocation empty it, and a refusal leaves it.  A payment above the
per-payment maximum is traced back to the grant it relies on.
-/

namespace Veto

open Foundation

abbrev MandateTransition := Transition MandateState MandateInput MandateOutput

/-- A step by which the owner granted an override of this amount for this nonce. -/
structure MandateTransition.Grants (G : MandateTransition) (owner : Pubkey)
    (nonce amount : UInt64) : Prop where
  signed : owner ∈ G.input.signers
  instr : ∃ accts, G.input.instr = .grantOverride accts amount nonce
  recorded : ∃ merchant, G.output.records = [overrideEntry G.input.now merchant amount nonce]

def MandateTransition.isGrant (T : MandateTransition) : Bool :=
  match T.input.instr with
  | .grantOverride .. => true
  | _ => false

/-- A history, latest first, from its latest grant on. -/
def fromLatestGrant (h : MandateHistory) : MandateHistory :=
  h.dropWhile fun T => !MandateTransition.isGrant T

/-- The nonce and the amount of the override in force. -/
def Mandate.pendingOverride (m : Mandate) : Option (UInt64 × UInt64) :=
  pendingSlot m.overrideNonce m.overrideAmount

/-- A payment above `perTxMax` that the history records in the step `T`, after `older`. -/
structure PaidAbove (perTxMax : UInt64) (h newer older : MandateHistory) (T : MandateTransition)
    (e : Entry) : Prop where
  cut : h = newer ++ T :: older
  recorded : e ∈ T.output.records
  paid : e.kind = .paid
  above : perTxMax < e.amount

/-! ## One step -/

section Effect

variable {s s' : MandateState} {i : MandateInput} {o : MandateOutput}

/-- After a grant the slot holds what was granted; any other step can only empty it. -/
theorem MandateEffect.override_origin (h : MandateEffect s i o s') {pending : UInt64 × UInt64}
    (hpending : s'.mandate.pendingOverride = some pending) :
    if MandateTransition.isGrant ⟨s, i, o, s'⟩ then
      MandateTransition.Grants ⟨s, i, o, s'⟩ s.mandate.owner pending.1 pending.2
    else s.mandate.pendingOverride = some pending := by
  unfold MandateTransition.isGrant
  cases h with
  | paid instr =>
      simp only [instr, Bool.false_eq_true, if_false]
      exact pendingSlot_pay hpending
  | refused instr =>
      simp only [instr, Bool.false_eq_true, if_false]
      exact hpending
  | granted instr signed _ _ _ _ _ records =>
      simp only [instr, if_true]
      obtain ⟨-, hnonce, hamount⟩ := pendingSlot_eq_some.mp hpending
      rw [← hnonce, ← hamount]
      exact ⟨signed, ⟨_, instr⟩, ⟨_, records⟩⟩
  | revoked =>
      cases hpending
  | outside instr =>
      simp only [instr, Bool.false_eq_true, if_false]
      exact hpending

/-- A payment has a new nonce and keeps to the ceiling of that nonce. -/
theorem MandateEffect.paid_allowed (h : MandateEffect s i o s') {e : Entry}
    (he : e ∈ o.records) (hkind : e.kind = .paid) :
    s.mandate.lastNonce < e.nonce ∧ e.amount ≤ s.mandate.effectivePerTxMax e.nonce := by
  cases h with
  | paid _ _ _ _ _ fresh ceiling _ _ records =>
      rw [records, List.mem_singleton] at he
      subst he
      exact ⟨fresh, ceiling⟩
  | refused _ _ _ records =>
      rw [records, List.mem_singleton] at he
      subst he
      cases hkind
  | granted _ _ _ _ _ _ _ records =>
      rw [records, List.mem_singleton] at he
      subst he
      cases hkind
  | revoked _ _ _ records =>
      rw [records, List.mem_singleton] at he
      subst he
      cases hkind
  | outside _ records =>
      rw [records] at he
      cases he

end Effect

/-! ## Whole runs -/

section Run

variable {rt : Runtime} {s₀ s : MandateState} {h : MandateHistory}

/-- The override in force is the latest one the owner granted. -/
theorem latestGrant_of_run (run : Run (MandateStep rt) s₀ h s)
    (start : s₀.mandate.pendingOverride = none) {nonce amount : UInt64}
    (hpending : s.mandate.pendingOverride = some (nonce, amount)) :
    ∃ G older, fromLatestGrant h = G :: older ∧
      MandateTransition.Grants G s₀.mandate.owner nonce amount := by
  obtain ⟨G, older, hlatest, hgrants⟩ := run.latest
    (fun s => s.mandate.pendingOverride)
    (fun G pending => MandateTransition.Grants G G.pre.mandate.owner pending.1 pending.2)
    MandateTransition.isGrant
    (fun _ _ _ _ _ hstep hpost => (MandateStep.effect hstep).override_origin hpost) start hpending
  have hG : G ∈ h := (List.dropWhile_suffix _).subset (hlatest ▸ List.mem_cons_self)
  obtain ⟨_, _, _, before, _, _⟩ := run.of_mem hG
  have howner : G.pre.mandate.owner = s₀.mandate.owner :=
    congrArg MandateTerms.owner (Mandate.terms_of_run before)
  rw [howner] at hgrants
  exact ⟨G, older, hlatest, hgrants⟩

theorem PaidAbove.mem_paidRecords {perTxMax : UInt64} {newer older : MandateHistory}
    {T : MandateTransition} {e : Entry} (hpaid : PaidAbove perTxMax h newer older T e)
    (opening : List Entry) : e ∈ paidRecords (written h ++ opening) := by
  refine List.mem_filter.mpr ⟨List.mem_append_left _ ?_, decide_eq_true hpaid.paid⟩
  exact List.mem_flatMap.mpr ⟨T, hpaid.cut ▸ List.mem_append_right _ List.mem_cons_self,
    List.mem_reverse.mpr hpaid.recorded⟩

/-- A payment recorded later has the greater nonce. -/
theorem paid_nonce_lt {opening : List Entry} {newer older : MandateHistory}
    {T E : MandateTransition} {e e' : Entry}
    (run : Run (MandateStep rt) s₀ (newer ++ T :: older) s)
    (start : MandateInv opening s₀.mandate) (he : e ∈ T.output.records) (hkind : e.kind = .paid)
    (hE : E ∈ older) (he' : e' ∈ E.output.records) (hkind' : e'.kind = .paid) :
    e'.nonce < e.nonce := by
  obtain ⟨before, hstep, -⟩ := run.split
  have hfresh := ((MandateStep.effect hstep).paid_allowed he hkind).1
  have hmem : e' ∈ paidRecords (written older ++ opening) := by
    refine List.mem_filter.mpr ⟨List.mem_append_left _ ?_, decide_eq_true hkind'⟩
    exact List.mem_flatMap.mpr ⟨E, hE, List.mem_reverse.mpr he'⟩
  have hle := Metered.nonce_le (MandateInv.run before start) hmem
  rw [UInt64.lt_iff_toNat_lt] at hfresh ⊢
  exact Nat.lt_of_le_of_lt hle hfresh

/-- A payment above the maximum relies on the latest grant, which names it. -/
theorem PaidAbove.granted (run : Run (MandateStep rt) s₀ h s)
    (start : s₀.mandate.pendingOverride = none) {newer older : MandateHistory}
    {T : MandateTransition} {e : Entry}
    (hpaid : PaidAbove s₀.mandate.perTxMax h newer older T e) :
    ∃ G oldest granted, fromLatestGrant older = G :: oldest ∧
      MandateTransition.Grants G s₀.mandate.owner e.nonce granted ∧ e.amount ≤ granted := by
  obtain ⟨rfl, he, hkind, habove⟩ := hpaid
  obtain ⟨before, hstep, -⟩ := run.split
  have hpinned : T.pre.mandate.perTxMax = s₀.mandate.perTxMax :=
    congrArg MandateTerms.perTxMax (Mandate.terms_of_run before)
  have hceiling := ((MandateStep.effect hstep).paid_allowed he hkind).2
  rw [← hpinned] at habove
  obtain ⟨granted, hpending, hle⟩ :=
    (le_slotCeiling hceiling).resolve_left (UInt64.not_le.mpr habove)
  obtain ⟨G, oldest, hlatest, hgrants⟩ := latestGrant_of_run before start hpending
  exact ⟨G, oldest, granted, hlatest, hgrants, hle⟩

theorem Mandate.spent_le_cap (run : Run (MandateStep rt) s₀ h s) {opening : List Entry}
    (start : MandateInv opening s₀.mandate) : s.mandate.spent ≤ s₀.mandate.cap := by
  have hterms : s.mandate.cap = s₀.mandate.cap :=
    congrArg MandateTerms.cap (Mandate.terms_of_run run)
  rw [← hterms]
  exact Metered.le_cap (MandateInv.run run start)

end Run

/-- **One grant, one payment above the maximum.**  Whatever is charged, granted, revoked or
moved outside after a successful `open_mandate`: a payment above the per-payment maximum comes
after a grant that the owner signed for its nonce and at least its amount, with no grant in
between; no other payment has that nonce, and no other above the maximum has that grant as its
latest; and in every state what is spent stays within the cap the mandate was opened with. -/
theorem override_one_shot {rt : Runtime} {now : Int64} {signers : List Pubkey}
    {accts : OpenMandate} {args : OpenMandateArgs} {w : World} {opening : MandateOutput}
    {s₀ s : MandateState} {h : MandateHistory}
    (hopen : openMandate rt now signers accts args w = .ok (opening, s₀))
    (run : Run (MandateStep rt) s₀ h s) :
    (∀ newer older T e, PaidAbove args.perTxMax h newer older T e →
      (∃ G oldest granted, fromLatestGrant older = G :: oldest ∧
        MandateTransition.Grants G accts.owner e.nonce granted ∧ e.amount ≤ granted) ∧
      (paidRecords (written h ++ opening.records)).filter (fun e' => e'.nonce = e.nonce) = [e] ∧
      ∀ newer' older' T' e', PaidAbove args.perTxMax h newer' older' T' e' →
        fromLatestGrant older' = fromLatestGrant older →
        newer' = newer ∧ T' = T ∧ older' = older ∧ e' = e) ∧
    s.mandate.spent ≤ args.cap ∧
    ∀ T ∈ h, T.pre.mandate.spent ≤ args.cap ∧ T.post.mandate.spent ≤ args.cap := by
  have start := MandateInv.opened hopen
  obtain ⟨bump, hm⟩ := (openMandate_opened hopen).mandate
  have hnone : s₀.mandate.pendingOverride = none := by
    rw [hm]
    rfl
  have howner : s₀.mandate.owner = accts.owner := by
    rw [hm]
    rfl
  have hmax : s₀.mandate.perTxMax = args.perTxMax := by
    rw [hm]
    rfl
  have hcap : s₀.mandate.cap = args.cap := by
    rw [hm]
    rfl
  rw [← howner, ← hmax, ← hcap]
  refine ⟨?_, Mandate.spent_le_cap run start, ?_⟩
  · intro newer older T e hpaid
    obtain ⟨G, oldest, granted, hlatest, hgrants, hle⟩ := hpaid.granted run hnone
    have honly := Metered.filter_nonce (MandateInv.run run start)
      (hpaid.mem_paidRecords opening.records)
    simp only [UInt64.toNat_inj] at honly
    refine ⟨⟨G, oldest, granted, hlatest, hgrants, hle⟩, honly, ?_⟩
    intro newer' older' T' e' hpaid' hsame
    obtain ⟨G', oldest', granted', hlatest', hgrants', -⟩ := hpaid'.granted run hnone
    -- one grant names one nonce, and a later payment would have a greater one
    obtain ⟨rfl, -⟩ := List.cons.inj ((hlatest'.symm.trans hsame).trans hlatest)
    obtain ⟨_, hinstr⟩ := hgrants.instr
    obtain ⟨_, hinstr'⟩ := hgrants'.instr
    rw [hinstr, MandateInstr.grantOverride.injEq] at hinstr'
    have hnonce : e.nonce = e'.nonce := hinstr'.2.2
    rcases cut_cases (hpaid'.cut.symm.trans hpaid.cut) with ⟨rfl, rfl, rfl⟩ | hlater | hlater
    · have hmem : e' ∈ (paidRecords (written h ++ opening.records)).filter
          (fun p => p.nonce = e.nonce) :=
        List.mem_filter.mpr ⟨hpaid'.mem_paidRecords _, decide_eq_true hnonce.symm⟩
      rw [honly, List.mem_singleton] at hmem
      exact ⟨rfl, rfl, rfl, hmem⟩
    · have hlt := paid_nonce_lt (hpaid'.cut ▸ run) start hpaid'.recorded hpaid'.paid hlater
        hpaid.recorded hpaid.paid
      rw [hnonce] at hlt
      exact absurd hlt (UInt64.lt_irrefl _)
    · have hlt := paid_nonce_lt (hpaid.cut ▸ run) start hpaid.recorded hpaid.paid hlater
        hpaid'.recorded hpaid'.paid
      rw [hnonce] at hlt
      exact absurd hlt (UInt64.lt_irrefl _)
  · intro T hT
    obtain ⟨_, _, _, before, hstep, _⟩ := run.of_mem hT
    exact ⟨Mandate.spent_le_cap before start, Mandate.spent_le_cap (before.next hstep) start⟩

/-- In the sample run the payment of 50, above the maximum of 40, has the grant before it. -/
theorem override_one_shot_sample :
    ∃ newer older T e, PaidAbove 40 (okValue sampleRun sampleRun_ok).1 newer older T e ∧
      ∃ G oldest granted, fromLatestGrant older = G :: oldest ∧
        MandateTransition.Grants G 1 e.nonce granted ∧ e.amount ≤ granted := by
  have hpaid : ∃ T ∈ (okValue sampleRun sampleRun_ok).1, ∃ e ∈ T.output.records,
      e.kind = .paid ∧ 40 < e.amount := by decide
  obtain ⟨T, hT, e, he, hkind, habove⟩ := hpaid
  obtain ⟨newer, older, hcut⟩ := List.append_of_mem hT
  have hsample := override_one_shot (eq_ok_okValue_pair sampleOpen sampleOpen_ok)
    (run_okValue sampleRun_ok)
  exact ⟨newer, older, T, e, ⟨hcut, he, hkind, habove⟩,
    (hsample.1 newer older T e ⟨hcut, he, hkind, habove⟩).1⟩

end Veto

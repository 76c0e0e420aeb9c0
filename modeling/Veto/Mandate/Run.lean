import Veto.Mandate.Step
import Veto.Foundation.Meter

/-!
# Runs of a mandate

A run starts with a successful `open_mandate` and goes on with any charges,
overrides, revocations and outside changes.  `MandateInv` ties the account to
the records written so far.
-/

namespace Veto

open Foundation

abbrev MandateHistory := List (Transition MandateState MandateInput MandateOutput)

def paidRecords (records : List Entry) : List Entry :=
  records.filter fun e => e.kind = .paid

def totalAmount (records : List Entry) : Nat := (records.map fun e => e.amount.toNat).sum

/-- What the owner agreed to when the mandate was opened. -/
structure MandateTerms where
  owner : Pubkey
  agent : Pubkey
  mint : Pubkey
  source : Pubkey
  merchant : Pubkey
  cap : UInt64
  perTxMax : UInt64
  expiresAt : Int64

def Mandate.terms (m : Mandate) : MandateTerms :=
  { owner := m.owner, agent := m.agent, mint := m.mint, source := m.source,
    merchant := m.merchant, cap := m.cap, perTxMax := m.perTxMax, expiresAt := m.expiresAt }

@[simp] theorem Mandate.terms_settle (m : Mandate) (spent nonce : UInt64) :
    (m.settle spent nonce).terms = m.terms := rfl

@[simp] theorem Mandate.terms_refuse (m : Mandate) (reason : Reason) :
    (m.refuse reason).terms = m.terms := rfl

@[simp] theorem Mandate.terms_grant (m : Mandate) (amount nonce : UInt64) :
    (m.grant amount nonce).terms = m.terms := rfl

@[simp] theorem Mandate.terms_revoke (m : Mandate) : m.revoke.terms = m.terms := rfl

/-! ## One step -/

theorem MandateEffect.terms_eq {s s' : MandateState} {i : MandateInput} {o : MandateOutput}
    (h : MandateEffect s i o s') : s'.mandate.terms = s.mandate.terms := by
  cases h with
  | paid => exact Mandate.terms_settle _ _ _
  | refused => exact Mandate.terms_refuse _ _
  | granted => exact Mandate.terms_grant _ _ _
  | revoked => exact Mandate.terms_revoke _
  | outside => rfl

/-- A mandate that left `ACTIVE` does not come back. -/
theorem MandateEffect.inactive {s s' : MandateState} {i : MandateInput} {o : MandateOutput}
    (h : MandateEffect s i o s') (hs : s.mandate.status ≠ .active) :
    s'.mandate.status ≠ .active := by
  cases h with
  | paid _ _ active => exact absurd active hs
  | refused =>
      simp only [Mandate.refuse]
      split
      · decide
      · exact hs
  | granted _ _ _ _ active => exact absurd active hs
  | revoked => exact Status.noConfusion
  | outside => exact hs

/-- A payment is recorded with the clock of its step, before the expiry and
while the mandate is active. -/
theorem MandateEffect.paid_guard {s s' : MandateState} {i : MandateInput} {o : MandateOutput}
    (h : MandateEffect s i o s') {e : Entry} (he : e ∈ o.records) (hkind : e.kind = .paid) :
    e.ts = i.now ∧ i.now < s.mandate.expiresAt ∧ s.mandate.status = .active := by
  cases h with
  | paid _ _ active unexpired _ _ _ _ _ records =>
      rw [records, List.mem_singleton] at he
      subst he
      exact ⟨rfl, unexpired, active⟩
  | refused _ _ _ records =>
      rw [records, List.mem_singleton] at he
      subst he
      cases hkind
  | granted _ _ _ _ _ _ _ records =>
      rw [records, List.mem_singleton] at he
      subst he
      cases hkind
  | revoked _ _ _ records =>
      rw [records, List.mem_singleton] at he
      subst he
      cases hkind
  | outside _ records =>
      rw [records] at he
      cases he

/-! ## The invariant -/

/-- The counters agree with the payments recorded so far, latest first. -/
def MandateInv (records : List Entry) (m : Mandate) : Prop :=
  Metered (fun e : Entry => e.amount.toNat) (fun e => e.nonce.toNat) (paidRecords records)
    m.cap.toNat m.spent.toNat m.lastNonce.toNat

theorem MandateInv.step {records : List Entry} {s s' : MandateState} {i : MandateInput}
    {o : MandateOutput} (h : MandateInv records s.mandate) (heff : MandateEffect s i o s') :
    MandateInv (o.records.reverse ++ records) s'.mandate := by
  cases heff with
  | @paid accts amount nonce spent w o _ _ _ _ _ fresh _ total capped hrecords =>
      rw [hrecords]
      have hpaid : paidRecords (paidEntry i.now accts.destination amount nonce :: records) =
          paidEntry i.now accts.destination amount nonce :: paidRecords records :=
        List.filter_cons_of_pos rfl
      have hpay := Metered.pay (p := paidEntry i.now accts.destination amount nonce) h
        (UInt64.lt_iff_toNat_lt.mp fresh) total (UInt64.le_iff_toNat_le.mp capped)
      rw [← hpaid] at hpay
      exact hpay
  -- The other steps write no payment and keep the three counters.
  | refused _ _ _ hrecords =>
      rw [hrecords]
      exact h
  | granted _ _ _ _ _ _ _ hrecords =>
      rw [hrecords]
      exact h
  | revoked _ _ _ hrecords =>
      rw [hrecords]
      exact h
  | outside _ hrecords =>
      rw [hrecords]
      exact h

/-! ## Opening -/

theorem MandateInv.opened {rt : Runtime} {now : Int64} {signers : List Pubkey}
    {accts : OpenMandate} {args : OpenMandateArgs} {w : World} {o : MandateOutput}
    {s : MandateState} (h : openMandate rt now signers accts args w = .ok (o, s)) :
    MandateInv o.records s.mandate := by
  have hopened := openMandate_opened h
  obtain ⟨bump, hm⟩ := hopened.mandate
  rw [hm, hopened.records]
  exact Metered.start

/-! ## Whole runs -/

section Run

variable {rt : Runtime} {s₀ s : MandateState} {h : MandateHistory}

theorem Mandate.terms_of_run (run : Run (MandateStep rt) s₀ h s) :
    s.mandate.terms = s₀.mandate.terms :=
  run.preserves (P := fun s => s.mandate.terms = s₀.mandate.terms)
    (fun _ _ _ _ hs hstep => (MandateStep.effect hstep).terms_eq.trans hs) rfl

theorem MandateInv.run {opening : List Entry} (run : Run (MandateStep rt) s₀ h s)
    (start : MandateInv opening s₀.mandate) : MandateInv (written h ++ opening) s.mandate := by
  refine run.carries (P := fun h s => MandateInv (written h ++ opening) s.mandate) start ?_
  intro h s i o s' _ ih hstep
  rw [written_cons, List.append_assoc]
  exact ih.step (MandateStep.effect hstep)

end Run

/-- **The mandate run invariant.**  Whatever is charged, granted, revoked or
moved outside after a successful `open_mandate`: the money spent is the money
recorded as paid and stays within the cap, payments carry increasing nonces and
were made in time on an active mandate, a mandate does not come back to life,
and its terms stay those it was opened with. -/
theorem mandate_run_invariant {rt : Runtime} {now : Int64} {signers : List Pubkey}
    {accts : OpenMandate} {args : OpenMandateArgs} {w : World} {opening : MandateOutput}
    {s₀ s : MandateState} {h : MandateHistory}
    (hopen : openMandate rt now signers accts args w = .ok (opening, s₀))
    (run : Run (MandateStep rt) s₀ h s) :
    let paid := paidRecords (written h ++ opening.records)
    s.mandate.spent ≤ s.mandate.cap ∧
    s.mandate.spent.toNat = totalAmount paid ∧
    (paid.map Entry.nonce).Pairwise (· > ·) ∧
    s.mandate.lastNonce = (paid.map Entry.nonce).headD 0 ∧
    (∀ T ∈ h, ∀ e ∈ T.output.records, e.kind = .paid →
      e.ts = T.input.now ∧ T.input.now < T.pre.mandate.expiresAt ∧
      T.pre.mandate.status = .active) ∧
    (∀ newer T older, h = newer ++ T :: older →
      T.pre.mandate.status ≠ .active → s.mandate.status ≠ .active) ∧
    (∀ T ∈ h, T.pre.mandate.terms = s.mandate.terms) ∧
    s.mandate.terms =
      { owner := accts.owner, agent := args.agent, mint := accts.mint, source := accts.source,
        merchant := args.merchant, cap := args.cap, perTxMax := args.perTxMax,
        expiresAt := args.expiresAt } := by
  have inv := (MandateInv.opened hopen).run run
  have hterms := Mandate.terms_of_run run
  refine ⟨Metered.le_cap inv, Metered.total inv, Metered.pairwise_nonce inv, Metered.last_eq inv,
    ?_, ?_, ?_, ?_⟩
  · intro T hT e he hkind
    obtain ⟨_, _, _, _, hstep, _⟩ := run.of_mem hT
    exact (MandateStep.effect hstep).paid_guard he hkind
  · rintro newer T older rfl hstatus
    exact run.preserves_from (P := fun s => s.mandate.status ≠ .active)
      (fun _ _ _ _ hs hstep => (MandateStep.effect hstep).inactive hs) hstatus
  · intro T hT
    obtain ⟨_, _, _, before, _, _⟩ := run.of_mem hT
    rw [Mandate.terms_of_run before, hterms]
  · obtain ⟨bump, hm⟩ := (openMandate_opened hopen).mandate
    rw [hterms, hm]
    rfl

/-! ### One such run -/

section Sample

/-- Addresses 100 and 101 for the mandate and its ledger. -/
def sampleRuntime : Runtime :=
  .classic fun seeds => match seeds with
    | .text "mandate" :: _ => 100
    | _ => 101

/-- Owner 1 holds 500 of mint 3 in account 10; merchant 4 owns account 11. -/
def sampleWorld : World := fun k =>
  if k = 3 then some ⟨splTokenId, .mint ⟨6⟩⟩
  else if k = 10 then some ⟨splTokenId, .token ⟨3, 1, 500, none, 0, false⟩⟩
  else if k = 11 then some ⟨splTokenId, .token ⟨3, 4, 0, none, 0, false⟩⟩
  else none

/-- A cap of 100 and at most 40 a payment, for agent 2, until second 1000. -/
def sampleOpen : MandateResult :=
  openMandate sampleRuntime 10 [1]
    { owner := 1, mandate := 100, ledger := 101, source := 10, mint := 3,
      tokenProgram := splTokenId }
    { mandateId := 7, agent := 2, merchant := 4, cap := 100, perTxMax := 40,
      expiresAt := 1000, purpose := "rent" } sampleWorld

theorem sampleOpen_ok : sampleOpen.toBool = true := rfl

/-- A payment, a refusal above the ceiling, the override that clears it, and its payment. -/
def sampleInputs : List MandateInput :=
  let accts : Charge :=
    { agent := 2, ledger := 101, source := 10, destination := 11, mint := 3,
      tokenProgram := splTokenId }
  let owner : OwnerAction := { owner := 1, ledger := 101, source := 10, tokenProgram := splTokenId }
  [ { now := 20, signers := [2], instr := .charge accts 30 1 },
    { now := 30, signers := [2], instr := .charge accts 50 2 },
    { now := 40, signers := [1], instr := .grantOverride owner 50 2 },
    { now := 50, signers := [2], instr := .charge accts 50 2 },
    { now := 60, signers := [1], instr := .revokeMandate owner } ]

def sampleRun : Except ProgramError (MandateHistory × MandateState) :=
  execAll (MandateState.exec sampleRuntime) [] (okValue sampleOpen sampleOpen_ok).2 sampleInputs

theorem sampleRun_ok : sampleRun.toBool = true := rfl

/-- In the sample run the two payments of 30 and 50 are what was spent. -/
theorem mandate_run_invariant_sample :
    let opening := (okValue sampleOpen sampleOpen_ok).1
    let h := (okValue sampleRun sampleRun_ok).1
    let s := (okValue sampleRun sampleRun_ok).2
    s.mandate.spent.toNat = totalAmount (paidRecords (written h ++ opening.records)) ∧
    s.mandate.spent = 80 ∧ s.mandate.status = .revoked :=
  ⟨(mandate_run_invariant (eq_ok_okValue sampleOpen sampleOpen_ok)
    (run_okValue sampleRun_ok)).2.1,
    by decide, by decide⟩

end Sample

end Veto

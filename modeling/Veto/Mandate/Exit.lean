import Veto.Mandate.Run

/-!
# The owner's way out of a mandate

An owner ends a mandate by `close_mandate`, which refuses an active one.  Only a charge of
the agent moves an expired mandate out of `ACTIVE`; alone, the owner has `revoke_mandate`,
which needs the source account to be there and its SPL revocation to go through.
-/

namespace Veto

open Foundation

/-! ## What the owner can do alone -/

/-- One call of a token program that does not make the account `kept`. -/
inductive TokenCall (rt : Runtime) (kept : Pubkey) (w w' : World) : Prop
  | transfer (program : Pubkey) (t : TransferChecked) (amount : UInt64) (decimals : UInt8)
      (called : rt.token.transferChecked program w t amount decimals = some w')
  | approve (program : Pubkey) (t : ApproveChecked) (amount : UInt64) (decimals : UInt8)
      (called : rt.token.approveChecked program w t amount decimals = some w')
  | revoke (program : Pubkey) (t : Revoke) (called : rt.token.revoke program w t = some w')
  | create (program : Pubkey) (t : InitializeAccount) (other : t.account ≠ kept)
      (called : rt.token.initializeAccount program w t = some w')

/-- One instruction of the program that the owner of a mandate signs alone, at a clock
reading.  An instruction on another account of the program reaches the source of this
mandate by the calls it makes to a token program, and nothing else of it. -/
inductive OwnerStep (rt : Runtime) (s : MandateState) (now : Int64) : Unit → MandateState → Prop
  | charge {accts : Charge} {amount nonce : UInt64} {o : MandateOutput} {s' : MandateState}
      (exec : Veto.charge rt now [s.mandate.owner] accts amount nonce s = .ok (o, s')) :
      OwnerStep rt s now () s'
  | grantOverride {accts : OwnerAction} {amount nonce : UInt64} {o : MandateOutput}
      {s' : MandateState}
      (exec : Veto.grantOverride rt now [s.mandate.owner] accts amount nonce s = .ok (o, s')) :
      OwnerStep rt s now () s'
  | revokeMandate {accts : OwnerAction} {o : MandateOutput} {s' : MandateState}
      (exec : Veto.revokeMandate rt now [s.mandate.owner] accts s = .ok (o, s')) :
      OwnerStep rt s now () s'
  | elsewhere {w : World} (call : TokenCall rt s.mandate.source s.world w) :
      OwnerStep rt s now () { s with world := w }

/-- From `s`, at clock readings from `now` on, the owner alone gets the mandate closed and
its rent back. -/
def MandateState.OwnerExit (rt : Runtime) (s : MandateState) (now : Int64) : Prop :=
  ∃ h s' accts closing, Run (OwnerStep rt) s h s' ∧ Nondecreasing Int64.toInt h ∧
    (∀ T ∈ h, now.toInt ≤ T.input.toInt) ∧
    closeMandate rt [s.mandate.owner] accts s' = .ok closing ∧
    s.key ∈ closing.closed ∧ closing.rentTo = s.mandate.owner

/-- The source is a token account of the owner's that is not frozen. -/
def MandateState.Revocable (s : MandateState) : Prop :=
  ∃ program, (program = splTokenId ∨ program = splToken2022Id) ∧
    s.world.holderOf s.mandate.source = some (program, some (s.mandate.owner, false))

/-! ## A mandate that cannot be revoked -/

section Stuck

variable {rt : Runtime} {now : Int64} {s s' : MandateState}

theorem World.holderOf_token {w : World} {k program : Pubkey} {a : TokenAccount}
    (h : w k = some ⟨program, .token a⟩) : w.holderOf k = some (program, some (a.owner, a.frozen)) := by
  unfold World.holderOf
  rw [h]
  rfl

/-- Revoking a mandate takes a source that can be revoked. -/
theorem revocable_of_revokeMandate (htoken : rt.token.DecidesDelegation) {signers : List Pubkey}
    {accts : OwnerAction} {o : MandateOutput}
    (h : revokeMandate rt now signers accts s = .ok (o, s')) : s.Revocable := by
  unfold revokeMandate at h
  obtain ⟨source, hload, h⟩ := bind_ok_iff.mp h
  obtain ⟨-, h⟩ := require_bind_ok_iff.mp h
  obtain ⟨w, hw, -⟩ := bind_ok_iff.mp h
  unfold OwnerAction.load tokenInterface at hload
  simp only [↓signer_bind_ok_iff, ↓require_bind_ok_iff, bind_ok_iff] at hload
  obtain ⟨-, howner, hsource, -, -, -, hprogram, -⟩ := hload
  rw [okOr_eq_ok] at hw
  obtain ⟨a, ha, hthawed, hholder⟩ :=
    (htoken.revoke_iff _ _ _).mp (Option.isSome_iff_exists.mpr ⟨w, hw⟩)
  refine ⟨accts.tokenProgram, hprogram, ?_⟩
  rw [hsource, World.holderOf_token ha, hthawed, hholder, howner]

theorem TokenCall.holderOf_eq (hkeeps : rt.token.KeepsHolders) {kept : Pubkey} {w w' : World}
    (h : TokenCall rt kept w w') : w'.holderOf kept = w.holderOf kept := by
  cases h with
  | transfer program t amount decimals called => exact hkeeps.transfer _ _ _ _ _ _ called kept
  | approve program t amount decimals called => exact hkeeps.approve _ _ _ _ _ _ called kept
  | revoke program t called => exact hkeeps.revoke _ _ _ _ called kept
  | create program t other called => exact hkeeps.create _ _ _ _ called kept other.symm

/-- An active mandate of two different keys whose source cannot be revoked. -/
structure MandateState.Stuck (s : MandateState) : Prop where
  active : s.mandate.status = .active
  apart : s.mandate.agent ≠ s.mandate.owner
  fixed : ¬ s.Revocable

/-- Nothing the owner does alone gets a mandate unstuck. -/
theorem OwnerStep.stuck (htoken : rt.token.DecidesDelegation) (hkeeps : rt.token.KeepsHolders)
    {u : Unit} (h : OwnerStep rt s now u s') (hs : s.Stuck) :
    s'.Stuck ∧ s'.mandate.owner = s.mandate.owner := by
  cases h with
  | @charge accts amount nonce o s' exec =>
      unfold Veto.charge at exec
      obtain ⟨ctx, hload, -⟩ := bind_ok_iff.mp exec
      have hsigned := Charge.signed_of_load hload
      rw [List.mem_singleton] at hsigned
      exact absurd hsigned hs.apart
  | @grantOverride accts amount nonce o s' exec =>
      unfold Veto.grantOverride at exec
      obtain ⟨source, -, exec⟩ := bind_ok_iff.mp exec
      simp only [require_bind_ok_iff] at exec
      obtain ⟨-, -, -, -, -, exec⟩ := exec
      cases exec
      exact ⟨⟨hs.active, hs.apart, hs.fixed⟩, rfl⟩
  | revokeMandate exec => exact absurd (revocable_of_revokeMandate htoken exec) hs.fixed
  | elsewhere call =>
      refine ⟨⟨hs.active, hs.apart, ?_⟩, rfl⟩
      rintro ⟨program, hprogram, hholder⟩
      apply hs.fixed
      refine ⟨program, hprogram, ?_⟩
      rw [← call.holderOf_eq hkeeps]
      exact hholder

theorem MandateState.Stuck.no_exit (htoken : rt.token.DecidesDelegation)
    (hkeeps : rt.token.KeepsHolders) (hs : s.Stuck) : ¬ s.OwnerExit rt now := by
  rintro ⟨h, s', accts, closing, run, -, -, hclose, -⟩
  have hstuck : s'.Stuck := run.preserves (P := MandateState.Stuck)
    (fun _ _ _ _ hs hstep => (OwnerStep.stuck htoken hkeeps hstep hs).1) hs
  unfold closeMandate at hclose
  obtain ⟨_, -, hclose⟩ := bind_ok_iff.mp hclose
  obtain ⟨hended, -⟩ := require_bind_ok_iff.mp hclose
  exact hended hstuck.active

end Stuck

/-! ## A way out -/

section Exit

variable {rt : Runtime} {now : Int64} {s : MandateState}

/-- What the owner passes to `close_mandate`. -/
def MandateState.closing (rt : Runtime) (s : MandateState) : CloseMandate :=
  { owner := s.mandate.owner, ledger := (rt.pda.find (ledgerSeeds s.key)).1 }

theorem closeMandate_of_ended (rt : Runtime) (h : s.mandate.status ≠ .active) :
    ∃ closing, closeMandate rt [s.mandate.owner] (s.closing rt) s = .ok closing ∧
      s.key ∈ closing.closed ∧ closing.rentTo = s.mandate.owner := by
  unfold closeMandate
  have hload : (s.closing rt).load rt [s.mandate.owner] s = .ok () := by
    simp [CloseMandate.load, MandateState.closing, signer, require, bind, Except.bind]
  simp only [hload, require, if_pos h, bind, Except.bind, pure, Except.pure]
  exact ⟨_, rfl, List.mem_cons_self, rfl⟩

/-- On a source that can be revoked, the owner revokes. -/
theorem revokeMandate_of_revocable (now : Int64) (htoken : rt.token.DecidesDelegation)
    (hlive : s.mandate.status ≠ .revoked) (h : s.Revocable) :
    ∃ accts o s', revokeMandate rt now [s.mandate.owner] accts s = .ok (o, s') ∧
      s'.mandate = s.mandate.revoke ∧ s'.key = s.key := by
  obtain ⟨program, hprogram, hholder⟩ := h
  obtain ⟨⟨owner, data⟩, hsource, hinfo⟩ := Option.map_eq_some_iff.mp hholder
  obtain ⟨rfl, hdata⟩ := Prod.mk.inj hinfo
  obtain ⟨a, ha, hfields⟩ := Option.map_eq_some_iff.mp hdata
  obtain ⟨howner, hthawed⟩ := Prod.mk.inj hfields
  have htokenData : data = .token a := by
    cases data <;> simp_all [AccountData.token?]
  subst htokenData
  let accts : OwnerAction :=
    { owner := s.mandate.owner, ledger := (rt.pda.find (ledgerSeeds s.key)).1,
      source := s.mandate.source, tokenProgram := owner }
  have hload : accts.load rt [s.mandate.owner] s = .ok a := by
    have hmember : owner ∈ [splTokenId, splToken2022Id] := by
      rcases hprogram with rfl | rfl
      · exact List.mem_cons_self
      · exact List.mem_cons_of_mem _ List.mem_cons_self
    have hinterface : s.world.interfaceToken s.mandate.source = .ok a := by
      simp [World.interfaceToken, World.load, hsource, require, hmember, okOr, AccountData.token?,
        bind, Except.bind]
    simp [OwnerAction.load, accts, signer, require, hinterface, tokenInterface, hprogram, bind,
      Except.bind, pure, Except.pure]
  have hsome : (rt.token.revoke owner s.world
      { source := s.mandate.source, authority := s.mandate.owner }).isSome :=
    (htoken.revoke_iff _ _ _).mpr ⟨a, hsource, hthawed, howner⟩
  obtain ⟨w, hw⟩ := Option.isSome_iff_exists.mp hsome
  refine ⟨accts, ?_⟩
  unfold revokeMandate
  simp only [hload, require, if_pos hlive, okOr, bind, Except.bind, pure, Except.pure,
    show rt.token.revoke accts.tokenProgram s.world
      { source := accts.source, authority := accts.owner } = some w from hw]
  exact ⟨_, _, rfl, rfl, rfl⟩

theorem agent_ne_owner {signers : List Pubkey} {accts : OpenMandate} {args : OpenMandateArgs}
    {w : World} {o : MandateOutput} (h : openMandate rt now signers accts args w = .ok (o, s)) :
    s.mandate.agent ≠ s.mandate.owner := by
  have hopened := openMandate_opened h
  obtain ⟨bump, hm⟩ := hopened.mandate
  rw [hm]
  exact hopened.apart

end Exit

/-- **The owner's exit.**  From any state a mandate can reach, at any clock reading and
whatever became of the source account, the owner alone gets the mandate closed and its rent
back exactly when the mandate has left `ACTIVE` or its source can be revoked. -/
theorem owner_exit_iff {rt : Runtime} (htoken : rt.token.DecidesDelegation)
    (hkeeps : rt.token.KeepsHolders) {opened : Int64} {signers : List Pubkey}
    {accts : OpenMandate} {args : OpenMandateArgs} {w : World} {o : MandateOutput}
    {s₀ s : MandateState} {h : MandateHistory}
    (hopen : openMandate rt opened signers accts args w = .ok (o, s₀))
    (run : Run (MandateStep rt) s₀ h s) (now : Int64) :
    s.OwnerExit rt now ↔ s.mandate.status ≠ .active ∨ s.Revocable := by
  constructor
  · intro hexit
    by_contra hnone
    rw [not_or, not_not] at hnone
    obtain ⟨hactive, hfixed⟩ := hnone
    have hterms := Mandate.terms_of_run run
    have happart : s.mandate.agent ≠ s.mandate.owner := by
      have hagent : s.mandate.agent = s₀.mandate.agent := congrArg MandateTerms.agent hterms
      have howner : s.mandate.owner = s₀.mandate.owner := congrArg MandateTerms.owner hterms
      rw [hagent, howner]
      exact agent_ne_owner hopen
    exact MandateState.Stuck.no_exit htoken hkeeps ⟨hactive, happart, hfixed⟩ hexit
  · rintro hcondition
    by_cases hended : s.mandate.status = .active
    · have hlive : s.mandate.status ≠ .revoked := by
        rw [hended]
        exact Status.noConfusion
      obtain ⟨revoking, o', s', hrevoke, hmandate, hkey⟩ := revokeMandate_of_revocable now
        htoken hlive (hcondition.resolve_left (not_not.mpr hended))
      have hstatus : s'.mandate.status ≠ .active := by
        rw [hmandate]
        exact Status.noConfusion
      have howner : s'.mandate.owner = s.mandate.owner := by
        rw [hmandate]
        rfl
      obtain ⟨closing, hclose, hclosed, hrent⟩ := closeMandate_of_ended rt hstatus
      rw [howner] at hclose hrent
      rw [hkey] at hclosed
      refine ⟨[⟨s, now, (), s'⟩], s', s'.closing rt, closing,
        .next .start (.revokeMandate hrevoke), ?_, ?_, hclose, hclosed, hrent⟩
      · exact List.pairwise_singleton _ _
      · intro T hT
        rw [List.mem_singleton] at hT
        rw [hT]
    · obtain ⟨closing, hclose, hclosed, hrent⟩ := closeMandate_of_ended rt hended
      refine ⟨[], s, s.closing rt, closing, .start, .nil, ?_, hclose, hclosed, hrent⟩
      intro T hT
      cases hT

/-! ### With the source there, and with the source closed -/

section Sample

/-- The mandate of the sample, right after it was opened, can be ended by its owner. -/
theorem owner_exit_iff_sample :
    (okValue sampleOpen sampleOpen_ok).2.OwnerExit sampleRuntime 2000 := by
  have hrevocable : (okValue sampleOpen sampleOpen_ok).2.Revocable :=
    ⟨splTokenId, .inl rfl, by decide⟩
  exact (owner_exit_iff classicToken_delegates classicToken_keeps
    (eq_ok_okValue_pair sampleOpen sampleOpen_ok) .start 2000).mpr (.inr hrevocable)

/-- The owner spent or moved what was in account 10 and closed it. -/
def closedWorld : World := fun k => if k = 10 then none else sampleWorld k

def closedRun : Except ProgramError (MandateHistory × MandateState) :=
  execAll (MandateState.exec sampleRuntime) [] (okValue sampleOpen sampleOpen_ok).2
    [{ now := 15, signers := [1], instr := .outside closedWorld }]

theorem closedRun_ok : closedRun.toBool = true := rfl

/-- Past its expiry, the owner alone cannot close the mandate whose source is gone. -/
theorem owner_has_no_exit :
    let s := (okValue closedRun closedRun_ok).2
    sampleRuntime.token.DecidesDelegation ∧ sampleRuntime.token.KeepsHolders ∧
    Run (MandateStep sampleRuntime) (okValue sampleOpen sampleOpen_ok).2
      (okValue closedRun closedRun_ok).1 s ∧
    s.mandate.expiresAt ≤ 2000 ∧ s.world s.mandate.source = none ∧
    ¬ s.OwnerExit sampleRuntime 2000 := by
  refine ⟨classicToken_delegates, classicToken_keeps, run_okValue closedRun_ok,
    by decide, by decide, ?_⟩
  apply MandateState.Stuck.no_exit classicToken_delegates classicToken_keeps
  constructor
  · decide
  · decide
  · rintro ⟨program, -, hholder⟩
    have hgone : (okValue closedRun closedRun_ok).2.world.holderOf
        (okValue closedRun closedRun_ok).2.mandate.source = none := by decide
    rw [hgone] at hholder
    cases hholder

end Sample

end Veto

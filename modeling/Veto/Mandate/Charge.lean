import Veto.Mandate.Run

/-!
# When a charge decides

A charge is meant to succeed whether it is paid or refused: a failed one is rolled back
and leaves no record.  The policy foresees every way the transfer can fail except two that
no constraint excludes: the source account may have been made anew for another mint, and
the token program named need not be the one that owns the accounts.
-/

namespace Veto

open Foundation

/-! ## The address of a mandate -/

/-- The mandate stands at the address its own fields derive. -/
def MandateState.Canonical (rt : Runtime) (s : MandateState) : Prop :=
  rt.pda.find (mandateSeeds s.mandate.owner s.mandate.mandateId) = (s.key, s.mandate.bump)

theorem MandateState.Canonical.create {rt : Runtime} {s : MandateState} (h : s.Canonical rt) :
    rt.pda.create (mandateSeeds s.mandate.owner s.mandate.mandateId ++
      [.bump s.mandate.bump]) = some s.key := by
  have hfind := rt.pda.create_find (mandateSeeds s.mandate.owner s.mandate.mandateId)
  rw [show rt.pda.find _ = _ from h] at hfind
  exact hfind

theorem MandateState.Canonical.opened {rt : Runtime} {now : Int64} {signers : List Pubkey}
    {accts : OpenMandate} {args : OpenMandateArgs} {w : World} {o : MandateOutput}
    {s : MandateState} (h : openMandate rt now signers accts args w = .ok (o, s)) :
    s.Canonical rt := by
  have hopened := openMandate_opened h
  obtain ⟨bump, hm⟩ := hopened.mandate
  rw [Canonical, ← hopened.address, hm]
  rfl

theorem MandateEffect.canonical {rt : Runtime} {s s' : MandateState} {i : MandateInput}
    {o : MandateOutput} (h : MandateEffect s i o s') (hs : s.Canonical rt) :
    s'.Canonical rt := by
  cases h with
  | paid => exact hs
  | refused => exact hs
  | granted => exact hs
  | revoked => exact hs
  | outside => exact hs

theorem MandateState.Canonical.run {rt : Runtime} {s₀ s : MandateState} {h : MandateHistory}
    (run : Run (MandateStep rt) s₀ h s) (start : s₀.Canonical rt) : s.Canonical rt :=
  run.preserves (fun _ _ _ _ hs hstep => (MandateStep.effect hstep).canonical hs) start

/-! ## What a charge was given -/

/-- What the constraints of `Charge` say of the accounts that were loaded. -/
structure Charge.Loaded (accts : Charge) (s : MandateState) (ctx : ChargeCtx) : Prop where
  source : s.world.tokenAt accts.source = some ctx.source
  destination : s.world.tokenAt accts.destination = some ctx.destination
  mint : (s.world accts.mint).bind (fun info => info.data.mint?) = some ctx.mint
  named : accts.mint = s.mandate.mint
  paid : ctx.destination.mint = s.mandate.mint

theorem World.mintAt_of_load {w : World} {programs : List Pubkey} {missing : AnchorError}
    {k : Pubkey} {m : Mint} (h : w.load programs missing AccountData.mint? k = .ok m) :
    (w k).bind (fun info => info.data.mint?) = some m := by
  unfold World.load at h
  cases hk : w k with
  | none =>
      rw [hk] at h
      cases h
  | some info =>
      rw [hk] at h
      obtain ⟨-, h⟩ := require_bind_ok_iff.mp h
      exact okOr_eq_ok.mp h

theorem Charge.loaded {accts : Charge} {rt : Runtime} {signers : List Pubkey} {s : MandateState}
    {ctx : ChargeCtx} (h : accts.load rt signers s = .ok ctx) : accts.Loaded s ctx := by
  unfold Charge.load tokenInterface at h
  simp only [↓signer_bind_ok_iff, ↓require_bind_ok_iff, bind_ok_iff] at h
  obtain ⟨-, -, hmint, -, -, source, hsource, destination, hdestination, hpaid, mint, hm, -, h⟩ := h
  cases h
  exact ⟨World.tokenAt_of_load hsource, World.tokenAt_of_load hdestination,
    World.mintAt_of_load hm, hmint.symm, hpaid⟩

/-- The program that owns the account at an address. -/
def World.ownerOf (w : World) (k : Pubkey) : Option Pubkey := (w k).map AccountInfo.owner

theorem World.eq_of_ownerOf {w : World} {k program : Pubkey} (h : w.ownerOf k = some program) :
    ∃ data, w k = some ⟨program, data⟩ := by
  obtain ⟨info, hk, howner⟩ := Option.map_eq_some_iff.mp h
  exact ⟨info.data, by rw [hk, ← howner]⟩

theorem World.ownerOf_eq {w : World} {k program : Pubkey} {data : AccountData}
    (h : w k = some ⟨program, data⟩) : w.ownerOf k = some program := by
  unfold World.ownerOf
  rw [h]
  rfl

/-- The token program named owns the three accounts, and the source is of the mandate's mint. -/
structure Charge.Coherent (accts : Charge) (s : MandateState) (source : TokenAccount) : Prop where
  sourceOwned : s.world.ownerOf accts.source = some accts.tokenProgram
  destinationOwned : s.world.ownerOf accts.destination = some accts.tokenProgram
  mintOwned : s.world.ownerOf accts.mint = some accts.tokenProgram
  kind : source.mint = s.mandate.mint

/-! ## What a charge decided -/

/-- A refusal: the world is as it was, and of the mandate only the refusal count and, for a
first refusal after the expiry, the status changed. -/
structure Charge.Refused (s s' : MandateState) (reason : Reason) : Prop where
  world : s'.world = s.world
  mandate : s'.mandate =
    { s.mandate with
      refusalCount := saturatingSucc s.mandate.refusalCount
      status := s'.mandate.status }
  status : s'.mandate.status ≠ s.mandate.status →
    reason = .expired ∧ s.mandate.status = .active ∧ s'.mandate.status = .expired

/-- A payment: the amount left the source and its allowance, and reached the merchant. -/
structure Charge.Paid (accts : Charge) (s s' : MandateState) (ctx : ChargeCtx) (amount : UInt64) :
    Prop where
  spent : s'.mandate.spent.toNat = s.mandate.spent.toNat + amount.toNat
  merchant : ctx.destination.owner = s.mandate.merchant
  debited : accts.source ≠ accts.destination → ∃ source', s'.world.tokenAt accts.source = some source' ∧
    source'.amount.toNat + amount.toNat = ctx.source.amount.toNat ∧
    source'.delegatedAmount.toNat + amount.toNat = ctx.source.delegatedAmount.toNat
  credited : accts.source ≠ accts.destination → ∃ destination',
    s'.world.tokenAt accts.destination = some destination' ∧
    destination'.amount.toNat = ctx.destination.amount.toNat + amount.toNat ∧
    destination'.owner = s.mandate.merchant

/-- A decided charge: one record in the ledger, and a refusal or a payment as the policy said. -/
structure Charge.Decided (accts : Charge) (s : MandateState) (ctx : ChargeCtx)
    (amount nonce : UInt64) (now : Int64) (o : MandateOutput) (s' : MandateState) : Prop where
  recorded : ∃ entry, o.records = [entry] ∧ s'.ledger = s.ledger.record entry
  key : s'.key = s.key
  refused : evaluate s.mandate s.key ctx.source ctx.destination amount nonce now ≠ .ok →
    Charge.Refused s s' (evaluate s.mandate s.key ctx.source ctx.destination amount nonce now)
  paid : evaluate s.mandate s.key ctx.source ctx.destination amount nonce now = .ok →
    accts.Paid s s' ctx amount

theorem Mandate.status_refuse {m : Mandate} {reason : Reason}
    (h : (m.refuse reason).status ≠ m.status) :
    reason = .expired ∧ m.status = .active ∧ (m.refuse reason).status = .expired := by
  by_cases hexpired : reason = .expired ∧ m.status = .active
  · exact ⟨hexpired.1, hexpired.2, if_pos hexpired⟩
  · exact absurd (if_neg hexpired) h

section

variable {rt : Runtime} {s : MandateState} {accts : Charge} {ctx : ChargeCtx}
  {signers : List Pubkey} {amount nonce : UInt64} {now : Int64}

/-- The transfer a charge asks for. -/
def Charge.transfer (accts : Charge) (s : MandateState) : TransferChecked :=
  { source := accts.source, destination := accts.destination, authority := s.key,
    mint := accts.mint }

theorem Charge.Loaded.room (hloaded : accts.Loaded s ctx)
    (hfit : accts.source ≠ accts.destination →
      ctx.source.amount.toNat + ctx.destination.amount.toNat < 2 ^ 64) :
    (accts.transfer s).source ≠ (accts.transfer s).destination →
      s.world.balance (accts.transfer s).source + s.world.balance (accts.transfer s).destination <
        2 ^ 64 := by
  intro hne
  show s.world.balance accts.source + s.world.balance accts.destination < 2 ^ 64
  rw [World.balance_eq hloaded.source, World.balance_eq hloaded.destination]
  exact hfit hne

/-- What the policy lets through is a transfer the token program allows, exactly on
coherent accounts. -/
theorem Charge.transferAllowed_iff (hloaded : accts.Loaded s ctx)
    (hok : evaluate s.mandate s.key ctx.source ctx.destination amount nonce now = .ok) :
    (∃ src dst m, TransferAllowed accts.tokenProgram s.world (accts.transfer s) amount
      ctx.mint.decimals src dst m) ↔ accts.Coherent s ctx.source := by
  obtain ⟨-, -, -, -, -, -, -, hdelegate, ⟨hallowance, hfunds⟩, hsf, hdf⟩ :=
    evaluate_eq_ok_iff.mp hok
  constructor
  · rintro ⟨src, dst, m, h⟩
    have hsrc := (World.tokenAt_eq h.source).symm.trans hloaded.source
    rw [Option.some.injEq] at hsrc
    subst hsrc
    refine ⟨World.ownerOf_eq h.source, World.ownerOf_eq h.destination, World.ownerOf_eq h.mint, ?_⟩
    rw [← hloaded.named]
    exact h.mints.1
  · rintro ⟨hsource, hdestination, hm, hmint⟩
    obtain ⟨sdata, hsource⟩ := World.eq_of_ownerOf hsource
    obtain ⟨ddata, hdestination⟩ := World.eq_of_ownerOf hdestination
    obtain ⟨mdata, hm⟩ := World.eq_of_ownerOf hm
    have hsdata : sdata = .token ctx.source := by
      have hat := hloaded.source
      unfold World.tokenAt at hat
      rw [hsource] at hat
      cases sdata <;> simp_all [AccountData.token?]
    have hddata : ddata = .token ctx.destination := by
      have hat := hloaded.destination
      unfold World.tokenAt at hat
      rw [hdestination] at hat
      cases ddata <;> simp_all [AccountData.token?]
    have hmdata : mdata = .mint ctx.mint := by
      have hat := hloaded.mint
      rw [hm] at hat
      cases mdata <;> simp_all [AccountData.mint?]
    subst hsdata hddata hmdata
    refine ⟨ctx.source, ctx.destination, ctx.mint, hsource, hdestination, hm, ⟨hsf, hdf⟩,
      ⟨hmint.trans hloaded.named.symm, hloaded.paid.trans hloaded.named.symm⟩, rfl, hfunds, ?_⟩
    show ctx.source.allows s.key amount = true
    unfold TokenAccount.allows
    rw [if_pos hdelegate]
    exact decide_eq_true hallowance

/-- A charge that the policy refuses is recorded, whatever the accounts. -/
theorem Charge.decided_of_refused (hload : accts.load rt signers s = .ok ctx)
    (hcanonical : s.Canonical rt)
    (hreason : evaluate s.mandate s.key ctx.source ctx.destination amount nonce now ≠ .ok) :
    ∃ o s', charge rt now signers accts amount nonce s = .ok (o, s') ∧
      accts.Decided s ctx amount nonce now o s' := by
  unfold charge
  simp only [hload, hcanonical.create, okOr, require, if_pos, bind, Except.bind, hreason,
    if_false, pure, Except.pure]
  refine ⟨_, _, rfl, ⟨_, rfl, rfl⟩, rfl, ?_, fun hok => absurd hok hreason⟩
  intro _
  exact ⟨rfl, rfl, Mandate.status_refuse⟩

/-- A charge that the policy lets through pays when the transfer is allowed. -/
theorem Charge.decided_of_paid (htoken : rt.token.DecidesTransfers)
    (hload : accts.load rt signers s = .ok ctx) (hcanonical : s.Canonical rt)
    (hfit : accts.source ≠ accts.destination →
      ctx.source.amount.toNat + ctx.destination.amount.toNat < 2 ^ 64)
    (hreason : evaluate s.mandate s.key ctx.source ctx.destination amount nonce now = .ok)
    (hcoherent : accts.Coherent s ctx.source) :
    ∃ o s', charge rt now signers accts amount nonce s = .ok (o, s') ∧
      accts.Decided s ctx amount nonce now o s' := by
  have hloaded := Charge.loaded hload
  obtain ⟨-, -, -, -, hmerchant, -, ⟨spent, hspent, -⟩, hdelegate, ⟨hallowance, hfunds⟩, -, -⟩ :=
    evaluate_eq_ok_iff.mp hreason
  have hsome := (htoken.allowed_iff accts.tokenProgram s.world (accts.transfer s) amount
    ctx.mint.decimals (hloaded.room hfit)).mpr ((Charge.transferAllowed_iff hloaded hreason).mpr hcoherent)
  obtain ⟨w, hw⟩ := Option.isSome_iff_exists.mp hsome
  unfold charge
  simp only [hload, hcanonical.create, okOr, require, if_pos, bind, Except.bind, hreason, pure,
    Except.pure, show rt.token.transferChecked accts.tokenProgram s.world
      { source := accts.source, destination := accts.destination, authority := s.key,
        mint := accts.mint } amount ctx.mint.decimals = some w from hw, hspent]
  refine ⟨_, _, rfl, ⟨_, rfl, rfl⟩, rfl, fun hne => absurd hreason hne, fun _ => ?_⟩
  refine ⟨checkedAdd_eq_some.mp hspent, hmerchant, fun hne => ?_, fun hne => ?_⟩
  · obtain ⟨hsource, -, -⟩ :=
      htoken.moves _ _ _ _ _ _ _ _ hw hne hloaded.source hloaded.destination
    refine ⟨_, hsource, ?_, ?_⟩
    · rw [TokenAccount.debit_amount, UInt64.toNat_sub_of_le _ _ hfunds]
      have hle := UInt64.le_iff_toNat_le.mp hfunds
      omega
    · have hdebit : (ctx.source.debit s.key amount).delegatedAmount =
          ctx.source.delegatedAmount - amount := by
        unfold TokenAccount.debit
        rw [if_pos hdelegate]
      have hle := UInt64.le_iff_toNat_le.mp hallowance
      show (ctx.source.debit s.key amount).delegatedAmount.toNat + _ = _
      rw [hdebit, UInt64.toNat_sub_of_le _ _ hallowance]
      omega
  · obtain ⟨-, hdestination, hroom⟩ :=
      htoken.moves _ _ _ _ _ _ _ _ hw hne hloaded.source hloaded.destination
    refine ⟨_, hdestination, ?_, hmerchant⟩
    rw [UInt64.toNat_add, Nat.mod_eq_of_lt hroom]

/-- A charge that the policy lets through succeeds on coherent accounts only. -/
theorem Charge.coherent_of_ok (htoken : rt.token.DecidesTransfers)
    (hload : accts.load rt signers s = .ok ctx)
    (hfit : accts.source ≠ accts.destination →
      ctx.source.amount.toNat + ctx.destination.amount.toNat < 2 ^ 64)
    (hreason : evaluate s.mandate s.key ctx.source ctx.destination amount nonce now = .ok)
    {o : MandateOutput} {s' : MandateState}
    (hcharge : charge rt now signers accts amount nonce s = .ok (o, s')) :
    accts.Coherent s ctx.source := by
  have hloaded := Charge.loaded hload
  unfold charge at hcharge
  obtain ⟨ctx', hload', hcharge⟩ := bind_ok_iff.mp hcharge
  rw [hload, Except.ok.injEq] at hload'
  subst hload'
  obtain ⟨expected, -, hcharge⟩ := bind_ok_iff.mp hcharge
  obtain ⟨-, hcharge⟩ := require_bind_ok_iff.mp hcharge
  simp only [if_pos hreason] at hcharge
  obtain ⟨w, hw, -⟩ := bind_ok_iff.mp hcharge
  rw [okOr_eq_ok] at hw
  have hsome : (rt.token.transferChecked accts.tokenProgram s.world (accts.transfer s) amount
      ctx.mint.decimals).isSome := Option.isSome_iff_exists.mpr ⟨w, hw⟩
  have hallowed := (htoken.allowed_iff _ _ _ _ _ (hloaded.room hfit)).mp hsome
  exact (Charge.transferAllowed_iff hloaded hreason).mp hallowed

end

/-- **When a charge decides.**  In every state a mandate can reach, a charge whose accounts
meet the constraints succeeds, writes one record and pays or refuses as the policy says,
exactly when the policy refuses it or its accounts are coherent.  Two accounts of one mint
hold no more than its supply, which is a word. -/
theorem charge_decides_iff {rt : Runtime} (htoken : rt.token.DecidesTransfers) {opened now : Int64}
    {owners signers : List Pubkey} {opening : OpenMandate} {args : OpenMandateArgs} {w : World}
    {o₀ : MandateOutput} {s₀ s : MandateState} {h : MandateHistory}
    (hopen : openMandate rt opened owners opening args w = .ok (o₀, s₀))
    (run : Run (MandateStep rt) s₀ h s) {accts : Charge} {ctx : ChargeCtx}
    (hload : accts.load rt signers s = .ok ctx) (amount nonce : UInt64)
    (hfit : accts.source ≠ accts.destination →
      ctx.source.amount.toNat + ctx.destination.amount.toNat < 2 ^ 64) :
    (∃ o s', charge rt now signers accts amount nonce s = .ok (o, s') ∧
      accts.Decided s ctx amount nonce now o s') ↔
    evaluate s.mandate s.key ctx.source ctx.destination amount nonce now ≠ .ok ∨
      accts.Coherent s ctx.source := by
  have hcanonical := MandateState.Canonical.run run (.opened hopen)
  constructor
  · rintro ⟨o, s', hcharge, -⟩
    by_cases hreason : evaluate s.mandate s.key ctx.source ctx.destination amount nonce now = .ok
    · exact .inr (Charge.coherent_of_ok htoken hload hfit hreason hcharge)
    · exact .inl hreason
  · intro hcondition
    by_cases hreason : evaluate s.mandate s.key ctx.source ctx.destination amount nonce now = .ok
    · have hcoherent := hcondition.resolve_left (not_not.mpr hreason)
      exact Charge.decided_of_paid htoken hload hcanonical hfit hreason hcoherent
    · exact Charge.decided_of_refused hload hcanonical hreason

/-! ### One payment, and one charge that fails -/

section Sample

def chargeAccounts : Charge :=
  { agent := 2, ledger := 101, source := 10, destination := 11, mint := 3,
    tokenProgram := splTokenId }

def sampleLoad : Except ProgramError ChargeCtx :=
  chargeAccounts.load sampleRuntime [2] (okValue sampleOpen sampleOpen_ok).2

theorem sampleLoad_ok : sampleLoad.toBool = true := rfl

/-- A first charge of 30 in the sample is paid. -/
theorem charge_decides_iff_sample :
    let s := (okValue sampleOpen sampleOpen_ok).2
    ∃ o s', charge sampleRuntime 20 [2] chargeAccounts 30 1 s = .ok (o, s') ∧
      chargeAccounts.Decided s (okValue sampleLoad sampleLoad_ok) 30 1 20 o s' := by
  have hfit : chargeAccounts.source ≠ chargeAccounts.destination →
      (okValue sampleLoad sampleLoad_ok).source.amount.toNat +
        (okValue sampleLoad sampleLoad_ok).destination.amount.toNat < 2 ^ 64 := by
    intro _
    decide
  have hcoherent : chargeAccounts.Coherent (okValue sampleOpen sampleOpen_ok).2
      (okValue sampleLoad sampleLoad_ok).source := by
    constructor
    · decide
    · decide
    · decide
    · decide
  exact (charge_decides_iff classicToken_decides (eq_ok_okValue_pair sampleOpen sampleOpen_ok)
    .start (eq_ok_okValue sampleLoad sampleLoad_ok) 30 1 hfit).mpr (.inr hcoherent)

/-- The source account 10, closed by its owner and made anew for mint 5, with the mandate
as its delegate again. -/
def renewedWorld : World := fun k =>
  if k = 10 then some ⟨splTokenId, .token ⟨5, 1, 100, some 100, 100, false⟩⟩ else sampleWorld k

def renewedRun : Except ProgramError (MandateHistory × MandateState) :=
  execAll (MandateState.exec sampleRuntime) [] (okValue sampleOpen sampleOpen_ok).2
    [{ now := 15, signers := [1], instr := .outside renewedWorld }]

theorem renewedRun_ok : renewedRun.toBool = true := rfl

def renewedLoad : Except ProgramError ChargeCtx :=
  chargeAccounts.load sampleRuntime [2] (okValue renewedRun renewedRun_ok).2

theorem renewedLoad_ok : renewedLoad.toBool = true := rfl

def renewedCharge : MandateResult :=
  charge sampleRuntime 20 [2] chargeAccounts 30 1 (okValue renewedRun renewedRun_ok).2

/-- On the renewed source the policy lets a charge of 30 through and the charge fails. -/
theorem charge_fails_on_renewed_source :
    let s := (okValue renewedRun renewedRun_ok).2
    let ctx := okValue renewedLoad renewedLoad_ok
    sampleRuntime.token.DecidesTransfers ∧
    Run (MandateStep sampleRuntime) (okValue sampleOpen sampleOpen_ok).2
      (okValue renewedRun renewedRun_ok).1 s ∧
    chargeAccounts.load sampleRuntime [2] s = .ok ctx ∧
    evaluate s.mandate s.key ctx.source ctx.destination 30 1 20 = .ok ∧
    ¬ ∃ o s', charge sampleRuntime 20 [2] chargeAccounts 30 1 s = .ok (o, s') := by
  have hallowed : evaluate (okValue renewedRun renewedRun_ok).2.mandate
      (okValue renewedRun renewedRun_ok).2.key (okValue renewedLoad renewedLoad_ok).source
      (okValue renewedLoad renewedLoad_ok).destination 30 1 20 = .ok := by decide
  refine ⟨classicToken_decides, run_okValue renewedRun_ok,
    eq_ok_okValue renewedLoad renewedLoad_ok, hallowed, ?_⟩
  rintro ⟨o, s', hcharge⟩
  have hfails : renewedCharge.toBool = false := by decide
  unfold renewedCharge at hfails
  rw [hcharge] at hfails
  cases hfails

end Sample

end Veto

import Veto.Hold.Instructions

/-!
# What one Hold instruction can do

`HoldEffect` lists every way a step can change a vault, with the checks that
were passed on the way.  `effect_of_step` reads it off the instructions once;
the results about runs work from it alone.
-/

namespace Veto

open Foundation

/-! ## Lemmas for the parts of an instruction -/

/-- A share taken of the whole part and of the rest is the share, rounded down. -/
theorem share_split (balance bps : Nat) :
    balance / 10000 * bps + balance % 10000 * bps / 10000 = balance * bps / 10000 := by
  have hsplit : balance * bps =
      balance % 10000 * bps + 10000 * (balance / 10000 * bps) := by
    calc balance * bps
        = (balance % 10000 + 10000 * (balance / 10000)) * bps := by rw [Nat.mod_add_div]
      _ = _ := by rw [Nat.add_mul, Nat.mul_assoc]
  rw [hsplit, Nat.add_mul_div_left _ _ (by decide), Nat.add_comm]

/-- What `share_cap` returns is the share, rounded down. -/
theorem shareCap_eq_ok {balance cap : UInt64} {bps : UInt16} (h : shareCap balance bps = .ok cap) :
    cap.toNat = balance.toNat * bps.toNat / 10000 := by
  unfold shareCap at h
  simp only [↓require_bind_ok_iff, bind_ok_iff, okOr_eq_ok] at h
  obtain ⟨-, fromWhole, hwhole, product, hproduct, hadd⟩ := h
  rw [checkedMul_eq_some] at hwhole hproduct
  rw [checkedAdd_eq_some, UInt64.toNat_div] at hadd
  rw [UInt64.toNat_div] at hwhole
  rw [UInt64.toNat_mod] at hproduct
  have hden : HOLD_BPS_DENOMINATOR.toNat = 10000 := rfl
  have hbps : bps.toUInt64.toNat = bps.toNat := UInt16.toNat_toUInt64 bps
  rw [hden, hbps] at hwhole hproduct
  rw [hden] at hadd
  rw [← share_split, ← hproduct, ← hwhole, hadd]

structure ValidRules (delaySecs : Int64) (bigShareBps : UInt16)
    (safeAddress guardian owner vault : Pubkey) : Prop where
  delay : delayAllowed delaySecs
  share : bigShareBps.toUInt64 ≤ HOLD_BPS_DENOMINATOR
  safe : safeAddress ≠ Pubkey.default ∧ safeAddress ≠ vault
  guardian : guardian = Pubkey.default ∨ guardian ≠ owner

theorem ValidRules.of_requireRules {delaySecs : Int64} {bigShareBps : UInt16}
    {safeAddress guardian owner vault : Pubkey} {u : Unit}
    (h : requireRules delaySecs bigShareBps safeAddress guardian owner vault = .ok u) :
    ValidRules delaySecs bigShareBps safeAddress guardian owner vault := by
  unfold requireRules at h
  simp only [↓require_bind_ok_iff, require_eq_ok] at h
  obtain ⟨delay, share, safe, safe', guardian⟩ := h
  exact ⟨delay, share, ⟨safe, safe'⟩, guardian⟩

/-- The rules of a vault are ones that `require_rules` accepts. -/
def HoldVault.Valid (vault : HoldVault) (key : Pubkey) : Prop :=
  ValidRules vault.delaySecs vault.bigShareBps vault.safeAddress vault.guardian vault.owner key

def HoldChange.Valid (values : HoldChange) (owner key : Pubkey) : Prop :=
  ValidRules values.delaySecs values.bigShareBps values.safeAddress values.guardian owner key

namespace HoldVault

variable {vault : HoldVault}

/-- A withdrawal is paid at once exactly under the instant rules. -/
theorem canPayNow_eq_true {balance amount : UInt64} {destination : Pubkey} {now : Int64}
    (h : vault.canPayNow balance destination amount now = .ok true) :
    vault.frozen = false ∧ vault.isKnown destination ∧
      ∃ before total cap, spent vault.dailyBuckets now = some before ∧
        total.toNat = before.toNat + amount.toNat ∧ total ≤ vault.dailyLimit ∧
        shareCap balance vault.bigShareBps = .ok cap ∧ total ≤ cap := by
  unfold canPayNow at h
  split at h
  · cases h
  · rename_i hlive
    rw [not_or, Bool.not_eq_true, not_not] at hlive
    split at h
    · cases h
    · rename_i total htotal
      split at h
      · cases h
      · rename_i hdaily
        obtain ⟨before, hbefore, hadd⟩ := Option.bind_eq_some_iff.mp htotal
        obtain ⟨cap, hcap, h⟩ := bind_ok_iff.mp h
        have hle : total ≤ cap := by
          cases hd : decide (total ≤ cap) with
          | true => exact of_decide_eq_true hd
          | false =>
              rw [hd] at h
              cases h
        exact ⟨hlive.1, hlive.2, before, total, cap, hbefore, checkedAdd_eq_some.mp hadd,
          UInt64.not_lt.mp hdaily, hcap, hle⟩

theorem of_position {test : PendingWithdrawal → Bool} {index : Fin HOLD_PENDING_CAPACITY}
    (h : vault.position test = some index) : test (vault.pending.row index) = true := by
  unfold position at h
  have htest := List.find?_some h
  exact htest

theorem of_firstEmpty {index : Fin HOLD_PENDING_CAPACITY} (h : vault.firstEmpty = some index) :
    (vault.pending.row index).status = .empty := by
  simpa using of_position h

theorem of_findPending {id : UInt64} {index : Fin HOLD_PENDING_CAPACITY}
    (h : vault.findPending id = .ok index) :
    (vault.pending.row index).status = .pending ∧ (vault.pending.row index).id = id := by
  unfold findPending at h
  rw [okOr_eq_ok] at h
  simpa using of_position h

/-- The vault after the row of a slot was paid. -/
def afterPayment (vault : HoldVault) (index : Fin HOLD_PENDING_CAPACITY) (now : Int64) :
    HoldVault :=
  { vault with
    dailyBuckets := Veto.recordRelease vault.dailyBuckets (vault.pending.row index).amount now
    known := (vault.remember (vault.pending.row index).destination).known
    knownLen := (vault.remember (vault.pending.row index).destination).knownLen
    pending := vault.pending.put index .default }

theorem remember_recordRelease (vault : HoldVault) (destination : Pubkey) (amount : UInt64)
    (now : Int64) :
    (vault.recordRelease amount now).remember destination =
      { vault with
        dailyBuckets := Veto.recordRelease vault.dailyBuckets amount now
        known := (vault.remember destination).known
        knownLen := (vault.remember destination).knownLen } := by
  have hsame : (vault.recordRelease amount now).isKnown destination ↔ vault.isKnown destination :=
    Iff.rfl
  by_cases hknown : vault.isKnown destination
  · simp only [remember, if_pos hknown, if_pos (hsame.mpr hknown)]
    rfl
  · have hlen : (vault.recordRelease amount now).knownLen = vault.knownLen := rfl
    by_cases hfull : HOLD_KNOWN_CAPACITY ≤ vault.knownLen.toNat
    · simp only [remember, if_neg hknown, if_neg (mt hsame.mp hknown), hlen, if_pos hfull]
      rfl
    · simp only [remember, if_neg hknown, if_neg (mt hsame.mp hknown), hlen, if_neg hfull]
      rfl

/-- Recording, remembering and clearing touch four fields and no other. -/
theorem afterPayment_eq (vault : HoldVault) (index : Fin HOLD_PENDING_CAPACITY) (now : Int64) :
    ((vault.recordRelease (vault.pending.row index).amount now).remember
      (vault.pending.row index).destination).clearRow index = vault.afterPayment index now := by
  rw [remember_recordRelease]
  rfl

end HoldVault

/-- A transfer of the vault's tokens to a destination, signed by the vault. -/
structure PaysOut (rt : Runtime) (s : HoldState) (destination : Pubkey) (amount : UInt64)
    (w : World) : Prop where
  sent : ∃ decimals, rt.token.transferChecked splTokenId s.world
    { source := s.vault.vaultToken, destination := destination, authority := s.key,
      mint := s.vault.mint } amount decimals = some w
  apart : destination ≠ s.vault.vaultToken

theorem PayoutAccounts.load_eq_ok {accts : PayoutAccounts} {rt : Runtime} {s : HoldState}
    {ctx : PayoutCtx} (h : accts.load rt s = .ok ctx) :
    s.world.interfaceToken s.vault.vaultToken = .ok ctx.vaultToken ∧
      s.world.interfaceToken accts.destination = .ok ctx.destination ∧
      accts.tokenProgram = splTokenId := by
  unfold PayoutAccounts.load at h
  simp only [HoldState.requireVaultSeeds, HoldState.requireLedger, HoldState.requireTokenSeeds,
    HoldState.requireTokenProgram] at h
  simp only [↓require_bind_ok_iff, bind_ok_iff] at h
  obtain ⟨-, hvault, -, -, vaultToken, hvaultToken, -, -, destination, hdestination, -, -, mint, -,
    hprogram, h⟩ := h
  cases h
  rw [hvault]
  exact ⟨hvaultToken, hdestination, hprogram⟩

theorem PaysOut.of_transferOutParts {rt : Runtime} {s : HoldState} {accts : PayoutAccounts}
    {ctx : PayoutCtx} {amount : UInt64} {w : World} (hload : accts.load rt s = .ok ctx)
    (h : transferOutParts rt s accts ctx amount = .ok w) :
    PaysOut rt s accts.destination amount w := by
  obtain ⟨-, -, hprogram⟩ := PayoutAccounts.load_eq_ok hload
  unfold transferOutParts at h
  obtain ⟨-, -, h⟩ := bind_ok_iff.mp h
  simp only [↓require_bind_ok_iff, okOr_eq_ok] at h
  obtain ⟨hvault, -, -, hmint, -, hapart, -, hsent⟩ := h
  rw [hvault] at hapart hsent
  rw [hmint, hprogram] at hsent
  exact ⟨⟨_, hsent⟩, hapart⟩

structure RowAt (vault : HoldVault) (id : UInt64) (index : Fin HOLD_PENDING_CAPACITY)
    (row : PendingWithdrawal) : Prop where
  row_eq : vault.pending.row index = row
  pending : row.status = .pending
  id_eq : row.id = id

theorem RowAt.of_findPending {vault : HoldVault} {id : UInt64}
    {index : Fin HOLD_PENDING_CAPACITY} (h : vault.findPending id = .ok index) :
    RowAt vault id index (vault.pending.row index) :=
  ⟨rfl, (HoldVault.of_findPending h).1, (HoldVault.of_findPending h).2⟩

def HoldLedger.recordAll (l : HoldLedger) (entries : List HoldEntry) : HoldLedger :=
  entries.foldl HoldLedger.record l

def heldRow (vault : HoldVault) (amount : UInt64) (destination : Pubkey) (unlockAt : Int64) :
    PendingWithdrawal where
  id := vault.nextWithdrawalId
  amount := amount
  destination := destination
  unlockAt := unlockAt
  status := .pending

/-! ## The effects -/

/-- Every way one step can change a vault: the records it writes, the vault and
the accounts of other programs after it. -/
inductive HoldEffect (rt : Runtime) (s : HoldState) (i : HoldInput) :
    List HoldEntry → HoldVault → World → Prop
  | deposited {accts : Deposit} {amount : UInt64} {w : World}
      (instr : i.instr = .deposit accts amount)
      (signed : s.vault.owner ∈ i.signers)
      (positive : 0 < amount)
      (sent : ∃ decimals, rt.token.transferChecked splTokenId s.world
        { source := accts.source, destination := s.vault.vaultToken,
          authority := s.vault.owner, mint := s.vault.mint } amount decimals = some w) :
      HoldEffect rt s i [holdEntry i.now .deposited amount s.key 0 HOLD_REASON_NONE] s.vault w
  | paid {accts : Withdraw} {amount balance before total cap : UInt64} {w : World}
      (instr : i.instr = .withdraw accts amount)
      (signed : s.vault.owner ∈ i.signers)
      (positive : 0 < amount)
      (live : s.vault.frozen = false)
      (known : s.vault.isKnown accts.out.destination)
      (counted : spent s.vault.dailyBuckets i.now = some before)
      (sum : total.toNat = before.toNat + amount.toNat)
      (daily : total ≤ s.vault.dailyLimit)
      (balance_eq : s.world.balance s.vault.vaultToken = balance.toNat)
      (share : shareCap balance s.vault.bigShareBps = .ok cap)
      (within : total ≤ cap)
      (pays : PaysOut rt s accts.out.destination amount w) :
      HoldEffect rt s i [holdEntry i.now .paid amount accts.out.destination 0 HOLD_REASON_NONE]
        (s.vault.recordRelease amount i.now) w
  | refused {accts : Withdraw} {amount : UInt64} {reason : UInt8}
      (instr : i.instr = .withdraw accts amount)
      (signed : s.vault.owner ∈ i.signers)
      (positive : 0 < amount)
      (why : reason = HOLD_REASON_INSUFFICIENT_FUNDS ∨
        reason = HOLD_REASON_PENDING_FULL ∧ s.vault.firstEmpty = none) :
      HoldEffect rt s i [holdEntry i.now .refused amount accts.out.destination 0 reason]
        s.vault s.world
  | held {accts : Withdraw} {amount next : UInt64} {unlockAt : Int64}
      {index : Fin HOLD_PENDING_CAPACITY}
      (instr : i.instr = .withdraw accts amount)
      (signed : s.vault.owner ∈ i.signers)
      (positive : 0 < amount)
      (unlock : unlockAt.toInt = i.now.toInt + s.vault.delaySecs.toInt)
      (vacant : (s.vault.pending.row index).status = .empty)
      (succ : next.toNat = s.vault.nextWithdrawalId.toNat + 1) :
      HoldEffect rt s i
        [holdEntry i.now .held amount accts.out.destination s.vault.nextWithdrawalId
          HOLD_REASON_NONE]
        { s.vault.setRow index (heldRow s.vault amount accts.out.destination unlockAt) with
          nextWithdrawalId := next }
        s.world
  | executed {accts : Execute} {id : UInt64} {index : Fin HOLD_PENDING_CAPACITY}
      {row : PendingWithdrawal} {w : World}
      (instr : i.instr = .execute accts id)
      (found : RowAt s.vault id index row)
      (live : s.vault.frozen = false)
      (unlocked : row.unlockAt ≤ i.now)
      (pays : PaysOut rt s row.destination row.amount w) :
      HoldEffect rt s i [holdEntry i.now .paid row.amount row.destination id HOLD_REASON_NONE]
        (s.vault.afterPayment index i.now) w
  | stopped {accts : Stop} {id : UInt64} {index : Fin HOLD_PENDING_CAPACITY}
      {row : PendingWithdrawal}
      (instr : i.instr = .stop accts id)
      (signed : s.vault.owner ∈ i.signers ∨ s.vault.guardian ∈ i.signers)
      (found : RowAt s.vault id index row) :
      HoldEffect rt s i [holdEntry i.now .stopped row.amount row.destination id HOLD_REASON_NONE]
        (s.vault.clearRow index) s.world
  | frozen {accts : Freeze}
      (instr : i.instr = .freeze accts)
      (signed : s.vault.owner ∈ i.signers ∨ s.vault.guardian ∈ i.signers)
      (live : s.vault.frozen = false) :
      HoldEffect rt s i [holdEntry i.now .frozen 0 accts.authority 0 HOLD_REASON_NONE]
        { s.vault with frozen := true } s.world
  | scheduled {accts : Unfreeze} {effectiveAt : Int64}
      (instr : i.instr = .unfreeze accts)
      (signed : s.vault.owner ∈ i.signers)
      (isFrozen : s.vault.frozen = true)
      (alone : s.vault.guardian = Pubkey.default)
      (unarmed : s.vault.unfreezeAt = 0)
      (effective : effectiveAt.toInt = i.now.toInt + s.vault.delaySecs.toInt) :
      HoldEffect rt s i
        [holdEntry i.now .unfreezeScheduled 0 Pubkey.default 0 HOLD_REASON_NONE]
        { s.vault with unfreezeAt := effectiveAt } s.world
  | unfrozen {accts : Unfreeze}
      (instr : i.instr = .unfreeze accts)
      (signed : s.vault.owner ∈ i.signers)
      (isFrozen : s.vault.frozen = true)
      (allowed :
        s.vault.guardian ≠ Pubkey.default ∧ s.vault.guardian ∈ i.signers ∧
            s.vault.guardian ≠ s.vault.owner ∨
          s.vault.guardian = Pubkey.default ∧ s.vault.unfreezeAt ≠ 0 ∧
            s.vault.unfreezeAt ≤ i.now) :
      HoldEffect rt s i [holdEntry i.now .unfrozen 0 Pubkey.default 0 HOLD_REASON_NONE]
        { s.vault with frozen := false, unfreezeAt := 0 } s.world
  | skipped {accts : Skip} {id : UInt64} {index : Fin HOLD_PENDING_CAPACITY}
      {row : PendingWithdrawal} {w : World}
      (instr : i.instr = .skip accts id)
      (signed : s.vault.owner ∈ i.signers)
      (guarded : s.vault.guardian ≠ Pubkey.default)
      (cosigned : s.vault.guardian ∈ i.signers)
      (distinct : s.vault.guardian ≠ s.vault.owner)
      (found : RowAt s.vault id index row)
      (live : s.vault.frozen = false)
      (pays : PaysOut rt s row.destination row.amount w) :
      HoldEffect rt s i [holdEntry i.now .skipped row.amount row.destination id HOLD_REASON_NONE]
        (s.vault.afterPayment index i.now) w
  | recovered {accts : Recover} {amount : UInt64} {w : World}
      (instr : i.instr = .recover accts)
      (signed : s.vault.owner ∈ i.signers ∨ s.vault.guardian ∈ i.signers)
      (safe : s.world.tokenOwner accts.out.destination = some s.vault.safeAddress)
      (pays : PaysOut rt s accts.out.destination amount w) :
      HoldEffect rt s i
        [holdEntry i.now .recovered amount accts.out.destination 0 HOLD_REASON_NONE]
        { s.vault with pending := Vector.replicate HOLD_PENDING_CAPACITY .default } w
  | tightened {accts : ProposeChange} {values : HoldChange}
      (instr : i.instr = .proposeChange accts values)
      (signed : s.vault.owner ∈ i.signers)
      (rules : values.Valid s.vault.owner s.key)
      (loose : values.loosen s.vault = 0) :
      HoldEffect rt s i (tightenOutput i.now s.key (values.tighten s.vault)).records
        (s.vault.applyTighten (values.tighten s.vault) values) s.world
  | proposed {accts : ProposeChange} {values : HoldChange} {effectiveAt : Int64}
      (instr : i.instr = .proposeChange accts values)
      (signed : s.vault.owner ∈ i.signers)
      (rules : values.Valid s.vault.owner s.key)
      (loose : values.loosen s.vault ≠ 0)
      (idle : s.vault.change.active = false)
      (effective : effectiveAt.toInt = i.now.toInt +
        (s.vault.applyTighten (values.tighten s.vault) values).delaySecs.toInt) :
      HoldEffect rt s i
        ((tightenOutput i.now s.key (values.tighten s.vault)).records ++
          [holdEntry i.now .changeProposed 0 values.safeAddress 0 (values.loosen s.vault)])
        { s.vault.applyTighten (values.tighten s.vault) values with
          change := values.queued (values.loosen s.vault) effectiveAt }
        s.world
  | applied {accts : ApplyChange}
      (instr : i.instr = .applyChange accts)
      (active : s.vault.change.active = true)
      (ready : s.vault.change.effectiveAt ≤ i.now)
      (delay : s.vault.change.fields &&& CHANGE_DELAY ≠ 0 → delayAllowed s.vault.change.delaySecs)
      (share : s.vault.change.fields &&& CHANGE_SHARE ≠ 0 →
        s.vault.change.bigShareBps.toUInt64 ≤ HOLD_BPS_DENOMINATOR)
      (guardian : s.vault.change.fields &&& CHANGE_GUARDIAN ≠ 0 ∧
        s.vault.change.guardian ≠ Pubkey.default → s.vault.change.guardian ≠ s.vault.owner)
      (safe : s.vault.change.fields &&& CHANGE_SAFE ≠ 0 →
        s.vault.change.safeAddress ≠ Pubkey.default ∧ s.vault.change.safeAddress ≠ s.key) :
      HoldEffect rt s i
        [holdEntry i.now .changeApplied 0 s.vault.change.safeAddress 0 s.vault.change.fields]
        (s.vault.applyPending s.vault.change) s.world
  | cancelled {accts : CancelChange}
      (instr : i.instr = .cancelChange accts)
      (signed : s.vault.owner ∈ i.signers ∨ s.vault.guardian ∈ i.signers)
      (active : s.vault.change.active = true) :
      HoldEffect rt s i [holdEntry i.now .changeCancelled 0 Pubkey.default 0 HOLD_REASON_NONE]
        { s.vault with change := .default } s.world
  | outside {w : World}
      (instr : i.instr = .outside w) :
      HoldEffect rt s i [] s.vault w

/-- A step has an effect, keeps the address, and adds its records to the ledger. -/
structure StepEffect (rt : Runtime) (s : HoldState) (i : HoldInput) (o : HoldOutput)
    (s' : HoldState) : Prop where
  effect : HoldEffect rt s i o.records s'.vault s'.world
  key_eq : s'.key = s.key
  ledger_eq : s'.ledger = s.ledger.recordAll o.records

/-! ## Reading the effects off the instructions -/

section Reading

variable {rt : Runtime} {s s' : HoldState} {i : HoldInput} {o : HoldOutput}

theorem HoldState.requireOwner_eq_ok {signers : List Pubkey} {owner : Pubkey} {u : Unit}
    (h : s.requireOwner signers owner = .ok u) : owner ∈ signers ∧ s.vault.owner = owner := by
  unfold HoldState.requireOwner at h
  simpa only [↓signer_bind_ok_iff, require_eq_ok] using h

theorem HoldState.requireOwnerOrGuardian_eq_ok {signers : List Pubkey} {authority : Pubkey}
    {u : Unit} (h : s.requireOwnerOrGuardian signers authority = .ok u) :
    s.vault.owner ∈ signers ∨ s.vault.guardian ∈ signers := by
  unfold HoldState.requireOwnerOrGuardian at h
  simp only [↓signer_bind_ok_iff, require_eq_ok] at h
  obtain ⟨hsigner, heq | heq⟩ := h
  · exact .inl (heq ▸ hsigner)
  · exact .inr (heq ▸ hsigner)

theorem AuthorityAccounts.signed_of_load {accts : AuthorityAccounts} {signers : List Pubkey}
    {u : Unit} (h : accts.load rt signers s = .ok u) :
    s.vault.owner ∈ signers ∨ s.vault.guardian ∈ signers := by
  unfold AuthorityAccounts.load at h
  obtain ⟨_, hauthority, -⟩ := bind_ok_iff.mp h
  exact HoldState.requireOwnerOrGuardian_eq_ok hauthority

theorem effect_of_deposit {accts : Deposit} {amount : UInt64}
    (instr : i.instr = .deposit accts amount)
    (h : deposit rt i.now i.signers accts amount s = .ok (o, s')) : StepEffect rt s i o s' := by
  unfold deposit at h
  obtain ⟨mint, hload, h⟩ := bind_ok_iff.mp h
  obtain ⟨positive, h⟩ := require_bind_ok_iff.mp h
  obtain ⟨w, hsent, h⟩ := bind_ok_iff.mp h
  rw [okOr_eq_ok] at hsent
  unfold Deposit.load at hload
  simp only [HoldState.requireVaultSeeds, HoldState.requireLedger, HoldState.requireTokenSeeds,
    HoldState.requireTokenProgram] at hload
  simp only [↓require_bind_ok_iff, bind_ok_iff] at hload
  obtain ⟨_, howner, hmint, hvault, -, -, source, -, -, -, vaultToken, -, -, mint', -, hprogram,
    -⟩ := hload
  obtain ⟨hsigner, howner⟩ := HoldState.requireOwner_eq_ok howner
  rw [← howner] at hsigner hsent
  rw [← hvault, ← hmint, hprogram] at hsent
  cases h
  exact ⟨.deposited instr hsigner positive ⟨_, hsent⟩, rfl, rfl⟩

theorem effect_of_withdraw {accts : Withdraw} {amount : UInt64}
    (instr : i.instr = .withdraw accts amount)
    (h : withdraw rt i.now i.signers accts amount s = .ok (o, s')) : StepEffect rt s i o s' := by
  unfold withdraw at h
  obtain ⟨ctx, hload, h⟩ := bind_ok_iff.mp h
  obtain ⟨positive, h⟩ := require_bind_ok_iff.mp h
  unfold Withdraw.load at hload
  obtain ⟨_, howner, hload⟩ := bind_ok_iff.mp hload
  obtain ⟨ctx', hout, hload⟩ := bind_ok_iff.mp hload
  obtain ⟨-, hload⟩ := require_bind_ok_iff.mp hload
  cases hload
  obtain ⟨hsigner, howner⟩ := HoldState.requireOwner_eq_ok howner
  rw [← howner] at hsigner
  obtain ⟨hvaultToken, -, -⟩ := PayoutAccounts.load_eq_ok hout
  by_cases hfunds : ctx.vaultToken.amount < amount
  · simp only [if_pos hfunds] at h
    cases h
    exact ⟨.refused instr hsigner positive (.inl rfl), rfl, rfl⟩
  simp only [if_neg hfunds] at h
  obtain ⟨payNow, hpay, h⟩ := bind_ok_iff.mp h
  cases payNow with
  | true =>
      simp only [if_true] at h
      obtain ⟨w, hsent, h⟩ := bind_ok_iff.mp h
      obtain ⟨live, known, before, total, cap, counted, sum, daily, share, within⟩ :=
        HoldVault.canPayNow_eq_true hpay
      cases h
      exact ⟨.paid instr hsigner positive live known counted sum daily
        (World.balance_of_load hvaultToken) share within (.of_transferOutParts hout hsent),
        rfl, rfl⟩
  | false =>
      simp only [Bool.false_eq_true, if_false] at h
      obtain ⟨unlockAt, hunlock, h⟩ := bind_ok_iff.mp h
      rw [okOr_eq_ok, checkedAddI64_eq_some] at hunlock
      split at h
      · rename_i hfull
        cases h
        exact ⟨.refused instr hsigner positive (.inr ⟨rfl, hfull⟩), rfl, rfl⟩
      · rename_i index hindex
        obtain ⟨next, hnext, h⟩ := bind_ok_iff.mp h
        rw [okOr_eq_ok, checkedAdd_eq_some] at hnext
        cases h
        exact ⟨.held instr hsigner positive hunlock (HoldVault.of_firstEmpty hindex) hnext,
          rfl, rfl⟩

theorem effect_of_execute {accts : Execute} {id : UInt64} (instr : i.instr = .execute accts id)
    (h : execute rt i.now accts id s = .ok (o, s')) : StepEffect rt s i o s' := by
  unfold execute at h
  obtain ⟨ctx, hload, h⟩ := bind_ok_iff.mp h
  obtain ⟨index, hindex, h⟩ := bind_ok_iff.mp h
  simp only [↓require_bind_ok_iff] at h
  obtain ⟨live, unlocked, hdestination, -, h⟩ := h
  obtain ⟨w, hsent, h⟩ := bind_ok_iff.mp h
  have pays := PaysOut.of_transferOutParts hload hsent
  rw [hdestination] at pays
  rw [HoldVault.afterPayment_eq] at h
  cases h
  exact ⟨.executed instr (.of_findPending hindex) live unlocked pays, rfl, rfl⟩

theorem effect_of_stop {accts : Stop} {id : UInt64} (instr : i.instr = .stop accts id)
    (h : stop rt i.now i.signers accts id s = .ok (o, s')) : StepEffect rt s i o s' := by
  unfold stop at h
  obtain ⟨_, hload, h⟩ := bind_ok_iff.mp h
  obtain ⟨index, hindex, h⟩ := bind_ok_iff.mp h
  cases h
  exact ⟨.stopped instr (AuthorityAccounts.signed_of_load hload) (.of_findPending hindex), rfl, rfl⟩

theorem effect_of_freeze {accts : Freeze} (instr : i.instr = .freeze accts)
    (h : freeze rt i.now i.signers accts s = .ok (o, s')) : StepEffect rt s i o s' := by
  unfold freeze at h
  obtain ⟨_, hload, h⟩ := bind_ok_iff.mp h
  obtain ⟨live, h⟩ := require_bind_ok_iff.mp h
  cases h
  exact ⟨.frozen instr (AuthorityAccounts.signed_of_load hload) live, rfl, rfl⟩

theorem effect_of_unfreeze {accts : Unfreeze} (instr : i.instr = .unfreeze accts)
    (h : unfreeze rt i.now i.signers accts s = .ok (o, s')) : StepEffect rt s i o s' := by
  unfold unfreeze at h
  obtain ⟨_, hload, h⟩ := bind_ok_iff.mp h
  obtain ⟨isFrozen, h⟩ := require_bind_ok_iff.mp h
  unfold Unfreeze.load at hload
  obtain ⟨_, howner, hload⟩ := bind_ok_iff.mp hload
  obtain ⟨_, hguardian, -⟩ := bind_ok_iff.mp hload
  obtain ⟨hsigner, howner⟩ := HoldState.requireOwner_eq_ok howner
  rw [← howner] at hsigner
  cases haccts : accts.guardian with
  | some guardian =>
      rw [haccts] at h hguardian
      simp only [↓require_bind_ok_iff] at h
      obtain ⟨hset, heq, hne, h⟩ := h
      rw [optionalSigner, signer, require_eq_ok] at hguardian
      rw [heq] at hguardian hne
      rw [← howner] at hne
      cases h
      exact ⟨.unfrozen instr hsigner isFrozen (.inl ⟨hset, hguardian, hne⟩), rfl, rfl⟩
  | none =>
      rw [haccts] at h
      simp only [↓require_bind_ok_iff] at h
      obtain ⟨alone, h⟩ := h
      by_cases harmed : s.vault.unfreezeAt = 0
      · simp only [if_pos harmed] at h
        obtain ⟨effectiveAt, heffective, h⟩ := bind_ok_iff.mp h
        rw [okOr_eq_ok, checkedAddI64_eq_some] at heffective
        cases h
        exact ⟨.scheduled instr hsigner isFrozen alone harmed heffective, rfl, rfl⟩
      · simp only [if_neg harmed, ↓require_bind_ok_iff] at h
        obtain ⟨hready, h⟩ := h
        cases h
        exact ⟨.unfrozen instr hsigner isFrozen (.inr ⟨alone, harmed, hready⟩), rfl, rfl⟩

theorem effect_of_skip {accts : Skip} {id : UInt64} (instr : i.instr = .skip accts id)
    (h : skip rt i.now i.signers accts id s = .ok (o, s')) : StepEffect rt s i o s' := by
  unfold skip at h
  obtain ⟨ctx, hload, h⟩ := bind_ok_iff.mp h
  simp only [↓require_bind_ok_iff] at h
  obtain ⟨guarded, hguardian, hdistinct, live, h⟩ := h
  obtain ⟨index, hindex, h⟩ := bind_ok_iff.mp h
  simp only [↓require_bind_ok_iff] at h
  obtain ⟨hdestination, -, h⟩ := h
  obtain ⟨w, hsent, h⟩ := bind_ok_iff.mp h
  unfold Skip.load at hload
  obtain ⟨_, howner, hload⟩ := bind_ok_iff.mp hload
  obtain ⟨hcosigner, hload⟩ := signer_bind_ok_iff.mp hload
  obtain ⟨hsigner, howner⟩ := HoldState.requireOwner_eq_ok howner
  have pays := PaysOut.of_transferOutParts hload hsent
  rw [hdestination] at pays
  rw [hguardian] at hcosigner hdistinct
  rw [← howner] at hsigner hdistinct
  rw [HoldVault.afterPayment_eq] at h
  cases h
  exact ⟨.skipped instr hsigner guarded hcosigner hdistinct (.of_findPending hindex) live pays,
    rfl, rfl⟩

theorem effect_of_recover {accts : Recover} (instr : i.instr = .recover accts)
    (h : recover rt i.now i.signers accts s = .ok (o, s')) : StepEffect rt s i o s' := by
  unfold recover at h
  obtain ⟨ctx, hload, h⟩ := bind_ok_iff.mp h
  simp only [↓require_bind_ok_iff] at h
  obtain ⟨-, hsafe, h⟩ := h
  obtain ⟨w, hsent, h⟩ := bind_ok_iff.mp h
  unfold Recover.load at hload
  obtain ⟨_, hauthority, hload⟩ := bind_ok_iff.mp hload
  obtain ⟨ctx', hout, hload⟩ := bind_ok_iff.mp hload
  obtain ⟨-, hload⟩ := require_bind_ok_iff.mp hload
  cases hload
  obtain ⟨-, hdestination, -⟩ := PayoutAccounts.load_eq_ok hout
  have hsigned := HoldState.requireOwnerOrGuardian_eq_ok hauthority
  have hdest := World.tokenOwner_of_load hdestination
  rw [hsafe] at hdest
  cases h
  exact ⟨.recovered instr hsigned hdest (.of_transferOutParts hout hsent), rfl, rfl⟩

theorem effect_of_proposeChange {accts : ProposeChange} {values : HoldChange}
    (instr : i.instr = .proposeChange accts values)
    (h : proposeChange rt i.now i.signers accts values s = .ok (o, s')) :
    StepEffect rt s i o s' := by
  unfold proposeChange at h
  obtain ⟨_, hload, h⟩ := bind_ok_iff.mp h
  obtain ⟨_, hrules, h⟩ := bind_ok_iff.mp h
  simp only [↓require_bind_ok_iff] at h
  obtain ⟨-, idle, h⟩ := h
  unfold ProposeChange.load at hload
  obtain ⟨_, howner, -⟩ := bind_ok_iff.mp hload
  obtain ⟨hsigner, howner⟩ := HoldState.requireOwner_eq_ok howner
  have rules : values.Valid accts.owner s.key := .of_requireRules hrules
  rw [← howner] at hsigner rules
  by_cases hloosen : values.loosen s.vault ≠ 0
  · simp only [if_pos hloosen] at h
    obtain ⟨effectiveAt, heffective, h⟩ := bind_ok_iff.mp h
    rw [okOr_eq_ok, checkedAddI64_eq_some] at heffective
    cases h
    refine ⟨.proposed instr hsigner rules hloosen (idle hloosen) heffective, rfl, ?_⟩
    show _ = (_ ++ [_]).foldl HoldLedger.record s.ledger
    rw [List.foldl_append]
    rfl
  · simp only [if_neg hloosen] at h
    rw [not_not] at hloosen
    cases h
    exact ⟨.tightened instr hsigner rules hloosen, rfl, rfl⟩

theorem effect_of_applyChange {accts : ApplyChange} (instr : i.instr = .applyChange accts)
    (h : applyChange rt i.now accts s = .ok (o, s')) : StepEffect rt s i o s' := by
  unfold applyChange at h
  obtain ⟨-, -, h⟩ := bind_ok_iff.mp h
  simp only [↓require_bind_ok_iff] at h
  obtain ⟨active, ready, delay, share, guardian, safe, h⟩ := h
  cases h
  exact ⟨.applied instr active ready delay share guardian safe, rfl, rfl⟩

theorem effect_of_cancelChange {accts : CancelChange} (instr : i.instr = .cancelChange accts)
    (h : cancelChange rt i.now i.signers accts s = .ok (o, s')) : StepEffect rt s i o s' := by
  unfold cancelChange at h
  obtain ⟨_, hload, h⟩ := bind_ok_iff.mp h
  obtain ⟨active, h⟩ := require_bind_ok_iff.mp h
  cases h
  exact ⟨.cancelled instr (AuthorityAccounts.signed_of_load hload) active, rfl, rfl⟩

end Reading

/-- A step does one of the things `HoldEffect` lists. -/
theorem HoldStep.stepEffect {rt : Runtime} {s s' : HoldState} {i : HoldInput} {o : HoldOutput}
    (h : HoldStep rt s i o s') : StepEffect rt s i o s' := by
  unfold HoldStep HoldState.exec at h
  cases hi : i.instr with
  | deposit accts amount => rw [hi] at h; exact effect_of_deposit hi h
  | withdraw accts amount => rw [hi] at h; exact effect_of_withdraw hi h
  | execute accts id => rw [hi] at h; exact effect_of_execute hi h
  | stop accts id => rw [hi] at h; exact effect_of_stop hi h
  | freeze accts => rw [hi] at h; exact effect_of_freeze hi h
  | unfreeze accts => rw [hi] at h; exact effect_of_unfreeze hi h
  | skip accts id => rw [hi] at h; exact effect_of_skip hi h
  | recover accts => rw [hi] at h; exact effect_of_recover hi h
  | proposeChange accts values => rw [hi] at h; exact effect_of_proposeChange hi h
  | applyChange accts => rw [hi] at h; exact effect_of_applyChange hi h
  | cancelChange accts => rw [hi] at h; exact effect_of_cancelChange hi h
  | outside w =>
      rw [hi] at h
      cases h
      exact ⟨.outside hi, rfl, rfl⟩

end Veto

import Veto.Hold.Step

/-!
# Histories of a vault

A run starts with a successful `init_vault` and goes on with any Hold
instructions and outside changes.  This module has what the results about runs
share: the words for what a transition did, and the facts that hold of every
vault (its identity never changes, its rules are always valid ones, a proposal
only ever tightens at once).
-/

namespace Veto

open Foundation

abbrev HoldTransition := Transition HoldState HoldInput HoldOutput

abbrev HoldHistory := List HoldTransition

def HoldInput.clock (i : HoldInput) : Int := i.now.toInt

/-- A vault as `init_vault` leaves it. -/
def Opens (rt : Runtime) (opening : HoldOutput) (s : HoldState) : Prop :=
  ∃ now signers accts args w, initVault rt now signers accts args w = .ok (opening, s)

def HoldState.balance (s : HoldState) : Nat := s.world.balance s.vault.vaultToken

/-- A record of a payment of any kind except `recover`. -/
def HoldKind.isPayment (k : HoldKind) : Bool := k = .paid ∨ k = .skipped

/-! ## What a transition did -/

namespace HoldTransition

variable (T : HoldTransition)

/-- A payment of any kind except `recover`: to `destination`, under `id`. -/
def Pays (destination : Pubkey) (id : UInt64) : Prop :=
  ∃ e ∈ T.output.records, e.kind.isPayment = true ∧ e.destination = destination ∧
    e.withdrawalId = id

/-- `withdraw` took the paid branch. -/
def PaysInstantly (accts : Withdraw) (amount : UInt64) : Prop :=
  T.input.instr = .withdraw accts amount ∧ ∃ e ∈ T.output.records, e.kind.isPayment = true

/-- The transition is an `execute` or a `skip`. -/
def FromRow : Prop :=
  (∃ accts id, T.input.instr = .execute accts id) ∨ ∃ accts id, T.input.instr = .skip accts id

/-- The transition is an instruction of the program. -/
def IsInstruction : Prop := ∀ w, T.input.instr ≠ .outside w

def Drains : Prop := T.post.world.balance T.pre.vault.vaultToken < T.pre.balance

/-- Exactly `amount` moved from the vault to `destination`. -/
def Releases (destination : Pubkey) (amount : UInt64) : Prop :=
  T.post.world.balance T.pre.vault.vaultToken + amount.toNat = T.pre.balance ∧
    T.post.world.balance destination = T.pre.world.balance destination + amount.toNat

end HoldTransition

/-! ## Runs and effects -/

section Effects

variable {rt : Runtime} {s₀ s : HoldState} {h : HoldHistory}

theorem effect_of_mem (run : Run (HoldStep rt) s₀ h s) {T : HoldTransition} (hT : T ∈ h) :
    HoldEffect rt T.pre T.input T.output.records T.post.vault T.post.world := by
  obtain ⟨_, _, _, _, hstep, _⟩ := run.of_mem hT
  exact hstep.stepEffect.effect

end Effects

theorem PaysOut.moved {rt : Runtime} (hclassic : rt.token.ClassicTransfer) {s : HoldState}
    {destination : Pubkey} {amount : UInt64} {w : World}
    (h : PaysOut rt s destination amount w) :
    w.balance s.vault.vaultToken + amount.toNat = s.balance ∧
      w.balance destination = s.world.balance destination + amount.toNat := by
  obtain ⟨decimals, hsent⟩ := h.sent
  have hmoved := hclassic _ _ _ _ _ hsent
  have hapart : s.vault.vaultToken ≠ destination := Ne.symm h.apart
  have hfunded := hmoved.funded
  have hdebit := hmoved.debit hapart
  have hcredit := hmoved.credit hapart
  simp only at hfunded hdebit hcredit
  unfold HoldState.balance
  exact ⟨by omega, hcredit⟩

/-! ## Payments -/

/-- The rules of an instant withdrawal, as the code checks them. -/
structure InstantRules (s : HoldState) (now : Int64) (destination : Pubkey) (amount : UInt64) :
    Prop where
  live : s.vault.frozen = false
  known : s.vault.isKnown destination
  within : ∃ before, spent s.vault.dailyBuckets now = some before ∧
    before.toNat + amount.toNat ≤ s.vault.dailyLimit.toNat ∧
    before.toNat + amount.toNat ≤ s.balance * s.vault.bigShareBps.toNat / 10000

/-- Every way a payment other than a recover comes about: its record, and the
accounts of other programs after it. -/
inductive HoldPayment (rt : Runtime) (s : HoldState) (i : HoldInput) : HoldEntry → World → Prop
  | instant {accts : Withdraw} {amount : UInt64} {w : World}
      (instr : i.instr = .withdraw accts amount)
      (signed : s.vault.owner ∈ i.signers)
      (positive : 0 < amount)
      (rules : InstantRules s i.now accts.out.destination amount)
      (pays : PaysOut rt s accts.out.destination amount w) :
      HoldPayment rt s i (holdEntry i.now .paid amount accts.out.destination 0 HOLD_REASON_NONE) w
  | executed {accts : Execute} {id : UInt64} {index : Fin HOLD_PENDING_CAPACITY}
      {row : PendingWithdrawal} {w : World}
      (instr : i.instr = .execute accts id)
      (found : RowAt s.vault id index row)
      (live : s.vault.frozen = false)
      (unlocked : row.unlockAt ≤ i.now)
      (pays : PaysOut rt s row.destination row.amount w) :
      HoldPayment rt s i (holdEntry i.now .paid row.amount row.destination id HOLD_REASON_NONE) w
  | skipped {accts : Skip} {id : UInt64} {index : Fin HOLD_PENDING_CAPACITY}
      {row : PendingWithdrawal} {w : World}
      (instr : i.instr = .skip accts id)
      (signed : s.vault.owner ∈ i.signers)
      (guarded : s.vault.guardian ≠ Pubkey.default)
      (cosigned : s.vault.guardian ∈ i.signers)
      (distinct : s.vault.guardian ≠ s.vault.owner)
      (found : RowAt s.vault id index row)
      (live : s.vault.frozen = false)
      (pays : PaysOut rt s row.destination row.amount w) :
      HoldPayment rt s i (holdEntry i.now .skipped row.amount row.destination id HOLD_REASON_NONE) w

theorem not_mem_tightenOutput {now : Int64} {key : Pubkey} {tighten : UInt8} {e : HoldEntry}
    (he : e.kind ≠ .changeApplied) : e ∉ (tightenOutput now key tighten).records := by
  intro hmem
  unfold tightenOutput at hmem
  split at hmem
  · rw [List.mem_singleton] at hmem
    subst hmem
    exact he rfl
  · cases hmem

/-- A payment record is written by a payment, and alone. -/
theorem HoldEffect.payment {rt : Runtime} {s : HoldState} {i : HoldInput}
    {records : List HoldEntry} {v : HoldVault} {w : World} (h : HoldEffect rt s i records v w)
    {e : HoldEntry} (he : e ∈ records) (hkind : e.kind.isPayment = true) :
    records = [e] ∧ HoldPayment rt s i e w := by
  have hne : e.kind ≠ .changeApplied := fun heq => by rw [heq] at hkind; cases hkind
  cases h with
  | @paid _ _ balance before total _ _ instr signed positive live known counted sum daily
      balance_eq share within pays =>
      rw [List.mem_singleton] at he
      subst he
      have hcap := shareCap_eq_ok share
      rw [UInt64.le_iff_toNat_le] at daily within
      refine ⟨rfl, .instant instr signed positive ⟨live, known, before, counted, by omega, ?_⟩ pays⟩
      unfold HoldState.balance
      rw [balance_eq]
      omega
  | executed instr found live unlocked pays =>
      rw [List.mem_singleton] at he
      subst he
      exact ⟨rfl, .executed instr found live unlocked pays⟩
  | skipped instr signed guarded cosigned distinct found live pays =>
      rw [List.mem_singleton] at he
      subst he
      exact ⟨rfl, .skipped instr signed guarded cosigned distinct found live pays⟩
  | tightened => exact absurd he (not_mem_tightenOutput hne)
  | proposed =>
      rcases List.mem_append.mp he with he | he
      · exact absurd he (not_mem_tightenOutput hne)
      · rw [List.mem_singleton] at he
        subst he
        cases hkind
  | outside => cases he
  | _ =>
      rw [List.mem_singleton] at he
      subst he
      cases hkind

/-- Tokens leave the vault by a payment or by a recover to the safe address. -/
theorem HoldEffect.drain {rt : Runtime} (hclassic : rt.token.ClassicTransfer) {s : HoldState}
    {i : HoldInput} {records : List HoldEntry} {v : HoldVault} {w : World}
    (h : HoldEffect rt s i records v w) (hinstr : ∀ w, i.instr ≠ .outside w)
    (hdrain : w.balance s.vault.vaultToken < s.balance) :
    (∃ e ∈ records, e.kind.isPayment = true) ∨
      ∃ accts amount, i.instr = .recover accts ∧
        s.world.tokenOwner accts.out.destination = some s.vault.safeAddress ∧
        PaysOut rt s accts.out.destination amount w := by
  cases h with
  | deposited _ _ _ sent =>
      obtain ⟨decimals, hsent⟩ := sent
      have hle := (hclassic _ _ _ _ _ hsent).balance_destination_le
      exact absurd hdrain (Nat.not_lt.mpr hle)
  | paid => exact .inl ⟨_, List.mem_singleton_self _, rfl⟩
  | executed => exact .inl ⟨_, List.mem_singleton_self _, rfl⟩
  | skipped => exact .inl ⟨_, List.mem_singleton_self _, rfl⟩
  | recovered instr _ safe pays => exact .inr ⟨_, _, instr, safe, pays⟩
  | outside instr => exact absurd instr (hinstr _)
  | _ => exact absurd hdrain (Nat.lt_irrefl _)

/-! ## Opening -/

/-- A vault that was opened is a fresh one, with valid rules. -/
theorem Opens.fresh {rt : Runtime} {opening : HoldOutput} {s : HoldState}
    (h : Opens rt opening s) :
    s.vault.Valid s.key ∧ ∃ accts args bump tokenBump ledgerBump,
      s.vault = freshVault accts args bump tokenBump ledgerBump := by
  obtain ⟨now, signers, accts, args, w, h⟩ := h
  unfold initVault at h
  simp only [vacant, HoldState.requireTokenProgram] at h
  simp only [↓signer_bind_ok_iff, ↓require_bind_ok_iff, bind_ok_iff] at h
  obtain ⟨-, -, -, -, -, -, -, mint, -, -, w', -, _, hrules, h⟩ := h
  cases h
  exact ⟨.of_requireRules hrules, accts, args, _, _, _, rfl⟩

/-! ## What never changes -/

/-- The fields no instruction writes. -/
structure VaultIdentity where
  owner : Pubkey
  mint : Pubkey
  vaultToken : Pubkey
  vaultId : UInt64
  bump : UInt8
  tokenBump : UInt8
  ledgerBump : UInt8

def HoldVault.identity (v : HoldVault) : VaultIdentity :=
  { owner := v.owner, mint := v.mint, vaultToken := v.vaultToken, vaultId := v.vaultId,
    bump := v.bump, tokenBump := v.tokenBump, ledgerBump := v.ledgerBump }

theorem HoldEffect.identity_eq {rt : Runtime} {s : HoldState} {i : HoldInput}
    {records : List HoldEntry} {v : HoldVault} {w : World} (h : HoldEffect rt s i records v w) :
    v.identity = s.vault.identity := by
  cases h <;> rfl

/-! ## Tightening -/

/-- No rule of `v'` is looser than in `v`.  A guardian may be set where none was. -/
structure Tighter (v v' : HoldVault) : Prop where
  daily : v'.dailyLimit ≤ v.dailyLimit
  share : v'.bigShareBps ≤ v.bigShareBps
  delay : v.delaySecs ≤ v'.delaySecs
  guardian : v'.guardian = v.guardian ∨ v.guardian = Pubkey.default
  safe : v'.safeAddress = v.safeAddress

theorem Tighter.of_eq {v v' : HoldVault} (hdaily : v'.dailyLimit = v.dailyLimit)
    (hshare : v'.bigShareBps = v.bigShareBps) (hdelay : v'.delaySecs = v.delaySecs)
    (hguardian : v'.guardian = v.guardian) (hsafe : v'.safeAddress = v.safeAddress) :
    Tighter v v' where
  daily := by rw [hdaily]; exact UInt64.le_refl _
  share := by rw [hshare]; exact UInt16.le_refl _
  delay := by rw [hdelay]; exact Int64.le_refl _
  guardian := .inl hguardian
  safe := hsafe

namespace HoldVault

variable (v : HoldVault) (values : HoldChange)

/-- The guardian changes at once only where none was set. -/
theorem applyTighten_guardian :
    (v.applyTighten (values.tighten v) values).guardian =
      if values.addsGuardian v then values.guardian else v.guardian := by
  show (if values.tighten v &&& CHANGE_GUARDIAN ≠ 0 then _ else _) = _
  unfold HoldChange.tighten
  by_cases h : values.addsGuardian v
  · have hne : values.guardian ≠ v.guardian := by
      rw [h.1]
      exact h.2
    rw [if_pos h, if_pos (by simp [hne, h])]
  · rw [if_neg h, if_neg (by simp [h])]

/-- What a proposal does at once only ever tightens. -/
theorem tighter_applyTighten : Tighter v (v.applyTighten (values.tighten v) values) where
  daily := by
    show (if values.tighten v &&& CHANGE_DAILY ≠ 0 then _ else _) ≤ _
    unfold HoldChange.tighten
    by_cases h : values.dailyLimit < v.dailyLimit
    · rw [if_pos (by simpa using h)]
      exact UInt64.le_of_lt h
    · rw [if_neg (by simpa using h)]
      exact UInt64.le_refl _
  share := by
    show (if values.tighten v &&& CHANGE_SHARE ≠ 0 then _ else _) ≤ _
    unfold HoldChange.tighten
    by_cases h : values.bigShareBps < v.bigShareBps
    · rw [if_pos (by simpa using h)]
      exact UInt16.le_of_lt h
    · rw [if_neg (by simpa using h)]
      exact UInt16.le_refl _
  delay := by
    show _ ≤ (if values.tighten v &&& CHANGE_DELAY ≠ 0 then _ else _)
    unfold HoldChange.tighten
    by_cases h : v.delaySecs < values.delaySecs
    · rw [if_pos (by simpa using h)]
      exact Int64.le_of_lt h
    · rw [if_neg (by simpa using h)]
      exact Int64.le_refl _
  guardian := by
    rw [applyTighten_guardian]
    by_cases h : values.addsGuardian v
    · exact .inr h.1
    · exact .inl (if_neg h)
  safe := rfl

end HoldVault

/-- Only `apply_change` loosens a rule. -/
theorem HoldEffect.tighter {rt : Runtime} {s : HoldState} {i : HoldInput}
    {records : List HoldEntry} {v : HoldVault} {w : World} (h : HoldEffect rt s i records v w)
    (hinstr : ∀ accts, i.instr ≠ .applyChange accts) : Tighter s.vault v := by
  cases h with
  | applied instr => exact absurd instr (hinstr _)
  | tightened => exact s.vault.tighter_applyTighten _
  | @proposed _ values =>
      have htight := s.vault.tighter_applyTighten values
      exact ⟨htight.daily, htight.share, htight.delay, htight.guardian, htight.safe⟩
  | _ => exact .of_eq rfl rfl rfl rfl rfl

/-! ## The rules stay valid -/

theorem HoldVault.Valid.applyTighten {v : HoldVault} {key : Pubkey} {values : HoldChange}
    (h : v.Valid key) (hvalues : values.Valid v.owner key) (fields : UInt8) :
    (v.applyTighten fields values).Valid key where
  delay := by
    show delayAllowed (if _ then _ else _)
    split
    · exact hvalues.delay
    · exact h.delay
  share := by
    show (if _ then _ else _ : UInt16).toUInt64 ≤ _
    split
    · exact hvalues.share
    · exact h.share
  safe := h.safe
  guardian := by
    show (if _ then _ else _ : Pubkey) = _ ∨ (if _ then _ else _ : Pubkey) ≠ v.owner
    split
    · exact hvalues.guardian
    · exact h.guardian

/-- `apply_change` checks each waiting field again, so the rules stay valid
whatever the waiting record holds. -/
theorem HoldVault.Valid.applyPending {v : HoldVault} {key : Pubkey} {pending : PendingChange}
    (h : v.Valid key)
    (delay : pending.fields &&& CHANGE_DELAY ≠ 0 → delayAllowed pending.delaySecs)
    (share : pending.fields &&& CHANGE_SHARE ≠ 0 →
      pending.bigShareBps.toUInt64 ≤ HOLD_BPS_DENOMINATOR)
    (guardian : pending.fields &&& CHANGE_GUARDIAN ≠ 0 ∧ pending.guardian ≠ Pubkey.default →
      pending.guardian ≠ v.owner)
    (safe : pending.fields &&& CHANGE_SAFE ≠ 0 →
      pending.safeAddress ≠ Pubkey.default ∧ pending.safeAddress ≠ key) :
    (v.applyPending pending).Valid key where
  delay := by
    show delayAllowed (if _ then _ else _)
    split
    · rename_i hbit
      exact delay hbit
    · exact h.delay
  share := by
    show (if _ then _ else _ : UInt16).toUInt64 ≤ _
    split
    · rename_i hbit
      exact share hbit
    · exact h.share
  safe := by
    show (if _ then _ else _ : Pubkey) ≠ _ ∧ (if _ then _ else _ : Pubkey) ≠ key
    split
    · rename_i hbit
      exact safe hbit
    · exact h.safe
  guardian := by
    show (if _ then _ else _ : Pubkey) = _ ∨ (if _ then _ else _ : Pubkey) ≠ v.owner
    split
    · rename_i hbit
      by_cases hnone : pending.guardian = Pubkey.default
      · exact .inl hnone
      · exact .inr (guardian ⟨hbit, hnone⟩)
    · exact h.guardian

theorem HoldEffect.valid {rt : Runtime} {s : HoldState} {i : HoldInput}
    {records : List HoldEntry} {v : HoldVault} {w : World} (h : HoldEffect rt s i records v w)
    (hvalid : s.vault.Valid s.key) : v.Valid s.key := by
  cases h with
  | applied _ _ _ delay share guardian safe =>
      exact hvalid.applyPending delay share guardian safe
  | tightened _ _ rules => exact hvalid.applyTighten rules _
  | proposed _ _ rules => exact hvalid.applyTighten rules _
  | _ => exact hvalid

/-- **The rules of every reachable vault are valid.** -/
theorem valid_of_run {rt : Runtime} {opening : HoldOutput} {s₀ s : HoldState} {h : HoldHistory}
    (hopen : Opens rt opening s₀) (run : Run (HoldStep rt) s₀ h s) : s.vault.Valid s.key := by
  refine run.preserves (P := fun s => s.vault.Valid s.key) ?_ hopen.fresh.1
  intro s i o s' hvalid hstep
  rw [hstep.stepEffect.key_eq]
  exact hstep.stepEffect.effect.valid hvalid

end Veto

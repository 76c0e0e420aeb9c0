import Veto.Hold.Window

/-!
# The share of the balance

`share_cap` splits the balance so that no product overflows.  Under a configuration that
`require_rules` accepts it returns the share, rounded down, for every balance.  Every
reachable vault has such a configuration.
-/

namespace Veto

open Foundation

/-- `require_rules` accepts what is valid. -/
theorem ValidRules.requireRules_eq {delaySecs : Int64} {bigShareBps : UInt16}
    {safeAddress guardian owner vault : Pubkey}
    (h : ValidRules delaySecs bigShareBps safeAddress guardian owner vault) :
    requireRules delaySecs bigShareBps safeAddress guardian owner vault = .ok () := by
  unfold requireRules
  rw [require_true h.delay, ok_bind, require_true h.share, ok_bind, require_true h.safe.1, ok_bind,
    require_true h.safe.2, ok_bind, require_true h.guardian]

section Cap

variable {balance : UInt64} {bps : UInt16}

/-- A product that fits is computed. -/
theorem checkedMul_fits {a b : UInt64} (h : a.toNat * b.toNat < 2 ^ 64) :
    ∃ c, checkedMul a b = some c ∧ c.toNat = a.toNat * b.toNat := by
  have hproduct : checkedMul a b = some (a * b) := by
    unfold checkedMul
    exact if_pos h
  exact ⟨a * b, hproduct, checkedMul_eq_some.mp hproduct⟩

theorem checkedAdd_fits {a b : UInt64} (h : a.toNat + b.toNat < 2 ^ 64) :
    ∃ c, checkedAdd a b = some c ∧ c.toNat = a.toNat + b.toNat := by
  have hsum : checkedAdd a b = some (a + b) := by
    unfold checkedAdd
    exact if_pos h
  exact ⟨a + b, hsum, checkedAdd_eq_some.mp hsum⟩

/-- A share of at most the whole is no more than the balance. -/
theorem share_le (balance bps : Nat) (h : bps ≤ 10000) : balance * bps / 10000 ≤ balance := by
  apply Nat.div_le_of_le_mul
  rw [Nat.mul_comm 10000]
  exact Nat.mul_le_mul_left balance h

/-- Within the range of shares no step of `share_cap` overflows. -/
theorem shareCap_total (h : bps.toUInt64 ≤ HOLD_BPS_DENOMINATOR) (balance : UInt64) :
    ∃ cap, shareCap balance bps = .ok cap ∧
      cap.toNat = balance.toNat * bps.toNat / 10000 := by
  have hden : HOLD_BPS_DENOMINATOR.toNat = 10000 := rfl
  have hbps : bps.toUInt64.toNat = bps.toNat := UInt16.toNat_toUInt64 bps
  have hle : bps.toNat ≤ 10000 := by
    rw [UInt64.le_iff_toNat_le, hden, hbps] at h
    exact h
  have hbalance := balance.toNat_lt
  have hshare := share_le balance.toNat bps.toNat hle
  have hsplit := share_split balance.toNat bps.toNat
  -- the whole part: at most the balance
  have hwhole : (balance / HOLD_BPS_DENOMINATOR).toNat * bps.toUInt64.toNat < 2 ^ 64 := by
    rw [UInt64.toNat_div, hden, hbps]
    omega
  -- the rest: at most ten thousand times ten thousand
  have hrem : (balance % HOLD_BPS_DENOMINATOR).toNat * bps.toUInt64.toNat < 2 ^ 64 := by
    rw [UInt64.toNat_mod, hden, hbps]
    calc balance.toNat % 10000 * bps.toNat
        ≤ 10000 * 10000 := Nat.mul_le_mul (Nat.mod_lt _ (by decide)).le hle
      _ < 2 ^ 64 := by decide
  obtain ⟨fromWhole, hfromWhole, hwholeNat⟩ := checkedMul_fits hwhole
  obtain ⟨product, hproduct, hproductNat⟩ := checkedMul_fits hrem
  have hsum : fromWhole.toNat + (product / HOLD_BPS_DENOMINATOR).toNat < 2 ^ 64 := by
    rw [UInt64.toNat_div product, hproductNat, hwholeNat, UInt64.toNat_div, UInt64.toNat_mod, hden,
      hbps, hsplit]
    omega
  obtain ⟨cap, hcap, -⟩ := checkedAdd_fits hsum
  have hok : shareCap balance bps = .ok cap := by
    unfold shareCap
    dsimp only
    rw [require_true h, ok_bind, hfromWhole, okOr, ok_bind, hproduct, okOr, ok_bind, hcap, okOr]
  exact ⟨cap, hok, shareCap_eq_ok hok⟩

end Cap

/-! ## A withdrawal -/

/-- Every way `withdraw` fails.  `share_cap` is none of them. -/
inductive WithdrawFailure (rt : Runtime) (now : Int64) (signers : List Pubkey) (accts : Withdraw)
    (amount : UInt64) (s : HoldState) : ProgramError → Prop
  | accounts {e : ProgramError} (load : accts.load rt signers s = .error e) :
      WithdrawFailure rt now signers accts amount s e
  | nothing (zero : amount = 0) :
      WithdrawFailure rt now signers accts amount s (.veto .positiveAmountRequired)
  | payout {ctx : PayoutCtx} {e : ProgramError} (load : accts.load rt signers s = .ok ctx)
      (out : transferOutParts rt s accts.out ctx amount = .error e) :
      WithdrawFailure rt now signers accts amount s e
  | unlock (overflow : checkedAddI64 now s.vault.delaySecs = none) :
      WithdrawFailure rt now signers accts amount s (.veto .holdMathOverflow)
  | ids (overflow : checkedAdd s.vault.nextWithdrawalId 1 = none) :
      WithdrawFailure rt now signers accts amount s (.veto .holdMathOverflow)

section Withdrawals

variable {rt : Runtime} {now : Int64} {signers : List Pubkey} {accts : Withdraw} {amount : UInt64}
  {s : HoldState} {e : ProgramError}

/-- Under a share in range the decision is made. -/
theorem HoldVault.canPayNow_total {vault : HoldVault}
    (h : vault.bigShareBps.toUInt64 ≤ HOLD_BPS_DENOMINATOR) (balance : UInt64)
    (destination : Pubkey) (amount : UInt64) (now : Int64) :
    ∃ payNow, vault.canPayNow balance destination amount now = .ok payNow := by
  obtain ⟨cap, hcap, -⟩ := shareCap_total h balance
  unfold canPayNow
  split
  · exact ⟨false, rfl⟩
  · split
    · exact ⟨false, rfl⟩
    · split
      · exact ⟨false, rfl⟩
      · rw [hcap]
        exact ⟨_, rfl⟩

/-- **A withdrawal never fails because of `share_cap`.** -/
theorem withdraw_failure (hshare : s.vault.bigShareBps.toUInt64 ≤ HOLD_BPS_DENOMINATOR)
    (h : withdraw rt now signers accts amount s = .error e) :
    WithdrawFailure rt now signers accts amount s e := by
  unfold withdraw at h
  cases hload : accts.load rt signers s with
  | error e' =>
      rw [hload] at h
      cases h
      exact .accounts hload
  | ok ctx =>
      rw [hload, ok_bind] at h
      by_cases hpositive : 0 < amount
      · rw [require_true hpositive, ok_bind] at h
        dsimp only at h
        by_cases hfunds : ctx.vaultToken.amount < amount
        · rw [if_pos hfunds] at h
          cases h
        rw [if_neg hfunds] at h
        obtain ⟨payNow, hpay⟩ :=
          HoldVault.canPayNow_total hshare ctx.vaultToken.amount accts.out.destination amount now
        rw [hpay, ok_bind] at h
        cases payNow with
        | true =>
            rw [if_pos rfl] at h
            cases hout : transferOutParts rt s accts.out ctx amount with
            | error e' =>
                rw [hout] at h
                cases h
                exact .payout hload hout
            | ok w =>
                rw [hout] at h
                cases h
        | false =>
            rw [if_neg Bool.false_ne_true] at h
            cases hunlock : checkedAddI64 now s.vault.delaySecs with
            | none =>
                rw [hunlock] at h
                cases h
                exact .unlock hunlock
            | some unlockAt =>
                rw [hunlock, okOr, ok_bind] at h
                split at h
                · cases h
                · cases hnext : checkedAdd s.vault.nextWithdrawalId 1 with
                  | none =>
                      rw [hnext] at h
                      cases h
                      exact .ids hnext
                  | some next =>
                      rw [hnext] at h
                      cases h
      · have hzero : amount = 0 := by
          rw [UInt64.not_lt] at hpositive
          exact UInt64.le_zero_iff.mp hpositive
        have hrefused : require (0 < amount) (ProgramError.veto .positiveAmountRequired) =
            .error (.veto .positiveAmountRequired) := if_neg hpositive
        rw [hrefused] at h
        cases h
        exact .nothing hzero

end Withdrawals

/-! ## Every reachable vault -/

/-- **The share cap.**  In every state reachable from `init_vault` the configuration passes
`require_rules`, `share_cap` returns the exact share of every balance, and no withdrawal
fails because of it. -/
theorem share_cap_exact {rt : Runtime} {opening : HoldOutput} {s₀ s : HoldState} {h : HoldHistory}
    (hopen : Opens rt opening s₀) (run : Run (HoldStep rt) s₀ h s) :
    requireRules s.vault.delaySecs s.vault.bigShareBps s.vault.safeAddress s.vault.guardian
        s.vault.owner s.key = .ok () ∧
      (∀ balance : UInt64, ∃ cap, shareCap balance s.vault.bigShareBps = .ok cap ∧
        cap.toNat = balance.toNat * s.vault.bigShareBps.toNat / 10000) ∧
      ∀ now signers accts amount e, withdraw rt now signers accts amount s = .error e →
        WithdrawFailure rt now signers accts amount s e := by
  have hvalid := valid_of_run hopen run
  refine ⟨hvalid.requireRules_eq, ?_, ?_⟩
  · intro balance
    exact shareCap_total hvalid.share balance
  · intro now signers accts amount e hfails
    exact withdraw_failure hvalid.share hfails

/-- After the sample run a quarter of the largest balance is rounded down. -/
theorem share_cap_exact_sample :
    ∃ cap, shareCap (UInt64.ofNat (2 ^ 64 - 1))
        (okValue instantRun instantRun_ok).2.vault.bigShareBps = .ok cap ∧
      cap.toNat = (2 ^ 64 - 1) *
        (okValue instantRun instantRun_ok).2.vault.bigShareBps.toNat / 10000 :=
  (share_cap_exact instantRun_opens instantRun_run).2.1 _

end Veto

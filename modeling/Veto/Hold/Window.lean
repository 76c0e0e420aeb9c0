import Veto.Hold.History

/-!
# The instant-withdrawal bound

The buckets of a vault track every release of its history, so what an instant
withdrawal was compared with bounds what really left in the last 24 hours.
-/

namespace Veto

open Foundation

/-- The releases among some records, by the second: instant withdrawals,
executed rows and skipped rows. -/
def releasesOf (records : List HoldEntry) : List Payment :=
  (records.filter fun e => e.kind.isPayment).map fun e =>
    (e.ts.toInt, e.amount.toNat)

@[simp] theorem releasesOf_append (xs ys : List HoldEntry) :
    releasesOf (xs ++ ys) = releasesOf xs ++ releasesOf ys := by
  simp [releasesOf]

/-- The tokens released in the 24 hours that end at `now`. -/
def releasedWithin24h (h : HoldHistory) (now : Int) : Nat :=
  sumWhere (releasesOf (written h)) fun t => now - 86400 < t ∧ t ≤ now

@[simp] theorem hours_append (period : Int) (xs ys : List Payment) :
    hours period (xs ++ ys) = hours period xs ++ hours period ys :=
  List.map_append

/-- A step releases once, and counts it in the buckets, or does neither. -/
theorem HoldEffect.release {rt : Runtime} {s : HoldState} {i : HoldInput}
    {records : List HoldEntry} {v : HoldVault} {w : World} (h : HoldEffect rt s i records v w) :
    (v.dailyBuckets = s.vault.dailyBuckets ∧ releasesOf records.reverse = []) ∨
      ∃ amount, v.dailyBuckets = recordRelease s.vault.dailyBuckets amount i.now ∧
        releasesOf records.reverse = [(i.now.toInt, amount.toNat)] := by
  have htighten : ∀ tighten,
      releasesOf (tightenOutput i.now s.key tighten).records.reverse = [] := by
    intro tighten
    unfold tightenOutput
    split <;> rfl
  cases h with
  | @paid _ amount => exact .inr ⟨amount, rfl, rfl⟩
  | executed _ found =>
      rw [← found.row_eq]
      exact .inr ⟨_, rfl, rfl⟩
  | skipped _ _ _ _ _ found =>
      rw [← found.row_eq]
      exact .inr ⟨_, rfl, rfl⟩
  | tightened => exact .inl ⟨rfl, htighten _⟩
  | proposed =>
      refine .inl ⟨rfl, ?_⟩
      rw [List.reverse_append, releasesOf_append, htighten, List.append_nil]
      rfl
  | _ => exact .inl ⟨rfl, rfl⟩

/-- At any clock reading the history has reached, the buckets track its releases. -/
def Tracked (h : HoldHistory) (v : HoldVault) : Prop :=
  ∀ now : Int, (∀ T ∈ h, T.input.clock ≤ now) →
    Tracks bucketMax v.dailyBuckets.ring (now / BUCKET_SECS)
      (hours BUCKET_SECS (releasesOf (written h)))

theorem Tracked.fresh {rt : Runtime} {opening : HoldOutput} {s : HoldState}
    (hopen : Opens rt opening s) : Tracked [] s.vault := by
  obtain ⟨-, accts, args, bump, tokenBump, ledgerBump, hvault⟩ := hopen.fresh
  intro now _
  apply Tracks.empty
  intro i
  rw [hvault]
  show ((TradeBuckets.default)[i]).amount.toNat = 0
  simp [TradeBuckets.default]

/-- A step at a later clock reading keeps the buckets in step. -/
theorem Tracked.step {rt : Runtime} {h : HoldHistory} {s s' : HoldState} {i : HoldInput}
    {o : HoldOutput} (ht : Tracked h s.vault) (heff : HoldEffect rt s i o.records s'.vault s'.world)
    (hclock : ∀ T ∈ h, T.input.clock ≤ i.clock) : Tracked (⟨s, i, o, s'⟩ :: h) s'.vault := by
  intro now hnow
  have hhour : i.clock / BUCKET_SECS ≤ now / BUCKET_SECS :=
    Int.ediv_le_ediv (by decide) (hnow _ List.mem_cons_self)
  have hold := ht i.clock hclock
  rw [written_cons, releasesOf_append, hours_append]
  obtain ⟨hbuckets, hnone⟩ | ⟨amount, hbuckets, hrelease⟩ := heff.release
  · rw [hbuckets, hnone]
    exact hold.advance hhour
  · rw [hbuckets, hrelease, ring_recordRelease, toInt_hourOf]
    exact (hold.record (by decide) amount.toNat).advance hhour

theorem tracked_of_run {rt : Runtime} {opening : HoldOutput} {s₀ s : HoldState} {h : HoldHistory}
    (hopen : Opens rt opening s₀) (run : Run (HoldStep rt) s₀ h s)
    (hclock : Nondecreasing HoldInput.clock h) : Tracked h s.vault := by
  revert hclock
  refine run.carries (P := fun h s => Nondecreasing HoldInput.clock h → Tracked h s.vault)
    (fun _ => .fresh hopen) ?_
  intro h s i o s' _ ih hstep hclock
  obtain ⟨hle, hclock⟩ := Nondecreasing.cons_iff.mp hclock
  exact (ih hclock).step hstep.stepEffect.effect hle

/-- What the buckets count is at least what was released in the last 24 hours. -/
theorem Tracked.released_le {h : HoldHistory} {v : HoldVault} {now : Int64} {before : UInt64}
    (ht : Tracked h v) (hclock : ∀ T ∈ h, T.input.clock ≤ now.toInt)
    (hspent : spent v.dailyBuckets now = some before) (hsat : before.toNat < bucketMax) :
    releasedWithin24h h now.toInt ≤ before.toNat := by
  have htracks := ht now.toInt hclock
  rw [spent_eq_some, toInt_hourOf] at hspent
  rw [hspent] at hsat
  have hexact := htracks.windowTotal_exact hsat
  have hperiod : 0 < BUCKET_SECS := by decide
  have hseconds := sumWhere_seconds_le hperiod (releasesOf (written h)) 24 now.toInt
  unfold releasedWithin24h
  rw [hspent, hexact]
  have holdest : now.toInt / BUCKET_SECS - (BUCKET_COUNT : Int) + 1 =
      now.toInt / BUCKET_SECS - 24 := by
    show _ - (25 : Int) + 1 = _
    omega
  rw [holdest]
  exact hseconds

/-- A payment made by `withdraw` is an instant one. -/
theorem HoldPayment.of_withdraw {rt : Runtime} {s : HoldState} {i : HoldInput} {e : HoldEntry}
    {w : World} (h : HoldPayment rt s i e w) {accts : Withdraw} {amount : UInt64}
    (hinstr : i.instr = .withdraw accts amount) :
    e = holdEntry i.now .paid amount accts.out.destination 0 HOLD_REASON_NONE ∧ 0 < amount ∧
      InstantRules s i.now accts.out.destination amount := by
  cases h with
  | instant instr _ positive rules =>
      rw [hinstr] at instr
      cases instr
      exact ⟨rfl, positive, rules⟩
  | executed instr =>
      rw [hinstr] at instr
      cases instr
  | skipped instr =>
      rw [hinstr] at instr
      cases instr

/-- With the instant rules met on tracked buckets, the releases of the last 24
hours stay within both limits, the new one included. -/
theorem InstantRules.released_le {h : HoldHistory} {s : HoldState} {now : Int64}
    {destination : Pubkey} {amount : UInt64} (hrules : InstantRules s now destination amount)
    (hpositive : 0 < amount) (ht : Tracked h s.vault)
    (hclock : ∀ T ∈ h, T.input.clock ≤ now.toInt) :
    amount.toNat + releasedWithin24h h now.toInt ≤ s.vault.dailyLimit.toNat ∧
      amount.toNat + releasedWithin24h h now.toInt ≤
        s.balance * s.vault.bigShareBps.toNat / 10000 := by
  obtain ⟨before, hspent, hdaily, hshare⟩ := hrules.within
  have hlimit := s.vault.dailyLimit.toNat_lt
  have hsat : before.toNat < bucketMax := by
    rw [UInt64.lt_iff_toNat_lt] at hpositive
    have hzero : (0 : UInt64).toNat = 0 := rfl
    unfold bucketMax
    omega
  have hreleased := ht.released_le hclock hspent hsat
  exact ⟨by omega, by omega⟩

/-- An instant payment adds its amount to the releases of the last 24 hours. -/
theorem releasedWithin24h_cons {T : HoldTransition} {h : HoldHistory} {amount : UInt64}
    {destination : Pubkey} (hrecords : T.output.records =
      [holdEntry T.input.now .paid amount destination 0 HOLD_REASON_NONE]) :
    releasedWithin24h (T :: h) T.input.clock =
      amount.toNat + releasedWithin24h h T.input.clock := by
  unfold releasedWithin24h
  rw [written_cons, hrecords, releasesOf_append]
  show sumWhere ((T.input.clock, amount.toNat) :: _) _ = _
  rw [sumWhere_cons, if_pos (by simp)]
  rfl

/-- **The instant-withdrawal bound.**  At every instant payment of a run with a
clock that never goes back, what was released in the last 24 hours by instant
withdrawals, executed rows and skipped rows, this payment included, is within
the daily limit and within the share of the balance before it; the vault is not
frozen and the destination is known. -/
theorem instant_withdrawal_bound {rt : Runtime} {opening : HoldOutput} {s₀ s : HoldState}
    {h : HoldHistory} (hopen : Opens rt opening s₀) (run : Run (HoldStep rt) s₀ h s)
    (hclock : Nondecreasing HoldInput.clock h) {newer older : HoldHistory} {T : HoldTransition}
    (hsplit : h = newer ++ T :: older) {accts : Withdraw} {amount : UInt64}
    (hpaid : T.PaysInstantly accts amount) :
    releasedWithin24h (T :: older) T.input.clock ≤ T.pre.vault.dailyLimit.toNat ∧
    releasedWithin24h (T :: older) T.input.clock ≤
      T.pre.balance * T.pre.vault.bigShareBps.toNat / 10000 ∧
    T.pre.vault.frozen = false ∧
    T.pre.vault.isKnown accts.out.destination := by
  subst hsplit
  obtain ⟨before, hstep, -⟩ := run.split
  obtain ⟨hle, holder⟩ := Nondecreasing.cons_iff.mp hclock.of_append
  have ht := tracked_of_run hopen before holder
  obtain ⟨hinstr, e, he, hkind⟩ := hpaid
  obtain ⟨hrecords, hpayment⟩ := hstep.stepEffect.effect.payment he hkind
  obtain ⟨rfl, hpositive, hrules⟩ := hpayment.of_withdraw hinstr
  rw [releasedWithin24h_cons hrecords]
  obtain ⟨hdaily, hshare⟩ := hrules.released_le hpositive ht hle
  exact ⟨hdaily, hshare, hrules.live, hrules.known⟩

/-! ### One such run -/

section Sample

/-- Addresses 100, 101 and 102 for a vault, its ledger and its token account. -/
def vaultRuntime : Runtime :=
  .classic fun seeds => match seeds with
    | .text "hold" :: _ => 100
    | .text "hold-ledger" :: _ => 101
    | _ => 102

/-- Owner 1 holds 1000 of mint 3 in account 10; 4 owns account 11, the safe 5 account 12. -/
def vaultWorld : World := fun k =>
  if k = 3 then some ⟨splTokenId, .mint ⟨6⟩⟩
  else if k = 10 then some ⟨splTokenId, .token ⟨3, 1, 1000, none, 0, false⟩⟩
  else if k = 11 then some ⟨splTokenId, .token ⟨3, 4, 0, none, 0, false⟩⟩
  else if k = 12 then some ⟨splTokenId, .token ⟨3, 5, 0, none, 0, false⟩⟩
  else none

/-- A day of delay, at most 100 and at most a quarter of the vault in a day. -/
def openSample (guardian : Pubkey) : HoldResult :=
  initVault vaultRuntime 5 [1]
    { owner := 1, vault := 100, ledger := 101, vaultToken := 102, mint := 3,
      tokenProgram := splTokenId }
    { vaultId := 7, guardian := guardian, safeAddress := 5, dailyLimit := 100,
      delaySecs := HOLD_DELAY_1_DAY, bigShareBps := 2500 } vaultWorld

def payoutTo (destination : Pubkey) : PayoutAccounts :=
  { ledger := 101, vaultToken := 102, destination := destination, mint := 3,
    tokenProgram := splTokenId }

def fundVault (now : Int64) (amount : UInt64) : HoldInput :=
  let accts : Deposit :=
    { owner := 1, ledger := 101, source := 10, vaultToken := 102, mint := 3,
      tokenProgram := splTokenId }
  { now := now, signers := [1], instr := .deposit accts amount }

def withdrawTo (now : Int64) (amount : UInt64) : HoldInput :=
  { now := now, signers := [1], instr := .withdraw { owner := 1, out := payoutTo 11 } amount }

def executeTo (now : Int64) (id : UInt64) : HoldInput :=
  { now := now, signers := [], instr := .execute { out := payoutTo 11 } id }

theorem openSample_ok : (openSample 2).toBool = true := rfl

/-- A first withdrawal waits a day and is executed; a second one is paid at once. -/
def instantRun : Except ProgramError (HoldHistory × HoldState) :=
  execAll (HoldState.exec vaultRuntime) [] (okValue (openSample 2) openSample_ok).2
    [fundVault 10 1000, withdrawTo 20 40, executeTo 86420 1, withdrawTo 86430 50]

theorem instantRun_ok : instantRun.toBool = true := rfl

def instantHistory : HoldHistory := (okValue instantRun instantRun_ok).1

theorem instantRun_opens : Opens vaultRuntime (okValue (openSample 2) openSample_ok).1
    (okValue (openSample 2) openSample_ok).2 :=
  ⟨5, [1], _, _, _, eq_ok_okValue _ openSample_ok⟩

theorem instantRun_run : Run (HoldStep vaultRuntime) (okValue (openSample 2) openSample_ok).2
    instantHistory (okValue instantRun instantRun_ok).2 :=
  run_okValue instantRun_ok

theorem instantHistory_ne_nil : instantHistory ≠ [] :=
  okValue_ne_nil instantRun_ok (List.cons_ne_nil _ _)

theorem instantHistory_split :
    instantHistory = [] ++ instantHistory.head instantHistory_ne_nil :: instantHistory.tail :=
  (List.cons_head_tail _).symm

theorem instantHistory_paid : HoldTransition.PaysInstantly
    (instantHistory.head instantHistory_ne_nil) { owner := 1, out := payoutTo 11 } 50 :=
  ⟨rfl, by decide⟩

/-- In the sample run 40 and 50 left within a day, and the bound is 100. -/
theorem instant_withdrawal_bound_sample :
    let T := instantHistory.head instantHistory_ne_nil
    let h := T :: instantHistory.tail
    releasedWithin24h h T.input.clock ≤ T.pre.vault.dailyLimit.toNat ∧
      releasedWithin24h h T.input.clock = 90 ∧ T.pre.vault.dailyLimit = 100 := by
  have hclock : Nondecreasing HoldInput.clock instantHistory := by decide
  exact ⟨(instant_withdrawal_bound instantRun_opens instantRun_run hclock instantHistory_split
    instantHistory_paid).1, by decide, by decide⟩

end Sample

end Veto

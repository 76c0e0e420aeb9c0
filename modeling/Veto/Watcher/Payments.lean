import Veto.Watcher.Window
import Veto.Watcher.Lookups

/-!
# The journal and the payments on chain

A paid row of the journal should be a payment the chain made.  `Sound` says of a question
and the moment it is asked at that the answer does not mislead the watcher; in a run whose
questions are all sound, every paid row is a payment.
-/

namespace Veto.Watcher

open Foundation

/-! ## What the rows claim, and what misleads -/

/-- Every row that says paid is a payment the chain made. -/
def Backed {rt : Runtime} (chain : MandateChain rt) (journal : Journal) : Prop :=
  ∀ row ∈ journal, row.decision = .paid → chain.Paid row.nonce row.amount

/-- A question does not mislead at its moment.

A charge that is not sent any more, because the last nonce went past it, was paid, with the
amount that is charged.  For a window that is closed, the newest transaction that reads as
its payment is one of this mandate, and the last settled nonce is not one whose payment
nothing shows. -/
def Sound {rt : Runtime} (programId : Pubkey) : Question → Moment rt → Prop
  | .submit nonce amount, m =>
      m.failure = none → ∀ t, m.live = some t → nonce ≤ t.state.mandate.lastNonce.toNat →
        m.chain.Paid nonce amount
  | .history (.closing settled) nonce, m =>
      m.failure = none →
        (∀ amount, NewestPaid programId (scanned m.history 50 none) nonce amount →
          m.chain.Paid nonce amount) ∧
        (PagesRead m.history 50 none → NonePaid programId (scanned m.history 50 none) nonce →
          nonce ≠ settled)
  | _, _ => True

section Rows

variable {rt : Runtime} {chain : MandateChain rt} {journal : Journal}

theorem Backed.of_extends {later : MandateChain rt} (h : Backed chain journal)
    (hext : chain.Extends later) : Backed later journal :=
  fun row hrow hpaid => (h row hrow hpaid).of_extends hext

theorem Backed.append {row : JournalRow} (h : Backed chain journal)
    (hrow : row.decision = .paid → chain.Paid row.nonce row.amount) :
    Backed chain (journal ++ [row]) := by
  intro other hother hpaid
  rcases List.mem_append.mp hother with hold | hnew
  · exact h other hold hpaid
  · obtain rfl := List.mem_singleton.mp hnew
    exact hrow hpaid

variable {nonce : Nat}

theorem Decision.row_eq_paid {d : Decision} : d.row = .paid ↔ d = .paid := by
  cases d <;> simp [Decision.row]

theorem Backed.writeGap (h : Backed chain journal) (reason : String) (signature : Option String) :
    Backed chain (writeGap journal nonce reason signature) := by
  unfold Watcher.writeGap
  split
  · exact h
  · apply h.append
    intro hgap
    cases hgap

theorem Backed.writeSkipped (h : Backed chain journal) (amount : Nat) (reason : String)
    (signature : Option String) :
    Backed chain (writeSkipped journal nonce amount reason signature) := by
  apply h.append
  intro hskipped
  cases hskipped

theorem Backed.deferRateLimit (h : Backed chain journal) :
    Backed chain (deferRateLimit journal nonce).2 := h.writeGap _ _

theorem Backed.writeRecovered (h : Backed chain journal) {recovered : RecoveredCharge}
    (hpaid : recovered.decision = .paid → chain.Paid nonce recovered.amount.toNat) :
    Backed chain (writeRecovered journal nonce recovered) :=
  h.append fun hrow => hpaid (Decision.row_eq_paid.mp hrow)

theorem Backed.writeReceipt (h : Backed chain journal) {amount : Nat} {receipt : ChargeReceipt}
    (hpaid : receipt.decision = .paid → chain.Paid nonce amount) :
    Backed chain (writeReceipt journal nonce amount receipt) :=
  h.append fun hrow => hpaid (Decision.row_eq_paid.mp hrow)

/-- What a closed window adds is backed if what was recovered is, and if the last settled
nonce was not left without a payment. -/
theorem Backed.closedWindow (h : Backed chain journal) {settled : Nat}
    {seenSignature : Option String} {recovered : Option RecoveredCharge}
    (hsome : ∀ charge, recovered = some charge → charge.decision = .paid →
      chain.Paid nonce charge.amount.toNat)
    (hnone : recovered.filter (·.decision = .paid) = none → nonce ≠ settled) :
    Backed chain (closedWindow journal nonce settled seenSignature recovered).2 := by
  unfold Watcher.closedWindow
  split
  · next charge hfound =>
      obtain ⟨hrecovered, -⟩ := Option.filter_eq_some_iff.mp hfound
      exact h.writeRecovered (hsome charge hrecovered)
  · next hmissing =>
      have hne := hnone hmissing
      split
      · exact h.writeSkipped _ _ _
      · next hnewer =>
          rw [if_neg (by omega)]
          exact h.writeGap _ _

end Rows

/-! ## The calls -/

section Calls

variable {rt : Runtime} {env : Surroundings rt} {asked later : List Question}

/-- The chain does not lose anything while questions are asked. -/
theorem extends_of_suffix (h : asked <:+ later) :
    (env.moment asked.length).chain.Extends (env.moment later.length).chain :=
  env.extends h.length_le

theorem call_eq_ok {α : Type} {answer : Moment rt → Except Thrown α} {m : Moment rt} {a : α} :
    m.call answer = .ok a ↔ m.failure = none ∧ answer m = .ok a := by
  unfold Moment.call
  cases m.failure <;> simp

theorem readLastNonce_run {q : Question} {nonce : UInt64}
    (h : (readLastNonceFromAccount q).run env.moment asked = (.ok nonce, later)) :
    q :: asked = later ∧ (env.moment asked.length).failure = none ∧
      ∃ t, (env.moment asked.length).live = some t ∧ t.state.mandate.lastNonce = nonce := by
  obtain ⟨hcall, hlater⟩ := Client.ask_run.mp h
  obtain ⟨hup, hanswer⟩ := call_eq_ok.mp hcall
  refine ⟨hlater, hup, ?_⟩
  cases hlive : (env.moment asked.length).live with
  | none => simp [Moment.mandateInfo, hlive] at hanswer
  | some t =>
      simp only [Moment.mandateInfo, hlive, Option.map_some, decodeMandateLastNonce_data,
        Except.ok.injEq] at hanswer
      exact ⟨t, rfl, hanswer⟩

variable {programId : Pubkey} {nonce : Nat}

theorem readRecordedCharge_run {charge : RecoveredCharge}
    (h : (readRecordedCharge nonce).run env.moment asked = (.ok (some charge), later))
    (hpaid : charge.decision = .paid) :
    (env.moment later.length).chain.Paid nonce charge.amount.toNat := by
  obtain ⟨hcall, rfl⟩ := Client.ask_run.mp h
  obtain ⟨-, hanswer⟩ := call_eq_ok.mp hcall
  cases hlive : (env.moment asked.length).live with
  | none => simp [Moment.ledgerInfo, hlive] at hanswer
  | some t =>
      simp only [Moment.ledgerInfo, hlive, Option.map_some] at hanswer
      have ht := (env.moment asked.length).live_mem t hlive
      exact (paid_of_recorded ht hanswer hpaid).of_extends (env.grows _)

/-- What is recovered for a window that is closed was paid. -/
theorem recover_some {settled : Nat} {charge : RecoveredCharge}
    (h : (recoverSettledCharge programId settled nonce).run env.moment asked =
      (.ok (some charge), later))
    (hsound : Client.All (Sound programId) env.moment later) :
    (env.moment later.length).chain.Paid nonce charge.amount.toNat := by
  obtain ⟨ringHit, between, hring, h⟩ := Client.bind_run.mp h
  obtain ⟨hcall, rfl⟩ := Client.ask_run.mp hring
  obtain ⟨-, hanswer⟩ := call_eq_ok.mp hcall
  cases ringHit with
  | some hit =>
      obtain ⟨historyHit, _, hhistory, h⟩ := Client.bind_run.mp h
      obtain ⟨heq, rfl⟩ := Client.pure_run.mp h
      obtain rfl := Option.some.inj heq
      cases hlive : (env.moment asked.length).live with
      | none => simp [Moment.ledgerInfo, hlive] at hanswer
      | some t =>
          simp only [Moment.ledgerInfo, hlive, Option.map_some] at hanswer
          have ht := (env.moment asked.length).live_mem t hlive
          exact (paid_of_findPaid ht hanswer).of_extends
            (extends_of_suffix ((List.suffix_cons _ asked).trans (Client.suffix_of_run hhistory)))
  | none =>
      obtain ⟨hcall, rfl⟩ := Client.ask_run.mp h
      obtain ⟨hup, hanswer⟩ := call_eq_ok.mp hcall
      obtain ⟨hnewest, -⟩ := hsound.1 hup
      exact (hnewest _ (findPaidFrom_some hanswer).1).of_extends (env.grows _)

/-- A window that nothing is recovered for is not the last settled one. -/
theorem recover_none {settled : Nat}
    (h : (recoverSettledCharge programId settled nonce).run env.moment asked = (.ok none, later))
    (hsound : Client.All (Sound programId) env.moment later) : nonce ≠ settled := by
  obtain ⟨ringHit, between, -, h⟩ := Client.bind_run.mp h
  cases ringHit with
  | some hit =>
      obtain ⟨_, _, -, h⟩ := Client.bind_run.mp h
      obtain ⟨heq, -⟩ := Client.pure_run.mp h
      cases heq
  | none =>
      obtain ⟨hcall, rfl⟩ := Client.ask_run.mp h
      obtain ⟨hup, hanswer⟩ := call_eq_ok.mp hcall
      obtain ⟨-, hlast⟩ := hsound.1 hup
      obtain ⟨hpages, hnone⟩ := findPaidFrom_none hanswer
      exact hlast hpages hnone

/-- A lookup finds payments only. -/
theorem recover_paid {why : Lookup} {charge : RecoveredCharge}
    (h : (recoverFromConnection programId why nonce).run env.moment asked =
      (.ok (some charge), later)) : charge.decision = .paid := by
  obtain ⟨ringHit, between, -, h⟩ := Client.bind_run.mp h
  cases ringHit with
  | some hit =>
      obtain ⟨_, _, -, h⟩ := Client.bind_run.mp h
      obtain ⟨heq, -⟩ := Client.pure_run.mp h
      obtain rfl := Option.some.inj heq
      rfl
  | none =>
      obtain ⟨hcall, -⟩ := Client.ask_run.mp h
      exact (findPaidFrom_some (call_eq_ok.mp hcall).2).2

theorem encodeU64_eq_ok {n : Nat} {a : UInt64} (h : encodeU64 n = .ok a) : a.toNat = n := by
  unfold encodeU64 at h
  split at h
  · next hlt =>
      obtain rfl := Except.ok.inj h
      exact UInt64.toNat_ofNat_of_lt' hlt
  · cases h

/-- A receipt that says paid is a payment of the charge, sent or not. -/
theorem submitCharge_run {amount : Nat} {receipt : ChargeReceipt}
    (h : (submitCharge programId amount nonce).run env.moment asked = (.ok receipt, later))
    (hsound : Client.All (Sound programId) env.moment later) (hpaid : receipt.decision = .paid) :
    (env.moment later.length).chain.Paid nonce amount := by
  have hsuffix := Client.suffix_of_run h
  obtain ⟨lastNonce, between, hlast, h⟩ := Client.bind_run.mp h
  obtain ⟨rfl, hup, t, hlive, rfl⟩ := readLastNonce_run hlast
  by_cases hpast : nonce ≤ t.state.mandate.lastNonce.toNat
  · -- not sent again: what the read of the last nonce says is all there is
    have hasked := hsound.of_suffix (Client.suffix_of_run h)
    exact (hasked.1 hup t hlive hpast).of_extends (extends_of_suffix hsuffix)
  · rw [if_neg hpast] at h
    obtain ⟨a, _, ha, h⟩ := Client.bind_run.mp h
    obtain ⟨hamount, rfl⟩ := Client.lift_run.mp ha
    obtain ⟨n, _, hn, h⟩ := Client.bind_run.mp h
    obtain ⟨hnonce, rfl⟩ := Client.lift_run.mp hn
    obtain ⟨signature, sending, -, h⟩ := Client.bind_run.mp h
    obtain ⟨logs, _, hsent, h⟩ := Client.bind_run.mp h
    obtain ⟨hcall, rfl⟩ := Client.ask_run.mp hsent
    obtain ⟨outcome, _, houtcome, h⟩ := Client.bind_run.mp h
    obtain ⟨hparse, rfl⟩ := Client.lift_run.mp houtcome
    obtain ⟨rfl, rfl⟩ := Client.pure_run.mp h
    obtain ⟨-, hanswer⟩ := call_eq_ok.mp hcall
    obtain rfl := Except.ok.inj hanswer
    cases htx : (env.moment sending.length).sent n a with
    | none =>
        rw [htx] at hparse
        cases hparse
    | some logs =>
        rw [htx] at hparse
        have hlogged := (env.moment sending.length).sent_logged n a logs htx
        have hhas := hlogged.has (parseChargeLogs_eq_ok.mp hparse)
        rw [show outcome.decision = .paid from hpaid] at hhas
        have hmade : (env.moment sending.length).chain.Paid nonce amount :=
          ⟨n, a, encodeU64_eq_ok hnonce, encodeU64_eq_ok hamount, _, hhas⟩
        exact hmade.of_extends (env.grows _)

end Calls

/-! ## One window -/

section Window

variable {rt : Runtime} {env : Surroundings rt} {asked later : List Question} {α : Type}

/-- An answer under a backoff is the answer of one of the attempts. -/
theorem withRpcBackoff_run {fn : Rpc rt α} {attempts : Nat} {a : α}
    (h : (withRpcBackoff fn attempts).run env.moment asked = (.ok a, later)) :
    ∃ start, fn.run env.moment start = (.ok a, later) := by
  induction attempts generalizing asked with
  | zero => exact absurd h Client.fail_run
  | succ attempts ih =>
      rcases Client.handle_run.mp h with hfirst | ⟨e, between, -, hagain⟩
      · exact ⟨asked, hfirst⟩
      · split at hagain
        · exact absurd hagain Client.fail_run
        · exact ih hagain

theorem unlessRateLimited_run {m : Loop rt α} {a : α}
    (h : (unlessRateLimited m).run env.moment asked = (.ok (some a), later)) :
    m.run env.moment asked = (.ok a, later) := by
  rcases Client.handle_run.mp h with hfirst | ⟨e, between, -, hagain⟩
  · obtain ⟨b, hrun, heq⟩ := Client.map_run.mp hfirst
    obtain rfl := Option.some.inj heq
    exact hrun
  · split at hagain
    · obtain ⟨heq, -⟩ := Client.pure_run.mp hagain
      cases heq
    · exact absurd hagain Client.fail_run

variable {programId : Pubkey} {attempts nonce : Nat} {journal : Journal}
  {result : ProcessResult × Journal}

/-- The journal stays backed in this run. -/
def KeepsBacked (env : Surroundings rt) (asked : List Question) (journal : Journal)
    (later : List Question) (journal' : Journal) : Prop :=
  Backed (env.moment asked.length).chain journal → Backed (env.moment later.length).chain journal'

theorem closeAlreadySettled_backed {settled : Nat} {seenSignature : Option String}
    (h : (closeAlreadySettled attempts (some (chainReader programId)) journal nonce settled
      seenSignature).run env.moment asked = (.ok result, later))
    (hsound : Client.All (Sound programId) env.moment later) :
    KeepsBacked env asked journal later result.2 := by
  intro hbacked
  have hkept := hbacked.of_extends (extends_of_suffix (Client.suffix_of_run h))
  obtain ⟨recovered, _, hrecover, h⟩ := Client.bind_run.mp h
  obtain ⟨rfl, rfl⟩ := Client.pure_run.mp h
  obtain ⟨start, hrun⟩ := withRpcBackoff_run hrecover
  apply hkept.closedWindow
  · rintro charge rfl -
    exact recover_some hrun hsound
  · intro hmissing
    cases recovered with
    | none => exact recover_none hrun hsound
    | some charge =>
        rw [Option.filter_eq_none_iff] at hmissing
        exact absurd (decide_eq_true (recover_paid hrun)) (hmissing charge rfl)

theorem submitWindow_backed {amount : Nat}
    (h : (submitWindow attempts (some (chainReader programId)) (submitCharge programId) journal
      nonce amount).run env.moment asked = (.ok result, later))
    (hsound : Client.All (Sound programId) env.moment later) :
    KeepsBacked env asked journal later result.2 := by
  intro hbacked
  have hkept := hbacked.of_extends (extends_of_suffix (Client.suffix_of_run h))
  obtain ⟨receipt, between, hsubmit, h⟩ := Client.bind_run.mp h
  cases receipt with
  | none =>
      obtain ⟨rfl, -⟩ := Client.pure_run.mp h
      exact hkept.deferRateLimit
  | some receipt =>
      dsimp only at h
      split at h
      · obtain ⟨closed, _, hclose, h⟩ := Client.bind_run.mp h
        cases closed with
        | none =>
            obtain ⟨rfl, -⟩ := Client.pure_run.mp h
            exact hkept.deferRateLimit
        | some closed =>
            obtain ⟨rfl, rfl⟩ := Client.pure_run.mp h
            obtain ⟨latest, reading, hlatest, hclose⟩ :=
              Client.bind_run.mp (unlessRateLimited_run hclose)
            have hread := (Client.suffix_of_run hsubmit).trans (Client.suffix_of_run hlatest)
            exact closeAlreadySettled_backed hclose hsound
              (hbacked.of_extends (extends_of_suffix hread))
      · obtain ⟨rfl, rfl⟩ := Client.pure_run.mp h
        obtain ⟨start, hrun⟩ := withRpcBackoff_run (unlessRateLimited_run hsubmit)
        exact hkept.writeReceipt fun hpaid => submitCharge_run hrun hsound hpaid

theorem priceWindow_backed {args : WindowArgs}
    (h : (priceWindow attempts (some (chainReader programId)) (submitCharge programId) args journal
      nonce).run env.moment asked = (.ok result, later))
    (hsound : Client.All (Sound programId) env.moment later) :
    KeepsBacked env asked journal later result.2 := by
  intro hbacked
  have hkept := hbacked.of_extends (extends_of_suffix (Client.suffix_of_run h))
  unfold priceWindow at h
  cases hwindow : args.window with
  | none =>
      rw [hwindow] at h
      obtain ⟨rfl, -⟩ := Client.pure_run.mp h
      exact hkept.writeGap _ _
  | some window =>
      rw [hwindow] at h
      dsimp only at h
      split at h
      · obtain ⟨rfl, -⟩ := Client.pure_run.mp h
        exact hkept.writeGap _ _
      split at h
      · obtain ⟨rfl, -⟩ := Client.pure_run.mp h
        exact hkept.writeGap _ _
      split at h
      · obtain ⟨rfl, -⟩ := Client.pure_run.mp h
        exact hkept.writeSkipped _ _ _
      split at h
      · obtain ⟨rfl, -⟩ := Client.pure_run.mp h
        exact hkept.writeGap _ _
      split at h
      · exact absurd h Client.fail_run
      split at h
      · obtain ⟨rfl, -⟩ := Client.pure_run.mp h
        exact hkept.writeSkipped _ _ _
      · exact submitWindow_backed h hsound hbacked

/-- One window adds payments only. -/
theorem processWindow_backed {args : WindowArgs}
    (h : (processWindow attempts (some (chainReader programId)) (submitCharge programId) args
      journal).run env.moment asked = (.ok result, later))
    (hsound : Client.All (Sound programId) env.moment later) :
    KeepsBacked env asked journal later result.2 := by
  intro hbacked
  have hkept := hbacked.of_extends (extends_of_suffix (Client.suffix_of_run h))
  unfold processWindow at h
  split at h
  · exact absurd h Client.fail_run
  next nonce hslot =>
  split at h
  · obtain ⟨rfl, -⟩ := Client.pure_run.mp h
    exact hkept
  obtain ⟨settled, reading, hsettled, h⟩ := Client.bind_run.mp h
  cases settled with
  | none =>
      obtain ⟨rfl, -⟩ := Client.pure_run.mp h
      exact hkept.deferRateLimit
  | some settled =>
      have hread := hbacked.of_extends (extends_of_suffix (Client.suffix_of_run hsettled))
      dsimp only at h
      split at h
      · obtain ⟨closed, _, hclose, h⟩ := Client.bind_run.mp h
        cases closed with
        | none =>
            obtain ⟨rfl, -⟩ := Client.pure_run.mp h
            exact hkept.deferRateLimit
        | some closed =>
            obtain ⟨rfl, rfl⟩ := Client.pure_run.mp h
            exact closeAlreadySettled_backed (unlessRateLimited_run hclose) hsound hread
      obtain ⟨recorded, recording, hrecorded, h⟩ := Client.bind_run.mp h
      cases recorded with
      | none =>
          obtain ⟨rfl, -⟩ := Client.pure_run.mp h
          exact hkept.deferRateLimit
      | some recorded =>
          cases recorded with
          | none =>
              refine priceWindow_backed h hsound (hread.of_extends ?_)
              exact extends_of_suffix (Client.suffix_of_run hrecorded)
          | some recovered =>
              obtain ⟨start, hrun⟩ := withRpcBackoff_run (unlessRateLimited_run hrecorded)
              have hwritten : result.2 = writeRecovered journal nonce recovered ∧
                  recording = later := by
                dsimp only at h
                split at h
                · obtain ⟨rfl, rfl⟩ := Client.pure_run.mp h
                  exact ⟨rfl, rfl⟩
                · obtain ⟨rfl, rfl⟩ := Client.pure_run.mp h
                  exact ⟨rfl, rfl⟩
              obtain ⟨hrow, rfl⟩ := hwritten
              rw [hrow]
              exact hkept.writeRecovered fun hpaid => readRecordedCharge_run hrun hpaid

end Window

/-! ## A run -/

section Runs

variable {rt : Runtime} (programId : Pubkey) (attempts : Nat) (env : Surroundings rt)

theorem processAll_grows (windows : List WindowArgs) (journal : Journal) (asked : List Question) :
    asked <:+ (processAll programId attempts env windows journal asked).2 := by
  induction windows generalizing journal asked with
  | nil => exact List.suffix_rfl
  | cons args rest ih =>
      unfold processAll
      split
      · next hrun => exact (Client.suffix_of_run hrun).trans (ih _ _)
      · next hrun => exact (Client.suffix_of_run hrun).trans (ih _ _)

/-- **The journal.**  Windows processed one after the other, among everything that other
clients do, leave only payments the chain made, if no question misleads. -/
theorem processAll_backed (windows : List WindowArgs) (journal : Journal) (asked : List Question)
    (hstart : Backed (env.moment asked.length).chain journal)
    (hsound : Client.All (Sound programId) env.moment
      (processAll programId attempts env windows journal asked).2) :
    Backed (env.moment (processAll programId attempts env windows journal asked).2.length).chain
      (processAll programId attempts env windows journal asked).1 := by
  induction windows generalizing journal asked with
  | nil => exact hstart
  | cons args rest ih =>
      unfold processAll at hsound ⊢
      split at hsound
      · next result left later hrun =>
          have hearlier := hsound.of_suffix (processAll_grows programId attempts env rest left later)
          exact ih left later (processWindow_backed hrun hearlier hstart) hsound
      · next result later hrun =>
          exact ih journal later
            (hstart.of_extends (extends_of_suffix (Client.suffix_of_run hrun))) hsound

end Runs

/-! ### Overtaken -/

section Sample

/-- Another client is paid 30 with nonce 1800. -/
def overtakingRun : Except ProgramError (MandateHistory × MandateState) :=
  execAll (MandateState.exec sampleRuntime) [] (okValue sampleOpen sampleOpen_ok).2
    [{ now := 20
       signers := [2]
       instr := .charge { agent := 2, ledger := 101, source := 10, destination := 11, mint := 3,
                          tokenProgram := splTokenId } 30 1800 }]

theorem overtakingRun_ok : overtakingRun.toBool = true := rfl

/-- The mandate of the sample, right after it was opened. -/
def openedTenure : Tenure sampleRuntime :=
  { sampleTenure with
    history := []
    state := (okValue sampleOpen sampleOpen_ok).2
    run := .start }

/-- The same mandate after the payment. -/
def overtakenTenure : Tenure sampleRuntime :=
  { sampleTenure with
    history := (okValue overtakingRun overtakingRun_ok).1
    state := (okValue overtakingRun overtakingRun_ok).2
    run := run_okValue overtakingRun_ok }

theorem sampleTenure_key : sampleTenure.start.key = 100 := by decide

/-- A node that is up, and lists no signatures. -/
def sampleMoment (t : Tenure sampleRuntime) (h : t.start.key = 100) : Moment sampleRuntime where
  chain := {
    key := 100
    tenures := [t]
    there := by
      intro t' ht
      obtain rfl := List.mem_singleton.mp ht
      exact h }
  live := some t
  live_mem := by
    rintro _ ⟨⟩
    exact List.mem_singleton_self _
  failure := none
  history := fun _ => .ok []
  signature := ""
  sent := fun _ _ => none
  sent_logged := by
    rintro _ _ _ ⟨⟩

/-- The payment lands after two questions. -/
def overtaking : Surroundings sampleRuntime where
  moment k := if k < 2 then sampleMoment openedTenure sampleTenure_key
    else sampleMoment overtakenTenure sampleTenure_key
  grows := by
    intro k t ht
    by_cases hbefore : k < 2
    · rw [if_pos hbefore] at ht
      obtain rfl := List.mem_singleton.mp ht
      by_cases hnext : k + 1 < 2
      · rw [if_pos hnext]
        exact ⟨_, List.mem_singleton_self _, rfl, List.suffix_rfl⟩
      · rw [if_neg hnext]
        exact ⟨_, List.mem_singleton_self _, rfl, List.nil_suffix⟩
    · rw [if_neg hbefore] at ht
      rw [if_neg (by omega)]
      exact ⟨t, ht, rfl, List.suffix_rfl⟩

/-- One kWh in the slot of a nonce, at a price of the feed. -/
def sampleWindow (nonce : Nat) (sekPerKwh : String) : WindowArgs where
  slot := nonce * 1000
  feed := fun _ =>
    some { timeStart := "", startMs := some (nonce * 1000), sekPerKwh := lit sekPerKwh }
  feedAttempts := 1
  kwhMilli := 1000
  mintDecimals := 6
  quoteCurrency := .sek
  fx := none
  fxFresh := fun _ => true

/-- A charge of 30 for nonce 1800 that had landed already is journaled, and was paid. -/
theorem processAll_backed_sample :
    let journaled := processAll 99 1 overtaking [sampleWindow 1800 "0.00003"] [] []
    Backed (overtaking.moment journaled.2.length).chain journaled.1 ∧
      journaled.1.map (fun row => (row.nonce, row.amount, row.decision)) = [(1800, 30, .paid)] := by
  intro journaled
  have hasked : journaled.2 = [.signature 1800, .ledger .resend 1800, .submit 1800 30,
      .recorded 1800, .lastNonce] := by decide +kernel
  have hpaid : (overtaking.moment 2).chain.Paid 1800 30 := by
    refine ⟨1800, 30, rfl, rfl, 0, overtakenTenure, List.mem_singleton_self _, .ok, rfl, ?_⟩
    change ∃ T ∈ overtakenTenure.history, Decided T 1800 30 .paid .ok
    decide
  refine ⟨processAll_backed 99 1 overtaking _ [] [] ?_ ?_, by decide +kernel⟩
  · intro row hrow
    cases hrow
  · change Client.All _ _ journaled.2
    rw [hasked]
    exact ⟨trivial, trivial, fun _ _ _ _ => hpaid, trivial, trivial, trivial⟩

/-- Nonce 900 is overtaken by nonce 1800 and journaled as paid, which it never was. -/
theorem overtaken_not_backed :
    let journaled := processAll 99 1 overtaking [sampleWindow 900 "0.00001"] [] []
    ∃ row ∈ journaled.1, row.nonce = 900 ∧ row.amount = 10 ∧ row.decision = .paid ∧
      ¬ (overtaking.moment journaled.2.length).chain.Paid row.nonce row.amount := by
  intro journaled
  have hrows : ∃ row ∈ journaled.1, row.nonce = 900 ∧ row.amount = 10 ∧ row.decision = .paid := by
    decide +kernel
  have hasked : journaled.2.length = 5 := by decide +kernel
  obtain ⟨row, hrow, hnonce, hamount, hpaid⟩ := hrows
  refine ⟨row, hrow, hnonce, hamount, hpaid, ?_⟩
  rw [hasked, hnonce]
  rintro ⟨n, a, hn, -, code, t, ht, reason, -, T, hT, ⟨accts, hinstr⟩, -⟩
  obtain rfl := List.mem_singleton.mp ht
  have hcharged : ∀ T ∈ overtakenTenure.history, (match T.input.instr with
      | .charge _ _ nonce => decide (nonce.toNat ≠ 900)
      | _ => true) = true := by decide
  have hother := hcharged T hT
  simp [hinstr, hn] at hother

end Sample

end Veto.Watcher

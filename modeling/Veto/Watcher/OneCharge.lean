import Veto.Foundation.ClientTriple
import Veto.Mandate.Override
import Veto.Watcher.Due

/-!
# One charge for each slot

A charge may land long after it was sent, or after its send has failed.  Before a charge is sent
the last nonce and the ledger are read; these reads are what keeps a second charge of the nonce
from being sent.  A watcher may stop at any question and go on from any journal.
-/

namespace Veto

open Foundation

/-! ## Charges that landed -/

/-- `a` stands at place `k` of a list that grows at its head. -/
def Stands {α : Type} (l : List α) (k : Nat) (a : α) : Prop :=
  ∃ newer older, l = newer ++ a :: older ∧ older.length = k

theorem stands_nil {α : Type} {k : Nat} {a : α} : ¬ Stands [] k a := by
  rintro ⟨newer, older, hcut, -⟩
  cases newer <;> cases hcut

theorem stands_cons {α : Type} {l : List α} {k : Nat} {a b : α} :
    Stands (b :: l) k a ↔ (k = l.length ∧ a = b) ∨ Stands l k a := by
  constructor
  · rintro ⟨newer, older, hcut, rfl⟩
    cases newer with
    | nil =>
        obtain ⟨rfl, rfl⟩ := List.cons.inj hcut
        exact .inl ⟨rfl, rfl⟩
    | cons c newer =>
        obtain ⟨-, rfl⟩ := List.cons.inj hcut
        exact .inr ⟨newer, older, rfl, rfl⟩
  · rintro (⟨rfl, rfl⟩ | ⟨newer, older, rfl, rfl⟩)
    · exact ⟨[], l, rfl, rfl⟩
    · exact ⟨b :: newer, older, rfl, rfl⟩

theorem Stands.mem {α : Type} {l : List α} {k : Nat} {a : α} (h : Stands l k a) : a ∈ l := by
  obtain ⟨newer, older, rfl, -⟩ := h
  exact List.mem_append_right _ List.mem_cons_self

namespace MandateTransition

/-- A charge of the nonce was decided. -/
def Charges (T : MandateTransition) (nonce : UInt64) : Prop :=
  ∃ accts amount, T.input.instr = .charge accts amount nonce

/-- An override of the nonce was granted. -/
def Overrides (T : MandateTransition) (nonce : UInt64) : Prop :=
  ∃ accts amount, T.input.instr = .grantOverride accts amount nonce

end MandateTransition

/-- An override of the nonce was granted between two places of a history. -/
def OverriddenBetween (h : MandateHistory) (nonce : UInt64) (i j : Nat) : Prop :=
  ∃ g G, min i j < g ∧ g < max i j ∧ Stands h g G ∧ MandateTransition.Overrides G nonce

/-- Two charges of one nonce have an override of it between them. -/
def ChargedOnce (h : MandateHistory) : Prop :=
  ∀ nonce i j T U, i ≠ j → Stands h i T → Stands h j U → MandateTransition.Charges T nonce →
    MandateTransition.Charges U nonce → OverriddenBetween h nonce i j

theorem OverriddenBetween.symm {h : MandateHistory} {nonce : UInt64} {i j : Nat}
    (hgrant : OverriddenBetween h nonce i j) : OverriddenBetween h nonce j i := by
  obtain ⟨g, G, hlow, hhigh, hG⟩ := hgrant
  exact ⟨g, G, Nat.min_comm i j ▸ hlow, Nat.max_comm i j ▸ hhigh, hG⟩

/-- A charge records its decision under its nonce. -/
theorem MandateStep.charge_record {rt : Runtime} {s s' : MandateState} {i : MandateInput}
    {o : MandateOutput} {accts : Charge} {amount nonce : UInt64} (h : MandateStep rt s i o s')
    (hinstr : i.instr = .charge accts amount nonce) :
    ∃ e, o.records = [e] ∧ e.nonce = nonce ∧ (e.kind = .paid ∨ e.kind = .refused) := by
  cases MandateStep.effect h with
  | paid instr _ _ _ _ _ _ _ _ records =>
      obtain ⟨rfl, rfl, rfl⟩ := MandateInstr.charge.inj (instr.symm.trans hinstr)
      exact ⟨_, records, rfl, .inl rfl⟩
  | refused instr _ _ records =>
      obtain ⟨rfl, rfl, rfl⟩ := MandateInstr.charge.inj (instr.symm.trans hinstr)
      exact ⟨_, records, rfl, .inr rfl⟩
  | granted instr =>
      rw [hinstr] at instr
      cases instr
  | revoked instr =>
      rw [hinstr] at instr
      cases instr
  | outside instr =>
      rw [hinstr] at instr
      cases instr

section Records

variable {rt : Runtime} (t : Tenure rt) {T : MandateTransition} {nonce : UInt64}

/-- The last nonce is at least that of a payment. -/
theorem Tenure.lastNonce_of_paid (hT : T ∈ t.history) (hcharge : MandateTransition.Charges T nonce)
    {e : Entry} (he : e ∈ T.output.records) (hpaid : e.kind = .paid) :
    nonce.toNat ≤ t.state.mandate.lastNonce.toNat := by
  obtain ⟨accts, amount, hinstr⟩ := hcharge
  obtain ⟨_, _, _, _, hstep, _⟩ := t.run.of_mem hT
  obtain ⟨e', hrecords, rfl, -⟩ := hstep.charge_record hinstr
  obtain rfl : e = e' := List.mem_singleton.mp (hrecords ▸ he)
  refine Metered.nonce_le (MandateInv.run t.run (MandateInv.opened t.opened)) ?_
  refine List.mem_filter.mpr ⟨List.mem_append_left _ ?_, decide_eq_true hpaid⟩
  exact List.mem_flatMap.mpr ⟨T, hT, List.mem_reverse.mpr he⟩

/-- A record that fewer than 32 followed is still in the ring. -/
theorem Tenure.mem_recent {newer older : MandateHistory} (hcut : t.history = newer ++ T :: older)
    {e : Entry} (he : T.output.records = [e])
    (hfew : (written newer).length < LEDGER_CAPACITY) :
    e ∈ Ring.recent LEDGER_CAPACITY t.log := by
  have hlog : t.log = (written older ++ t.opening.records).reverse ++ e :: (written newer).reverse := by
    rw [Tenure.log, hcut]
    simp [written, he]
  rw [hlog, Ring.recent, List.drop_append_of_le_length]
  · exact List.mem_append_right _ List.mem_cons_self
  · simp only [List.length_append, List.length_reverse, List.length_cons]
    omega

end Records

namespace Watcher

/-! ## What a read of the ledger misses -/

/-- A record that the ring still has is found. -/
theorem recorded_none {ledger : Raw.LedgerOf Raw.Entry} {log : List Raw.Entry} {nonce : Nat}
    (h : ledger.ring.Holds log)
    (hnone : recordedFromLedgerBytes (Raw.ledgerData ledger) nonce = .ok none) :
    ∀ e ∈ Ring.recent LEDGER_CAPACITY log, e.nonce.toNat = nonce →
      e.kind ≠ KIND_PAID ∧ e.kind ≠ KIND_REFUSED := by
  have hreads : ∀ e : Raw.Entry, readBigUInt64LE (subarray e.bytes 8 16) 0 = .ok e.amount ∧
      readBigUInt64LE (subarray e.bytes 56 64) 0 = .ok e.suggestedOverride := fun e =>
    ⟨readU64Le_eq e.at_zero.amount, readU64Le_eq e.at_zero.suggestedOverride⟩
  obtain ⟨paid, hpaid, hnone⟩ := bind_ok_iff.mp hnone
  cases paid with
  | some hit => cases hnone
  | none =>
  obtain ⟨refused, hrefused, hnone⟩ := bind_ok_iff.mp hnone
  cases refused with
  | some hit => cases hnone
  | none =>
  rw [findPaidInLedgerBytes, entriesOf_eq h, ok_bind, List.head?_map] at hpaid
  rw [findRefusedInLedgerBytes, entriesOf_eq h, ok_bind, List.getLast?_map] at hrefused
  have hnopaid : (Ring.recent LEDGER_CAPACITY log).filter (isFor KIND_PAID nonce) = [] := by
    rw [← List.head?_eq_none_iff]
    cases hhead : ((Ring.recent LEDGER_CAPACITY log).filter (isFor KIND_PAID nonce)).head? with
    | none => rfl
    | some e =>
        obtain ⟨hamount, hoverride⟩ := hreads e
        rw [hhead] at hpaid
        simp only [Option.map_some, hamount, hoverride, ok_bind, pure, Except.pure] at hpaid
        cases hpaid
  have hnorefused : (Ring.recent LEDGER_CAPACITY log).filter (isFor KIND_REFUSED nonce) = [] := by
    rw [← List.getLast?_eq_none_iff]
    cases hlast : ((Ring.recent LEDGER_CAPACITY log).filter (isFor KIND_REFUSED nonce)).getLast? with
    | none => rfl
    | some e =>
        obtain ⟨hamount, hoverride⟩ := hreads e
        rw [hlast] at hrefused
        simp only [Option.map_some, hamount, hoverride, ok_bind, pure, Except.pure] at hrefused
        cases hrefused
  intro e he hnonce
  constructor
  · intro hkind
    exact List.filter_eq_nil_iff.mp hnopaid e he (decide_eq_true ⟨hnonce, hkind⟩)
  · intro hkind
    exact List.filter_eq_nil_iff.mp hnorefused e he (decide_eq_true ⟨hnonce, hkind⟩)

/-! ## What is read before a send -/

def isLedgerRead : Question → Bool
  | .recorded _ => true
  | _ => false

def isSubmit : Question → Bool
  | .submit _ _ => true
  | _ => false

/-- The latest question of a kind, with those before it. -/
def since (kind : Question → Bool) (asked : List Question) : List Question :=
  asked.dropWhile fun q => !kind q

theorem since_of_kind {kind : Question → Bool} {q : Question} {asked : List Question}
    (h : kind q = true) : since kind (q :: asked) = q :: asked :=
  List.dropWhile_cons_of_neg (by simp [h])

theorem since_of_other {kind : Question → Bool} {q : Question} {asked : List Question}
    (h : kind q = false) : since kind (q :: asked) = since kind asked :=
  List.dropWhile_cons_of_pos (by simp [h])

section Guard

variable {rt : Runtime} (env : Surroundings rt)

/-- The latest read of the ledger was for the nonce and found no record of it. -/
def Unrecorded (nonce : Nat) (asked : List Question) : Prop :=
  ∃ first, since isLedgerRead asked = .recorded nonce :: first ∧
    ∀ t, (env.moment first.length).live = some t →
      recordedFromLedgerBytes (Raw.ledgerData t.state.ledger.raw) nonce = .ok none

/-- The latest read of the last nonce before a send was for the nonce and found a lower one. -/
def Ahead (nonce : Nat) (asked : List Question) : Prop :=
  ∃ amount first t, since isSubmit asked = .submit nonce amount :: first ∧
    (env.moment first.length).live = some t ∧ t.state.mandate.lastNonce.toNat < nonce

/-- Every charge is sent after both reads. -/
def Guarded : List Question → Prop
  | [] => True
  | q :: earlier =>
      (∀ nonce amount, q = .send nonce amount →
        Ahead env nonce.toNat earlier ∧ Unrecorded env nonce.toNat earlier) ∧
      Guarded earlier

end Guard

/-! ## The calls of a window -/

section Calls

variable {rt : Runtime} {env : Surroundings rt} {programId : Pubkey} {nonce amount attempts : Nat}
  {I : List Question → Prop} {α : Type}

/-- Only a send and a read of the ledger for a record matter to the invariant. -/
def Indifferent (I : List Question → Prop) : Prop :=
  ∀ q asked, (∀ nonce amount, q ≠ .send nonce amount) → isLedgerRead q = false → I asked →
    I (q :: asked)

/-- The charges so far were guarded, and the window's nonce was read as unrecorded. -/
def Clear (env : Surroundings rt) (nonce : Nat) (asked : List Question) : Prop :=
  Guarded env asked ∧ Unrecorded env nonce asked

theorem guarded_indifferent : Indifferent (Guarded env) :=
  fun _ _ hsend _ hasked => ⟨fun nonce amount heq => absurd heq (hsend nonce amount), hasked⟩

theorem clear_indifferent : Indifferent (Clear env nonce) := by
  rintro q asked hsend hread ⟨hguarded, hunrecorded⟩
  refine ⟨guarded_indifferent q asked hsend hread hguarded, ?_⟩
  unfold Unrecorded
  rw [since_of_other hread]
  exact hunrecorded

theorem lastNonce_keeps (hI : Indifferent I) {q : Question}
    (hsend : ∀ nonce amount, q ≠ .send nonce amount) (hread : isLedgerRead q = false) :
    Client.Keeps env.moment I (readLastNonceFromAccount q : Rpc rt UInt64) :=
  Client.keeps_ask fun asked => hI q asked hsend hread

theorem recover_keeps (hI : Indifferent I) (why : Lookup) :
    Client.Keeps env.moment I (recoverFromConnection programId why nonce : Rpc rt _) := by
  apply Client.keeps_bind
  · exact Client.keeps_ask fun asked => hI _ asked (fun _ _ => nofun) rfl
  · intro ringHit
    cases ringHit with
    | none => exact Client.keeps_ask fun asked => hI _ asked (fun _ _ => nofun) rfl
    | some hit =>
        apply Client.keeps_bind
        · apply Client.keeps_handle
          · exact Client.keeps_ask fun asked => hI _ asked (fun _ _ => nofun) rfl
          · intro e
            split
            · exact Client.keeps_pure
            · exact Client.keeps_fail
        · exact fun _ => Client.keeps_pure

/-- Reading the last nonce right before a send. -/
theorem ahead_triple : Client.Triple env.moment (Clear env nonce)
    (readLastNonceFromAccount (.submit nonce amount) : Rpc rt UInt64)
    (fun last asked => Clear env nonce asked ∧ (¬ nonce ≤ last.toNat → Ahead env nonce asked))
    (Clear env nonce) := by
  have hkeeps : ∀ asked, Clear env nonce asked → Clear env nonce (.submit nonce amount :: asked) :=
    fun asked => clear_indifferent _ asked (fun _ _ => nofun) rfl
  apply Client.triple_ask
  · intro last asked hanswer hasked
    refine ⟨hkeeps asked hasked, fun hnewer => ?_⟩
    obtain ⟨-, hanswer⟩ := call_eq_ok.mp hanswer
    cases hlive : (env.moment asked.length).live with
    | none => simp [Moment.mandateInfo, hlive] at hanswer
    | some t =>
        simp only [Moment.mandateInfo, hlive, Option.map_some, decodeMandateLastNonce_data,
          Except.ok.injEq] at hanswer
        exact ⟨amount, asked, t, since_of_kind rfl, hlive, by rw [hanswer]; omega⟩
  · exact hkeeps

/-- A charge is sent after both reads. -/
theorem submitCharge_keeps :
    Client.Keeps env.moment (Clear env nonce) (submitCharge programId amount nonce : Rpc rt _) := by
  apply Client.triple_bind ahead_triple
  intro last
  split
  · apply Client.triple_bind (J := fun _ => Clear env nonce)
    · exact (recover_keeps clear_indifferent _).imp (fun _ h => h.1) (fun _ _ h => h) fun _ h => h
    · intro recovered
      cases recovered with
      | none => exact Client.keeps_pure
      | some recovered => exact Client.keeps_pure
  · next hnewer =>
    apply Client.triple_bind (J := fun _ asked => Clear env nonce asked ∧ Ahead env nonce asked)
    · exact Client.triple_lift (fun _ _ _ h => ⟨h.1, h.2 hnewer⟩) fun _ h => h.1
    intro a
    apply Client.triple_bind
      (J := fun n asked => n.toNat = nonce ∧ Clear env nonce asked ∧ Ahead env nonce asked)
    · exact Client.triple_lift (fun _ _ hn h => ⟨encodeU64_eq_ok hn, h⟩) fun _ h => h.1
    intro n
    apply Client.triple_bind (J := fun _ => Clear env nonce)
    · have hsend : ∀ asked, n.toNat = nonce ∧ Clear env nonce asked ∧ Ahead env nonce asked →
          Clear env nonce (.send n a :: asked) := by
        rintro asked ⟨rfl, ⟨hguarded, hunrecorded⟩, hahead⟩
        refine ⟨⟨?_, hguarded⟩, ?_⟩
        · intro n' a' heq
          obtain ⟨rfl, -⟩ := Question.send.inj heq
          exact ⟨hahead, hunrecorded⟩
        · unfold Unrecorded
          rw [since_of_other rfl]
          exact hunrecorded
      exact Client.triple_ask (fun _ asked _ => hsend asked) hsend
    intro signature
    apply Client.keeps_bind
    · exact Client.keeps_ask fun asked => clear_indifferent _ asked (fun _ _ => nofun) rfl
    intro logs
    apply Client.keeps_bind
    · exact Client.triple_lift (fun _ _ _ h => h) fun _ h => h
    · exact fun _ => Client.keeps_pure

/-! ## Under the backoff -/

theorem withRpcBackoff_triple {fn : Rpc rt α} {J : α → List Question → Prop}
    (h : Client.Triple env.moment I fn J I) (attempts : Nat) :
    Client.Triple env.moment I (withRpcBackoff fn attempts) J I := by
  induction attempts with
  | zero => exact Client.triple_fail (e := Stop.waiting) fun _ hasked => hasked
  | succ attempts ih =>
      apply Client.triple_handle h
      intro e
      split
      · exact Client.triple_fail fun _ hasked => hasked
      · exact ih

/-- A rate limit leaves no answer. -/
theorem unlessRateLimited_triple {m : Loop rt α} {J : Option α → List Question → Prop}
    (h : Client.Triple env.moment I m (fun a => J (some a)) I)
    (hnone : ∀ asked, I asked → J none asked) :
    Client.Triple env.moment I (unlessRateLimited m) J I := by
  apply Client.triple_handle (Client.triple_map h)
  intro e
  split
  · exact Client.triple_pure hnone
  · exact Client.triple_fail fun _ hasked => hasked

theorem unlessRateLimited_keeps {m : Loop rt α} (h : Client.Keeps env.moment I m) :
    Client.Keeps env.moment I (unlessRateLimited m) :=
  unlessRateLimited_triple h fun _ hasked => hasked

theorem readSettled_keeps (hI : Indifferent I) {journal : Journal} :
    Client.Keeps env.moment I
      (readSettled attempts (some (chainReader programId)) journal : Loop rt _) :=
  Client.keeps_map (withRpcBackoff_triple
    (lastNonce_keeps hI (q := .lastNonce) (fun _ _ => nofun) rfl) attempts)

theorem closeAlreadySettled_keeps (hI : Indifferent I) {journal : Journal} {settled : Nat}
    {seenSignature : Option String} :
    Client.Keeps env.moment I (closeAlreadySettled attempts (some (chainReader programId)) journal
      nonce settled seenSignature : Loop rt _) :=
  Client.keeps_bind (withRpcBackoff_triple (recover_keeps hI _) attempts) fun _ => Client.keeps_pure

/-- What is read of the ledger is remembered up to the next read. -/
theorem readRecorded_triple :
    Client.Triple env.moment (Guarded env)
      (readRecorded attempts (some (chainReader programId)) nonce : Loop rt _)
      (fun recorded asked => Guarded env asked ∧ (recorded = none → Unrecorded env nonce asked))
      (Guarded env) := by
  have hread : ∀ asked, Guarded env asked → Guarded env (.recorded nonce :: asked) :=
    fun asked hasked => ⟨fun _ _ => nofun, hasked⟩
  apply withRpcBackoff_triple
  apply Client.triple_ask
  · rintro recorded asked hanswer hasked
    refine ⟨hread asked hasked, ?_⟩
    rintro rfl
    refine ⟨asked, since_of_kind rfl, fun t hlive => ?_⟩
    obtain ⟨-, hanswer⟩ := call_eq_ok.mp hanswer
    simpa only [Moment.ledgerInfo, hlive, Option.map_some] using hanswer
  · exact hread

theorem submitWindow_keeps {journal : Journal} :
    Client.Keeps env.moment (Clear env nonce)
      (submitWindow attempts (some (chainReader programId)) (submitCharge programId) journal nonce
        amount : Loop rt _) := by
  apply Client.keeps_bind
  · exact unlessRateLimited_keeps (withRpcBackoff_triple submitCharge_keeps attempts)
  intro receipt
  cases receipt with
  | none => exact Client.keeps_pure
  | some receipt =>
      dsimp only
      split
      · apply Client.keeps_bind
        · apply unlessRateLimited_keeps
          apply Client.keeps_bind (readSettled_keeps clear_indifferent)
          exact fun _ => closeAlreadySettled_keeps clear_indifferent
        · intro closed
          cases closed with
          | none => exact Client.keeps_pure
          | some closed => exact Client.keeps_pure
      · exact Client.keeps_pure

theorem priceWindow_keeps {args : WindowArgs} {journal : Journal} :
    Client.Keeps env.moment (Clear env nonce)
      (priceWindow attempts (some (chainReader programId)) (submitCharge programId) args journal
        nonce : Loop rt _) := by
  unfold priceWindow
  cases args.window with
  | none => exact Client.keeps_pure
  | some window =>
      dsimp only
      split
      · exact Client.keeps_pure
      split
      · exact Client.keeps_pure
      split
      · exact Client.keeps_pure
      split
      · exact Client.keeps_pure
      split
      · exact Client.keeps_fail
      split
      · exact Client.keeps_pure
      · exact submitWindow_keeps

/-- **Every charge of a window is guarded**, whatever the window, the journal and the node. -/
theorem processWindow_keeps {args : WindowArgs} {journal : Journal} :
    Client.Keeps env.moment (Guarded env)
      (processWindow attempts (some (chainReader programId)) (submitCharge programId) args journal :
        Loop rt _) := by
  unfold processWindow
  split
  · exact Client.keeps_fail
  next nonce hslot =>
  split
  · exact Client.keeps_pure
  apply Client.keeps_bind (unlessRateLimited_keeps (readSettled_keeps guarded_indifferent))
  intro settled
  cases settled with
  | none => exact Client.keeps_pure
  | some settled =>
      dsimp only
      split
      · apply Client.keeps_bind
        · exact unlessRateLimited_keeps (closeAlreadySettled_keeps guarded_indifferent)
        · intro closed
          cases closed with
          | none => exact Client.keeps_pure
          | some closed => exact Client.keeps_pure
      · apply Client.triple_bind (J := fun recorded asked =>
          Guarded env asked ∧ (recorded = some none → Unrecorded env nonce asked))
        · refine unlessRateLimited_triple ?_ fun _ h => ⟨h, nofun⟩
          refine readRecorded_triple.imp (fun _ h => h) ?_ fun _ h => h
          exact fun recorded asked h => ⟨h.1, fun heq => h.2 (Option.some.inj heq)⟩
        · intro recorded
          have hpure : ∀ result : ProcessResult × Journal, Client.Triple env.moment
              (fun asked => Guarded env asked ∧ (recorded = some none → Unrecorded env nonce asked))
              (pure result : Loop rt _) (fun _ => Guarded env) (Guarded env) :=
            fun result => Client.triple_pure fun _ h => h.1
          cases recorded with
          | none => exact hpure _
          | some recorded =>
              cases recorded with
              | none =>
                  refine priceWindow_keeps.imp ?_ (fun _ _ h => h.1) fun _ h => h.1
                  exact fun asked h => ⟨h.1, h.2 rfl⟩
              | some recovered =>
                  dsimp only
                  split
                  · exact hpure _
                  · exact hpure _

end Calls

/-! ## Runs with crashes -/

section Runs

variable {rt : Runtime} (programId : Pubkey) (env : Surroundings rt)

/-- The questions of a watcher that processes windows, each from any journal, and that may stop at
any question of a window and start again. -/
inductive Charging : List Question → Prop
  | start : Charging []
  | window {asked later : List Question} (journal : Journal) (args : WindowArgs) (attempts : Nat) :
      Charging asked → asked <:+ later →
      later <:+ ((processWindow attempts (some (chainReader programId)) (submitCharge programId) args
        journal).run env.moment asked).2 → Charging later

variable {programId env} {asked later : List Question}

theorem Guarded.of_suffix (h : Guarded env later) (hsuffix : asked <:+ later) :
    Guarded env asked := by
  obtain ⟨newer, rfl⟩ := hsuffix
  induction newer with
  | nil => exact h
  | cons q newer ih => exact ih h.2

theorem Charging.guarded (h : Charging programId env asked) : Guarded env asked := by
  induction h with
  | start => trivial
  | window journal args attempts _ _ hcut ih => exact (processWindow_keeps.run ih).of_suffix hcut

/-- A window that is not cut short. -/
theorem Charging.processWindow (h : Charging programId env asked) {attempts : Nat} {args : WindowArgs}
    {journal : Journal} {result : Except Stop (ProcessResult × Journal)}
    (hrun : (processWindow attempts (some (chainReader programId)) (submitCharge programId) args
      journal).run env.moment asked = (result, later)) : Charging programId env later := by
  refine .window journal args attempts h (Client.suffix_of_run hrun) ?_
  rw [hrun]

section Due

variable {zone : Zone} {isLedgerDecodeError : Thrown → Bool} {account : String} {attempts : Nat}
  {run : DueRun}

theorem Charging.processSlot {due : Due} (h : Charging programId env due.asked) (slot : Int) :
    Charging programId env (processSlot programId attempts env run due slot).asked := by
  unfold Watcher.processSlot
  split
  · exact h
  split
  · exact h
  split
  · exact h
  split
  · next hrun => exact h.processWindow hrun
  · next hrun => exact h.processWindow hrun

/-- The run loop asks so: every run over the slots that are due, from any journal. -/
theorem Charging.processDue (h : Charging programId env asked) (journal : Journal) :
    Charging programId env (processDue zone isLedgerDecodeError programId account attempts env run
      journal asked).asked := by
  unfold Watcher.processDue
  generalize dueSlots zone run.now = slots
  have hstart : Charging programId env
      (startDue zone isLedgerDecodeError programId account run journal asked).asked := h
  generalize startDue zone isLedgerDecodeError programId account run journal asked = due at hstart
  induction slots generalizing due with
  | nil => exact hstart
  | cons slot slots ih => exact ih _ (hstart.processSlot slot)

theorem charging_processRuns (runs : List DueRun) (journal : Journal)
    (h : Charging programId env asked) :
    Charging programId env (processRuns zone isLedgerDecodeError programId account attempts env runs
      journal asked).2 := by
  unfold processRuns
  induction runs generalizing journal asked with
  | nil => exact h
  | cons run runs ih => exact ih _ (h.processDue journal)

end Due

/-! ## The only client -/

variable (env) {t : Tenure rt} {sentAt : Nat → Nat} {nonce : UInt64}

/-- Every charge of a mandate is one the watcher sent: `sentAt` has the question that sent what
landed at a place, no question sends two, and a charge lands after it was sent. -/
structure SoleClient (asked : List Question) (t : Tenure rt) (sentAt : Nat → Nat) : Prop where
  sent : ∀ place T accts amount nonce, Stands t.history place T →
    T.input.instr = .charge accts amount nonce → Stands asked (sentAt place) (.send nonce amount)
  once : ∀ i j T U nonce nonce', Stands t.history i T → Stands t.history j U →
    MandateTransition.Charges T nonce → MandateTransition.Charges U nonce' →
    sentAt i = sentAt j → i = j
  landed : ∀ place T nonce, Stands t.history place T → MandateTransition.Charges T nonce →
    ∀ t' ∈ (env.moment (sentAt place)).chain.tenures, t'.start = t.start →
      t'.history.length ≤ place

/-- The reads before a send show a charge that landed at a place: a payment, in the state whose
last nonce was read, or a decision whose record the ring still had when it was read. -/
inductive Shown (earlier : List Question) (nonce : UInt64) (place : Nat) (T : MandateTransition) :
    Prop
  | paid {amount : Nat} {first : List Question} {t : Tenure rt} {e : Entry}
      (read : since isSubmit earlier = .submit nonce.toNat amount :: first)
      (live : (env.moment first.length).live = some t)
      (there : Stands t.history place T) (record : e ∈ T.output.records) (kind : e.kind = .paid)
  | kept {first : List Question} {t : Tenure rt} {newer older : MandateHistory}
      (read : since isLedgerRead earlier = .recorded nonce.toNat :: first)
      (live : (env.moment first.length).live = some t)
      (there : t.history = newer ++ T :: older) (place : older.length = place)
      (few : (written newer).length < LEDGER_CAPACITY)

/-- When a charge that lands is sent, the reads show each charge of its nonce that was sent before
it and lands too, where no override of the nonce is granted between the two. -/
def SentKnowing (asked : List Question) (t : Tenure rt) (sentAt : Nat → Nat) : Prop :=
  ∀ nonce i j T U, Stands t.history i T → Stands t.history j U →
    MandateTransition.Charges T nonce → MandateTransition.Charges U nonce → sentAt i < sentAt j →
    OverriddenBetween t.history nonce i j ∨
      ∀ newer earlier amount, asked = newer ++ .send nonce amount :: earlier →
        earlier.length = sentAt j → Shown env earlier nonce i T

variable {env}

/-- A charge that the reads show is not sent again. -/
theorem Shown.not_sent {earlier : List Question} {place : Nat} {T : MandateTransition}
    (h : Shown env earlier nonce place T) (hcharge : MandateTransition.Charges T nonce)
    (hahead : Ahead env nonce.toNat earlier) : ¬ Unrecorded env nonce.toNat earlier := by
  rintro ⟨first, hread, hmissing⟩
  cases h with
  | @paid _ _ t _ read live there record kind =>
      obtain ⟨_, _, t', hsubmit, hlive, hlower⟩ := hahead
      rw [read] at hsubmit
      obtain ⟨-, rfl⟩ := List.cons.inj hsubmit
      have hsame : t = t' := Option.some.inj (live.symm.trans hlive)
      have hreached := t.lastNonce_of_paid there.mem hcharge record kind
      rw [hsame] at hreached
      omega
  | @kept _ t newer older read live there _ few =>
      rw [read] at hread
      obtain ⟨-, rfl⟩ := List.cons.inj hread
      obtain ⟨accts, amount, hinstr⟩ := hcharge
      obtain ⟨_, _, _, _, hstep, _⟩ :=
        t.run.of_mem (there ▸ List.mem_append_right _ List.mem_cons_self : T ∈ t.history)
      obtain ⟨e, hrecords, rfl, hkind⟩ := hstep.charge_record hinstr
      have hrecent : e.raw ∈ Ring.recent LEDGER_CAPACITY (t.log.map Entry.raw) := by
        rw [Ring.recent_map]
        exact List.mem_map_of_mem (t.mem_recent there hrecords few)
      obtain ⟨hpaid, hrefused⟩ := recorded_none t.raw_ring_holds (hmissing t live) e.raw hrecent rfl
      rcases hkind with hkind | hkind
      · exact hpaid (by simp [Entry.raw, hkind, Kind.code, KIND_PAID])
      · exact hrefused (by simp [Entry.raw, hkind, Kind.code, KIND_REFUSED])

theorem Guarded.of_sent {newer earlier : List Question} {amount : UInt64}
    (h : Guarded env (newer ++ .send nonce amount :: earlier)) :
    Ahead env nonce.toNat earlier ∧ Unrecorded env nonce.toNat earlier :=
  (h.of_suffix (List.suffix_append _ _)).1 nonce amount rfl

/-- **One charge for a nonce.**  Over any chain, any answers of the node, any windows, journals and
crashes of the one watcher that charges a mandate: two charges of one nonce land only with an
override of it between them, if and only if each charge that lands was sent after reads that show
every other one sent before it. -/
theorem one_charge_iff (hasked : Charging programId env asked)
    (ht : t ∈ (env.moment asked.length).chain.tenures) (hsole : SoleClient env asked t sentAt) :
    ChargedOnce t.history ↔ SentKnowing env asked t sentAt := by
  constructor
  · intro honce nonce i j T U hT hU hcharge hcharge' hbefore
    exact .inl (honce nonce i j T U (by rintro rfl; omega) hT hU hcharge hcharge')
  · intro hknowing
    have hpair : ∀ nonce i j T U, Stands t.history i T → Stands t.history j U →
        MandateTransition.Charges T nonce → MandateTransition.Charges U nonce →
        sentAt i < sentAt j → OverriddenBetween t.history nonce i j := by
      intro nonce i j T U hT hU hcharge hcharge' hbefore
      rcases hknowing nonce i j T U hT hU hcharge hcharge' hbefore with hgrant | hshown
      · exact hgrant
      · obtain ⟨accts, amount, hinstr⟩ := hcharge'
        obtain ⟨newer, earlier, rfl, hlength⟩ := hsole.sent j U accts amount nonce hU hinstr
        obtain ⟨hahead, hunrecorded⟩ := hasked.guarded.of_sent
        exact absurd hunrecorded
          ((hshown newer earlier amount rfl hlength).not_sent hcharge hahead)
    intro nonce i j T U hne hT hU hcharge hcharge'
    rcases Nat.lt_trichotomy (sentAt i) (sentAt j) with hlt | heq | hgt
    · exact hpair nonce i j T U hT hU hcharge hcharge' hlt
    · exact absurd (hsole.once i j T U nonce nonce hT hU hcharge hcharge' heq) hne
    · exact (hpair nonce j i U T hU hT hcharge' hcharge hgt).symm

end Runs

/-! ### A send whose confirmation is lost -/

section Sample

/-- A charge of the sample mandate for nonce 1800. -/
def chargeInput (now : Int64) (amount : UInt64) : MandateInput where
  now := now
  signers := [2]
  instr := .charge { agent := 2, ledger := 101, source := 10, destination := 11, mint := 3,
                     tokenProgram := splTokenId } amount 1800

/-- The sample mandate after some charges. -/
def charged (inputs : List MandateInput)
    (hok : (execAll (MandateState.exec sampleRuntime) [] openedTenure.state inputs).toBool = true) :
    Tenure sampleRuntime :=
  { openedTenure with
    history := (okValue (execAll (MandateState.exec sampleRuntime) [] openedTenure.state inputs) hok).1
    state := (okValue (execAll (MandateState.exec sampleRuntime) [] openedTenure.state inputs) hok).2
    run := run_okValue hok }

def paidTenure : Tenure sampleRuntime := charged [chargeInput 20 30] rfl

def refusedOnce : Tenure sampleRuntime := charged [chargeInput 20 50] rfl

def refusedTwice : Tenure sampleRuntime := charged [chargeInput 20 50, chargeInput 25 50] rfl

/-- The moment at which calls fail like this, or are answered. -/
def answering (m : Moment sampleRuntime) (failure : Option Thrown) : Moment sampleRuntime :=
  { m with failure }

theorem key_of_opened {t : Tenure sampleRuntime} (h : t.start = openedTenure.start) :
    t.start.key = 100 := by
  rw [h]
  exact sampleTenure_key

/-- What a question finds when the mandate changes behind the fourth and the sixth. -/
def lossyMoment (fourth sixth : Tenure sampleRuntime) (hfourth : fourth.start = openedTenure.start)
    (hsixth : sixth.start = openedTenure.start) (k : Nat) : Moment sampleRuntime :=
  if k < 4 then
    answering (sampleMoment openedTenure sampleTenure_key)
      (if k = 3 then some (.error "fetch failed") else none)
  else if k < 6 then sampleMoment fourth (key_of_opened hfourth)
  else sampleMoment sixth (key_of_opened hsixth)

theorem lossyMoment_grows (fourth sixth : Tenure sampleRuntime)
    (hfourth : fourth.start = openedTenure.start) (hsixth : sixth.start = openedTenure.start)
    (hgrows : fourth.history <:+ sixth.history) (k : Nat) :
    (lossyMoment fourth sixth hfourth hsixth k).chain.Extends
      (lossyMoment fourth sixth hfourth hsixth (k + 1)).chain := by
  intro t ht
  unfold lossyMoment at ht ⊢
  by_cases hearly : k < 4
  · rw [if_pos hearly] at ht
    obtain rfl := List.mem_singleton.mp ht
    by_cases hnext : k + 1 < 4
    · rw [if_pos hnext]
      exact ⟨_, List.mem_singleton_self _, rfl, List.suffix_rfl⟩
    · rw [if_neg hnext, if_pos (by omega)]
      exact ⟨_, List.mem_singleton_self _, hfourth, List.nil_suffix⟩
  · rw [if_neg hearly] at ht
    rw [if_neg (by omega)]
    by_cases hmid : k < 6
    · rw [if_pos hmid] at ht
      obtain rfl := List.mem_singleton.mp ht
      by_cases hnext : k + 1 < 6
      · rw [if_pos hnext]
        exact ⟨_, List.mem_singleton_self _, rfl, List.suffix_rfl⟩
      · rw [if_neg hnext]
        exact ⟨_, List.mem_singleton_self _, hsixth.trans hfourth.symm, hgrows⟩
    · rw [if_neg hmid] at ht
      rw [if_neg (by omega)]
      exact ⟨t, ht, rfl, List.suffix_rfl⟩

/-- The mandate changes behind the fourth and the sixth question; the fourth, a send, is answered
with a failure. -/
def lossy (fourth sixth : Tenure sampleRuntime) (hfourth : fourth.start = openedTenure.start)
    (hsixth : sixth.start = openedTenure.start) (hgrows : fourth.history <:+ sixth.history) :
    Surroundings sampleRuntime where
  moment := lossyMoment fourth sixth hfourth hsixth
  grows := lossyMoment_grows fourth sixth hfourth hsixth hgrows

/-- The questions of one window for nonce 1800, with two attempts of each call. -/
def askedIn (env : Surroundings sampleRuntime) (sekPerKwh : String) : List Question :=
  ((processWindow 2 (some (chainReader 99)) (submitCharge 99) (sampleWindow 1800 sekPerKwh)
    []).run env.moment []).2

theorem charging_askedIn (env : Surroundings sampleRuntime) (sekPerKwh : String) :
    Charging 99 env (askedIn env sekPerKwh) :=
  .window [] (sampleWindow 1800 sekPerKwh) 2 .start List.nil_suffix List.suffix_rfl

/-- A payment of 30 lands although its send failed. -/
def paying : Surroundings sampleRuntime := lossy paidTenure paidTenure rfl rfl List.suffix_rfl

/-- The payment is seen before the charge would be sent again. -/
theorem one_charge_iff_sample : ChargedOnce paidTenure.history := by
  have hasked : askedIn paying "0.00003" = [.signature 1800, .ledger .resend 1800, .submit 1800 30,
      .send 1800 30, .submit 1800 30, .recorded 1800, .lastNonce] := by decide +kernel
  have hone : ∀ place T, Stands paidTenure.history place T → place = 0 ∧
      T.input = chargeInput 20 30 := by
    intro place T hT
    obtain ⟨rfl, rfl⟩ := (stands_cons.mp hT).resolve_right stands_nil
    exact ⟨rfl, rfl⟩
  have hsole : SoleClient paying (askedIn paying "0.00003") paidTenure fun _ => 3 := by
    rw [hasked]
    constructor
    · intro place T accts amount nonce hT hinstr
      obtain ⟨rfl, hinput⟩ := hone place T hT
      rw [hinput] at hinstr
      obtain ⟨-, rfl, rfl⟩ := MandateInstr.charge.inj hinstr
      exact ⟨[.signature 1800, .ledger .resend 1800, .submit 1800 30], _, rfl, rfl⟩
    · intro i j T U _ _ hT hU _ _ _
      rw [(hone i T hT).1, (hone j U hU).1]
    · intro place T _ hT _ t' ht' _
      obtain rfl := List.mem_singleton.mp ht'
      exact Nat.zero_le _
  refine (one_charge_iff (charging_askedIn paying "0.00003") ?_ hsole).mpr ?_
  · rw [hasked]
    exact List.mem_singleton_self _
  · intro _ i j T U _ _ _ _ hlt
    exact absurd hlt (Nat.lt_irrefl 3)

/-- A refusal of 50 lands although its send failed, and another one after it. -/
def refusing : Surroundings sampleRuntime :=
  lossy refusedOnce refusedTwice rfl rfl ⟨[refusedTwice.history.head (by decide)], rfl⟩

/-- **Refused twice.**  The send of a charge above the maximum fails after the transaction was
forwarded; it lands, the last nonce stays, the charge is sent again and lands again, and no override
was granted. -/
theorem refused_charge_sent_twice :
    refusedTwice ∈ (refusing.moment (askedIn refusing "0.00005").length).chain.tenures ∧
      Charging 99 refusing (askedIn refusing "0.00005") ∧
      SoleClient refusing (askedIn refusing "0.00005") refusedTwice (fun place => 3 + 2 * place) ∧
      ¬ ChargedOnce refusedTwice.history := by
  have hasked : askedIn refusing "0.00005" = [.sent 1800 50 "", .send 1800 50, .submit 1800 50,
      .send 1800 50, .submit 1800 50, .recorded 1800, .lastNonce] := by decide +kernel
  have htwo : ∀ place T, Stands refusedTwice.history place T →
      (place = 1 ∧ T.input = chargeInput 25 50) ∨ (place = 0 ∧ T.input = chargeInput 20 50) := by
    intro place T hT
    rcases stands_cons.mp hT with ⟨rfl, rfl⟩ | hT
    · exact .inl ⟨rfl, rfl⟩
    · obtain ⟨rfl, rfl⟩ := (stands_cons.mp hT).resolve_right stands_nil
      exact .inr ⟨rfl, rfl⟩
  refine ⟨?_, charging_askedIn refusing "0.00005", ?_, ?_⟩
  · rw [hasked]
    exact List.mem_singleton_self _
  · rw [hasked]
    constructor
    · intro place T accts amount nonce hT hinstr
      rcases htwo place T hT with ⟨rfl, hinput⟩ | ⟨rfl, hinput⟩
      · rw [hinput] at hinstr
        obtain ⟨-, rfl, rfl⟩ := MandateInstr.charge.inj hinstr
        exact ⟨[.sent 1800 50 ""], _, rfl, rfl⟩
      · rw [hinput] at hinstr
        obtain ⟨-, rfl, rfl⟩ := MandateInstr.charge.inj hinstr
        exact ⟨[.sent 1800 50 "", .send 1800 50, .submit 1800 50], _, rfl, rfl⟩
    · intro i j T U _ _ _ _ _ _ heq
      omega
    · intro place T _ hT _ t' ht' _
      rcases htwo place T hT with ⟨rfl, -⟩ | ⟨rfl, -⟩
      · obtain rfl := List.mem_singleton.mp ht'
        exact Nat.le_refl 1
      · obtain rfl := List.mem_singleton.mp ht'
        exact Nat.le_refl 0
  · intro honce
    have hsecond : Stands refusedTwice.history 1 _ := stands_cons.mpr (.inl ⟨rfl, rfl⟩)
    have hfirst : Stands refusedTwice.history 0 _ :=
      stands_cons.mpr (.inr (stands_cons.mpr (.inl ⟨rfl, rfl⟩)))
    obtain ⟨g, _, hlow, hhigh, -⟩ :=
      honce 1800 0 1 _ _ Nat.zero_ne_one hfirst hsecond ⟨_, _, rfl⟩ ⟨_, _, rfl⟩
    omega

end Sample

end Watcher

end Veto

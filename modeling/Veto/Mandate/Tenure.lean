import Veto.Mandate.Run
import Veto.Ledger.Layout

/-!
# Tenures of a mandate address

A tenure is one life of a mandate account, from its opening on.  An address can have
several, one after the other.  What the clients off chain read is compared with the charges
of these tenures, and with the records the tenure's ledger still holds.
-/

namespace Veto

open Foundation

/-- A mandate that was opened, and everything that happened to it since. -/
structure Tenure (rt : Runtime) where
  now : Int64
  signers : List Pubkey
  accts : OpenMandate
  args : OpenMandateArgs
  world : World
  opening : MandateOutput
  start : MandateState
  history : MandateHistory
  state : MandateState
  opened : openMandate rt now signers accts args world = .ok (opening, start)
  run : Run (MandateStep rt) start history state

/-! ## Charges and their decisions -/

/-- A charge for `amount` with `nonce` was decided: paid, or refused with a reason. -/
def Decided (T : Transition MandateState MandateInput MandateOutput) (nonce amount : UInt64)
    (kind : Kind) (reason : Reason) : Prop :=
  (∃ accts, T.input.instr = .charge accts amount nonce) ∧
    T.output.records.map (fun e => (e.kind, e.reason)) = [(kind, reason)]

instance (T : Transition MandateState MandateInput MandateOutput) (nonce amount : UInt64)
    (kind : Kind) (reason : Reason) : Decidable (Decided T nonce amount kind reason) :=
  match hinstr : T.input.instr with
  | .charge accts amount' nonce' =>
      decidable_of_iff ((amount' = amount ∧ nonce' = nonce) ∧
          T.output.records.map (fun e => (e.kind, e.reason)) = [(kind, reason)]) (by
        simp [Decided, hinstr])
  | .grantOverride .. => isFalse (by simp [Decided, hinstr])
  | .revokeMandate .. => isFalse (by simp [Decided, hinstr])
  | .outside .. => isFalse (by simp [Decided, hinstr])

/-- Some charge of the tenure was so decided. -/
def Tenure.Has {rt : Runtime} (t : Tenure rt) (nonce amount : UInt64) (kind : Kind)
    (reason : Reason) : Prop :=
  ∃ T ∈ t.history, Decided T nonce amount kind reason

/-- A payment or a refusal is recorded by the charge it decides. -/
theorem MandateEffect.decided {s s' : MandateState} {i : MandateInput} {o : MandateOutput}
    (h : MandateEffect s i o s') {e : Entry} (he : e ∈ o.records)
    (hkind : e.kind = .paid ∨ e.kind = .refused) :
    Decided ⟨s, i, o, s'⟩ e.nonce e.amount e.kind e.reason := by
  cases h with
  | paid instr _ _ _ _ _ _ _ _ records =>
      rw [records, List.mem_singleton] at he
      subst he
      exact ⟨⟨_, instr⟩, by rw [records]; rfl⟩
  | refused instr _ _ records =>
      rw [records, List.mem_singleton] at he
      subst he
      exact ⟨⟨_, instr⟩, by rw [records]; rfl⟩
  | granted _ _ _ _ _ _ _ records =>
      rw [records, List.mem_singleton] at he
      subst he
      simp [overrideEntry] at hkind
  | revoked _ _ _ records =>
      rw [records, List.mem_singleton] at he
      subst he
      simp [revokedEntry] at hkind
  | outside _ records =>
      rw [records] at he
      cases he

/-- A step records in the ledger what it writes. -/
theorem MandateEffect.ledger {s s' : MandateState} {i : MandateInput} {o : MandateOutput}
    (h : MandateEffect s i o s') : s'.ledger = o.records.foldl Ledger.record s.ledger := by
  cases h with
  | paid _ _ _ _ _ _ _ _ _ records => rw [records]; rfl
  | refused _ _ _ records => rw [records]; rfl
  | granted _ _ _ _ _ _ _ records => rw [records]; rfl
  | revoked _ _ _ records => rw [records]; rfl
  | outside _ records => rw [records]; rfl

theorem Ledger.holds_foldl {l : Ledger} {log : List Entry} (h : l.ring.Holds log)
    (entries : List Entry) : (entries.foldl Ledger.record l).ring.Holds (log ++ entries) := by
  induction entries generalizing l log with
  | nil => simpa using h
  | cons entry entries ih =>
      rw [List.append_cons]
      exact ih (h.record (by decide) (by decide) entry)

namespace Tenure

variable {rt : Runtime} (t : Tenure rt)

/-- The records of the tenure, oldest first. -/
def log : List Entry := (written t.history ++ t.opening.records).reverse

/-- Every payment and refusal on record is a charge that was decided. -/
theorem has_of_log {e : Entry} (he : e ∈ t.log) (hkind : e.kind = .paid ∨ e.kind = .refused) :
    t.Has e.nonce e.amount e.kind e.reason := by
  rw [log, List.mem_reverse, List.mem_append] at he
  cases he with
  | inl hwritten =>
      obtain ⟨T, hT, heT⟩ := List.mem_flatMap.mp hwritten
      rw [List.mem_reverse] at heT
      obtain ⟨_, _, _, _, hstep, _⟩ := t.run.of_mem hT
      exact ⟨T, hT, (MandateStep.effect hstep).decided heT hkind⟩
  | inr hopening =>
      rw [(openMandate_opened t.opened).records, List.mem_singleton] at hopening
      subst hopening
      simp [openedEntry] at hkind

/-! ## The ring -/

/-- The ledger holds the last records of the tenure. -/
theorem ring_holds : t.state.ledger.ring.Holds t.log := by
  have hstart : t.start.ledger.ring.Holds t.opening.records.reverse := by
    have hopened := openMandate_opened t.opened
    obtain ⟨bump, hledger⟩ := hopened.ledger
    rw [hledger, hopened.records]
    exact (Ring.holds_empty Entry.zero).record (by decide) (by decide) _
  rw [log, List.reverse_append]
  apply t.run.carries (P := fun h s => s.ledger.ring.Holds
    (t.opening.records.reverse ++ (written h).reverse))
  · simpa [written] using hstart
  · intro h s i o s' _ ih hstep
    rw [(MandateStep.effect hstep).ledger, written_cons, List.reverse_append,
      List.reverse_reverse, ← List.append_assoc]
    exact Ledger.holds_foldl ih o.records

theorem raw_ring_holds : t.state.ledger.raw.ring.Holds (t.log.map Entry.raw) :=
  t.ring_holds.map Entry.raw

end Tenure

/-! ## The address -/

/-- An address and the mandates that lived there. -/
structure MandateChain (rt : Runtime) where
  key : Pubkey
  tenures : List (Tenure rt)
  there : ∀ t ∈ tenures, t.start.key = key

namespace MandateChain

variable {rt : Runtime}

/-- A charge on the mandate was decided so, the reason by its code. -/
def Has (chain : MandateChain rt) (nonce amount : UInt64) (kind : Kind) (code : Nat) : Prop :=
  ∃ t ∈ chain.tenures, ∃ reason : Reason, reason.code.toNat = code ∧ t.Has nonce amount kind reason

/-- Everything that happened on one chain also happened on the other. -/
def Extends (chain later : MandateChain rt) : Prop :=
  ∀ t ∈ chain.tenures, ∃ t' ∈ later.tenures, t'.start = t.start ∧ t.history <:+ t'.history

theorem Extends.refl (chain : MandateChain rt) : chain.Extends chain :=
  fun t ht => ⟨t, ht, rfl, List.suffix_rfl⟩

theorem Extends.trans {a b c : MandateChain rt} (hab : a.Extends b) (hbc : b.Extends c) :
    a.Extends c := by
  intro t ht
  obtain ⟨t', ht', hstart, hsuffix⟩ := hab t ht
  obtain ⟨t'', ht'', hstart', hsuffix'⟩ := hbc t' ht'
  exact ⟨t'', ht'', hstart'.trans hstart, hsuffix.trans hsuffix'⟩

/-- A decision stays on the chain. -/
theorem Has.of_extends {chain later : MandateChain rt} {nonce amount : UInt64} {kind : Kind}
    {code : Nat} (h : chain.Has nonce amount kind code) (hext : chain.Extends later) :
    later.Has nonce amount kind code := by
  obtain ⟨t, ht, reason, hcode, T, hT, hdecided⟩ := h
  obtain ⟨t', ht', -, hsuffix⟩ := hext t ht
  exact ⟨t', ht', reason, hcode, T, hsuffix.subset hT, hdecided⟩

/-- A record still in the ring of one of the mandates. -/
theorem has_of_log {chain : MandateChain rt} {t : Tenure rt} (ht : t ∈ chain.tenures) {e : Entry}
    (he : e ∈ t.log) (hkind : e.kind = .paid ∨ e.kind = .refused) :
    chain.Has e.nonce e.amount e.kind e.reason.code.toNat :=
  ⟨t, ht, e.reason, rfl, t.has_of_log he hkind⟩

end MandateChain

end Veto

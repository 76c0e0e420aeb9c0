import Veto.Hold.Window

/-!
# Freezing

A frozen vault pays nobody but the safe address.  Clearing the freeze takes two
keys, or, without a guardian, the wait that was scheduled in the same freeze.
-/

namespace Veto

open Foundation

/-- The transition armed the wait, in a frozen vault without a guardian. -/
structure HoldTransition.Schedules (S : HoldTransition) (unfreezeAt : Int64) : Prop where
  instr : ∃ accts, S.input.instr = .unfreeze accts
  signed : S.pre.vault.owner ∈ S.input.signers
  frozen : S.pre.vault.frozen = true
  effective : unfreezeAt.toInt = S.input.clock + S.pre.vault.delaySecs.toInt

/-- The wait was armed by a transition of the history, and the vault was frozen ever since. -/
def ScheduledIn (h : HoldHistory) (unfreezeAt : Int64) : Prop :=
  ∃ (between : HoldHistory) (S : HoldTransition) (earlier : HoldHistory),
    h = between ++ S :: earlier ∧ S.Schedules unfreezeAt ∧
      ∀ E ∈ between, E.pre.vault.frozen = true ∧ E.post.vault.frozen = true

def HoldTransition.Clears (T : HoldTransition) : Prop :=
  T.pre.vault.frozen = true ∧ T.post.vault.frozen = false

/-! ## One step -/

/-- What a step does to the freeze and to the wait. -/
theorem StepEffect.freeze {rt : Runtime} {T : HoldTransition}
    (h : StepEffect rt T.pre T.input T.output T.post) :
    (T.post.vault.frozen = T.pre.vault.frozen ∧
        T.post.vault.unfreezeAt = T.pre.vault.unfreezeAt) ∨
      (T.pre.vault.frozen = false ∧ T.post.vault.unfreezeAt = T.pre.vault.unfreezeAt) ∨
      (T.post.vault.frozen = true ∧ T.Schedules T.post.vault.unfreezeAt) ∨
      (T.pre.vault.frozen = true ∧ T.post.vault.frozen = false ∧ T.post.vault.unfreezeAt = 0 ∧
        (∃ accts, T.input.instr = .unfreeze accts) ∧ T.pre.vault.owner ∈ T.input.signers ∧
        (T.pre.vault.guardian ≠ Pubkey.default ∧ T.pre.vault.guardian ∈ T.input.signers ∧
            T.pre.vault.guardian ≠ T.pre.vault.owner ∨
          T.pre.vault.guardian = Pubkey.default ∧ T.pre.vault.unfreezeAt ≠ 0 ∧
            T.pre.vault.unfreezeAt ≤ T.input.now)) := by
  obtain ⟨s, i, o, s'⟩ := T
  obtain ⟨heff, -, -⟩ := h
  simp only at heff ⊢
  generalize o.records = records at heff
  generalize hvault : s'.vault = v at heff ⊢
  generalize s'.world = w at heff
  cases heff with
  | frozen _ _ live => exact .inr (.inl ⟨live, rfl⟩)
  | scheduled instr signed isFrozen _ _ effective =>
      exact .inr (.inr (.inl ⟨isFrozen, ⟨_, instr⟩, signed, isFrozen, effective⟩))
  | unfrozen instr signed isFrozen allowed =>
      exact .inr (.inr (.inr ⟨isFrozen, rfl, rfl, ⟨_, instr⟩, signed, allowed⟩))
  | _ => exact .inl ⟨rfl, rfl⟩

/-- Nothing but a recover lowers the balance of a frozen vault. -/
theorem HoldEffect.drain_frozen {rt : Runtime} (hclassic : rt.token.ClassicTransfer)
    {s : HoldState} {i : HoldInput} {records : List HoldEntry} {v : HoldVault} {w : World}
    (h : HoldEffect rt s i records v w) (hinstr : ∀ w, i.instr ≠ .outside w)
    (hdrain : w.balance s.vault.vaultToken < s.balance) (hfrozen : s.vault.frozen = true) :
    ∃ accts, i.instr = .recover accts := by
  obtain ⟨e, he, hkind⟩ | ⟨accts, _, hrecover, -⟩ := h.drain hclassic hinstr hdrain
  · obtain ⟨-, hpayment⟩ := h.payment he hkind
    cases hpayment with
    | instant _ _ _ rules =>
        have hlive := rules.live
        rw [hfrozen] at hlive
        cases hlive
    | executed _ _ live =>
        rw [hfrozen] at live
        cases live
    | skipped _ _ _ _ _ _ live =>
        rw [hfrozen] at live
        cases live
  · exact ⟨accts, hrecover⟩

/-! ## Runs -/

/-- A wait that is armed was armed in the freeze that is still on. -/
theorem scheduled_of_run {rt : Runtime} {opening : HoldOutput} {s₀ s : HoldState}
    {h : HoldHistory} (hopen : Opens rt opening s₀) (run : Run (HoldStep rt) s₀ h s)
    (harmed : s.vault.unfreezeAt ≠ 0) :
    s.vault.frozen = true ∧ ScheduledIn h s.vault.unfreezeAt := by
  revert harmed
  refine run.carries (P := fun h (s : HoldState) => s.vault.unfreezeAt ≠ 0 →
    s.vault.frozen = true ∧ ScheduledIn h s.vault.unfreezeAt) ?_ ?_
  · intro harmed
    obtain ⟨-, accts, args, bump, tokenBump, ledgerBump, hvault⟩ := hopen.fresh
    rw [hvault] at harmed
    exact absurd rfl harmed
  · intro h s i o s' _ ih hstep harmed
    have hcases := StepEffect.freeze (T := ⟨s, i, o, s'⟩) hstep.stepEffect
    simp only at hcases
    obtain ⟨hfrozen, hsame⟩ | ⟨hlive, hsame⟩ | ⟨hfrozen, hschedules⟩ | ⟨-, -, hzero, -⟩ := hcases
    · rw [hsame] at harmed ⊢
      obtain ⟨hon, between, S, earlier, rfl, hschedules, hbetween⟩ := ih harmed
      rw [hfrozen]
      refine ⟨hon, ⟨s, i, o, s'⟩ :: between, S, earlier, rfl, hschedules, fun E hE => ?_⟩
      rcases List.mem_cons.mp hE with rfl | hE
      · exact ⟨hon, hfrozen.trans hon⟩
      · exact hbetween E hE
    · -- a vault that is not frozen has no armed wait
      rw [hsame] at harmed
      obtain ⟨hon, -⟩ := ih harmed
      rw [hlive] at hon
      cases hon
    · exact ⟨hfrozen, [], _, h, rfl, hschedules, fun E hE => by cases hE⟩
    · exact absurd hzero harmed

/-- **Freezing.**  In every run of a vault: while it is frozen no instruction but
`recover` lowers its balance; a freeze is cleared by the owner together with the
guardian in force, a different key, or, without a guardian, by the owner once
the wait that was armed in the same freeze has passed; and a wait is armed only
in a frozen vault. -/
theorem freeze_protocol {rt : Runtime} {opening : HoldOutput} {s₀ s : HoldState}
    {h : HoldHistory} (hclassic : rt.token.ClassicTransfer) (hopen : Opens rt opening s₀)
    (run : Run (HoldStep rt) s₀ h s) :
    (∀ T ∈ h, T.pre.vault.frozen = true → HoldTransition.IsInstruction T →
      HoldTransition.Drains T → ∃ accts, T.input.instr = .recover accts) ∧
    (∀ newer T older, h = newer ++ T :: older → HoldTransition.Clears T →
      (∃ accts, T.input.instr = .unfreeze accts) ∧ T.pre.vault.owner ∈ T.input.signers ∧
      (T.pre.vault.guardian ≠ Pubkey.default ∧ T.pre.vault.guardian ∈ T.input.signers ∧
          T.pre.vault.guardian ≠ T.pre.vault.owner ∨
        T.pre.vault.guardian = Pubkey.default ∧ T.pre.vault.unfreezeAt ≤ T.input.now ∧
          ScheduledIn older T.pre.vault.unfreezeAt)) ∧
    (s.vault.unfreezeAt ≠ 0 → s.vault.frozen = true) := by
  refine ⟨?_, ?_, fun harmed => (scheduled_of_run hopen run harmed).1⟩
  · intro T hT hfrozen hinstr hdrain
    exact (effect_of_mem run hT).drain_frozen hclassic hinstr hdrain hfrozen
  · rintro newer T older rfl ⟨hfrozen, hcleared⟩
    obtain ⟨before, hstep, -⟩ := run.split
    obtain ⟨hsame, -⟩ | ⟨hlive, -⟩ | ⟨hon, -⟩ | ⟨-, -, -, hinstr, hsigned, hallowed⟩ :=
      StepEffect.freeze hstep.stepEffect
    · rw [hsame, hfrozen] at hcleared
      cases hcleared
    · rw [hfrozen] at hlive
      cases hlive
    · rw [hcleared] at hon
      cases hon
    · refine ⟨hinstr, hsigned, ?_⟩
      rcases hallowed with hboth | ⟨halone, harmed, hready⟩
      · exact .inl hboth
      · exact .inr ⟨halone, hready, (scheduled_of_run hopen before harmed).2⟩

section Sample

theorem openAlone_ok : (openSample Pubkey.default).toBool = true := rfl

theorem openAlone_opens : Opens vaultRuntime
    (okValue (openSample Pubkey.default) openAlone_ok).1
    (okValue (openSample Pubkey.default) openAlone_ok).2 :=
  ⟨5, [1], _, _, _, eq_ok_okValue _ openAlone_ok⟩

def unfreezeAlone (now : Int64) : HoldInput :=
  { now := now, signers := [1],
    instr := .unfreeze { owner := 1, guardian := none, ledger := 101 } }

/-- Without a guardian the owner freezes, arms the wait and, a day later, clears the freeze. -/
def freezeRun : Except ProgramError (HoldHistory × HoldState) :=
  execAll (HoldState.exec vaultRuntime) []
    (okValue (openSample Pubkey.default) openAlone_ok).2
    [{ now := 10, signers := [1], instr := .freeze { authority := 1, ledger := 101 } },
      unfreezeAlone 20, unfreezeAlone 86420]

theorem freezeRun_ok : freezeRun.toBool = true := rfl

def freezeHistory : HoldHistory := (okValue freezeRun freezeRun_ok).1

theorem freezeHistory_ne_nil : freezeHistory ≠ [] :=
  okValue_ne_nil freezeRun_ok (List.cons_ne_nil _ _)

/-- In the sample run the freeze is cleared after the wait armed in it. -/
theorem freeze_protocol_sample :
    let T := freezeHistory.head freezeHistory_ne_nil
    T.pre.vault.unfreezeAt = 86420 ∧ T.pre.vault.owner ∈ T.input.signers := by
  have run : Run (HoldStep vaultRuntime) _ freezeHistory _ :=
    run_okValue freezeRun_ok
  have hsplit : freezeHistory =
      [] ++ freezeHistory.head freezeHistory_ne_nil :: freezeHistory.tail :=
    (List.cons_head_tail _).symm
  have hclears : HoldTransition.Clears (freezeHistory.head freezeHistory_ne_nil) :=
    ⟨by decide, by decide⟩
  exact ⟨by decide, ((freeze_protocol classicToken_transfers openAlone_opens run).2.1
    _ _ _ hsplit hclears).2.1⟩

end Sample

end Veto

import Veto.Mandate.Tenure
import Veto.Watcher.Parse

/-!
# What a charge logs is read back

The program writes one line when it decides a charge.  The patterns of the watcher read the
decision and its reason back from it.
-/

namespace Veto.Watcher

open Foundation

/-- The first line that looks like a decision, and what it says. -/
def FirstDecision (logs : List Text) (outcome : ChargeOutcome) : Prop :=
  ∃ front line back, logs = front ++ line :: back ∧ decisionLine line = some outcome ∧
    ∀ other ∈ front, decisionLine other = none

theorem parseChargeLogs_eq_ok {logs : List Text} {outcome : ChargeOutcome} :
    parseChargeLogs logs = .ok outcome ↔ FirstDecision logs outcome := by
  have hsearch : parseChargeLogs logs = .ok outcome ↔
      logs.findSome? decisionLine = some outcome := by
    induction logs with
    | nil => simp [parseChargeLogs]
    | cons line logs ih =>
        unfold parseChargeLogs
        rw [List.findSome?_cons]
        cases decisionLine line with
        | some found => simp
        | none => exact ih
  rw [hsearch, List.findSome?_eq_some_iff]
  rfl

/-! ## The patterns -/

theorem begins_paidHere : Begins paidHere (lit "VETO PAID amount=") := by
  intro t b h
  obtain ⟨rest, hrest, -⟩ := Option.bind_eq_some_iff.mp h
  exact ⟨rest, (dropPrefix?_eq_some.mp hrest).symm⟩

theorem begins_refusedHere : Begins refusedHere (lit "VETO REFUSED reason=") := by
  intro t b h
  obtain ⟨rest, hrest, -⟩ := Option.bind_eq_some_iff.mp h
  exact ⟨rest, (dropPrefix?_eq_some.mp hrest).symm⟩

theorem begins_overrideHere : Begins overrideHere (lit "override_to_clear=") := by
  intro t b h
  obtain ⟨rest, hrest, -⟩ := Option.bind_eq_some_iff.mp h
  exact ⟨rest, (dropPrefix?_eq_some.mp hrest).symm⟩

/-- A number as it is logged. -/
abbrev digits (n : Nat) : Text := Nat.toDigits 10 n

theorem isDigit_of_mem_digits {n : Nat} {c : Char} (h : c ∈ digits n) : c.isDigit = true :=
  Nat.isDigit_of_mem_toDigits (by decide) (by decide) h

theorem takeClass_digits {n : Nat} {rest : Text}
    (h : rest.head?.all (fun c => !c.isDigit) = true) :
    takeClass Char.isDigit (digits n ++ rest) = some (digits n, rest) :=
  takeClass_eq_some.mpr ⟨Nat.toDigits_ne_nil, fun _ hc => isDigit_of_mem_digits hc, h, rfl⟩

theorem digitsValue_digits (n : Nat) : digitsValue (digits n) = n :=
  Nat.ofDigitChars_ten_toDigits

theorem not_mem_digits {n : Nat} {c : Char} (h : c.isDigit = false) : c ∉ digits n := by
  intro hc
  rw [isDigit_of_mem_digits hc] at h
  cases h

/-! ## The two lines -/

/-- What stands before the text a program logs. -/
def said (text : String) : Text := lit "Program log: " ++ text.toList

theorem decisionLine_paid (amount spent cap remaining : UInt64) :
    decisionLine (said (s!"VETO PAID amount={amount} spent={spent} of cap={cap} " ++
      s!"remaining={remaining}")) =
      some { decision := .paid, reason := "ok", reasonCode := 0, suggestedOverride := none } := by
  have htext : said (s!"VETO PAID amount={amount} spent={spent} of cap={cap} " ++
      s!"remaining={remaining}") = lit "Program log: " ++ (lit "VETO PAID amount=" ++
        (digits amount.toNat ++ (lit " spent=" ++ (digits spent.toNat ++ (lit " of cap=" ++
          (digits cap.toNat ++ (lit " remaining=" ++ digits remaining.toNat))))))) := by
    simp [said, toString, lit, Nat.repr]
  have hhere : ∀ rest : Text, rest.head?.all (fun c => !c.isDigit) = true →
      paidHere (lit "VETO PAID amount=" ++ (digits amount.toNat ++ rest)) =
        some (digits amount.toNat) := by
    intro rest hrest
    simp [paidHere, dropPrefix?_eq_some.mpr rfl, takeClass_digits hrest]
  have hbegins := begins_paidHere
  have hsplit : lit "VETO PAID amount=" = 'V' :: lit "ETO PAID amount=" := by simp [lit]
  rw [hsplit] at hbegins
  rw [decisionLine, htext, hbegins.firstMatch_append (by simp [lit]) (hhere _ (by simp [lit]))]

/-- The words of a reason hold neither of the characters the patterns turn on. -/
theorem not_mem_reasonText (reason : Reason) :
    ')' ∉ (Veto.reasonText reason).toList ∧ 'P' ∉ (Veto.reasonText reason).toList := by
  cases reason <;> simp [Veto.reasonText]

theorem overrideHere_tail {n : Nat} (front : Text) :
    lastMatch overrideHere (front ++ (lit "override_to_clear=" ++ digits n)) = some (digits n) := by
  have hhere : overrideHere (lit "override_to_clear=" ++ digits n) = some (digits n) := by
    have htake : takeClass Char.isDigit (digits n ++ []) = some (digits n, []) :=
      takeClass_digits rfl
    rw [List.append_nil] at htake
    simp [overrideHere, dropPrefix?_eq_some.mpr rfl, htake]
  have hsplit : lit "override_to_clear=" ++ digits n =
      'o' :: 'v' :: (lit "erride_to_clear=" ++ digits n) := by simp [lit]
  apply lastMatch_append
  rw [hsplit] at hhere ⊢
  -- past the first character there is no `v` behind the head any more
  have hlater : ∀ t, t <:+ 'v' :: (lit "erride_to_clear=" ++ digits n) → overrideHere t = none := by
    intro t ht
    rcases List.suffix_cons_iff.mp ht with rfl | ht
    · exact begins_overrideHere.none_of_head (by simp [lit]) (by simp [lit])
    · apply begins_overrideHere.none_of_missing (a := 'v') (by simp [lit]) _ ht
      rw [List.mem_append, not_or]
      exact ⟨by simp [lit], not_mem_digits rfl⟩
  rw [lastMatch, lastMatch_eq_none hlater, Option.none_or, hhere]

theorem not_lineTerminator_of_isDigit {c : Char} (h : c.isDigit = true) :
    Logs.isLineTerminator c = false := by
  simp only [Logs.isLineTerminator, Bool.or_eq_false_iff, decide_eq_false_iff_not]
  refine ⟨⟨⟨?_, ?_⟩, ?_⟩, ?_⟩
  all_goals
    rintro rfl
    exact absurd h (by decide)

theorem decisionLine_refused (reason : Reason) (amount perTxMax remaining suggestion : UInt64) :
    decisionLine (said (s!"VETO REFUSED reason={reason.code} ({Veto.reasonText reason}) amount={amount} " ++
      s!"per_tx_max={perTxMax} remaining={remaining} " ++ s!"override_to_clear={suggestion}")) =
      some {
        decision := .refused
        reason := Veto.reasonText reason
        reasonCode := reason.code.toNat
        suggestedOverride := some suggestion.toNat } := by
  obtain ⟨hparen, hpaid⟩ := not_mem_reasonText reason
  let last := lit " per_tx_max=" ++ (digits perTxMax.toNat ++ (lit " remaining=" ++
    (digits remaining.toNat ++ (lit " " ++ (lit "override_to_clear=" ++
      digits suggestion.toNat)))))
  let asked := lit ") amount=" ++ (digits amount.toNat ++ last)
  let words := lit " (" ++ ((Veto.reasonText reason).toList ++ asked)
  let body := lit "VETO REFUSED reason=" ++ (digits reason.code.toNat ++ words)
  have htext : said (s!"VETO REFUSED reason={reason.code} ({Veto.reasonText reason}) amount={amount} " ++
      s!"per_tx_max={perTxMax} remaining={remaining} " ++ s!"override_to_clear={suggestion}") = lit "Program log: " ++ body := by
    simp [said, toString, lit, Nat.repr, body, words, asked, last]
  have hnone : firstMatch paidHere (lit "Program log: " ++ body) = none := by
    have hline : lit "Program log: " ++ body = 'P' :: (lit "rogram log: " ++ body) := by simp [lit]
    have hdigits : ∀ n, 'P' ∉ digits n := fun n => not_mem_digits rfl
    apply firstMatch_eq_none
    intro t ht
    rw [hline] at ht
    rcases List.suffix_cons_iff.mp ht with rfl | ht
    · exact begins_paidHere.none_of_head (by simp [lit]) (by simp [lit])
    · exact begins_paidHere.none_of_missing (a := 'P') (by simp [lit])
        (by simp [lit, body, words, asked, last, hpaid, hdigits]) ht
  have hoverride : lastMatch overrideHere (last.takeWhile fun c => !Logs.isLineTerminator c) =
      some (digits suggestion.toNat) := by
    have hline : ∀ c ∈ last, (!Logs.isLineTerminator c) = true := by
      have hdigits : ∀ n, ∀ c ∈ digits n, Logs.isLineTerminator c = false :=
        fun n c hc => not_lineTerminator_of_isDigit (isDigit_of_mem_digits hc)
      have hwords : ∀ word ∈ [lit " per_tx_max=", lit " remaining=", lit " ",
          lit "override_to_clear="], ∀ c ∈ word, Logs.isLineTerminator c = false := by
        simp [lit, Logs.isLineTerminator]
      intro c hc
      simp only [last, List.mem_append] at hc
      rw [Bool.not_eq_true']
      rcases hc with hc | hc | hc | hc | hc | hc | hc
      · exact hwords _ (by simp) c hc
      · exact hdigits _ c hc
      · exact hwords _ (by simp) c hc
      · exact hdigits _ c hc
      · exact hwords _ (by simp) c hc
      · exact hwords _ (by simp) c hc
      · exact hdigits _ c hc
    have hsplit : last = (lit " per_tx_max=" ++ (digits perTxMax.toNat ++ (lit " remaining=" ++
        (digits remaining.toNat ++ lit " ")))) ++ (lit "override_to_clear=" ++
          digits suggestion.toNat) := by
      simp only [last, List.append_assoc]
    rw [List.takeWhile_eq_self_iff.mpr hline, hsplit]
    exact overrideHere_tail _
  have hhere : refusedHere body =
      some (digits reason.code.toNat, (Veto.reasonText reason).toList, digits suggestion.toNat) := by
    have hcode : takeClass Char.isDigit (digits reason.code.toNat ++ words) = some (_, words) :=
      takeClass_digits (by simp [words, lit])
    have hamount : takeClass Char.isDigit (digits amount.toNat ++ last) = some (_, last) :=
      takeClass_digits (by simp [last, lit])
    have hinside : ∀ c ∈ (Veto.reasonText reason).toList, decide (c ≠ ')') = true := by
      intro c hc
      exact decide_eq_true fun heq => hparen (heq ▸ hc)
    have hstop : asked.head?.all (fun c => !decide (c ≠ ')')) = true := by simp [asked, lit]
    have htake := takeWhile_append_of_stops hinside hstop
    have hdrop := dropWhile_append_of_stops hinside hstop
    have hreason : body.dropPrefix? (lit "VETO REFUSED reason=") = some _ :=
      dropPrefix?_eq_some.mpr rfl
    have hopen : words.dropPrefix? (lit " (") = some _ := dropPrefix?_eq_some.mpr rfl
    have hclose : asked.dropPrefix? (lit ") amount=") = some _ := dropPrefix?_eq_some.mpr rfl
    simp only [refusedHere, hreason, hcode, hopen, htake, hdrop, hclose, hamount, hoverride,
      Option.bind_eq_bind, Option.bind_some, Option.pure_def]
  have hbegins := begins_refusedHere
  have hsplit : lit "VETO REFUSED reason=" = 'V' :: lit "ETO REFUSED reason=" := by simp [lit]
  rw [hsplit] at hbegins
  have hlong : 0 < (Veto.reasonText reason).toList.length := by
    cases reason <;> simp [Veto.reasonText]
  rw [decisionLine, htext, hnone, hbegins.firstMatch_append (by simp [lit]) hhere]
  simp only [if_pos hlong, digitsValue_digits, String.ofList_toList]

def Decision.kind : Decision → Kind
  | paid => .paid
  | refused => .refused

/-- **Read back.**  A charge logs one line, and the watcher reads from it what the charge
recorded. -/
theorem decisionLine_charge {rt : Runtime} {now : Int64} {signers : List Pubkey} {accts : Charge}
    {amount nonce : UInt64} {s s' : MandateState} {o : MandateOutput}
    (h : charge rt now signers accts amount nonce s = .ok (o, s')) :
    ∃ line outcome, o.logs = [line] ∧ decisionLine (said line) = some outcome ∧
      ∃ e, o.records = [e] ∧ e.amount = amount ∧ e.nonce = nonce ∧
        e.kind = outcome.decision.kind ∧ e.reason.code.toNat = outcome.reasonCode := by
  unfold charge at h
  obtain ⟨ctx, -, h⟩ := bind_ok_iff.mp h
  obtain ⟨expected, -, h⟩ := bind_ok_iff.mp h
  obtain ⟨-, h⟩ := require_bind_ok_iff.mp h
  by_cases hreason : evaluate s.mandate s.key ctx.source ctx.destination amount nonce now = .ok
  · simp only [if_pos hreason] at h
    obtain ⟨w, -, h⟩ := bind_ok_iff.mp h
    obtain ⟨spent, -, h⟩ := bind_ok_iff.mp h
    cases h
    have hread := decisionLine_paid amount (s.mandate.settle spent nonce).spent
      (s.mandate.settle spent nonce).cap (s.mandate.settle spent nonce).remaining
    exact ⟨_, _, rfl, hread, _, rfl, rfl, rfl, rfl, rfl⟩
  · simp only [if_neg hreason] at h
    generalize evaluate s.mandate s.key ctx.source ctx.destination amount nonce now = reason at h
    cases h
    have hread := decisionLine_refused reason amount
      ((s.mandate.refuse reason).effectivePerTxMax nonce) (s.mandate.refuse reason).remaining
      (suggestedOverride (s.mandate.refuse reason) reason amount)
    exact ⟨_, _, rfl, hread, _, rfl, rfl, rfl, rfl, rfl⟩

end Veto.Watcher

namespace Veto

open Foundation

/-- A log of a transaction that charged the mandate so: the line of the charge comes before
any other that looks like a decision. -/
def MandateChain.Logged {rt : Runtime} (chain : MandateChain rt) (nonce amount : UInt64)
    (logs : List Text) : Prop :=
  ∃ t ∈ chain.tenures, ∃ T ∈ t.history, (∃ accts, T.input.instr = .charge accts amount nonce) ∧
    ∃ line ∈ T.output.logs, ∃ front back, logs = front ++ Watcher.said line :: back ∧
      ∀ other ∈ front, Watcher.decisionLine other = none

/-- What is read from such a log is what was decided. -/
theorem MandateChain.Logged.has {rt : Runtime} {chain : MandateChain rt} {nonce amount : UInt64}
    {logs : List Text} (h : chain.Logged nonce amount logs) {outcome : Watcher.ChargeOutcome}
    (hlogs : Watcher.FirstDecision logs outcome) :
    chain.Has nonce amount outcome.decision.kind outcome.reasonCode := by
  obtain ⟨t, ht, T, hT, ⟨accts, hinstr⟩, line, hline, front, back, hsplit, hfront⟩ := h
  obtain ⟨_, _, _, _, hstep, _⟩ := t.run.of_mem hT
  rw [MandateStep, MandateState.exec, hinstr] at hstep
  obtain ⟨text, written, htext, hread, e, hrecords, -, -, hkind, hreason⟩ :=
    Watcher.decisionLine_charge hstep
  obtain rfl : line = text := by simpa [htext] using hline
  have hdecision : Watcher.FirstDecision logs written := ⟨front, _, back, hsplit, hread, hfront⟩
  rw [← Watcher.parseChargeLogs_eq_ok] at hlogs hdecision
  obtain rfl := Except.ok.inj (hlogs.symm.trans hdecision)
  refine ⟨t, ht, e.reason, hreason, T, hT, ⟨accts, hinstr⟩, ?_⟩
  rw [hrecords, ← hkind]
  rfl

end Veto

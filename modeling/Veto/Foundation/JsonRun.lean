import Veto.Foundation.Json

/-!
# The run of a JSON value

What `JSON.parse` does at a value inside of others.  A step does not see the frames around the value
as long as it goes on.  So the run of a value inside of others is the run by itself, and it is cut
where the value ends.
-/

namespace Veto.Foundation

/-! ## One character -/

/-- A character of a string ends it, or leaves it open, or is an error. -/
theorem stepString_cases (text : JsString) (escape : Escape) (c : Char) :
    (escape = .none ∧ c = '"') ∨
    (∃ text' escape', ∀ ofKey stack,
      stepString stack ofKey text escape c = some ⟨.string ofKey text' escape', stack⟩) ∨
    ∀ ofKey stack, stepString stack ofKey text escape c = none := by
  cases escape with
  | none =>
      by_cases hquote : c = '"'
      · exact .inl ⟨rfl, hquote⟩
      right
      by_cases hslash : c = '\\'
      · exact .inl ⟨text, .started, fun ofKey stack => by
          rw [stepString, if_neg hquote, if_pos hslash]⟩
      by_cases hcontrol : c.toNat < 0x20
      · exact .inr fun ofKey stack => by
          rw [stepString, if_neg hquote, if_neg hslash, if_pos hcontrol]
      · exact .inl ⟨text ++ utf16Units c, .none, fun ofKey stack => by
          rw [stepString, if_neg hquote, if_neg hslash, if_neg hcontrol]⟩
  | started =>
      right
      by_cases hu : c = 'u'
      · exact .inl ⟨text, .hex 4 0, fun ofKey stack => by rw [stepString, if_pos hu]⟩
      cases hunit : escapedUnit c with
      | none => exact .inr fun ofKey stack => by rw [stepString, if_neg hu, hunit, Option.map_none]
      | some unit => exact .inl ⟨text ++ [unit], .none, fun ofKey stack => by
          rw [stepString, if_neg hu, hunit, Option.map_some]⟩
  | hex left code =>
      right
      cases hdigit : hexDigitValue c with
      | none => exact .inr fun ofKey stack => by rw [stepString, hdigit, Option.map_none]
      | some digit =>
          by_cases hleft : left = 1
          · exact .inl ⟨text ++ [UInt16.ofNat (16 * code + digit)], .none, fun ofKey stack => by
              rw [stepString, hdigit, Option.map_some, if_pos hleft]⟩
          · exact .inl ⟨text, .hex (left - 1) (16 * code + digit), fun ofKey stack => by
              rw [stepString, hdigit, Option.map_some, if_neg hleft]⟩

/-! ## A value inside of others -/

/-- The same, with more frames around. -/
def JsonState.above (s : JsonState) (below : List JsonFrame) : JsonState :=
  ⟨s.reading, s.stack ++ below⟩

/-- What follows a value inside of an array or an object. -/
def FollowsValue (c : Char) : Prop := isJsonSpace c = true ∨ c = ',' ∨ c = ']' ∨ c = '}'

/-- A value has begun, and what is being read has its frame. -/
def JsonState.Within (s : JsonState) : Prop :=
  match s.reading with
  | .string false _ _ | .number _ _ | .word _ _ | .done _ => True
  | _ => s.stack ≠ []

/-- A value has been read, and the next character is none of its own. -/
inductive Over : JsonState → Char → JsonValue → Prop
  | done (value : JsonValue) (c : Char) : Over ⟨.done value, []⟩ c value
  | number {numeral : Text} {phase : NumberPhase} {c : Char} (complete : phase.complete = true)
      (stops : phase.next c = none) : Over ⟨.number numeral phase, []⟩ c (.number numeral)

section Inside

variable {s t : JsonState} {c : Char} {closes : Bool} {value : JsonValue} {text : Text}
  {stack below : List JsonFrame}

theorem letter_isAlpha {w : Word} (h : c ∈ w.letters) : c.isAlpha = true := by
  have hall : w.letters.all Char.isAlpha = true := by
    cases w <;> rfl
  exact List.all_eq_true.mp hall c h

theorem alpha_of_space (h : isJsonSpace c = true) : c.isAlpha = false := by
  have hc : c = ' ' ∨ c = '\t' ∨ c = '\n' ∨ c = '\r' := by
    unfold isJsonSpace at h
    simpa [or_assoc] using h
  rcases hc with rfl | rfl | rfl | rfl <;> rfl

theorem next_of_follows (h : FollowsValue c) (phase : NumberPhase) : phase.next c = none := by
  have hc : c = ' ' ∨ c = '\t' ∨ c = '\n' ∨ c = '\r' ∨ c = ',' ∨ c = ']' ∨ c = '}' := by
    unfold FollowsValue isJsonSpace at h
    simpa [or_assoc] using h
  rcases hc with rfl | rfl | rfl | rfl | rfl | rfl | rfl <;> cases phase <;> rfl

theorem Over.finish (h : Over s c value) : s.finish = some value := by
  cases h with
  | done => rfl
  | number complete _ => exact if_pos complete

theorem Over.step (h : Over s c value) (below : List JsonFrame) :
    jsonStep (s.above below) c = jsonStep ⟨.done value, below⟩ c := by
  cases h with
  | done => rfl
  | @number numeral phase _ complete stops =>
      change stepNumber below numeral phase c = endValue below (.number numeral) c
      rw [stepNumber, stops]
      exact if_pos complete

theorem endValue_space (h : isJsonSpace c = true) :
    endValue stack value c = some ⟨.done value, stack⟩ := if_pos h

theorem beginValue_space (h : isJsonSpace c = true) :
    beginValue stack closes c = some ⟨.value closes, stack⟩ := if_pos h

theorem key_space (h : isJsonSpace c = true) :
    jsonStep ⟨.key closes, stack⟩ c = some ⟨.key closes, stack⟩ := if_pos h

theorem colon_space (h : isJsonSpace c = true) :
    jsonStep ⟨.colon, stack⟩ c = some ⟨.colon, stack⟩ := if_pos h

theorem endValue_cases (h : endValue stack value c = some t) :
    (isJsonSpace c = true ∧ t = ⟨.done value, stack⟩) ∨
    (∃ items rest, stack = .array items :: rest ∧
      (c = ',' ∧ t = ⟨.value false, .array (items ++ [value]) :: rest⟩ ∨
        c = ']' ∧ t = ⟨.done (.array (items ++ [value])), rest⟩)) ∨
    ∃ fields key rest, stack = .object fields key :: rest ∧
      (c = ',' ∧ t = ⟨.key false, .object (setField fields key value) [] :: rest⟩ ∨
        c = '}' ∧ t = ⟨.done (.object (setField fields key value)), rest⟩) := by
  unfold endValue at h
  by_cases hspace : isJsonSpace c = true
  · rw [if_pos hspace] at h
    cases h
    exact .inl ⟨hspace, rfl⟩
  · rw [if_neg hspace] at h
    right
    cases stack with
    | nil => cases h
    | cons frame rest =>
        cases frame with
        | array items =>
            dsimp only at h
            split_ifs at h with hcomma hbracket
            · cases h
              exact .inl ⟨items, rest, rfl, .inl ⟨hcomma, rfl⟩⟩
            · cases h
              exact .inl ⟨items, rest, rfl, .inr ⟨hbracket, rfl⟩⟩
        | object fields key =>
            dsimp only at h
            split_ifs at h with hcomma hbrace
            · cases h
              exact .inr ⟨fields, key, rest, rfl, .inl ⟨hcomma, rfl⟩⟩
            · cases h
              exact .inr ⟨fields, key, rest, rfl, .inr ⟨hbrace, rfl⟩⟩

theorem Over.end_eq (h : Over s c value) : jsonStep s c = endValue [] value c := by
  have hstep := h.step []
  rwa [JsonState.above, List.append_nil] at hstep

/-- A value that has been read is followed by spaces, where nothing is around it. -/
theorem endValue_nil (h : endValue [] value c = some t) :
    isJsonSpace c = true ∧ t = ⟨.done value, []⟩ := by
  rcases endValue_cases h with hspace | ⟨_, _, hnil, -⟩ | ⟨_, _, _, hnil, -⟩
  · exact hspace
  · cases hnil
  · cases hnil

theorem endValue_above (hne : stack ≠ []) :
    endValue (stack ++ below) value c = (endValue stack value c).map (·.above below) := by
  obtain ⟨frame, rest, rfl⟩ := List.exists_cons_of_ne_nil hne
  unfold endValue
  cases frame with
  | array items =>
      dsimp only [List.cons_append]
      split_ifs <;> rfl
  | object fields key =>
      dsimp only [List.cons_append]
      split_ifs <;> rfl

/-- How a value begins does not depend on what it is in. -/
theorem beginValue_above (below : List JsonFrame) (closes : Bool) (hspace : isJsonSpace c = false)
    (hc : c ≠ ']') :
    beginValue below closes c = (beginValue [] false c).map (·.above below) := by
  have hcloses : ∀ b : Bool, (b && decide (c = ']')) = true ↔ False := by
    intro b
    simp [hc]
  unfold beginValue
  simp only [hspace, hcloses, Bool.false_eq_true, if_false]
  split_ifs <;> rfl

theorem beginValue_within (hspace : isJsonSpace c = false)
    (h : beginValue [] false c = some s) : s.Within := by
  unfold beginValue at h
  rw [if_neg (by rw [hspace]; exact Bool.false_ne_true)] at h
  split_ifs at h
  all_goals cases h
  all_goals first
    | exact trivial
    | exact List.cons_ne_nil _ _

/-- A bracket closes an array that is empty. -/
theorem beginValue_bracket (h : beginValue stack closes ']' = some t) :
    closes = true ∧ ∃ items rest, stack = .array items :: rest ∧
      t = ⟨.done (.array items), rest⟩ := by
  cases closes with
  | false => cases h
  | true =>
      cases stack with
      | nil => cases h
      | cons frame rest =>
          cases frame with
          | array items =>
              cases h
              exact ⟨rfl, items, rest, rfl, rfl⟩
          | object fields key => cases h

/-- **A step does not see what is around the value**, as long as the value goes on. -/
theorem jsonStep_above (hs : s.Within) (hover : ∀ value, ¬ Over s c value) :
    jsonStep (s.above below) c = (jsonStep s c).map (·.above below) := by
  obtain ⟨reading, stack⟩ := s
  cases reading with
  | value closes =>
      obtain ⟨frame, rest, rfl⟩ := List.exists_cons_of_ne_nil hs
      change beginValue (frame :: rest ++ below) closes c =
        (beginValue (frame :: rest) closes c).map _
      cases hspace : isJsonSpace c with
      | true => simp [beginValue, hspace, JsonState.above]
      | false =>
          by_cases hc : c = ']'
          · subst hc
            cases closes with
            | false => rfl
            | true => cases frame <;> rfl
          · rw [beginValue_above (frame :: rest ++ below) closes hspace hc,
              beginValue_above (frame :: rest) closes hspace hc, Option.map_map]
            congr 1
            funext u
            simp [JsonState.above]
  | key closes =>
      obtain ⟨frame, rest, rfl⟩ := List.exists_cons_of_ne_nil hs
      change stepKey (frame :: rest ++ below) closes c = (stepKey (frame :: rest) closes c).map _
      unfold stepKey
      cases frame with
      | array items =>
          dsimp only [List.cons_append]
          split_ifs <;> rfl
      | object fields key =>
          dsimp only [List.cons_append]
          split_ifs <;> rfl
  | colon =>
      change stepColon (stack ++ below) c = (stepColon stack c).map _
      unfold stepColon
      split_ifs <;> rfl
  | string ofKey text escape =>
      change stepString (stack ++ below) ofKey text escape c =
        (stepString stack ofKey text escape c).map _
      obtain ⟨rfl, rfl⟩ | ⟨text', escape', hopen⟩ | hnone := stepString_cases text escape c
      · cases ofKey with
        | false => rfl
        | true =>
            obtain ⟨frame, rest, rfl⟩ := List.exists_cons_of_ne_nil hs
            cases frame <;> rfl
      · rw [hopen, hopen]
        rfl
      · rw [hnone, hnone]
        rfl
  | number numeral phase =>
      change stepNumber (stack ++ below) numeral phase c = (stepNumber stack numeral phase c).map _
      unfold stepNumber
      cases hnext : phase.next c with
      | some next => rfl
      | none =>
          dsimp only
          split_ifs with hcomplete
          · apply endValue_above
            rintro rfl
            exact hover _ (.number hcomplete hnext)
          · rfl
  | word w seen =>
      change stepWord (stack ++ below) w seen c = (stepWord stack w seen c).map _
      unfold stepWord
      split_ifs <;> rfl
  | done value =>
      change endValue (stack ++ below) value c = (endValue stack value c).map _
      apply endValue_above
      rintro rfl
      exact hover _ (.done value c)

theorem within_of_ne {reading : Reading} (h : stack ≠ []) :
    JsonState.Within ⟨reading, stack⟩ := by
  unfold JsonState.Within
  split
  · trivial
  · trivial
  · trivial
  · trivial
  · exact h

theorem within_above (h : s.Within) : (s.above below).Within := by
  obtain ⟨reading, stack⟩ := s
  by_cases hne : stack = []
  · subst hne
    unfold JsonState.Within at h
    unfold JsonState.Within JsonState.above
    dsimp only at h ⊢
    split at h
    · trivial
    · trivial
    · trivial
    · trivial
    · exact absurd rfl h
  · exact within_of_ne fun hnil => hne (List.append_eq_nil_iff.mp hnil).1

theorem endValue_within (h : endValue stack value c = some t) : t.Within := by
  rcases endValue_cases h with ⟨-, rfl⟩ | ⟨items, rest, -, ⟨-, rfl⟩ | ⟨-, rfl⟩⟩ |
    ⟨fields, key, rest, -, ⟨-, rfl⟩ | ⟨-, rfl⟩⟩
  · exact trivial
  · exact within_of_ne (List.cons_ne_nil _ _)
  · exact trivial
  · exact within_of_ne (List.cons_ne_nil _ _)
  · exact trivial

theorem jsonStep_within (hs : s.Within) (h : jsonStep s c = some t) : t.Within := by
  obtain ⟨reading, stack⟩ := s
  cases reading with
  | value closes =>
      change beginValue stack closes c = some t at h
      cases hspace : isJsonSpace c with
      | true =>
          rw [beginValue_space hspace] at h
          cases h
          exact hs
      | false =>
          by_cases hc : c = ']'
          · subst hc
            obtain ⟨-, items, rest, rfl, rfl⟩ := beginValue_bracket h
            exact trivial
          · rw [beginValue_above stack closes hspace hc] at h
            obtain ⟨u, hu, rfl⟩ := Option.map_eq_some_iff.mp h
            exact within_above (beginValue_within hspace hu)
  | key closes =>
      change stepKey stack closes c = some t at h
      unfold stepKey at h
      split_ifs at h
      · cases h
        exact hs
      · cases h
        exact within_of_ne hs
      · obtain ⟨frame, rest, rfl⟩ := List.exists_cons_of_ne_nil hs
        cases frame with
        | array items => cases h
        | object fields key =>
            cases h
            exact trivial
  | colon =>
      change stepColon stack c = some t at h
      unfold stepColon at h
      split_ifs at h
      · cases h
        exact hs
      · cases h
        exact within_of_ne hs
  | string ofKey text escape =>
      change stepString stack ofKey text escape c = some t at h
      obtain ⟨rfl, rfl⟩ | ⟨text', escape', hopen⟩ | hnone := stepString_cases text escape c
      · cases ofKey with
        | false =>
            cases h
            exact trivial
        | true =>
            obtain ⟨frame, rest, rfl⟩ := List.exists_cons_of_ne_nil hs
            cases frame with
            | array items => cases h
            | object fields key =>
                cases h
                exact within_of_ne (List.cons_ne_nil _ _)
      · rw [hopen] at h
        cases h
        cases ofKey with
        | false => exact trivial
        | true => exact hs
      · rw [hnone] at h
        cases h
  | number numeral phase =>
      change stepNumber stack numeral phase c = some t at h
      unfold stepNumber at h
      cases hnext : phase.next c with
      | some next =>
          rw [hnext] at h
          cases h
          exact trivial
      | none =>
          rw [hnext] at h
          dsimp only at h
          split_ifs at h
          exact endValue_within h
  | word w seen =>
      change stepWord stack w seen c = some t at h
      unfold stepWord at h
      split_ifs at h <;> cases h <;> exact trivial
  | done value => exact endValue_within h

/-- A space does not end a value that has not ended. -/
theorem step_finish (hs : s.Within) (hover : ∀ value, ¬ Over s c value)
    (h : jsonStep s c = some t) (hfinish : t.finish = some value) : isJsonSpace c = false := by
  by_contra hno
  have hspace : isJsonSpace c = true := Bool.not_eq_false _ ▸ hno
  obtain ⟨reading, stack⟩ := s
  cases reading with
  | value closes =>
      change beginValue stack closes c = some t at h
      rw [beginValue_space hspace] at h
      cases h
      cases hfinish
  | key closes =>
      rw [key_space hspace] at h
      cases h
      cases hfinish
  | colon =>
      rw [colon_space hspace] at h
      cases h
      cases hfinish
  | string ofKey text escape =>
      change stepString stack ofKey text escape c = some t at h
      obtain ⟨rfl, rfl⟩ | ⟨text', escape', hopen⟩ | hnone := stepString_cases text escape c
      · cases hspace
      · rw [hopen] at h
        cases h
        cases hfinish
      · rw [hnone] at h
        cases h
  | number numeral phase =>
      have hnext := next_of_follows (.inl hspace) phase
      change stepNumber stack numeral phase c = some t at h
      rw [stepNumber, hnext] at h
      dsimp only at h
      split_ifs at h with hcomplete
      rw [endValue_space hspace] at h
      cases h
      cases stack with
      | nil => exact hover _ (.number hcomplete hnext)
      | cons frame rest => cases hfinish
  | word w seen =>
      change stepWord stack w seen c = some t at h
      unfold stepWord at h
      by_cases hletter : w.letters[seen]? = some c
      · have halpha := letter_isAlpha (List.mem_of_getElem? hletter)
        rw [alpha_of_space hspace] at halpha
        cases halpha
      · rw [if_neg hletter] at h
        cases h
  | done value =>
      change endValue stack value c = some t at h
      rw [endValue_space hspace] at h
      cases h
      cases stack with
      | nil => exact hover _ (.done value c)
      | cons frame rest => cases hfinish

end Inside

/-! ## Spaces, and the end of a value -/

structure Spaces where
  text : Text
  spaces : ∀ c ∈ text, isJsonSpace c = true

section Runs

variable {s t u : JsonState} {c : Char} {closes : Bool} {value : JsonValue} {text rest : Text}
  {below : List JsonFrame} {before : Spaces}

theorem exists_spaces (text : Text) : ∃ (before : Spaces) (more : Text),
    text = before.text ++ more ∧ ∀ c, more.head? = some c → isJsonSpace c = false := by
  refine ⟨⟨text.takeWhile isJsonSpace, fun c hc => List.mem_takeWhile_imp hc⟩,
    text.dropWhile isJsonSpace, List.takeWhile_append_dropWhile.symm, ?_⟩
  intro c hc
  have hnot := List.head?_dropWhile_not isJsonSpace text
  rw [hc] at hnot
  exact hnot

/-- Spaces that a state stays at. -/
theorem run_spaces (hstay : ∀ c, isJsonSpace c = true → jsonStep s c = some s) (before : Spaces)
    (text : Text) : jsonRun s (before.text ++ text) = jsonRun s text := by
  obtain ⟨front, hfront⟩ := before
  dsimp only
  induction front with
  | nil => rfl
  | cons c front ih =>
      rw [List.cons_append, jsonRun_cons, hstay c (hfront c List.mem_cons_self), Option.bind_some]
      exact ih fun d hd => hfront d (List.mem_cons_of_mem _ hd)

theorem value_spaces : jsonRun ⟨.value closes, below⟩ (before.text ++ text) =
    jsonRun ⟨.value closes, below⟩ text := run_spaces (fun _ => beginValue_space) before text

theorem done_spaces : jsonRun ⟨.done value, below⟩ (before.text ++ text) =
    jsonRun ⟨.done value, below⟩ text := run_spaces (fun _ => endValue_space) before text

theorem key_spaces : jsonRun ⟨.key closes, below⟩ (before.text ++ text) =
    jsonRun ⟨.key closes, below⟩ text := run_spaces (fun _ => key_space) before text

theorem colon_spaces : jsonRun ⟨.colon, below⟩ (before.text ++ text) =
    jsonRun ⟨.colon, below⟩ text := run_spaces (fun _ => colon_space) before text

/-- Nothing but spaces follows a value that is in nothing. -/
theorem run_done (h : jsonRun ⟨.done value, []⟩ text = some t) :
    (∀ c ∈ text, isJsonSpace c = true) ∧ t = ⟨.done value, []⟩ := by
  induction text with
  | nil =>
      cases h
      exact ⟨fun c hc => absurd hc List.not_mem_nil, rfl⟩
  | cons c text ih =>
      obtain ⟨u, hstep, hrun⟩ := Option.bind_eq_some_iff.mp h
      obtain ⟨hspace, rfl⟩ := endValue_nil hstep
      obtain ⟨hall, ht⟩ := ih hrun
      exact ⟨List.forall_mem_cons.mpr ⟨hspace, hall⟩, ht⟩

/-- A run inside of others is the run by itself. -/
theorem run_above (hs : s.Within) (h : jsonRun s text = some t) :
    t.Within ∧ jsonRun (s.above below) text = some (t.above below) := by
  induction text generalizing s with
  | nil =>
      cases h
      exact ⟨hs, rfl⟩
  | cons c text ih =>
      obtain ⟨u, hstep, hrun⟩ := Option.bind_eq_some_iff.mp h
      obtain ⟨hwithin, hrest⟩ := ih (jsonStep_within hs hstep) hrun
      refine ⟨hwithin, ?_⟩
      have habove : jsonStep (s.above below) c = some (u.above below) := by
        by_cases hover : ∃ value, Over s c value
        · obtain ⟨value, hover⟩ := hover
          obtain ⟨hspace, rfl⟩ := endValue_nil (hover.end_eq ▸ hstep)
          rw [hover.step below]
          exact endValue_space hspace
        · rw [jsonStep_above hs (not_exists.mp hover), hstep, Option.map_some]
      rw [jsonRun_cons, habove, Option.bind_some, hrest]

/-- **The run of a value is cut where the value ends.** -/
theorem run_split (hs : s.Within) (hrun : jsonRun (s.above below) text = some t)
    (hshort : t.stack.length < below.length) : ∃ own rest value u, text = own ++ rest ∧
      jsonRun s own = some u ∧ u.finish = some value ∧
      (∀ c, own.getLast? = some c → isJsonSpace c = false) ∧
      jsonRun ⟨.done value, below⟩ rest = some t := by
  induction text generalizing s with
  | nil =>
      cases hrun
      rw [JsonState.above, List.length_append] at hshort
      omega
  | cons c text ih =>
      by_cases hover : ∃ value, Over s c value
      · obtain ⟨value, hover⟩ := hover
        refine ⟨[], c :: text, value, s, rfl, rfl, hover.finish, ?_, ?_⟩
        · intro d hd
          cases hd
        · rw [jsonRun_cons, ← hover.step below]
          exact hrun
      · have hover := not_exists.mp hover
        obtain ⟨v, hstep, hrest⟩ := Option.bind_eq_some_iff.mp hrun
        rw [jsonStep_above hs hover] at hstep
        obtain ⟨v, hv, rfl⟩ := Option.map_eq_some_iff.mp hstep
        obtain ⟨own, rest, value, u, rfl, hown, hfinish, hlast, htail⟩ :=
          ih (jsonStep_within hs hv) hrest
        refine ⟨c :: own, rest, value, u, rfl, ?_, hfinish, ?_, htail⟩
        · rw [jsonRun_cons, hv, Option.bind_some, hown]
        · intro d hd
          cases own with
          | nil =>
              cases hown
              cases hd
              exact step_finish hs hover hv hfinish
          | cons e own => exact hlast d hd

end Runs

end Veto.Foundation

import Veto.Foundation.JsonSource
import Veto.Watcher.Feed

/-!
# The walker on the source of a value

The loops that count brackets are where `JSON.parse` is: the depth is the number of open frames.  So
`indexAfterJsonValue` ends where the source of a value ends.
-/

namespace Veto.Watcher.Feed

open Foundation

/-! ## Brackets -/

def inString : Reading → Bool
  | .string _ _ _ => true
  | _ => false

def escaped : Reading → Bool
  | .string _ _ .started => true
  | _ => false

/-- The variables of a loop that is where `JSON.parse` is. -/
def scanOf (base : Int) (s : JsonState) : Scan :=
  ⟨base + s.stack.length, inString s.reading, escaped s.reading⟩

/-- Neither a quote nor a bracket. -/
def Other (c : Char) : Prop := c ≠ '"' ∧ c ≠ '{' ∧ c ≠ '[' ∧ c ≠ '}' ∧ c ≠ ']'

section Scans

variable {base : Int} {s t : JsonState} {c : Char} {value : JsonValue} {text after : Text}

theorem escaped_of_inString {reading : Reading} (h : inString reading = false) :
    escaped reading = false := by
  cases reading with
  | string => cases h
  | _ => rfl

theorem scan_other (hs : inString s.reading = false) (ht : inString t.reading = false)
    (hc : Other c) (hstack : t.stack.length = s.stack.length) :
    (scanOf base s).next c = scanOf base t := by
  obtain ⟨hquote, hbrace, hbracket, hbrace', hbracket'⟩ := hc
  simp [Scan.next, scanOf, hs, ht, escaped_of_inString hs, escaped_of_inString ht, hstack, hquote,
    hbrace, hbracket, hbrace', hbracket']

theorem scan_open (hs : inString s.reading = false) (ht : inString t.reading = false)
    (hc : c = '{' ∨ c = '[') (hstack : t.stack.length = s.stack.length + 1) :
    (scanOf base s).next c = scanOf base t := by
  have hquote : c ≠ '"' := by
    rcases hc with rfl | rfl <;> decide
  simp [Scan.next, scanOf, hs, ht, escaped_of_inString hs, escaped_of_inString ht, hstack, hquote, hc,
    add_assoc]

theorem scan_close (hs : inString s.reading = false) (ht : inString t.reading = false)
    (hc : c = '}' ∨ c = ']') (hstack : s.stack.length = t.stack.length + 1) :
    (scanOf base s).next c = scanOf base t := by
  have hother : c ≠ '"' ∧ ¬ (c = '{' ∨ c = '[') := by
    rcases hc with rfl | rfl <;> decide
  simp only [Scan.next, scanOf, hs, ht, escaped_of_inString hs, escaped_of_inString ht, hstack,
    if_neg hother.1, if_neg hother.2, if_pos hc, Bool.false_eq_true, if_false]
  congr 1
  omega

theorem scan_quote (hs : inString s.reading = false) (ht : inString t.reading = true)
    (hescape : escaped t.reading = false) (hstack : t.stack = s.stack) :
    (scanOf base s).next '"' = scanOf base t := by
  simp [Scan.next, scanOf, hs, ht, escaped_of_inString hs, hescape, hstack]

theorem other_of_space (h : isJsonSpace c = true) : Other c := by
  unfold Other
  refine ⟨?_, ?_, ?_, ?_, ?_⟩ <;> rintro rfl <;> cases h

theorem other_of_digit (h : c.isDigit = true) : Other c := by
  unfold Other
  refine ⟨?_, ?_, ?_, ?_, ?_⟩ <;> rintro rfl <;> cases h

theorem other_of_alpha (h : c.isAlpha = true) : Other c := by
  unfold Other
  refine ⟨?_, ?_, ?_, ?_, ?_⟩ <;> rintro rfl <;> cases h

/-- Every character of a number can stand in a token. -/
theorem token_of_next {phase next : NumberPhase} (h : phase.next c = some next) :
    isTokenChar c = true := by
  by_cases hzero : c = '0'
  · subst hzero
    rfl
  unfold isTokenChar
  cases phase <;> grind [NumberPhase.next]

theorem other_of_token (h : isTokenChar c = true) : Other c := by
  unfold Other
  refine ⟨?_, ?_, ?_, ?_, ?_⟩ <;> rintro rfl <;> cases h

theorem scan_end {stack : List JsonFrame} (hs : inString s.reading = false) (hstack : s.stack = stack)
    (h : endValue stack value c = some t) : (scanOf base s).next c = scanOf base t := by
  rcases endValue_cases h with ⟨hspace, rfl⟩ | ⟨items, rest, rfl, ⟨rfl, rfl⟩ | ⟨rfl, rfl⟩⟩ |
    ⟨fields, key, rest, rfl, ⟨rfl, rfl⟩ | ⟨rfl, rfl⟩⟩
  · exact scan_other hs rfl (other_of_space hspace) (by rw [hstack])
  · exact scan_other hs rfl (by unfold Other; decide) (by rw [hstack]; rfl)
  · exact scan_close hs rfl (.inr rfl) (by rw [hstack]; rfl)
  · exact scan_other hs rfl (by unfold Other; decide) (by rw [hstack]; rfl)
  · exact scan_close hs rfl (.inl rfl) (by rw [hstack]; rfl)

theorem scan_string {ofKey : Bool} {name : JsString} {escape : Escape} {stack : List JsonFrame}
    (h : jsonStep ⟨.string ofKey name escape, stack⟩ c = some t) :
    (scanOf base ⟨.string ofKey name escape, stack⟩).next c = scanOf base t := by
  change stepString stack ofKey name escape c = some t at h
  cases escape with
  | none =>
      rw [stepString] at h
      split_ifs at h with hquote hslash hcontrol
      · subst hquote
        cases ofKey with
        | false =>
            cases h
            rfl
        | true =>
            cases stack with
            | nil => cases h
            | cons frame rest =>
                cases frame with
                | array items => cases h
                | object fields key =>
                    cases h
                    rfl
      · cases h
        subst hslash
        rfl
      · cases h
        simp [Scan.next, scanOf, inString, escaped, hquote, hslash]
  | started =>
      rw [stepString] at h
      split_ifs at h with hu
      · cases h
        rfl
      · obtain ⟨unit, -, rfl⟩ := Option.map_eq_some_iff.mp h
        rfl
  | hex left code =>
      rw [stepString] at h
      obtain ⟨digit, hdigit, rfl⟩ := Option.map_eq_some_iff.mp h
      have hc : c ≠ '\\' ∧ c ≠ '"' := by
        constructor <;> rintro rfl <;> cases hdigit
      split_ifs <;> simp [Scan.next, scanOf, inString, escaped, hc]

/-- **The loops follow `JSON.parse`.** -/
theorem scan_step (h : jsonStep s c = some t) : (scanOf base s).next c = scanOf base t := by
  obtain ⟨reading, stack⟩ := s
  cases reading with
  | value closes =>
      change beginValue stack closes c = some t at h
      by_cases hspace : isJsonSpace c = true
      · rw [beginValue_space hspace] at h
        cases h
        exact scan_other rfl rfl (other_of_space hspace) rfl
      by_cases hc : c = ']'
      · subst hc
        obtain ⟨-, items, rest, rfl, rfl⟩ := beginValue_bracket h
        exact scan_close rfl rfl (.inr rfl) rfl
      rw [beginValue_above stack closes (Bool.eq_false_iff.mpr hspace) hc] at h
      obtain ⟨u, hu, rfl⟩ := Option.map_eq_some_iff.mp h
      unfold beginValue at hu
      rw [if_neg hspace] at hu
      split_ifs at hu with hbrace hquote hbracket hnull htrue hfalse hminus hzero hdigit
      · cases hu
        exact scan_open rfl rfl (.inl hbrace) rfl
      · cases hu
        subst hquote
        exact scan_quote rfl rfl rfl rfl
      · cases hu
        exact scan_open rfl rfl (.inr hbracket) rfl
      all_goals
        cases hu
        refine scan_other rfl rfl ?_ rfl
        first
          | exact other_of_digit hdigit
          | (subst c; unfold Other; decide)
  | key closes =>
      change stepKey stack closes c = some t at h
      unfold stepKey at h
      split_ifs at h with hspace hquote hbrace
      · cases h
        exact scan_other rfl rfl (other_of_space hspace) rfl
      · cases h
        subst hquote
        exact scan_quote rfl rfl rfl rfl
      · rw [Bool.and_eq_true, decide_eq_true_eq] at hbrace
        cases stack with
        | nil => cases h
        | cons frame rest =>
            cases frame with
            | array items => cases h
            | object fields key =>
                cases h
                exact scan_close rfl rfl (.inl hbrace.2) rfl
  | colon =>
      change stepColon stack c = some t at h
      unfold stepColon at h
      split_ifs at h with hspace hcolon
      · cases h
        exact scan_other rfl rfl (other_of_space hspace) rfl
      · cases h
        subst hcolon
        exact scan_other rfl rfl (by unfold Other; decide) rfl
  | string ofKey text escape => exact scan_string h
  | number numeral phase =>
      change stepNumber stack numeral phase c = some t at h
      unfold stepNumber at h
      cases hnext : phase.next c with
      | some next =>
          rw [hnext] at h
          cases h
          exact scan_other rfl rfl (other_of_token (token_of_next hnext)) rfl
      | none =>
          rw [hnext] at h
          dsimp only at h
          split_ifs at h
          exact scan_end rfl rfl h
  | word w seen =>
      change stepWord stack w seen c = some t at h
      unfold stepWord at h
      split_ifs at h with hletter hend
      · cases h
        exact scan_other rfl rfl (other_of_alpha (letter_isAlpha (List.mem_of_getElem? hletter))) rfl
      · cases h
        exact scan_other rfl rfl (other_of_alpha (letter_isAlpha (List.mem_of_getElem? hletter))) rfl
  | done value => exact scan_end rfl rfl h

end Scans

/-! ## Numbers -/

section Numbers

variable {c d : Char} {text rest : Text} {phase : NumberPhase}

theorem token_of_follows (h : FollowsValue c) : isTokenChar c = false := by
  have hc : c = ' ' ∨ c = '\t' ∨ c = '\n' ∨ c = '\r' ∨ c = ',' ∨ c = ']' ∨ c = '}' := by
    unfold FollowsValue isJsonSpace at h
    simpa [or_assoc] using h
  rcases hc with rfl | rfl | rfl | rfl | rfl | rfl | rfl <;> rfl

/-- What is in no number. -/
structure Stops (c : Char) : Prop where
  digit : c.isDigit = false
  point : c ≠ '.'
  exponent : ¬ (c = 'e' ∨ c = 'E')

theorem stops_of_follows (h : FollowsValue c) : Stops c := by
  have htoken := token_of_follows h
  unfold isTokenChar at htoken
  simp only [Bool.or_eq_false_iff, decide_eq_false_iff_not] at htoken
  obtain ⟨⟨⟨⟨⟨-, -⟩, hpoint⟩, he⟩, hE⟩, hdigit⟩ := htoken
  exact ⟨hdigit, hpoint, not_or.mpr ⟨he, hE⟩⟩

theorem afterExponent_cons (h : ¬ (c = 'e' ∨ c = 'E')) : afterExponent (c :: text) = c :: text := by
  unfold afterExponent
  dsimp only
  rw [if_neg fun hand => h hand.1]

theorem afterFraction_cons (h : c ≠ '.') : afterFraction (c :: text) = c :: text := by
  unfold afterFraction
  split
  · rename_i heq
    cases heq
    exact absurd rfl h
  · rfl

theorem exponentDigits_run (h : text.foldlM NumberPhase.next .exponentDigits = some phase)
    (hc : Stops c) : (text ++ c :: rest).dropWhile Char.isDigit = c :: rest := by
  induction text with
  | nil => exact List.dropWhile_cons_of_neg (Bool.eq_false_iff.mp hc.digit)
  | cons d text ih =>
      obtain ⟨next, hnext, hmore⟩ := Option.bind_eq_some_iff.mp h
      rw [NumberPhase.next] at hnext
      split_ifs at hnext with hdigit
      cases hnext
      rw [List.cons_append, List.dropWhile_cons_of_pos hdigit]
      exact ih hmore

/-- After the letter, and after the sign. -/
theorem exponentSign_run (h : text.foldlM NumberPhase.next .exponentSign = some phase)
    (hcomplete : phase.complete = true) (hc : Stops c) :
    (text ++ c :: rest).head?.any Char.isDigit = true ∧
      (text ++ c :: rest).dropWhile Char.isDigit = c :: rest := by
  cases text with
  | nil =>
      cases h
      cases hcomplete
  | cons d text =>
      obtain ⟨next, hnext, hmore⟩ := Option.bind_eq_some_iff.mp h
      rw [NumberPhase.next] at hnext
      split_ifs at hnext with hdigit
      cases hnext
      rw [List.cons_append, List.dropWhile_cons_of_pos hdigit]
      exact ⟨hdigit, exponentDigits_run hmore hc⟩

theorem takeSign_cons (hplus : c ≠ '+') (hminus : c ≠ '-') :
    takeSign (c :: text) = (none, c :: text) := by
  unfold takeSign
  split
  · rename_i heq
    cases heq
    exact absurd rfl hplus
  · rename_i heq
    cases heq
    exact absurd rfl hminus
  · rfl

theorem exponent_run (he : d = 'e' ∨ d = 'E')
    (h : text.foldlM NumberPhase.next .exponent = some phase) (hcomplete : phase.complete = true)
    (hc : Stops c) : afterExponent (d :: (text ++ c :: rest)) = c :: rest := by
  suffices hsuffices : (takeSign (text ++ c :: rest)).2.head?.any Char.isDigit = true ∧
      (takeSign (text ++ c :: rest)).2.dropWhile Char.isDigit = c :: rest by
    unfold afterExponent
    dsimp only
    rw [if_pos ⟨he, hsuffices.1⟩]
    exact hsuffices.2
  cases text with
  | nil =>
      cases h
      cases hcomplete
  | cons sign text =>
      obtain ⟨next, hnext, hmore⟩ := Option.bind_eq_some_iff.mp h
      rw [NumberPhase.next] at hnext
      split_ifs at hnext with hsign hdigit
      · cases hnext
        rw [Bool.or_eq_true, decide_eq_true_eq, decide_eq_true_eq] at hsign
        rcases hsign with rfl | rfl
        · exact exponentSign_run hmore hcomplete hc
        · exact exponentSign_run hmore hcomplete hc
      · cases hnext
        rw [Bool.or_eq_true, decide_eq_true_eq, decide_eq_true_eq, not_or] at hsign
        rw [List.cons_append, takeSign_cons hsign.1 hsign.2, List.dropWhile_cons_of_pos hdigit]
        exact ⟨hdigit, exponentDigits_run hmore hc⟩

theorem fraction_run (h : text.foldlM NumberPhase.next .fraction = some phase)
    (hcomplete : phase.complete = true) (hc : Stops c) :
    afterExponent ((text ++ c :: rest).dropWhile Char.isDigit) = c :: rest := by
  induction text with
  | nil =>
      rw [List.nil_append, List.dropWhile_cons_of_neg (Bool.eq_false_iff.mp hc.digit)]
      exact afterExponent_cons hc.exponent
  | cons d text ih =>
      obtain ⟨next, hnext, hmore⟩ := Option.bind_eq_some_iff.mp h
      rw [NumberPhase.next] at hnext
      split_ifs at hnext with hdigit he
      · cases hnext
        rw [List.cons_append, List.dropWhile_cons_of_pos hdigit]
        exact ih hmore
      · cases hnext
        rw [Bool.or_eq_true, decide_eq_true_eq, decide_eq_true_eq] at he
        rw [List.cons_append, List.dropWhile_cons_of_neg hdigit]
        exact exponent_run he hmore hcomplete hc

/-- Before the point, where the whole digits have ended. -/
theorem zero_run (h : text.foldlM NumberPhase.next .zero = some phase)
    (hcomplete : phase.complete = true) (hc : Stops c) :
    afterExponent (afterFraction (text ++ c :: rest)) = c :: rest := by
  cases text with
  | nil =>
      rw [List.nil_append, afterFraction_cons hc.point]
      exact afterExponent_cons hc.exponent
  | cons d text =>
      obtain ⟨next, hnext, hmore⟩ := Option.bind_eq_some_iff.mp h
      rw [NumberPhase.next] at hnext
      split_ifs at hnext with hpoint he
      · cases hnext
        obtain rfl := hpoint
        cases text with
        | nil =>
            cases hmore
            cases hcomplete
        | cons digit text =>
            obtain ⟨next, hnext, hmore⟩ := Option.bind_eq_some_iff.mp hmore
            rw [NumberPhase.next] at hnext
            split_ifs at hnext with hdigit
            cases hnext
            have hfraction : afterFraction ('.' :: digit :: (text ++ c :: rest)) =
                (text ++ c :: rest).dropWhile Char.isDigit := by
              rw [afterFraction, List.head?_cons, Option.any_some, if_pos hdigit,
                List.dropWhile_cons_of_pos hdigit]
            rw [List.cons_append, List.cons_append, hfraction]
            exact fraction_run hmore hcomplete hc
      · cases hnext
        rw [Bool.or_eq_true, decide_eq_true_eq, decide_eq_true_eq] at he
        rw [List.cons_append, afterFraction_cons hpoint]
        exact exponent_run he hmore hcomplete hc

theorem digits_run (h : text.foldlM NumberPhase.next .digits = some phase)
    (hcomplete : phase.complete = true) (hc : Stops c) :
    afterExponent (afterFraction ((text ++ c :: rest).dropWhile Char.isDigit)) = c :: rest := by
  induction text with
  | nil =>
      rw [List.nil_append, List.dropWhile_cons_of_neg (Bool.eq_false_iff.mp hc.digit)]
      have hzero : afterExponent (afterFraction ([] ++ c :: rest)) = c :: rest := zero_run rfl rfl hc
      exact hzero
  | cons d text ih =>
      by_cases hdigit : d.isDigit = true
      · rw [List.foldlM_cons, NumberPhase.next, if_pos hdigit] at h
        rw [List.cons_append, List.dropWhile_cons_of_pos hdigit]
        exact ih h
      · rw [List.foldlM_cons, NumberPhase.next, if_neg hdigit] at h
        rw [List.cons_append, List.dropWhile_cons_of_neg hdigit]
        have hzero : afterExponent (afterFraction (d :: text ++ c :: rest)) = c :: rest :=
          zero_run h hcomplete hc
        exact hzero

theorem unsigned_append (hne : text ≠ []) : unsigned (text ++ rest) = unsigned text ++ rest := by
  obtain ⟨d, text, rfl⟩ := List.exists_cons_of_ne_nil hne
  by_cases hminus : d = '-'
  · subst hminus
    rfl
  · rw [List.cons_append, unsigned_cons hminus, unsigned_cons hminus, List.cons_append]

theorem numeral_ne_nil (h : JsonNumeral text) : text ≠ [] := by
  rintro rfl
  obtain ⟨phase, hrun, hcomplete⟩ := h
  cases hrun
  cases hcomplete

theorem afterNumber_numeral (h : JsonNumeral text) (hc : FollowsValue c) :
    afterNumber (text ++ c :: rest) = some (c :: rest) := by
  have hne := numeral_ne_nil h
  obtain ⟨phase, hrun, hcomplete⟩ := h
  rw [afterNumber, unsigned_append hne]
  generalize unsigned text = text at hrun
  cases text with
  | nil =>
      cases hrun
      cases hcomplete
  | cons d text =>
      obtain ⟨next, hnext, hmore⟩ := Option.bind_eq_some_iff.mp hrun
      rw [NumberPhase.next] at hnext
      split_ifs at hnext with hzero hdigit
      · cases hnext
        obtain rfl := hzero
        exact congrArg some (zero_run hmore hcomplete (stops_of_follows hc))
      · cases hnext
        rw [List.cons_append]
        split
        · rename_i heq
          cases heq
          exact absurd rfl hzero
        · rename_i heq
          cases heq
          rw [if_pos hdigit]
          exact congrArg some (digits_run hmore hcomplete (stops_of_follows hc))
        · rename_i heq
          cases heq

/-- Every character of a numeral can stand in a token. -/
theorem token_of_numeral (h : JsonNumeral text) : ∀ d ∈ text, isTokenChar d = true := by
  obtain ⟨phase, hrun, -⟩ := h
  have hall : ∀ (text : Text) (first : NumberPhase),
      text.foldlM NumberPhase.next first = some phase → ∀ d ∈ text, isTokenChar d = true := by
    intro text
    induction text with
    | nil => simp
    | cons d text ih =>
        intro first h
        obtain ⟨next, hnext, hmore⟩ := Option.bind_eq_some_iff.mp h
        exact List.forall_mem_cons.mpr ⟨token_of_next hnext, ih next hmore⟩
  cases text with
  | nil => simp
  | cons d text =>
      by_cases hminus : d = '-'
      · subst hminus
        exact List.forall_mem_cons.mpr ⟨rfl, hall _ _ hrun⟩
      · rw [unsigned_cons hminus] at hrun
        exact hall _ _ hrun

end Numbers

end Veto.Watcher.Feed

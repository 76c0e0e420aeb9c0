import Veto.Watcher.FeedSpans
import Veto.Watcher.Price

/-!
# The token of a price

`topLevelSekToken` looks where a key begins, and where a string begins that is a value; behind the
latter is no colon.  So it gives the token of the last price whose key is spelled as it is.
-/

namespace Veto.Watcher.Feed

open Foundation

/-! ## Inside a value -/

/-- The variables of the loop between the members of an object. -/
def between : Scan := ⟨1, false, false⟩

section Inside

variable {s t u : JsonState} {c : Char} {value : JsonValue} {text raw rest : Text} {name : JsString}
  {found : Option Text}

/-- No string begins inside a value that has no frame. -/
theorem step_quote (hs : s.Within) (hstack : s.stack = []) (hinside : inString s.reading = false) :
    jsonStep s '"' = none := by
  obtain ⟨reading, stack⟩ := s
  obtain rfl : stack = [] := hstack
  cases reading with
  | value closes => exact absurd rfl hs
  | key closes => exact absurd rfl hs
  | colon => exact absurd rfl hs
  | string ofKey text escape => cases hinside
  | number numeral phase =>
      change stepNumber [] numeral phase '"' = none
      have hnext : phase.next '"' = none := by
        cases phase <;> rfl
      rw [stepNumber, hnext]
      exact ite_self none
  | word w seen =>
      refine if_neg fun hletter => ?_
      cases letter_isAlpha (List.mem_of_getElem? hletter)
  | done value => rfl

/-- **The loop looks at nothing inside a value.** -/
theorem token_run (hs : s.Within) (h : jsonRun s text = some t) :
    sekTokenFrom (scanOf 1 s) found (text ++ rest) = sekTokenFrom (scanOf 1 t) found rest := by
  induction text generalizing s with
  | nil =>
      cases h
      rfl
  | cons c text ih =>
      obtain ⟨u, hstep, hmore⟩ := Option.bind_eq_some_iff.mp h
      have hno : ¬ ((scanOf 1 s).inString = false ∧ c = '"' ∧ (scanOf 1 s).depth = 1) := by
        rintro ⟨hinside, rfl, hdepth⟩
        have hlength : s.stack.length = 0 := by
          change (1 : Int) + s.stack.length = 1 at hdepth
          omega
        change jsonStep s '"' = some u at hstep
        rw [step_quote hs (List.length_eq_zero_iff.mp hlength) hinside] at hstep
        cases hstep
      rw [List.cons_append, sekTokenFrom, if_neg hno, scan_step hstep]
      exact ih (jsonStep_within hs hstep) hmore

theorem token_other (hc : Other c) :
    sekTokenFrom between found (c :: rest) = sekTokenFrom between found rest := by
  obtain ⟨hquote, hbrace, hbracket, hbrace', hbracket'⟩ := hc
  have hnext : between.next c = between := by
    simp [Scan.next, between, hquote, hbrace, hbracket, hbrace', hbracket']
  rw [sekTokenFrom, hnext, if_neg fun hand => hquote hand.2.1]

theorem token_spaces (spaces : Spaces) :
    sekTokenFrom between found (spaces.text ++ rest) = sekTokenFrom between found rest := by
  obtain ⟨text, hspaces⟩ := spaces
  dsimp only
  induction text with
  | nil => rfl
  | cons c text ih =>
      rw [List.cons_append, token_other (other_of_space (hspaces c List.mem_cons_self))]
      exact ih fun d hd => hspaces d (List.mem_cons_of_mem _ hd)

/-- A string between the members is looked at where it begins. -/
theorem token_quoted (spelled : Spells raw name) :
    sekTokenFrom between found ('"' :: (raw ++ '"' :: rest)) =
      sekTokenFrom between ((matchSekValue ('"' :: (raw ++ '"' :: rest))).or found) rest := by
  have hinside : ∀ found, sekTokenFrom ⟨1, true, false⟩ found (raw ++ ['"'] ++ rest) =
      sekTokenFrom between found rest := fun found =>
    token_run (s := ⟨.string false [] .none, []⟩) trivial spelled
  rw [List.append_assoc] at hinside
  rw [sekTokenFrom, if_pos ⟨rfl, rfl, rfl⟩]
  exact hinside _

end Inside

/-! ## The expression -/

section Matches

variable {c : Char} {value : JsonValue} {text raw own rest : Text} {name : JsString}

theorem matchSekValue_quoted (spelled : Spells raw name) :
    matchSekValue ('"' :: (raw ++ '"' :: rest)) =
      if raw = PRICE_KEY then matchAfterKey rest else none := by
  rw [matchSekValue]
  split_ifs with hraw
  · obtain rfl := hraw
    have hdrop : ('"' :: (PRICE_KEY ++ '"' :: rest)).dropPrefix? ('"' :: (PRICE_KEY ++ ['"'])) =
        some rest := List.dropPrefix?_eq_some_iff.mpr ⟨_, by simp, beq_self_eq_true _⟩
    rw [hdrop, Option.bind_some]
  · cases hdrop : ('"' :: (raw ++ '"' :: rest)).dropPrefix? ('"' :: (PRICE_KEY ++ ['"'])) with
    | none => rfl
    | some behind =>
        obtain ⟨front, hsplit, hfront⟩ := List.dropPrefix?_eq_some_iff.mp hdrop
        obtain rfl := eq_of_beq hfront
        rw [List.cons_append, List.append_assoc, List.singleton_append] at hsplit
        injection hsplit with _ hsplit
        -- both are read as a string up to their quotes
        have hends : afterString false (raw ++ '"' :: rest) = some rest := afterString_run spelled
        have hends' : afterString false (PRICE_KEY ++ '"' :: behind) = some behind := rfl
        rw [hsplit, hends'] at hends
        obtain rfl := Option.some.inj hends
        exact absurd (List.append_cancel_right hsplit) hraw

theorem space_of_json (h : isJsonSpace c = true) : isSpace c = true := by
  have hc : c = ' ' ∨ c = '\t' ∨ c = '\n' ∨ c = '\r' := by
    unfold isJsonSpace at h
    simpa [or_assoc] using h
  rcases hc with rfl | rfl | rfl | rfl <;> rfl

/-- A value does not begin with a space of the expression. -/
theorem begin_not_space {s : JsonState} (hspace : isJsonSpace c = false)
    (h : beginValue [] false c = some s) : isSpace c = false := by
  unfold beginValue at h
  rw [if_neg (Bool.eq_false_iff.mp hspace)] at h
  split_ifs at h with hbrace hquote hbracket hnull htrue hfalse hminus hzero hdigit
  all_goals first
    | exact isSpace_of_digit hdigit
    | (subst c; rfl)

theorem dropWhile_spaces (spaces : Spaces) (hc : isSpace c = false) :
    (spaces.text ++ c :: rest).dropWhile isSpace = c :: rest := by
  rw [List.dropWhile_append_of_pos fun d hd => space_of_json (spaces.spaces d hd),
    List.dropWhile_cons_of_neg (Bool.eq_false_iff.mp hc)]

/-- Behind a value is no colon. -/
theorem matchAfterKey_none (after : Spaces) (hc : c = ',' ∨ c = '}') :
    matchAfterKey (after.text ++ c :: rest) = none := by
  rcases hc with rfl | rfl
  · rw [matchAfterKey, dropWhile_spaces after rfl]
    rfl
  · rw [matchAfterKey, dropWhile_spaces after rfl]
    rfl

/-- The first group ends at the first quote. -/
theorem takeWhile_quote (raw more : Text) :
    (raw ++ '"' :: more).takeWhile (· ≠ '"') = (raw ++ ['"']).takeWhile (· ≠ '"') := by
  induction raw with
  | nil => rfl
  | cons c raw ih => rw [List.cons_append, List.cons_append, List.takeWhile_cons, ih,
      List.takeWhile_cons]

theorem matchToken_numeral (h : JsonNumeral text) : matchToken text = some text := by
  have htoken := token_of_numeral h
  obtain ⟨d, more, rfl⟩ := List.exists_cons_of_ne_nil (numeral_ne_nil h)
  have hquote := (other_of_token (htoken d List.mem_cons_self)).1
  unfold matchToken
  split
  · rename_i heq
    cases heq
    exact absurd rfl hquote
  · rw [List.takeWhile_eq_self_iff.mpr htoken]
    exact if_neg (List.cons_ne_nil _ _)

/-- The token of a value does not depend on what is behind it. -/
theorem matchToken_shape (h : JsonShape text value) (hc : FollowsValue c) :
    matchToken (text ++ c :: rest) = matchToken text := by
  cases h with
  | object o => rfl
  | array a => rfl
  | @string raw name spelled =>
      have hany : ∀ more : Text, (raw ++ '"' :: more).any (· = '"') = true := by
        simp
      rw [List.cons_append, List.append_assoc, List.singleton_append]
      rw [matchToken, matchToken, if_pos (hany _), if_pos (hany _), takeWhile_quote]
  | number numeral =>
      have htoken := token_of_numeral numeral
      rw [matchToken_numeral numeral]
      obtain ⟨d, more, rfl⟩ := List.exists_cons_of_ne_nil (numeral_ne_nil numeral)
      have hquote := (other_of_token (htoken d List.mem_cons_self)).1
      rw [List.cons_append]
      unfold matchToken
      split
      · rename_i heq
        cases heq
        exact absurd rfl hquote
      · rw [← List.cons_append, List.takeWhile_append_of_pos htoken,
          List.takeWhile_cons_of_neg (Bool.eq_false_iff.mp (token_of_follows hc)), List.append_nil]
        exact if_neg (List.cons_ne_nil _ _)
  | word w =>
      cases w with
      | null => rfl
      | true => rfl
      | false => rfl

theorem shape_quote (h : JsonShape text value) (htext : text = '"' :: own) :
    ∃ raw name, own = raw ++ ['"'] ∧ Spells raw name := by
  cases h with
  | object o => cases htext
  | array a => cases htext
  | @string raw name spelled =>
      injection htext with _ hown
      exact ⟨raw, name, hown.symm, spelled⟩
  | number numeral =>
      subst htext
      cases token_of_numeral numeral '"' List.mem_cons_self
  | word w =>
      cases w with
      | null => cases htext
      | true => cases htext
      | false => cases htext

end Matches

/-! ## The members -/

/-- The token of a member, when its key is spelled as it is. -/
def memberToken (m : JsonMember) : Option Text :=
  if m.raw = PRICE_KEY then matchToken m.source.text else none

section Members

variable {c : Char} {rest : Text} {found : Option Text}

/-- A value is passed over. -/
theorem token_value (source : JsonSource) (hrest : matchAfterKey rest = none) :
    sekTokenFrom between found (source.text ++ rest) = sekTokenFrom between found rest := by
  obtain ⟨c, own, s, u, htext, hspace, hbegin, hrun, hfinish⟩ := source.begins
  by_cases hquote : c = '"'
  · obtain rfl := hquote
    obtain ⟨raw, name, rfl, spelled⟩ := shape_quote source.shape htext
    rw [htext, List.cons_append, List.append_assoc, List.singleton_append, token_quoted spelled,
      matchSekValue_quoted spelled, hrest, ite_self, Option.none_or]
  · have hnext : (scanOf 1 ⟨.value false, []⟩).next c = scanOf 1 s := scan_step hbegin
    change between.next c = scanOf 1 s at hnext
    have hend : scanOf 1 u = between := by
      obtain ⟨reading, stack⟩ := u
      obtain rfl : stack = [] := finish_stack hfinish
      cases reading with
      | done value => rfl
      | number numeral phase => rfl
      | _ => cases hfinish
    rw [htext, List.cons_append, sekTokenFrom, if_neg fun hand => hquote hand.2.1, hnext,
      token_run (beginValue_within hspace hbegin) hrun, hend]

/-- **A member is looked at where its key begins.** -/
theorem token_member (m : JsonMember) (hc : c = ',' ∨ c = '}') :
    sekTokenFrom between found (m.text ++ c :: rest) =
      sekTokenFrom between ((memberToken m).or found) (c :: rest) := by
  have hfollows : FollowsValue c := by
    rcases hc with rfl | rfl
    · exact .inr (.inl rfl)
    · exact .inr (.inr (.inr rfl))
  obtain ⟨first, own, s, u, hfirst, hjson, hbegin, -, -⟩ := m.source.begins
  have hspace : isSpace first = false := begin_not_space hjson hbegin
  have htoken : matchAfterKey (m.afterKey.text ++ ':' :: (m.beforeValue.text ++
      (m.source.text ++ (m.after.text ++ c :: rest)))) = matchToken m.source.text := by
    obtain ⟨d, more, hmore, hd⟩ := m.after.follows hfollows rest
    have hvalue : matchToken (m.source.text ++ d :: more) = matchToken m.source.text :=
      matchToken_shape m.source.shape hd
    rw [hfirst, List.cons_append] at hvalue
    rw [matchAfterKey, dropWhile_spaces m.afterKey rfl, hmore, hfirst, List.cons_append, ← hvalue]
    exact congrArg matchToken (dropWhile_spaces m.beforeValue hspace)
  have htext : m.text ++ c :: rest = m.before.text ++ '"' :: (m.raw ++ '"' :: (m.afterKey.text ++
      ':' :: (m.beforeValue.text ++ (m.source.text ++ (m.after.text ++ c :: rest))))) := by
    simp [JsonMember.text]
  rw [htext, token_spaces, token_quoted m.spelled, matchSekValue_quoted m.spelled, htoken,
    token_spaces, token_other (by unfold Other; decide), token_spaces,
    token_value m.source (matchAfterKey_none m.after hc), token_spaces]
  rfl

theorem token_members (inner : Spaces) (members : List JsonMember) :
    sekTokenFrom between found (listText inner (members.map JsonMember.text) ++ ['}']) =
      members.foldl (fun found m => (memberToken m).or found) found := by
  induction members generalizing found with
  | nil =>
      rw [List.map_nil, listText, token_spaces]
      rfl
  | cons m members ih =>
      cases members with
      | nil =>
          rw [List.map_singleton, listText, List.intercalate_singleton, token_member m (.inr rfl)]
          rfl
      | cons next members =>
          rw [List.map_cons, List.map_cons, listText_cons_cons, List.append_assoc,
            List.cons_append, token_member m (.inl rfl), token_other (by unfold Other; decide),
            ← List.map_cons, ih]
          rfl

/-- **The token of an object is that of the last member that has one.** -/
theorem topLevelSekToken_object (o : ObjectSource) :
    topLevelSekToken o.text =
      o.members.foldl (fun found m => (memberToken m).or found) none :=
  token_members o.inner o.members

end Members

end Veto.Watcher.Feed

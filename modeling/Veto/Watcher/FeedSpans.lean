import Veto.Watcher.FeedScan

/-!
# The spans of an array

`indexAfterJsonValue` ends where the source of a value ends, so `topLevelArraySpans` gives the source
of each item.
-/

namespace Veto.Watcher.Feed

open Foundation

/-! ## The end of a value -/

section Ends

variable {s t u : JsonState} {c : Char} {value : JsonValue} {text raw rest : Text} {acc name : JsString}
  {escape : Escape}

theorem afterString_next {s : Scan} (hs : s.inString = true) (hnext : (s.next c).inString = true) :
    afterString s.escape (c :: rest) = afterString (s.next c).escape rest := by
  unfold Scan.next at hnext ⊢
  rw [if_pos hs] at hnext ⊢
  rw [afterString]
  split_ifs with hescape hslash hquote
  · rfl
  · rfl
  · rw [if_neg hescape, if_neg hslash, if_pos hquote] at hnext
    cases hnext
  · rw [Bool.eq_false_iff.mpr hescape]

/-- **The loop over a string ends where the string does.** -/
theorem afterString_run (h : jsonRun ⟨.string false acc escape, []⟩ (raw ++ ['"']) =
      some ⟨.done (.string name), []⟩) :
    afterString (escaped (.string false acc escape)) (raw ++ '"' :: rest) = some rest := by
  induction raw generalizing acc escape with
  | nil =>
      obtain ⟨s, hstep, hrest⟩ := Option.bind_eq_some_iff.mp h
      change stepString [] false acc escape '"' = some s at hstep
      cases hrest
      obtain ⟨rfl, -⟩ | ⟨acc', escape', hopen⟩ | hnone := stepString_cases acc escape '"'
      · rfl
      · rw [hopen] at hstep
        cases hstep
      · rw [hnone] at hstep
        cases hstep
  | cons c raw ih =>
      obtain ⟨s, hstep, hrest⟩ := Option.bind_eq_some_iff.mp h
      have hscan : (scanOf 0 ⟨.string false acc escape, []⟩).next c = scanOf 0 s :=
        scan_string hstep
      change stepString [] false acc escape c = some s at hstep
      obtain ⟨rfl, rfl⟩ | ⟨acc', escape', hopen⟩ | hnone := stepString_cases acc escape c
      · cases hstep
        exact absurd ((run_done hrest).1 '"' (by simp)) (by decide)
      · rw [hopen] at hstep
        cases hstep
        rw [List.cons_append]
        change afterString (scanOf 0 ⟨.string false acc escape, []⟩).escape _ = _
        rw [afterString_next rfl (by rw [hscan]; rfl), hscan]
        exact ih hrest
      · rw [hnone] at hstep
        cases hstep

/-- The last frame is closed by a bracket. -/
theorem step_last (h : jsonStep s c = some t) (hs : s.stack ≠ []) (ht : t.stack = []) :
    inString s.reading = false ∧ (c = '}' ∨ c = ']') ∧ ∃ value, t = ⟨.done value, []⟩ := by
  have hend : ∀ stack value, endValue stack value c = some t → stack ≠ [] →
      (c = '}' ∨ c = ']') ∧ ∃ value, t = ⟨.done value, []⟩ := by
    intro stack value h hs
    rcases endValue_cases h with ⟨-, rfl⟩ | ⟨items, rest, rfl, ⟨-, rfl⟩ | ⟨rfl, rfl⟩⟩ |
      ⟨fields, key, rest, rfl, ⟨-, rfl⟩ | ⟨rfl, rfl⟩⟩
    · exact absurd ht hs
    · cases ht
    · obtain rfl : rest = [] := ht
      exact ⟨.inr rfl, _, rfl⟩
    · cases ht
    · obtain rfl : rest = [] := ht
      exact ⟨.inl rfl, _, rfl⟩
  obtain ⟨reading, stack⟩ := s
  cases reading with
  | value closes =>
      change beginValue stack closes c = some t at h
      by_cases hspace : isJsonSpace c = true
      · rw [beginValue_space hspace] at h
        cases h
        exact absurd ht hs
      by_cases hc : c = ']'
      · subst hc
        obtain ⟨-, items, rest, rfl, rfl⟩ := beginValue_bracket h
        obtain rfl : rest = [] := ht
        exact ⟨rfl, .inr rfl, _, rfl⟩
      · rw [beginValue_above stack closes (Bool.eq_false_iff.mpr hspace) hc] at h
        obtain ⟨u, -, rfl⟩ := Option.map_eq_some_iff.mp h
        exact absurd (List.append_eq_nil_iff.mp ht).2 hs
  | key closes =>
      change stepKey stack closes c = some t at h
      unfold stepKey at h
      split_ifs at h with hspace hquote hbrace
      · cases h
        exact absurd ht hs
      · cases h
        exact absurd ht hs
      · rw [Bool.and_eq_true, decide_eq_true_eq] at hbrace
        obtain ⟨frame, rest, rfl⟩ := List.exists_cons_of_ne_nil hs
        cases frame with
        | array items => cases h
        | object fields key =>
            cases h
            obtain rfl : rest = [] := ht
            exact ⟨rfl, .inl hbrace.2, _, rfl⟩
  | colon =>
      change stepColon stack c = some t at h
      unfold stepColon at h
      split_ifs at h
      · cases h
        exact absurd ht hs
      · cases h
        exact absurd ht hs
  | string ofKey acc escape =>
      change stepString stack ofKey acc escape c = some t at h
      obtain ⟨rfl, rfl⟩ | ⟨acc', escape', hopen⟩ | hnone := stepString_cases acc escape c
      · obtain ⟨frame, rest, rfl⟩ := List.exists_cons_of_ne_nil hs
        cases ofKey with
        | false =>
            cases h
            cases ht
        | true =>
            cases frame with
            | array items => cases h
            | object fields key =>
                cases h
                cases ht
      · rw [hopen] at h
        cases h
        exact absurd ht hs
      · rw [hnone] at h
        cases h
  | number numeral phase =>
      change stepNumber stack numeral phase c = some t at h
      unfold stepNumber at h
      cases hnext : phase.next c with
      | some next =>
          rw [hnext] at h
          cases h
          exact absurd ht hs
      | none =>
          rw [hnext] at h
          dsimp only at h
          split_ifs at h
          exact ⟨rfl, hend _ _ h hs⟩
  | word w seen =>
      change stepWord stack w seen c = some t at h
      unfold stepWord at h
      split_ifs at h
      · cases h
        exact absurd ht hs
      · cases h
        exact absurd ht hs
  | done value => exact ⟨rfl, hend _ _ h hs⟩

/-- **The loop over an array or an object ends where it does.** -/
theorem afterContainer_run (hrun : jsonRun s text = some u) (hs : s.stack ≠ [])
    (hu : u.stack = []) (hlast : ∀ c, text.getLast? = some c → isJsonSpace c = false) :
    afterContainer (scanOf 0 s) (text ++ rest) = some rest := by
  induction text generalizing s with
  | nil =>
      cases hrun
      exact absurd hu hs
  | cons c text ih =>
      obtain ⟨t, hstep, hmore⟩ := Option.bind_eq_some_iff.mp hrun
      have hnext : (scanOf 0 s).next c = scanOf 0 t := scan_step hstep
      rw [List.cons_append, afterContainer, hnext]
      by_cases ht : t.stack = []
      · obtain ⟨hinside, hc, value, rfl⟩ := step_last hstep hs ht
        obtain rfl := rest_eq_nil hmore fun d hd => hlast d (getLast?_tail [] c hd)
        rw [if_pos ⟨hinside, hc, rfl⟩, List.nil_append]
      · have hdepth : (scanOf 0 t).depth ≠ 0 := by
          have hlength := List.length_pos_iff.mpr ht
          change (0 : Int) + t.stack.length ≠ 0
          omega
        rw [if_neg fun hand => hdepth hand.2.2]
        exact ih hmore ht fun d hd => hlast d (getLast?_tail [] c hd)

theorem literal_of_token (hc : isTokenChar c = true) :
    afterLiteral (c :: text) = afterNumber (c :: text) := by
  have hnone : ∀ (first : Char) (letters : Text), isTokenChar first = false →
      (c :: text).dropPrefix? (first :: letters) = none := by
    intro first letters hfirst
    have hne : c ≠ first := by
      rintro rfl
      rw [hc] at hfirst
      cases hfirst
    simp [List.dropPrefix?, hne]
  rw [afterLiteral, hnone 't' _ rfl, hnone 'f' _ rfl, hnone 'n' _ rfl]
  rfl

theorem index_of_token (hc : isTokenChar c = true) :
    indexAfterJsonValue (c :: text) = afterNumber (c :: text) := by
  have hspace : isJsonSpace c = false := by
    by_contra hno
    have hnot := token_of_follows (.inl (Bool.not_eq_false _ ▸ hno))
    rw [hc] at hnot
    cases hnot
  obtain ⟨hquote, hbrace, hbracket, -, -⟩ := other_of_token hc
  rw [indexAfterJsonValue, skipWs, List.dropWhile_cons_of_neg (Bool.eq_false_iff.mp hspace)]
  dsimp only
  rw [if_neg hquote, if_neg (not_or.mpr ⟨hbrace, hbracket⟩), literal_of_token hc]

/-- A value is followed by what ends it. -/
theorem index_of_shape (h : JsonShape text value) (hc : FollowsValue c) :
    indexAfterJsonValue (text ++ c :: rest) = some (c :: rest) := by
  cases h with
  | object o =>
      have hopen : ∀ more, indexAfterJsonValue ('{' :: more) =
          afterContainer (scanOf 0 ⟨.key true, [.object [] []]⟩) more := fun _ => rfl
      have hrun : jsonRun ⟨.key true, [.object [] []]⟩
          (listText o.inner (o.members.map JsonMember.text) ++ ['}']) =
          some ⟨.done (.object o.fields), []⟩ := run_members o.inner o.members fun _ => rfl
      rw [ObjectSource.text, List.cons_append, hopen]
      refine afterContainer_run hrun (List.cons_ne_nil _ _) rfl ?_
      intro d hd
      rw [List.getLast?_concat] at hd
      cases hd
      rfl
  | array a =>
      have hopen : ∀ more, indexAfterJsonValue ('[' :: more) =
          afterContainer (scanOf 0 ⟨.value true, [.array []]⟩) more := fun _ => rfl
      have hrun : jsonRun ⟨.value true, [.array []]⟩
          (listText a.inner (a.items.map JsonItem.text) ++ [']']) =
          some ⟨.done (.array a.values), []⟩ := run_items a.inner a.items fun _ => rfl
      rw [ArraySource.text, List.cons_append, hopen]
      refine afterContainer_run hrun (List.cons_ne_nil _ _) rfl ?_
      intro d hd
      rw [List.getLast?_concat] at hd
      cases hd
      rfl
  | @string raw name spelled =>
      have hopen : ∀ more, indexAfterJsonValue ('"' :: more) = afterString false more :=
        fun _ => rfl
      rw [List.cons_append, hopen, List.append_assoc]
      exact afterString_run spelled
  | number numeral =>
      obtain ⟨d, more, rfl⟩ := List.exists_cons_of_ne_nil (numeral_ne_nil numeral)
      rw [List.cons_append, index_of_token (token_of_numeral numeral d List.mem_cons_self),
        ← List.cons_append]
      exact afterNumber_numeral numeral hc
  | word w =>
      cases w with
      | null => rfl
      | true => rfl
      | false => rfl

end Ends

/-! ## The spans -/

section Spans

variable {c : Char} {text rest : Text} {spans : List Text} {fuel : Nat}

theorem skipWs_spaces (before : Spaces) (hspace : isJsonSpace c = false) :
    skipWs (before.text ++ c :: rest) = c :: rest := by
  rw [skipWs, List.dropWhile_append_of_pos before.spaces,
    List.dropWhile_cons_of_neg (Bool.eq_false_iff.mp hspace)]

theorem slice_append (text rest : Text) : slice (text ++ rest) rest = text := by
  rw [slice, List.length_append, Nat.add_sub_cancel, List.take_left' rfl]

/-- A turn that finds a value. -/
theorem spansFrom_value (source : JsonSource) (before : Spaces) (hc : FollowsValue c) :
    spansFrom true spans (fuel + 1) (before.text ++ (source.text ++ c :: rest)) =
      spansFrom false (spans ++ [source.text]) fuel (c :: rest) := by
  obtain ⟨first, own, s, u, htext, hspace, hbegin, -, -⟩ := source.begins
  have hindex : indexAfterJsonValue (source.text ++ c :: rest) = some (c :: rest) :=
    index_of_shape source.shape hc
  have hslice := slice_append source.text (c :: rest)
  have hfirst : first ≠ ']' ∧ first ≠ ',' := by
    constructor <;> rintro rfl <;> cases hbegin
  rw [htext, List.cons_append] at hindex hslice
  rw [htext, List.cons_append, spansFrom, skipWs_spaces before hspace]
  dsimp only
  rw [if_neg hfirst.1, if_neg hfirst.2, hindex]
  rw [if_neg (by decide)]
  dsimp only
  rw [hslice]

/-- A turn that finds the bracket. -/
theorem spansFrom_bracket (expectValue : Bool) (before : Spaces) :
    spansFrom expectValue spans (fuel + 1) (before.text ++ ']' :: rest) = some spans := by
  rw [spansFrom, skipWs_spaces before rfl]
  rfl

/-- A turn that finds a comma. -/
theorem spansFrom_comma (before : Spaces) :
    spansFrom false spans (fuel + 1) (before.text ++ ',' :: rest) =
      spansFrom true spans fuel rest := by
  rw [spansFrom, skipWs_spaces before rfl]
  rfl

theorem spansFrom_item (i : JsonItem) (hc : FollowsValue c) :
    spansFrom true spans (fuel + 1) (i.text ++ c :: rest) =
      spansFrom false (spans ++ [i.source.text]) fuel (i.after.text ++ c :: rest) := by
  obtain ⟨d, more, hmore, hd⟩ := i.after.follows hc rest
  rw [JsonItem.text, List.append_assoc, List.append_assoc, hmore]
  exact spansFrom_value i.source i.before hd

theorem spansFrom_items (inner : Spaces) (items : List JsonItem)
    (hfuel : (listText inner (items.map JsonItem.text) ++ ']' :: rest).length < fuel) :
    spansFrom true spans fuel (listText inner (items.map JsonItem.text) ++ ']' :: rest) =
      some (spans ++ items.map fun i => i.source.text) := by
  induction items generalizing spans fuel with
  | nil =>
      obtain ⟨fuel, rfl⟩ := Nat.exists_eq_succ_of_ne_zero (Nat.ne_zero_of_lt hfuel)
      rw [List.map_nil, listText, spansFrom_bracket, List.map_nil, List.append_nil]
  | cons i items ih =>
      have hitem : 0 < i.text.length := by
        obtain ⟨first, own, s, u, htext, -⟩ := i.source.begins
        simp only [JsonItem.text, htext, List.length_append, List.length_cons]
        omega
      cases items with
      | nil =>
          rw [List.map_singleton, listText, List.intercalate_singleton, List.length_append,
            List.length_cons] at hfuel
          obtain ⟨fuel, rfl⟩ : ∃ more, fuel = more + 2 := ⟨fuel - 2, by omega⟩
          rw [List.map_singleton, listText, List.intercalate_singleton,
            spansFrom_item i (.inr (.inr (.inl rfl))), spansFrom_bracket, List.map_singleton]
      | cons next items =>
          rw [List.map_cons, List.map_cons, listText_cons_cons, List.append_assoc,
            List.cons_append, List.length_append, List.length_cons, ← List.map_cons] at hfuel
          obtain ⟨fuel, rfl⟩ : ∃ more, fuel = more + 2 := ⟨fuel - 2, by omega⟩
          rw [List.map_cons, List.map_cons, listText_cons_cons, List.append_assoc,
            List.cons_append, spansFrom_item i (.inr (.inl rfl)), spansFrom_comma,
            ← List.map_cons, ih (by omega), List.append_assoc]
          rfl

/-- **The spans of an array are the sources of its items.** -/
theorem topLevelArraySpans_array (before after : Spaces) (array : ArraySource) :
    topLevelArraySpans (before.text ++ (array.text ++ after.text)) =
      some (array.items.map fun i => i.source.text) := by
  have hmark : (before.text ++ (array.text ++ after.text)).head? ≠ some '\ufeff' := by
    obtain ⟨front, hfront⟩ := before
    cases front with
    | nil => exact fun h => by cases h
    | cons c front =>
        intro h
        cases h
        exact absurd (hfront '\ufeff' List.mem_cons_self) (by decide)
  have hskip : skipWs (before.text ++ (array.text ++ after.text)) =
      '[' :: (listText array.inner (array.items.map JsonItem.text) ++ ']' :: after.text) := by
    rw [ArraySource.text, List.cons_append, skipWs_spaces before rfl, List.append_assoc]
    rfl
  rw [topLevelArraySpans, if_neg hmark, hskip]
  exact spansFrom_items array.inner array.items (Nat.lt_succ_self _)

end Spans

end Veto.Watcher.Feed

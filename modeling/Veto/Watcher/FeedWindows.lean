import Veto.Watcher.FeedTokens

/-!
# The windows of the feed

What `parseFeedBody` returns for a text that `JSON.parse` accepts as an array: in order, a window for
each element that has one.  A price that is a number is the token of its own member, whose key is
spelled without escapes; under an escaped key it is no price.
-/

namespace Veto.Watcher.Feed

open Foundation

/-! ## What a window is -/

/-- A decimal the money path prices, as it is written. -/
def IsPriced (value : JsString) : Prop :=
  ∃ text scaled, value = utf16 text ∧ trim text = text ∧ sekPerKwhToScaled text = .ok scaled

/-- The price of the member that is kept. -/
inductive PriceOf (m : JsonMember) : JsString → Prop
  | quoted {price : JsString} (value : m.source.value = .string price) (priced : IsPriced price) :
      PriceOf m price
  | token {numeral : Text} (value : m.source.value = .number numeral)
      (finite : isFiniteNumber numeral = true) (literal : m.raw = PRICE_KEY) :
      PriceOf m (utf16 m.source.text)

/-- The window of an object. -/
structure IsWindow (o : ObjectSource) (w : PriceWindow) : Prop where
  timeStart : ∃ m, o.Keeps (js "time_start") m ∧ m.source.value = .string w.timeStart
  timeStart_ne_nil : w.timeStart ≠ []
  timeEnd : ∃ m, o.Keeps (js "time_end") m ∧ m.source.value = .string w.timeEnd
  timeEnd_ne_nil : w.timeEnd ≠ []
  price : ∃ m, o.Keeps (js "SEK_per_kWh") m ∧ PriceOf m w.sekPerKwh

/-- The price is a number under an escaped key, and beside it stands a number or a string under the
key as it is. -/
def Mixed (o : ObjectSource) : Prop :=
  ∃ m numeral, o.Keeps (js "SEK_per_kWh") m ∧ m.source.value = .number numeral ∧
    isFiniteNumber numeral = true ∧ m.raw ≠ PRICE_KEY ∧
    ∃ other ∈ o.members, other.raw = PRICE_KEY ∧
      ((∃ text, other.source.value = .number text) ∨ ∃ text, other.source.value = .string text)

/-! ## The price -/

section Price

variable {o : ObjectSource} {m : JsonMember} {value : JsonValue} {text numeral : Text}
  {price : JsString}

theorem isPriced_ne_nil (h : IsPriced price) : price ≠ [] := by
  rintro rfl
  obtain ⟨text, scaled, hutf, -, hscaled⟩ := h
  have hdecode := decodeUtf16_utf16 text
  rw [← hutf] at hdecode
  cases hdecode
  cases hscaled

theorem quotedPriceIsDecimal_iff : quotedPriceIsDecimal price = true ↔ IsPriced price := by
  unfold quotedPriceIsDecimal
  constructor
  · intro h
    cases hdecode : decodeUtf16 price with
    | none =>
        rw [hdecode] at h
        cases h
    | some text =>
        rw [hdecode] at h
        dsimp only at h
        split_ifs at h with hno
        cases hscaled : sekPerKwhToScaled text with
        | error e =>
            rw [hscaled] at h
            cases h
        | ok scaled =>
            exact ⟨text, scaled, (utf16_of_decode hdecode).symm,
              (not_not.mp fun hne => hno (.inr fun heq => hne heq.symm)), hscaled⟩
  · intro h
    have hne := isPriced_ne_nil h
    obtain ⟨text, scaled, rfl, htrim, hscaled⟩ := h
    have htext : text ≠ [] := by
      rintro rfl
      exact hne rfl
    rw [decodeUtf16_utf16]
    dsimp only
    rw [if_neg (not_or.mpr ⟨htext, not_not.mpr htrim.symm⟩), hscaled]

theorem shape_number (h : JsonShape text value) (hvalue : value = .number numeral) :
    text = numeral ∧ JsonNumeral text := by
  cases h with
  | object o => cases hvalue
  | array a => cases hvalue
  | string spelled => cases hvalue
  | number h =>
      cases hvalue
      exact ⟨rfl, h⟩
  | word w => cases w <;> cases hvalue

/-- A token is that of a number or of a string. -/
theorem value_of_token (h : JsonShape text value) (htoken : matchToken text ≠ none) :
    (∃ text, value = .number text) ∨ ∃ text, value = .string text := by
  cases h with
  | object o => exact absurd rfl htoken
  | array a => exact absurd rfl htoken
  | string spelled => exact .inr ⟨_, rfl⟩
  | number h => exact .inl ⟨_, rfl⟩
  | word w => cases w <;> exact absurd rfl htoken

theorem foldl_tokens (members : List JsonMember) (found : Option Text)
    (hnone : ∀ m ∈ members, memberToken m = none) :
    members.foldl (fun found m => (memberToken m).or found) found = found := by
  induction members generalizing found with
  | nil => rfl
  | cons m members ih =>
      rw [List.foldl_cons, hnone m List.mem_cons_self, Option.none_or]
      exact ih found fun later hlater => hnone later (List.mem_cons_of_mem _ hlater)

/-- A key that is spelled as it is, is that key. -/
theorem key_of_literal (h : m.raw = PRICE_KEY) : m.key = js "SEK_per_kWh" := by
  have hspells : Spells PRICE_KEY (js "SEK_per_kWh") := rfl
  exact (h ▸ m.spelled).unique hspells

/-- **The token of the price is that of its own member.** -/
theorem token_of_literal (hkeeps : o.Keeps (js "SEK_per_kWh") m)
    (hvalue : m.source.value = .number numeral) (hraw : m.raw = PRICE_KEY) :
    topLevelSekToken o.text = some m.source.text := by
  obtain ⟨front, back, hmembers, -, hback⟩ := hkeeps
  have hlater : ∀ later ∈ back, memberToken later = none := fun later hlater =>
    if_neg fun hliteral => hback later hlater (key_of_literal hliteral)
  rw [topLevelSekToken_object, hmembers, List.foldl_append, List.foldl_cons,
    foldl_tokens back _ hlater, memberToken, if_pos hraw,
    matchToken_numeral (shape_number m.source.shape hvalue).2, Option.some_or]

/-- Where the key of the price is escaped, there is no token. -/
theorem token_of_escaped (hmixed : ¬ Mixed o) (hkeeps : o.Keeps (js "SEK_per_kWh") m)
    (hvalue : m.source.value = .number numeral) (hfinite : isFiniteNumber numeral = true)
    (hraw : m.raw ≠ PRICE_KEY) : topLevelSekToken o.text = none := by
  rw [topLevelSekToken_object]
  refine foldl_tokens o.members none fun other hother => ?_
  unfold memberToken
  split_ifs with hliteral
  · by_contra htoken
    exact hmixed ⟨m, numeral, hkeeps, hvalue, hfinite, hraw, other, hother, hliteral,
      value_of_token other.source.shape htoken⟩
  · rfl

theorem utf16_ne_nil (h : text ≠ []) : utf16 text ≠ [] := by
  intro hnil
  have hdecode := decodeUtf16_utf16 text
  rw [hnil] at hdecode
  cases hdecode
  exact h rfl

/-- **The price of a window.** -/
theorem sekFromParsed_iff (hmixed : ¬ Mixed o) (hkeeps : o.Keeps (js "SEK_per_kWh") m) :
    sekFromParsed m.source.value (topLevelSekToken o.text) = some price ∧ price ≠ [] ↔
      PriceOf m price := by
  constructor
  · rintro ⟨hsek, hne⟩
    unfold sekFromParsed at hsek
    split at hsek
    · rename_i value hvalue
      split_ifs at hsek with hpriced
      cases hsek
      exact .quoted hvalue (quotedPriceIsDecimal_iff.mp hpriced)
    · rename_i numeral hvalue
      split_ifs at hsek with hfinite
      by_cases hraw : m.raw = PRICE_KEY
      · rw [token_of_literal hkeeps hvalue hraw] at hsek
        dsimp only at hsek
        split_ifs at hsek
        cases hsek
        exact .token hvalue hfinite hraw
      · rw [token_of_escaped hmixed hkeeps hvalue hfinite hraw] at hsek
        cases hsek
    · cases hsek
  · intro h
    cases h with
    | quoted value priced =>
        refine ⟨?_, isPriced_ne_nil priced⟩
        rw [value]
        exact if_pos (quotedPriceIsDecimal_iff.mpr priced)
    | @token numeral value finite literal =>
        have hne := numeral_ne_nil (shape_number m.source.shape value).2
        refine ⟨?_, utf16_ne_nil hne⟩
        rw [token_of_literal hkeeps value literal, value]
        unfold sekFromParsed
        dsimp only
        rw [if_pos finite, if_neg hne]

end Price

/-! ## The windows -/

section Windows

variable {o : ObjectSource} {w : PriceWindow} {fields : List (JsString × JsonValue)}
  {span : Option Text} {time : JsString}

theorem timeOf_eq_some {value : Option JsonValue} :
    timeOf value = some time ↔ value = some (.string time) ∧ time ≠ [] := by
  unfold timeOf
  constructor
  · intro h
    split at h
    · split_ifs at h with hnil
      cases h
      exact ⟨rfl, hnil⟩
    · cases h
  · rintro ⟨rfl, hne⟩
    exact if_neg hne

theorem windowOf_eq_some : windowOf (.object fields) span = some w ↔
    timeOf (property fields (js "time_start")) = some w.timeStart ∧
    timeOf (property fields (js "time_end")) = some w.timeEnd ∧
    ∃ value, property fields (js "SEK_per_kWh") = some value ∧
      sekFromParsed value (span.bind topLevelSekToken) = some w.sekPerKwh ∧ w.sekPerKwh ≠ [] := by
  constructor
  · intro h
    obtain ⟨timeStart, hstart, h⟩ := Option.bind_eq_some_iff.mp h
    obtain ⟨timeEnd, hend, h⟩ := Option.bind_eq_some_iff.mp h
    obtain ⟨value, hvalue, h⟩ := Option.bind_eq_some_iff.mp h
    obtain ⟨price, hprice, h⟩ := Option.bind_eq_some_iff.mp h
    split_ifs at h with hnil
    cases h
    exact ⟨hstart, hend, value, hvalue, hprice, hnil⟩
  · rintro ⟨hstart, hend, value, hvalue, hprice, hnil⟩
    refine Option.bind_eq_some_iff.mpr ⟨_, hstart, ?_⟩
    refine Option.bind_eq_some_iff.mpr ⟨_, hend, ?_⟩
    refine Option.bind_eq_some_iff.mpr ⟨_, hvalue, ?_⟩
    refine Option.bind_eq_some_iff.mpr ⟨_, hprice, ?_⟩
    exact if_neg hnil

/-- **The window of an object that is no mixed one.** -/
theorem windowOf_object (hmixed : ¬ Mixed o) :
    windowOf (.object o.fields) (some o.text) = some w ↔ IsWindow o w := by
  rw [windowOf_eq_some, timeOf_eq_some, timeOf_eq_some, property_eq_some, property_eq_some,
    Option.bind_some]
  constructor
  · rintro ⟨⟨hstart, hstartne⟩, ⟨hend, hendne⟩, value, hvalue, hprice⟩
    obtain ⟨m, hkeeps, rfl⟩ := property_eq_some.mp hvalue
    exact ⟨hstart, hstartne, hend, hendne, m, hkeeps, (sekFromParsed_iff hmixed hkeeps).mp hprice⟩
  · rintro ⟨hstart, hstartne, hend, hendne, m, hkeeps, hprice⟩
    exact ⟨⟨hstart, hstartne⟩, ⟨hend, hendne⟩, _, property_of_keeps hkeeps,
      (sekFromParsed_iff hmixed hkeeps).mpr hprice⟩

end Windows

/-! ## The elements of a document -/

/-- A text that is an array. -/
structure Document where
  before : Spaces
  array : ArraySource
  after : Spaces

namespace Document

def text (d : Document) : Text := d.before.text ++ (d.array.text ++ d.after.text)

def elements (d : Document) : List JsonSource := d.array.items.map (·.source)

theorem parses (d : Document) : jsonParse d.text = some (.array (d.elements.map (·.value))) := by
  have hopen : ∀ more, jsonRun ⟨.value false, []⟩ ('[' :: more) =
      jsonRun ⟨.value true, [.array []]⟩ more := fun _ => rfl
  have hafter : jsonRun ⟨.done (.array d.array.values), []⟩ d.after.text =
      some ⟨.done (.array d.array.values), []⟩ := by
    rw [← List.append_nil d.after.text, done_spaces]
    rfl
  have hvalues : d.elements.map (·.value) = d.array.values := List.map_map
  rw [jsonParse, text, value_spaces, ArraySource.text, List.cons_append, hopen, List.append_assoc,
    List.singleton_append, run_items d.array.inner d.array.items fun _ => rfl, hvalues]
  exact congrArg (·.bind (·.finish)) hafter

end Document

/-- Every array has its elements. -/
theorem exists_document {text : Text} {values : List JsonValue}
    (h : jsonParse text = some (.array values)) : ∃ d : Document, d.text = text := by
  obtain ⟨before, source, after, rfl, hvalue⟩ := exists_source h
  have harray : ∀ {text value}, JsonShape text value → value = .array values →
      ∃ a : ArraySource, a.text = text := by
    intro text value hshape hvalue
    cases hshape with
    | array a => exact ⟨a, rfl⟩
    | object o => cases hvalue
    | string spelled => cases hvalue
    | number numeral => cases hvalue
    | word w => cases w <;> cases hvalue
  obtain ⟨a, ha⟩ := harray source.shape hvalue
  exact ⟨⟨before, a, after⟩, by rw [Document.text, ha]⟩

/-- The window of an element. -/
def HasWindow (source : JsonSource) (w : PriceWindow) : Prop :=
  ∃ o : ObjectSource, o.text = source.text ∧ IsWindow o w

def MixedElement (source : JsonSource) : Prop :=
  ∃ o : ObjectSource, o.text = source.text ∧ Mixed o

section Elements

variable {source : JsonSource} {w : PriceWindow}

/-- **The window of an element that is no mixed one.** -/
theorem windowOf_element (hmixed : ¬ MixedElement source) :
    windowOf source.value (some source.text) = some w ↔ HasWindow source w := by
  have hobject : ∀ {text value}, JsonShape text value → text = source.text →
      windowOf value (some text) = some w → HasWindow source w := by
    intro text value hshape htext hw
    cases hshape with
    | object o =>
        have hnot : ¬ Mixed o := fun hmix => hmixed ⟨o, htext, hmix⟩
        exact ⟨o, htext, (windowOf_object hnot).mp hw⟩
    | array a => cases hw
    | string spelled => cases hw
    | number numeral => cases hw
    | word word => cases word <;> cases hw
  constructor
  · exact hobject source.shape rfl
  · rintro ⟨o, htext, hwindow⟩
    have hnot : ¬ Mixed o := fun hmix => hmixed ⟨o, htext, hmix⟩
    have hvalue : source.value = .object o.fields :=
      Option.some.inj (source.parses.symm.trans (htext ▸ o.parses))
    rw [hvalue, ← htext]
    exact (windowOf_object hnot).mpr hwindow

/-- Each turn has the value and the span of its own element. -/
theorem filterMap_elements (elements : List JsonSource) (front : List Text) :
    ((elements.map (·.value)).zipIdx front.length).filterMap
        (fun (item, i) => windowOf item (front ++ elements.map (·.text))[i]?) =
      elements.filterMap fun source => windowOf source.value (some source.text) := by
  induction elements generalizing front with
  | nil => rfl
  | cons source elements ih =>
      have hspan : (front ++ source.text :: elements.map (·.text))[front.length]? =
          some source.text := by
        simp
      have hrest := ih (front ++ [source.text])
      rw [List.length_append, List.length_singleton, List.append_assoc,
        List.singleton_append] at hrest
      rw [List.map_cons, List.map_cons, List.zipIdx_cons, List.filterMap_cons, List.filterMap_cons]
      dsimp only
      rw [hspan, hrest]

theorem parseFeedBody_document (d : Document) :
    parseFeedBody d.text =
      d.elements.filterMap fun source => windowOf source.value (some source.text) := by
  have hspans : topLevelArraySpans d.text = some (d.elements.map (·.text)) := by
    rw [Document.text, topLevelArraySpans_array, Document.elements, List.map_map]
    rfl
  rw [parseFeedBody, d.parses]
  dsimp only
  rw [hspans]
  exact filterMap_elements d.elements []

end Elements

/-- For every text that is an array: in order, one window for exactly each element that has one, a
mixed element apart. -/
theorem parseFeedBody_windows {text : Text} {values : List JsonValue}
    (h : jsonParse text = some (.array values)) :
    (∃ d : Document, d.text = text) ∧
    ∀ d : Document, d.text = text →
      d.elements.map (·.value) = values ∧
      ∃ window : JsonSource → Option PriceWindow,
        parseFeedBody text = d.elements.filterMap window ∧
        ∀ source ∈ d.elements, ¬ MixedElement source →
          ∀ w, window source = some w ↔ HasWindow source w := by
  refine ⟨exists_document h, ?_⟩
  rintro d rfl
  have hvalues : d.elements.map (·.value) = values := by
    have harray := Option.some.inj (d.parses.symm.trans h)
    injection harray
  exact ⟨hvalues, _, parseFeedBody_document d, fun source _ hmixed w => windowOf_element hmixed⟩

/-- A price that comes twice, and a nested one. -/
def duplicateBody : Text :=
  ("[\x7b\"SEK_per_kWh\" : 3e-1,\"meta\":\x7b\"SEK_per_kWh\":9\x7d," ++
    "\"time_start\":\"a\",\"time_end\":\"b\",\"SEK_per_kWh\":0.5\x7d]").toList

example : parseFeedBody duplicateBody = [⟨js "a", js "b", js "0.5"⟩] := by decide +kernel

theorem parseFeedBody_duplicate :
    (∃ d : Document, d.text = duplicateBody) ∧
    ∀ d : Document, d.text = duplicateBody →
      d.elements.map (·.value) = [.object [(js "SEK_per_kWh", .number ['0', '.', '5']),
        (js "meta", .object [(js "SEK_per_kWh", .number ['9'])]),
        (js "time_start", .string (js "a")), (js "time_end", .string (js "b"))]] ∧
      ∃ window : JsonSource → Option PriceWindow,
        parseFeedBody duplicateBody = d.elements.filterMap window ∧
        ∀ source ∈ d.elements, ¬ MixedElement source →
          ∀ w, window source = some w ↔ HasWindow source w :=
  parseFeedBody_windows rfl

def escapedBody : Text :=
  ("[\x7b\"SEK_per_k\\u0057h\":1,\"time_start\":\"a\",\"time_end\":\"b\"\x7d]").toList

/-- A number under an escaped key is kept by `JSON.parse`, and has no window. -/
theorem parseFeedBody_escaped_key :
    jsonParse escapedBody = some (.array [.object [(js "SEK_per_kWh", .number ['1']),
      (js "time_start", .string (js "a")), (js "time_end", .string (js "b"))]]) ∧
    isFiniteNumber ['1'] = true ∧ parseFeedBody escapedBody = [] :=
  ⟨rfl, by decide +kernel, by decide +kernel⟩

end Veto.Watcher.Feed

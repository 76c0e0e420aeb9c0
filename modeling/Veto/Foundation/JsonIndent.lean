import Veto.Foundation.JsonSource

/-!
# JSON on lines

`JSON.stringify(value, null, 2)`: every item and every member stands on a line of its own, two
spaces deeper than what it is in.  What is written is read as the same value.
-/

namespace Veto.Foundation

/-- A line break, and two spaces for each level. -/
def lineBreak (depth : Nat) : Text := '\n' :: List.replicate (2 * depth) ' '

/-- Pieces in brackets, each on a line of its own. -/
def block (opening closing : Char) (depth : Nat) (pieces : List Text) : Text :=
  match pieces with
  | [] => [opening, closing]
  | _ => opening :: ([','].intercalate (pieces.map (lineBreak (depth + 1) ++ ·)) ++
      (lineBreak depth ++ [closing]))

mutual

/-- `JSON.stringify(value, null, 2)`, of a value at a level. -/
def indented (depth : Nat) : JsonValue → Text
  | .null => Word.null.letters
  | .bool value => if value then Word.true.letters else Word.false.letters
  | .number numeral => numeral
  | .string text => quote text
  | .array items => block '[' ']' depth (indentedItems (depth + 1) items)
  | .object fields => block '{' '}' depth (indentedFields (depth + 1) fields)

def indentedItems (depth : Nat) : List JsonValue → List Text
  | [] => []
  | item :: items => indented depth item :: indentedItems depth items

def indentedField (depth : Nat) : JsString × JsonValue → Text
  | (key, value) => quote key ++ ':' :: ' ' :: indented depth value

def indentedFields (depth : Nat) : List (JsString × JsonValue) → List Text
  | [] => []
  | field :: fields => indentedField depth field :: indentedFields depth fields

end

theorem indentedItems_eq (depth : Nat) (items : List JsonValue) :
    indentedItems depth items = items.map (indented depth) := by
  induction items with
  | nil => rfl
  | cons item items ih => rw [indentedItems, ih, List.map_cons]

theorem indentedFields_eq (depth : Nat) (fields : List (JsString × JsonValue)) :
    indentedFields depth fields = fields.map (indentedField depth) := by
  induction fields with
  | nil => rfl
  | cons field fields ih => rw [indentedFields, ih, List.map_cons]

/-- A value whose numerals are those of whole numbers, and whose objects have each key once. -/
inductive Printable : JsonValue → Prop
  | null : Printable .null
  | bool (value : Bool) : Printable (.bool value)
  | number (n : Int) : Printable (.number (numeral n))
  | string (text : JsString) : Printable (.string text)
  | array {items : List JsonValue} (printable : ∀ item ∈ items, Printable item) :
      Printable (.array items)
  | object {fields : List (JsString × JsonValue)} (printable : ∀ field ∈ fields, Printable field.2)
      (distinct : (fields.map Prod.fst).Nodup) : Printable (.object fields)

/-! ## The sources of values -/

section Sources

variable {depth : Nat}

def Word.source (w : Word) : JsonSource where
  text := w.letters
  value := w.value
  parses := by cases w <;> rfl
  head c hc := by
    cases w <;> cases hc <;> rfl
  last c hc := by
    cases w <;> cases hc <;> rfl

def stringSource (text : JsString) : JsonSource where
  text := quote text
  value := .string text
  parses := by
    rw [jsonParse, (path_quote (Nat.zero_le _) text).run]
    rfl
  head c hc := by
    cases hc
    rfl
  last c hc := by
    rw [quote, getLast?_bracket] at hc
    cases hc
    rfl

/-- A numeral has no spaces in it. -/
theorem not_space_of_numeral {n : Int} {c : Char} (h : c ∈ numeral n) : isJsonSpace c = false := by
  have hdigits : ∀ m, c ∈ Nat.toDigits 10 m → isJsonSpace c = false := by
    intro m hc
    have hdigit := Nat.isDigit_of_mem_toDigits (by decide) (by decide) hc
    rw [Char.isDigit_iff_toNat] at hdigit
    refine Bool.eq_false_iff.mpr fun hspace => ?_
    simp only [isJsonSpace, Bool.or_eq_true, decide_eq_true_eq] at hspace
    rcases hspace with ((rfl | rfl) | rfl) | rfl <;> exact absurd hdigit (by decide)
  unfold numeral at h
  split at h
  · rcases List.mem_cons.mp h with rfl | hc
    · decide
    · exact hdigits _ hc
  · exact hdigits _ h

def numeralSource (n : Int) : JsonSource where
  text := numeral n
  value := .number (numeral n)
  parses := by
    obtain ⟨phase, hphase, hpath⟩ := path_numeral (Nat.zero_le _) n
    rw [jsonParse, hpath.run]
    rcases hphase with rfl | rfl <;> rfl
  head c hc := not_space_of_numeral (List.mem_of_mem_head? hc)
  last c hc := not_space_of_numeral (List.mem_of_mem_getLast? hc)

def lineSpaces (depth : Nat) : Spaces where
  text := lineBreak depth
  spaces c hc := by
    rcases List.mem_cons.mp hc with rfl | hc
    · rfl
    · rw [List.eq_of_mem_replicate hc]
      rfl

def noSpaces : Spaces := ⟨[], fun _ hc => absurd hc List.not_mem_nil⟩

/-- Texts between commas, and what stands behind the last of them. -/
theorem intercalate_concat (front : List Text) (last tail : Text) :
    [','].intercalate (front ++ [last]) ++ tail = [','].intercalate (front ++ [last ++ tail]) := by
  induction front with
  | nil => rw [List.nil_append, List.nil_append, List.intercalate_singleton, List.intercalate_singleton]
  | cons text front ih =>
      cases front with
      | nil =>
          simp only [List.cons_append, List.nil_append, List.intercalate_cons_cons,
            List.intercalate_singleton, List.append_assoc]
      | cons next front =>
          simp only [List.cons_append, List.intercalate_cons_cons, List.append_assoc] at ih ⊢
          rw [← ih]

/-- A block of pieces, as a list of them with spaces around. -/
theorem block_eq (opening closing : Char) (depth : Nat) (front : List Text) (last : Text) :
    block opening closing depth (front ++ [last]) =
      opening :: ([','].intercalate ((front.map (lineBreak (depth + 1) ++ ·)) ++
        [lineBreak (depth + 1) ++ (last ++ lineBreak depth)]) ++ [closing]) := by
  have hblock : block opening closing depth (front ++ [last]) = opening ::
      ([','].intercalate ((front ++ [last]).map (lineBreak (depth + 1) ++ ·)) ++
        (lineBreak depth ++ [closing])) := by
    cases front <;> rfl
  rw [hblock, List.map_append, List.map_singleton, ← List.append_assoc, intercalate_concat,
    List.append_assoc]

theorem listText_ne_nil (inner : Spaces) {texts : List Text} (h : texts ≠ []) :
    listText inner texts = [','].intercalate texts := by
  cases texts with
  | nil => exact absurd rfl h
  | cons => rfl

def arraySource (a : ArraySource) : JsonSource where
  text := a.text
  value := .array a.values
  parses := a.parses
  head c hc := by
    cases hc
    rfl
  last c hc := by
    rw [ArraySource.text, getLast?_bracket] at hc
    cases hc
    rfl

/-- Lines of items are an array. -/
theorem block_items (depth : Nat) (sources : List JsonSource) :
    ∃ a : ArraySource, a.text = block '[' ']' depth (sources.map JsonSource.text) ∧
      a.values = sources.map JsonSource.value := by
  rcases List.eq_nil_or_concat sources with rfl | ⟨front, last, rfl⟩
  · exact ⟨⟨noSpaces, []⟩, rfl, rfl⟩
  · refine ⟨⟨noSpaces, (front.map fun source => ⟨lineSpaces (depth + 1), source, noSpaces⟩) ++
      [⟨lineSpaces (depth + 1), last, lineSpaces depth⟩]⟩, ?_, ?_⟩
    · rw [List.concat_eq_append, List.map_append, List.map_singleton, block_eq, ArraySource.text,
        listText_ne_nil _ (by simp)]
      simp [JsonItem.text, lineSpaces, noSpaces, Function.comp_def]
    · simp [ArraySource.values, Function.comp_def]

/-- A member on a line: its key, and the source of its value. -/
def lineMember (before : Spaces) (field : JsString × JsonSource) (after : Spaces) : JsonMember where
  before := before
  raw := quoteUnits field.1
  key := field.1
  spelled := by
    have hpath : jsonRun ⟨.string false [] .none, []⟩ (quoteUnits field.1) = _ :=
      (path_quoteUnits (Nat.zero_le _) field.1).run
    rw [Spells, jsonRun_append, hpath]
    rfl
  afterKey := noSpaces
  beforeValue := ⟨[' '], by simp [isJsonSpace]⟩
  source := field.2
  after := after

def memberPiece (field : JsString × JsonSource) : Text := quote field.1 ++ ':' :: ' ' :: field.2.text

theorem lineMember_text (before after : Spaces) (field : JsString × JsonSource) :
    (lineMember before field after).text = before.text ++ (memberPiece field ++ after.text) := by
  simp [JsonMember.text, lineMember, memberPiece, quote, noSpaces]

/-- Members of distinct keys are the properties of the object. -/
theorem foldl_addMember (members : List JsonMember) (fields : List (JsString × JsonValue))
    (h : (fields.map Prod.fst ++ members.map JsonMember.key).Nodup) :
    members.foldl ObjectSource.addMember fields =
      fields ++ members.map fun m => (m.key, m.source.value) := by
  induction members generalizing fields with
  | nil => rw [List.foldl_nil, List.map_nil, List.append_nil]
  | cons m members ih =>
      have hfresh : m.key ∉ fields.map Prod.fst := fun hmem =>
        (List.nodup_append.mp h).2.2 _ hmem _ List.mem_cons_self rfl
      rw [List.foldl_cons, ObjectSource.addMember, setField_fresh _ hfresh, ih]
      · rw [List.append_assoc, List.map_cons]
        rfl
      · rw [List.map_append, List.append_assoc]
        exact h

/-- Lines of members with distinct keys are an object. -/
theorem block_members (depth : Nat) (fields : List (JsString × JsonSource))
    (h : (fields.map Prod.fst).Nodup) :
    ∃ o : ObjectSource, o.text = block '{' '}' depth (fields.map memberPiece) ∧
      o.fields = fields.map fun field => (field.1, field.2.value) := by
  rcases List.eq_nil_or_concat fields with rfl | ⟨front, last, rfl⟩
  · exact ⟨⟨noSpaces, []⟩, rfl, rfl⟩
  · refine ⟨⟨noSpaces, (front.map fun field => lineMember (lineSpaces (depth + 1)) field noSpaces) ++
      [lineMember (lineSpaces (depth + 1)) last (lineSpaces depth)]⟩, ?_, ?_⟩
    · rw [List.concat_eq_append, List.map_append, List.map_singleton, block_eq, ObjectSource.text,
        listText_ne_nil _ (by simp)]
      simp [lineMember_text, lineSpaces, noSpaces, Function.comp_def]
    · rw [ObjectSource.fields, foldl_addMember]
      · simp [lineMember, Function.comp_def]
      · simpa [lineMember, Function.comp_def] using h

end Sources

/-! ## What is written is read -/

theorem exists_sources {items : List JsonValue} {write : JsonValue → Text}
    (h : ∀ item ∈ items, ∃ source : JsonSource, source.text = write item ∧ source.value = item) :
    ∃ sources : List JsonSource, sources.map JsonSource.text = items.map write ∧
      sources.map JsonSource.value = items := by
  induction items with
  | nil => exact ⟨[], rfl, rfl⟩
  | cons item items ih =>
      obtain ⟨source, htext, hvalue⟩ := h item List.mem_cons_self
      obtain ⟨sources, htexts, hvalues⟩ := ih fun other hother => h other (List.mem_cons_of_mem _ hother)
      refine ⟨source :: sources, ?_, ?_⟩
      · rw [List.map_cons, List.map_cons, htext, htexts]
      · rw [List.map_cons, hvalue, hvalues]

theorem exists_memberSources {fields : List (JsString × JsonValue)} {depth : Nat}
    (h : ∀ field ∈ fields, ∃ source : JsonSource,
      source.text = indented depth field.2 ∧ source.value = field.2) :
    ∃ sources : List (JsString × JsonSource),
      sources.map memberPiece = fields.map (indentedField depth) ∧
      sources.map Prod.fst = fields.map Prod.fst ∧
      (sources.map fun field => (field.1, field.2.value)) = fields := by
  induction fields with
  | nil => exact ⟨[], rfl, rfl, rfl⟩
  | cons field fields ih =>
      obtain ⟨source, htext, hvalue⟩ := h field List.mem_cons_self
      obtain ⟨sources, hpieces, hkeys, hvalues⟩ :=
        ih fun other hother => h other (List.mem_cons_of_mem _ hother)
      refine ⟨(field.1, source) :: sources, ?_, ?_, ?_⟩
      · rw [List.map_cons, List.map_cons, hpieces, memberPiece, htext, indentedField]
      · rw [List.map_cons, List.map_cons, hkeys]
      · rw [List.map_cons, hvalues, hvalue]

/-- **A printable value has a source on lines.** -/
theorem Printable.exists_source {value : JsonValue} (h : Printable value) (depth : Nat) :
    ∃ source : JsonSource, source.text = indented depth value ∧ source.value = value := by
  induction h generalizing depth with
  | null => exact ⟨Word.null.source, rfl, rfl⟩
  | bool value =>
      cases value with
      | false => exact ⟨Word.false.source, rfl, rfl⟩
      | true => exact ⟨Word.true.source, rfl, rfl⟩
  | number n => exact ⟨numeralSource n, rfl, rfl⟩
  | string text => exact ⟨stringSource text, rfl, rfl⟩
  | array _ ih =>
      obtain ⟨sources, htexts, hvalues⟩ := exists_sources fun item hitem => ih item hitem (depth + 1)
      obtain ⟨a, htext, hvalue⟩ := block_items depth sources
      refine ⟨arraySource a, ?_, ?_⟩
      · change a.text = _
        rw [htext, htexts, indented, indentedItems_eq]
      · change JsonValue.array a.values = _
        rw [hvalue, hvalues]
  | object _ distinct ih =>
      obtain ⟨sources, hpieces, hkeys, hvalues⟩ :=
        exists_memberSources fun field hfield => ih field hfield (depth + 1)
      obtain ⟨o, htext, hvalue⟩ := block_members depth sources (hkeys ▸ distinct)
      refine ⟨o.source, ?_, ?_⟩
      · change o.text = _
        rw [htext, hpieces, indented, indentedFields_eq]
      · change JsonValue.object o.fields = _
        rw [hvalue, hvalues]

/-- **What is written on lines is read as the same value.** -/
theorem Printable.parse_indented {value : JsonValue} (h : Printable value) :
    jsonParse (indented 0 value) = some value := by
  obtain ⟨source, htext, hvalue⟩ := h.exists_source 0
  rw [← htext, source.parses, hvalue]

end Veto.Foundation

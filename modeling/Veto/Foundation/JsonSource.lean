import Veto.Foundation.JsonRun

/-!
# The source of a JSON value

The source of a value is the text it is read from, without the spaces around it.  An array is
written with its items between commas, an object with its members, each a key as it is spelled and
a value.  Every source is that of an object, an array, a string, a number or a word.
-/

namespace Veto.Foundation

/-- A text that is read as a value, without spaces at its ends. -/
structure JsonSource where
  text : Text
  value : JsonValue
  parses : jsonParse text = some value
  head : ∀ c, text.head? = some c → isJsonSpace c = false
  last : ∀ c, text.getLast? = some c → isJsonSpace c = false

section Sources

variable {s t u : JsonState} {c : Char} {closes : Bool} {value : JsonValue} {text rest : Text}
  {below : List JsonFrame} {before : Spaces}

theorem JsonSource.begins (source : JsonSource) : ∃ c own s u, source.text = c :: own ∧
    isJsonSpace c = false ∧ beginValue [] false c = some s ∧ jsonRun s own = some u ∧
    u.finish = some source.value := by
  obtain ⟨text, value, parses, head, last⟩ := source
  obtain ⟨u, hrun, hfinish⟩ := Option.bind_eq_some_iff.mp parses
  cases text with
  | nil =>
      cases hrun
      cases hfinish
  | cons c own =>
      obtain ⟨s, hstep, hrest⟩ := Option.bind_eq_some_iff.mp hrun
      exact ⟨c, own, s, u, rfl, head c rfl, hstep, hrest, hfinish⟩

theorem over_of_finish (hfinish : u.finish = some value) (hc : FollowsValue c) : Over u c value := by
  obtain ⟨reading, stack⟩ := u
  cases stack with
  | cons frame rest => cases reading <;> cases hfinish
  | nil =>
      cases reading with
      | done value =>
          cases hfinish
          exact .done value c
      | number numeral phase =>
          change (if phase.complete then some (JsonValue.number numeral) else none) = some value
            at hfinish
          split_ifs at hfinish with hcomplete
          cases hfinish
          exact .number hcomplete (next_of_follows hc phase)
      | _ => cases hfinish

/-- The source of a value, inside of others. -/
theorem JsonSource.run (source : JsonSource) (hc : FollowsValue c) :
    jsonRun ⟨.value closes, below⟩ (source.text ++ c :: rest) =
      jsonRun ⟨.done source.value, below⟩ (c :: rest) := by
  obtain ⟨first, own, s, u, htext, hspace, hbegin, hrun, hfinish⟩ := source.begins
  have hne : first ≠ ']' := by
    rintro rfl
    cases hbegin
  have hstep : jsonStep ⟨.value closes, below⟩ first = some (s.above below) := by
    change beginValue below closes first = _
    rw [beginValue_above below closes hspace hne, hbegin, Option.map_some]
  have hown : jsonRun (s.above below) own = some (u.above below) :=
    (run_above (beginValue_within hspace hbegin) hrun).2
  rw [htext, List.cons_append, jsonRun_cons, hstep, Option.bind_some, jsonRun_append, hown,
    Option.bind_some, jsonRun_cons, jsonRun_cons]
  rw [(over_of_finish hfinish hc).step below]

/-- What is read where a value is expected: the value, or the bracket of an empty array. -/
theorem value_split (hrun : jsonRun ⟨.value closes, below⟩ text = some t)
    (hshort : t.stack.length < below.length) :
    ∃ (before : Spaces) (more : Text), text = before.text ++ more ∧
      ((closes = true ∧ ∃ items frames rest, below = .array items :: frames ∧ more = ']' :: rest ∧
        jsonRun ⟨.done (.array items), frames⟩ rest = some t) ∨
      ∃ (source : JsonSource) (rest : Text), more = source.text ++ rest ∧
        jsonRun ⟨.done source.value, below⟩ rest = some t) := by
  obtain ⟨before, more, rfl, hhead⟩ := exists_spaces text
  refine ⟨before, more, rfl, ?_⟩
  rw [value_spaces] at hrun
  cases more with
  | nil =>
      cases hrun
      exact absurd hshort (Nat.lt_irrefl _)
  | cons c more =>
      have hspace := hhead c rfl
      obtain ⟨s, hstep, hrest⟩ := Option.bind_eq_some_iff.mp hrun
      by_cases hc : c = ']'
      · subst hc
        obtain ⟨hcloses, items, frames, rfl, rfl⟩ := beginValue_bracket hstep
        exact .inl ⟨hcloses, items, frames, more, rfl, rfl, hrest⟩
      · right
        change beginValue below closes c = some s at hstep
        rw [beginValue_above below closes hspace hc] at hstep
        obtain ⟨s, hbegin, rfl⟩ := Option.map_eq_some_iff.mp hstep
        obtain ⟨own, rest, value, u, rfl, hown, hfinish, hlast, htail⟩ :=
          run_split (beginValue_within hspace hbegin) hrest hshort
        refine ⟨⟨c :: own, value, ?_, ?_, ?_⟩, rest, rfl, htail⟩
        · rw [jsonParse, jsonRun_cons]
          change ((beginValue [] false c).bind _).bind _ = _
          rw [hbegin, Option.bind_some, hown, Option.bind_some, hfinish]
        · rintro d hd
          cases hd
          exact hspace
        · intro d hd
          cases own with
          | nil =>
              cases hd
              exact hspace
          | cons e own => exact hlast d hd

/-- What is read after a value inside of others. -/
theorem after_split {frame : JsonFrame} {frames : List JsonFrame}
    (hrun : jsonRun ⟨.done value, frame :: frames⟩ text = some t)
    (hshort : t.stack.length ≤ frames.length) :
    ∃ (after : Spaces) (c : Char) (rest : Text) (s : JsonState), text = after.text ++ c :: rest ∧
      isJsonSpace c = false ∧ endValue (frame :: frames) value c = some s ∧
      jsonRun s rest = some t := by
  obtain ⟨after, more, rfl, hhead⟩ := exists_spaces text
  rw [done_spaces] at hrun
  cases more with
  | nil =>
      cases hrun
      rw [List.length_cons] at hshort
      omega
  | cons c rest =>
      obtain ⟨s, hstep, hrest⟩ := Option.bind_eq_some_iff.mp hrun
      exact ⟨after, c, rest, s, rfl, hhead c rfl, hstep, hrest⟩

/-- What is read after a key. -/
theorem colon_split {frame : JsonFrame} {frames : List JsonFrame}
    (hrun : jsonRun ⟨.colon, frame :: frames⟩ text = some t)
    (hshort : t.stack.length ≤ frames.length) :
    ∃ (afterKey beforeValue : Spaces) (source : JsonSource) (rest : Text),
      text = afterKey.text ++ ':' :: (beforeValue.text ++ (source.text ++ rest)) ∧
      jsonRun ⟨.done source.value, frame :: frames⟩ rest = some t := by
  obtain ⟨afterKey, more, rfl, hhead⟩ := exists_spaces text
  rw [colon_spaces] at hrun
  cases more with
  | nil =>
      cases hrun
      rw [List.length_cons] at hshort
      omega
  | cons c more =>
      obtain ⟨s, hstep, hvalue⟩ := Option.bind_eq_some_iff.mp hrun
      change stepColon _ c = some s at hstep
      unfold stepColon at hstep
      rw [if_neg (Bool.eq_false_iff.mp (hhead c rfl))] at hstep
      split_ifs at hstep with hc
      cases hstep
      obtain rfl := hc
      obtain ⟨beforeValue, more, rfl, ⟨hfalse, -⟩ | ⟨source, rest, rfl, hafter⟩⟩ :=
        value_split hvalue (by rw [List.length_cons]; omega)
      · cases hfalse
      · exact ⟨afterKey, beforeValue, source, rest, rfl, hafter⟩

end Sources

/-- Texts with commas between; where there are none, spaces. -/
def listText (inner : Spaces) : List Text → Text
  | [] => inner.text
  | text :: texts => [','].intercalate (text :: texts)

/-! ## Strings and members -/

/-- What is between the quotes of a string, and the string. -/
def Spells (raw : Text) (name : JsString) : Prop :=
  jsonRun ⟨.string false [] .none, []⟩ (raw ++ ['"']) = some ⟨.done (.string name), []⟩

section Keys

variable {t : JsonState} {closes ofKey : Bool} {acc key name : JsString} {escape : Escape}
  {text raw : Text} {fields : List (JsString × JsonValue)} {frames : List JsonFrame}

/-- The end of a string. -/
theorem quoted_split (hrun : jsonRun ⟨.string ofKey acc escape, frames⟩ text = some t)
    (hends : ∀ acc escape, t ≠ ⟨.string ofKey acc escape, frames⟩) :
    ∃ raw name rest, text = raw ++ '"' :: rest ∧
      jsonRun ⟨.string false acc escape, []⟩ (raw ++ ['"']) = some ⟨.done (.string name), []⟩ ∧
      (endString frames ofKey name).bind (jsonRun · rest) = some t := by
  induction text generalizing acc escape with
  | nil =>
      cases hrun
      exact absurd rfl (hends acc escape)
  | cons c text ih =>
      obtain ⟨s, hstep, hrest⟩ := Option.bind_eq_some_iff.mp hrun
      change stepString frames ofKey acc escape c = some s at hstep
      obtain ⟨rfl, rfl⟩ | ⟨acc', escape', hopen⟩ | hnone := stepString_cases acc escape c
      · refine ⟨[], acc, text, rfl, rfl, ?_⟩
        rw [stepString, if_pos rfl] at hstep
        rw [hstep, Option.bind_some]
        exact hrest
      · rw [hopen] at hstep
        cases hstep
        obtain ⟨raw, name, rest, rfl, hraw, htail⟩ := ih hrest
        refine ⟨c :: raw, name, rest, rfl, ?_, htail⟩
        rw [List.cons_append, jsonRun_cons]
        change (stepString [] false acc escape c).bind _ = _
        rw [hopen]
        exact hraw
      · rw [hnone] at hstep
        cases hstep

/-- A key is read as the string is. -/
theorem key_run (h : jsonRun ⟨.string false acc escape, []⟩ (raw ++ ['"']) =
      some ⟨.done (.string name), []⟩) (rest : Text) :
    jsonRun ⟨.string true acc escape, .object fields key :: frames⟩ (raw ++ '"' :: rest) =
      jsonRun ⟨.colon, .object fields name :: frames⟩ rest := by
  induction raw generalizing acc escape with
  | nil =>
      obtain ⟨s, hstep, hrest⟩ := Option.bind_eq_some_iff.mp h
      change stepString [] false acc escape '"' = some s at hstep
      cases hrest
      obtain ⟨rfl, -⟩ | ⟨acc', escape', hopen⟩ | hnone := stepString_cases acc escape '"'
      · cases hstep
        rfl
      · rw [hopen] at hstep
        cases hstep
      · rw [hnone] at hstep
        cases hstep
  | cons c raw ih =>
      obtain ⟨s, hstep, hrest⟩ := Option.bind_eq_some_iff.mp h
      change stepString [] false acc escape c = some s at hstep
      obtain ⟨rfl, rfl⟩ | ⟨acc', escape', hopen⟩ | hnone := stepString_cases acc escape c
      · cases hstep
        exact absurd ((run_done hrest).1 '"' (by simp)) (by decide)
      · rw [hopen] at hstep
        cases hstep
        rw [List.cons_append, jsonRun_cons]
        change (stepString _ true acc escape c).bind _ = _
        rw [hopen, Option.bind_some]
        exact ih hrest
      · rw [hnone] at hstep
        cases hstep

end Keys

/-- A member of an object: its key as it is spelled, and the source of its value. -/
structure JsonMember where
  before : Spaces
  raw : Text
  key : JsString
  spelled : Spells raw key
  afterKey : Spaces
  beforeValue : Spaces
  source : JsonSource
  after : Spaces

def JsonMember.text (m : JsonMember) : Text :=
  m.before.text ++ '"' :: (m.raw ++ '"' :: (m.afterKey.text ++
    ':' :: (m.beforeValue.text ++ (m.source.text ++ m.after.text))))

structure ObjectSource where
  inner : Spaces
  members : List JsonMember

namespace ObjectSource

def text (o : ObjectSource) : Text :=
  '{' :: (listText o.inner (o.members.map JsonMember.text) ++ ['}'])

def addMember (fields : List (JsString × JsonValue)) (m : JsonMember) :
    List (JsString × JsonValue) :=
  setField fields m.key m.source.value

def fields (o : ObjectSource) : List (JsString × JsonValue) := o.members.foldl addMember []

end ObjectSource

/-- An item of an array. -/
structure JsonItem where
  before : Spaces
  source : JsonSource
  after : Spaces

def JsonItem.text (i : JsonItem) : Text := i.before.text ++ (i.source.text ++ i.after.text)

structure ArraySource where
  inner : Spaces
  items : List JsonItem

namespace ArraySource

def text (a : ArraySource) : Text := '[' :: (listText a.inner (a.items.map JsonItem.text) ++ [']'])

def values (a : ArraySource) : List JsonValue := a.items.map fun i => i.source.value

end ArraySource

section Lists

variable {s t : JsonState} {c : Char} {closes : Bool} {key : JsString} {text rest : Text}
  {fields : List (JsString × JsonValue)} {items : List JsonValue} {frames : List JsonFrame}
  {inner : Spaces}

theorem listText_cons_cons (inner : Spaces) (text next : Text) (texts : List Text) :
    listText inner (text :: next :: texts) = text ++ ',' :: listText inner (next :: texts) := by
  change [','].intercalate (text :: next :: texts) =
    text ++ ',' :: [','].intercalate (next :: texts)
  rw [List.intercalate_cons_cons, List.append_assoc]
  rfl

theorem Spaces.follows (after : Spaces) (hc : FollowsValue c) (rest : Text) :
    ∃ d more, after.text ++ c :: rest = d :: more ∧ FollowsValue d := by
  obtain ⟨text, spaces⟩ := after
  cases text with
  | nil => exact ⟨c, rest, rfl, hc⟩
  | cons d more => exact ⟨d, more ++ c :: rest, rfl, .inl (spaces d List.mem_cons_self)⟩

/-- A value with spaces around it, inside of others. -/
theorem JsonItem.run (i : JsonItem) (hc : FollowsValue c) :
    jsonRun ⟨.value closes, frames⟩ (i.text ++ c :: rest) =
      jsonRun ⟨.done i.source.value, frames⟩ (c :: rest) := by
  obtain ⟨d, more, hmore, hd⟩ := i.after.follows hc rest
  unfold JsonItem.text
  rw [List.append_assoc, List.append_assoc, value_spaces, hmore, i.source.run hd, ← hmore,
    done_spaces]

def JsonMember.item (m : JsonMember) : JsonItem := ⟨m.beforeValue, m.source, m.after⟩

theorem JsonMember.run (m : JsonMember) (hc : FollowsValue c) :
    jsonRun ⟨.key closes, .object fields key :: frames⟩ (m.text ++ c :: rest) =
      jsonRun ⟨.done m.source.value, .object fields m.key :: frames⟩ (c :: rest) := by
  have htext : m.text ++ c :: rest = m.before.text ++ '"' :: (m.raw ++ '"' :: (m.afterKey.text ++
      ':' :: (m.item.text ++ c :: rest))) := by
    simp [JsonMember.text, JsonItem.text, JsonMember.item]
  have hquote : ∀ more, jsonRun ⟨.key closes, .object fields key :: frames⟩ ('"' :: more) =
      jsonRun ⟨.string true [] .none, .object fields key :: frames⟩ more := fun _ => rfl
  have hcolon : ∀ more, jsonRun ⟨.colon, .object fields m.key :: frames⟩ (':' :: more) =
      jsonRun ⟨.value false, .object fields m.key :: frames⟩ more := fun _ => rfl
  rw [htext, key_spaces, hquote, key_run m.spelled, colon_spaces, hcolon, m.item.run hc]
  rfl

theorem run_members (inner : Spaces) (members : List JsonMember)
    (hcloses : members = [] → closes = true) :
    jsonRun ⟨.key closes, .object fields key :: frames⟩
        (listText inner (members.map JsonMember.text) ++ '}' :: rest) =
      jsonRun ⟨.done (.object (members.foldl ObjectSource.addMember fields)), frames⟩ rest := by
  induction members generalizing closes fields key with
  | nil =>
      rw [hcloses rfl, List.map_nil, listText, key_spaces]
      rfl
  | cons m members ih =>
      cases members with
      | nil =>
          rw [List.map_singleton, listText, List.intercalate_singleton,
            m.run (.inr (.inr (.inr rfl)))]
          rfl
      | cons next members =>
          have hcomma : ∀ more,
              jsonRun ⟨.done m.source.value, .object fields m.key :: frames⟩ (',' :: more) =
                jsonRun ⟨.key false, .object (setField fields m.key m.source.value) [] :: frames⟩
                  more := fun _ => rfl
          rw [List.map_cons, List.map_cons, listText_cons_cons, List.append_assoc, List.cons_append,
            m.run (.inr (.inl rfl)), hcomma, ← List.map_cons,
            ih fun h => absurd h (List.cons_ne_nil _ _)]
          rfl

theorem run_items (inner : Spaces) (more : List JsonItem) (hcloses : more = [] → closes = true) :
    jsonRun ⟨.value closes, .array items :: frames⟩
        (listText inner (more.map JsonItem.text) ++ ']' :: rest) =
      jsonRun ⟨.done (.array (items ++ more.map fun i => i.source.value)), frames⟩ rest := by
  induction more generalizing closes items with
  | nil =>
      rw [hcloses rfl, List.map_nil, listText, value_spaces, List.map_nil, List.append_nil]
      rfl
  | cons i more ih =>
      cases more with
      | nil =>
          rw [List.map_singleton, listText, List.intercalate_singleton,
            i.run (.inr (.inr (.inl rfl))), List.map_singleton]
          rfl
      | cons next more =>
          have hcomma : ∀ more,
              jsonRun ⟨.done i.source.value, .array items :: frames⟩ (',' :: more) =
                jsonRun ⟨.value false, .array (items ++ [i.source.value]) :: frames⟩ more :=
            fun _ => rfl
          rw [List.map_cons, List.map_cons, listText_cons_cons, List.append_assoc, List.cons_append,
            i.run (.inr (.inl rfl)), hcomma, ← List.map_cons,
            ih fun h => absurd h (List.cons_ne_nil _ _), List.map_cons, List.append_assoc]
          rfl

/-- What is read where a key is expected: a member, or the brace of an empty object. -/
theorem member_split (hrun : jsonRun ⟨.key closes, .object fields key :: frames⟩ text = some t)
    (hshort : t.stack.length ≤ frames.length) :
    (closes = true ∧ ∃ (before : Spaces) (rest : Text), text = before.text ++ '}' :: rest ∧
      jsonRun ⟨.done (.object fields), frames⟩ rest = some t) ∨
    ∃ (m : JsonMember) (c : Char) (rest : Text) (s : JsonState), text = m.text ++ c :: rest ∧
      isJsonSpace c = false ∧
      endValue (.object fields m.key :: frames) m.source.value c = some s ∧
      jsonRun s rest = some t := by
  obtain ⟨before, more, rfl, hhead⟩ := exists_spaces text
  rw [key_spaces] at hrun
  cases more with
  | nil =>
      cases hrun
      rw [List.length_cons] at hshort
      omega
  | cons c more =>
      obtain ⟨s, hstep, hrest⟩ := Option.bind_eq_some_iff.mp hrun
      change stepKey _ closes c = some s at hstep
      unfold stepKey at hstep
      rw [if_neg (Bool.eq_false_iff.mp (hhead c rfl))] at hstep
      split_ifs at hstep with hquote hbrace
      · right
        cases hstep
        obtain rfl := hquote
        obtain ⟨raw, name, behind, rfl, hraw, hcolon⟩ :=
          quoted_split hrest fun acc escape heq => by
            rw [heq, List.length_cons] at hshort
            omega
        change jsonRun ⟨.colon, .object fields name :: frames⟩ behind = some t at hcolon
        obtain ⟨afterKey, beforeValue, source, behind, rfl, hafter⟩ := colon_split hcolon hshort
        obtain ⟨after, c, rest, s, rfl, hspace, hend, htail⟩ := after_split hafter hshort
        exact ⟨⟨before, raw, name, hraw, afterKey, beforeValue, source, after⟩, c, rest, s,
          by simp [JsonMember.text], hspace, hend, htail⟩
      · left
        rw [Bool.and_eq_true, decide_eq_true_eq] at hbrace
        obtain ⟨rfl, rfl⟩ := hbrace
        cases hstep
        exact ⟨rfl, before, more, rfl, hrest⟩

/-- **The members of an object.** -/
theorem members_split (hrun : jsonRun ⟨.key closes, .object fields key :: frames⟩ text = some t)
    (hshort : t.stack.length ≤ frames.length) :
    ∃ (inner : Spaces) (members : List JsonMember) (rest : Text), (members = [] → closes = true) ∧
      text = listText inner (members.map JsonMember.text) ++ '}' :: rest ∧
      jsonRun ⟨.done (.object (members.foldl ObjectSource.addMember fields)), frames⟩ rest =
        some t := by
  induction hlength : text.length using Nat.strong_induction_on
    generalizing closes fields key text with
  | h n ih =>
    obtain ⟨hcloses, before, rest, rfl, hdone⟩ | ⟨m, c, rest, s, rfl, hspace, hend, hrest⟩ :=
      member_split hrun hshort
    · exact ⟨before, [], rest, fun _ => hcloses, rfl, hdone⟩
    obtain ⟨hc, -⟩ | ⟨_, _, hframe, -⟩ | ⟨fields', key', rest', hframe, ⟨rfl, rfl⟩ | ⟨rfl, rfl⟩⟩ :=
      endValue_cases hend
    · rw [hspace] at hc
      cases hc
    · cases hframe
    · cases hframe
      obtain ⟨inner, members, more, hne, rfl, hdone⟩ := ih rest.length (by
        rw [← hlength, List.length_append, List.length_cons]
        omega) hrest rfl
      refine ⟨inner, m :: members, more, fun h => absurd h (List.cons_ne_nil _ _), ?_, hdone⟩
      cases members with
      | nil => cases hne rfl
      | cons next members =>
          simp only [List.map_cons, listText_cons_cons, List.append_assoc, List.cons_append]
    · cases hframe
      refine ⟨m.before, [m], rest, fun h => absurd h (List.cons_ne_nil _ _), ?_, hrest⟩
      rw [List.map_singleton, listText, List.intercalate_singleton]

/-- **The items of an array.** -/
theorem items_split (hrun : jsonRun ⟨.value closes, .array items :: frames⟩ text = some t)
    (hshort : t.stack.length ≤ frames.length) :
    ∃ (inner : Spaces) (more : List JsonItem) (rest : Text), (more = [] → closes = true) ∧
      text = listText inner (more.map JsonItem.text) ++ ']' :: rest ∧
      jsonRun ⟨.done (.array (items ++ more.map fun i => i.source.value)), frames⟩ rest = some t := by
  induction hlength : text.length using Nat.strong_induction_on generalizing closes items text with
  | h n ih =>
    obtain ⟨before, behind, rfl, ⟨rfl, items', frames', rest, hframe, rfl, hdone⟩ |
      ⟨source, behind, rfl, hafter⟩⟩ := value_split hrun (by rw [List.length_cons]; omega)
    · cases hframe
      exact ⟨before, [], rest, fun _ => rfl, rfl, by rwa [List.map_nil, List.append_nil]⟩
    obtain ⟨after, c, rest, s, rfl, hspace, hend, hrest⟩ := after_split hafter hshort
    obtain ⟨hc, -⟩ | ⟨items', rest', hframe, ⟨rfl, rfl⟩ | ⟨rfl, rfl⟩⟩ | ⟨_, _, _, hframe, -⟩ :=
      endValue_cases hend
    · rw [hspace] at hc
      cases hc
    · cases hframe
      obtain ⟨inner, more, behind, hne, rfl, hdone⟩ := ih rest.length (by
        rw [← hlength]
        simp only [List.length_append, List.length_cons]
        omega) hrest rfl
      rw [List.append_assoc] at hdone
      refine ⟨inner, ⟨before, source, after⟩ :: more, behind,
        fun h => absurd h (List.cons_ne_nil _ _), ?_, hdone⟩
      cases more with
      | nil => cases hne rfl
      | cons next more =>
          simp only [List.map_cons, listText_cons_cons, JsonItem.text, List.append_assoc,
            List.cons_append]
    · cases hframe
      refine ⟨before, [⟨before, source, after⟩], rest, fun h => absurd h (List.cons_ne_nil _ _), ?_,
        hrest⟩
      rw [List.map_singleton, listText, List.intercalate_singleton]
      simp only [JsonItem.text, List.append_assoc]
    · cases hframe

end Lists

/-! ## Every source -/

theorem getLast?_tail {d : Char} (front : Text) (c : Char) {rest : Text}
    (h : rest.getLast? = some d) : (front ++ c :: rest).getLast? = some d := by
  rw [List.getLast?_append, List.getLast?_cons, h]
  rfl

theorem getLast?_bracket (c d : Char) (text : Text) : (c :: (text ++ [d])).getLast? = some d := by
  rw [← List.cons_append, List.getLast?_concat]

namespace ObjectSource

theorem parses (o : ObjectSource) : jsonParse o.text = some (.object o.fields) := by
  have hopen : ∀ more, jsonRun ⟨.value false, []⟩ ('{' :: more) =
      jsonRun ⟨.key true, [.object [] []]⟩ more := fun _ => rfl
  rw [jsonParse, text, hopen, run_members o.inner o.members fun _ => rfl]
  rfl

def source (o : ObjectSource) : JsonSource where
  text := o.text
  value := .object o.fields
  parses := o.parses
  head c hc := by
    cases hc
    rfl
  last c hc := by
    rw [text, getLast?_bracket] at hc
    cases hc
    rfl

end ObjectSource

namespace ArraySource

theorem parses (a : ArraySource) : jsonParse a.text = some (.array a.values) := by
  have hopen : ∀ more, jsonRun ⟨.value false, []⟩ ('[' :: more) =
      jsonRun ⟨.value true, [.array []]⟩ more := fun _ => rfl
  rw [jsonParse, text, hopen, run_items a.inner a.items fun _ => rfl]
  rfl

end ArraySource

/-- What is left after a minus, where there is one. -/
def unsigned (text : Text) : Text :=
  match text with
  | '-' :: rest => rest
  | _ => text

theorem unsigned_cons {c : Char} {text : Text} (h : c ≠ '-') : unsigned (c :: text) = c :: text := by
  unfold unsigned
  split
  · rename_i heq
    cases heq
    exact absurd rfl h
  · rfl

/-- A numeral of JSON. -/
def JsonNumeral (text : Text) : Prop :=
  ∃ phase : NumberPhase, (unsigned text).foldlM NumberPhase.next .sign = some phase ∧
    phase.complete = true

/-- What a source is. -/
inductive JsonShape : Text → JsonValue → Prop
  | object (o : ObjectSource) : JsonShape o.text (.object o.fields)
  | array (a : ArraySource) : JsonShape a.text (.array a.values)
  | string {raw : Text} {name : JsString} (spelled : Spells raw name) :
      JsonShape ('"' :: (raw ++ ['"'])) (.string name)
  | number {numeral : Text} (h : JsonNumeral numeral) : JsonShape numeral (.number numeral)
  | word (w : Word) : JsonShape w.letters w.value

section Shapes

variable {s t u : JsonState} {c : Char} {value : JsonValue} {text rest : Text} {acc : JsString}
  {escape : Escape}

/-- A value is not followed by anything, where the text does not end with a space. -/
theorem rest_eq_nil (h : jsonRun ⟨.done value, []⟩ rest = some t)
    (hlast : ∀ c, rest.getLast? = some c → isJsonSpace c = false) : rest = [] := by
  rcases List.eq_nil_or_concat rest with hnil | ⟨front, c, hconcat⟩
  · exact hnil
  · have hspace := (run_done h).1 c (by rw [hconcat]; simp)
    have hno := hlast c (by rw [hconcat, List.concat_eq_append, List.getLast?_concat])
    rw [hspace] at hno
    cases hno

theorem number_split {front : Text} {phase : NumberPhase}
    (hrun : jsonRun ⟨.number front phase, []⟩ text = some u) (hfinish : u.finish = some value)
    (hlast : ∀ c, text.getLast? = some c → isJsonSpace c = false) :
    value = .number (front ++ text) ∧
      ∃ phase', text.foldlM NumberPhase.next phase = some phase' ∧ phase'.complete = true := by
  induction text generalizing front phase with
  | nil =>
      cases hrun
      change (if phase.complete then some (JsonValue.number front) else none) = some value
        at hfinish
      split_ifs at hfinish with hcomplete
      cases hfinish
      exact ⟨by rw [List.append_nil], phase, rfl, hcomplete⟩
  | cons c text ih =>
      obtain ⟨s, hstep, hrest⟩ := Option.bind_eq_some_iff.mp hrun
      change stepNumber [] front phase c = some s at hstep
      unfold stepNumber at hstep
      cases hnext : phase.next c with
      | some next =>
          rw [hnext] at hstep
          cases hstep
          obtain ⟨hvalue, hphases⟩ := ih hrest fun d hd => hlast d (getLast?_tail [] c hd)
          rw [List.append_assoc] at hvalue
          refine ⟨hvalue, ?_⟩
          rw [List.foldlM_cons, hnext]
          exact hphases
      | none =>
          rw [hnext] at hstep
          dsimp only at hstep
          split_ifs at hstep with hcomplete
          have hdone : jsonRun ⟨.done (.number front), []⟩ (c :: text) = some u := by
            rw [jsonRun_cons]
            change (endValue [] (.number front) c).bind _ = _
            rw [hstep]
            exact hrest
          exact absurd (rest_eq_nil hdone hlast) (List.cons_ne_nil _ _)

theorem word_split {w : Word} {seen : Nat} (hrun : jsonRun ⟨.word w seen, []⟩ text = some u)
    (hfinish : u.finish = some value)
    (hlast : ∀ c, text.getLast? = some c → isJsonSpace c = false) :
    text = w.letters.drop seen ∧ value = w.value := by
  induction text generalizing seen with
  | nil =>
      cases hrun
      cases hfinish
  | cons c text ih =>
      obtain ⟨s, hstep, hrest⟩ := Option.bind_eq_some_iff.mp hrun
      change stepWord [] w seen c = some s at hstep
      unfold stepWord at hstep
      split_ifs at hstep with hletter hend
      · cases hstep
        obtain ⟨hlt, hget⟩ := List.getElem?_eq_some_iff.mp hletter
        have hnil : text = [] := rest_eq_nil hrest fun d hd => hlast d (getLast?_tail [] c hd)
        obtain rfl := hnil
        cases hrest
        cases hfinish
        refine ⟨?_, rfl⟩
        rw [List.drop_eq_getElem_cons hlt, hget, List.drop_eq_nil_of_le (Nat.le_of_eq hend.symm)]
      · cases hstep
        obtain ⟨hlt, hget⟩ := List.getElem?_eq_some_iff.mp hletter
        obtain ⟨htext, hvalue⟩ := ih hrest fun d hd => hlast d (getLast?_tail [] c hd)
        exact ⟨by rw [List.drop_eq_getElem_cons hlt, hget, htext], hvalue⟩

theorem finish_stack (h : s.finish = some value) : s.stack = [] := by
  obtain ⟨reading, stack⟩ := s
  cases stack with
  | nil => rfl
  | cons frame rest => cases reading <;> cases h

/-- **Every source is one of five kinds.** -/
theorem JsonSource.shape (source : JsonSource) : JsonShape source.text source.value := by
  obtain ⟨c, own, s, u, htext, hspace, hbegin, hrun, hfinish⟩ := source.begins
  have hlast : ∀ d, own.getLast? = some d → isJsonSpace d = false := by
    intro d hd
    refine source.last d ?_
    rw [htext]
    exact getLast?_tail [] c hd
  rw [htext]
  generalize source.value = value at hfinish ⊢
  have hstack := finish_stack hfinish
  unfold beginValue at hbegin
  rw [if_neg (Bool.eq_false_iff.mp hspace)] at hbegin
  split_ifs at hbegin with hbrace hquote hbracket hnull htrue hfalse hminus hzero hdigit
  · cases hbegin
    obtain rfl := hbrace
    obtain ⟨inner, members, rest, -, rfl, hdone⟩ := members_split hrun (by rw [hstack])
    obtain rfl := rest_eq_nil hdone fun d hd => hlast d (getLast?_tail _ _ hd)
    cases hdone
    cases hfinish
    exact JsonShape.object ⟨inner, members⟩
  · cases hbegin
    obtain rfl := hquote
    obtain ⟨raw, name, rest, rfl, hraw, hdone⟩ := quoted_split hrun fun acc escape heq => by
      rw [heq] at hfinish
      cases hfinish
    obtain rfl := rest_eq_nil hdone fun d hd => hlast d (getLast?_tail _ _ hd)
    cases hdone
    cases hfinish
    exact JsonShape.string hraw
  · cases hbegin
    obtain rfl := hbracket
    obtain ⟨inner, items, rest, -, rfl, hdone⟩ := items_split hrun (by rw [hstack])
    obtain rfl := rest_eq_nil hdone fun d hd => hlast d (getLast?_tail _ _ hd)
    cases hdone
    cases hfinish
    exact JsonShape.array ⟨inner, items⟩
  · cases hbegin
    obtain rfl := hnull
    obtain ⟨rfl, rfl⟩ := word_split hrun hfinish hlast
    exact JsonShape.word .null
  · cases hbegin
    obtain rfl := htrue
    obtain ⟨rfl, rfl⟩ := word_split hrun hfinish hlast
    exact JsonShape.word .true
  · cases hbegin
    obtain rfl := hfalse
    obtain ⟨rfl, rfl⟩ := word_split hrun hfinish hlast
    exact JsonShape.word .false
  · cases hbegin
    obtain rfl := hminus
    obtain ⟨rfl, hphases⟩ := number_split hrun hfinish hlast
    exact JsonShape.number hphases
  · cases hbegin
    obtain rfl := hzero
    obtain ⟨rfl, hphases⟩ := number_split hrun hfinish hlast
    exact JsonShape.number hphases
  · cases hbegin
    obtain ⟨rfl, phase, hphases, hcomplete⟩ := number_split hrun hfinish hlast
    refine JsonShape.number ⟨phase, ?_, hcomplete⟩
    rw [unsigned_cons hminus, List.foldlM_cons, NumberPhase.next, if_neg hzero, if_pos hdigit]
    exact hphases

/-- **Every text that is read is a source with spaces around it.** -/
theorem exists_source (h : jsonParse text = some value) :
    ∃ (before : Spaces) (source : JsonSource) (after : Spaces),
      text = before.text ++ (source.text ++ after.text) ∧ source.value = value := by
  obtain ⟨u, hrun, hfinish⟩ := Option.bind_eq_some_iff.mp h
  -- the same value is read as the only item of an array
  have hitem : jsonRun ⟨.value false, [.array []]⟩ (text ++ [']']) =
      some ⟨.done (.array [value]), []⟩ := by
    obtain ⟨before, more, rfl, hhead⟩ := exists_spaces text
    rw [value_spaces] at hrun
    rw [List.append_assoc, value_spaces]
    cases more with
    | nil =>
        cases hrun
        cases hfinish
    | cons c own =>
        have hspace := hhead c rfl
        obtain ⟨s, hbegin, hown⟩ := Option.bind_eq_some_iff.mp hrun
        have hc : c ≠ ']' := by
          rintro rfl
          cases hbegin
        have hstep : jsonStep ⟨.value false, [.array []]⟩ c = some (s.above [.array []]) := by
          change beginValue [.array []] false c = _
          rw [beginValue_above _ _ hspace hc]
          exact congrArg _ hbegin
        have hover : Over u ']' value := over_of_finish hfinish (.inr (.inr (.inl rfl)))
        rw [List.cons_append, jsonRun_cons, hstep, Option.bind_some, jsonRun_append,
          (run_above (beginValue_within hspace hbegin) hown).2, Option.bind_some, jsonRun_cons,
          hover.step]
        rfl
  obtain ⟨inner, items, rest, -, htext, hdone⟩ := items_split hitem (Nat.le_refl _)
  obtain rfl := rest_eq_nil hdone fun d hd => by
    have hend := getLast?_tail (listText inner (items.map JsonItem.text)) ']' hd
    rw [← htext, List.getLast?_concat] at hend
    cases hend
    rfl
  have hvalues : [value] = items.map fun i => i.source.value := by
    have hstate := (run_done hdone).2
    rw [List.nil_append] at hstate
    injection hstate with hreading
    injection hreading with harray
    injection harray
  obtain ⟨i, rfl, rfl⟩ := List.map_eq_singleton_iff.mp hvalues.symm
  rw [List.map_singleton, listText, List.intercalate_singleton] at htext
  exact ⟨i.before, i.source, i.after, List.append_cancel_right htext, rfl⟩

end Shapes

/-! ## The member that is kept -/

/-- A property of an object. -/
def property (fields : List (JsString × JsonValue)) (name : JsString) : Option JsonValue :=
  (fields.find? (·.1 = name)).map Prod.snd

/-- The last member of those with a key. -/
def ObjectSource.Keeps (o : ObjectSource) (name : JsString) (m : JsonMember) : Prop :=
  ∃ front back, o.members = front ++ m :: back ∧ m.key = name ∧ ∀ later ∈ back, later.key ≠ name

section Members

variable {fields : List (JsString × JsonValue)} {key name : JsString} {value : JsonValue}
  {o : ObjectSource} {m : JsonMember}

theorem property_cons (field : JsString × JsonValue) (fields : List (JsString × JsonValue)) :
    property (field :: fields) name =
      if field.1 = name then some field.2 else property fields name := by
  rw [property, List.find?_cons]
  by_cases hname : field.1 = name
  · rw [decide_eq_true hname, if_pos hname]
    rfl
  · rw [decide_eq_false hname, if_neg hname]
    rfl

/-- The value that is put in place of another. -/
theorem property_replace (fields : List (JsString × JsonValue)) :
    property (fields.map fun field => if field.1 = key then (key, value) else field) name =
      if key = name ∧ fields.any (·.1 = key) then some value else property fields name := by
  induction fields with
  | nil => simp [property]
  | cons field fields ih =>
      rw [List.map_cons, property_cons, property_cons, ih, List.any_cons]
      by_cases hfield : field.1 = key
      · rw [if_pos hfield, decide_eq_true hfield, Bool.true_or, hfield]
        by_cases hkey : key = name <;> simp [hkey]
      · rw [if_neg hfield, decide_eq_false hfield, Bool.false_or]
        by_cases hkey : key = name
        · obtain rfl := hkey
          simp [hfield]
        · simp [hkey]

theorem property_setField :
    property (setField fields key value) name =
      if key = name then some value else property fields name := by
  unfold setField
  split_ifs with hany hkey hkey
  · rw [property_replace, if_pos ⟨hkey, hany⟩]
  · rw [property_replace, if_neg fun hand => hkey hand.1]
  · have hnone : fields.find? (·.1 = name) = none := by
      rw [List.find?_eq_none]
      intro field hfield hname
      exact hany (List.any_eq_true.mpr ⟨field, hfield, hkey ▸ hname⟩)
    rw [property, List.find?_append, hnone, Option.none_or]
    exact (property_cons _ _).trans (if_pos hkey)
  · rw [property, List.find?_append, Option.map_or]
    change (property fields name).or (property [(key, value)] name) = _
    rw [property_cons, if_neg hkey]
    exact Option.or_none

theorem property_members (members : List JsonMember) (fields : List (JsString × JsonValue))
    (hother : ∀ m ∈ members, m.key ≠ name) :
    property (members.foldl ObjectSource.addMember fields) name = property fields name := by
  induction members generalizing fields with
  | nil => rfl
  | cons m members ih =>
      rw [List.foldl_cons, ih _ fun later hlater => hother later (List.mem_cons_of_mem _ hlater),
        ObjectSource.addMember, property_setField, if_neg (hother m List.mem_cons_self)]

theorem exists_keeps (hm : m ∈ o.members) (hkey : m.key = name) : ∃ kept, o.Keeps name kept := by
  have hsome : (o.members.reverse.find? (·.key = name)).isSome :=
    List.find?_isSome.mpr ⟨m, List.mem_reverse.mpr hm, decide_eq_true hkey⟩
  obtain ⟨kept, hkept⟩ := Option.isSome_iff_exists.mp hsome
  obtain ⟨hname, back, front, hsplit, hback⟩ := List.find?_eq_some_iff_append.mp hkept
  refine ⟨kept, front.reverse, back.reverse, ?_, of_decide_eq_true hname, ?_⟩
  · rw [← o.members.reverse_reverse, hsplit]
    simp
  · intro later hlater
    have hnot := hback later (List.mem_reverse.mp hlater)
    simpa using hnot

theorem property_of_keeps (h : o.Keeps name m) : property o.fields name = some m.source.value := by
  obtain ⟨front, back, hmembers, hkey, hback⟩ := h
  rw [ObjectSource.fields, hmembers, List.foldl_append, List.foldl_cons,
    property_members back _ hback, ObjectSource.addMember, property_setField, if_pos hkey]

/-- **`JSON.parse` keeps the last member of those with a key.** -/
theorem property_eq_some :
    property o.fields name = some value ↔ ∃ m, o.Keeps name m ∧ m.source.value = value := by
  constructor
  · intro h
    have hmem : ∃ m ∈ o.members, m.key = name := by
      by_contra hno
      have hother : ∀ m ∈ o.members, m.key ≠ name := fun m hm hkey => hno ⟨m, hm, hkey⟩
      rw [ObjectSource.fields, property_members o.members [] hother] at h
      cases h
    obtain ⟨m, hm, hkey⟩ := hmem
    obtain ⟨kept, hkept⟩ := exists_keeps hm hkey
    rw [property_of_keeps hkept] at h
    exact ⟨kept, hkept, Option.some.inj h⟩
  · rintro ⟨m, hkeeps, rfl⟩
    exact property_of_keeps hkeeps

/-- A string is read in one way. -/
theorem Spells.unique {raw : Text} {other : JsString} (h : Spells raw name)
    (hother : Spells raw other) : name = other := by
  have heq := Option.some.inj (h.symm.trans hother)
  injection heq with hreading
  injection hreading with hvalue
  injection hvalue

end Members

end Veto.Foundation

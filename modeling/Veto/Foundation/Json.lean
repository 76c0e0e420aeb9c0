import Veto.Foundation.Utf16
import Mathlib.Tactic.IntervalCases

/-!
# JSON

`JSON.parse` reads a text character by character: what is being read, and the arrays and objects
around it.  `JSON.stringify` is given for flat records, whose values are null, numbers and strings.
A record is read back, and a piece of one that is cut off leaves its brace open.
-/

namespace Veto.Foundation

/-- A number is kept as its numeral. -/
inductive JsonValue
  | null
  | bool (value : Bool)
  | number (numeral : Text)
  | string (text : JsString)
  | array (items : List JsonValue)
  | object (fields : List (JsString × JsonValue))

/-- A key that comes again takes the later value. -/
def setField (fields : List (JsString × JsonValue)) (key : JsString) (value : JsonValue) :
    List (JsString × JsonValue) :=
  if fields.any (·.1 = key) then fields.map fun field => if field.1 = key then (key, value) else field
  else fields ++ [(key, value)]

/-! ## Reading -/

/-- Where a string has an escape. -/
inductive Escape
  | none
  | started
  | hex (left : Nat) (code : Nat)

inductive NumberPhase
  | sign
  | zero
  | digits
  | point
  | fraction
  | exponent
  | exponentSign
  | exponentDigits

inductive Word
  | null
  | true
  | false

def Word.letters : Word → Text
  | null => ['n', 'u', 'l', 'l']
  | true => ['t', 'r', 'u', 'e']
  | false => ['f', 'a', 'l', 's', 'e']

def Word.value : Word → JsonValue
  | null => .null
  | true => .bool Bool.true
  | false => .bool Bool.false

inductive Reading
  /-- A value, or the end of an empty array. -/
  | value (closes : Bool)
  /-- A key, or the end of an empty object. -/
  | key (closes : Bool)
  | colon
  | string (ofKey : Bool) (text : JsString) (escape : Escape)
  | number (numeral : Text) (phase : NumberPhase)
  | word (w : Word) (seen : Nat)
  | done (value : JsonValue)

/-- An array or object that is open; of an object, the key whose value is read. -/
inductive JsonFrame
  | array (items : List JsonValue)
  | object (fields : List (JsString × JsonValue)) (key : JsString)

structure JsonState where
  reading : Reading
  stack : List JsonFrame

def isJsonSpace (c : Char) : Bool := c = ' ' || c = '\t' || c = '\n' || c = '\r'

def NumberPhase.next (phase : NumberPhase) (c : Char) : Option NumberPhase :=
  match phase with
  | sign => if c = '0' then some zero else if c.isDigit then some digits else none
  | zero => if c = '.' then some point else if c = 'e' || c = 'E' then some exponent else none
  | digits =>
      if c.isDigit then some digits
      else if c = '.' then some point
      else if c = 'e' || c = 'E' then some exponent else none
  | point => if c.isDigit then some fraction else none
  | fraction =>
      if c.isDigit then some fraction else if c = 'e' || c = 'E' then some exponent else none
  | exponent =>
      if c = '+' || c = '-' then some exponentSign
      else if c.isDigit then some exponentDigits else none
  | exponentSign => if c.isDigit then some exponentDigits else none
  | exponentDigits => if c.isDigit then some exponentDigits else none

def NumberPhase.complete : NumberPhase → Bool
  | zero | digits | fraction | exponentDigits => true
  | _ => false

/-- The value of a hexadecimal digit. -/
def hexDigitValue (c : Char) : Option Nat :=
  if '0' ≤ c ∧ c ≤ '9' then some (c.toNat - 0x30)
  else if 'a' ≤ c ∧ c ≤ 'f' then some (c.toNat - 0x57)
  else if 'A' ≤ c ∧ c ≤ 'F' then some (c.toNat - 0x37)
  else none

/-- What a character after a backslash stands for. -/
def escapedUnit (c : Char) : Option UInt16 :=
  if c = '"' then some 0x22
  else if c = '\\' then some 0x5c
  else if c = '/' then some 0x2f
  else if c = 'b' then some 0x8
  else if c = 'f' then some 0xc
  else if c = 'n' then some 0xa
  else if c = 'r' then some 0xd
  else if c = 't' then some 0x9
  else none

section Step

variable (stack : List JsonFrame)

def beginValue (closes : Bool) (c : Char) : Option JsonState :=
  if isJsonSpace c then some ⟨.value closes, stack⟩
  else if c = '{' then some ⟨.key true, .object [] [] :: stack⟩
  else if c = '"' then some ⟨.string false [] .none, stack⟩
  else if c = '[' then some ⟨.value true, .array [] :: stack⟩
  else if c = 'n' then some ⟨.word .null 1, stack⟩
  else if c = 't' then some ⟨.word .true 1, stack⟩
  else if c = 'f' then some ⟨.word .false 1, stack⟩
  else if c = '-' then some ⟨.number [c] .sign, stack⟩
  else if c = '0' then some ⟨.number [c] .zero, stack⟩
  else if c.isDigit then some ⟨.number [c] .digits, stack⟩
  else if closes && c = ']' then
    match stack with
    | .array items :: rest => some ⟨.done (.array items), rest⟩
    | _ => none
  else none

/-- After a value. -/
def endValue (value : JsonValue) (c : Char) : Option JsonState :=
  if isJsonSpace c then some ⟨.done value, stack⟩
  else
    match stack with
    | [] => none
    | .array items :: rest =>
        if c = ',' then some ⟨.value false, .array (items ++ [value]) :: rest⟩
        else if c = ']' then some ⟨.done (.array (items ++ [value])), rest⟩
        else none
    | .object fields key :: rest =>
        if c = ',' then some ⟨.key false, .object (setField fields key value) [] :: rest⟩
        else if c = '}' then some ⟨.done (.object (setField fields key value)), rest⟩
        else none

def endString (ofKey : Bool) (text : JsString) : Option JsonState :=
  if ofKey then
    match stack with
    | .object fields _ :: rest => some ⟨.colon, .object fields text :: rest⟩
    | _ => none
  else some ⟨.done (.string text), stack⟩

def stepString (ofKey : Bool) (text : JsString) (escape : Escape) (c : Char) : Option JsonState :=
  match escape with
  | .none =>
      if c = '"' then endString stack ofKey text
      else if c = '\\' then some ⟨.string ofKey text .started, stack⟩
      else if c.toNat < 0x20 then none
      else some ⟨.string ofKey (text ++ utf16Units c) .none, stack⟩
  | .started =>
      if c = 'u' then some ⟨.string ofKey text (.hex 4 0), stack⟩
      else (escapedUnit c).map fun unit => ⟨.string ofKey (text ++ [unit]) .none, stack⟩
  | .hex left code =>
      (hexDigitValue c).map fun digit =>
        if left = 1 then ⟨.string ofKey (text ++ [UInt16.ofNat (16 * code + digit)]) .none, stack⟩
        else ⟨.string ofKey text (.hex (left - 1) (16 * code + digit)), stack⟩

def stepKey (closes : Bool) (c : Char) : Option JsonState :=
  if isJsonSpace c then some ⟨.key closes, stack⟩
  else if c = '"' then some ⟨.string true [] .none, stack⟩
  else if closes && c = '}' then
    match stack with
    | .object fields _ :: rest => some ⟨.done (.object fields), rest⟩
    | _ => none
  else none

def stepColon (c : Char) : Option JsonState :=
  if isJsonSpace c then some ⟨.colon, stack⟩
  else if c = ':' then some ⟨.value false, stack⟩
  else none

def stepNumber (numeral : Text) (phase : NumberPhase) (c : Char) : Option JsonState :=
  match phase.next c with
  | some phase => some ⟨.number (numeral ++ [c]) phase, stack⟩
  | none => if phase.complete then endValue stack (.number numeral) c else none

def stepWord (w : Word) (seen : Nat) (c : Char) : Option JsonState :=
  if w.letters[seen]? = some c then
    if seen + 1 = w.letters.length then some ⟨.done w.value, stack⟩
    else some ⟨.word w (seen + 1), stack⟩
  else none

end Step

def jsonStep (s : JsonState) (c : Char) : Option JsonState :=
  match s.reading with
  | .value closes => beginValue s.stack closes c
  | .key closes => stepKey s.stack closes c
  | .colon => stepColon s.stack c
  | .string ofKey text escape => stepString s.stack ofKey text escape c
  | .number numeral phase => stepNumber s.stack numeral phase c
  | .word w seen => stepWord s.stack w seen c
  | .done value => endValue s.stack value c

def jsonRun (s : JsonState) (text : Text) : Option JsonState := text.foldlM jsonStep s

/-- The value, when nothing is open. -/
def JsonState.finish (s : JsonState) : Option JsonValue :=
  match s.reading, s.stack with
  | .done value, [] => some value
  | .number numeral phase, [] => if phase.complete then some (.number numeral) else none
  | _, _ => none

/-- `JSON.parse`; `none` is a `SyntaxError`. -/
def jsonParse (text : Text) : Option JsonValue := (jsonRun ⟨.value false, []⟩ text).bind (·.finish)

/-! ## Writing -/

def hexDigitChar (n : Nat) : Char := Char.ofNat (if n < 10 then 0x30 + n else 0x57 + n)

/-- A code unit in a string.  An unpaired surrogate is escaped. -/
def quoteUnit (unit : UInt16) : Text :=
  if unit = 0x22 then ['\\', '"']
  else if unit = 0x5c then ['\\', '\\']
  else if unit = 0x8 then ['\\', 'b']
  else if unit = 0xc then ['\\', 'f']
  else if unit = 0xa then ['\\', 'n']
  else if unit = 0xd then ['\\', 'r']
  else if unit = 0x9 then ['\\', 't']
  else if unit < 0x20 || isSurrogate unit then
    ['\\', 'u', hexDigitChar (unit.toNat / 0x1000), hexDigitChar (unit.toNat / 0x100 % 0x10),
      hexDigitChar (unit.toNat / 0x10 % 0x10), hexDigitChar (unit.toNat % 0x10)]
  else [Char.ofNat unit.toNat]

def quoteUnits : JsString → Text
  | [] => []
  | [unit] => quoteUnit unit
  | unit :: next :: rest =>
      if isPair unit next then pairChar unit next :: quoteUnits rest
      else quoteUnit unit ++ quoteUnits (next :: rest)

def quote (text : JsString) : Text := '"' :: (quoteUnits text ++ ['"'])

/-- A value of a flat record. -/
inductive Scalar
  | null
  | number (n : Int)
  | string (text : JsString)
  deriving DecidableEq

/-- `String(n)` of an integer. -/
def numeral (n : Int) : Text :=
  if n < 0 then '-' :: Nat.toDigits 10 n.natAbs else Nat.toDigits 10 n.natAbs

def Scalar.print : Scalar → Text
  | null => ['n', 'u', 'l', 'l']
  | number n => numeral n
  | string text => quote text

def Scalar.json : Scalar → JsonValue
  | null => .null
  | number n => .number (numeral n)
  | string text => .string text

/-- An object without objects or arrays in it, its properties in the order of their making. -/
structure Record where
  fields : List (JsString × Scalar)
  /-- A property is made once. -/
  distinct : (fields.map Prod.fst).Nodup

/-- The record of the properties that are defined: `JSON.stringify` leaves out the others. -/
def Record.ofDefined (fields : List (JsString × Option Scalar))
    (distinct : (fields.map Prod.fst).Nodup) : Record where
  fields := fields.filterMap fun field => field.2.map (field.1, ·)
  distinct := by
    refine distinct.sublist ?_
    induction fields with
    | nil => exact .slnil
    | cons field fields ih =>
        obtain ⟨name, value⟩ := field
        have hrest := ih (List.nodup_cons.mp distinct).2
        cases value with
        | none => exact hrest.cons name
        | some value => exact hrest.cons_cons name

def printField (field : JsString × Scalar) : Text := quote field.1 ++ ':' :: field.2.print

/-- `JSON.stringify` of a record. -/
def Record.print (record : Record) : Text :=
  '{' :: ([','].intercalate (record.fields.map printField) ++ ['}'])

def Record.json (record : Record) : JsonValue :=
  .object (record.fields.map fun field => (field.1, field.2.json))

/-! ## Runs that keep frames open -/

/-- A run on `text`, with at least `least` frames open wherever it is cut off. -/
inductive Path (least : Nat) : JsonState → Text → JsonState → Prop
  | nil {s : JsonState} (h : least ≤ s.stack.length) : Path least s [] s
  | cons {s t u : JsonState} {c : Char} {text : Text} (h : least ≤ s.stack.length)
      (hstep : jsonStep s c = some t) (rest : Path least t text u) : Path least s (c :: text) u

section Runs

variable {least : Nat} {s t u : JsonState} {c : Char} {text more : Text}

theorem jsonRun_cons : jsonRun s (c :: text) = (jsonStep s c).bind (jsonRun · text) := rfl

theorem jsonRun_append : jsonRun s (text ++ more) = (jsonRun s text).bind (jsonRun · more) :=
  List.foldlM_append

theorem Path.run (h : Path least s text t) : jsonRun s text = some t := by
  induction h with
  | nil => rfl
  | cons _ hstep _ ih => rw [jsonRun_cons, hstep, Option.bind_some, ih]

theorem Path.append (h : Path least s text t) (h' : Path least t more u) :
    Path least s (text ++ more) u := by
  induction h with
  | nil => exact h'
  | cons hopen hstep _ ih => exact .cons hopen hstep (ih h')

/-- Where a run is cut off, the frames are open. -/
theorem Path.cut {front : Text} (h : Path least s text t) (hfront : front <+: text) :
    ∃ u, jsonRun s front = some u ∧ least ≤ u.stack.length := by
  induction h generalizing front with
  | nil h =>
      obtain rfl := List.prefix_nil.mp hfront
      exact ⟨_, rfl, h⟩
  | cons h hstep _ ih =>
      rcases List.prefix_cons_iff.mp hfront with rfl | ⟨rest, rfl, hrest⟩
      · exact ⟨_, rfl, h⟩
      · obtain ⟨u, hrun, hu⟩ := ih hrest
        exact ⟨u, by rw [jsonRun_cons, hstep, Option.bind_some, hrun], hu⟩

end Runs

/-! ## Strings -/

section Strings

variable {least : Nat} {stack : List JsonFrame} {ofKey : Bool} {text : JsString}

theorem step_plain {c : Char} (hquote : c ≠ '"') (hslash : c ≠ '\\') (hcontrol : 0x20 ≤ c.toNat) :
    jsonStep ⟨.string ofKey text .none, stack⟩ c =
      some ⟨.string ofKey (text ++ utf16Units c) .none, stack⟩ := by
  change stepString stack ofKey text .none c = _
  rw [stepString, if_neg hquote, if_neg hslash, if_neg (Nat.not_lt.mpr hcontrol)]

theorem path_plain {c : Char} (hopen : least ≤ stack.length) (hquote : c ≠ '"')
    (hslash : c ≠ '\\') (hcontrol : 0x20 ≤ c.toNat) :
    Path least ⟨.string ofKey text .none, stack⟩ [c]
      ⟨.string ofKey (text ++ utf16Units c) .none, stack⟩ :=
  .cons hopen (step_plain hquote hslash hcontrol) (.nil hopen)

theorem path_escaped {c : Char} {unit : UInt16} (hopen : least ≤ stack.length) (hc : c ≠ 'u')
    (hunit : escapedUnit c = some unit) :
    Path least ⟨.string ofKey text .none, stack⟩ ['\\', c]
      ⟨.string ofKey (text ++ [unit]) .none, stack⟩ := by
  refine .cons hopen (t := ⟨.string ofKey text .started, stack⟩) rfl (.cons hopen ?_ (.nil hopen))
  change stepString stack ofKey text .started c = _
  rw [stepString, if_neg hc, hunit, Option.map_some]

theorem hexDigitValue_hexDigitChar {n : Nat} (h : n < 16) : hexDigitValue (hexDigitChar n) = some n := by
  revert n
  decide

theorem path_hex (hopen : least ≤ stack.length) (unit : UInt16) :
    Path least ⟨.string ofKey text .none, stack⟩
      ['\\', 'u', hexDigitChar (unit.toNat / 0x1000), hexDigitChar (unit.toNat / 0x100 % 0x10),
        hexDigitChar (unit.toNat / 0x10 % 0x10), hexDigitChar (unit.toNat % 0x10)]
      ⟨.string ofKey (text ++ [unit]) .none, stack⟩ := by
  have hlt := unit.toNat_lt
  have hdigit : ∀ {digit left code}, digit < 16 → left ≠ 1 →
      jsonStep ⟨.string ofKey text (.hex left code), stack⟩ (hexDigitChar digit) =
        some ⟨.string ofKey text (.hex (left - 1) (16 * code + digit)), stack⟩ := by
    intro digit left code hlt hleft
    change stepString stack ofKey text (.hex left code) _ = _
    rw [stepString, hexDigitValue_hexDigitChar hlt, Option.map_some, if_neg hleft]
  have hlast : jsonStep ⟨.string ofKey text (.hex 1 (16 * (16 * (16 * 0 + unit.toNat / 0x1000) +
      unit.toNat / 0x100 % 0x10) + unit.toNat / 0x10 % 0x10)), stack⟩
      (hexDigitChar (unit.toNat % 0x10)) = some ⟨.string ofKey (text ++ [unit]) .none, stack⟩ := by
    change stepString stack ofKey text (.hex 1 _) _ = _
    have hvalue : 16 * (16 * (16 * (16 * 0 + unit.toNat / 0x1000) + unit.toNat / 0x100 % 0x10) +
        unit.toNat / 0x10 % 0x10) + unit.toNat % 0x10 = unit.toNat := by omega
    rw [stepString, hexDigitValue_hexDigitChar (by omega), Option.map_some, if_pos rfl, hvalue,
      UInt16.ofNat_toNat]
  exact .cons hopen (t := ⟨.string ofKey text .started, stack⟩) rfl
    (.cons hopen (t := ⟨.string ofKey text (.hex 4 0), stack⟩) rfl
      (.cons hopen (hdigit (by omega) (by decide))
        (.cons hopen (hdigit (by omega) (by decide))
          (.cons hopen (hdigit (by omega) (by decide)) (.cons hopen hlast (.nil hopen))))))

theorem path_quoteUnit (hopen : least ≤ stack.length) (unit : UInt16) :
    Path least ⟨.string ofKey text .none, stack⟩ (quoteUnit unit)
      ⟨.string ofKey (text ++ [unit]) .none, stack⟩ := by
  unfold quoteUnit
  split
  · next h => exact h ▸ path_escaped hopen (by decide) rfl
  split
  · next h => exact h ▸ path_escaped hopen (by decide) rfl
  split
  · next h => exact h ▸ path_escaped hopen (by decide) rfl
  split
  · next h => exact h ▸ path_escaped hopen (by decide) rfl
  split
  · next h => exact h ▸ path_escaped hopen (by decide) rfl
  split
  · next h => exact h ▸ path_escaped hopen (by decide) rfl
  split
  · next h => exact h ▸ path_escaped hopen (by decide) rfl
  split
  · exact path_hex hopen unit
  · next hquote hslash _ _ _ _ _ hplain =>
    simp only [Bool.or_eq_true, decide_eq_true_eq, not_or, Bool.not_eq_true, UInt16.lt_iff_toNat_lt,
      UInt16.reduceToNat, Nat.not_lt] at hplain
    have hchar := toNat_unitChar hplain.2
    rw [← utf16Units_unit hplain.2]
    refine path_plain hopen ?_ ?_ (by omega)
    · intro heq
      rw [heq] at hchar
      exact hquote (UInt16.toNat_inj.mp hchar.symm)
    · intro heq
      rw [heq] at hchar
      exact hslash (UInt16.toNat_inj.mp hchar.symm)

theorem path_quoteUnits (hopen : least ≤ stack.length) (more : JsString) :
    Path least ⟨.string ofKey text .none, stack⟩ (quoteUnits more)
      ⟨.string ofKey (text ++ more) .none, stack⟩ := by
  fun_induction quoteUnits more generalizing text with
  | case1 =>
      rw [List.append_nil]
      exact .nil hopen
  | case2 unit => exact path_quoteUnit hopen unit
  | case3 unit next rest hpair ih =>
      have hchar := toNat_pairChar hpair
      have hne : ∀ c : Char, c.toNat < 0x80 → pairChar unit next ≠ c := by
        intro c hlt heq
        rw [heq] at hchar
        omega
      have hpath : Path least ⟨.string ofKey text .none, stack⟩ [pairChar unit next]
          ⟨.string ofKey (text ++ [unit, next]) .none, stack⟩ := by
        rw [← utf16Units_pair hpair]
        exact path_plain hopen (hne _ (by decide)) (hne _ (by decide)) (by rw [hchar]; omega)
      have hrest := hpath.append ih
      rwa [List.append_assoc] at hrest
  | case4 unit next rest _ ih =>
      have hpath : Path least ⟨.string ofKey text .none, stack⟩ (quoteUnit unit)
          ⟨.string ofKey (text ++ [unit]) .none, stack⟩ := path_quoteUnit hopen unit
      have hrest := hpath.append ih
      rwa [List.append_assoc] at hrest

end Strings

/-! ## Values -/

/-- The value has been read, as far as a comma or a brace can tell. -/
def Ends (stack : List JsonFrame) (value : JsonValue) (s : JsonState) : Prop :=
  s.stack = stack ∧ ∀ c, c = ',' ∨ c = '}' → jsonStep s c = endValue stack value c

section Values

variable {least : Nat} {stack : List JsonFrame}

theorem path_quote (hopen : least ≤ stack.length) (text : JsString) :
    Path least ⟨.value false, stack⟩ (quote text) ⟨.done (.string text), stack⟩ :=
  .cons hopen (t := ⟨.string false [] .none, stack⟩) rfl
    ((path_quoteUnits hopen text).append (.cons hopen rfl (.nil hopen)))

theorem path_key {fields : List (JsString × JsonValue)} {rest : List JsonFrame} {closes : Bool}
    {key : JsString} (hopen : least ≤ rest.length + 1) (text : JsString) :
    Path least ⟨.key closes, .object fields key :: rest⟩ (quote text)
      ⟨.colon, .object fields text :: rest⟩ :=
  .cons hopen (t := ⟨.string true [] .none, .object fields key :: rest⟩) rfl
    ((path_quoteUnits hopen text).append (.cons hopen rfl (.nil hopen)))

theorem path_digits {digits : Text} (hopen : least ≤ stack.length)
    (h : ∀ c ∈ digits, c.isDigit = true) (front : Text) :
    Path least ⟨.number front .digits, stack⟩ digits ⟨.number (front ++ digits) .digits, stack⟩ := by
  induction digits generalizing front with
  | nil =>
      rw [List.append_nil]
      exact .nil hopen
  | cons c digits ih =>
      have hstep : jsonStep ⟨.number front .digits, stack⟩ c =
          some ⟨.number (front ++ [c]) .digits, stack⟩ := by
        change stepNumber stack front .digits c = _
        rw [stepNumber, NumberPhase.next, if_pos (h c List.mem_cons_self)]
      have hrest := ih (fun d hd => h d (List.mem_cons_of_mem _ hd)) (front ++ [c])
      rw [List.append_assoc] at hrest
      exact .cons hopen hstep hrest

/-- The digits of a positive number start with another one than zero. -/
theorem toDigits_head {n : Nat} (hpos : 1 ≤ n) :
    ∃ digit rest, 1 ≤ digit ∧ digit < 10 ∧ Nat.toDigits 10 n = Nat.digitChar digit :: rest := by
  induction n using Nat.strongRecOn with
  | ind n ih =>
    by_cases hlt : n < 10
    · exact ⟨n, [], hpos, hlt, Nat.toDigits_of_lt_base hlt⟩
    · obtain ⟨digit, rest, hmin, hmax, hdigits⟩ := ih (n / 10) (by omega) (by omega)
      refine ⟨digit, rest ++ [Nat.digitChar (n % 10)], hmin, hmax, ?_⟩
      rw [Nat.toDigits_of_base_le (by decide) (by omega), hdigits, List.cons_append]

theorem ends_number {front : Text} {phase : NumberPhase} (h : phase = .zero ∨ phase = .digits) :
    Ends stack (.number front) ⟨.number front phase, stack⟩ := by
  refine ⟨rfl, ?_⟩
  rcases h with rfl | rfl <;> rintro c (rfl | rfl) <;> rfl

theorem path_positive {n : Nat} {s : JsonState} (front : Text) (hopen : least ≤ stack.length)
    (hs : s.stack = stack) (hpos : 1 ≤ n)
    (hstep : ∀ digit, 1 ≤ digit → digit < 10 → jsonStep s (Nat.digitChar digit) =
      some ⟨.number (front ++ [Nat.digitChar digit]) .digits, stack⟩) :
    Path least s (Nat.toDigits 10 n) ⟨.number (front ++ Nat.toDigits 10 n) .digits, stack⟩ := by
  obtain ⟨digit, rest, hmin, hmax, hdigits⟩ := toDigits_head hpos
  have hrest : ∀ c ∈ rest, c.isDigit = true := by
    intro c hc
    have hmem : c ∈ Nat.toDigits 10 n := hdigits ▸ List.mem_cons_of_mem _ hc
    exact Nat.isDigit_of_mem_toDigits (by decide) (by decide) hmem
  have hpath := path_digits hopen hrest (front ++ [Nat.digitChar digit])
  rw [List.append_assoc] at hpath
  rw [hdigits]
  exact .cons (hs ▸ hopen) (hstep digit hmin hmax) hpath

theorem path_numeral (hopen : least ≤ stack.length) (n : Int) :
    ∃ phase, (phase = .zero ∨ phase = .digits) ∧
      Path least ⟨.value false, stack⟩ (numeral n) ⟨.number (numeral n) phase, stack⟩ := by
  unfold numeral
  by_cases hneg : n < 0
  · rw [if_pos hneg]
    refine ⟨.digits, .inr rfl, .cons hopen (t := ⟨.number ['-'] .sign, stack⟩) rfl ?_⟩
    refine path_positive ['-'] hopen rfl (by omega) ?_
    intro digit hmin hmax
    interval_cases digit <;> rfl
  · rw [if_neg hneg]
    by_cases hzero : n.natAbs = 0
    · rw [hzero, Nat.toDigits_zero]
      exact ⟨.zero, .inl rfl, .cons hopen rfl (.nil hopen)⟩
    · refine ⟨.digits, .inr rfl, path_positive [] hopen rfl (by omega) ?_⟩
      intro digit hmin hmax
      interval_cases digit <;> rfl

theorem path_scalar (hopen : least ≤ stack.length) (scalar : Scalar) :
    ∃ s, Path least ⟨.value false, stack⟩ scalar.print s ∧ Ends stack scalar.json s := by
  cases scalar with
  | null =>
      refine ⟨⟨.done .null, stack⟩, ?_, rfl, fun _ _ => rfl⟩
      exact .cons hopen rfl (.cons hopen rfl (.cons hopen rfl (.cons hopen rfl (.nil hopen))))
  | number n =>
      obtain ⟨phase, hphase, hpath⟩ := path_numeral hopen n
      exact ⟨_, hpath, ends_number hphase⟩
  | string text => exact ⟨_, path_quote hopen text, rfl, fun _ _ => rfl⟩

end Values

/-! ## Records -/

theorem setField_fresh {fields : List (JsString × JsonValue)} {key : JsString} (value : JsonValue)
    (h : key ∉ fields.map Prod.fst) : setField fields key value = fields ++ [(key, value)] := by
  refine if_neg fun hany => ?_
  obtain ⟨field, hfield, heq⟩ := List.any_eq_true.mp hany
  exact h (List.mem_map.mpr ⟨field, hfield, of_decide_eq_true heq⟩)

section Records

variable (stack : List JsonFrame)

theorem path_field (fields : List (JsString × JsonValue)) (closes : Bool) (before : JsString)
    (field : JsString × Scalar) :
    ∃ s, Path (stack.length + 1) ⟨.key closes, .object fields before :: stack⟩ (printField field) s ∧
      Ends (.object fields field.1 :: stack) field.2.json s := by
  have hopen : stack.length + 1 ≤ (JsonFrame.object fields field.1 :: stack).length := Nat.le_refl _
  obtain ⟨s, hvalue, hends⟩ := path_scalar hopen field.2
  have hkey : Path (stack.length + 1) ⟨.key closes, .object fields before :: stack⟩ (quote field.1)
      ⟨.colon, .object fields field.1 :: stack⟩ := path_key (Nat.le_refl _) field.1
  exact ⟨s, hkey.append (.cons hopen rfl hvalue), hends⟩

/-- The properties of a record, after those that were read. -/
theorem path_fields (more : List (JsString × Scalar)) (fields : List (JsString × JsonValue))
    (closes : Bool) (before : JsString) (hcloses : more = [] → closes = true)
    (hdistinct : (fields.map Prod.fst ++ more.map Prod.fst).Nodup) :
    ∃ s, Path (stack.length + 1) ⟨.key closes, .object fields before :: stack⟩
        ([','].intercalate (more.map printField)) s ∧
      jsonStep s '}' =
        some ⟨.done (.object (fields ++ more.map fun field => (field.1, field.2.json))), stack⟩ := by
  induction more generalizing fields closes before with
  | nil =>
      rw [hcloses rfl, List.map_nil, List.map_nil, List.append_nil]
      exact ⟨_, .nil (Nat.le_refl _), rfl⟩
  | cons field more ih =>
      obtain ⟨s, hfield, hstack, hends⟩ :=
        path_field stack fields closes before field
      have hfresh : field.1 ∉ fields.map Prod.fst := by
        intro hmem
        rw [List.map_cons] at hdistinct
        exact (List.nodup_append.mp hdistinct).2.2 _ hmem _ List.mem_cons_self rfl
      have hset := setField_fresh field.2.json hfresh
      cases more with
      | nil =>
          refine ⟨s, by rwa [List.map_singleton, List.intercalate_singleton], ?_⟩
          rw [hends '}' (.inr rfl), endValue, if_neg (by decide)]
          change some _ = _
          rw [hset]
          rfl
      | cons next more =>
          have hcomma : jsonStep s ',' =
              some ⟨.key false, .object (fields ++ [(field.1, field.2.json)]) [] :: stack⟩ := by
            rw [hends ',' (.inl rfl), endValue, if_neg (by decide)]
            change some _ = _
            rw [hset]
          have hdistinct' : ((fields ++ [(field.1, field.2.json)]).map Prod.fst ++
              (next :: more).map Prod.fst).Nodup := by
            rw [List.map_append, List.append_assoc]
            exact hdistinct
          obtain ⟨u, hrest, hclose⟩ := ih (fields ++ [(field.1, field.2.json)]) false []
            (fun h => nomatch h) hdistinct'
          refine ⟨u, ?_, ?_⟩
          · rw [List.map_cons, List.map_cons, List.intercalate_cons_cons, ← List.map_cons,
              List.append_assoc]
            exact hfield.append (.cons (hstack ▸ Nat.le_refl _) hcomma hrest)
          · rw [hclose, List.append_assoc]
            rfl

theorem Record.path (record : Record) :
    ∃ s, Path (stack.length + 1) ⟨.key true, .object [] [] :: stack⟩
        ([','].intercalate (record.fields.map printField)) s ∧
      jsonStep s '}' = some ⟨.done record.json, stack⟩ :=
  path_fields stack record.fields [] true [] (fun _ => rfl) record.distinct

/-- **A record is read, and wherever it is cut off a frame is open.** -/
theorem Record.run_prefix (record : Record) (closes : Bool) {front : Text}
    (hfront : front <+: record.print) (hne : front ≠ []) :
    ∃ u, jsonRun ⟨.value closes, stack⟩ front = some u ∧
      (front = record.print ∧ u = ⟨.done record.json, stack⟩ ∨
        front ≠ record.print ∧ stack.length + 1 ≤ u.stack.length) := by
  obtain ⟨s, hpath, hclose⟩ := record.path stack
  rcases List.prefix_cons_iff.mp hfront with rfl | ⟨rest, rfl, hrest⟩
  · exact absurd rfl hne
  have hopen : jsonStep ⟨.value closes, stack⟩ '{' =
      some ⟨.key true, .object [] [] :: stack⟩ := rfl
  rw [jsonRun_cons, hopen, Option.bind_some]
  rcases List.prefix_concat_iff.mp hrest with rfl | hrest'
  · refine ⟨⟨.done record.json, stack⟩, ?_, .inl ⟨rfl, rfl⟩⟩
    rw [jsonRun_append, hpath.run, Option.bind_some, jsonRun_cons, hclose]
    rfl
  · obtain ⟨u, hrun, hdepth⟩ := hpath.cut hrest'
    refine ⟨u, hrun, .inr ⟨fun heq => ?_, hdepth⟩⟩
    have hlength := congrArg List.length heq
    have hle := hrest'.length_le
    simp only [Record.print, List.length_cons, List.length_append, List.length_nil] at hlength
    omega

/-- **What is written is read.** -/
theorem Record.parse_print (record : Record) : jsonParse record.print = some record.json := by
  obtain ⟨u, hrun, ⟨-, rfl⟩ | ⟨hne, -⟩⟩ :=
    record.run_prefix [] false (List.prefix_refl _) (List.cons_ne_nil _ _)
  · rw [jsonParse, hrun]
    rfl
  · exact absurd rfl hne

end Records

/-! ## No control characters are written -/

theorem hexDigitChar_printable {n : Nat} (h : n < 16) : 0x20 ≤ (hexDigitChar n).toNat := by
  revert n
  decide

theorem quoteUnit_printable {unit : UInt16} {c : Char} (h : c ∈ quoteUnit unit) : 0x20 ≤ c.toNat := by
  have hlt := unit.toNat_lt
  unfold quoteUnit at h
  repeat' split at h
  all_goals simp only [List.mem_cons, List.not_mem_nil, or_false] at h
  · rcases h with rfl | rfl <;> decide
  · rcases h with rfl | rfl <;> decide
  · rcases h with rfl | rfl <;> decide
  · rcases h with rfl | rfl <;> decide
  · rcases h with rfl | rfl <;> decide
  · rcases h with rfl | rfl <;> decide
  · rcases h with rfl | rfl <;> decide
  · rcases h with rfl | rfl | rfl | rfl | rfl | rfl
    · decide
    · decide
    · exact hexDigitChar_printable (by omega)
    · exact hexDigitChar_printable (by omega)
    · exact hexDigitChar_printable (by omega)
    · exact hexDigitChar_printable (by omega)
  · next hplain =>
    simp only [Bool.or_eq_true, decide_eq_true_eq, not_or, Bool.not_eq_true, UInt16.lt_iff_toNat_lt,
      UInt16.reduceToNat, Nat.not_lt] at hplain
    rw [h, toNat_unitChar hplain.2]
    exact hplain.1

theorem quoteUnits_printable (text : JsString) : ∀ c ∈ quoteUnits text, 0x20 ≤ c.toNat := by
  fun_induction quoteUnits text with
  | case1 => exact nofun
  | case2 unit => exact fun c hc => quoteUnit_printable hc
  | case3 unit next rest hpair ih =>
      have hchar := toNat_pairChar hpair
      exact List.forall_mem_cons.mpr ⟨by rw [hchar]; omega, ih⟩
  | case4 unit next rest _ ih =>
      exact List.forall_mem_append.mpr ⟨fun c hc => quoteUnit_printable hc, ih⟩

theorem quote_printable {text : JsString} {c : Char} (h : c ∈ quote text) : 0x20 ≤ c.toNat := by
  rcases List.mem_cons.mp h with rfl | h
  · decide
  rcases List.mem_append.mp h with h | h
  · exact quoteUnits_printable text c h
  · rw [List.mem_singleton.mp h]
    decide

theorem Scalar.printable {scalar : Scalar} {c : Char} (h : c ∈ scalar.print) : 0x20 ≤ c.toNat := by
  have hdigits : ∀ n, c ∈ Nat.toDigits 10 n → 0x20 ≤ c.toNat := by
    intro n hc
    have hdigit := Nat.isDigit_of_mem_toDigits (by decide) (by decide) hc
    rw [Char.isDigit_iff_toNat] at hdigit
    exact Nat.le_trans (by decide) hdigit.1
  cases scalar with
  | null =>
      simp only [Scalar.print, List.mem_cons, List.not_mem_nil, or_false] at h
      rcases h with rfl | rfl | rfl | rfl <;> decide
  | number n =>
      rw [Scalar.print, numeral] at h
      split at h
      · rcases List.mem_cons.mp h with rfl | h
        · decide
        · exact hdigits _ h
      · exact hdigits _ h
  | string text => exact quote_printable h

theorem Record.printable {record : Record} {c : Char} (h : c ∈ record.print) : 0x20 ≤ c.toNat := by
  rcases List.mem_cons.mp h with rfl | h
  · decide
  rcases List.mem_append.mp h with h | h
  · rcases mem_intercalate h with hcomma | ⟨piece, hpiece, hc⟩
    · rw [List.mem_singleton.mp hcomma]
      decide
    · obtain ⟨field, -, rfl⟩ := List.mem_map.mp hpiece
      rcases List.mem_append.mp hc with hc | hc
      · exact quote_printable hc
      rcases List.mem_cons.mp hc with rfl | hc
      · decide
      · exact Scalar.printable hc
  · rw [List.mem_singleton.mp h]
    decide

end Veto.Foundation

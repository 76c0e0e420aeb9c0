import Veto.Foundation.Json
import Veto.Foundation.Torn

/-!
# Lines of JSON

A log has one record on each line.  A crash can cut the last one off, and the next one is then
written behind it.  A line that starts with a piece of a record and goes on with others never closes
the first brace, so nothing is read from it.
-/

namespace Veto.Foundation

/-- The first property of the record has a name that starts with a small letter. -/
def Record.Named (record : Record) : Prop :=
  ∃ unit more value others, record.fields = (unit :: more, value) :: others ∧
    0x61 ≤ unit ∧ unit ≤ 0x7a

/-! ## Characters that a state does not take -/

theorem char_ne_of_toNat {c d : Char} (h : c.toNat ≠ d.toNat) : c ≠ d := fun heq => h (heq ▸ rfl)

section Steps

variable {s t : JsonState} {c : Char} {stack : List JsonFrame}

theorem not_digit {c : Char} (h : 0x39 < c.toNat) : c.isDigit = false := by
  rw [← Bool.not_eq_true, Char.isDigit_iff_toNat]
  exact fun hdigit => absurd hdigit.2 (Nat.not_le.mpr h)

/-- A comma or a bracket ends a value, and nothing else does. -/
theorem endValue_none {value : JsonValue} (hspace : isJsonSpace c = false) (hcomma : c ≠ ',')
    (hbracket : c ≠ ']') (hbrace : c ≠ '}') : endValue stack value c = none := by
  unfold endValue
  rw [if_neg (by rw [hspace]; decide)]
  match stack with
  | [] => rfl
  | .array _ :: _ => exact (if_neg hcomma).trans (if_neg hbracket)
  | .object _ _ :: _ => exact (if_neg hcomma).trans (if_neg hbrace)

/-- A brace opens an object where a value may stand, and is a character of a string. -/
theorem step_brace (h : jsonStep s '{' = some t) :
    (∃ closes, s.reading = .value closes ∧ t = ⟨.key true, .object [] [] :: s.stack⟩) ∨
      ∃ ofKey text, s.reading = .string ofKey text .none ∧
        t = ⟨.string ofKey (text ++ utf16Units '{') .none, s.stack⟩ := by
  obtain ⟨reading, stack⟩ := s
  cases reading with
  | value closes => exact .inl ⟨closes, rfl, (Option.some.inj h).symm⟩
  | key closes => cases closes <;> cases h
  | colon => cases h
  | string ofKey text escape =>
      cases escape with
      | none => exact .inr ⟨ofKey, text, rfl, (Option.some.inj h).symm⟩
      | started => cases h
      | hex => cases h
  | number front phase =>
      have hnone : jsonStep ⟨.number front phase, stack⟩ '{' = none := by
        change stepNumber stack front phase '{' = none
        have hend : endValue stack (.number front) '{' = none :=
          endValue_none (by decide) (by decide) (by decide) (by decide)
        cases phase <;> simp [stepNumber, NumberPhase.next, NumberPhase.complete, hend]
      rw [hnone] at h
      cases h
  | word w seen =>
      have hnone : jsonStep ⟨.word w seen, stack⟩ '{' = none := by
        change stepWord stack w seen '{' = none
        refine if_neg fun hletter => ?_
        have hmem := List.mem_of_getElem? hletter
        revert hmem
        cases w <;> decide
      rw [hnone] at h
      cases h
  | done value =>
      have hnone : jsonStep ⟨.done value, stack⟩ '{' = none :=
        endValue_none (by decide) (by decide) (by decide) (by decide)
      rw [hnone] at h
      cases h

/-- After the end of a string there is no letter. -/
theorem run_quote_letter {ofKey : Bool} {text : JsString} {rest : Text} (hmin : 0x61 ≤ c.toNat)
    (hmax : c.toNat ≤ 0x7a) :
    jsonRun ⟨.string ofKey text .none, stack⟩ ('"' :: c :: rest) = none := by
  have hne : ∀ d : Char, d.toNat < 0x61 ∨ 0x7a < d.toNat → c ≠ d :=
    fun d hd => char_ne_of_toNat (by omega)
  have hspace : isJsonSpace c = false := by
    simp [isJsonSpace, hne ' ' (by decide), hne '\t' (by decide), hne '\n' (by decide),
      hne '\r' (by decide)]
  have hend : ∀ {stack} value, endValue stack value c = none := fun value =>
    endValue_none hspace (hne _ (by decide)) (hne _ (by decide)) (hne _ (by decide))
  have hcolon : ∀ stack, stepColon stack c = none := by
    intro stack
    rw [stepColon, if_neg (by rw [hspace]; decide), if_neg (hne _ (by decide))]
  have hclose : ∀ u, endString stack ofKey text = some u → jsonStep u c = none := by
    intro u hu
    unfold endString at hu
    split at hu
    · split at hu
      · cases hu
        exact hcolon _
      · cases hu
    · cases hu
      exact hend _
  rw [jsonRun_cons]
  change (endString stack ofKey text).bind _ = none
  cases hu : endString stack ofKey text with
  | none => rfl
  | some u => rw [Option.bind_some, jsonRun_cons, hclose u hu, Option.bind_none]

theorem endString_length {ofKey : Bool} {text : JsString}
    (h : endString stack ofKey text = some t) : t.stack.length = stack.length := by
  unfold endString at h
  split at h
  · split at h
    · cases h
      rfl
    · cases h
  · cases h
    rfl

/-- A character beyond ASCII leaves the frames as they are. -/
theorem step_high (hc : 0x80 ≤ c.toNat) (h : jsonStep s c = some t) : t.stack = s.stack := by
  obtain ⟨reading, stack⟩ := s
  have hne : ∀ d : Char, d.toNat < 0x80 → c ≠ d := fun d hd => char_ne_of_toNat (by omega)
  have hspace : isJsonSpace c = false := by
    simp [isJsonSpace, hne ' ' (by decide), hne '\t' (by decide), hne '\n' (by decide),
      hne '\r' (by decide)]
  have hdigit : c.isDigit = false := not_digit (by omega)
  have hend : ∀ value, endValue stack value c = none := fun value =>
    endValue_none hspace (hne _ (by decide)) (hne _ (by decide)) (hne _ (by decide))
  cases reading with
  | value closes =>
      have hnone : beginValue stack closes c = none := by
        simp [beginValue, hspace, hdigit, hne '{' (by decide), hne '"' (by decide),
          hne '[' (by decide), hne 'n' (by decide), hne 't' (by decide), hne 'f' (by decide),
          hne '-' (by decide), hne '0' (by decide), hne ']' (by decide)]
      exact absurd (hnone.symm.trans h) (Option.some_ne_none _).symm
  | key closes =>
      have hnone : stepKey stack closes c = none := by
        simp [stepKey, hspace, hne '"' (by decide), hne '}' (by decide)]
      exact absurd (hnone.symm.trans h) (Option.some_ne_none _).symm
  | colon =>
      have hnone : stepColon stack c = none := by simp [stepColon, hspace, hne ':' (by decide)]
      exact absurd (hnone.symm.trans h) (Option.some_ne_none _).symm
  | string ofKey text escape =>
      change stepString stack ofKey text escape c = some t at h
      cases escape with
      | none =>
          rw [stepString, if_neg (hne _ (by decide)), if_neg (hne _ (by decide)),
            if_neg (by omega)] at h
          cases h
          rfl
      | started =>
          rw [stepString, if_neg (hne _ (by decide))] at h
          obtain ⟨unit, -, rfl⟩ := Option.map_eq_some_iff.mp h
          rfl
      | hex left code =>
          obtain ⟨digit, -, rfl⟩ := Option.map_eq_some_iff.mp h
          dsimp only
          split <;> rfl
  | number front phase =>
      change stepNumber stack front phase c = some t at h
      unfold stepNumber at h
      split at h
      · cases h
        rfl
      · rw [hend, ite_self] at h
        cases h
  | word w seen =>
      change stepWord stack w seen c = some t at h
      unfold stepWord at h
      split at h
      · split at h <;> cases h <;> rfl
      · cases h
  | done value => exact absurd ((hend value).symm.trans h) (Option.some_ne_none _).symm

theorem run_high {tail : Text} (htail : ∀ c ∈ tail, 0x80 ≤ c.toNat) (h : jsonRun s tail = some t) :
    t.stack = s.stack := by
  induction tail generalizing s with
  | nil =>
      cases h
      rfl
  | cons c tail ih =>
      rw [jsonRun_cons] at h
      obtain ⟨u, hstep, hrest⟩ := Option.bind_eq_some_iff.mp h
      rw [ih (fun d hd => htail d (List.mem_cons_of_mem _ hd)) hrest,
        step_high (htail c List.mem_cons_self) hstep]

end Steps

/-! ## A record behind an open frame -/

/-- A named record starts with a brace, a quote and a letter. -/
theorem Record.print_start {record : Record} (h : record.Named) :
    ∃ letter rest, record.print = '{' :: '"' :: letter :: rest ∧ 0x61 ≤ letter.toNat ∧
      letter.toNat ≤ 0x7a := by
  obtain ⟨unit, more, value, others, hfields, hmin, hmax⟩ := h
  rw [UInt16.le_iff_toNat_le] at hmin hmax
  change 0x61 ≤ unit.toNat at hmin
  change unit.toNat ≤ 0x7a at hmax
  have hplain : isSurrogate unit = false := by
    rw [← Bool.not_eq_true, isSurrogate_iff]
    omega
  have hne : ∀ {other : UInt16}, other.toNat < 0x61 → unit ≠ other := by
    rintro other hlt rfl
    omega
  have hunit : quoteUnit unit = [Char.ofNat unit.toNat] := by
    have hcontrol : ¬ unit < 0x20 := by
      rw [UInt16.lt_iff_toNat_lt]
      change ¬ unit.toNat < 0x20
      omega
    unfold quoteUnit
    rw [if_neg (hne (by decide)), if_neg (hne (by decide)), if_neg (hne (by decide)),
      if_neg (hne (by decide)), if_neg (hne (by decide)), if_neg (hne (by decide)),
      if_neg (hne (by decide)), if_neg (by simp [hcontrol, hplain])]
  have hunits : ∃ rest, quoteUnits (unit :: more) = Char.ofNat unit.toNat :: rest := by
    cases more with
    | nil => exact ⟨[], hunit⟩
    | cons next more =>
        have hpair : isPair unit next = false := by
          rw [← Bool.not_eq_true]
          exact fun hpair => Bool.false_ne_true (hplain.symm.trans (isSurrogate_of_isPair hpair))
        rw [quoteUnits, if_neg (by rw [hpair]; decide), hunit]
        exact ⟨_, rfl⟩
  obtain ⟨rest, hrest⟩ := hunits
  have hletter := toNat_unitChar hplain
  rw [Record.print, hfields, List.map_cons]
  cases others with
  | nil =>
      rw [List.map_nil, List.intercalate_singleton, printField, quote, hrest]
      exact ⟨_, _, rfl, by omega, by omega⟩
  | cons other others =>
      rw [List.map_cons, List.intercalate_cons_cons, printField, quote, hrest]
      exact ⟨_, _, rfl, by omega, by omega⟩

/-- Behind an open frame, no piece of a record closes the last one. -/
theorem Record.stays_open {record : Record} (hnamed : record.Named) {s t : JsonState} {front : Text}
    (hfront : front <+: record.print) (hs : 1 ≤ s.stack.length) (h : jsonRun s front = some t) :
    1 ≤ t.stack.length := by
  obtain ⟨letter, rest, hprint, hmin, hmax⟩ := Record.print_start hnamed
  by_cases hempty : front = []
  · subst hempty
    cases h
    exact hs
  obtain ⟨more, rfl⟩ : ∃ more, front = '{' :: more := by
    rw [hprint] at hfront
    rcases List.prefix_cons_iff.mp hfront with rfl | ⟨more, rfl, -⟩
    · exact absurd rfl hempty
    · exact ⟨more, rfl⟩
  have hsplit := h
  rw [jsonRun_cons] at hsplit
  obtain ⟨u, hstep, hmore⟩ := Option.bind_eq_some_iff.mp hsplit
  rcases step_brace hstep with ⟨closes, hreading, -⟩ | ⟨ofKey, text, -, rfl⟩
  · obtain ⟨v, hrun, hv⟩ := record.run_prefix s.stack closes hfront hempty
    have hvalue : s = ⟨.value closes, s.stack⟩ := by
      rw [← hreading]
    rw [hvalue, hrun] at h
    obtain rfl := Option.some.inj h
    rcases hv with ⟨-, rfl⟩ | ⟨-, hdepth⟩
    · exact hs
    · omega
  · rw [hprint] at hfront
    rcases List.prefix_cons_iff.mp (List.prefix_cons_inj '{' |>.mp hfront) with rfl | ⟨more, rfl, hmore'⟩
    · cases hmore
      exact hs
    rcases List.prefix_cons_iff.mp hmore' with rfl | ⟨tail, rfl, -⟩
    · obtain ⟨v, hend, ⟨⟩⟩ := Option.bind_eq_some_iff.mp hmore
      rw [endString_length hend]
      exact hs
    · rw [run_quote_letter hmin hmax] at hmore
      cases hmore

/-! ## Pieces of records on one line -/

/-- What is left of a record: some of its characters, not all unless it is whole, and perhaps
characters beyond ASCII that a cut made. -/
structure Piece (record : Record) (piece : Text) : Prop where
  ne_nil : piece ≠ []
  split : ∃ front tail, piece = front ++ tail ∧ front <+: record.print ∧ front ≠ [] ∧
    (∀ c ∈ tail, 0x80 ≤ c.toNat) ∧ (front = record.print → tail = [])

theorem Piece.whole (record : Record) : Piece record record.print :=
  ⟨List.cons_ne_nil _ _, record.print, [], (List.append_nil _).symm, List.prefix_refl _,
    List.cons_ne_nil _ _, nofun, fun _ => rfl⟩

/-- Whatever follows, a frame stays open. -/
def Broken (line : Text) : Prop :=
  ∀ s, jsonRun ⟨.value false, []⟩ line = some s → 1 ≤ s.stack.length

section Lines

variable {record other : Record} {line piece : Text}

/-- Nothing is read of a broken line. -/
theorem Broken.parse (h : Broken line) : jsonParse line = none := by
  rw [jsonParse]
  cases hrun : jsonRun ⟨.value false, []⟩ line with
  | none => rfl
  | some s =>
      have hopen := h s hrun
      obtain ⟨reading, stack⟩ := s
      cases stack with
      | nil => exact absurd hopen (by simp)
      | cons frame stack => cases reading <;> rfl

theorem Piece.broken (h : Piece record piece) (hcut : piece ≠ record.print) : Broken piece := by
  intro s hs
  obtain ⟨-, front, tail, rfl, hfront, hne, htail, hwhole⟩ := h
  obtain ⟨u, hrun, ⟨hall, -⟩ | ⟨-, hdepth⟩⟩ := record.run_prefix [] false hfront hne
  · rw [hall, hwhole hall, List.append_nil] at hcut
    exact absurd rfl hcut
  · rw [jsonRun_append, hrun, Option.bind_some] at hs
    rw [run_high htail hs]
    exact hdepth

theorem Broken.append (h : Broken line) (hnamed : record.Named) (hpiece : Piece record piece) :
    Broken (line ++ piece) := by
  intro s hs
  obtain ⟨-, front, tail, rfl, hfront, -, htail, -⟩ := hpiece
  rw [jsonRun_append] at hs
  obtain ⟨u, hline, hs⟩ := Option.bind_eq_some_iff.mp hs
  rw [jsonRun_append] at hs
  obtain ⟨v, hrun, hs⟩ := Option.bind_eq_some_iff.mp hs
  rw [run_high htail hs]
  exact Record.stays_open hnamed hfront (h u hline) hrun

/-- A record behind a whole one is not read, nor is the whole one. -/
theorem broken_of_whole (hpiece : Piece record piece) : Broken (other.print ++ piece) := by
  intro s hs
  obtain ⟨-, front, tail, rfl, hfront, hne, -, -⟩ := hpiece
  obtain ⟨u, hrun, ⟨-, rfl⟩ | ⟨hall, -⟩⟩ :=
    other.run_prefix [] false (List.prefix_refl _) (List.cons_ne_nil _ _)
  · rcases List.prefix_cons_iff.mp hfront with rfl | ⟨more, rfl, -⟩
    · exact absurd rfl hne
    rw [jsonRun_append, hrun] at hs
    cases hs
  · exact absurd rfl hall

end Lines

/-! ## A log with torn writes -/

section Log

variable {ρ : Type} (record : ρ → Record)

/-- The bytes of an append. -/
def lineBytes (row : ρ) : Bytes := textBytes ((record row).print ++ ['\n'])

/-- A write to the log: all of it, or the bytes that a crash left, which are not all. -/
inductive LogWrite
  | append (row : ρ)
  | torn (row : ρ) (kept : Nat) (h : kept < (lineBytes record row).length)

variable {record}

def LogWrite.bytes : LogWrite record → Bytes
  | append row => lineBytes record row
  | torn row kept _ => (lineBytes record row).take kept

/-- The file after some writes. -/
def logBytes (writes : List (LogWrite record)) : Bytes := writes.flatMap LogWrite.bytes

def LogWrite.completed : LogWrite record → Option ρ
  | append row => some row
  | torn _ _ _ => none

/-- What crashes have left on the last line: nothing, a whole record without its line feed, or
something else. -/
inductive Left (ρ : Type)
  | nothing
  | whole (row : ρ)
  | pieces

def Left.after (left : Left ρ) : LogWrite record → Left ρ
  | .append _ => .nothing
  | .torn row kept _ =>
      if kept = 0 then left
      else
        match left with
        | .nothing => if kept + 1 = (lineBytes record row).length then .whole row else .pieces
        | _ => .pieces

theorem Left.after_torn_ne {row : ρ} {kept : Nat} {h : kept < (lineBytes record row).length}
    (left : Left ρ) (hne : kept ≠ 0) : left.after (.torn row kept h) ≠ .nothing := by
  unfold Left.after
  dsimp only
  rw [if_neg hne]
  cases left with
  | nothing =>
      dsimp only
      split <;> nofun
  | whole => nofun
  | pieces => nofun

/-- The appends, each with what was left on the line that it was written to. -/
def appends (left : Left ρ) : List (LogWrite record) → List (ρ × Left ρ)
  | [] => []
  | .append row :: writes => (row, left) :: appends .nothing writes
  | .torn row kept h :: writes => appends (left.after (.torn row kept h)) writes

/-- What is left on the last line after some writes. -/
def leftAfter (left : Left ρ) (writes : List (LogWrite record)) : Left ρ := writes.foldl Left.after left

/-- The rows of the appends that nothing was left in front of. -/
def intact (marks : List (ρ × Left ρ)) : List ρ :=
  marks.filterMap fun mark =>
    match mark.2 with
    | .nothing => some mark.1
    | _ => none

/-- The records that a reader finds: the intact ones, and a whole one at the end. -/
def loaded (left : Left ρ) (writes : List (LogWrite record)) : List ρ :=
  intact (appends left writes) ++
  match leftAfter left writes with
  | .whole row => [row]
  | _ => []

/-! ## Decoding a log -/

theorem lineBytes_eq (row : ρ) : lineBytes record row = textBytes (record row).print ++ [0xa] :=
  textBytes_append _ _

theorem startsPlain_line {row : ρ} {bytes : Bytes} (h : bytes <+: lineBytes record row)
    (hne : bytes ≠ []) (rest : Bytes) : StartsPlain (bytes ++ rest) := by
  have hline : lineBytes record row = 0x7b :: (lineBytes record row).tail := rfl
  rw [hline] at h
  rcases List.prefix_cons_iff.mp h with rfl | ⟨more, rfl, -⟩
  · exact absurd rfl hne
  · rintro _ ⟨⟩
    rfl

theorem startsPlain_logBytes (writes : List (LogWrite record)) : StartsPlain (logBytes writes) := by
  induction writes with
  | nil => exact nofun
  | cons write writes ih =>
      rw [logBytes, List.flatMap_cons]
      by_cases hempty : write.bytes = []
      · rw [hempty]
        exact ih
      · cases write with
        | append row => exact startsPlain_line (List.prefix_refl _) hempty _
        | torn row kept h => exact startsPlain_line (List.take_prefix kept _) hempty _

/-- What a torn write leaves is a piece of its record. -/
theorem decode_torn {row : ρ} {kept : Nat} (h : kept < (lineBytes record row).length) (hne : kept ≠ 0)
    {rest : Bytes} (hrest : StartsPlain rest) :
    ∃ piece, decodeUtf8 0 ((lineBytes record row).take kept ++ rest) = piece ++ decodeUtf8 0 rest ∧
      Piece (record row) piece ∧
      (piece = (record row).print ↔ kept + 1 = (lineBytes record row).length) := by
  have hlength : (lineBytes record row).length = (textBytes (record row).print).length + 1 := by
    rw [lineBytes_eq, List.length_append, List.length_singleton]
  have htake : (lineBytes record row).take kept = (textBytes (record row).print).take kept := by
    rw [lineBytes_eq, List.take_append_of_le_length (by omega)]
  obtain ⟨front, high, hbytes, hfront, hhigh, hnext, hwhole⟩ :=
    textBytes_take (record row).print kept
  obtain ⟨tail, htail, hplain, htailnil⟩ := decodeUtf8_high hhigh hrest
  have hlast : ∀ c, (record row).print ++ [c] <+: (record row).print → False := by
    intro c hc
    have hle := hc.length_le
    rw [List.length_append, List.length_singleton] at hle
    omega
  have hfrontne : front ≠ [] := by
    rintro rfl
    -- the brace is one byte, so a cut leaves nothing of it or all of it
    by_cases hhighnil : high = []
    · have hnil : (textBytes (record row).print).take kept = [] := by rw [hbytes, hhighnil]; rfl
      rcases List.take_eq_nil_iff.mp hnil with hzero | hnone
      · exact hne hzero
      · cases hnone
    · obtain ⟨c, hc, hhighc⟩ := hnext hhighnil
      obtain rfl : c = '{' := by
        obtain ⟨more, hmore⟩ := hc
        exact (List.cons.inj hmore).1
      exact absurd hhighc (by decide)
  have hnotail : front = (record row).print → tail = [] := by
    rintro rfl
    rw [htailnil]
    by_contra hhighne
    obtain ⟨c, hc, -⟩ := hnext hhighne
    exact hlast c hc
  refine ⟨front ++ tail, ?_, ⟨by simp [hfrontne], front, tail, rfl, hfront, hfrontne, hplain, hnotail⟩, ?_⟩
  · rw [htake, hbytes, List.append_assoc, decodeUtf8_textBytes, htail, List.append_assoc]
  · have hwhole' : kept + 1 = (lineBytes record row).length ↔ front = (record row).print := by
      rw [hwhole]
      omega
    rw [hwhole']
    constructor
    · intro heq
      by_cases htailne : tail = []
      · rwa [htailne, List.append_nil] at heq
      · have hend := congrArg List.getLast? heq
        rw [List.getLast?_append_of_ne_nil _ htailne, Record.print, ← List.cons_append,
          List.getLast?_concat] at hend
        exact absurd (hplain _ (List.mem_of_getLast? hend)) (by decide)
    · intro heq
      rw [heq, hnotail heq, List.append_nil]

/-! ## Reading a log -/

/-- The line that is being written to is what is left. -/
def Left.Holds (left : Left ρ) (record : ρ → Record) (line : Text) : Prop :=
  match left with
  | .nothing => line = []
  | .whole row => line = (record row).print
  | .pieces => Broken line

theorem Left.holds_torn {left : Left ρ} {line piece : Text} {row : ρ} {kept : Nat}
    (h : kept < (lineBytes record row).length) (hne : kept ≠ 0)
    (hnamed : ∀ row, (record row).Named) (hleft : left.Holds record line)
    (hpiece : Piece (record row) piece)
    (hwhole : piece = (record row).print ↔ kept + 1 = (lineBytes record row).length) :
    (left.after (.torn row kept h)).Holds record (line ++ piece) := by
  unfold Left.after
  dsimp only
  rw [if_neg hne]
  cases left with
  | nothing =>
      obtain rfl : line = [] := hleft
      dsimp only
      split
      · next hall => exact hwhole.mpr hall
      · next hcut => exact hpiece.broken fun heq => hcut (hwhole.mp heq)
  | whole other =>
      obtain rfl : line = (record other).print := hleft
      exact broken_of_whole hpiece
  | pieces => exact Broken.append hleft (hnamed row) hpiece

theorem newline_not_mem_print (record : Record) : '\n' ∉ record.print := fun h =>
  absurd (Record.printable h) (by decide)

theorem Piece.newline_not_mem {record : Record} {piece : Text} (h : Piece record piece) :
    '\n' ∉ piece := by
  obtain ⟨-, front, tail, rfl, hfront, -, hplain, -⟩ := h
  intro hmem
  rcases List.mem_append.mp hmem with hmem | hmem
  · exact newline_not_mem_print record (hfront.subset hmem)
  · exact absurd (hplain _ hmem) (by decide)

/-- A reader of lines that takes every record, and nothing that does not parse. -/
structure ReadsLines (record : ρ → Record) (read : Text → Option JsonValue) : Prop where
  taken : ∀ row, read (record row).print = some (record row).json
  refused : ∀ line, jsonParse line = none → read line = none

variable {read : Text → Option JsonValue}

/-- What is read of the last line. -/
theorem read_left (hread : ReadsLines record read) {left : Left ρ} {line : Text}
    (hleft : left.Holds record line) :
    read line = match left with
      | .whole row => some (record row).json
      | _ => none := by
  cases left with
  | nothing =>
      obtain rfl : line = [] := hleft
      exact hread.refused [] rfl
  | whole row =>
      obtain rfl : line = (record row).print := hleft
      exact hread.taken row
  | pieces => exact hread.refused line (Broken.parse hleft)

/-- What is read of a line that ends with an append. -/
theorem read_append (hread : ReadsLines record read) (hnamed : ∀ row, (record row).Named)
    {left : Left ρ} {line : Text} (hleft : left.Holds record line) (row : ρ) :
    read (line ++ (record row).print) = match left with
      | .nothing => some (record row).json
      | _ => none := by
  cases left with
  | nothing =>
      obtain rfl : line = [] := hleft
      exact hread.taken row
  | whole other =>
      obtain rfl : line = (record other).print := hleft
      exact hread.refused _ (broken_of_whole (Piece.whole (record row))).parse
  | pieces =>
      exact hread.refused _ (Broken.append hleft (hnamed row) (Piece.whole (record row))).parse

/-- **What a reader finds in a log**, whatever was left on the line it begins with. -/
theorem read_log (hread : ReadsLines record read) (hnamed : ∀ row, (record row).Named)
    (writes : List (LogWrite record)) {left : Left ρ} {line : Text}
    (hleft : left.Holds record line) (hline : '\n' ∉ line) :
    ((line ++ decodeUtf8 0 (logBytes writes)).splitOn '\n').filterMap read =
      (loaded left writes).map fun row => (record row).json := by
  induction writes generalizing left line with
  | nil =>
      have hsplit : (line ++ decodeUtf8 0 (logBytes ([] : List (LogWrite record)))).splitOn '\n' =
          [line] := by
        change (line ++ []).splitOn '\n' = [line]
        rw [List.append_nil, List.splitOn_eq_singleton hline]
      rw [hsplit, List.filterMap_cons, read_left hread hleft]
      cases left <;> rfl
  | cons write writes ih =>
      rw [logBytes, List.flatMap_cons]
      change ((line ++ decodeUtf8 0 (write.bytes ++ logBytes writes)).splitOn '\n').filterMap read = _
      cases write with
      | append row =>
          change ((line ++ decodeUtf8 0 (textBytes ((record row).print ++ ['\n']) ++ _)).splitOn
            '\n').filterMap read = _
          have hrest := ih (show Left.nothing.Holds record [] from rfl) (nofun)
          rw [List.nil_append] at hrest
          have hsplit : line ++ ((record row).print ++ ['\n'] ++ decodeUtf8 0 (logBytes writes)) =
              (line ++ (record row).print) ++ '\n' :: decodeUtf8 0 (logBytes writes) := by
            simp only [List.append_assoc, List.singleton_append]
          have hnone : '\n' ∉ line ++ (record row).print := by
            rw [List.mem_append, not_or]
            exact ⟨hline, newline_not_mem_print _⟩
          rw [decodeUtf8_textBytes, hsplit, List.splitOn_append_cons_self,
            List.splitOn_eq_singleton hnone, List.singleton_append, List.filterMap_cons,
            read_append hread hnamed hleft, hrest]
          cases left <;> rfl
      | torn row kept h =>
          by_cases hzero : kept = 0
          · subst hzero
            have hafter : left.after (.torn row 0 h) = left := by cases left <;> rfl
            change ((line ++ decodeUtf8 0 (logBytes writes)).splitOn '\n').filterMap read = _
            rw [ih hleft hline, loaded, loaded, appends, leftAfter, leftAfter, List.foldl_cons, hafter]
          · obtain ⟨piece, hdecode, hpiece, hwhole⟩ :=
              decode_torn h hzero (startsPlain_logBytes writes)
            change ((line ++ decodeUtf8 0 ((lineBytes record row).take kept ++ _)).splitOn
              '\n').filterMap read = _
            rw [hdecode, ← List.append_assoc]
            have hnone : '\n' ∉ line ++ piece := by
              rw [List.mem_append, not_or]
              exact ⟨hline, hpiece.newline_not_mem⟩
            rw [ih (Left.holds_torn h hzero hnamed hleft hpiece hwhole) hnone]
            rfl

/-! ## When the completed appends are found -/

section Intact

variable {β : Type} (f : ρ → β) (marks : List (ρ × Left ρ))

theorem intact_length_le : (intact marks).length ≤ marks.length := List.length_filterMap_le ..

theorem intact_cons (row : ρ) : intact ((row, .nothing) :: marks) = row :: intact marks := rfl

theorem intact_cons_lost {row : ρ} {left : Left ρ} (h : left ≠ .nothing) :
    intact ((row, left) :: marks) = intact marks := by
  cases left with
  | nothing => exact absurd rfl h
  | whole => rfl
  | pieces => rfl

/-- All are intact when none is missing. -/
theorem all_intact {marks : List (ρ × Left ρ)} (h : marks.length ≤ (intact marks).length) :
    ∀ mark ∈ marks, mark.2 = .nothing := by
  induction marks with
  | nil => exact nofun
  | cons mark marks ih =>
      obtain ⟨row, left⟩ := mark
      by_cases hleft : left = .nothing
      · subst hleft
        rw [intact_cons, List.length_cons, List.length_cons] at h
        exact List.forall_mem_cons.mpr ⟨rfl, ih (Nat.le_of_succ_le_succ h)⟩
      · have hle := intact_length_le marks
        rw [intact_cons_lost marks hleft, List.length_cons] at h
        omega

theorem map_intact {marks : List (ρ × Left ρ)} (h : ∀ mark ∈ marks, mark.2 = .nothing) :
    (intact marks).map f = marks.map fun mark => f mark.1 := by
  induction marks with
  | nil => rfl
  | cons mark marks ih =>
      obtain ⟨row, left⟩ := mark
      obtain ⟨hleft, hall⟩ := List.forall_mem_cons.mp h
      obtain rfl : left = .nothing := hleft
      rw [intact_cons, List.map_cons, List.map_cons, ih hall]

theorem intact_eq_iff :
    (intact marks).map f = marks.map (fun mark => f mark.1) ↔ ∀ mark ∈ marks, mark.2 = .nothing := by
  refine ⟨fun heq => all_intact ?_, map_intact f⟩
  have hlength := congrArg List.length heq
  rw [List.length_map, List.length_map] at hlength
  exact Nat.le_of_eq hlength.symm

theorem eq_of_append_singleton {rows : List β} {b last : β} (h : rows ++ [last] = b :: rows) :
    ∀ other ∈ last :: rows, other = b := by
  induction rows generalizing b with
  | nil =>
      obtain ⟨rfl, -⟩ := List.cons.inj h
      exact fun other hother => List.mem_singleton.mp hother
  | cons row rows ih =>
      obtain ⟨rfl, hrest⟩ := List.cons.inj h
      have hall := ih hrest
      intro other hother
      rcases List.mem_cons.mp hother with rfl | hother
      · exact hall _ List.mem_cons_self
      · rcases List.mem_cons.mp hother with rfl | hother
        · rfl
        · exact hall other (List.mem_cons_of_mem _ hother)

theorem append_singleton_eq {rows : List β} {b last : β} (h : ∀ other ∈ last :: rows, other = b) :
    rows ++ [last] = b :: rows := by
  obtain ⟨hlast, hrows⟩ := List.forall_mem_cons.mp h
  rw [hlast, List.eq_replicate_of_mem hrows, ← List.replicate_succ', List.replicate_succ]

/-- With one more at the end, one is missing, and all after it are the same. -/
theorem intact_append_iff (last : ρ) :
    (intact marks).map f ++ [f last] = marks.map (fun mark => f mark.1) ↔
      ∃ before row left after, marks = before ++ (row, left) :: after ∧ left ≠ .nothing ∧
        (∀ mark ∈ before ++ after, mark.2 = .nothing) ∧
        ∀ other ∈ f last :: after.map (fun mark => f mark.1), other = f row := by
  induction marks with
  | nil =>
      refine ⟨nofun, ?_⟩
      rintro ⟨before, row, left, after, h, -⟩
      cases before <;> cases h
  | cons mark marks ih =>
      obtain ⟨row, left⟩ := mark
      by_cases hleft : left = .nothing
      · subst hleft
        rw [intact_cons, List.map_cons, List.map_cons, List.cons_append, List.cons.injEq,
          and_iff_right rfl, ih]
        constructor
        · rintro ⟨before, other, left, after, rfl, hne, hall, hsame⟩
          refine ⟨(row, .nothing) :: before, other, left, after, rfl, hne, ?_, hsame⟩
          exact List.forall_mem_cons.mpr ⟨rfl, hall⟩
        · rintro ⟨_ | ⟨mark, before⟩, other, left, after, h, hne, hall, hsame⟩
          · obtain ⟨⟨⟩, -⟩ := List.cons.inj h
            exact absurd rfl hne
          · obtain ⟨-, rfl⟩ := List.cons.inj h
            exact ⟨before, other, left, after, rfl, hne, (List.forall_mem_cons.mp hall).2, hsame⟩
      · rw [intact_cons_lost marks hleft, List.map_cons]
        constructor
        · intro heq
          have hlength := congrArg List.length heq
          rw [List.length_append, List.length_map, List.length_singleton, List.length_cons,
            List.length_map] at hlength
          have hall := all_intact (Nat.le_of_eq (Nat.succ.inj hlength).symm)
          refine ⟨[], row, left, marks, rfl, hleft, hall, ?_⟩
          rw [map_intact f hall] at heq
          exact eq_of_append_singleton heq
        · rintro ⟨_ | ⟨mark, before⟩, other, left', after, h, hne, hall, hsame⟩
          · obtain ⟨⟨⟩, rfl⟩ := List.cons.inj h
            rw [List.nil_append] at hall
            rw [map_intact f hall]
            exact append_singleton_eq hsame
          · obtain ⟨rfl, -⟩ := List.cons.inj h
            exact absurd (hall _ List.mem_cons_self) hleft

end Intact

theorem appends_completed (left : Left ρ) (writes : List (LogWrite record)) :
    (appends left writes).map Prod.fst = writes.filterMap LogWrite.completed := by
  induction writes generalizing left with
  | nil => rfl
  | cons write writes ih =>
      cases write with
      | append row => rw [appends, List.map_cons, ih]; rfl
      | torn row kept h => rw [appends, ih]; rfl

/-- A crash that left at least a byte. -/
def LogWrite.Leaves : LogWrite record → Prop
  | append _ => False
  | torn _ kept _ => kept ≠ 0

theorem Left.after_torn_eq_nothing {left : Left ρ} {row : ρ} {kept : Nat}
    {h : kept < (lineBytes record row).length} :
    left.after (.torn row kept h) = .nothing ↔ left = .nothing ∧ kept = 0 := by
  by_cases hzero : kept = 0
  · subst hzero
    rw [and_iff_left rfl]
    rfl
  · exact iff_of_false (Left.after_torn_ne left hzero) fun h => hzero h.2

/-- Nothing is left in front of an append when no crash before it left anything. -/
theorem appends_nothing_iff (left : Left ρ) (writes : List (LogWrite record)) :
    (∀ mark ∈ appends left writes, mark.2 = .nothing) ↔
      (left ≠ .nothing → ∀ write ∈ writes, write.completed = none) ∧
        writes.Pairwise fun write next => write.Leaves → next.completed = none := by
  induction writes generalizing left with
  | nil => exact iff_of_true nofun ⟨fun _ => nofun, .nil⟩
  | cons write writes ih =>
      cases write with
      | append row =>
          rw [appends, List.forall_mem_cons, ih, List.pairwise_cons, List.forall_mem_cons]
          constructor
          · rintro ⟨hleft, -, hrest⟩
            exact ⟨fun hne => absurd hleft hne, fun _ _ => False.elim, hrest⟩
          · rintro ⟨hleft, -, hrest⟩
            exact ⟨by_contra fun hne => Option.some_ne_none row (hleft hne).1, fun hne => absurd rfl hne, hrest⟩
      | torn row kept h =>
          rw [appends, ih, List.pairwise_cons, List.forall_mem_cons, Ne,
            Left.after_torn_eq_nothing, not_and_or]
          constructor
          · rintro ⟨hleft, hrest⟩
            exact ⟨fun hne => ⟨rfl, hleft (.inl hne)⟩,
              fun next hnext hkept => hleft (.inr hkept) next hnext, hrest⟩
          · rintro ⟨hleft, hkept, hrest⟩
            refine ⟨?_, hrest⟩
            rintro (hne | hne)
            · exact (hleft hne).2
            · exact fun next hnext => hkept next hnext hne

/-- No append comes after a crash that left something, and no whole record ends the file without
its line feed. -/
def Undisturbed (writes : List (LogWrite record)) : Prop :=
  (writes.Pairwise fun write next => write.Leaves → next.completed = none) ∧
    ∀ row, leftAfter .nothing writes ≠ .whole row

/-- The record that ends the file without its line feed stands in for the one append that was lost:
every append after it wrote the same record. -/
def StandsIn (writes : List (LogWrite record)) : Prop :=
  ∃ before row left after last, appends .nothing writes = before ++ (row, left) :: after ∧
    left ≠ .nothing ∧ (∀ mark ∈ before ++ after, mark.2 = .nothing) ∧
    leftAfter .nothing writes = .whole last ∧
    ∀ other ∈ last :: after.map Prod.fst, (record other).json = (record row).json

theorem StandsIn.absurd {writes : List (LogWrite record)}
    (h : ∀ row, leftAfter .nothing writes ≠ .whole row) : ¬ StandsIn writes := by
  rintro ⟨-, -, -, -, last, -, -, -, hlast, -⟩
  exact h last hlast

/-- A reader finds the completed appends and nothing else exactly when no write was disturbed, but
for a record that stands in for the same one. -/
theorem read_completed_iff (hread : ReadsLines record read) (hnamed : ∀ row, (record row).Named)
    (writes : List (LogWrite record)) :
    ((decodeUtf8 0 (logBytes writes)).splitOn '\n').filterMap read =
        (writes.filterMap LogWrite.completed).map (fun row => (record row).json) ↔
      Undisturbed writes ∨ StandsIn writes := by
  have hfound := read_log hread hnamed writes (show Left.nothing.Holds record [] from rfl) nofun
  rw [List.nil_append] at hfound
  rw [hfound, ← appends_completed .nothing, List.map_map, loaded, List.map_append]
  have hintact := intact_eq_iff (fun row => (record row).json) (appends .nothing writes)
  rw [appends_nothing_iff, and_iff_right fun hne => absurd rfl hne] at hintact
  have happend := intact_append_iff (fun row => (record row).json) (appends .nothing writes)
  cases hleft : leftAfter .nothing writes with
  | whole last =>
      rw [or_iff_right fun h => h.2 last hleft]
      refine (happend last).trans ?_
      constructor
      · rintro ⟨before, row, left, after, hsplit, hne, hall, hsame⟩
        refine ⟨before, row, left, after, last, hsplit, hne, hall, hleft, fun other hother => ?_⟩
        rcases List.mem_cons.mp hother with rfl | hother
        · exact hsame _ List.mem_cons_self
        · obtain ⟨mark, hmark, rfl⟩ := List.mem_map.mp hother
          exact hsame _ (List.mem_cons_of_mem _ (List.mem_map.mpr ⟨mark, hmark, rfl⟩))
      · rintro ⟨before, row, left, after, other, hsplit, hne, hall, hlast, hsame⟩
        obtain rfl : last = other := Left.whole.inj (hleft.symm.trans hlast)
        refine ⟨before, row, left, after, hsplit, hne, hall, ?_⟩
        exact List.forall_mem_cons.mpr ⟨hsame last List.mem_cons_self, by
          intro value hvalue
          obtain ⟨mark, hmark, rfl⟩ := List.mem_map.mp hvalue
          exact hsame _ (List.mem_cons_of_mem _ (List.mem_map_of_mem hmark))⟩
  | nothing =>
      have hlast : ∀ row, leftAfter .nothing writes ≠ .whole row := fun row hrow =>
        nomatch hleft.symm.trans hrow
      rw [or_iff_left (StandsIn.absurd hlast), List.map_nil, List.append_nil]
      exact hintact.trans (and_iff_left hlast).symm
  | pieces =>
      have hlast : ∀ row, leftAfter .nothing writes ≠ .whole row := fun row hrow =>
        nomatch hleft.symm.trans hrow
      rw [or_iff_left (StandsIn.absurd hlast), List.map_nil, List.append_nil]
      exact hintact.trans (and_iff_left hlast).symm

end Log

end Veto.Foundation

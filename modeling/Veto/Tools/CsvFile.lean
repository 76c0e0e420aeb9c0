import Veto.Tools.Exported

/-!
# An export as CSV is read back

The CSV of a bundle is read as the bundle, exactly when every purpose is there and is one line.  Where
a date range names no mandate, the first decision does.
-/

namespace Veto.Tools

open Foundation

/-! ## Lines -/

section Units

variable {text : JsString} {unit : UInt16} {n : Int}

theorem Line.noReturn (h : Line text) : text.getLast? ≠ some csvMarks.carriageReturn := by
  intro hlast
  exact absurd (h.trimmed _ hlast) (by decide)

/-- Without blanks. -/
theorem line_of_solid (h : ∀ unit ∈ text, App.isSpaceUnit unit = false) : Line text where
  oneLine := fun hfeed => absurd (h _ hfeed) (by decide)
  trimmed := fun unit hlast => h unit (List.mem_of_getLast? hlast)

theorem solid_of_all (h : text.all (fun unit => !App.isSpaceUnit unit) = true) :
    ∀ unit ∈ text, App.isSpaceUnit unit = false :=
  fun unit hunit => (Bool.not_eq_true' _).mp (List.all_eq_true.mp h unit hunit)

theorem solid_of_range (hmin : 0x21 ≤ unit.toNat) (hmax : unit.toNat ≤ 0x7e) :
    App.isSpaceUnit unit = false := by
  rw [← Bool.not_eq_true]
  simp [App.isSpaceUnit, UInt16.le_iff_toNat_le, ← UInt16.toNat_inj]
  omega

theorem solid_base58 (h : text.all isBase58Unit = true) :
    ∀ unit ∈ text, App.isSpaceUnit unit = false := by
  intro unit hunit
  have hrange := base58Unit_range (List.all_eq_true.mp h unit hunit)
  exact solid_of_range (by omega) (by omega)

theorem base58_address (key : Pubkey) : (address key).all isBase58Unit = true := by
  have halphabet : base58Alphabet.all (fun c => (utf16Units c).all isBase58Unit) = true := by decide
  rw [List.all_eq_true]
  intro unit hunit
  obtain ⟨c, hc, hin⟩ := List.mem_flatMap.mp hunit
  have hchar := List.all_eq_true.mp halphabet c (mem_base58Alphabet_of_display hc)
  exact List.all_eq_true.mp hchar unit hin

theorem line_address (key : Pubkey) : Line (address key) :=
  line_of_solid (solid_base58 (base58_address key))

theorem solid_digits {digits : JsString} (h : isDigits digits = true) :
    ∀ unit ∈ digits, App.isSpaceUnit unit = false := by
  intro unit hunit
  rw [isDigits, Bool.and_eq_true] at h
  have hdigit := List.all_eq_true.mp h.2 unit hunit
  rw [Sdk.isDigit, Bool.and_eq_true, decide_eq_true_eq, decide_eq_true_eq, UInt16.le_iff_toNat_le,
    UInt16.le_iff_toNat_le] at hdigit
  exact solid_of_range (le_trans (by decide) hdigit.1) (hdigit.2.trans (by decide))

theorem line_integer (n : Int) : Line (integerString n) := by
  have h := (integerString_reads n).1
  refine line_of_solid ?_
  unfold isIntegerText at h
  split at h
  · rename_i digits heq
    rw [heq, List.forall_mem_cons]
    exact ⟨by decide, solid_digits h⟩
  · exact solid_digits h

/-- A number is written as an integer. -/
theorem numberString_eq (n : Int) : numberString n = integerString (writtenNumber n) := rfl

theorem numberString_small (h : n.natAbs ≤ MAX_SAFE_INTEGER) : numberString n = integerString n := by
  rw [numberString_eq, writtenNumber_small h]

end Units

/-! ## Comments -/

/-- The names and the values of the comments. -/
def commentPairs (bundle : DecisionBundle) : List (String × JsString) :=
  [("completeness", bundle.completeness),
    ("completeness_note", bundle.completenessNote),
    ("cluster", bundle.cluster),
    ("genesis_hash", bundle.genesisHash),
    ("program_id", bundle.programId),
    ("scope_type", bundle.scope.type.name),
    ("scope_mandate", bundle.scope.mandate.getD []),
    ("scope_from", bundle.scope.fromTime.elim [] numberString),
    ("scope_to", bundle.scope.toTime.elim [] numberString)]

theorem csvComments_eq (bundle : DecisionBundle) :
    csvComments bundle = (commentPairs bundle).map fun pair => comment pair.1 pair.2 := rfl

section Comments

variable {name : String} {value : JsString}

theorem comment_eq (name : String) (value : JsString) :
    comment name value = 0x23 :: 0x20 :: (js name ++ 0x3d :: value) := by
  unfold comment
  rw [List.append_assoc, List.append_assoc]
  rfl

theorem columnUnit_range {unit : UInt16} (h : isColumnUnit unit = true) :
    0x5f ≤ unit.toNat ∧ unit.toNat ≤ 0x7a := by
  rw [isColumnUnit, Bool.or_eq_true, Bool.and_eq_true, decide_eq_true_eq, decide_eq_true_eq,
    decide_eq_true_eq, UInt16.le_iff_toNat_le, UInt16.le_iff_toNat_le] at h
  rcases h with h | rfl
  · exact ⟨le_trans (by decide) h.1, h.2⟩
  · decide

theorem getLast?_assigned (value : JsString) (front : JsString) :
    (front ++ 0x3d :: value).getLast? = some (value.getLast?.getD 0x3d) := by
  rw [List.getLast?_append_cons, List.getLast?_cons]

theorem assigned_trimmed (hvalue : Line value) (front : JsString) :
    ∀ unit, (front ++ 0x3d :: value).getLast? = some unit → App.isSpaceUnit unit = false := by
  intro unit hlast
  rw [getLast?_assigned, Option.some.injEq] at hlast
  cases hvalueLast : value.getLast? with
  | none =>
      rw [hvalueLast] at hlast
      exact hlast ▸ by decide
  | some last =>
      rw [hvalueLast] at hlast
      exact hlast ▸ hvalue.trimmed last hvalueLast

theorem line_comment (hname : (js name).all isColumnUnit = true) (hvalue : Line value) :
    Line (comment name value) := by
  rw [comment_eq]
  constructor
  · intro hfeed
    simp only [List.mem_cons, List.mem_append] at hfeed
    rcases hfeed with h | h | h | h | h
    · cases h
    · cases h
    · have hrange := columnUnit_range (List.all_eq_true.mp hname _ h)
      exact absurd hrange.1 (by decide)
    · cases h
    · exact hvalue.oneLine h
  · exact assigned_trimmed hvalue (0x23 :: 0x20 :: js name)

/-- A comment is read back. -/
theorem readComment_comment (hname : (js name).all isColumnUnit = true) (hne : js name ≠ [])
    (hvalue : Line value) : readComment (comment name value) = some (js name, value) := by
  have hbody : App.trim (0x20 :: (js name ++ 0x3d :: value)) = js name ++ 0x3d :: value := by
    obtain ⟨first, rest, hcons⟩ := List.exists_cons_of_ne_nil hne
    have hfirst : App.isSpaceUnit first = false := by
      have hrange := columnUnit_range (List.all_eq_true.mp hname first (hcons ▸ List.mem_cons_self))
      exact solid_of_range (by omega) (by omega)
    have hdrop : ¬ App.isSpaceUnit first = true := Bool.eq_false_iff.mp hfirst
    unfold App.trim
    rw [List.dropWhile_cons_of_pos (by decide), hcons, List.cons_append,
      List.dropWhile_cons_of_neg hdrop, ← List.cons_append, ← hcons, List.rdropWhile_eq_self_iff]
    intro hbody
    exact Bool.eq_false_iff.mp
      (assigned_trimmed hvalue (js name) _ (List.getLast?_eq_some_getLast hbody))
  have htake : (js name ++ 0x3d :: value).takeWhile (· ≠ 0x3d) = js name := by
    have hpos : ∀ unit ∈ js name, decide (unit ≠ 0x3d) = true := by
      intro unit hunit
      refine decide_eq_true fun heq => ?_
      have hrange := columnUnit_range (List.all_eq_true.mp hname unit hunit)
      rw [heq] at hrange
      exact absurd hrange.1 (by decide)
    rw [List.takeWhile_append_of_pos hpos, List.takeWhile_cons_of_neg (by decide), List.append_nil]
  have hshort : js name ≠ js name ++ 0x3d :: value := by
    intro heq
    have hlength := congrArg List.length heq
    rw [List.length_append, List.length_cons] at hlength
    omega
  rw [comment_eq]
  unfold readComment
  rw [List.head?_cons, if_pos rfl, List.drop_succ_cons, List.drop_zero]
  dsimp only
  rw [hbody, htake, if_neg (not_or.mpr ⟨hne, hshort⟩), List.drop_append,
    List.drop_of_length_le (Nat.le_succ _), List.nil_append, Nat.add_sub_cancel_left,
    List.drop_succ_cons, List.drop_zero]

end Comments

/-! ## Cells -/

section Cells

variable {place : ExportPlace} {scope : ExportScope} {records : List DecisionRecord}
  {record other : DecisionRecord} {comments : List (JsString × JsString)}

/-- The names of the columns. -/
def columns : List JsString := CSV_COLUMNS.map js

theorem columns_nodup : columns.Nodup := by decide

theorem columnIndex_columns {name : String} {i : Nat} (h : columns[i]? = some (js name)) :
    columnIndex columns name = some i := by
  refine find_key ?_ ?_
  · rw [List.map_reverse, List.nodup_reverse, List.zipIdx_map_fst]
    exact columns_nodup
  · rw [List.mem_reverse, List.mk_mem_zipIdx_iff_getElem?]
    exact h

theorem cell_columns {cols : List JsString} {name : String} (i : Nat) {value : JsString}
    (h : columns[i]? = some (js name)) (hvalue : cols[i]? = some value) :
    cell columns cols name = value := by
  rw [cell, columnIndex_columns h, Option.bind_some, hvalue, Option.getD_some]

/-- The fields that a row of a record is read as. -/
def rowFields (record : DecisionRecord) : List (JsString × JsValue) :=
  [(js "schema_version", .number (.finite 1)),
    (js "cluster", .string record.cluster),
    (js "genesis_hash", .string record.genesisHash),
    (js "program_id", .string record.programId),
    (js "mandate", .string record.mandate),
    (js "limits", .object [
      (js "cap", .string (integerString record.limits.cap)),
      (js "per_tx_max", .string (integerString record.limits.perTxMax)),
      (js "expires_at", .string (integerString record.limits.expiresAt)),
      (js "merchant", .string record.limits.merchant),
      (js "purpose", .string record.limits.purpose)]),
    (js "kind", .string record.kind.name),
    (js "amount", .string (integerString record.amount)),
    (js "counterparty", .string record.counterparty),
    (js "timestamp", .string (integerString record.timestamp)),
    (js "nonce", .string (integerString record.nonce)),
    (js "reason_code", .string (integerString record.reasonCode)),
    (js "reason_text", .string record.reasonText),
    (js "suggested_override", .string (integerString record.suggestedOverride)),
    (js "signature", .string record.signature)]

theorem orElse_of_ne {a b : JsString} (h : a ≠ []) : orElse a b = a := if_neg h

theorem stringToNumber_one : stringToNumber (js "1") = .finite 1 := by
  have hliteral : decimalLiteral ['1'] = some ((1 : ℤ) : ℚ) := decimalLiteral_numeral 1
  change (decimalLiteral ['1']).elim .nan nearestDouble = _
  rw [hliteral, Option.elim_some, nearestDouble_int (Nat.one_lt_two_pow (by decide))]
  rfl

theorem csvRecord_row (h : Recorded place record) (hcluster : Label place.cluster) :
    csvRecord comments columns (rowValues (makeBundle place scope records) record) =
      .object (rowFields record) := by
  have hversion : numberString record.schemaVersion = js "1" := by
    rw [h.schemaVersion]
    exact numberString_small (by decide)
  have hclusterNe : record.cluster ≠ [] := h.cluster ▸ hcluster.named
  have honeNe : js "1" ≠ [] := by decide
  unfold csvRecord csvFields
  dsimp only
  rw [cell_columns 5 rfl rfl, cell_columns 6 rfl rfl, cell_columns 7 rfl rfl,
    cell_columns 8 rfl rfl, cell_columns 9 rfl rfl, cell_columns 10 rfl rfl,
    cell_columns 11 rfl rfl, cell_columns 12 rfl rfl, cell_columns 13 rfl rfl,
    cell_columns 14 rfl rfl, cell_columns 15 rfl rfl, cell_columns 16 rfl rfl,
    cell_columns 17 rfl rfl, cell_columns 18 rfl rfl, cell_columns 19 rfl rfl,
    cell_columns 20 rfl rfl, cell_columns 21 rfl rfl, cell_columns 22 rfl rfl,
    cell_columns 23 rfl rfl, hversion, orElse_of_ne honeNe, stringToNumber_one,
    orElse_of_ne hclusterNe, numberString_small h.reasonCode_small.1]
  rfl

theorem rowFields_keys (record : DecisionRecord) : ((rowFields record).map Prod.fst).Nodup :=
  record_keys record

/-- The limits of a row. -/
def rowLimits (limits : Limits) : List (JsString × JsValue) :=
  [(js "cap", .string (integerString limits.cap)),
    (js "per_tx_max", .string (integerString limits.perTxMax)),
    (js "expires_at", .string (integerString limits.expiresAt)),
    (js "merchant", .string limits.merchant),
    (js "purpose", .string limits.purpose)]

theorem rowLimits_keys (limits : Limits) : ((rowLimits limits).map Prod.fst).Nodup :=
  limits_keys limits

theorem Recorded.rowFrom (h : Recorded place record) (hcluster : Label place.cluster)
    (hgenesis : Label place.genesisHash) (hpurpose : record.limits.purpose ≠ []) :
    RecordFrom (rowFields record) (rowLimits record.limits) record := by
  have hkeys := rowFields_keys record
  have hlimits := rowLimits_keys record.limits
  obtain ⟨mandate, hmandate⟩ := h.mandate
  obtain ⟨merchant, hmerchant⟩ := h.merchant
  obtain ⟨counterparty, hcounterparty⟩ := h.counterparty
  obtain ⟨hsmall, hbyte⟩ := h.reasonCode_small
  refine ⟨⟨1, ?_, by rw [h.schemaVersion]; rfl⟩, h.schemaVersion, ⟨record.kind.name, ?_, ?_⟩, ?_,
    ⟨record.reasonCode, ?_, toNumber_small hsmall⟩, hbyte, ?_, ?_, ?_, ?_, ⟨?_, ?_, ?_, ?_, ?_⟩, ?_,
    ?_, ?_, ?_, ?_, ?_, ?_⟩
  · rw [field_at (i := 0) hkeys rfl]
    rfl
  · rw [field_at (i := 6) hkeys rfl]
    exact requireString_of_ne (requireKind_name _).1
  · exact (requireKind_name _).2
  · rw [field_at (i := 5) hkeys rfl]
    rfl
  · rw [field_at (i := 11) hkeys rfl, requireSafeInt_integerString]
  · rw [field_at (i := 1) hkeys rfl]
    exact requireString_of_ne (h.cluster ▸ hcluster.named)
  · rw [field_at (i := 2) hkeys rfl]
    exact requireString_of_ne (h.genesisHash ▸ hgenesis.named)
  · rw [field_at (i := 3) hkeys rfl, h.programId]
    exact requirePubkey_address _
  · rw [field_at (i := 4) hkeys rfl, hmandate]
    exact requirePubkey_address _
  · rw [field_at (i := 0) hlimits rfl, requireSafeInt_integerString]
  · rw [field_at (i := 1) hlimits rfl, requireSafeInt_integerString]
  · rw [field_at (i := 2) hlimits rfl, requireSafeInt_integerString]
  · rw [field_at (i := 3) hlimits rfl, hmerchant]
    exact requirePubkey_address _
  · rw [field_at (i := 4) hlimits rfl]
    exact requireString_of_ne hpurpose
  · rw [field_at (i := 7) hkeys rfl, requireSafeInt_integerString]
  · rw [field_at (i := 8) hkeys rfl, hcounterparty]
    exact requirePubkey_address _
  · rw [field_at (i := 9) hkeys rfl, requireSafeInt_integerString]
  · rw [field_at (i := 10) hkeys rfl, requireSafeInt_integerString]
  · rw [field_at (i := 12) hkeys rfl]
    exact requireString_of_ne h.reasonText.1
  · rw [field_at (i := 13) hkeys rfl, requireSafeInt_integerString]
  · rw [field_at (i := 14) hkeys rfl]
    exact fileSignature_of h.signature

/-- **The row of a record is read as the record, or not at all.** -/
theorem Recorded.parseRow_iff (h : Recorded place record) (hcluster : Label place.cluster)
    (hgenesis : Label place.genesisHash) (r : Nat) :
    parseRow comments columns r (rowValues (makeBundle place scope records) record) = .ok other ↔
      other = record ∧ record.limits.purpose ≠ [] := by
  have hcompleteness : orElse COMPLETENESS ((metaValue comments "completeness").getD []) =
      COMPLETENESS := orElse_of_ne (by decide)
  unfold parseRow
  rw [cell_columns 0 rfl rfl, csvRecord_row h hcluster]
  change (require (orElse COMPLETENESS _ = COMPLETENESS) _ >>= _) = _ ↔ _
  rw [hcompleteness, require_true rfl, ok_bind]
  constructor
  · intro hother
    obtain ⟨lim, hfrom⟩ := parseRecord_eq_ok.mp hother
    have hlim := hfrom.limitsObject
    rw [field_at (i := 5) (rowFields_keys record) rfl] at hlim
    obtain rfl : rowLimits record.limits = lim := Except.ok.inj hlim
    have hpurpose := hfrom.limits.purpose
    rw [field_at (i := 4) (rowLimits_keys record.limits) rfl] at hpurpose
    have hne := requireString_text hpurpose
    have hrecord := parseRecord_eq_ok.mpr ⟨_, h.rowFrom hcluster hgenesis hne⟩
    exact ⟨Except.ok.inj (hother.symm.trans hrecord), hne⟩
  · rintro ⟨rfl, hpurpose⟩
    exact parseRecord_eq_ok.mpr ⟨_, h.rowFrom hcluster hgenesis hpurpose⟩

end Cells

/-! ## The lines of a file -/

section Lines

variable {place : ExportPlace} {scope : ExportScope} {records : List DecisionRecord}
  {record : DecisionRecord}

theorem line_nil : Line [] := line_of_solid fun _ h => absurd h List.not_mem_nil

theorem line_bound (bound : Option Int) : Line (bound.elim [] numberString) := by
  cases bound with
  | none => exact line_nil
  | some n => exact line_integer (writtenNumber n)

theorem ScopeBuilt.mandate_line (h : ScopeBuilt scope) : Line (scope.mandate.getD []) := by
  cases hmandate : scope.mandate with
  | none => exact line_nil
  | some text =>
      obtain ⟨key, rfl⟩ := h.mandate text hmandate
      exact line_address key

theorem line_type (type : ScopeType) : Line type.name := by
  cases type
  · exact line_of_solid (solid_of_all (by decide))
  · exact line_of_solid (solid_of_all (by decide))

set_option maxRecDepth 4000 in
theorem line_note : Line COMPLETENESS_NOTE where
  oneLine := by
    unfold COMPLETENESS_NOTE
    decide
  trimmed := by
    intro unit hlast
    have hdot : COMPLETENESS_NOTE.getLast? = some 0x2e := by
      unfold COMPLETENESS_NOTE
      decide
    rw [hdot] at hlast
    cases hlast
    decide

/-- Comments have names of their own, and values that are read back. -/
theorem comment_lines (hcluster : Label place.cluster) (hgenesis : Label place.genesisHash)
    (hscope : ScopeBuilt scope) : ∀ pair ∈ commentPairs (makeBundle place scope records),
      (js pair.1).all isColumnUnit = true ∧ js pair.1 ≠ [] ∧ Line pair.2 := by
  have hcompleteness : Line COMPLETENESS := line_of_solid (solid_of_all (by decide))
  simp only [commentPairs, List.forall_mem_cons]
  exact ⟨⟨by decide, by decide, hcompleteness⟩, ⟨by decide, by decide, line_note⟩,
    ⟨by decide, by decide, hcluster.toLine⟩, ⟨by decide, by decide, hgenesis.toLine⟩,
    ⟨by decide, by decide, line_address _⟩, ⟨by decide, by decide, line_type _⟩,
    ⟨by decide, by decide, hscope.mandate_line⟩, ⟨by decide, by decide, line_bound _⟩,
    ⟨by decide, by decide, line_bound _⟩, fun _ h => absurd h List.not_mem_nil⟩

theorem cells_oneLine (records : List DecisionRecord) (h : Recorded place record) (hcluster : Label place.cluster)
    (hgenesis : Label place.genesisHash) (hscope : ScopeBuilt scope)
    (hpurpose : csvMarks.lineFeed ∉ record.limits.purpose) :
    ∀ cell ∈ rowValues (makeBundle place scope records) record, csvMarks.lineFeed ∉ cell := by
  obtain ⟨mandate, hmandate⟩ := h.mandate
  obtain ⟨merchant, hmerchant⟩ := h.merchant
  obtain ⟨counterparty, hcounterparty⟩ := h.counterparty
  have hversion : numberString record.schemaVersion = integerString 1 := by
    rw [h.schemaVersion]
    exact numberString_small (by decide)
  have hkind : csvMarks.lineFeed ∉ record.kind.name := by
    cases record.kind <;> decide
  have hcompleteness : csvMarks.lineFeed ∉ COMPLETENESS := by decide
  simp only [rowValues, List.forall_mem_cons]
  rw [hversion, numberString_small h.reasonCode_small.1, h.cluster, h.genesisHash, h.programId,
    hmandate, hmerchant, hcounterparty]
  exact ⟨hcompleteness, (line_type _).oneLine, hscope.mandate_line.oneLine,
    (line_bound _).oneLine, (line_bound _).oneLine,
    (line_integer _).oneLine, hcluster.oneLine, hgenesis.oneLine, (line_address _).oneLine,
    (line_address _).oneLine, (line_integer _).oneLine, (line_integer _).oneLine,
    (line_integer _).oneLine, (line_address _).oneLine, hpurpose, hkind, (line_integer _).oneLine,
    (line_address _).oneLine, (line_integer _).oneLine, (line_integer _).oneLine,
    (line_integer _).oneLine, h.reasonText.2, (line_integer _).oneLine,
    (line_of_solid (solid_base58 h.signature.units)).oneLine, fun _ h => absurd h List.not_mem_nil⟩

def rowLine (bundle : DecisionBundle) (record : DecisionRecord) : JsString :=
  csvMarks.line (rowValues bundle record)

theorem signature_plain (h : IsSignature record.signature) :
    csvMarks.escape record.signature = record.signature := by
  refine CsvMarks.escape_plain (List.any_eq_false.mpr fun unit hunit hmark => ?_)
  have hrange := base58Unit_range (List.all_eq_true.mp h.units unit hunit)
  simp only [CsvMarks.isMark, Bool.or_eq_true, decide_eq_true_eq] at hmark
  rcases hmark with ((rfl | rfl) | rfl) | rfl
  · exact absurd hrange.1 (by decide)
  · exact absurd hrange.1 (by decide)
  · exact absurd hrange.1 (by decide)
  · exact absurd hrange.1 (by decide)

/-- A row ends with its signature. -/
theorem row_trimmed (h : Recorded place record) : ∀ unit,
    (rowLine (makeBundle place scope records) record).getLast? = some unit →
      App.isSpaceUnit unit = false := by
  intro unit hlast
  have hne : record.signature ≠ [] := List.ne_nil_of_length_pos (by have := h.signature.long; omega)
  have hrow : rowValues (makeBundle place scope records) record =
      (rowValues (makeBundle place scope records) record).take 23 ++ [record.signature] := rfl
  rw [rowLine, hrow, CsvMarks.line_append _ (List.cons_ne_nil _ _), CsvMarks.line_single,
    signature_plain h.signature, List.getLast?_append_of_ne_nil _ hne] at hlast
  exact (line_of_solid (solid_base58 h.signature.units)).trimmed unit hlast

theorem line_row (records : List DecisionRecord) (h : Recorded place record) (hcluster : Label place.cluster)
    (hgenesis : Label place.genesisHash) (hscope : ScopeBuilt scope)
    (hpurpose : csvMarks.lineFeed ∉ record.limits.purpose) :
    Line (rowLine (makeBundle place scope records) record) where
  oneLine := CsvMarks.lineFeed_not_mem_line (cells_oneLine records h hcluster hgenesis hscope hpurpose)
  trimmed := row_trimmed h

/-- A row begins with its completeness. -/
theorem head_row (place : ExportPlace) (scope : ExportScope) (records : List DecisionRecord)
    (record : DecisionRecord) :
    (rowLine (makeBundle place scope records) record).head? = some 0x70 := by
  rw [rowLine, rowValues, CsvMarks.line_cons _ (List.cons_ne_nil _ _)]
  rfl

theorem csvHeader_eq : csvHeader = csvMarks.line columns := by
  have hplain : columns.map csvMarks.escape = columns := by decide
  rw [CsvMarks.line, hplain]
  rfl

theorem cells_header : csvMarks.cells csvHeader = columns := by
  rw [csvHeader_eq]
  exact CsvMarks.cells_line (List.cons_ne_nil _ _)

theorem line_header : Line csvHeader where
  oneLine := csvHeader_eq ▸ CsvMarks.lineFeed_not_mem_line (by decide)
  trimmed := by
    intro unit hlast
    have hfront : columns = columns.take 23 ++ [js "signature"] := rfl
    have hne : js "signature" ≠ [] := by decide
    rw [csvHeader_eq, hfront, CsvMarks.line_append _ (List.cons_ne_nil _ _), CsvMarks.line_single] at hlast
    rw [show csvMarks.escape (js "signature") = js "signature" by decide,
      List.getLast?_append_of_ne_nil _ hne] at hlast
    have hline : Line (js "signature") := line_of_solid (solid_of_all (by decide))
    exact hline.trimmed unit hlast

theorem head_header : csvHeader.head? = some 0x63 := by
  have hfirst : columns = js "completeness" :: columns.tail := rfl
  rw [csvHeader_eq, hfirst, CsvMarks.line_cons _ (by decide)]
  rfl

end Lines

/-! ## The file -/

section File

variable {place : ExportPlace} {scope : ExportScope} {records : List DecisionRecord}

theorem joinLines_append {front back : List JsString} (hfront : front ≠ []) (hback : back ≠ []) :
    joinLines (front ++ back) = joinLines front ++ csvMarks.lineFeed :: joinLines back :=
  CsvMarks.intercalate_append hfront hback

theorem getLast?_joinLines (front : List JsString) {last : JsString} (h : last ≠ []) :
    (joinLines (front ++ [last])).getLast? = last.getLast? := by
  have hsingle : joinLines [last] = last := List.intercalate_singleton
  rcases eq_or_ne front [] with rfl | hfront
  · rw [List.nil_append, hsingle]
  · rw [joinLines_append hfront (List.cons_ne_nil _ _), hsingle, List.append_cons,
      List.getLast?_append_of_ne_nil _ h]

/-- The comments and the header. -/
def topLines (bundle : DecisionBundle) : List JsString := csvComments bundle ++ [csvHeader]

theorem topLines_ne_nil (bundle : DecisionBundle) : topLines bundle ≠ [] := List.cons_ne_nil _ _

/-- What stands below them. -/
def rowTexts (bundle : DecisionBundle) : List JsString :=
  match bundle.decisions with
  | [] => []
  | decisions => csvMarks.splitLines (joinLines (decisions.map (rowLine bundle)))

def fileText (bundle : DecisionBundle) : JsString :=
  joinLines (topLines bundle ++ bundle.decisions.map (rowLine bundle))

theorem bundleToCsv_eq (bundle : DecisionBundle) :
    bundleToCsv bundle = fileText bundle ++ [csvMarks.lineFeed] := by
  rw [bundleToCsv, fileText, topLines, List.append_assoc]
  rfl

theorem head_fileText (bundle : DecisionBundle) : (fileText bundle).head? = some 0x23 := by
  have hfirst : topLines bundle ++ bundle.decisions.map (rowLine bundle) =
      [comment "completeness" bundle.completeness] ++
        ((topLines bundle).tail ++ bundle.decisions.map (rowLine bundle)) := rfl
  have hrest : (topLines bundle).tail ++ bundle.decisions.map (rowLine bundle) ≠ [] :=
    List.cons_ne_nil _ _
  rw [fileText, hfirst, joinLines_append (List.cons_ne_nil _ _) hrest, comment_eq]
  rfl

theorem csvHeader_ne_nil : csvHeader ≠ [] := by
  intro hnil
  have hhead := head_header
  rw [hnil] at hhead
  cases hhead

theorem fileText_trimmed (hrecords : ∀ record ∈ records, Recorded place record) : ∀ unit,
    (fileText (makeBundle place scope records)).getLast? = some unit →
      App.isSpaceUnit unit = false := by
  intro unit hlast
  rcases List.eq_nil_or_concat records with rfl | ⟨front, record, rfl⟩
  · rw [fileText, makeBundle, List.map_nil, List.append_nil, topLines,
      getLast?_joinLines _ csvHeader_ne_nil] at hlast
    exact line_header.trimmed unit hlast
  · have hne : rowLine (makeBundle place scope (front.concat record)) record ≠ [] := by
      intro hnil
      have hhead := head_row place scope (front.concat record) record
      rw [hnil] at hhead
      cases hhead
    have hdecisions : (makeBundle place scope (front.concat record)).decisions = front ++ [record] :=
      List.concat_eq_append
    rw [fileText, hdecisions, List.map_append, List.map_singleton, ← List.append_assoc,
      getLast?_joinLines _ hne] at hlast
    exact row_trimmed (hrecords record (by simp)) unit hlast

theorem splitLines_topLines (records : List DecisionRecord) (hcluster : Label place.cluster) (hgenesis : Label place.genesisHash)
    (hscope : ScopeBuilt scope) :
    csvMarks.splitLines (joinLines (topLines (makeBundle place scope records))) =
      topLines (makeBundle place scope records) := by
  have hlines : ∀ line ∈ topLines (makeBundle place scope records), Line line := by
    intro line hline
    rcases List.mem_append.mp hline with hline | hline
    · rw [csvComments_eq] at hline
      obtain ⟨pair, hpair, rfl⟩ := List.mem_map.mp hline
      obtain ⟨hname, -, hvalue⟩ := comment_lines hcluster hgenesis hscope pair hpair
      exact line_comment hname hvalue
    · exact List.mem_singleton.mp hline ▸ line_header
  exact CsvMarks.splitLines_lines (topLines_ne_nil _) (fun line hline => (hlines line hline).oneLine)
    fun line hline => (hlines line hline).noReturn

theorem splitLines_fileText (hcluster : Label place.cluster) (hgenesis : Label place.genesisHash)
    (hscope : ScopeBuilt scope) :
    csvMarks.splitLines (fileText (makeBundle place scope records)) =
      topLines (makeBundle place scope records) ++ rowTexts (makeBundle place scope records) := by
  have htop := splitLines_topLines records hcluster hgenesis hscope
  cases records with
  | nil =>
      rw [fileText, makeBundle, List.map_nil, List.append_nil]
      exact htop.trans (List.append_nil _).symm
  | cons first rest =>
      have hrows : (makeBundle place scope (first :: rest)).decisions.map
          (rowLine (makeBundle place scope (first :: rest))) ≠ [] := List.cons_ne_nil _ _
      have hreturn : csvMarks.trimReturn (joinLines (topLines (makeBundle place scope (first :: rest)))) =
          joinLines (topLines (makeBundle place scope (first :: rest))) := by
        refine if_neg ?_
        rw [topLines, getLast?_joinLines _ csvHeader_ne_nil]
        exact line_header.noReturn
      rw [fileText, joinLines_append (topLines_ne_nil _) hrows, CsvMarks.splitLines_append, hreturn,
        htop]
      rfl

/-- The comments of a file, as they are read. -/
def fileComments (bundle : DecisionBundle) : List (JsString × JsString) :=
  (commentPairs bundle).map fun pair => (js pair.1, pair.2)

/-- **What is read of a file: its comments, and the lines below its header.** -/
theorem parseExportText_file (hcluster : Label place.cluster) (hgenesis : Label place.genesisHash)
    (hscope : ScopeBuilt scope) (hrecords : ∀ record ∈ records, Recorded place record) :
    parseExportText (bundleToCsv (makeBundle place scope records)) =
      (parseCsvRows
        (fileComments (makeBundle place scope records) ++
          (rowTexts (makeBundle place scope records)).filterMap readComment)
        columns ((rowTexts (makeBundle place scope records)).filter isRow)).map .bulk := by
  have hhead := head_fileText (makeBundle place scope records)
  have hcomments : (csvComments (makeBundle place scope records)).filterMap readComment =
      fileComments (makeBundle place scope records) := by
    rw [csvComments_eq, List.filterMap_map, fileComments, ← List.filterMap_eq_map]
    refine List.filterMap_congr fun pair hpair => ?_
    obtain ⟨hname, hne, hvalue⟩ := comment_lines hcluster hgenesis hscope pair hpair
    exact readComment_comment hname hne hvalue
  have hheader : readComment csvHeader = none := by
    unfold readComment
    rw [head_header]
    rfl
  have hcommentRows : (csvComments (makeBundle place scope records)).filter isRow = [] := by
    refine List.filter_eq_nil_iff.mpr fun line hline => ?_
    rw [csvComments_eq] at hline
    obtain ⟨pair, -, rfl⟩ := List.mem_map.mp hline
    rw [comment_eq]
    exact Bool.false_ne_true
  have hheaderRow : isRow csvHeader = true := by
    obtain ⟨first, rest, hcons⟩ := List.exists_cons_of_ne_nil csvHeader_ne_nil
    have hfirst := head_header
    rw [hcons] at hfirst
    rw [hcons, Option.some.inj hfirst]
    rfl
  have htrim : App.trim (bundleToCsv (makeBundle place scope records)) =
      fileText (makeBundle place scope records) := by
    rw [bundleToCsv_eq]
    refine trim_feed ?_ (fileText_trimmed hrecords)
    intro unit hfirst
    rw [hhead] at hfirst
    cases hfirst
    decide
  have hne : fileText (makeBundle place scope records) ≠ [] := by
    intro hnil
    rw [hnil] at hhead
    cases hhead
  have hcsv : looksCsv (fileText (makeBundle place scope records)) = true := by
    unfold looksCsv
    rw [hhead]
    rfl
  unfold parseExportText
  rw [htrim]
  dsimp only
  rw [if_neg hne, hcsv, hhead, if_pos (by decide), parseCsv]
  rw [hhead, if_neg (by decide), splitLines_fileText hcluster hgenesis hscope, topLines,
    List.filter_append, List.filter_append, hcommentRows, List.filter_cons_of_pos hheaderRow]
  dsimp only [List.filter_nil, List.nil_append, List.cons_append]
  rw [cells_header, List.filterMap_append, List.filterMap_append, hcomments,
    List.filterMap_cons_none hheader, List.filterMap_nil, List.append_nil]

end File

/-! ## Rows of one line each -/

section OneLine

variable {place : ExportPlace} {scope : ExportScope} {records : List DecisionRecord}
  {other : DecisionBundle}

theorem rowTexts_lines (h : ∀ record ∈ records, Line (rowLine (makeBundle place scope records) record)) :
    rowTexts (makeBundle place scope records) =
      records.map (rowLine (makeBundle place scope records)) := by
  cases records with
  | nil => rfl
  | cons first rest =>
      refine CsvMarks.splitLines_lines (List.cons_ne_nil _ _) ?_ ?_
      · intro line hline
        obtain ⟨record, hrecord, rfl⟩ := List.mem_map.mp hline
        exact (h record hrecord).oneLine
      · intro line hline
        obtain ⟨record, hrecord, rfl⟩ := List.mem_map.mp hline
        exact (h record hrecord).noReturn

/-- A row is no comment, and not empty. -/
theorem rowLine_row (record : DecisionRecord) :
    isRow (rowLine (makeBundle place scope records) record) = true ∧
      readComment (rowLine (makeBundle place scope records) record) = none := by
  have hhead := head_row place scope records record
  cases hline : rowLine (makeBundle place scope records) record with
  | nil =>
      rw [hline] at hhead
      cases hhead
  | cons first rest =>
      rw [hline] at hhead
      obtain rfl : first = 0x70 := Option.some.inj hhead
      exact ⟨rfl, rfl⟩

/-- What a row is cut into. -/
theorem cells_row (bundle : DecisionBundle) (record : DecisionRecord) :
    csvMarks.cells (rowLine bundle record) = rowValues bundle record :=
  CsvMarks.cells_line (List.cons_ne_nil _ _)

theorem filledRows_rows (bundle : DecisionBundle) (records : List DecisionRecord) :
    filledRows (records.map (rowLine bundle)) =
      records.zipIdx.map fun row => (rowValues bundle row.1, row.2 + 1) := by
  have hcells : ((records.map (rowLine bundle)).zipIdx.map fun row =>
      (csvMarks.cells row.1, row.2 + 1)) =
        records.zipIdx.map fun row => (rowValues bundle row.1, row.2 + 1) := by
    rw [List.zipIdx_map, List.map_map]
    exact List.map_congr_left fun row _ => congrArg (·, row.2 + 1) (cells_row bundle row.1)
  rw [filledRows, hcells, List.filter_eq_self]
  intro row hrow
  obtain ⟨pair, -, rfl⟩ := List.mem_map.mp hrow
  refine decide_eq_true fun heq => ?_
  have hlength : 24 = 1 := congrArg List.length heq
  cases hlength

theorem metaValue_at {bundle : DecisionBundle} (i : Nat) {name : String} {value : JsString}
    (h : (commentPairs bundle)[i]? = some (name, value)) :
    metaValue (fileComments bundle) name = some value := by
  refine find_key ?_ ?_
  · have hnames : (commentPairs bundle).map Prod.fst = ["completeness", "completeness_note",
        "cluster", "genesis_hash", "program_id", "scope_type", "scope_mandate", "scope_from",
        "scope_to"] := rfl
    rw [List.map_reverse, List.nodup_reverse, fileComments, List.map_map]
    change ((commentPairs bundle).map (js ∘ Prod.fst)).Nodup
    rw [← List.map_map, hnames]
    decide
  · exact List.mem_reverse.mpr (List.mem_map.mpr ⟨_, List.mem_of_getElem? h, rfl⟩)

/-- A column that says what its comment says. -/
theorem metaOrColumn_at {bundle : DecisionBundle} (i k : Nat) {name : String} {value : JsString}
    (hcomment : (commentPairs bundle)[k]? = some (name, value))
    (hcolumn : columns[i]? = some (js name))
    (hcell : ∀ record ∈ records, (rowValues bundle record)[i]? = some value) :
    metaOrColumn (fileComments bundle) columns (records.map (rowLine bundle)) name =
      emptyToNull (some value) := by
  unfold metaOrColumn
  rw [metaValue_at k hcomment]
  by_cases hvalue : value = []
  · have hfirst : firstColumnValue columns (records.map (rowLine bundle)) name = none := by
      unfold firstColumnValue
      rw [columnIndex_columns hcolumn]
      refine List.find?_eq_none.mpr fun text htext hne => ?_
      obtain ⟨line, hline, hcol⟩ := List.mem_filterMap.mp htext
      obtain ⟨record, hrecord, rfl⟩ := List.mem_map.mp hline
      rw [cells_row, hcell record hrecord] at hcol
      obtain rfl := Option.some.inj hcol
      exact of_decide_eq_true hne hvalue
    rw [hfirst, hvalue]
    rfl
  · have hkept : emptyToNull (some value) = some value := by
      rw [emptyToNull, Option.filter_some, if_pos (decide_eq_true hvalue)]
    rw [hkept, Option.some_or]

theorem optionalInt_bound {bound : Option Int} {name : String}
    (h : ∀ n ∈ bound, toNumber n = n) :
    optionalInt ((emptyToNull (some (bound.elim [] numberString))).map .string) name =
      .ok bound := by
  cases bound with
  | none => rfl
  | some n =>
      have hne := integerString_ne_nil (writtenNumber n)
      obtain ⟨hinteger, hvalue⟩ := integerString_reads (writtenNumber n)
      rw [Option.elim_some, numberString_eq, emptyToNull, Option.filter_some,
        if_pos (decide_eq_true hne)]
      change (if integerString (writtenNumber n) = [] then _ else
        if isIntegerText (integerString (writtenNumber n)) = true then _ else _) = _
      rw [if_neg hne, if_pos hinteger, hvalue, toNumber_writtenNumber (h n rfl)]

/-- The scope that is read: the first decision names the mandate where nothing else does. -/
def csvScope (scope : ExportScope) (records : List DecisionRecord) : ExportScope :=
  { scope with mandate := scope.mandate.or (records.head?.map (·.mandate)) }

theorem emptyToNull_mandate (h : ScopeBuilt scope) :
    emptyToNull (some (scope.mandate.getD [])) = scope.mandate := by
  cases hmandate : scope.mandate with
  | none => rfl
  | some text =>
      obtain ⟨key, rfl⟩ := h.mandate text hmandate
      have hne : address key ≠ [] :=
        canonicalAddress_ne_nil (Sdk.Memo.canonicalAddress_display key)
      rw [Option.getD_some, emptyToNull, Option.filter_some, if_pos (decide_eq_true hne)]

theorem stated_eq {own : DecisionRecord → JsString} {value : JsString}
    (hown : ∀ record ∈ records, own record = value) : (records.head?.map own).getD value = value := by
  cases records with
  | nil => rfl
  | cons first rest => exact hown first List.mem_cons_self

theorem csvBundle_rows (hcluster : Label place.cluster) (hgenesis : Label place.genesisHash)
    (hscope : ScopeBuilt scope) (hrecords : ∀ record ∈ records, Recorded place record) :
    csvBundle (fileComments (makeBundle place scope records)) columns
        (records.map (rowLine (makeBundle place scope records))) records =
      .ok (makeBundle place (csvScope scope records) records) := by
  have hprogram : address place.programId ≠ [] :=
    canonicalAddress_ne_nil (Sdk.Memo.canonicalAddress_display _)
  have hstatedCluster := stated_eq fun record hrecord =>
    (hrecords record hrecord).cluster
  have hstatedGenesis := stated_eq fun record hrecord =>
    (hrecords record hrecord).genesisHash
  have hstatedProgram := stated_eq fun record hrecord =>
    (hrecords record hrecord).programId
  have htype : scopeTypeOf (some (.string scope.type.name)) = some scope.type := by
    cases scope.type <;> decide
  have htypeName : emptyToNull (some scope.type.name) = some scope.type.name := by
    cases scope.type <;> rfl
  have hrule : ¬ (scope.type = .rule ∧
      emptyToNull (scope.mandate.or (records.head?.map (·.mandate))) = none) := by
    rintro ⟨htype, hnone⟩
    obtain ⟨text, htext⟩ := Option.ne_none_iff_exists'.mp (hscope.rule htype)
    obtain ⟨key, rfl⟩ := hscope.mandate text htext
    have hne : address key ≠ [] := canonicalAddress_ne_nil (Sdk.Memo.canonicalAddress_display key)
    rw [htext, Option.some_or, emptyToNull, Option.filter_some, if_pos (decide_eq_true hne)] at hnone
    cases hnone
  have hmandate : emptyToNull (some ((makeBundle place scope records).scope.mandate.getD [])) =
      scope.mandate := emptyToNull_mandate hscope
  have hplaced : ¬ (records = [] ∧
      ((records.head?.map (·.cluster)).getD place.cluster = [] ∨
        (records.head?.map (·.genesisHash)).getD place.genesisHash = [] ∨
          (records.head?.map (·.programId)).getD (address place.programId) = [])) := by
    rw [hstatedCluster, hstatedGenesis, hstatedProgram]
    rintro ⟨-, hnil | hnil | hnil⟩
    · exact hcluster.named hnil
    · exact hgenesis.named hnil
    · exact hprogram hnil
  have hdates : ¬ (scope.type = .dateRange ∧ scope.fromTime = none ∧ scope.toTime = none) :=
    fun hnone => hscope.dateRange hnone.1 hnone.2
  unfold csvBundle
  rw [metaValue_at 0 rfl, metaValue_at 1 rfl, metaValue_at 2 rfl, metaValue_at 3 rfl,
    metaValue_at 4 rfl, metaOrColumn_at 1 5 rfl rfl fun _ _ => rfl,
    metaOrColumn_at 2 6 rfl rfl fun _ _ => rfl, metaOrColumn_at 3 7 rfl rfl fun _ _ => rfl,
    metaOrColumn_at 4 8 rfl rfl fun _ _ => rfl]
  simp only [bind_ok_iff, okOr_eq_ok, require_eq_ok, pure_eq_ok_iff]
  refine ⟨(), rfl, scope.type, ?_, scope.fromTime, optionalInt_bound hscope.fromTime, scope.toTime,
    optionalInt_bound hscope.toTime, (), ?_, (), ?_, (), hdates, ?_⟩
  · change scopeTypeOf (some (.string ((emptyToNull (some scope.type.name)).getD (js "rule")))) = _
    rw [htypeName, Option.getD_some, htype]
  · rw [Option.getD_some, Option.getD_some, Option.getD_some]
    exact hplaced
  · rw [hmandate]
    exact hrule
  · rw [hmandate]
    simp only [makeBundle, Option.getD_some, csvScope]
    rw [hstatedCluster, hstatedGenesis, hstatedProgram, orElse_of_ne completenessNote_ne_nil,
      orElse_of_ne hcluster.named, orElse_of_ne hgenesis.named, orElse_of_ne hprogram]

/-- What is read of rows of one line each. -/
theorem parseCsvRows_iff (hcluster : Label place.cluster) (hgenesis : Label place.genesisHash)
    (hscope : ScopeBuilt scope) (hrecords : ∀ record ∈ records, Recorded place record) :
    parseCsvRows (fileComments (makeBundle place scope records)) columns
        (records.map (rowLine (makeBundle place scope records))) = .ok other ↔
      other = makeBundle place (csvScope scope records) records ∧
        ∀ record ∈ records, record.limits.purpose ≠ [] := by
  have hcolumns : (["signature", "kind", "amount", "mandate"].forM fun col =>
      require ((columnIndex columns col).isSome)
        (fail ("CSV is missing required column " ++ col))) = .ok ⟨⟩ := by
    refine forM_ok fun col hcol => require_true ?_
    revert col
    decide
  have hdecisions : ∀ ds, ((filledRows (records.map (rowLine (makeBundle place scope records)))).mapM
      fun row => parseRow (fileComments (makeBundle place scope records)) columns row.2 row.1) =
        .ok ds ↔ ds = records ∧ ∀ record ∈ records, record.limits.purpose ≠ [] := by
    intro ds
    have hrow : ∀ row ∈ records.zipIdx, ∀ record,
        parseRow (fileComments (makeBundle place scope records)) columns (row.2 + 1)
            (rowValues (makeBundle place scope records) row.1) = .ok record ↔
          record = row.1 ∧ row.1.limits.purpose ≠ [] := fun row hrow record =>
      (hrecords row.1 (List.fst_mem_of_mem_zipIdx hrow)).parseRow_iff hcluster hgenesis _
    have hpurposes : (∀ row ∈ records.zipIdx, row.1.limits.purpose ≠ []) ↔
        ∀ record ∈ records, record.limits.purpose ≠ [] := by
      conv_rhs => rw [← List.zipIdx_map_fst 0 records]
      rw [List.forall_mem_map]
    rw [filledRows_rows, List.mapM_map]
    refine (mapM_eq_map_iff hrow).trans ?_
    rw [List.zipIdx_map_fst, hpurposes]
  unfold parseCsvRows
  rw [hcolumns, ok_bind, bind_ok_iff]
  constructor
  · rintro ⟨ds, hds, hbundle⟩
    obtain ⟨rfl, hpurposes⟩ := (hdecisions ds).mp hds
    rw [csvBundle_rows hcluster hgenesis hscope hrecords] at hbundle
    exact ⟨(Except.ok.inj hbundle).symm, hpurposes⟩
  · rintro ⟨rfl, hpurposes⟩
    exact ⟨records, (hdecisions records).mpr ⟨rfl, hpurposes⟩,
      csvBundle_rows hcluster hgenesis hscope hrecords⟩

end OneLine

/-! ## A line break in a purpose -/

section Broken

variable {place : ExportPlace} {scope : ExportScope} {records : List DecisionRecord}
  {record : DecisionRecord} {comments : List (JsString × JsString)}

/-- A row without its last nine cells has no kind. -/
theorem parseRow_short {cols : List JsString} (hshort : cols.length = 15) (r : Nat)
    (d : DecisionRecord) : parseRow comments columns r cols ≠ .ok d := by
  intro h
  unfold parseRow at h
  obtain ⟨_, -, hrecord⟩ := bind_ok_iff.mp h
  obtain ⟨lim, hfrom⟩ := parseRecord_eq_ok.mp hrecord
  obtain ⟨text, hkind, -⟩ := hfrom.kind
  have hcell : cell columns cols "kind" = [] := by
    have hnone : cols[15]? = none := List.getElem?_eq_none hshort.le
    have hindex : columnIndex columns "kind" = some 15 := columnIndex_columns rfl
    rw [cell, hindex, Option.bind_some, hnone, Option.getD_none]
  have hkeys : ((csvFields comments columns cols).map Prod.fst).Nodup := rowFields_keys d
  rw [field_at (i := 6) hkeys rfl] at hkind
  dsimp only at hkind
  rw [hcell] at hkind
  cases hkind

/-- The cells in front of a purpose have no line breaks. -/
theorem cells_front (records : List DecisionRecord) (h : Recorded place record) (hcluster : Label place.cluster)
    (hgenesis : Label place.genesisHash) (hscope : ScopeBuilt scope) : ∃ front back,
      rowValues (makeBundle place scope records) record =
        COMPLETENESS :: (front ++ record.limits.purpose :: back) ∧
          front.length = 13 ∧ back ≠ [] ∧ ∀ cell ∈ front, csvMarks.lineFeed ∉ cell := by
  have hother : Recorded place { record with limits := { record.limits with purpose := [] } } :=
    ⟨h.schemaVersion, h.cluster, h.genesisHash, h.programId, h.mandate, h.merchant, h.counterparty,
      h.reasonCode, h.reasonText, h.signature⟩
  have hcells := cells_oneLine records hother hcluster hgenesis hscope List.not_mem_nil
  refine ⟨((rowValues (makeBundle place scope records) record).drop 1).take 13,
    (rowValues (makeBundle place scope records) record).drop 15, rfl, rfl, List.cons_ne_nil _ _, ?_⟩
  intro cell hcell
  have hin : cell ∈ ((rowValues (makeBundle place scope records)
      { record with limits := { record.limits with purpose := [] } }).drop 1).take 13 := hcell
  exact hcells cell (List.mem_of_mem_drop (List.mem_of_mem_take hin))

/-- What is above a line break of a purpose, from the start of the row. -/
theorem rowLine_broken (records : List DecisionRecord) (h : Recorded place record) (hcluster : Label place.cluster)
    (hgenesis : Label place.genesisHash) (hscope : ScopeBuilt scope)
    (hpurpose : csvMarks.lineFeed ∈ record.limits.purpose) : ∃ mid tail,
      rowLine (makeBundle place scope records) record = mid ++ csvMarks.lineFeed :: tail ∧
        csvMarks.lineFeed ∉ mid ∧ (csvMarks.cells (csvMarks.trimReturn mid)).length = 15 ∧
          (csvMarks.trimReturn mid).head? = some 0x70 := by
  obtain ⟨front, back, hrow, hlength, hback, hfront⟩ :=
    cells_front records h hcluster hgenesis hscope
  obtain ⟨part, rest, hparts, hpart⟩ := List.eq_append_cons_of_mem hpurpose
  have hescape : csvMarks.escape record.limits.purpose =
      (csvMarks.quote :: csvMarks.doubled part) ++
        csvMarks.lineFeed :: (csvMarks.doubled rest ++ [csvMarks.quote]) := by
    have hmark : record.limits.purpose.any csvMarks.isMark = true :=
      List.any_eq_true.mpr ⟨_, hpurpose, by decide⟩
    rw [CsvMarks.escape, if_pos hmark, hparts, CsvMarks.doubled, List.flatMap_append,
      List.flatMap_cons, if_neg (by decide), List.append_assoc, List.append_assoc]
    rfl
  have hcompleteness : csvMarks.lineFeed ∉ COMPLETENESS := by decide
  have hcell : csvMarks.escape COMPLETENESS = COMPLETENESS := CsvMarks.escape_plain (by decide)
  -- the row up to the line break
  have hmid : ∃ text, ((COMPLETENESS :: front).map csvMarks.escape).flatMap (· ++ [csvMarks.comma]) ++
      csvMarks.quote :: csvMarks.doubled part = 0x70 :: text ∧ text ≠ [] := by
    rw [List.map_cons, List.flatMap_cons, hcell]
    exact ⟨_, rfl, List.cons_ne_nil _ _⟩
  refine ⟨((COMPLETENESS :: front).map csvMarks.escape).flatMap (· ++ [csvMarks.comma]) ++
    csvMarks.quote :: csvMarks.doubled part,
    csvMarks.doubled rest ++ csvMarks.quote :: csvMarks.comma :: csvMarks.line back, ?_, ?_, ?_, ?_⟩
  · rw [rowLine, hrow, ← List.cons_append, CsvMarks.line_append _ (List.cons_ne_nil _ _),
      CsvMarks.line_cons _ hback, hescape]
    simp only [List.append_assoc, List.cons_append]
    rfl
  · intro hfeed
    rcases List.mem_append.mp hfeed with hfeed | hfeed
    · obtain ⟨text, htext, hin⟩ := List.mem_flatMap.mp hfeed
      obtain ⟨cell, hcellIn, rfl⟩ := List.mem_map.mp htext
      rcases List.mem_append.mp hin with hin | hin
      · rcases CsvMarks.mem_escape hin with heq | hin
        · exact absurd heq.symm csvMarks.quote_ne_lineFeed
        · rcases List.mem_cons.mp hcellIn with rfl | hcellIn
          · exact hcompleteness hin
          · exact hfront cell hcellIn hin
      · exact csvMarks.comma_ne_lineFeed (List.mem_singleton.mp hin).symm
    · rcases List.mem_cons.mp hfeed with heq | hfeed
      · exact csvMarks.quote_ne_lineFeed heq.symm
      · exact hpart (CsvMarks.mem_doubled hfeed)
  · obtain ⟨last, hcells⟩ := CsvMarks.cells_trimReturn_cut (M := csvMarks) (COMPLETENESS :: front) part
    rw [hcells, List.length_append, List.length_cons, hlength]
    rfl
  · obtain ⟨text, htext, hne⟩ := hmid
    rw [htext, CsvMarks.trimReturn_cons _ hne]
    rfl

/-- A purpose of several lines breaks its row. -/
theorem rowTexts_broken (hcluster : Label place.cluster) (hgenesis : Label place.genesisHash)
    (hscope : ScopeBuilt scope) (hrecords : ∀ record ∈ records, Recorded place record)
    (hrecord : record ∈ records) (hpurpose : csvMarks.lineFeed ∈ record.limits.purpose) :
    ∃ line ∈ (rowTexts (makeBundle place scope records)).filter isRow,
      (csvMarks.cells line).length = 15 := by
  obtain ⟨mid, tail, hline, hfeed, hlength, hhead⟩ := rowLine_broken records
    (hrecords record hrecord) hcluster hgenesis hscope hpurpose
  refine ⟨csvMarks.trimReturn mid, List.mem_filter.mpr ⟨?_, ?_⟩, hlength⟩
  · obtain ⟨before, after, hsplit⟩ := List.append_of_mem hrecord
    obtain ⟨back, hback⟩ : ∃ back, joinLines ((record :: after).map
        (rowLine (makeBundle place scope records))) = mid ++ csvMarks.lineFeed :: back := by
      rw [List.map_cons, ← List.singleton_append]
      rcases eq_or_ne (after.map (rowLine (makeBundle place scope records))) [] with hnil | hne
      · rw [hnil, List.append_nil]
        exact ⟨tail, List.intercalate_singleton.trans hline⟩
      · rw [joinLines_append (List.cons_ne_nil _ _) hne, joinLines, List.intercalate_singleton, hline]
        exact ⟨_, by rw [List.append_assoc]; rfl⟩
    have htext : fileText (makeBundle place scope records) =
        joinLines (topLines (makeBundle place scope records) ++
          before.map (rowLine (makeBundle place scope records))) ++
            csvMarks.lineFeed :: (mid ++ csvMarks.lineFeed :: back) := by
      have hdecisions : (makeBundle place scope records).decisions = before ++ record :: after := hsplit
      have hrows : (record :: after).map (rowLine (makeBundle place scope records)) ≠ [] :=
        List.cons_ne_nil _ _
      rw [fileText, hdecisions, List.map_append, ← List.append_assoc, joinLines_append
        (List.append_ne_nil_of_left_ne_nil (topLines_ne_nil _) _) hrows, hback]
    have hmem := CsvMarks.mem_splitLines (M := csvMarks)
      (joinLines (topLines (makeBundle place scope records) ++
        before.map (rowLine (makeBundle place scope records)))) mid back hfeed
    rw [← htext, splitLines_fileText hcluster hgenesis hscope] at hmem
    rcases List.mem_append.mp hmem with htop | hrow
    · exfalso
      rcases List.mem_append.mp htop with hcomment | hheader
      · rw [csvComments_eq] at hcomment
        obtain ⟨pair, -, heq⟩ := List.mem_map.mp hcomment
        rw [← heq, comment_eq] at hhead
        cases hhead
      · rw [List.mem_singleton.mp hheader, head_header] at hhead
        cases hhead
    · exact hrow
  · cases htext : csvMarks.trimReturn mid with
    | nil =>
        rw [htext] at hhead
        cases hhead
    | cons first rest =>
        rw [htext] at hhead
        obtain rfl : first = 0x70 := Option.some.inj hhead
        rfl

theorem parseCsvRows_short {rows : List JsString} {line : JsString} (hline : line ∈ rows)
    (hshort : (csvMarks.cells line).length = 15) (bundle : DecisionBundle) :
    parseCsvRows comments columns rows ≠ .ok bundle := by
  intro h
  unfold parseCsvRows at h
  obtain ⟨_, -, h⟩ := bind_ok_iff.mp h
  obtain ⟨decisions, hdecisions, -⟩ := bind_ok_iff.mp h
  obtain ⟨i, hi⟩ := List.mem_iff_getElem?.mp hline
  have hfilled : (csvMarks.cells line, i + 1) ∈ filledRows rows := by
    refine List.mem_filter.mpr ⟨List.mem_map.mpr ⟨(line, i),
      List.mem_zipIdx_iff_getElem?.mpr hi, rfl⟩, decide_eq_true fun heq => ?_⟩
    have hlength : (csvMarks.cells line).length = 1 := congrArg List.length heq
    rw [hshort] at hlength
    cases hlength
  obtain ⟨d, hd⟩ := ok_of_mapM hdecisions hfilled
  exact parseRow_short hshort _ d hd

end Broken

/-- A file of any records. -/
theorem parseExportText_csv_iff {place : ExportPlace} {scope : ExportScope}
    {records : List DecisionRecord} (hcluster : Label place.cluster)
    (hgenesis : Label place.genesisHash) (hbuilt : ScopeBuilt scope)
    (hrecords : ∀ record ∈ records, Recorded place record) (read : ParsedExport) :
    parseExportText (bundleToCsv (makeBundle place scope records)) = .ok read ↔
      read = .bulk (makeBundle place (csvScope scope records) records) ∧
        ∀ record ∈ records, record.limits.purpose ≠ [] ∧
          csvMarks.lineFeed ∉ record.limits.purpose := by
  rw [parseExportText_file hcluster hgenesis hbuilt hrecords]
  by_cases hbroken : ∃ record ∈ records, csvMarks.lineFeed ∈ record.limits.purpose
  · obtain ⟨record, hrecord, hpurpose⟩ := hbroken
    obtain ⟨line, hline, hshort⟩ :=
      rowTexts_broken hcluster hgenesis hbuilt hrecords hrecord hpurpose
    constructor
    · intro h
      obtain ⟨bundle, hbundle, -⟩ := map_eq_ok_iff.mp h
      exact absurd hbundle (parseCsvRows_short hline hshort bundle)
    · rintro ⟨-, hall⟩
      exact absurd hpurpose (hall record hrecord).2
  · have hlines : ∀ record ∈ records, csvMarks.lineFeed ∉ record.limits.purpose :=
      fun record hrecord hpurpose => hbroken ⟨record, hrecord, hpurpose⟩
    have hrows := rowTexts_lines fun record hrecord =>
      line_row records (hrecords record hrecord) hcluster hgenesis hbuilt
        (hlines record hrecord)
    have hcomments : (rowTexts (makeBundle place scope records)).filterMap readComment = [] := by
      rw [hrows, List.filterMap_eq_nil_iff]
      intro line hline
      obtain ⟨record, -, rfl⟩ := List.mem_map.mp hline
      exact (rowLine_row record).2
    have hfilter : (rowTexts (makeBundle place scope records)).filter isRow =
        records.map (rowLine (makeBundle place scope records)) := by
      rw [hrows, List.filter_eq_self]
      intro line hline
      obtain ⟨record, -, rfl⟩ := List.mem_map.mp hline
      exact (rowLine_row record).1
    have hparse : ∀ bundle, _ ↔ _ := fun bundle =>
      @parseCsvRows_iff place scope records bundle hcluster hgenesis hbuilt hrecords
    rw [hcomments, List.append_nil, hfilter, map_eq_ok_iff]
    constructor
    · rintro ⟨bundle, hbundle, rfl⟩
      obtain ⟨rfl, hpurposes⟩ := (hparse bundle).mp hbundle
      exact ⟨rfl, fun record hrecord => ⟨hpurposes record hrecord, hlines record hrecord⟩⟩
    · rintro ⟨rfl, hall⟩
      exact ⟨_, (hparse _).mpr ⟨rfl, fun record hrecord => (hall record hrecord).1⟩, rfl⟩

/-- **An export as CSV is read back, exactly when every purpose is one line.**  Whatever decisions are
exported for a rule or for a range of days: `parseExportText` gives the CSV of the bundle back as the
bundle if and only if every purpose is there and has no line break in it; else it gives an error.  The
numbers need not be safe.  Where a range of days has no mandate, the first decision's is read. -/
theorem csv_read_back_iff {place : ExportPlace} {filter : ScopeFilter} {scope : ExportScope}
    {rows : List ExportRow} {records : List DecisionRecord}
    (hcluster : Label place.cluster) (hgenesis : Label place.genesisHash)
    (hscope : buildScope filter = .ok scope)
    (hfrom : ∀ n ∈ filter.fromTime, n.natAbs ≤ MAX_SAFE_INTEGER)
    (hto : ∀ n ∈ filter.toTime, n.natAbs ≤ MAX_SAFE_INTEGER)
    (hsignatures : ∀ row ∈ rows, IsSignature row.decision.signature)
    (hrecords : rows.mapM (ExportRow.build place) = .ok records) (read : ParsedExport) :
    parseExportText (bundleToCsv (makeBundle place scope records)) = .ok read ↔
      read = .bulk (makeBundle place (csvScope scope records) records) ∧
        ∀ record ∈ records, record.limits.purpose ≠ [] ∧
          csvMarks.lineFeed ∉ record.limits.purpose := by
  refine parseExportText_csv_iff hcluster hgenesis (buildScope_safe hscope hfrom hto).toScopeBuilt ?_ read
  intro record hrecord
  obtain ⟨row, hrow, hbuild⟩ := mem_of_mapM hrecords hrecord
  exact (ExportRow.exported hbuild (hsignatures row hrow)).toRecorded

theorem rent_csv_read_back :
    parseExportText (bundleToCsv (makeBundle rentPlace ⟨.rule, some (address 1), none, none⟩
        [rentRecord])) =
      .ok (.bulk (makeBundle rentPlace ⟨.rule, some (address 1), none, none⟩ [rentRecord])) := by
  have hscope : buildScope ⟨some 1, none, none, none, none⟩ =
      .ok ⟨.rule, some (address 1), none, none⟩ := rfl
  refine (csv_read_back_iff ?_ ?_ hscope
    (fun _ h => absurd h (by simp)) (fun _ h => absurd h (by simp)) ?_ rentRow_build _).mpr ⟨rfl, ?_⟩
  · exact ⟨line_of_solid (solid_of_all (by decide)), by decide⟩
  · exact ⟨line_of_solid (solid_of_all (by decide)), by decide⟩
  · intro row hrow
    exact List.mem_singleton.mp hrow ▸ rentSignature
  · intro record hrecord
    exact List.mem_singleton.mp hrecord ▸ ⟨by decide, by decide⟩

end Veto.Tools

import Veto.Tools.Exported

/-!
# An export as JSON is read back

The JSON of a bundle is read as the bundle, exactly when every number of it is a safe integer and
every purpose is there.
-/

namespace Veto.Tools

open Foundation

/-! ## Records -/

section Records

variable {place : ExportPlace} {record other : DecisionRecord} {name : String} {n : Int}

theorem safe_of_plain {m : Int} (hsmall : n.natAbs ≤ 2 ^ 64)
    (h : requireSafeInt (some (jsValue (plainNumber (toNumber n)))) name = .ok m) :
    n.natAbs ≤ MAX_SAFE_INTEGER := by
  rw [requireSafeInt_plain hsmall] at h
  by_contra hlarge
  rw [if_neg hlarge] at h
  cases h

theorem requireSafeInt_small (h : n.natAbs ≤ MAX_SAFE_INTEGER) :
    requireSafeInt (some (jsValue (plainNumber (toNumber n)))) name = .ok n := by
  have hsmall : n.natAbs ≤ 2 ^ 64 := h.trans (by decide)
  rw [requireSafeInt_plain hsmall, if_pos h]

theorem requireSafeInt_byte (h : n.natAbs ≤ MAX_SAFE_INTEGER) :
    requireSafeInt (some (jsValue (plainNumber n))) name = .ok n := by
  rw [← toNumber_small h]
  exact (requireSafeInt_small (n := n) h).trans (congrArg Except.ok (toNumber_small h).symm)

/-- A record whose JSON can be read. -/
structure Readable (record : DecisionRecord) : Prop where
  safe : ∀ n ∈ record.numbers, n.natAbs ≤ MAX_SAFE_INTEGER
  purpose : record.limits.purpose ≠ []

theorem Exported.recordFrom (h : Exported place record) (hplace : place.cluster ≠ [])
    (hgenesis : place.genesisHash ≠ []) (hread : Readable record) :
    RecordFrom (jsFields (recordFields record)) (jsFields (limitsFields record.limits)) record := by
  have hkeys := record_keys record
  have hlimits := limits_keys record.limits
  obtain ⟨mandate, hmandate⟩ := h.mandate
  obtain ⟨merchant, hmerchant⟩ := h.merchant
  obtain ⟨counterparty, hcounterparty⟩ := h.counterparty
  obtain ⟨hbyte, hrange⟩ := h.reasonCode_small
  have hsafe := hread.safe
  simp only [DecisionRecord.numbers, List.mem_cons, List.not_mem_nil, or_false, forall_eq_or_imp,
    forall_eq] at hsafe
  obtain ⟨hcap, hmax, hexpires, hamount, htimestamp, hnonce, hsuggested⟩ := hsafe
  refine ⟨⟨1, ?_, by rw [h.schemaVersion]; rfl⟩, h.schemaVersion, ⟨record.kind.name, ?_, ?_⟩, ?_,
    ⟨record.reasonCode, ?_, toNumber_small hbyte⟩, hrange, ?_, ?_, ?_, ?_, ⟨?_, ?_, ?_, ?_, ?_⟩, ?_,
    ?_, ?_, ?_, ?_, ?_, ?_⟩
  · rw [field_plain (i := 0) hkeys rfl, h.schemaVersion]
    exact requireSafeInt_byte (by decide)
  · rw [field_plain (i := 6) hkeys rfl]
    exact requireString_of_ne (requireKind_name _).1
  · exact (requireKind_name _).2
  · rw [field_plain (i := 5) hkeys rfl, jsValue]
    rfl
  · rw [field_plain (i := 11) hkeys rfl]
    exact requireSafeInt_byte hbyte
  · rw [field_plain (i := 1) hkeys rfl, jsValue]
    exact requireString_of_ne (h.cluster ▸ hplace)
  · rw [field_plain (i := 2) hkeys rfl, jsValue]
    exact requireString_of_ne (h.genesisHash ▸ hgenesis)
  · rw [field_plain (i := 3) hkeys rfl, jsValue, h.programId]
    exact requirePubkey_address _
  · rw [field_plain (i := 4) hkeys rfl, jsValue, hmandate]
    exact requirePubkey_address _
  · rw [field_plain (i := 0) hlimits rfl]
    exact requireSafeInt_small hcap
  · rw [field_plain (i := 1) hlimits rfl]
    exact requireSafeInt_small hmax
  · rw [field_plain (i := 2) hlimits rfl]
    exact requireSafeInt_small hexpires
  · rw [field_plain (i := 3) hlimits rfl, jsValue, hmerchant]
    exact requirePubkey_address _
  · rw [field_plain (i := 4) hlimits rfl, jsValue]
    exact requireString_of_ne hread.purpose
  · rw [field_plain (i := 7) hkeys rfl]
    exact requireSafeInt_small hamount
  · rw [field_plain (i := 8) hkeys rfl, jsValue, hcounterparty]
    exact requirePubkey_address _
  · rw [field_plain (i := 9) hkeys rfl]
    exact requireSafeInt_small htimestamp
  · rw [field_plain (i := 10) hkeys rfl]
    exact requireSafeInt_small hnonce
  · rw [field_plain (i := 12) hkeys rfl, jsValue]
    exact requireString_of_ne h.reasonText.1
  · rw [field_plain (i := 13) hkeys rfl]
    exact requireSafeInt_small hsuggested
  · rw [field_plain (i := 14) hkeys rfl, jsValue]
    exact fileSignature_of h.signature

/-- What is read is a record of safe integers, with a purpose. -/
theorem Exported.readable (h : Exported place record) {lim : List (JsString × JsValue)}
    (hfrom : RecordFrom (jsFields (recordFields record)) lim other) : Readable record := by
  have hkeys := record_keys record
  have hlimits := limits_keys record.limits
  have hlim := hfrom.limitsObject
  rw [field_plain (i := 5) hkeys rfl, jsValue] at hlim
  obtain rfl : jsFields (limitsFields record.limits) = lim := Except.ok.inj hlim
  have hamount := hfrom.amount
  have htimestamp := hfrom.timestamp
  have hnonce := hfrom.nonce
  have hsuggested := hfrom.suggestedOverride
  have hcap := hfrom.limits.cap
  have hmax := hfrom.limits.perTxMax
  have hexpires := hfrom.limits.expiresAt
  have hpurpose := hfrom.limits.purpose
  rw [field_plain (i := 7) hkeys rfl] at hamount
  rw [field_plain (i := 9) hkeys rfl] at htimestamp
  rw [field_plain (i := 10) hkeys rfl] at hnonce
  rw [field_plain (i := 13) hkeys rfl] at hsuggested
  rw [field_plain (i := 0) hlimits rfl] at hcap
  rw [field_plain (i := 1) hlimits rfl] at hmax
  rw [field_plain (i := 2) hlimits rfl] at hexpires
  rw [field_plain (i := 4) hlimits rfl, jsValue] at hpurpose
  have hsmall := h.numbers
  simp only [DecisionRecord.numbers, List.mem_cons, List.not_mem_nil, or_false, forall_eq_or_imp,
    forall_eq] at hsmall
  obtain ⟨scap, smax, sexpires, samount, stimestamp, snonce, ssuggested⟩ := hsmall
  refine ⟨?_, requireString_text hpurpose⟩
  simp only [DecisionRecord.numbers, List.mem_cons, List.not_mem_nil, or_false, forall_eq_or_imp,
    forall_eq]
  exact ⟨safe_of_plain scap hcap, safe_of_plain smax hmax, safe_of_plain sexpires hexpires,
    safe_of_plain samount hamount, safe_of_plain stimestamp htimestamp, safe_of_plain snonce hnonce,
    safe_of_plain ssuggested hsuggested⟩

/-- **The JSON of a record is read as the record, or not at all.** -/
theorem Exported.parseRecord_iff (h : Exported place record) (hplace : place.cluster ≠ [])
    (hgenesis : place.genesisHash ≠ []) :
    parseRecord (jsValue (recordToPlain record)) = .ok other ↔ other = record ∧ Readable record := by
  have hobject : jsValue (recordToPlain record) = .object (jsFields (recordFields record)) := by
    rw [recordToPlain, jsValue]
  rw [hobject]
  constructor
  · intro hother
    obtain ⟨lim, hfrom⟩ := parseRecord_eq_ok.mp hother
    have hread := h.readable hfrom
    have hrecord := parseRecord_eq_ok.mpr ⟨_, h.recordFrom hplace hgenesis hread⟩
    exact ⟨Except.ok.inj (hother.symm.trans hrecord), hread⟩
  · rintro ⟨rfl, hread⟩
    exact parseRecord_eq_ok.mpr ⟨_, h.recordFrom hplace hgenesis hread⟩

end Records

/-! ## The bundle -/

section Bundle

variable {place : ExportPlace} {scope : ExportScope} {records : List DecisionRecord}
  {other : DecisionBundle} {name : String}

theorem jsValue_small {n : Int} (h : n.natAbs ≤ MAX_SAFE_INTEGER) :
    jsValue (plainNumber n) = .number (.finite n) := by
  have hlt : (toNumber n).natAbs < 2 ^ 1023 := toNumber_lt (h.trans (by decide))
  rw [toNumber_small h] at hlt
  exact jsValue_plainNumber (toNumber_small h) hlt

theorem optionalInt_plain {bound : Option Int} (h : ∀ n ∈ bound, n.natAbs ≤ MAX_SAFE_INTEGER) :
    optionalInt (some (jsValue (orNull plainNumber bound))) name = .ok bound := by
  cases bound with
  | none => rfl
  | some n =>
      have hsafe := h n rfl
      have hnumber : jsValue (orNull plainNumber (some n)) = .number (.finite n) :=
        jsValue_small hsafe
      rw [hnumber]
      change ((okOr (JsNumber.finite (n : ℚ)).safeInteger _).map some) = _
      rw [safeInteger_int, if_pos hsafe]
      rfl

theorem optionalMandate_plain (h : ∀ text ∈ scope.mandate, ∃ key, text = address key) :
    optionalMandate (some (jsValue (orNull .string scope.mandate))) = .ok scope.mandate := by
  cases hmandate : scope.mandate with
  | none => rfl
  | some text =>
      obtain ⟨key, rfl⟩ := h text hmandate
      have hne : address key ≠ [] :=
        canonicalAddress_ne_nil (Sdk.Memo.canonicalAddress_display key)
      obtain ⟨unit, rest, hcons⟩ := List.exists_cons_of_ne_nil hne
      change optionalMandate (some (jsValue (.string (address key)))) = _
      rw [jsValue, hcons]
      rfl

theorem ScopeSafe.parseScope (h : ScopeSafe scope) :
    parseScope (some (jsValue (.object (scopeFields scope)))) = .ok scope := by
  have hkeys : ((scopeFields scope).map Prod.fst).Nodup := by
    change (["type", "mandate", "from", "to"].map js).Nodup
    decide
  have htype : scopeTypeOf (some (.string scope.type.name)) = some scope.type := by
    cases scope.type <;> decide
  rw [jsValue]
  unfold Tools.parseScope
  simp only [bind_ok_iff, okOr_eq_ok, require_eq_ok, pure_eq_ok_iff]
  refine ⟨_, rfl, scope.type, ?_, scope.mandate, ?_, scope.fromTime, ?_, scope.toTime, ?_, (), ?_,
    (), ?_, rfl⟩
  · rw [field_plain (i := 0) hkeys rfl, jsValue]
    exact htype
  · rw [field_plain (i := 1) hkeys rfl]
    exact optionalMandate_plain h.mandate
  · rw [field_plain (i := 2) hkeys rfl]
    exact optionalInt_plain h.safeFrom
  · rw [field_plain (i := 3) hkeys rfl]
    exact optionalInt_plain h.safeTo
  · exact fun hrule => h.rule hrule.1 hrule.2
  · exact fun hrange => h.dateRange hrange.1 hrange.2

theorem bundle_keys (bundle : DecisionBundle) : ((bundleFields bundle).map Prod.fst).Nodup := by
  change (["schema_version", "completeness", "completeness_note", "cluster", "genesis_hash",
    "program_id", "scope", "decisions"].map js).Nodup
  decide

theorem parseDecisions_iff (hcluster : place.cluster ≠ []) (hgenesis : place.genesisHash ≠ [])
    (hrecords : ∀ record ∈ records, Exported place record) {ds : List DecisionRecord} :
    parseDecisions (records.map fun record => jsValue (recordToPlain record)) = .ok ds ↔
      ds = records ∧ ∀ record ∈ records, Readable record := by
  unfold parseDecisions
  rw [mapM_places (e := ExportError.atDecision), List.mapM_map]
  refine (mapM_eq_map_iff fun record hrecord _ =>
    (hrecords record hrecord).parseRecord_iff hcluster hgenesis).trans ?_
  rw [List.map_id']

theorem requireSigned_ok (hrecords : ∀ record ∈ records, Exported place record) :
    (records.zipIdx.forM fun (row, i) => requireSigned row i) = .ok ⟨⟩ := by
  refine forM_ok fun (row, i) hrow => ?_
  have hsignature := (hrecords row (List.fst_mem_of_mem_zipIdx hrow)).signature
  have hne : row.signature ≠ [] := by
    intro hnil
    have hlong := hsignature.long
    rw [hnil] at hlong
    exact absurd hlong (by decide)
  dsimp only
  rw [requireSigned, require_true hne, ok_bind, fileSignature_of hsignature]
  rfl

/-- Each part of a bundle is read from the field it names. -/
structure BundleFrom (o : List (JsString × JsValue)) (bundle : DecisionBundle) : Prop where
  version : (field o "schema_version").elim .nan numberOf = .finite 1
  schemaVersion : bundle.schemaVersion = 1
  complete : requireCompleteness (field o "completeness") = .ok ()
  completeness : bundle.completeness = COMPLETENESS
  completenessNote :
    requireString (field o "completeness_note") "completeness_note" = .ok bundle.completenessNote
  cluster : requireString (field o "cluster") "cluster" = .ok bundle.cluster
  genesisHash : requireString (field o "genesis_hash") "genesis_hash" = .ok bundle.genesisHash
  programId : requireString (field o "program_id") "program_id" = .ok bundle.programId
  decisions : ∃ rows, requireRows (field o "decisions") = .ok rows ∧
    parseDecisions rows = .ok bundle.decisions
  signatures : (bundle.decisions.zipIdx.forM fun (row, i) => requireSigned row i) = .ok ⟨⟩
  scope : parseScope (field o "scope") = .ok bundle.scope

/-- **`parseBundle` takes each part from the field it names, or fails.** -/
theorem parseBundle_eq_ok {o : List (JsString × JsValue)} {bundle : DecisionBundle} :
    parseBundle (.object o) = .ok bundle ↔ BundleFrom o bundle := by
  unfold parseBundle
  simp only [bind_ok_iff, require_eq_ok, pure_eq_ok_iff]
  constructor
  · rintro ⟨_, ⟨⟩, _, hversion, ⟨⟩, hcomplete, _, hnote, _, hcluster, _, hgenesis, _, hprogram, rows,
      hrows, _, hdecisions, ⟨⟩, hsigned, _, hscope, rfl⟩
    exact ⟨hversion, rfl, hcomplete, rfl, hnote, hcluster, hgenesis, hprogram,
      ⟨rows, hrows, hdecisions⟩, hsigned, hscope⟩
  · rintro ⟨hversion, hone, hcomplete, hpayments, hnote, hcluster, hgenesis, hprogram,
      ⟨rows, hrows, hdecisions⟩, hsigned, hscope⟩
    refine ⟨o, rfl, (), hversion, (), hcomplete, _, hnote, _, hcluster, _, hgenesis, _, hprogram,
      rows, hrows, _, hdecisions, ⟨⟩, hsigned, _, hscope, ?_⟩
    rw [← hone, ← hpayments]

theorem parseBundle_iff (hcluster : place.cluster ≠ []) (hgenesis : place.genesisHash ≠ [])
    (hscope : ScopeSafe scope) (hrecords : ∀ record ∈ records, Exported place record) :
    parseBundle (jsValue (bundlePlain (makeBundle place scope records))) = .ok other ↔
      other = makeBundle place scope records ∧ ∀ record ∈ records, Readable record := by
  have hkeys := bundle_keys (makeBundle place scope records)
  have hrows : requireRows (field (jsFields (bundleFields (makeBundle place scope records)))
      "decisions") = .ok (records.map fun record => jsValue (recordToPlain record)) := by
    rw [field_plain (i := 7) hkeys rfl, jsValue, jsItems_eq]
    exact congrArg Except.ok (List.map_map ..)
  have hobject : jsValue (bundlePlain (makeBundle place scope records)) =
      .object (jsFields (bundleFields (makeBundle place scope records))) := by
    rw [bundlePlain, jsValue]
  have hwhole : (∀ record ∈ records, Readable record) →
      BundleFrom (jsFields (bundleFields (makeBundle place scope records)))
        (makeBundle place scope records) := by
    intro hread
    refine ⟨?_, rfl, ?_, rfl, ?_, ?_, ?_, ?_, ⟨_, hrows, ?_⟩, requireSigned_ok hrecords, ?_⟩
    · have hone : jsValue (plainNumber 1) = .number (.finite ((1 : ℤ) : ℚ)) :=
        jsValue_small (by decide)
      rw [field_plain (i := 0) hkeys rfl, Option.elim_some]
      rw [show (makeBundle place scope records).schemaVersion = 1 from rfl, hone, Int.cast_one]
      rfl
    · rw [field_plain (i := 1) hkeys rfl, jsValue]
      exact require_true rfl
    · rw [field_plain (i := 2) hkeys rfl, jsValue]
      exact requireString_of_ne completenessNote_ne_nil
    · rw [field_plain (i := 3) hkeys rfl, jsValue]
      exact requireString_of_ne hcluster
    · rw [field_plain (i := 4) hkeys rfl, jsValue]
      exact requireString_of_ne hgenesis
    · rw [field_plain (i := 5) hkeys rfl, jsValue]
      exact requireString_of_ne (canonicalAddress_ne_nil (Sdk.Memo.canonicalAddress_display _))
    · exact (parseDecisions_iff hcluster hgenesis hrecords).mpr ⟨rfl, hread⟩
    · rw [field_plain (i := 6) hkeys rfl]
      exact hscope.parseScope
  rw [hobject, parseBundle_eq_ok]
  constructor
  · intro hfrom
    obtain ⟨rows, hrowsEq, hdecisions⟩ := hfrom.decisions
    rw [hrows] at hrowsEq
    cases hrowsEq
    have hread := ((parseDecisions_iff hcluster hgenesis hrecords).mp hdecisions).2
    have hsame := (parseBundle_eq_ok.mpr hfrom).symm.trans (parseBundle_eq_ok.mpr (hwhole hread))
    exact ⟨Except.ok.inj hsame, hread⟩
  · rintro ⟨rfl, hread⟩
    exact hwhole hread

/-! ## The file -/

theorem printable_plainNumber (n : Int) : Printable (plainNumber n) := .number _

theorem printable_record (record : DecisionRecord) : Printable (recordToPlain record) := by
  refine .object ?_ (record_keys record)
  have hlimits : Printable (.object (limitsFields record.limits)) := by
    refine .object ?_ (limits_keys record.limits)
    simp only [limitsFields, List.forall_mem_cons]
    exact ⟨.number _, .number _, .number _, .string _, .string _,
      fun _ h => absurd h List.not_mem_nil⟩
  simp only [recordFields, List.forall_mem_cons]
  exact ⟨.number _, .string _, .string _, .string _, .string _, hlimits, .string _, .number _,
    .string _, .number _, .number _, .number _, .string _, .number _, .string _,
    fun _ h => absurd h List.not_mem_nil⟩

theorem printable_orNull {α : Type} {write : α → JsonValue} (h : ∀ a, Printable (write a))
    (value : Option α) : Printable (orNull write value) := by
  cases value with
  | none => exact .null
  | some a => exact h a

theorem printable_bundle (bundle : DecisionBundle) : Printable (bundlePlain bundle) := by
  refine .object ?_ (bundle_keys bundle)
  have hscope : Printable (.object (scopeFields bundle.scope)) := by
    refine .object ?_ (by change (["type", "mandate", "from", "to"].map js).Nodup; decide)
    simp only [scopeFields, List.forall_mem_cons]
    exact ⟨.string _, printable_orNull .string _, printable_orNull printable_plainNumber _,
      printable_orNull printable_plainNumber _, fun _ h => absurd h List.not_mem_nil⟩
  have hdecisions : Printable (.array (bundle.decisions.map recordToPlain)) := by
    refine .array fun item hitem => ?_
    obtain ⟨record, -, rfl⟩ := List.mem_map.mp hitem
    exact printable_record record
  simp only [bundleFields, List.forall_mem_cons]
  exact ⟨.number _, .string _, .string _, .string _, .string _, .string _, hscope, hdecisions,
    fun _ h => absurd h List.not_mem_nil⟩

/-- A JSON object is read as JSON. -/
theorem parseExportText_object {fields : List (JsString × JsonValue)}
    (h : Printable (.object fields)) (hne : fields ≠ []) :
    parseExportText (utf16 (indented 0 (.object fields) ++ ['\n'])) =
      match field (jsFields fields) "decisions" with
      | some (.array _) => (parseBundle (jsValue (.object fields))).map .bulk
      | _ => (parseRecord (jsValue (.object fields))).map .single := by
  obtain ⟨mid, hmid⟩ : ∃ mid : Text, indented 0 (.object fields) = '{' :: (mid ++ ['}']) := by
    rw [indented, indentedFields_eq]
    obtain ⟨first, rest, rfl⟩ := List.exists_cons_of_ne_nil hne
    exact ⟨_, congrArg ('{' :: ·) (List.append_assoc ..).symm⟩
  have hunits : utf16 (indented 0 (.object fields)) = 0x7b :: (utf16 mid ++ [0x7d]) := by
    rw [hmid]
    simp only [utf16, List.flatMap_append, List.flatMap_cons, List.flatMap_nil]
    rfl
  have htext : utf16 (indented 0 (.object fields) ++ ['\n']) =
      utf16 (indented 0 (.object fields)) ++ [csvMarks.lineFeed] := List.flatMap_append ..
  have htrim : App.trim (utf16 (indented 0 (.object fields)) ++ [csvMarks.lineFeed]) =
      utf16 (indented 0 (.object fields)) := by
    rw [hunits]
    refine trim_feed ?_ ?_
    · rintro unit ⟨⟩
      decide
    · intro unit hlast
      rw [← List.cons_append, List.getLast?_concat] at hlast
      cases hlast
      decide
  have hne : utf16 (indented 0 (.object fields)) ≠ [] := hunits ▸ List.cons_ne_nil _ _
  have hcsv : looksCsv (utf16 (indented 0 (.object fields))) = false := by
    rw [hunits]
    rfl
  have hobject : requireObject (some (jsValue (.object fields))) "record must be a JSON object" =
      .ok (jsFields fields) := by
    rw [jsValue]
    rfl
  rw [htext]
  unfold parseExportText
  rw [htrim]
  dsimp only
  rw [if_neg hne, hcsv, Bool.false_and, Bool.false_and, if_neg Bool.false_ne_true,
    decodeUtf16_utf16, Option.bind_some, h.parse_indented]
  dsimp only
  exact (congrArg (· >>= _) hobject).trans rfl

end Bundle

/-- A file of any records. -/
theorem parseExportText_json_iff {place : ExportPlace} {scope : ExportScope}
    {records : List DecisionRecord} (hcluster : place.cluster ≠ []) (hgenesis : place.genesisHash ≠ [])
    (hsafe : ScopeSafe scope) (hrecords : ∀ record ∈ records, Exported place record)
    (read : ParsedExport) :
    parseExportText (bundleToJson (makeBundle place scope records)) = .ok read ↔
      read = .bulk (makeBundle place scope records) ∧ ∀ record ∈ records, Readable record := by
  have hdecisions : field (jsFields (bundleFields (makeBundle place scope records))) "decisions" =
      some (.array (jsItems (records.map recordToPlain))) := by
    rw [field_plain (i := 7) (bundle_keys _) rfl, jsValue]
    rfl
  have hparse : parseExportText (bundleToJson (makeBundle place scope records)) =
      (parseBundle (jsValue (bundlePlain (makeBundle place scope records)))).map .bulk := by
    rw [bundleToJson, bundlePlain, parseExportText_object (printable_bundle _) (List.cons_ne_nil _ _),
      hdecisions]
  rw [hparse, map_eq_ok_iff]
  constructor
  · rintro ⟨bundle, hbundle, rfl⟩
    obtain ⟨rfl, hreadable⟩ := (parseBundle_iff hcluster hgenesis hsafe hrecords).mp hbundle
    exact ⟨rfl, hreadable⟩
  · rintro ⟨rfl, hreadable⟩
    exact ⟨_, (parseBundle_iff hcluster hgenesis hsafe hrecords).mpr ⟨rfl, hreadable⟩, rfl⟩

/-- A file of one record. -/
theorem parseExportText_record_iff {place : ExportPlace} {record : DecisionRecord}
    (hcluster : place.cluster ≠ []) (hgenesis : place.genesisHash ≠ [])
    (hrecord : Exported place record) (read : ParsedExport) :
    parseExportText (recordToJson record) = .ok read ↔
      read = .single record ∧ Readable record := by
  have hdecisions : field (jsFields (recordFields record)) "decisions" = none := by
    rw [jsFields_eq]
    rfl
  have hparse : parseExportText (recordToJson record) =
      (parseRecord (jsValue (recordToPlain record))).map .single := by
    rw [recordToJson, recordToPlain, parseExportText_object (printable_record _)
      (List.cons_ne_nil _ _), hdecisions]
  rw [hparse, map_eq_ok_iff]
  constructor
  · rintro ⟨other, hother, rfl⟩
    obtain ⟨rfl, hreadable⟩ := (hrecord.parseRecord_iff hcluster hgenesis).mp hother
    exact ⟨rfl, hreadable⟩
  · rintro ⟨rfl, hreadable⟩
    exact ⟨_, (hrecord.parseRecord_iff hcluster hgenesis).mpr ⟨rfl, hreadable⟩, rfl⟩

/-- **An export as JSON is read back, exactly when its numbers are safe.**  Whatever decisions are
exported for a rule or for a range of days: `parseExportText` gives the JSON of the bundle back as
the bundle if and only if every amount, nonce, limit, time and suggestion is a safe integer and every
purpose is there; else it gives an error. -/
theorem json_read_back_iff {place : ExportPlace} {filter : ScopeFilter} {scope : ExportScope}
    {rows : List ExportRow} {records : List DecisionRecord}
    (hcluster : place.cluster ≠ []) (hgenesis : place.genesisHash ≠ [])
    (hscope : buildScope filter = .ok scope)
    (hfrom : ∀ n ∈ filter.fromTime, n.natAbs ≤ MAX_SAFE_INTEGER)
    (hto : ∀ n ∈ filter.toTime, n.natAbs ≤ MAX_SAFE_INTEGER)
    (hsignatures : ∀ row ∈ rows, IsSignature row.decision.signature)
    (hrecords : rows.mapM (ExportRow.build place) = .ok records) (read : ParsedExport) :
    parseExportText (bundleToJson (makeBundle place scope records)) = .ok read ↔
      read = .bulk (makeBundle place scope records) ∧
        ∀ record ∈ records, Readable record := by
  refine parseExportText_json_iff hcluster hgenesis (buildScope_safe hscope hfrom hto) ?_ read
  intro record hrecord
  obtain ⟨row, hrow, hbuild⟩ := mem_of_mapM hrecords hrecord
  exact ExportRow.exported hbuild (hsignatures row hrow)

theorem rent_json_read_back :
    parseExportText (bundleToJson (makeBundle rentPlace ⟨.rule, some (address 1), none, none⟩
        [rentRecord])) =
      .ok (.bulk (makeBundle rentPlace ⟨.rule, some (address 1), none, none⟩ [rentRecord])) := by
  have hscope : buildScope ⟨some 1, none, none, none, none⟩ =
      .ok ⟨.rule, some (address 1), none, none⟩ := rfl
  refine (json_read_back_iff (by decide) (by decide) hscope
    (fun _ h => absurd h (by simp)) (fun _ h => absurd h (by simp)) ?_ rentRow_build _).mpr ⟨rfl, ?_⟩
  · intro row hrow
    exact List.mem_singleton.mp hrow ▸ rentSignature
  · intro record hrecord
    exact List.mem_singleton.mp hrecord ▸ ⟨by decide, by decide⟩

end Veto.Tools

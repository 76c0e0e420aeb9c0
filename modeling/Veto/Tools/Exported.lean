import Veto.Tools.Bundle

/-!
# The records of an export

What holds of every record that the export tool builds from an indexed decision: its addresses are
canonical, its numbers have 64 bits, and its signature passes the check of the parser.
-/

namespace Veto.Tools

open Foundation

/-- A text without a line feed, and without a blank at its end. -/
structure Line (text : JsString) : Prop where
  oneLine : csvMarks.lineFeed ∉ text
  trimmed : ∀ unit, text.getLast? = some unit → App.isSpaceUnit unit = false

/-- The name of a cluster or of its genesis. -/
structure Label (text : JsString) : Prop extends Line text where
  named : text ≠ []

/-- The base 58 text of the 64 bytes of a signature. -/
structure IsSignature (text : JsString) : Prop where
  long : 64 ≤ text.length
  short : text.length ≤ 88
  units : text.all isBase58Unit = true
  bytes : decodedLength text = 64

/-- The integers that a record states. -/
def DecisionRecord.numbers (record : DecisionRecord) : List Int :=
  [record.limits.cap, record.limits.perTxMax, record.limits.expiresAt, record.amount,
    record.timestamp, record.nonce, record.suggestedOverride]

/-- A record of a decision, made for a place. -/
structure Recorded (place : ExportPlace) (record : DecisionRecord) : Prop where
  schemaVersion : record.schemaVersion = 1
  cluster : record.cluster = place.cluster
  genesisHash : record.genesisHash = place.genesisHash
  programId : record.programId = address place.programId
  mandate : ∃ key, record.mandate = address key
  merchant : ∃ key, record.limits.merchant = address key
  counterparty : ∃ key, record.counterparty = address key
  reasonCode : ∃ code : UInt8, record.reasonCode = code.toNat
  reasonText : record.reasonText ≠ [] ∧ csvMarks.lineFeed ∉ record.reasonText
  signature : IsSignature record.signature

/-- A record whose integers have 64 bits. -/
structure Exported (place : ExportPlace) (record : DecisionRecord) : Prop
    extends Recorded place record where
  numbers : ∀ n ∈ record.numbers, n.natAbs ≤ 2 ^ 64

/-- What is exported of a decision: the limits of its mandate, and the entry of the ring. -/
structure ExportRow where
  decision : IndexedDecision
  limits : MandateLimits
  ringEntry : Option LedgerEntry

def ExportRow.build (place : ExportPlace) (row : ExportRow) : Except ExportError DecisionRecord :=
  buildRecordFromIndexed place row.limits row.decision row.ringEntry

section Built

variable {place : ExportPlace} {row : ExportRow} {record : DecisionRecord}

theorem natAbs_uint64 (n : UInt64) : (n.toNat : Int).natAbs ≤ 2 ^ 64 := by
  have := n.toNat_lt
  omega

theorem natAbs_int64 (n : Int64) : n.toInt.natAbs ≤ 2 ^ 64 := by
  have hmin := n.le_toInt
  have hmax := n.toInt_lt
  omega

theorem reasonText_line (code : UInt8) :
    js (reasonText code) ≠ [] ∧ csvMarks.lineFeed ∉ js (reasonText code) := by
  unfold reasonText
  split <;> decide

theorem ExportRow.exported (h : row.build place = .ok record)
    (hsignature : IsSignature row.decision.signature) : Exported place record := by
  unfold build buildRecordFromIndexed buildRecord at h
  simp only [bind_ok_iff, okOr_eq_ok, pure_eq_ok_iff] at h
  obtain ⟨counterparty, -, kind, -, rfl⟩ := h
  refine ⟨⟨rfl, rfl, rfl, rfl, ⟨_, rfl⟩, ⟨_, rfl⟩, ?_, ⟨_, rfl⟩, reasonText_line _, hsignature⟩, ?_⟩
  · dsimp only
    exact ⟨_, rfl⟩
  intro n hn
  simp only [DecisionRecord.numbers, List.mem_cons, List.not_mem_nil, or_false] at hn
  rcases hn with rfl | rfl | rfl | rfl | rfl | rfl | rfl
  · exact natAbs_uint64 _
  · exact natAbs_uint64 _
  · exact natAbs_int64 _
  · exact natAbs_uint64 _
  · exact natAbs_int64 _
  · exact natAbs_uint64 _
  · exact natAbs_uint64 _

end Built

/-! ## The checks that such a record passes -/

theorem record_keys (record : DecisionRecord) : ((recordFields record).map Prod.fst).Nodup := by
  change (["schema_version", "cluster", "genesis_hash", "program_id", "mandate", "limits", "kind",
    "amount", "counterparty", "timestamp", "nonce", "reason_code", "reason_text",
    "suggested_override", "signature"].map js).Nodup
  decide

theorem limits_keys (limits : Limits) : ((limitsFields limits).map Prod.fst).Nodup := by
  change (["cap", "per_tx_max", "expires_at", "merchant", "purpose"].map js).Nodup
  decide

section Checks

variable {text : JsString} {name : String}

theorem canonicalAddress_ne_nil (h : Sdk.canonicalAddress text = true) : text ≠ [] := by
  rintro rfl
  exact absurd h (by decide)

theorem requireString_of_ne (h : text ≠ []) : requireString (some (.string text)) name = .ok text :=
  if_neg h

theorem requireString_text {record : JsString}
    (h : requireString (some (.string text)) name = .ok record) : text ≠ [] := by
  rintro rfl
  cases h

theorem requirePubkey_address (key : Pubkey) :
    requirePubkey (some (.string (address key))) name = .ok (address key) := by
  have hcanonical : Sdk.canonicalAddress (address key) = true := Sdk.Memo.canonicalAddress_display key
  unfold requirePubkey
  rw [requireString_of_ne (canonicalAddress_ne_nil hcanonical), ok_bind, require_true hcanonical]
  rfl

theorem requireKind_name (kind : ChargeKind) :
    kind.name ≠ [] ∧ requireKind kind.name = .ok kind := by
  cases kind
  · exact ⟨by decide, if_pos rfl⟩
  · exact ⟨by decide, (if_neg (by decide)).trans (if_pos rfl)⟩

theorem base58Unit_range {unit : UInt16} (h : isBase58Unit unit = true) :
    0x31 ≤ unit.toNat ∧ unit.toNat ≤ 0x7a := by
  have halphabet : base58Alphabet.all fun c => 0x31 ≤ c.toNat && c.toNat ≤ 0x7a := by decide
  have hchar := List.all_eq_true.mp halphabet _ (List.contains_iff_mem.mp h)
  rw [Bool.and_eq_true, decide_eq_true_eq, decide_eq_true_eq] at hchar
  by_cases hvalid : unit.toNat.isValidChar
  · rwa [toNat_ofNat_of_valid hvalid] at hchar
  · rw [Char.ofNat, dif_neg hvalid] at hchar
    exact absurd hchar.1 (by decide)

/-- Base 58 has no surrogates. -/
theorem wellFormed_of_base58 (h : text.all isBase58Unit = true) : isWellFormedUtf16 text = true := by
  refine isWellFormedUtf16_iff.mpr ⟨text.map fun unit => Char.ofNat unit.toNat, ?_⟩
  rw [utf16, List.flatMap_map]
  induction text with
  | nil => rfl
  | cons unit text ih =>
      rw [List.all_cons, Bool.and_eq_true] at h
      have hplain : isSurrogate unit = false := by
        by_contra hsurrogate
        have hrange := isSurrogate_iff.mp (Bool.not_eq_false _ ▸ hsurrogate)
        have hunit := base58Unit_range h.1
        omega
      have hrest := ih h.2
      rw [List.flatMap_cons, utf16Units_unit hplain]
      exact congrArg (unit :: ·) hrest

theorem fileSignature_of (h : IsSignature text) :
    fileSignature (some (.string text)) name = .ok text := by
  have hne : text ≠ [] := by
    rintro rfl
    exact absurd h.long (by decide)
  have hstring : requireString (some (.string text)) name = .ok text := requireString_of_ne hne
  have hcheck : requireSignature (some (.string text)) name = .ok text := by
    unfold requireSignature
    rw [hstring, ok_bind, require_true h.short, ok_bind, require_true h.units, ok_bind,
      require_true h.bytes]
    rfl
  unfold fileSignature
  rw [hstring, ok_bind, require_true (wellFormed_of_base58 h.units), ok_bind, if_pos (.inl h.long)]
  exact hcheck

theorem Recorded.reasonCode_small {place : ExportPlace} {record : DecisionRecord}
    (h : Recorded place record) : record.reasonCode.natAbs ≤ MAX_SAFE_INTEGER ∧
      0 ≤ record.reasonCode ∧ record.reasonCode ≤ 255 := by
  obtain ⟨code, hcode⟩ := h.reasonCode
  have := code.toNat_lt
  rw [hcode, MAX_SAFE_INTEGER]
  omega

end Checks

/-! ## Lists of records -/

section Lists

variable {α β ε : Type} {f : α → Except ε β} {xs : List α} {ys : List β}

/-- Errors may be marked with a place. -/
theorem mapM_places {e : ε → Nat → ε} (k : Nat) :
    ((xs.zipIdx k).mapM fun (x, i) => (f x).mapError (e · i)) = .ok ys ↔ xs.mapM f = .ok ys := by
  induction xs generalizing k ys with
  | nil => rfl
  | cons x xs ih =>
      rw [List.zipIdx_cons, List.mapM_cons, List.mapM_cons]
      simp only [bind_ok_iff, pure_eq_ok_iff]
      cases hx : f x with
      | error failure =>
          constructor
          · rintro ⟨_, h, -⟩
            cases h
          · rintro ⟨_, h, -⟩
            cases h
      | ok y =>
          constructor
          · rintro ⟨_, h, zs, hzs, rfl⟩
            cases h
            exact ⟨y, rfl, zs, (ih (k + 1)).mp hzs, rfl⟩
          · rintro ⟨_, h, zs, hzs, rfl⟩
            cases h
            exact ⟨y, rfl, zs, (ih (k + 1)).mpr hzs, rfl⟩

/-- A list is read when each of its items is. -/
theorem mapM_eq_map_iff {own : α → β} {P : α → Prop}
    (h : ∀ x ∈ xs, ∀ y, f x = .ok y ↔ y = own x ∧ P x) :
    xs.mapM f = .ok ys ↔ ys = xs.map own ∧ ∀ x ∈ xs, P x := by
  induction xs generalizing ys with
  | nil =>
      constructor
      · intro hnil
        cases hnil
        exact ⟨rfl, fun _ hx => absurd hx List.not_mem_nil⟩
      · rintro ⟨rfl, -⟩
        rfl
  | cons x xs ih =>
      have hrest : ∀ zs, xs.mapM f = .ok zs ↔ zs = xs.map own ∧ ∀ x ∈ xs, P x := fun zs =>
        ih fun y hy => h y (List.mem_cons_of_mem _ hy)
      rw [List.mapM_cons, List.map_cons]
      simp only [bind_ok_iff, pure_eq_ok_iff, h x List.mem_cons_self, List.forall_mem_cons]
      constructor
      · rintro ⟨_, ⟨rfl, hx⟩, _, hmap, rfl⟩
        obtain ⟨rfl, hall⟩ := (hrest _).mp hmap
        exact ⟨rfl, hx, hall⟩
      · rintro ⟨rfl, hx, hall⟩
        exact ⟨own x, ⟨rfl, hx⟩, _, (hrest _).mpr ⟨rfl, hall⟩, rfl⟩

theorem ok_of_mapM (h : xs.mapM f = .ok ys) {x : α} (hx : x ∈ xs) : ∃ y, f x = .ok y := by
  induction xs generalizing ys with
  | nil => cases hx
  | cons first xs ih =>
      rw [List.mapM_cons] at h
      obtain ⟨y, hfirst, h⟩ := bind_ok_iff.mp h
      obtain ⟨rest, hrest, -⟩ := bind_ok_iff.mp h
      rcases List.mem_cons.mp hx with rfl | hx
      · exact ⟨y, hfirst⟩
      · exact ih hrest hx

theorem map_eq_ok_iff {g : α → β} {x : Except ε α} {b : β} :
    x.map g = .ok b ↔ ∃ a, x = .ok a ∧ b = g a := by
  cases x with
  | error e =>
      constructor
      · intro h
        cases h
      · rintro ⟨a, h, -⟩
        cases h
  | ok a =>
      constructor
      · intro h
        exact ⟨a, rfl, (Except.ok.inj h).symm⟩
      · rintro ⟨_, ⟨⟩, rfl⟩
        rfl

theorem forM_ok {f : α → Except ε PUnit} {xs : List α} (h : ∀ x ∈ xs, f x = .ok ⟨⟩) :
    xs.forM f = .ok ⟨⟩ := by
  induction xs with
  | nil => rfl
  | cons x xs ih =>
      change (f x >>= fun _ => xs.forM f) = .ok ⟨⟩
      rw [h x List.mem_cons_self, ok_bind]
      exact ih fun y hy => h y (List.mem_cons_of_mem _ hy)

end Lists

/-! ## The scope -/

/-- What is known of the scope of a file: its bounds are doubles. -/
structure ScopeBuilt (scope : ExportScope) : Prop where
  mandate : ∀ text ∈ scope.mandate, ∃ key, text = address key
  fromTime : ∀ n ∈ scope.fromTime, toNumber n = n
  toTime : ∀ n ∈ scope.toTime, toNumber n = n
  rule : scope.type = .rule → scope.mandate ≠ none
  dateRange : scope.type = .dateRange → ¬ (scope.fromTime = none ∧ scope.toTime = none)

structure ScopeSafe (scope : ExportScope) : Prop extends ScopeBuilt scope where
  safeFrom : ∀ n ∈ scope.fromTime, n.natAbs ≤ MAX_SAFE_INTEGER
  safeTo : ∀ n ∈ scope.toTime, n.natAbs ≤ MAX_SAFE_INTEGER

theorem buildScope_safe {filter : ScopeFilter} {scope : ExportScope}
    (h : buildScope filter = .ok scope)
    (hfrom : ∀ n ∈ filter.fromTime, n.natAbs ≤ MAX_SAFE_INTEGER)
    (hto : ∀ n ∈ filter.toTime, n.natAbs ≤ MAX_SAFE_INTEGER) : ScopeSafe scope := by
  unfold buildScope at h
  by_cases hrange : (filter.fromTime.isSome || filter.toTime.isSome) = true
  · rw [if_pos hrange] at h
    cases h
    refine ⟨⟨?_, fun n hn => toNumber_small (hfrom n hn), fun n hn => toNumber_small (hto n hn),
      fun hrule => ?_, fun _ hnone => ?_⟩, hfrom, hto⟩
    · intro text htext
      obtain ⟨key, -, rfl⟩ := Option.map_eq_some_iff.mp htext
      exact ⟨key, rfl⟩
    · cases hrule
    · obtain ⟨hfromNone, htoNone⟩ : filter.fromTime = none ∧ filter.toTime = none := hnone
      rw [hfromNone, htoNone] at hrange
      cases hrange
  · rw [if_neg hrange] at h
    cases hmandate : filter.mandate with
    | none =>
        rw [hmandate] at h
        cases h
    | some key =>
        rw [hmandate] at h
        cases h
        refine ⟨⟨?_, fun _ h => ?_, fun _ h => ?_, fun _ => Option.some_ne_none _, fun h => ?_⟩,
          fun _ h => ?_, fun _ h => ?_⟩
        · rintro text ⟨⟩
          exact ⟨key, rfl⟩
        · cases h
        · cases h
        · cases h
        · cases h
        · cases h

set_option maxRecDepth 4000 in
theorem completenessNote_ne_nil : COMPLETENESS_NOTE ≠ [] := by
  intro h
  have hhead : COMPLETENESS_NOTE.head? = some 0x43 := by
    unfold COMPLETENESS_NOTE
    rfl
  rw [h] at hhead
  cases hhead

/-! ## The text -/

/-- Only the line break at its end is taken off such a text. -/
theorem trim_feed {text : JsString}
    (hfirst : ∀ unit, text.head? = some unit → App.isSpaceUnit unit = false)
    (hlast : ∀ unit, text.getLast? = some unit → App.isSpaceUnit unit = false) :
    App.trim (text ++ [csvMarks.lineFeed]) = text := by
  have hfeed : App.isSpaceUnit csvMarks.lineFeed = true := by decide
  unfold App.trim
  cases text with
  | nil => rfl
  | cons first rest =>
      have hdrop : ¬ App.isSpaceUnit first = true := Bool.eq_false_iff.mp (hfirst first rfl)
      rw [List.cons_append, List.dropWhile_cons_of_neg hdrop, ← List.cons_append,
        List.rdropWhile_concat_pos _ _ _ hfeed, List.rdropWhile_eq_self_iff]
      intro hne
      exact Bool.eq_false_iff.mp (hlast _ (List.getLast?_eq_some_getLast hne))

/-! ## A payment -/

def rentPlace : ExportPlace := ⟨js "devnet", js "EtWTRABZaYq6iMfeYKouRu166VU2xqa1wcaWoxPkrZBG", 9⟩

/-- A payment of five hundred for rent. -/
def rentRow : ExportRow where
  decision :=
    { signature := List.replicate 64 0x31
      timestamp := some 1700000000
      mandate := 1
      amount := 500
      nonce := 7
      counterparty := some 2
      kind := .paid
      reason := 0
      suggestedOverride := 0 }
  limits := { cap := 9000, perTxMax := 800, expiresAt := 1800000000, merchant := 2, purpose := "rent" }
  ringEntry := none

def rentRecord : DecisionRecord where
  schemaVersion := 1
  cluster := rentPlace.cluster
  genesisHash := rentPlace.genesisHash
  programId := address 9
  mandate := address 1
  limits := ⟨9000, 800, 1800000000, address 2, js "rent"⟩
  kind := .paid
  amount := 500
  counterparty := address 2
  timestamp := 1700000000
  nonce := 7
  reasonCode := 0
  reasonText := js "ok"
  suggestedOverride := 0
  signature := List.replicate 64 0x31

theorem rentSignature : IsSignature (List.replicate 64 0x31) where
  long := by decide
  short := by decide
  units := by decide
  bytes := by decide

theorem rentRow_build : [rentRow].mapM (ExportRow.build rentPlace) = .ok [rentRecord] := rfl

end Veto.Tools

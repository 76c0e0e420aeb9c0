import Veto.Sdk.RuleRequest

/-!
# Rule requests in the app

`parseRuleRequest` of the app, which reads the link that the owner is shown.  It takes the link apart
by itself, lists the values of each key and checks the lists.
-/

namespace Veto.App

open Foundation
open Sdk (QueryKey RuleRequest)

def U64_MAX : Nat := 18446744073709551615

def LABEL_MAX_CHARS : Nat := 64

def PURPOSE_MAX_LEN : Nat := 64

def REQUIRED_KEYS : List QueryKey := [.v, .agent, .payee, .mint, .cap, .max, .days, .purpose]

def OPTIONAL_KEYS : List QueryKey := [.agentLabel, .payeeLabel]

/-- `KNOWN_KEYS.has`. -/
def knownKey (text : JsString) : Option QueryKey :=
  (REQUIRED_KEYS ++ OPTIONAL_KEYS).find? (·.name = text)

/-! ## Checks -/

def canonicalAddress (text : JsString) : Option JsString := do
  let canonical ← Sdk.publicKeyBase58 text
  if canonical ≠ text then none else return canonical

/-- `/^(0|[1-9][0-9]*)$/`, at most the u64 maximum. -/
def parseBaseUnitAmount (raw : JsString) : Option Nat :=
  if raw = js "0" || Sdk.isNumeral raw then
    if U64_MAX < Sdk.digitsValue raw then none else some (Sdk.digitsValue raw)
  else none

def parseDays (raw : JsString) : Option Nat :=
  if Sdk.isNumeral raw then
    let days := roundNumber (Sdk.digitsValue raw)
    if !Sdk.isSafeInteger days || days < 1 || 3650 < days then none else some days
  else none

def readLabel (values : List JsString) (noun : String) : Except String (Option JsString) :=
  let value := values.headD []
  if value = [] then .ok none
  else if !isWellFormedUtf16 value then .error s!"The {noun} is not percent-encoded UTF-8."
  else if LABEL_MAX_CHARS < codePointLength value then
    .error s!"The {noun} is longer than {LABEL_MAX_CHARS} characters."
  else .ok (some value)

/-! ## From the values to the request -/

/-- `Map<string, string[]>`; a key that is not there has no values. -/
abbrev Pairs := QueryKey → List JsString

/-- A required value is there, and only a purpose may be empty. -/
def isPresent (pairs : Pairs) (key : QueryKey) : Bool :=
  (pairs key).head?.any fun value => key = .purpose || value ≠ []

def requestFromPairs (pairs : Pairs) : Except String RuleRequest := do
  (REQUIRED_KEYS ++ OPTIONAL_KEYS).forM fun key =>
    require ((pairs key).length ≤ 1) s!"The request repeats {key.text}."
  REQUIRED_KEYS.forM fun key => require (isPresent pairs key = true) s!"The request is missing {key.text}."
  require ((pairs .v).head? = some (js "1")) "The request version is not 1."
  let agent ← okOr (canonicalAddress ((pairs .agent).headD [])) "The agent address is not canonical."
  let payee ← okOr (canonicalAddress ((pairs .payee).headD [])) "The payee address is not canonical."
  let mint ← okOr (canonicalAddress ((pairs .mint).headD [])) "The mint address is not canonical."
  let cap ← okOr (parseBaseUnitAmount ((pairs .cap).headD []))
    "The cap is not a whole number of base units."
  require (cap ≠ 0) "The cap is zero."
  let max ← okOr (parseBaseUnitAmount ((pairs .max).headD []))
    "The max is not a whole number of base units."
  require (max ≠ 0) "The largest payment is zero."
  require (max ≤ cap) "The largest payment is above the cap."
  let days ← okOr (parseDays ((pairs .days).headD []))
    "The days value must be a whole number of days from 1 to 3650."
  let purpose := (pairs .purpose).headD []
  require (isWellFormedUtf16 purpose = true) "The purpose is not percent-encoded UTF-8."
  require (byteLength purpose ≤ PURPOSE_MAX_LEN) s!"The purpose is longer than {PURPOSE_MAX_LEN} bytes."
  let agentLabel ← readLabel (pairs .agentLabel) "agent label"
  let payeeLabel ← readLabel (pairs .payeeLabel) "payee label"
  return { agent, payee, mint, cap, max, days, purpose, agentLabel, payeeLabel }

/-! ## From the link to the values -/

def addPair (pairs : Pairs) (part : JsString) : Option Pairs :=
  match readPart knownKey part with
  | none => some pairs
  | some (_, none) => none
  | some (key, some value) => some (Function.update pairs key (pairs key ++ [value]))

/-- A known key whose value does not decode makes it throw. -/
def parseQuery (query : JsString) : Option Pairs :=
  if query = [] then some fun _ => []
  else (queryParts query).foldlM addPair fun _ => []

/-- What `trim` takes off. -/
def isSpaceUnit (unit : UInt16) : Bool :=
  (0x9 ≤ unit && unit ≤ 0xd) || (0x2000 ≤ unit && unit ≤ 0x200a) ||
    ([0x20, 0xa0, 0x1680, 0x2028, 0x2029, 0x202f, 0x205f, 0x3000, 0xfeff] : List UInt16).contains unit

def trim (input : JsString) : JsString := (input.dropWhile isSpaceUnit).rdropWhile isSpaceUnit

def stripHash (input : JsString) : JsString := input.takeWhile (· ≠ 0x23)

/-- The characters that `.` does not match. -/
def isLineTerminator (unit : UInt16) : Bool :=
  ([0xa, 0xd, 0x2028, 0x2029] : List UInt16).contains unit

/-- The end of `/^veto:\/\/rule-request\/?(?:\?.*)?$/i`. -/
def matchesTail (rest : JsString) : Bool :=
  match rest with
  | [] => true
  | unit :: query => unit = 0x3f && query.all fun unit => !isLineTerminator unit

def isRuleRequestUrl (input : JsString) : Bool :=
  let start := js "veto://rule-request"
  let text := stripHash (trim input)
  if Sdk.toLowerCase (text.take start.length) = start then
    match text.drop start.length with
    | 0x2f :: rest => matchesTail rest
    | rest => matchesTail rest
  else false

/-- What is read of a query. -/
def requestOfQuery (query : JsString) : Except String RuleRequest :=
  match parseQuery query with
  | none => .error "The request is not percent-encoded UTF-8."
  | some pairs => requestFromPairs pairs

def parseRuleRequest (input : JsString) : Except String RuleRequest :=
  let trimmed := trim input
  if !isRuleRequestUrl trimmed then .error "This is not a rule request."
  else requestOfQuery (((stripHash trimmed).dropWhile (· ≠ 0x3f)).drop 1)

/-- A search parameter of the router. -/
inductive Param
  | undefined
  | string (value : JsString)
  | array (values : List JsString)

def ruleRequestFromParams (params : QueryKey → Param) : Except String RuleRequest :=
  requestFromPairs fun key =>
    match params key with
    | .undefined => []
    | .string value => [value]
    | .array values => values

/-! ## What the app reads -/

/-- The values of a query decode, and are these. -/
theorem foldlM_addPair {parts : List JsString} {start pairs : Pairs} :
    parts.foldlM addPair start = some pairs ↔ ∀ key,
      (start key).map some ++ valuesOf key (parts.filterMap (readPart knownKey)) =
        (pairs key).map some := by
  induction parts generalizing start with
  | nil =>
      simp only [List.foldlM_nil, Option.pure_def, Option.some.injEq, List.filterMap_nil]
      constructor
      · rintro rfl key
        exact List.append_nil _
      · intro h
        funext key
        exact List.map_injective_iff.mpr (Option.some_injective _)
          ((List.append_nil _).symm.trans (h key))
  | cons part parts ih =>
      rw [List.foldlM_cons, addPair, List.filterMap_cons]
      cases readPart knownKey part with
      | none => exact ih
      | some param =>
          obtain ⟨known, value⟩ := param
          cases value with
          | none =>
              constructor
              · intro h
                cases h
              · intro h
                have hmem : (none : Option JsString) ∈ (pairs known).map some := by
                  rw [← h known, valuesOf, List.filter_cons, if_pos (decide_eq_true rfl)]
                  exact List.mem_append_right _ List.mem_cons_self
                obtain ⟨_, -, hnone⟩ := List.mem_map.mp hmem
                cases hnone
          | some value =>
              dsimp only
              rw [Option.bind_eq_bind, Option.bind_some, ih]
              refine forall_congr' fun key => ?_
              by_cases hkey : known = key
              · subst hkey
                rw [Function.update_self, valuesOf, valuesOf, List.filter_cons,
                  if_pos (decide_eq_true rfl), List.map_append, List.append_assoc]
                rfl
              · rw [Function.update_of_ne (Ne.symm hkey), valuesOf, valuesOf, List.filter_cons,
                  if_neg (by simpa using hkey)]

theorem parseQuery_eq_some {query : JsString} {pairs : Pairs} :
    parseQuery query = some pairs ↔
      Sdk.queryValues QueryKey.known query = fun key => (pairs key).map some := by
  have hvalues : ∀ key, Sdk.queryValues QueryKey.known query key =
      valuesOf key ((queryParts query).filterMap (readPart knownKey)) := fun _ => rfl
  have hfold : parseQuery query = (queryParts query).foldlM addPair fun _ => [] := by
    unfold parseQuery
    split
    · next hempty =>
      rw [hempty]
      rfl
    · rfl
  rw [hfold, foldlM_addPair, funext_iff]
  simp only [hvalues, List.map_nil, List.nil_append]

theorem canonicalAddress_eq_some {text address : JsString} :
    canonicalAddress text = some address ↔ text = address ∧ Sdk.canonicalAddress address = true := by
  unfold canonicalAddress Sdk.canonicalAddress
  rw [decide_eq_true_eq]
  cases hkey : Sdk.publicKeyBase58 text with
  | none =>
      refine ⟨nofun, ?_⟩
      rintro ⟨rfl, h⟩
      rw [hkey] at h
      cases h
  | some canonical =>
      rw [Option.bind_eq_bind, Option.bind_some]
      by_cases hcanonical : canonical = text
      · subst hcanonical
        rw [if_neg (not_not.mpr rfl), Option.pure_def, Option.some.injEq]
        constructor
        · rintro rfl
          exact ⟨rfl, hkey⟩
        · exact And.left
      · rw [if_pos hcanonical]
        refine ⟨nofun, ?_⟩
        rintro ⟨rfl, h⟩
        rw [hkey] at h
        exact absurd (Option.some.inj h) hcanonical

/-- An amount that is not zero is read as the link's writer reads it. -/
theorem parseBaseUnitAmount_eq_some {raw : JsString} {amount : Nat} :
    (parseBaseUnitAmount raw = some amount ∧ amount ≠ 0) ↔
      Sdk.parsePositiveU64 raw = some amount := by
  have hmax : U64_MAX = Sdk.U64_MAX := rfl
  unfold parseBaseUnitAmount
  by_cases hnumeral : Sdk.isNumeral raw = true
  · rw [if_pos (by rw [hnumeral, Bool.or_true]), Sdk.parsePositiveU64, if_pos hnumeral, hmax]
    refine and_iff_left_of_imp fun h => ?_
    have hpos := Sdk.digitsValue_pos hnumeral
    split at h
    · cases h
    · obtain rfl := Option.some.inj h
      omega
  · have hnone : Sdk.parsePositiveU64 raw = none := if_neg hnumeral
    rw [hnone]
    constructor
    · rintro ⟨h, hne⟩
      split at h
      · next hzero =>
        have hraw : raw = js "0" := by simpa [hnumeral] using hzero
        rw [hraw] at h
        exact absurd (Option.some.inj h).symm hne
      · cases h
    · intro h
      cases h

theorem readLabel_ok {values : List JsString} (noun : String) {label : Option JsString}
    (hvalues : values.length ≤ 1) :
    readLabel values noun = .ok label ↔
      Sdk.LabelWritten (values.map some) label ∧ Sdk.LabelAllowed label := by
  have hchecks : readLabel values noun = .ok label ↔
      label = (if values.headD [] = [] then none else some (values.headD [])) ∧
        Sdk.LabelAllowed label := Sdk.labelChecks_ok
  rw [hchecks]
  refine and_congr_left fun _ => ?_
  unfold Sdk.LabelWritten
  match values, hvalues with
  | [], _ => simp
  | [value], _ => simp
  | _ :: _ :: _, hlong => exact absurd hlong (by simp)

theorem isPresent_iff {pairs : Pairs} {key : QueryKey} (hone : (pairs key).length ≤ 1) :
    isPresent pairs key = true ↔ ∃ value, pairs key = [value] ∧ (key = .purpose ∨ value ≠ []) := by
  unfold isPresent
  match hvalues : pairs key, hone with
  | [], _ => simp
  | [value], _ => simp
  | _ :: _ :: _, hlong => exact absurd hlong (by simp)

/-! A value that reads is not empty. -/

theorem ne_nil_of_canonicalAddress {address : JsString}
    (h : Sdk.canonicalAddress address = true) : address ≠ [] := by
  rintro rfl
  exact absurd h (by decide)

theorem ne_nil_of_parsePositiveU64 {raw : JsString} {amount : Nat}
    (h : Sdk.parsePositiveU64 raw = some amount) : raw ≠ [] := by
  rintro rfl
  exact absurd h nofun

theorem ne_nil_of_parseDaysToken {raw : JsString} {days : Nat}
    (h : Sdk.parseDaysToken raw = some days) : raw ≠ [] := by
  rintro rfl
  exact absurd h nofun

theorem labelWritten_length {values : List JsString} {label : Option JsString}
    (h : Sdk.LabelWritten (values.map some) label) : values.length ≤ 1 := by
  rw [← List.length_map (f := some)]
  rcases h with ⟨hnone, -⟩ | ⟨raw, hone, -⟩
  · rw [hnone]
    exact Nat.zero_le 1
  · rw [hone]
    exact Nat.le_refl 1

theorem requestFromPairs_ok {pairs : Pairs} {request : RuleRequest} :
    requestFromPairs pairs = .ok request ↔
      request.Written (fun key => (pairs key).map some) ∧ request.Allowed := by
  have hsingle : ∀ {key value}, (pairs key).map some = [some value] ↔ pairs key = [value] := by
    intro key value
    rw [← List.map_singleton, List.map_inj_right (fun _ _ => Option.some.inj)]
  unfold requestFromPairs
  simp only [bind_ok_iff, require_eq_ok, forM_require_ok, okOr_eq_ok, canonicalAddress_eq_some]
  constructor
  · rintro ⟨-, hrepeat, -, hpresent, -, hv, agent, ⟨hagent, cagent⟩, payee, ⟨hpayee, cpayee⟩, mint,
      ⟨hmint, cmint⟩, cap, hcap, -, hcap0, max, hmax, -, hmax0, -, hle, days, hdays, -, hformed, -,
      hlong, agentLabel, hagentLabel, payeeLabel, hpayeeLabel, ⟨⟩⟩
    have hrequired : ∀ key ∈ REQUIRED_KEYS, pairs key = [(pairs key).headD []] := by
      intro key hkey
      obtain ⟨value, hvalue, -⟩ := (isPresent_iff (hrepeat key (List.mem_append_left _ hkey))).mp
        (hpresent key hkey)
      rw [hvalue]
      rfl
    have hread : ∀ {key value}, key ∈ REQUIRED_KEYS → (pairs key).headD [] = value →
        (pairs key).map some = [some value] := by
      rintro key _ hkey rfl
      exact hsingle.mpr (hrequired key hkey)
    have hversion : (pairs .v).headD [] = js "1" := by rw [List.headD_eq_head?_getD, hv, Option.getD_some]
    obtain ⟨wagent, lagent⟩ := (readLabel_ok _ (hrepeat .agentLabel (by decide))).mp hagentLabel
    obtain ⟨wpayee, lpayee⟩ := (readLabel_ok _ (hrepeat .payeeLabel (by decide))).mp hpayeeLabel
    have wcap := parseBaseUnitAmount_eq_some.mp ⟨hcap, hcap0⟩
    have wmax := parseBaseUnitAmount_eq_some.mp ⟨hmax, hmax0⟩
    exact ⟨⟨hread (by decide) hversion, hread (by decide) hagent, hread (by decide) hpayee,
        hread (by decide) hmint, ⟨_, hread (by decide) rfl, wcap⟩, ⟨_, hread (by decide) rfl, wmax⟩,
        ⟨_, hread (by decide) rfl, hdays⟩, hread (by decide) rfl, wagent, wpayee⟩,
      ⟨cagent, cpayee, cmint, Sdk.allowed_of_parsePositiveU64 wcap,
        Sdk.allowed_of_parsePositiveU64 wmax, hle, Sdk.allowed_of_parseDaysToken hdays,
        ⟨hformed, hlong⟩, lagent, lpayee⟩⟩
  · rintro ⟨hw, ha⟩
    obtain ⟨cap, vcap, hcap⟩ := hw.cap
    obtain ⟨max, vmax, hmax⟩ := hw.max
    obtain ⟨days, vdays, hdays⟩ := hw.days
    have hv := hsingle.mp hw.v
    have hagent := hsingle.mp hw.agent
    have hpayee := hsingle.mp hw.payee
    have hmint := hsingle.mp hw.mint
    have hpurpose := hsingle.mp hw.purpose
    rw [hsingle] at vcap vmax vdays
    have hrepeat : ∀ key, (pairs key).length ≤ 1 := by
      intro key
      cases key with
      | agentLabel => exact labelWritten_length hw.agentLabel
      | payeeLabel => exact labelWritten_length hw.payeeLabel
      | _ => simp [hv, hagent, hpayee, hmint, vcap, vmax, vdays, hpurpose]
    have hpresent : ∀ key ∈ REQUIRED_KEYS, isPresent pairs key = true := by
      intro key hkey
      rw [isPresent_iff (hrepeat key)]
      simp only [REQUIRED_KEYS, List.mem_cons, List.not_mem_nil, or_false] at hkey
      rcases hkey with rfl | rfl | rfl | rfl | rfl | rfl | rfl | rfl
      · exact ⟨_, hv, .inr (by decide)⟩
      · exact ⟨_, hagent, .inr (ne_nil_of_canonicalAddress ha.agent)⟩
      · exact ⟨_, hpayee, .inr (ne_nil_of_canonicalAddress ha.payee)⟩
      · exact ⟨_, hmint, .inr (ne_nil_of_canonicalAddress ha.mint)⟩
      · exact ⟨_, vcap, .inr (ne_nil_of_parsePositiveU64 hcap)⟩
      · exact ⟨_, vmax, .inr (ne_nil_of_parsePositiveU64 hmax)⟩
      · exact ⟨_, vdays, .inr (ne_nil_of_parseDaysToken hdays)⟩
      · exact ⟨_, hpurpose, .inl rfl⟩
    have hagentLabel := (readLabel_ok "agent label" (hrepeat .agentLabel)).mpr
      ⟨hw.agentLabel, ha.agentLabel⟩
    have hpayeeLabel := (readLabel_ok "payee label" (hrepeat .payeeLabel)).mpr
      ⟨hw.payeeLabel, ha.payeeLabel⟩
    obtain ⟨hcap, hcap0⟩ := parseBaseUnitAmount_eq_some.mpr hcap
    obtain ⟨hmax, hmax0⟩ := parseBaseUnitAmount_eq_some.mpr hmax
    rw [hv, hagent, hpayee, hmint, vcap, vmax, vdays, hpurpose]
    exact ⟨(), fun key _ => hrepeat key, (), hpresent, (), rfl, _, ⟨rfl, ha.agent⟩, _,
      ⟨rfl, ha.payee⟩, _, ⟨rfl, ha.mint⟩, _, hcap, (), hcap0, _, hmax, (), hmax0, (), ha.ordered, _,
      hdays, (), ha.purpose.1, (), ha.purpose.2, _, hagentLabel, _, hpayeeLabel, rfl⟩

/-! ## Agreement -/

/-- The values of a request that is written all decode. -/
theorem decoded_of_written {values : QueryKey → List (Option JsString)} {request : RuleRequest}
    (h : request.Written values) : ∃ pairs : Pairs, values = fun key => (pairs key).map some := by
  have hone : ∀ {vs : List (Option JsString)} {text}, vs = [some text] →
      vs = (vs.filterMap id).map some := by
    rintro vs text rfl
    rfl
  have hlabel : ∀ {vs label}, Sdk.LabelWritten vs label → vs = (vs.filterMap id).map some := by
    rintro vs label (⟨rfl, -⟩ | ⟨raw, hraw, -⟩)
    · rfl
    · exact hone hraw
  obtain ⟨cap, hcap, -⟩ := h.cap
  obtain ⟨max, hmax, -⟩ := h.max
  obtain ⟨days, hdays, -⟩ := h.days
  refine ⟨fun key => (values key).filterMap id, funext fun key => ?_⟩
  cases key with
  | v => exact hone h.v
  | agent => exact hone h.agent
  | payee => exact hone h.payee
  | mint => exact hone h.mint
  | cap => exact hone hcap
  | max => exact hone hmax
  | days => exact hone hdays
  | purpose => exact hone h.purpose
  | agentLabel => exact hlabel h.agentLabel
  | payeeLabel => exact hlabel h.payeeLabel

theorem requestOfQuery_ok {query : JsString} {request : RuleRequest} :
    requestOfQuery query = .ok request ↔
      request.Written (Sdk.queryValues QueryKey.known query) ∧ request.Allowed := by
  unfold requestOfQuery
  constructor
  · intro h
    cases hpairs : parseQuery query with
    | none =>
        rw [hpairs] at h
        cases h
    | some pairs =>
        rw [hpairs] at h
        rw [parseQuery_eq_some.mp hpairs]
        exact requestFromPairs_ok.mp h
  · intro h
    obtain ⟨pairs, hpairs⟩ := decoded_of_written h.1
    rw [parseQuery_eq_some.mpr hpairs]
    rw [hpairs] at h
    exact requestFromPairs_ok.mpr h

theorem isQueryUnit_plain {unit : UInt16} (h : Sdk.isQueryUnit unit = true) :
    isSpaceUnit unit = false ∧ isLineTerminator unit = false ∧ unit ≠ 0x23 := by
  have hbounds : 0x21 ≤ unit.toNat ∧ unit.toNat ≤ 0x7e ∧ unit.toNat ≠ 0x23 := by
    simp only [Sdk.isQueryUnit, Bool.and_eq_true, decide_eq_true_eq, UInt16.le_iff_toNat_le] at h
    refine ⟨h.1.1, h.1.2, fun heq => ?_⟩
    obtain rfl : unit = 0x23 := UInt16.toNat_inj.mp heq
    exact absurd h.2 (by decide)
  refine ⟨?_, ?_, fun heq => hbounds.2.2 (congrArg UInt16.toNat heq)⟩
  · rw [← Bool.not_eq_true]
    simp [isSpaceUnit, UInt16.le_iff_toNat_le, ← UInt16.toNat_inj]
    omega
  · rw [← Bool.not_eq_true]
    simp [isLineTerminator, ← UInt16.toNat_inj]
    omega

section Link

variable {input : JsString}

theorem trim_of_not_space (h : ∀ unit ∈ input, isSpaceUnit unit = false) : trim input = input := by
  have hdrop : input.dropWhile isSpaceUnit = input := by
    rw [List.dropWhile_eq_self_iff]
    intro hlen
    rw [h _ (List.getElem_mem hlen)]
    exact Bool.false_ne_true
  rw [trim, hdrop, List.rdropWhile_eq_self_iff]
  intro hne
  rw [h _ (List.getLast_mem hne)]
  exact Bool.false_ne_true

theorem stripHash_of_no_hash (h : ∀ unit ∈ input, unit ≠ 0x23) : stripHash input = input :=
  List.takeWhile_eq_self_iff.mpr fun unit hunit => decide_eq_true (h unit hunit)

/-- A link whose query needs no encoding is not trimmed, has no fragment and matches. -/
theorem parseRuleRequest_link {query : JsString} (hquery : query.all Sdk.isQueryUnit = true) :
    parseRuleRequest (Sdk.requestUrl query) = requestOfQuery query := by
  have hunits : ∀ unit ∈ Sdk.requestUrl query, Sdk.isQueryUnit unit = true := by
    intro unit hunit
    rcases List.mem_append.mp hunit with hstart | hunit
    · exact List.all_eq_true.mp (show (js "veto://rule-request?").all Sdk.isQueryUnit = true by decide)
        unit hstart
    · exact List.all_eq_true.mp hquery unit hunit
  have htrim : trim (Sdk.requestUrl query) = Sdk.requestUrl query :=
    trim_of_not_space fun unit hunit => (isQueryUnit_plain (hunits unit hunit)).1
  have hhash : stripHash (Sdk.requestUrl query) = Sdk.requestUrl query :=
    stripHash_of_no_hash fun unit hunit => (isQueryUnit_plain (hunits unit hunit)).2.2
  have hsplit : Sdk.requestUrl query = js "veto://rule-request" ++ 0x3f :: query := rfl
  have hmatch : isRuleRequestUrl (Sdk.requestUrl query) = true := by
    have htail : matchesTail (0x3f :: query) = true := by
      rw [matchesTail, Bool.and_eq_true]
      refine ⟨rfl, List.all_eq_true.mpr fun unit hunit => ?_⟩
      rw [(isQueryUnit_plain (List.all_eq_true.mp hquery unit hunit)).2.1]
      rfl
    have hlower : Sdk.toLowerCase (js "veto://rule-request") = js "veto://rule-request" := by decide
    rw [isRuleRequestUrl, htrim, hhash, hsplit, List.take_left, List.drop_left, if_pos hlower]
    exact htail
  have hdrop : ((Sdk.requestUrl query).dropWhile fun unit => decide (unit ≠ 0x3f)) = 0x3f :: query := by
    rw [hsplit]
    exact dropWhile_append_of_stops (List.all_eq_true.mp (by decide)) rfl
  rw [parseRuleRequest, htrim, hmatch, hhash, hdrop]
  rfl

end Link

/-- The parameters of the router for a decoded query. -/
def paramsOf (params : List (QueryKey × JsString)) (key : QueryKey) : Param :=
  match valuesOf key params with
  | [] => .undefined
  | [value] => .string value
  | values => .array values

theorem ruleRequestFromParams_paramsOf (params : List (QueryKey × JsString)) :
    ruleRequestFromParams (paramsOf params) = requestFromPairs fun key => valuesOf key params := by
  unfold ruleRequestFromParams
  congr 1
  funext key
  unfold paramsOf
  rcases valuesOf key params with _ | ⟨value, _ | ⟨next, values⟩⟩ <;> rfl

/-- **The app and the SDK read the same requests**: from a query, from a link whose query needs no
encoding, and from the parameters that a query decodes to. -/
theorem rule_request_parsers_agree :
    (∀ query request,
      Sdk.readFields (Sdk.parseSlots QueryKey.known (Sdk.searchOf query)) = .ok request ↔
        requestOfQuery query = .ok request) ∧
    (∀ newUrl, Sdk.ReadsLinks newUrl → ∀ query, query.all Sdk.isQueryUnit = true → ∀ request,
      Sdk.parseRuleRequest newUrl (Sdk.requestUrl query) = .ok request ↔
        parseRuleRequest (Sdk.requestUrl query) = .ok request) ∧
    ∀ params query, formatQuery QueryKey.name params = some query → ∀ request,
      Sdk.readFields (Sdk.parseSlots QueryKey.known (Sdk.searchOf query)) = .ok request ↔
        ruleRequestFromParams (paramsOf params) = .ok request := by
  have hquery : ∀ query request,
      Sdk.readFields (Sdk.parseSlots QueryKey.known (Sdk.searchOf query)) = .ok request ↔
        requestOfQuery query = .ok request := by
    intro query request
    rw [Sdk.readFields_ok, Sdk.queryBody_searchOf, requestOfQuery_ok]
  refine ⟨hquery, ?_, ?_⟩
  · intro newUrl hurl query hunits request
    rw [Sdk.parseRuleRequest_link hurl hunits, parseRuleRequest_link hunits]
    exact hquery query request
  · intro params query hformat request
    have hvalues : Sdk.queryValues QueryKey.known query =
        fun key => (valuesOf key params).map some :=
      funext (valuesOf_formatQuery Sdk.QueryKey.named hformat)
    rw [ruleRequestFromParams_paramsOf, requestFromPairs_ok, Sdk.readFields_ok,
      Sdk.queryBody_searchOf, hvalues]

/-- The app reads a link as the SDK does, with a label that came twice and one that is empty. -/
theorem rule_request_parsers_agree_sample :
    parseRuleRequest (Sdk.requestUrl (Sdk.sampleQuery
        "&purpose=caf%c3%a9%20+%20night&agentLabel=&note=%ff")) = .ok Sdk.sampleRequest ∧
      ∀ request, parseRuleRequest (Sdk.requestUrl (Sdk.sampleQuery
        "&purpose=caf%c3%a9&agentLabel=a&agentLabel=b")) ≠ .ok request := by
  have hagree := rule_request_parsers_agree.2.1 Sdk.linkUrl Sdk.linkUrl_reads
  refine ⟨(hagree _ (by decide +kernel) _).mp (by decide +kernel), fun request hread => ?_⟩
  have hsdk := (hagree _ (by decide +kernel) request).mpr hread
  have hrejected : (Sdk.parseRuleRequest Sdk.linkUrl (Sdk.requestUrl (Sdk.sampleQuery
      "&purpose=caf%c3%a9&agentLabel=a&agentLabel=b"))).toOption = none := by decide +kernel
  rw [hsdk] at hrejected
  cases hrejected

end Veto.App

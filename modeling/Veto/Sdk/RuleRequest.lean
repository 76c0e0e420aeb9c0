import Veto.Sdk.RequestFields

/-!
# Rule requests

A payee asks for a rule by a link, `veto://rule-request?v=1&agent=…`.  `createRuleRequest` writes
the link of an input, `parseRuleRequest` reads one.  What a query says of a request is one relation,
`Written`, and what a request may be is another, `Allowed`; both directions are read off them.
-/

namespace Veto.Sdk

open Foundation

/-! ## Keys -/

inductive QueryKey
  | v
  | agent
  | payee
  | mint
  | cap
  | max
  | days
  | purpose
  | agentLabel
  | payeeLabel
  deriving DecidableEq

namespace QueryKey

def text : QueryKey → String
  | v => "v"
  | agent => "agent"
  | payee => "payee"
  | mint => "mint"
  | cap => "cap"
  | max => "max"
  | days => "days"
  | purpose => "purpose"
  | agentLabel => "agentLabel"
  | payeeLabel => "payeeLabel"

def name (key : QueryKey) : JsString := js key.text

end QueryKey

def QUERY_KEYS : List QueryKey :=
  [.v, .agent, .payee, .mint, .cap, .max, .days, .purpose, .agentLabel, .payeeLabel]

/-- `QUERY_KEY_SET.has`. -/
def QueryKey.known (text : JsString) : Option QueryKey := QUERY_KEYS.find? (·.name = text)

def FIELD_NAME (key : QueryKey) : String := if key = .v then "version" else key.text

/-! ## The link -/

/-- What is read of `new URL(text)`. -/
structure Url where
  protocol : JsString
  username : JsString
  password : JsString
  port : JsString
  hostname : JsString
  pathname : JsString
  search : JsString
  deriving DecidableEq

/-- `toLowerCase` of a host, which is ASCII. -/
def toLowerCase (text : JsString) : JsString :=
  text.map fun unit => if 0x41 ≤ unit && unit ≤ 0x5a then unit + 0x20 else unit

def checkStructure (url : Url) : Except (RequestError QueryKey) Unit := do
  require (url.protocol = js "veto:") ⟨.scheme, "the scheme must be veto"⟩
  require (url.username = [] ∧ url.password = []) ⟨.userinfo, "the request must not include user info"⟩
  require (url.port = []) ⟨.port, "the request must not include a port"⟩
  require (toLowerCase url.hostname = js "rule-request") ⟨.host, "the host must be rule-request"⟩
  require (url.pathname = [] ∨ url.pathname = js "/") ⟨.path, "the path must be empty"⟩

/-- The link of a query. -/
def requestUrl (query : JsString) : JsString := js "veto://rule-request?" ++ query

/-! ## Requests -/

/-- The literal field `v` is the type itself. -/
structure RuleRequest where
  agent : JsString
  payee : JsString
  mint : JsString
  cap : Nat
  max : Nat
  days : Nat
  purpose : JsString
  agentLabel : Option JsString
  payeeLabel : Option JsString
  deriving DecidableEq

structure RuleRequestInput where
  agent : JsValue
  payee : JsValue
  mint : JsValue
  cap : JsValue
  max : JsValue
  days : JsValue
  purpose : JsValue
  agentLabel : JsValue
  payeeLabel : JsValue

def readFields (slots : QueryKey → Slot) : Except (RequestError QueryKey) RuleRequest := do
  let version ← readRequired slots .v (FIELD_NAME .v) "version must be 1"
  require (version = js "1") ⟨.bad .v, "version must be 1"⟩
  let agent ← readAddressField slots .agent (FIELD_NAME .agent)
  let payee ← readAddressField slots .payee (FIELD_NAME .payee)
  let mint ← readAddressField slots .mint (FIELD_NAME .mint)
  let cap ← readAmountField slots .cap (FIELD_NAME .cap) (amountMessage (FIELD_NAME .cap))
  let max ← readAmountField slots .max (FIELD_NAME .max) (amountMessage (FIELD_NAME .max))
  require (max ≤ cap) ⟨.out_of_order, "max is greater than cap"⟩
  let days ← readDaysField slots .days (FIELD_NAME .days)
  let purpose ← readPurposeField slots .purpose (FIELD_NAME .purpose)
  let agentLabel ← readLabelField slots .agentLabel (FIELD_NAME .agentLabel)
  let payeeLabel ← readLabelField slots .payeeLabel (FIELD_NAME .payeeLabel)
  return { agent, payee, mint, cap, max, days, purpose, agentLabel, payeeLabel }

def RuleRequest.pairs (request : RuleRequest) : List (QueryKey × JsString) :=
  [(.v, js "1"), (.agent, request.agent), (.payee, request.payee), (.mint, request.mint),
    (.cap, decimal request.cap), (.max, decimal request.max), (.days, decimal request.days),
    (.purpose, request.purpose)] ++
    labelPair .agentLabel request.agentLabel ++ labelPair .payeeLabel request.payeeLabel

/-- A text that is no UTF-16 makes `encodeURIComponent` throw. -/
def formatRequest (request : RuleRequest) : Option JsString :=
  (formatQuery QueryKey.name request.pairs).map requestUrl

def readInput (input : RuleRequestInput) : Except (RequestError QueryKey) RuleRequest := do
  let agent ← readInputAddress input.agent .agent "agent"
  let payee ← readInputAddress input.payee .payee "payee"
  let mint ← readInputAddress input.mint .mint "mint"
  let cap ← readInputAmount input.cap .cap "cap" (amountMessage "cap")
  let max ← readInputAmount input.max .max "max" (amountMessage "max")
  require (max ≤ cap) ⟨.out_of_order, "max is greater than cap"⟩
  let days ← readInputDays input.days .days "days"
  let purpose ← readInputPurpose input.purpose .purpose "purpose"
  let agentLabel ← readInputLabel input.agentLabel .agentLabel "agentLabel"
  let payeeLabel ← readInputLabel input.payeeLabel .payeeLabel "payeeLabel"
  return { agent, payee, mint, cap, max, days, purpose, agentLabel, payeeLabel }

/-- What a constructor throws. -/
inductive RequestThrown (κ : Type)
  | rejected (error : RequestError κ)
  | uriError
  deriving DecidableEq

def createRuleRequest (input : RuleRequestInput) : Except (RequestThrown QueryKey) JsString :=
  match readInput input with
  | .error error => .error (.rejected error)
  | .ok request =>
    match formatRequest request with
    | none => .error .uriError
    | some url => .ok url

/-- Read a link, with the platform's URL parser. -/
def parseRuleRequest (newUrl : JsString → Option Url) (url : JsString) :
    Except (RequestError QueryKey) RuleRequest :=
  match newUrl url with
  | none => fail .not_a_url "the request is not a URL"
  | some parsed => do
    checkStructure parsed
    readFields (parseSlots QueryKey.known parsed.search)

/-- A request as the input of a constructor. -/
def RuleRequest.toInput (request : RuleRequest) : RuleRequestInput where
  agent := .string request.agent
  payee := .string request.payee
  mint := .string request.mint
  cap := .bigint request.cap
  max := .bigint request.max
  days := .number (some request.days)
  purpose := .string request.purpose
  agentLabel := JsValue.ofLabel request.agentLabel
  payeeLabel := JsValue.ofLabel request.payeeLabel

/-! ## What the platform does with a link -/

/-- The characters that a query keeps as they are. -/
def isQueryUnit (unit : UInt16) : Bool :=
  0x21 ≤ unit && unit ≤ 0x7e && !([0x22, 0x23, 0x3c, 0x3e] : List UInt16).contains unit

/-- The search of a link with this query. -/
def searchOf (query : JsString) : JsString := if query = [] then [] else 0x3f :: query

/-- The URL parser takes a link of this form apart, whose query needs no encoding. -/
def ReadsLinks (newUrl : JsString → Option Url) : Prop :=
  ∀ query : JsString, query.all isQueryUnit = true →
    newUrl (requestUrl query) = some
      { protocol := js "veto:", username := [], password := [], port := []
        hostname := js "rule-request", pathname := [], search := searchOf query }

theorem queryBody_searchOf (query : JsString) : queryBody (searchOf query) = query := by
  unfold searchOf
  split
  · next hempty =>
    rw [hempty]
    rfl
  · rfl

/-! ## What a query says of a request -/

/-- The values of the keys are those of this request. -/
structure RuleRequest.Written (values : QueryKey → List (Option JsString)) (request : RuleRequest) :
    Prop where
  v : values .v = [some (js "1")]
  agent : values .agent = [some request.agent]
  payee : values .payee = [some request.payee]
  mint : values .mint = [some request.mint]
  cap : NumberWritten parsePositiveU64 (values .cap) request.cap
  max : NumberWritten parsePositiveU64 (values .max) request.max
  days : NumberWritten parseDaysToken (values .days) request.days
  purpose : values .purpose = [some request.purpose]
  agentLabel : LabelWritten (values .agentLabel) request.agentLabel
  payeeLabel : LabelWritten (values .payeeLabel) request.payeeLabel

structure RuleRequest.Allowed (request : RuleRequest) : Prop where
  agent : canonicalAddress request.agent = true
  payee : canonicalAddress request.payee = true
  mint : canonicalAddress request.mint = true
  cap : AmountAllowed request.cap
  max : AmountAllowed request.max
  ordered : request.max ≤ request.cap
  days : DaysAllowed request.days
  purpose : PurposeAllowed request.purpose
  agentLabel : LabelAllowed request.agentLabel
  payeeLabel : LabelAllowed request.payeeLabel

/-- **The reader accepts what is written and allowed.** -/
theorem readFields_ok {search : JsString} {request : RuleRequest} :
    readFields (parseSlots QueryKey.known search) = .ok request ↔
      request.Written (queryValues QueryKey.known (queryBody search)) ∧ request.Allowed := by
  have hslot : ∀ key, parseSlots QueryKey.known search key =
      Slot.of (queryValues QueryKey.known (queryBody search) key) := fun key => parseSlots_apply search key
  unfold readFields
  simp only [bind_ok_iff, require_eq_ok, readRequired_ok, readAddressField_ok, readAmountField_ok,
    readDaysField_ok, readPurposeField_ok, readLabelField_ok, hslot, Slot.of_eq_one, Slot.labels_of]
  constructor
  · rintro ⟨_, hv, -, rfl, agent, ⟨hagent, cagent⟩, payee, ⟨hpayee, cpayee⟩, mint, ⟨hmint, cmint⟩,
      cap, hcap, max, hmax, -, hle, days, hdays, purpose, ⟨hpurpose, cpurpose⟩,
      agentLabel, ⟨hagentLabel, cagentLabel⟩, payeeLabel, ⟨hpayeeLabel, cpayeeLabel⟩, ⟨⟩⟩
    exact ⟨⟨hv, hagent, hpayee, hmint, hcap, hmax, hdays, hpurpose, hagentLabel, hpayeeLabel⟩,
      ⟨cagent, cpayee, cmint, NumberWritten.amountAllowed hcap, NumberWritten.amountAllowed hmax, hle,
        NumberWritten.daysAllowed hdays, cpurpose, cagentLabel, cpayeeLabel⟩⟩
  · rintro ⟨hw, ha⟩
    exact ⟨_, hw.v, (), rfl, _, ⟨hw.agent, ha.agent⟩, _, ⟨hw.payee, ha.payee⟩, _,
      ⟨hw.mint, ha.mint⟩, _, hw.cap, _, hw.max, (), ha.ordered, _, hw.days, _,
      ⟨hw.purpose, ha.purpose⟩, _, ⟨hw.agentLabel, ha.agentLabel⟩, _,
      ⟨hw.payeeLabel, ha.payeeLabel⟩, rfl⟩

/-! ## What an input says of a request -/

theorem JsValue.labels_ofLabel {label : Option JsString} (h : LabelAllowed label) :
    (JsValue.ofLabel label).Labels label := by
  cases label with
  | none => exact .inl ⟨rfl, rfl⟩
  | some text => exact .inr ⟨text, rfl, (if_neg (h text rfl).1).symm⟩

/-- What a constructor takes is allowed. -/
theorem allowed_of_readInput {input : RuleRequestInput} {request : RuleRequest}
    (h : readInput input = .ok request) : request.Allowed := by
  unfold readInput at h
  simp only [bind_ok_iff, require_eq_ok, readInputAddress_ok, readInputAmount_ok, readInputDays_ok,
    readInputPurpose_ok, readInputLabel_ok] at h
  obtain ⟨agent, ⟨-, hagent⟩, payee, ⟨-, hpayee⟩, mint, ⟨-, hmint⟩, cap, hcap, max, hmax, -, hle,
    days, hdays, purpose, ⟨-, hpurpose⟩, agentLabel, ⟨-, hagentLabel⟩, payeeLabel,
    ⟨-, hpayeeLabel⟩, ⟨⟩⟩ := h
  exact ⟨hagent, hpayee, hmint, allowed_of_coercePositiveU64 hcap,
    allowed_of_coercePositiveU64 hmax, hle, allowed_of_coerceDays hdays, hpurpose, hagentLabel,
    hpayeeLabel⟩

/-- An allowed request is taken as it is. -/
theorem readInput_toInput {request : RuleRequest} (h : request.Allowed) :
    readInput request.toInput = .ok request := by
  unfold readInput
  simp only [bind_ok_iff, require_eq_ok, readInputAddress_ok, readInputAmount_ok, readInputDays_ok,
    readInputPurpose_ok, readInputLabel_ok]
  exact ⟨_, ⟨rfl, h.agent⟩, _, ⟨rfl, h.payee⟩, _, ⟨rfl, h.mint⟩, _,
    coercePositiveU64_bigint h.cap, _, coercePositiveU64_bigint h.max, (), h.ordered, _,
    coerceDays_number h.days, _, ⟨rfl, h.purpose⟩, _,
    ⟨JsValue.labels_ofLabel h.agentLabel, h.agentLabel⟩, _,
    ⟨JsValue.labels_ofLabel h.payeeLabel, h.payeeLabel⟩, rfl⟩

/-! ## The link of a request -/

theorem QueryKey.named : Named QueryKey.name QueryKey.known where
  plain key := by
    refine encodeURIComponent_unescaped ?_
    cases key <;> decide
  known key := by cases key <;> decide

theorem RuleRequest.wellFormed_pairs {request : RuleRequest} (h : request.Allowed) :
    ∀ param ∈ request.pairs, isWellFormedUtf16 param.2 = true := by
  intro param hparam
  simp only [RuleRequest.pairs, List.mem_append, List.mem_cons, List.not_mem_nil, or_false] at hparam
  rcases hparam with ((rfl | rfl | rfl | rfl | rfl | rfl | rfl | rfl) | hlabel) | hlabel
  · exact js_wellFormed "1"
  · exact wellFormed_of_canonicalAddress h.agent
  · exact wellFormed_of_canonicalAddress h.payee
  · exact wellFormed_of_canonicalAddress h.mint
  · exact wellFormed_decimal _
  · exact wellFormed_decimal _
  · exact wellFormed_decimal _
  · exact h.purpose.1
  · exact (h.agentLabel _ (mem_labelPair hlabel).2).2.1
  · exact (h.payeeLabel _ (mem_labelPair hlabel).2).2.1

/-- A written request is written. -/
theorem RuleRequest.written_pairs {request : RuleRequest} (h : request.Allowed) :
    request.Written fun key => (valuesOf key request.pairs).map some := by
  exact
    { v := fixed_written nofun nofun rfl
      agent := fixed_written nofun nofun rfl
      payee := fixed_written nofun nofun rfl
      mint := fixed_written nofun nofun rfl
      cap := ⟨_, fixed_written nofun nofun rfl, parsePositiveU64_decimal h.cap⟩
      max := ⟨_, fixed_written nofun nofun rfl, parsePositiveU64_decimal h.max⟩
      days := ⟨_, fixed_written nofun nofun rfl, parseDaysToken_decimal h.days⟩
      purpose := fixed_written nofun nofun rfl
      agentLabel := firstLabel_written nofun rfl h.agentLabel
      payeeLabel := secondLabel_written nofun rfl h.payeeLabel }

theorem isQueryUnit_of_isEncoded {unit : UInt16} (h : isEncoded unit = true) :
    isQueryUnit unit = true := by
  have hrange : unit.toNat = 0x25 ∨ isUnescaped (Char.ofNat unit.toNat) = true := by
    simp only [isEncoded, Bool.or_eq_true, decide_eq_true_eq] at h
    exact h.imp_left fun heq => congrArg UInt16.toNat heq
  have hunit : isQueryUnit unit = true ↔ 0x21 ≤ unit.toNat ∧ unit.toNat ≤ 0x7e ∧
      unit.toNat ≠ 0x22 ∧ unit.toNat ≠ 0x23 ∧ unit.toNat ≠ 0x3c ∧ unit.toNat ≠ 0x3e := by
    simp [isQueryUnit, UInt16.le_iff_toNat_le, ← UInt16.toNat_inj, and_assoc]
  rw [hunit]
  rcases hrange with hpercent | hescaped
  · omega
  · by_cases hvalid : unit.toNat.isValidChar
    · simp only [isUnescaped, toNat_ofNat_of_valid hvalid, Bool.or_eq_true, Bool.and_eq_true,
        decide_eq_true_eq, List.contains_iff_mem, List.mem_cons, List.not_mem_nil, or_false] at hescaped
      omega
    · rw [Char.ofNat, dif_neg hvalid] at hescaped
      exact absurd hescaped (by decide)

theorem all_isQueryUnit {κ : Type} {name : κ → JsString} {known : JsString → Option κ}
    (hnamed : Named name known) {params : List (κ × JsString)} {query : JsString}
    (h : formatQuery name params = some query) : query.all isQueryUnit = true := by
  refine List.all_eq_true.mpr fun unit hunit => ?_
  rcases units_formatQuery hnamed h unit hunit with hencoded | rfl | rfl
  · exact isQueryUnit_of_isEncoded hencoded
  · decide
  · decide

section Links

variable {newUrl : JsString → Option Url} (hurl : ReadsLinks newUrl)

theorem checkStructure_link (query : JsString) :
    checkStructure ⟨js "veto:", [], [], [], js "rule-request", [], searchOf query⟩ = .ok () := by
  have hhost : toLowerCase (js "rule-request") = js "rule-request" := by decide
  unfold checkStructure
  simp only [bind_ok_iff, require_eq_ok]
  exact ⟨(), trivial, (), ⟨trivial, trivial⟩, (), trivial, (), hhost, .inl trivial⟩

include hurl in
theorem parseRuleRequest_link {query : JsString} (hquery : query.all isQueryUnit = true) :
    parseRuleRequest newUrl (requestUrl query) =
      readFields (parseSlots QueryKey.known (searchOf query)) := by
  rw [parseRuleRequest, hurl query hquery]
  dsimp only
  rw [checkStructure_link, ok_bind]

/-- What is read is allowed. -/
theorem allowed_of_parseRuleRequest {url : JsString} {request : RuleRequest}
    (h : parseRuleRequest newUrl url = .ok request) : request.Allowed := by
  unfold parseRuleRequest at h
  split at h
  · cases h
  · obtain ⟨_, -, hfields⟩ := bind_ok_iff.mp h
    exact (readFields_ok.mp hfields).2

include hurl in
/-- **The link of an allowed request is read as that request.** -/
theorem parse_formatRequest {request : RuleRequest} (h : request.Allowed) :
    ∃ url, formatRequest request = some url ∧ parseRuleRequest newUrl url = .ok request := by
  obtain ⟨query, hquery⟩ := Option.isSome_iff_exists.mp
    (formatQuery_isSome QueryKey.name (RuleRequest.wellFormed_pairs h))
  have hvalues : queryValues QueryKey.known query = fun key => (valuesOf key request.pairs).map some :=
    funext (valuesOf_formatQuery QueryKey.named hquery)
  refine ⟨requestUrl query, by rw [formatRequest, hquery, Option.map_some], ?_⟩
  rw [parseRuleRequest_link hurl (all_isQueryUnit QueryKey.named hquery), readFields_ok,
    queryBody_searchOf, hvalues]
  exact ⟨RuleRequest.written_pairs h, h⟩

theorem createRuleRequest_ok {input : RuleRequestInput} {url : JsString} :
    createRuleRequest input = .ok url ↔
      ∃ request, readInput input = .ok request ∧ formatRequest request = some url := by
  unfold createRuleRequest
  cases readInput input with
  | error e => exact ⟨nofun, fun ⟨_, h, _⟩ => nomatch h⟩
  | ok request =>
      cases hformat : formatRequest request with
      | none => simp [hformat]
      | some other => simp [hformat]

end Links

/-! ## A concrete parser -/

/-- A URL parser that knows the links of requests and nothing else. -/
def linkUrl (text : JsString) : Option Url := do
  let query ← (js "veto://rule-request?").isPrefixOf? text
  if query.all isQueryUnit then
    return ⟨js "veto:", [], [], [], js "rule-request", [], searchOf query⟩
  else none

theorem linkUrl_reads : ReadsLinks linkUrl := by
  intro query hquery
  have hprefix : (js "veto://rule-request?").isPrefixOf? (requestUrl query) = some query :=
    List.isPrefixOf?_eq_some_iff_append_eq.mpr rfl
  rw [linkUrl, hprefix]
  exact if_pos hquery

def sampleAddress : JsString := js "11111111111111111111111111111111"

def sampleRequest : RuleRequest :=
  ⟨sampleAddress, sampleAddress, sampleAddress, 500, 50, 30, js "café + night", none, none⟩

def sampleQuery (rest : String) : JsString :=
  js "v=1&agent=11111111111111111111111111111111&payee=11111111111111111111111111111111" ++
    js "&mint=11111111111111111111111111111111&cap=500&max=50&days=30" ++ js rest

end Veto.Sdk

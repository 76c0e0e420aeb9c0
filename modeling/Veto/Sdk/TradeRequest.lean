import Veto.Sdk.RuleRequest

/-!
# Trade requests

The second version of a rule request, for one pinned pool.  It has its own keys and limits, and
shares its links with the first version: `parseRuleRequest` stops at the version of a trade request.
-/

namespace Veto.Sdk

open Foundation

/-! ## Keys -/

inductive TradeQueryKey
  | v
  | kind
  | agent
  | inMint
  | outMint
  | pool
  | perTrade
  | daily
  | cap
  | floorBps
  | days
  | purpose
  | agentLabel
  | poolLabel
  deriving DecidableEq

namespace TradeQueryKey

def text : TradeQueryKey → String
  | v => "v"
  | kind => "kind"
  | agent => "agent"
  | inMint => "inMint"
  | outMint => "outMint"
  | pool => "pool"
  | perTrade => "perTrade"
  | daily => "daily"
  | cap => "cap"
  | floorBps => "floorBps"
  | days => "days"
  | purpose => "purpose"
  | agentLabel => "agentLabel"
  | poolLabel => "poolLabel"

def name (key : TradeQueryKey) : JsString := js key.text

end TradeQueryKey

def TRADE_QUERY_KEYS : List TradeQueryKey :=
  [.v, .kind, .agent, .inMint, .outMint, .pool, .perTrade, .daily, .cap, .floorBps, .days, .purpose,
    .agentLabel, .poolLabel]

/-- `TRADE_QUERY_KEY_SET.has`. -/
def TradeQueryKey.known (text : JsString) : Option TradeQueryKey :=
  TRADE_QUERY_KEYS.find? (·.name = text)

def TRADE_FIELD_NAME (key : TradeQueryKey) : String := if key = .v then "version" else key.text

def floorMessage : String := "floorBps must be an integer greater than 0 and at most the u64 maximum"

/-! ## Reading a query -/

section Reads

variable (slots : TradeQueryKey → Slot) (key : TradeQueryKey)

def readTradeRequired (badMessage : String) : Except (RequestError TradeQueryKey) JsString :=
  readRequired slots key (TRADE_FIELD_NAME key) badMessage

def readTradeAddress : Except (RequestError TradeQueryKey) JsString :=
  readAddressField slots key (TRADE_FIELD_NAME key)

def readTradeAmount : Except (RequestError TradeQueryKey) Nat :=
  readAmountField slots key (TRADE_FIELD_NAME key)
    (if key = .floorBps then floorMessage else amountMessage (TRADE_FIELD_NAME key))

def readTradeDays : Except (RequestError TradeQueryKey) Nat :=
  readDaysField slots .days (TRADE_FIELD_NAME .days)

def readTradePurpose : Except (RequestError TradeQueryKey) JsString :=
  readPurposeField slots .purpose (TRADE_FIELD_NAME .purpose)

/-- Here a label is checked for its encoding before it is found empty. -/
def readTradeLabel : Except (RequestError TradeQueryKey) (Option JsString) := do
  match ← readOptional slots key (TRADE_FIELD_NAME key) (encodingMessage (TRADE_FIELD_NAME key)) with
  | none => return none
  | some raw =>
    if !isWellFormedUtf16 raw then fail (.bad key) (encodingMessage (TRADE_FIELD_NAME key))
    else if raw = [] then return none
    else if LABEL_MAX_CHARS < codePointLength raw then
      fail (.too_long key) (labelTooLongMessage (TRADE_FIELD_NAME key))
    else return some raw

end Reads

/-! ## Requests -/

/-- The literal fields `v` and `kind` are the type itself. -/
structure TradeRuleRequest where
  agent : JsString
  inMint : JsString
  outMint : JsString
  pool : JsString
  perTrade : Nat
  daily : Nat
  cap : Nat
  floorBps : Nat
  days : Nat
  purpose : JsString
  agentLabel : Option JsString
  poolLabel : Option JsString
  deriving DecidableEq

structure TradeRuleRequestInput where
  agent : JsValue
  inMint : JsValue
  outMint : JsValue
  pool : JsValue
  perTrade : JsValue
  daily : JsValue
  cap : JsValue
  floorBps : JsValue
  days : JsValue
  purpose : JsValue
  agentLabel : JsValue
  poolLabel : JsValue

def readTradeFields (slots : TradeQueryKey → Slot) :
    Except (RequestError TradeQueryKey) TradeRuleRequest := do
  let version ← readTradeRequired slots .v "version must be 2"
  require (version = js "2") ⟨.bad .v, "version must be 2"⟩
  let kind ← readTradeRequired slots .kind "kind must be trade"
  require (kind = js "trade") ⟨.bad .kind, "kind must be trade"⟩
  let agent ← readTradeAddress slots .agent
  let inMint ← readTradeAddress slots .inMint
  let outMint ← readTradeAddress slots .outMint
  let pool ← readTradeAddress slots .pool
  let perTrade ← readTradeAmount slots .perTrade
  let daily ← readTradeAmount slots .daily
  let cap ← readTradeAmount slots .cap
  require (perTrade ≤ daily) ⟨.out_of_order, "perTrade is greater than daily"⟩
  require (daily ≤ cap) ⟨.out_of_order, "daily is greater than cap"⟩
  let floorBps ← readTradeAmount slots .floorBps
  let days ← readTradeDays slots
  let purpose ← readTradePurpose slots
  let agentLabel ← readTradeLabel slots .agentLabel
  let poolLabel ← readTradeLabel slots .poolLabel
  return { agent, inMint, outMint, pool, perTrade, daily, cap, floorBps, days, purpose, agentLabel
           poolLabel }

def TradeRuleRequest.pairs (request : TradeRuleRequest) : List (TradeQueryKey × JsString) :=
  [(.v, js "2"), (.kind, js "trade"), (.agent, request.agent), (.inMint, request.inMint),
    (.outMint, request.outMint), (.pool, request.pool), (.perTrade, decimal request.perTrade),
    (.daily, decimal request.daily), (.cap, decimal request.cap),
    (.floorBps, decimal request.floorBps), (.days, decimal request.days),
    (.purpose, request.purpose)] ++
    labelPair .agentLabel request.agentLabel ++ labelPair .poolLabel request.poolLabel

def formatTradeRequest (request : TradeRuleRequest) : Option JsString :=
  (formatQuery TradeQueryKey.name request.pairs).map requestUrl

def readTradeInput (input : TradeRuleRequestInput) :
    Except (RequestError TradeQueryKey) TradeRuleRequest := do
  let agent ← readInputAddress input.agent .agent "agent"
  let inMint ← readInputAddress input.inMint .inMint "inMint"
  let outMint ← readInputAddress input.outMint .outMint "outMint"
  let pool ← readInputAddress input.pool .pool "pool"
  let perTrade ← readInputAmount input.perTrade .perTrade "perTrade" (amountMessage "perTrade")
  let daily ← readInputAmount input.daily .daily "daily" (amountMessage "daily")
  let cap ← readInputAmount input.cap .cap "cap" (amountMessage "cap")
  require (perTrade ≤ daily) ⟨.out_of_order, "perTrade is greater than daily"⟩
  require (daily ≤ cap) ⟨.out_of_order, "daily is greater than cap"⟩
  let floorBps ← readInputAmount input.floorBps .floorBps "floorBps" floorMessage
  let days ← readInputDays input.days .days "days"
  let purpose ← readInputPurpose input.purpose .purpose "purpose"
  let agentLabel ← readInputLabel input.agentLabel .agentLabel "agentLabel"
  let poolLabel ← readInputLabel input.poolLabel .poolLabel "poolLabel"
  return { agent, inMint, outMint, pool, perTrade, daily, cap, floorBps, days, purpose, agentLabel
           poolLabel }

def createTradeRuleRequest (input : TradeRuleRequestInput) : Except (RequestThrown TradeQueryKey) JsString :=
  match readTradeInput input with
  | .error error => .error (.rejected error)
  | .ok request =>
    match formatTradeRequest request with
    | none => .error .uriError
    | some url => .ok url

/-- The problems of a link are those of the first version. -/
def tradeStructure (url : Url) : Except (RequestError TradeQueryKey) Unit :=
  match checkStructure url with
  | .ok () => .ok ()
  | .error ⟨.scheme, message⟩ => fail .scheme message
  | .error ⟨.userinfo, message⟩ => fail .userinfo message
  | .error ⟨.port, message⟩ => fail .port message
  | .error ⟨.host, message⟩ => fail .host message
  | .error ⟨.path, message⟩ => fail .path message
  | .error ⟨_, message⟩ => fail .not_a_url message

def parseTradeRuleRequest (newUrl : JsString → Option Url) (url : JsString) :
    Except (RequestError TradeQueryKey) TradeRuleRequest :=
  match newUrl url with
  | none => fail .not_a_url "the request is not a URL"
  | some parsed => do
    tradeStructure parsed
    readTradeFields (parseSlots TradeQueryKey.known parsed.search)

def TradeRuleRequest.toInput (request : TradeRuleRequest) : TradeRuleRequestInput where
  agent := .string request.agent
  inMint := .string request.inMint
  outMint := .string request.outMint
  pool := .string request.pool
  perTrade := .bigint request.perTrade
  daily := .bigint request.daily
  cap := .bigint request.cap
  floorBps := .bigint request.floorBps
  days := .number (some request.days)
  purpose := .string request.purpose
  agentLabel := JsValue.ofLabel request.agentLabel
  poolLabel := JsValue.ofLabel request.poolLabel

/-! ## What a query says of a request -/

theorem readTradeLabel_ok {slots : TradeQueryKey → Slot} {key : TradeQueryKey}
    {label : Option JsString} :
    readTradeLabel slots key = .ok label ↔ (slots key).Labels label ∧ LabelAllowed label := by
  have hsame : readTradeLabel slots key = readLabelField slots key (TRADE_FIELD_NAME key) := by
    unfold readTradeLabel readLabelField
    congr 1
    funext raw
    cases raw with
    | none => rfl
    | some raw => exact (labelChecks_eq raw _ _).symm
  rw [hsame, readLabelField_ok]

structure TradeRuleRequest.Written (values : TradeQueryKey → List (Option JsString))
    (request : TradeRuleRequest) : Prop where
  v : values .v = [some (js "2")]
  kind : values .kind = [some (js "trade")]
  agent : values .agent = [some request.agent]
  inMint : values .inMint = [some request.inMint]
  outMint : values .outMint = [some request.outMint]
  pool : values .pool = [some request.pool]
  perTrade : NumberWritten parsePositiveU64 (values .perTrade) request.perTrade
  daily : NumberWritten parsePositiveU64 (values .daily) request.daily
  cap : NumberWritten parsePositiveU64 (values .cap) request.cap
  floorBps : NumberWritten parsePositiveU64 (values .floorBps) request.floorBps
  days : NumberWritten parseDaysToken (values .days) request.days
  purpose : values .purpose = [some request.purpose]
  agentLabel : LabelWritten (values .agentLabel) request.agentLabel
  poolLabel : LabelWritten (values .poolLabel) request.poolLabel

structure TradeRuleRequest.Allowed (request : TradeRuleRequest) : Prop where
  agent : canonicalAddress request.agent = true
  inMint : canonicalAddress request.inMint = true
  outMint : canonicalAddress request.outMint = true
  pool : canonicalAddress request.pool = true
  perTrade : AmountAllowed request.perTrade
  daily : AmountAllowed request.daily
  cap : AmountAllowed request.cap
  perTrade_le : request.perTrade ≤ request.daily
  daily_le : request.daily ≤ request.cap
  floorBps : AmountAllowed request.floorBps
  days : DaysAllowed request.days
  purpose : PurposeAllowed request.purpose
  agentLabel : LabelAllowed request.agentLabel
  poolLabel : LabelAllowed request.poolLabel

/-- **The reader accepts what is written and allowed.** -/
theorem readTradeFields_ok {search : JsString} {request : TradeRuleRequest} :
    readTradeFields (parseSlots TradeQueryKey.known search) = .ok request ↔
      request.Written (queryValues TradeQueryKey.known (queryBody search)) ∧ request.Allowed := by
  have hslot : ∀ key, parseSlots TradeQueryKey.known search key =
      Slot.of (queryValues TradeQueryKey.known (queryBody search) key) :=
    fun key => parseSlots_apply search key
  unfold readTradeFields readTradeRequired readTradeAddress readTradeAmount readTradeDays
    readTradePurpose
  simp only [bind_ok_iff, require_eq_ok, readRequired_ok, readAddressField_ok, readAmountField_ok,
    readDaysField_ok, readPurposeField_ok, readTradeLabel_ok, hslot, Slot.of_eq_one, Slot.labels_of]
  constructor
  · rintro ⟨_, hv, -, rfl, _, hkind, -, rfl, agent, ⟨hagent, cagent⟩, inMint, ⟨hin, cin⟩,
      outMint, ⟨hout, cout⟩, pool, ⟨hpool, cpool⟩, perTrade, hper, daily, hdaily, cap, hcap, -, hle,
      -, hle', floorBps, hfloor, days, hdays, purpose, ⟨hpurpose, cpurpose⟩, agentLabel,
      ⟨hagentLabel, cagentLabel⟩, poolLabel, ⟨hpoolLabel, cpoolLabel⟩, ⟨⟩⟩
    exact ⟨⟨hv, hkind, hagent, hin, hout, hpool, hper, hdaily, hcap, hfloor, hdays, hpurpose,
        hagentLabel, hpoolLabel⟩,
      ⟨cagent, cin, cout, cpool, NumberWritten.amountAllowed hper, NumberWritten.amountAllowed hdaily,
        NumberWritten.amountAllowed hcap, hle, hle', NumberWritten.amountAllowed hfloor,
        NumberWritten.daysAllowed hdays, cpurpose, cagentLabel, cpoolLabel⟩⟩
  · rintro ⟨hw, ha⟩
    exact ⟨_, hw.v, (), rfl, _, hw.kind, (), rfl, _, ⟨hw.agent, ha.agent⟩, _, ⟨hw.inMint, ha.inMint⟩,
      _, ⟨hw.outMint, ha.outMint⟩, _, ⟨hw.pool, ha.pool⟩, _, hw.perTrade, _, hw.daily, _, hw.cap, (),
      ha.perTrade_le, (), ha.daily_le, _, hw.floorBps, _, hw.days, _, ⟨hw.purpose, ha.purpose⟩, _,
      ⟨hw.agentLabel, ha.agentLabel⟩, _, ⟨hw.poolLabel, ha.poolLabel⟩, rfl⟩

/-! ## What an input says of a request -/

theorem allowed_of_readTradeInput {input : TradeRuleRequestInput} {request : TradeRuleRequest}
    (h : readTradeInput input = .ok request) : request.Allowed := by
  unfold readTradeInput at h
  simp only [bind_ok_iff, require_eq_ok, readInputAddress_ok, readInputAmount_ok, readInputDays_ok,
    readInputPurpose_ok, readInputLabel_ok] at h
  obtain ⟨agent, ⟨-, hagent⟩, inMint, ⟨-, hin⟩, outMint, ⟨-, hout⟩, pool, ⟨-, hpool⟩, perTrade, hper,
    daily, hdaily, cap, hcap, -, hle, -, hle', floorBps, hfloor, days, hdays, purpose,
    ⟨-, hpurpose⟩, agentLabel, ⟨-, hagentLabel⟩, poolLabel, ⟨-, hpoolLabel⟩, ⟨⟩⟩ := h
  exact ⟨hagent, hin, hout, hpool, allowed_of_coercePositiveU64 hper,
    allowed_of_coercePositiveU64 hdaily, allowed_of_coercePositiveU64 hcap, hle, hle',
    allowed_of_coercePositiveU64 hfloor, allowed_of_coerceDays hdays, hpurpose, hagentLabel,
    hpoolLabel⟩

theorem readTradeInput_toInput {request : TradeRuleRequest} (h : request.Allowed) :
    readTradeInput request.toInput = .ok request := by
  unfold readTradeInput
  simp only [bind_ok_iff, require_eq_ok, readInputAddress_ok, readInputAmount_ok, readInputDays_ok,
    readInputPurpose_ok, readInputLabel_ok]
  exact ⟨_, ⟨rfl, h.agent⟩, _, ⟨rfl, h.inMint⟩, _, ⟨rfl, h.outMint⟩, _, ⟨rfl, h.pool⟩, _,
    coercePositiveU64_bigint h.perTrade, _, coercePositiveU64_bigint h.daily, _,
    coercePositiveU64_bigint h.cap, (), h.perTrade_le, (), h.daily_le, _,
    coercePositiveU64_bigint h.floorBps, _, coerceDays_number h.days, _, ⟨rfl, h.purpose⟩, _,
    ⟨JsValue.labels_ofLabel h.agentLabel, h.agentLabel⟩, _,
    ⟨JsValue.labels_ofLabel h.poolLabel, h.poolLabel⟩, rfl⟩

/-! ## The link of a request -/

theorem TradeQueryKey.named : Named TradeQueryKey.name TradeQueryKey.known where
  plain key := by
    refine encodeURIComponent_unescaped ?_
    cases key <;> decide
  known key := by cases key <;> decide

theorem TradeRuleRequest.wellFormed_pairs {request : TradeRuleRequest} (h : request.Allowed) :
    ∀ param ∈ request.pairs, isWellFormedUtf16 param.2 = true := by
  intro param hparam
  simp only [TradeRuleRequest.pairs, List.mem_append, List.mem_cons, List.not_mem_nil, or_false]
    at hparam
  rcases hparam with ((rfl | rfl | rfl | rfl | rfl | rfl | rfl | rfl | rfl | rfl | rfl | rfl) |
    hlabel) | hlabel
  · exact js_wellFormed "2"
  · exact js_wellFormed "trade"
  · exact wellFormed_of_canonicalAddress h.agent
  · exact wellFormed_of_canonicalAddress h.inMint
  · exact wellFormed_of_canonicalAddress h.outMint
  · exact wellFormed_of_canonicalAddress h.pool
  · exact wellFormed_decimal _
  · exact wellFormed_decimal _
  · exact wellFormed_decimal _
  · exact wellFormed_decimal _
  · exact wellFormed_decimal _
  · exact h.purpose.1
  · exact (h.agentLabel _ (mem_labelPair hlabel).2).2.1
  · exact (h.poolLabel _ (mem_labelPair hlabel).2).2.1

theorem TradeRuleRequest.written_pairs {request : TradeRuleRequest} (h : request.Allowed) :
    request.Written fun key => (valuesOf key request.pairs).map some := by
  exact
    { v := fixed_written nofun nofun rfl
      kind := fixed_written nofun nofun rfl
      agent := fixed_written nofun nofun rfl
      inMint := fixed_written nofun nofun rfl
      outMint := fixed_written nofun nofun rfl
      pool := fixed_written nofun nofun rfl
      perTrade := ⟨_, fixed_written nofun nofun rfl, parsePositiveU64_decimal h.perTrade⟩
      daily := ⟨_, fixed_written nofun nofun rfl, parsePositiveU64_decimal h.daily⟩
      cap := ⟨_, fixed_written nofun nofun rfl, parsePositiveU64_decimal h.cap⟩
      floorBps := ⟨_, fixed_written nofun nofun rfl, parsePositiveU64_decimal h.floorBps⟩
      days := ⟨_, fixed_written nofun nofun rfl, parseDaysToken_decimal h.days⟩
      purpose := fixed_written nofun nofun rfl
      agentLabel := firstLabel_written nofun rfl h.agentLabel
      poolLabel := secondLabel_written nofun rfl h.poolLabel }

section Links

variable {newUrl : JsString → Option Url} (hurl : ReadsLinks newUrl)

theorem allowed_of_parseTradeRuleRequest {url : JsString} {request : TradeRuleRequest}
    (h : parseTradeRuleRequest newUrl url = .ok request) : request.Allowed := by
  unfold parseTradeRuleRequest at h
  split at h
  · cases h
  · obtain ⟨_, -, hfields⟩ := bind_ok_iff.mp h
    exact (readTradeFields_ok.mp hfields).2

include hurl in
/-- **The link of an allowed request is read as that request.** -/
theorem parse_formatTradeRequest {request : TradeRuleRequest} (h : request.Allowed) :
    ∃ url, formatTradeRequest request = some url ∧ parseTradeRuleRequest newUrl url = .ok request := by
  obtain ⟨query, hquery⟩ := Option.isSome_iff_exists.mp
    (formatQuery_isSome TradeQueryKey.name (TradeRuleRequest.wellFormed_pairs h))
  have hvalues : queryValues TradeQueryKey.known query =
      fun key => (valuesOf key request.pairs).map some :=
    funext (valuesOf_formatQuery TradeQueryKey.named hquery)
  refine ⟨requestUrl query, by rw [formatTradeRequest, hquery, Option.map_some], ?_⟩
  rw [parseTradeRuleRequest, hurl query (all_isQueryUnit TradeQueryKey.named hquery)]
  dsimp only
  rw [tradeStructure, checkStructure_link, ok_bind, readTradeFields_ok, queryBody_searchOf, hvalues]
  exact ⟨TradeRuleRequest.written_pairs h, h⟩

theorem createTradeRuleRequest_ok {input : TradeRuleRequestInput} {url : JsString} :
    createTradeRuleRequest input = .ok url ↔
      ∃ request, readTradeInput input = .ok request ∧ formatTradeRequest request = some url := by
  unfold createTradeRuleRequest
  cases readTradeInput input with
  | error e => exact ⟨nofun, fun ⟨_, h, _⟩ => nomatch h⟩
  | ok request =>
      cases hformat : formatTradeRequest request with
      | none => simp [hformat]
      | some other => simp [hformat]

end Links

/-! ## Round trips -/

/-- **Links round-trip, in both versions.**  A link that is made is read as the normalized request,
and a request that is read makes a link that is read as the same request. -/
theorem request_links_round_trip {newUrl : JsString → Option Url} (hurl : ReadsLinks newUrl) :
    ((∀ input url, createRuleRequest input = .ok url →
        ∃ request, readInput input = .ok request ∧ parseRuleRequest newUrl url = .ok request) ∧
      ∀ url request, parseRuleRequest newUrl url = .ok request →
        ∃ rebuilt, createRuleRequest request.toInput = .ok rebuilt ∧
          parseRuleRequest newUrl rebuilt = .ok request) ∧
    (∀ input url, createTradeRuleRequest input = .ok url →
        ∃ request, readTradeInput input = .ok request ∧
          parseTradeRuleRequest newUrl url = .ok request) ∧
      ∀ url request, parseTradeRuleRequest newUrl url = .ok request →
        ∃ rebuilt, createTradeRuleRequest request.toInput = .ok rebuilt ∧
          parseTradeRuleRequest newUrl rebuilt = .ok request := by
  refine ⟨⟨?_, ?_⟩, ?_, ?_⟩
  · intro input url h
    obtain ⟨request, hread, hformat⟩ := createRuleRequest_ok.mp h
    obtain ⟨url', hformat', hparse⟩ := parse_formatRequest hurl (allowed_of_readInput hread)
    obtain rfl := Option.some.inj (hformat.symm.trans hformat')
    exact ⟨request, hread, hparse⟩
  · intro url request h
    have hallowed := allowed_of_parseRuleRequest h
    obtain ⟨rebuilt, hformat, hparse⟩ := parse_formatRequest hurl hallowed
    exact ⟨rebuilt, createRuleRequest_ok.mpr ⟨request, readInput_toInput hallowed, hformat⟩, hparse⟩
  · intro input url h
    obtain ⟨request, hread, hformat⟩ := createTradeRuleRequest_ok.mp h
    obtain ⟨url', hformat', hparse⟩ := parse_formatTradeRequest hurl (allowed_of_readTradeInput hread)
    obtain rfl := Option.some.inj (hformat.symm.trans hformat')
    exact ⟨request, hread, hparse⟩
  · intro url request h
    have hallowed := allowed_of_parseTradeRuleRequest h
    obtain ⟨rebuilt, hformat, hparse⟩ := parse_formatTradeRequest hurl hallowed
    exact ⟨rebuilt, createTradeRuleRequest_ok.mpr ⟨request, readTradeInput_toInput hallowed, hformat⟩,
      hparse⟩

def sampleInput : RuleRequestInput where
  agent := .string sampleAddress
  payee := .string sampleAddress
  mint := .string sampleAddress
  cap := .string (js "500")
  max := .number (some 50)
  days := .bigint 30
  purpose := .string (js "café + night")
  agentLabel := .string []
  payeeLabel := .undefined

/-- A link that is made, and one that another program wrote. -/
theorem request_links_round_trip_sample :
    (∃ request, readInput sampleInput = .ok request ∧ parseRuleRequest linkUrl
        (requestUrl (sampleQuery "&purpose=caf%C3%A9%20%2B%20night")) = .ok request) ∧
      ∃ rebuilt, createRuleRequest sampleRequest.toInput = .ok rebuilt ∧
        parseRuleRequest linkUrl rebuilt = .ok sampleRequest := by
  obtain ⟨⟨hmade, hread⟩, -⟩ := request_links_round_trip linkUrl_reads
  exact ⟨hmade sampleInput _ (by decide +kernel),
    hread (requestUrl (sampleQuery "&purpose=caf%c3%A9%20+%20night&agentLabel=&note=%ff"))
      sampleRequest (by decide +kernel)⟩

end Veto.Sdk

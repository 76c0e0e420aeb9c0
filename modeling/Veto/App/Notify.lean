import Veto.App.DecisionId
import Veto.App.Ring
import Veto.Foundation.PercentCoding
import Veto.Foundation.Run
import Mathlib.Logic.Function.Basic

/-!
# Notices of decisions

`notify.ts`: a scan reads the ledgers of the rules and announces each payment and each refusal once.
What was announced is remembered rule by rule.  The first scan of a rule announces nothing: what it
finds counts as seen.  A call that fails ends the announcing, and what it was about is announced by a
later scan.
-/

namespace Veto.App.Notify

open Foundation

def PAID_NOTICE_TITLE : String := "Paid within rule"

def REFUSED_NOTICE_TITLE : String := "Refused"

inductive RuleFamily
  | payment
  | trade
  deriving DecidableEq, Repr

structure NotifyLedgerRow where
  ts : Int
  kind : UInt8
  nonce : Int
  reason : Nat
  amount : Int
  suggestedOverride : Int
  amountOut : Option Int
  outMint : Option String
  outDecimals : Option Nat
  deriving DecidableEq, Repr

structure NotifyMandateLedger where
  mandate : Text
  merchant : String
  perTxMax : Int
  decimals : Nat
  mint : Option String
  family : Option RuleFamily
  rows : List NotifyLedgerRow
  deriving DecidableEq, Repr

structure DecisionNotice where
  id : Text
  path : JsString
  title : String
  body : String
  deriving DecidableEq, Repr

/-- The ids that are stored for each rule; `none` where nothing is stored yet. -/
abbrev SeenStore := Text → Option (List Text)

def isNotifiable (kind : UInt8) : Bool := kind = Constants.KIND_PAID || kind = Constants.KIND_REFUSED

def idOf (mandate : Text) (row : NotifyLedgerRow) : Text :=
  encodeDecisionId mandate row.ts row.kind.toNat row.nonce

/-! ## The plan -/

section Plan

-- `bodyOf` writes the text of a notice, for the row of a ledger
variable (bodyOf : NotifyMandateLedger → NotifyLedgerRow → String)

def noticeFor (ledger : NotifyMandateLedger) (row : NotifyLedgerRow) (id : Text) :
    DecisionNotice where
  id
  path := js "/decision/" ++ encodeText id
  title := if row.kind = Constants.KIND_REFUSED then REFUSED_NOTICE_TITLE else PAID_NOTICE_TITLE
  body := bodyOf ledger row

/-- What the loop over the rows of a ledger has so far. -/
structure LedgerPlan where
  queued : List Text
  retain : List Text
  notices : List DecisionNotice

def planRow (ledger : NotifyMandateLedger) (seen : List Text) (plan : LedgerPlan)
    (row : NotifyLedgerRow) : LedgerPlan :=
  if !isNotifiable row.kind then plan
  else if (parseDecisionId (idOf ledger.mandate row)).isNone then plan
  else
    let id := idOf ledger.mandate row
    let retain := if plan.retain.contains id then plan.retain else plan.retain ++ [id]
    if seen.contains id || plan.queued.contains id then { plan with retain }
    else ⟨plan.queued ++ [id], retain, plan.notices ++ [noticeFor bodyOf ledger row id]⟩

def planLedger (ledger : NotifyMandateLedger) (seen : List Text) : LedgerPlan :=
  ledger.rows.foldl (planRow bodyOf ledger seen) ⟨[], [], []⟩

/-- `Map.set`. -/
def setRetained (next : List (Text × List Text)) (mandate : Text) (retain : List Text) :
    List (Text × List Text) :=
  if next.any (·.1 = mandate) then next.map fun e => if e.1 = mandate then (mandate, retain) else e
  else next ++ [(mandate, retain)]

structure NoticePlan where
  notices : List DecisionNotice
  seenByMandate : List (Text × List Text)

def planDecisionNotices (ledgers : List NotifyMandateLedger) (seenByMandate : SeenStore) :
    NoticePlan where
  notices := ledgers.flatMap fun ledger =>
    (planLedger bodyOf ledger ((seenByMandate ledger.mandate).getD [])).notices
  seenByMandate := ledgers.foldl (fun next ledger => setRetained next ledger.mandate
    (planLedger bodyOf ledger ((seenByMandate ledger.mandate).getD [])).retain) []

/-! ## The delivery -/

/-- What was presented, and whether a call failed. -/
structure Delivery where
  presented : List DecisionNotice
  failed : Bool

/-- Nothing is stored for the rule of the notice. -/
def isSeed (seenByMandate : SeenStore) (notice : DecisionNotice) : Bool :=
  match parseDecisionId notice.id with
  | some id => (seenByMandate id.mandate).isNone
  | none => false

/-- The loop over the notices.  `present` tells whether the call with that number succeeds. -/
def presentEach (seenByMandate : SeenStore) (present : Nat → Bool) :
    Nat → List DecisionNotice → Delivery
  | _, [] => ⟨[], false⟩
  | calls, notice :: notices =>
      if isSeed seenByMandate notice then presentEach seenByMandate present calls notices
      else if present calls then
        let delivery := presentEach seenByMandate present (calls + 1) notices
        ⟨notice :: delivery.presented, delivery.failed⟩
      else ⟨[], true⟩

def saveSeen (store : SeenStore) (mandate : Text) (ids : List Text) : SeenStore :=
  Function.update store mandate (some ids)

/-- What is stored for a rule after a scan. -/
def keepSeen (seenByMandate : SeenStore) (presented : List Text) (mandate : Text)
    (target : List Text) : List Text :=
  match seenByMandate mandate with
  | none => target
  | some previous => target.filter fun id => previous.contains id || presented.contains id

/-- What a scan leaves: what it announced, whether a call failed, and what is stored. -/
structure Scanned where
  presented : List DecisionNotice
  failed : Bool
  seenByMandate : SeenStore

def deliverDecisionNotices (ledgers : List NotifyMandateLedger) (seenByMandate : SeenStore)
    (present : Nat → Bool) : Scanned :=
  let plan := planDecisionNotices bodyOf ledgers seenByMandate
  let delivery := presentEach seenByMandate present 0 plan.notices
  let presented := delivery.presented.map (·.id)
  { presented := delivery.presented
    failed := delivery.failed
    seenByMandate := plan.seenByMandate.foldl (fun store entry =>
      saveSeen store entry.1 (keepSeen seenByMandate presented entry.1 entry.2)) seenByMandate }

end Plan

/-! ## What a plan holds -/

section PlanFacts

variable {bodyOf : NotifyMandateLedger → NotifyLedgerRow → String} {ledger : NotifyMandateLedger}
  {seen : List Text}

/-- The name of a rule, as an id needs it. -/
def Named (mandate : Text) : Prop := mandate ≠ [] ∧ ':' ∉ mandate

theorem parse_idOf {mandate : Text} (hnamed : Named mandate) (row : NotifyLedgerRow) :
    parseDecisionId (idOf mandate row) = some ⟨mandate, row.ts, row.kind.toNat, row.nonce⟩ :=
  parseDecisionId_encode hnamed.1 hnamed.2 _ _ _

/-- Rules share no ids. -/
theorem mandate_of_idOf {mandate mandate' : Text} (hnamed : Named mandate)
    (hnamed' : Named mandate') {row row' : NotifyLedgerRow}
    (h : idOf mandate row = idOf mandate' row') : mandate = mandate' := by
  have hparse := parse_idOf hnamed row
  rw [h, parse_idOf hnamed' row'] at hparse
  exact (congrArg DecisionId.mandate (Option.some.inj hparse)).symm

/-- A row that a plan is about has this id. -/
def Announces (ledger : NotifyMandateLedger) (id : Text) : Prop :=
  ∃ row ∈ ledger.rows, isNotifiable row.kind = true ∧ id = idOf ledger.mandate row

/-- What the loop has after some rows. -/
structure LedgerPlan.Holds (ledger : NotifyMandateLedger) (seen : List Text)
    (rows : List NotifyLedgerRow) (plan : LedgerPlan) : Prop where
  ids : plan.notices.map (·.id) = plan.queued
  nodup : plan.queued.Nodup
  retained : ∀ id, id ∈ plan.retain ↔
    ∃ row ∈ rows, isNotifiable row.kind = true ∧ id = idOf ledger.mandate row
  queued : ∀ id, id ∈ plan.queued ↔ id ∈ plan.retain ∧ id ∉ seen

theorem LedgerPlan.Holds.step (hnamed : Named ledger.mandate) {rows : List NotifyLedgerRow}
    {plan : LedgerPlan} (h : plan.Holds ledger seen rows) (row : NotifyLedgerRow) :
    (planRow bodyOf ledger seen plan row).Holds ledger seen (rows ++ [row]) := by
  unfold planRow
  rw [parse_idOf hnamed]
  by_cases hkind : isNotifiable row.kind = true
  · have hretain : ∀ id, id ∈ (if plan.retain.contains (idOf ledger.mandate row) then plan.retain
        else plan.retain ++ [idOf ledger.mandate row]) ↔
        id ∈ plan.retain ∨ id = idOf ledger.mandate row := by
      intro id
      split_ifs with hold
      · constructor
        · exact .inl
        · rintro (hid | rfl)
          · exact hid
          · exact List.contains_iff_mem.mp hold
      · rw [List.mem_append, List.mem_singleton]
    have hrows : ∀ id, (id ∈ plan.retain ∨ id = idOf ledger.mandate row) ↔
        ∃ r ∈ rows ++ [row], isNotifiable r.kind = true ∧ id = idOf ledger.mandate r := by
      intro id
      rw [h.retained]
      constructor
      · rintro (⟨r, hr, hid⟩ | rfl)
        · exact ⟨r, List.mem_append_left _ hr, hid⟩
        · exact ⟨row, List.mem_append_right _ List.mem_cons_self, hkind, rfl⟩
      · rintro ⟨r, hr, hid⟩
        rcases List.mem_append.mp hr with hr | hr
        · exact .inl ⟨r, hr, hid⟩
        · obtain rfl := List.mem_singleton.mp hr
          exact .inr hid.2
    rw [hkind, Bool.not_true, if_neg Bool.false_ne_true, Option.isNone_some,
      if_neg Bool.false_ne_true]
    dsimp only
    have hcontains : (seen.contains (idOf ledger.mandate row) ||
        plan.queued.contains (idOf ledger.mandate row)) = true ↔
        idOf ledger.mandate row ∈ seen ∨ idOf ledger.mandate row ∈ plan.queued := by
      rw [Bool.or_eq_true, List.contains_iff_mem, List.contains_iff_mem]
    by_cases hknown : idOf ledger.mandate row ∈ seen ∨ idOf ledger.mandate row ∈ plan.queued
    · rw [if_pos (hcontains.mpr hknown)]
      refine ⟨h.ids, h.nodup, fun id => (hretain id).trans (hrows id), fun id => ?_⟩
      rw [hretain, h.queued]
      constructor
      · exact fun hid => ⟨.inl hid.1, hid.2⟩
      · rintro ⟨hid | rfl, hunseen⟩
        · exact ⟨hid, hunseen⟩
        · exact (h.queued _).mp (hknown.resolve_left hunseen)
    · rw [if_neg (hcontains.not.mpr hknown)]
      obtain ⟨hunseen, hfresh⟩ := not_or.mp hknown
      refine ⟨?_, ?_, fun id => (hretain id).trans (hrows id), fun id => ?_⟩
      · rw [List.map_append, h.ids]
        rfl
      · rw [← List.concat_eq_append]
        exact List.Nodup.concat hfresh h.nodup
      · rw [List.mem_append, List.mem_singleton, hretain, h.queued]
        constructor
        · rintro (hid | rfl)
          · exact ⟨.inl hid.1, hid.2⟩
          · exact ⟨.inr rfl, hunseen⟩
        · rintro ⟨hid | rfl, hnew⟩
          · exact .inl ⟨hid, hnew⟩
          · exact .inr rfl
  · rw [if_pos (by simpa using hkind)]
    refine ⟨h.ids, h.nodup, fun id => ?_, h.queued⟩
    rw [h.retained]
    constructor
    · rintro ⟨r, hr, hid⟩
      exact ⟨r, List.mem_append_left _ hr, hid⟩
    · rintro ⟨r, hr, hid⟩
      rcases List.mem_append.mp hr with hr | hr
      · exact ⟨r, hr, hid⟩
      · obtain rfl := List.mem_singleton.mp hr
        exact absurd hid.1 hkind

theorem planLedger_holds (bodyOf : NotifyMandateLedger → NotifyLedgerRow → String)
    (seen : List Text) (hnamed : Named ledger.mandate) :
    (planLedger bodyOf ledger seen).Holds ledger seen ledger.rows := by
  unfold planLedger
  have hrun : ∀ (rows done : List NotifyLedgerRow) (plan : LedgerPlan),
      plan.Holds ledger seen done →
      (rows.foldl (planRow bodyOf ledger seen) plan).Holds ledger seen (done ++ rows) := by
    intro rows
    induction rows with
    | nil =>
        intro done plan h
        rwa [List.append_nil]
    | cons row rows ih =>
        intro done plan h
        have hstep := ih (done ++ [row]) (planRow bodyOf ledger seen plan row) (h.step hnamed row)
        rwa [List.append_assoc] at hstep
  refine hrun ledger.rows [] _ ⟨rfl, .nil, fun id => ?_, fun id => ?_⟩
  · simp
  · simp

end PlanFacts

/-! ## What a scan leaves -/

section DeliveryFacts

variable {bodyOf : NotifyMandateLedger → NotifyLedgerRow → String}
  {ledgers : List NotifyMandateLedger} {seenByMandate : SeenStore} {present : Nat → Bool}

/-- Ledgers of several rules, one for each. -/
structure Readable (ledgers : List NotifyMandateLedger) : Prop where
  named : ∀ ledger ∈ ledgers, Named ledger.mandate
  apart : (ledgers.map (·.mandate)).Nodup

theorem Readable.eq (h : Readable ledgers) {ledger ledger' : NotifyMandateLedger}
    (hledger : ledger ∈ ledgers) (hledger' : ledger' ∈ ledgers)
    (hsame : ledger.mandate = ledger'.mandate) : ledger = ledger' :=
  List.inj_on_of_nodup_map h.apart hledger hledger' hsame

theorem Readable.planned (h : Readable ledgers)
    (bodyOf : NotifyMandateLedger → NotifyLedgerRow → String) (seenByMandate : SeenStore)
    {ledger : NotifyMandateLedger} (hledger : ledger ∈ ledgers) :
    (planLedger bodyOf ledger ((seenByMandate ledger.mandate).getD [])).Holds ledger
      ((seenByMandate ledger.mandate).getD []) ledger.rows :=
  planLedger_holds bodyOf _ (h.named ledger hledger)

/-- The scan has this id to announce: its rule was scanned before and the id is not stored. -/
def Pending (ledgers : List NotifyMandateLedger) (seenByMandate : SeenStore) (id : Text) : Prop :=
  ∃ ledger ∈ ledgers, ∃ stored, seenByMandate ledger.mandate = some stored ∧
    Announces ledger id ∧ id ∉ stored

/-- The loop announces the notices in order, up to the first call that fails. -/
theorem presentEach_prefix (seenByMandate : SeenStore) (present : Nat → Bool)
    (notices : List DecisionNotice) (calls : Nat) :
    (presentEach seenByMandate present calls notices).presented <+:
        notices.filter (fun notice => !isSeed seenByMandate notice) ∧
      ((presentEach seenByMandate present calls notices).failed = false →
        (presentEach seenByMandate present calls notices).presented =
          notices.filter fun notice => !isSeed seenByMandate notice) := by
  induction notices generalizing calls with
  | nil => exact ⟨List.prefix_rfl, fun _ => rfl⟩
  | cons notice notices ih =>
      rw [presentEach]
      by_cases hseed : isSeed seenByMandate notice = true
      · rw [if_pos hseed, List.filter_cons_of_neg (by simpa using hseed)]
        exact ih calls
      · rw [if_neg hseed, List.filter_cons_of_pos (by simpa using hseed)]
        by_cases hcall : present calls = true
        · obtain ⟨hfront, hall⟩ := ih (calls + 1)
          rw [if_pos hcall]
          exact ⟨List.cons_prefix_cons.mpr ⟨rfl, hfront⟩, fun hok => congrArg _ (hall hok)⟩
        · rw [if_neg hcall]
          refine ⟨List.nil_prefix, fun hok => ?_⟩
          cases hok

theorem isSeed_of_id {mandate : Text} (hnamed : Named mandate) {notice : DecisionNotice}
    {row : NotifyLedgerRow} (hid : notice.id = idOf mandate row) :
    isSeed seenByMandate notice = (seenByMandate mandate).isNone := by
  unfold isSeed
  rw [hid, parse_idOf hnamed]

theorem mem_plan_ids (hread : Readable ledgers) {notice : DecisionNotice}
    (h : notice ∈ (planDecisionNotices bodyOf ledgers seenByMandate).notices) :
    ∃ ledger ∈ ledgers, Announces ledger notice.id ∧
      notice.id ∉ (seenByMandate ledger.mandate).getD [] ∧
      isSeed seenByMandate notice = (seenByMandate ledger.mandate).isNone := by
  obtain ⟨ledger, hledger, hnotice⟩ := List.mem_flatMap.mp h
  have hholds := hread.planned bodyOf seenByMandate hledger
  have hqueued := List.mem_map_of_mem (f := (·.id)) hnotice
  rw [hholds.ids, hholds.queued] at hqueued
  obtain ⟨row, hrow, hkind, hid⟩ := (hholds.retained _).mp hqueued.1
  exact ⟨ledger, hledger, ⟨row, hrow, hkind, hid⟩, hqueued.2,
    isSeed_of_id (hread.named ledger hledger) hid⟩

/-- What is left to announce after the seeds. -/
theorem mem_left_iff (bodyOf : NotifyMandateLedger → NotifyLedgerRow → String)
    (hread : Readable ledgers) (id : Text) :
    id ∈ (((planDecisionNotices bodyOf ledgers seenByMandate).notices.filter
      fun notice => !isSeed seenByMandate notice).map (·.id)) ↔
      Pending ledgers seenByMandate id := by
  constructor
  · intro h
    obtain ⟨notice, hnotice, rfl⟩ := List.mem_map.mp h
    obtain ⟨hplan, hseed⟩ := List.mem_filter.mp hnotice
    obtain ⟨ledger, hledger, hannounces, hunseen, hstored⟩ := mem_plan_ids hread hplan
    rw [hstored] at hseed
    cases hstore : seenByMandate ledger.mandate with
    | none =>
        rw [hstore] at hseed
        cases hseed
    | some stored =>
        rw [hstore] at hunseen
        exact ⟨ledger, hledger, stored, hstore, hannounces, hunseen⟩
  · rintro ⟨ledger, hledger, stored, hstore, hannounces, hunseen⟩
    have hholds := hread.planned bodyOf seenByMandate hledger
    have hqueued : id ∈ (planLedger bodyOf ledger ((seenByMandate ledger.mandate).getD [])).queued := by
      refine (hholds.queued id).mpr ⟨(hholds.retained id).mpr hannounces, ?_⟩
      rw [hstore]
      exact hunseen
    rw [← hholds.ids] at hqueued
    obtain ⟨notice, hnotice, rfl⟩ := List.mem_map.mp hqueued
    refine List.mem_map_of_mem (List.mem_filter.mpr
      ⟨List.mem_flatMap.mpr ⟨ledger, hledger, hnotice⟩, ?_⟩)
    obtain ⟨row, -, -, hid⟩ := hannounces
    rw [isSeed_of_id (hread.named ledger hledger) hid, hstore]
    rfl

theorem plan_ids_nodup (hread : Readable ledgers) :
    ((planDecisionNotices bodyOf ledgers seenByMandate).notices.map (·.id)).Nodup := by
  have hids : (planDecisionNotices bodyOf ledgers seenByMandate).notices.map (·.id) =
      ledgers.flatMap fun ledger =>
        (planLedger bodyOf ledger ((seenByMandate ledger.mandate).getD [])).notices.map (·.id) := by
    unfold planDecisionNotices
    rw [List.map_flatMap]
  rw [hids, List.nodup_flatMap]
  constructor
  · intro ledger hledger
    have hholds := hread.planned bodyOf seenByMandate hledger
    rw [hholds.ids]
    exact hholds.nodup
  · refine (List.pairwise_map.mp hread.apart).imp_of_mem ?_
    intro ledger ledger' hledger hledger' hapart id hid hid'
    have hholds := hread.planned bodyOf seenByMandate hledger
    have hholds' := hread.planned bodyOf seenByMandate hledger'
    dsimp only at hid hid'
    rw [hholds.ids, hholds.queued, hholds.retained] at hid
    rw [hholds'.ids, hholds'.queued, hholds'.retained] at hid'
    obtain ⟨⟨row, -, -, hrow⟩, -⟩ := hid
    obtain ⟨⟨row', -, -, hrow'⟩, -⟩ := hid'
    rw [hrow] at hrow'
    exact hapart (mandate_of_idOf (hread.named ledger hledger) (hread.named ledger' hledger') hrow')

/-! ### The store -/

theorem foldl_setRetained (hapart : (ledgers.map (·.mandate)).Nodup)
    (retainOf : NotifyMandateLedger → List Text) (next : List (Text × List Text))
    (hfresh : ∀ ledger ∈ ledgers, ledger.mandate ∉ next.map (·.1)) :
    ledgers.foldl (fun next ledger => setRetained next ledger.mandate (retainOf ledger)) next =
      next ++ ledgers.map fun ledger => (ledger.mandate, retainOf ledger) := by
  induction ledgers generalizing next with
  | nil => rw [List.foldl_nil, List.map_nil, List.append_nil]
  | cons ledger ledgers ih =>
      rw [List.map_cons, List.nodup_cons] at hapart
      have hnew : setRetained next ledger.mandate (retainOf ledger) =
          next ++ [(ledger.mandate, retainOf ledger)] := by
        refine if_neg fun hany => ?_
        obtain ⟨entry, hentry, hsame⟩ := List.any_eq_true.mp hany
        refine hfresh ledger List.mem_cons_self ?_
        rw [← of_decide_eq_true hsame]
        exact List.mem_map_of_mem hentry
      rw [List.foldl_cons, hnew, ih hapart.2, List.append_assoc]
      · rfl
      · intro other hother hmem
        rw [List.map_append, List.mem_append] at hmem
        rcases hmem with hmem | hmem
        · exact hfresh other (List.mem_cons_of_mem _ hother) hmem
        · have hsame : other.mandate = ledger.mandate := List.mem_singleton.mp hmem
          exact hapart.1 (hsame ▸ List.mem_map_of_mem hother)

/-- Writing entries under distinct names. -/
theorem foldl_saveSeen (valueOf : NotifyMandateLedger → List Text) (store : SeenStore)
    (mandate : Text) :
    (mandate ∉ ledgers.map (·.mandate) →
      (ledgers.foldl (fun store ledger => saveSeen store ledger.mandate (valueOf ledger)) store)
        mandate = store mandate) ∧
    (∀ ledger ∈ ledgers, (ledgers.map (·.mandate)).Nodup → ledger.mandate = mandate →
      (ledgers.foldl (fun store ledger => saveSeen store ledger.mandate (valueOf ledger)) store)
        mandate = some (valueOf ledger)) := by
  induction ledgers generalizing store with
  | nil =>
      refine ⟨fun _ => rfl, fun ledger h => ?_⟩
      cases h
  | cons first ledgers ih =>
      obtain ⟨hkeeps, hsets⟩ := ih (saveSeen store first.mandate (valueOf first))
      constructor
      · intro hout
        rw [List.map_cons, List.mem_cons, not_or] at hout
        rw [List.foldl_cons, hkeeps hout.2, saveSeen, Function.update_of_ne hout.1]
      · rintro ledger hledger hapart rfl
        rw [List.map_cons, List.nodup_cons] at hapart
        rw [List.foldl_cons]
        rcases List.mem_cons.mp hledger with rfl | hledger
        · rw [hkeeps hapart.1, saveSeen, Function.update_self]
        · exact hsets ledger hledger hapart.2 rfl

theorem mem_keepSeen (presented : List Text) (mandate : Text) (target : List Text) (id : Text) :
    id ∈ keepSeen seenByMandate presented mandate target ↔ id ∈ target ∧
      ∀ previous, seenByMandate mandate = some previous → id ∈ previous ∨ id ∈ presented := by
  unfold keepSeen
  cases seenByMandate mandate with
  | none => simp
  | some previous => simp

/-- What one scan does. -/
structure ScanEffect (ledgers : List NotifyMandateLedger) (seenByMandate : SeenStore)
    (scan : Scanned) : Prop where
  once : (scan.presented.map (·.id)).Nodup
  pending : ∀ id ∈ scan.presented.map (·.id), Pending ledgers seenByMandate id
  all : scan.failed = false → ∀ id, Pending ledgers seenByMandate id →
    id ∈ scan.presented.map (·.id)
  /-- Of a rule that was scanned before, what was seen or is announced stays; of a new one, all. -/
  stored : ∀ ledger ∈ ledgers, ∃ kept, scan.seenByMandate ledger.mandate = some kept ∧
    ∀ id, id ∈ kept ↔ Announces ledger id ∧ ∀ previous, seenByMandate ledger.mandate = some previous →
      id ∈ previous ∨ id ∈ scan.presented.map (·.id)
  others : ∀ mandate, mandate ∉ ledgers.map (·.mandate) →
    scan.seenByMandate mandate = seenByMandate mandate

theorem deliver_effect (bodyOf : NotifyMandateLedger → NotifyLedgerRow → String)
    (seenByMandate : SeenStore) (present : Nat → Bool) (hread : Readable ledgers) :
    ScanEffect ledgers seenByMandate
      (deliverDecisionNotices bodyOf ledgers seenByMandate present) := by
  obtain ⟨hfront, hall⟩ := presentEach_prefix seenByMandate present
    (planDecisionNotices bodyOf ledgers seenByMandate).notices 0
  have hstore : (deliverDecisionNotices bodyOf ledgers seenByMandate present).seenByMandate =
      ledgers.foldl (fun store ledger => saveSeen store ledger.mandate
        (keepSeen seenByMandate
          ((deliverDecisionNotices bodyOf ledgers seenByMandate present).presented.map (·.id))
          ledger.mandate
          (planLedger bodyOf ledger ((seenByMandate ledger.mandate).getD [])).retain))
        seenByMandate := by
    have hplan : (planDecisionNotices bodyOf ledgers seenByMandate).seenByMandate =
        ledgers.map fun ledger => (ledger.mandate,
          (planLedger bodyOf ledger ((seenByMandate ledger.mandate).getD [])).retain) :=
      foldl_setRetained hread.apart _ [] fun _ _ => List.not_mem_nil
    unfold deliverDecisionNotices
    dsimp only
    rw [hplan, List.foldl_map]
  constructor
  · exact ((plan_ids_nodup hread).sublist (List.filter_sublist.map _)).sublist
      (hfront.sublist.map _)
  · intro id hid
    exact (mem_left_iff bodyOf hread id).mp ((hfront.sublist.map _).subset hid)
  · intro hok id hpending
    have hmem := (mem_left_iff bodyOf hread id).mpr hpending
    rw [← hall hok] at hmem
    exact hmem
  · intro ledger hledger
    have hholds := hread.planned bodyOf seenByMandate hledger
    rw [hstore]
    refine ⟨_, (foldl_saveSeen _ _ _).2 ledger hledger hread.apart rfl, fun id => ?_⟩
    rw [mem_keepSeen, hholds.retained]
    rfl
  · intro mandate hout
    rw [hstore]
    exact (foldl_saveSeen _ _ _).1 hout

end DeliveryFacts

/-! ## Scans while the chain moves on -/

/-- What the rules have recorded, oldest first, how many of these records each ring has overwritten,
and what is stored. -/
structure NotifyState where
  log : Text → List NotifyLedgerRow
  gone : Text → Nat
  seenByMandate : SeenStore

/-- What a read of the ledger of a rule shows. -/
def NotifyState.rows (s : NotifyState) (mandate : Text) : List NotifyLedgerRow :=
  (s.log mandate).drop (s.gone mandate)

inductive NotifyInput
  | record (mandate : Text) (row : NotifyLedgerRow)
  | overwrite (mandate : Text)
  /-- A scan of some rules, and which of its calls succeed. -/
  | scan (ledgers : List NotifyMandateLedger) (present : Nat → Bool)

structure NotifyOutput where
  presented : List DecisionNotice
  failed : Bool

/-- Records are added at the end and overwritten from the start.  A scan reads what is there. -/
inductive NotifyStep (bodyOf : NotifyMandateLedger → NotifyLedgerRow → String) :
    NotifyState → NotifyInput → NotifyOutput → NotifyState → Prop
  | record {s : NotifyState} {mandate : Text} {row : NotifyLedgerRow}
      (fresh : idOf mandate row ∉ (s.log mandate).map (idOf mandate)) :
      NotifyStep bodyOf s (.record mandate row) ⟨[], false⟩
        { s with log := Function.update s.log mandate (s.log mandate ++ [row]) }
  | overwrite {s : NotifyState} {mandate : Text} :
      NotifyStep bodyOf s (.overwrite mandate) ⟨[], false⟩
        { s with gone := Function.update s.gone mandate (s.gone mandate + 1) }
  | scan {s : NotifyState} {ledgers : List NotifyMandateLedger} {present : Nat → Bool}
      (readable : Readable ledgers)
      (shows : ∀ ledger ∈ ledgers, ledger.rows.Perm (s.rows ledger.mandate)) :
      NotifyStep bodyOf s (.scan ledgers present)
        ⟨(deliverDecisionNotices bodyOf ledgers s.seenByMandate present).presented,
          (deliverDecisionNotices bodyOf ledgers s.seenByMandate present).failed⟩
        { s with
          seenByMandate := (deliverDecisionNotices bodyOf ledgers s.seenByMandate present).seenByMandate }

abbrev NotifyTransition := Transition NotifyState NotifyInput NotifyOutput

abbrev NotifyHistory := List NotifyTransition

/-- What a transition read of a rule. -/
def NotifyTransition.read (T : NotifyTransition) (mandate : Text) : Option NotifyMandateLedger :=
  match T.input with
  | .scan ledgers _ => ledgers.find? (·.mandate = mandate)
  | _ => none

/-- What the first scan of a rule read.  Histories are written latest first. -/
def firstRead (mandate : Text) : NotifyHistory → Option NotifyMandateLedger
  | [] => none
  | T :: older =>
      match firstRead mandate older with
      | some ledger => some ledger
      | none => T.read mandate

/-- How often an id was announced. -/
def announced (id : Text) (h : NotifyHistory) : Nat :=
  (h.flatMap fun T => T.output.presented.map (·.id)).count id

/-- The first scan of the rule found a row with this id. -/
def Seeded (mandate id : Text) (h : NotifyHistory) : Prop :=
  ∃ ledger, firstRead mandate h = some ledger ∧ Announces ledger id

/-- What is known of the row of a rule, with this id, along a history. -/
structure RowInv (h : NotifyHistory) (s : NotifyState) (mandate : Text) (row : NotifyLedgerRow) :
    Prop where
  once : announced (idOf mandate row) h ≤ 1
  unscanned : s.seenByMandate mandate = none → announced (idOf mandate row) h = 0
  seed : Seeded mandate (idOf mandate row) h → announced (idOf mandate row) h = 0
  /-- While the row can be read, it is stored exactly if it was announced or is of the first scan. -/
  stored : row ∈ s.rows mandate →
    ((∃ stored, s.seenByMandate mandate = some stored ∧ idOf mandate row ∈ stored) ↔
      announced (idOf mandate row) h = 1 ∨ Seeded mandate (idOf mandate row) h)

/-- The invariant of the scans. -/
structure NotifyInv (h : NotifyHistory) (s : NotifyState) : Prop where
  distinct : ∀ mandate, ((s.log mandate).map (idOf mandate)).Nodup
  scanned : ∀ mandate, s.seenByMandate mandate = none ↔ firstRead mandate h = none
  stored_log : ∀ mandate stored, s.seenByMandate mandate = some stored → ∀ id ∈ stored,
    ∃ row ∈ s.log mandate, id = idOf mandate row
  first_log : ∀ mandate ledger, firstRead mandate h = some ledger →
    Named mandate ∧ ledger.mandate = mandate ∧ ∀ row ∈ ledger.rows, row ∈ s.log mandate
  announced_log : ∀ id, announced id h ≠ 0 → ∃ mandate, Named mandate ∧
    ∃ row ∈ s.log mandate, isNotifiable row.kind = true ∧ id = idOf mandate row
  row : ∀ mandate, Named mandate → ∀ row ∈ s.log mandate, isNotifiable row.kind = true →
    RowInv h s mandate row

section Runs

variable {bodyOf : NotifyMandateLedger → NotifyLedgerRow → String} {s₀ s s' : NotifyState}
  {h : NotifyHistory} {mandate : Text} {row row' : NotifyLedgerRow}

theorem announced_cons (T : NotifyTransition) (id : Text) :
    announced id (T :: h) = (T.output.presented.map (·.id)).count id + announced id h := by
  unfold announced
  rw [List.flatMap_cons, List.count_append]

theorem announced_silent {T : NotifyTransition} (hsilent : T.output.presented = []) (id : Text) :
    announced id (T :: h) = announced id h := by
  rw [announced_cons, hsilent, List.map_nil, List.count_nil, Nat.zero_add]

theorem firstRead_silent {T : NotifyTransition} (hsilent : T.read mandate = none) :
    firstRead mandate (T :: h) = firstRead mandate h := by
  rw [firstRead, hsilent]
  cases firstRead mandate h <;> rfl

theorem NotifyInv.row_eq (hinv : NotifyInv h s) (hrow : row ∈ s.log mandate)
    (hrow' : row' ∈ s.log mandate) (hid : idOf mandate row = idOf mandate row') : row = row' :=
  List.inj_on_of_nodup_map (hinv.distinct mandate) hrow hrow' hid

theorem NotifyInv.seeded_log (hinv : NotifyInv h s) {id : Text} (hseed : Seeded mandate id h) :
    ∃ row ∈ s.log mandate, id = idOf mandate row := by
  obtain ⟨ledger, hfirst, row, hrow, -, hid⟩ := hseed
  obtain ⟨-, hname, hrows⟩ := hinv.first_log mandate ledger hfirst
  rw [hname] at hid
  exact ⟨row, hrows row hrow, hid⟩

theorem mem_log_of_rows (hrow : row ∈ s.rows mandate) : row ∈ s.log mandate :=
  List.mem_of_mem_drop hrow

/-! ### The chain moves on -/

/-- A step that shows nothing and leaves what is stored keeps the invariant of a row that can be
read after it only if it could be read before. -/
theorem RowInv.silent {T : NotifyTransition} (hrow : RowInv h s mandate row)
    (hpresented : T.output.presented = []) (hread : T.read mandate = none)
    (hstore : s'.seenByMandate = s.seenByMandate)
    (hrows : row ∈ s'.rows mandate → row ∈ s.rows mandate) : RowInv (T :: h) s' mandate row := by
  have hseeded : Seeded mandate (idOf mandate row) (T :: h) ↔ Seeded mandate (idOf mandate row) h := by
    unfold Seeded
    rw [firstRead_silent hread]
  constructor
  · rw [announced_silent hpresented]
    exact hrow.once
  · rw [announced_silent hpresented, hstore]
    exact hrow.unscanned
  · rw [announced_silent hpresented, hseeded]
    exact hrow.seed
  · rw [announced_silent hpresented, hseeded, hstore]
    exact fun hmem => hrow.stored (hrows hmem)

theorem mem_recorded {mandate' : Text} :
    row' ∈ Function.update s.log mandate (s.log mandate ++ [row]) mandate' ↔
      row' ∈ s.log mandate' ∨ mandate' = mandate ∧ row' = row := by
  by_cases hsame : mandate' = mandate
  · subst hsame
    rw [Function.update_self, List.mem_append, List.mem_singleton]
    simp
  · rw [Function.update_of_ne hsame]
    simp [hsame]

/-- A record that is new on its rule. -/
theorem NotifyInv.record (hinv : NotifyInv h s)
    (fresh : idOf mandate row ∉ (s.log mandate).map (idOf mandate)) :
    NotifyInv (⟨s, .record mandate row, ⟨[], false⟩,
        { s with log := Function.update s.log mandate (s.log mandate ++ [row]) }⟩ :: h)
      { s with log := Function.update s.log mandate (s.log mandate ++ [row]) } := by
  have hold : ∀ mandate' r, r ∈ s.log mandate' →
      r ∈ Function.update s.log mandate (s.log mandate ++ [row]) mandate' :=
    fun _ _ hr => mem_recorded.mpr (.inl hr)
  constructor
  · intro mandate'
    dsimp only
    by_cases hsame : mandate' = mandate
    · subst hsame
      rw [Function.update_self, List.map_append, List.map_singleton, ← List.concat_eq_append]
      exact List.Nodup.concat fresh (hinv.distinct mandate')
    · rw [Function.update_of_ne hsame]
      exact hinv.distinct mandate'
  · intro mandate'
    rw [firstRead_silent rfl]
    exact hinv.scanned mandate'
  · intro mandate' stored hstored id hid
    obtain ⟨r, hr, hrid⟩ := hinv.stored_log mandate' stored hstored id hid
    exact ⟨r, hold mandate' r hr, hrid⟩
  · intro mandate' ledger hfirst
    rw [firstRead_silent rfl] at hfirst
    obtain ⟨hnamed, hname, hrows⟩ := hinv.first_log mandate' ledger hfirst
    exact ⟨hnamed, hname, fun r hr => hold mandate' r (hrows r hr)⟩
  · intro id hannounced
    rw [announced_silent rfl] at hannounced
    obtain ⟨mandate', hnamed, r, hr, hrid⟩ := hinv.announced_log id hannounced
    exact ⟨mandate', hnamed, r, hold mandate' r hr, hrid⟩
  · intro mandate' hnamed r hmem hkind
    rcases mem_recorded.mp hmem with hr | ⟨rfl, rfl⟩
    · refine (hinv.row mandate' hnamed r hr hkind).silent rfl rfl rfl fun hread => ?_
      unfold NotifyState.rows at hread ⊢
      dsimp only at hread
      by_cases hsame : mandate' = mandate
      · subst hsame
        rw [Function.update_self, List.drop_append, List.mem_append] at hread
        rcases hread with hread | hread
        · exact hread
        · have hnew := List.mem_singleton.mp (List.mem_of_mem_drop hread)
          have hknown : idOf mandate' r ∈ (s.log mandate').map (idOf mandate') :=
            List.mem_map_of_mem hr
          exact absurd (hnew ▸ hknown) fresh
      · rwa [Function.update_of_ne hsame] at hread
    · -- the new row was neither announced, nor found, nor stored
      have hnever : announced (idOf mandate' r) h = 0 := by
        by_contra hannounced
        obtain ⟨other, hother, r', hr', -, hid⟩ := hinv.announced_log _ hannounced
        obtain rfl := mandate_of_idOf hnamed hother hid
        exact fresh (hid ▸ List.mem_map_of_mem hr')
      have hunseeded : ¬ Seeded mandate' (idOf mandate' r) h := by
        intro hseed
        obtain ⟨r', hr', hid⟩ := hinv.seeded_log hseed
        exact fresh (hid ▸ List.mem_map_of_mem hr')
      have hunstored : ¬ ∃ stored, s.seenByMandate mandate' = some stored ∧
          idOf mandate' r ∈ stored := by
        rintro ⟨stored, hstored, hmem⟩
        obtain ⟨r', hr', hid⟩ := hinv.stored_log mandate' stored hstored _ hmem
        exact fresh (hid ▸ List.mem_map_of_mem hr')
      have hseeded : ¬ Seeded mandate' (idOf mandate' r) (⟨s, .record mandate' r, ⟨[], false⟩,
          { s with log := Function.update s.log mandate' (s.log mandate' ++ [r]) }⟩ :: h) := by
        unfold Seeded at hunseeded ⊢
        rwa [firstRead_silent rfl]
      constructor
      · rw [announced_silent rfl, hnever]
        exact Nat.zero_le 1
      · rw [announced_silent rfl]
        exact fun _ => hnever
      · exact fun hseed => absurd hseed hseeded
      · rw [announced_silent rfl, hnever]
        intro _
        exact iff_of_false hunstored (by simp [hseeded])

/-- A record that is overwritten. -/
theorem NotifyInv.overwrite (hinv : NotifyInv h s) :
    NotifyInv (⟨s, .overwrite mandate, ⟨[], false⟩,
        { s with gone := Function.update s.gone mandate (s.gone mandate + 1) }⟩ :: h)
      { s with gone := Function.update s.gone mandate (s.gone mandate + 1) } := by
  constructor
  · exact hinv.distinct
  · intro mandate'
    rw [firstRead_silent rfl]
    exact hinv.scanned mandate'
  · exact hinv.stored_log
  · intro mandate' ledger hfirst
    rw [firstRead_silent rfl] at hfirst
    exact hinv.first_log mandate' ledger hfirst
  · intro id hannounced
    rw [announced_silent rfl] at hannounced
    exact hinv.announced_log id hannounced
  · intro mandate' hnamed r hr hkind
    refine (hinv.row mandate' hnamed r hr hkind).silent rfl rfl rfl fun hread => ?_
    unfold NotifyState.rows at hread ⊢
    dsimp only at hread
    by_cases hsame : mandate' = mandate
    · subst hsame
      rw [Function.update_self, ← List.drop_drop] at hread
      exact List.mem_of_mem_drop hread
    · rwa [Function.update_of_ne hsame] at hread

/-! ### A scan -/

section Scan

variable {ledgers : List NotifyMandateLedger} {present : Nat → Bool} {scan : Scanned}

theorem find_ledger (hread : Readable ledgers) {ledger : NotifyMandateLedger}
    (hledger : ledger ∈ ledgers) :
    ledgers.find? (·.mandate = ledger.mandate) = some ledger := by
  cases hfind : ledgers.find? (·.mandate = ledger.mandate) with
  | none => exact absurd (decide_eq_true rfl) (List.find?_eq_none.mp hfind ledger hledger)
  | some found =>
      have hsame := List.find?_some hfind
      simp only [decide_eq_true_eq] at hsame
      rw [hread.eq (List.mem_of_find?_eq_some hfind) hledger hsame]

theorem find_none (hout : mandate ∉ ledgers.map (·.mandate)) :
    ledgers.find? (·.mandate = mandate) = none := by
  refine List.find?_eq_none.mpr fun ledger hledger hsame => hout ?_
  rw [← of_decide_eq_true hsame]
  exact List.mem_map_of_mem hledger

/-- What a scan announces comes from the ledgers it read. -/
theorem ScanEffect.of_presented (heff : ScanEffect ledgers s.seenByMandate scan)
    (hread : Readable ledgers) (hnamed : Named mandate)
    (hmem : idOf mandate row ∈ scan.presented.map (·.id)) :
    ∃ ledger ∈ ledgers, ledger.mandate = mandate ∧ ∃ stored,
      s.seenByMandate mandate = some stored ∧ Announces ledger (idOf mandate row) ∧
      idOf mandate row ∉ stored := by
  obtain ⟨ledger, hledger, stored, hstored, hannounces, hunseen⟩ := heff.pending _ hmem
  obtain ⟨r, hr, hkind, hid⟩ := hannounces
  have hsame := mandate_of_idOf hnamed (hread.named ledger hledger) hid
  refine ⟨ledger, hledger, hsame.symm, stored, ?_, ⟨r, hr, hkind, hid⟩, hunseen⟩
  rw [hsame]
  exact hstored

/-- The invariant of a row, over a scan that reads its rule. -/
theorem RowInv.scan_read {T : NotifyTransition} (hrow : RowInv h s mandate row)
    (hinv : NotifyInv h s) (hnamed : Named mandate) (hlog : row ∈ s.log mandate)
    (hkind : isNotifiable row.kind = true) (hread : Readable ledgers)
    (heff : ScanEffect ledgers s.seenByMandate scan) {ledger : NotifyMandateLedger}
    (hledger : ledger ∈ ledgers) (hname : ledger.mandate = mandate)
    (hshows : ledger.rows.Perm (s.rows mandate)) (hT : T.read mandate = some ledger)
    (hpresented : T.output.presented = scan.presented)
    (hstore : s'.seenByMandate = scan.seenByMandate) (hrows : s'.rows mandate = s.rows mandate) :
    RowInv (T :: h) s' mandate row := by
  have hannounces : Announces ledger (idOf mandate row) ↔ row ∈ s.rows mandate := by
    constructor
    · rintro ⟨r, hr, -, hid⟩
      rw [hname] at hid
      have hmem := hshows.mem_iff.mp hr
      rwa [hinv.row_eq hlog (mem_log_of_rows hmem) hid]
    · intro hmem
      exact ⟨row, hshows.mem_iff.mpr hmem, hkind, by rw [hname]⟩
  have hcount := announced_cons T (idOf mandate row) (h := h)
  rw [hpresented] at hcount
  obtain ⟨kept, hkept, hmem⟩ := heff.stored ledger hledger
  rw [hname] at hkept hmem
  have hafter : (∃ stored, s'.seenByMandate mandate = some stored ∧ idOf mandate row ∈ stored) ↔
      Announces ledger (idOf mandate row) ∧ ∀ previous, s.seenByMandate mandate = some previous →
        idOf mandate row ∈ previous ∨ idOf mandate row ∈ scan.presented.map (·.id) := by
    rw [hstore, hkept, ← hmem]
    simp
  have hscanned : s'.seenByMandate mandate ≠ none := by
    rw [hstore, hkept]
    exact Option.some_ne_none kept
  cases hseen : s.seenByMandate mandate with
  | none =>
      -- the first scan of the rule: nothing of it is announced
      have hfirst := (hinv.scanned mandate).mp hseen
      have hsilent : idOf mandate row ∉ scan.presented.map (·.id) := by
        intro hpres
        obtain ⟨_, -, -, stored, hstored, -⟩ := heff.of_presented hread hnamed hpres
        rw [hseen] at hstored
        cases hstored
      have hnever : announced (idOf mandate row) (T :: h) = 0 := by
        rw [hcount, List.count_eq_zero_of_not_mem hsilent, hrow.unscanned hseen]
      have hseeded : Seeded mandate (idOf mandate row) (T :: h) ↔
          Announces ledger (idOf mandate row) := by
        unfold Seeded
        rw [firstRead, hfirst, hT]
        simp
      constructor
      · omega
      · exact fun h => absurd h hscanned
      · exact fun _ => hnever
      · intro _
        rw [hafter, hseeded, hnever, hseen]
        simp
  | some previous =>
      have hfirst : firstRead mandate h ≠ none := by
        intro hnone
        rw [(hinv.scanned mandate).mpr hnone] at hseen
        cases hseen
      have hseeded : Seeded mandate (idOf mandate row) (T :: h) ↔
          Seeded mandate (idOf mandate row) h := by
        obtain ⟨first, hfound⟩ := Option.ne_none_iff_exists'.mp hfirst
        unfold Seeded
        rw [firstRead, hfound]
      have hpending : idOf mandate row ∈ scan.presented.map (·.id) →
          row ∈ s.rows mandate ∧ idOf mandate row ∉ previous := by
        intro hpres
        obtain ⟨other, hother, hotherName, stored, hstored, hann, hunseen⟩ :=
          heff.of_presented hread hnamed hpres
        rw [hread.eq hother hledger (hotherName.trans hname.symm), hannounces] at hann
        rw [hseen] at hstored
        obtain rfl := Option.some.inj hstored
        exact ⟨hann, hunseen⟩
      have hbefore : row ∈ s.rows mandate → (idOf mandate row ∈ previous ↔
          announced (idOf mandate row) h = 1 ∨ Seeded mandate (idOf mandate row) h) := by
        intro hmemRow
        rw [← hrow.stored hmemRow, hseen]
        simp
      by_cases hpres : idOf mandate row ∈ scan.presented.map (·.id)
      · obtain ⟨hmemRow, hunseen⟩ := hpending hpres
        obtain ⟨hnot, hunseeded⟩ := not_or.mp ((not_congr (hbefore hmemRow)).mp hunseen)
        have honce := hrow.once
        have hnow : announced (idOf mandate row) (T :: h) = 1 := by
          rw [hcount, List.count_eq_one_of_mem heff.once hpres]
          omega
        constructor
        · omega
        · exact fun h => absurd h hscanned
        · exact fun hseed => absurd (hseeded.mp hseed) hunseeded
        · intro _
          rw [hafter]
          exact iff_of_true ⟨hannounces.mpr hmemRow, fun _ _ => .inr hpres⟩ (.inl hnow)
      · have hsame : announced (idOf mandate row) (T :: h) = announced (idOf mandate row) h := by
          rw [hcount, List.count_eq_zero_of_not_mem hpres, Nat.zero_add]
        constructor
        · rw [hsame]
          exact hrow.once
        · exact fun h => absurd h hscanned
        · rw [hsame, hseeded]
          exact hrow.seed
        · rw [hrows]
          intro hmemRow
          rw [hafter, hsame, hseeded, ← hbefore hmemRow, hseen]
          constructor
          · rintro ⟨-, hstays⟩
            exact (hstays previous rfl).resolve_right hpres
          · intro hold
            refine ⟨hannounces.mpr hmemRow, fun stored hstored => ?_⟩
            obtain rfl := Option.some.inj hstored
            exact .inl hold

/-- A scan that does not read the rule. -/
theorem RowInv.scan_other {T : NotifyTransition} (hrow : RowInv h s mandate row)
    (hnamed : Named mandate) (hread : Readable ledgers)
    (heff : ScanEffect ledgers s.seenByMandate scan) (hout : mandate ∉ ledgers.map (·.mandate))
    (hT : T.read mandate = none) (hpresented : T.output.presented = scan.presented)
    (hstore : s'.seenByMandate = scan.seenByMandate) (hrows : s'.rows mandate = s.rows mandate) :
    RowInv (T :: h) s' mandate row := by
  have hsilent : idOf mandate row ∉ scan.presented.map (·.id) := by
    intro hpres
    obtain ⟨ledger, hledger, hname, -⟩ := heff.of_presented hread hnamed hpres
    exact hout (hname ▸ List.mem_map_of_mem hledger)
  have hsame : announced (idOf mandate row) (T :: h) = announced (idOf mandate row) h := by
    rw [announced_cons, hpresented, List.count_eq_zero_of_not_mem hsilent, Nat.zero_add]
  have hkeeps : s'.seenByMandate mandate = s.seenByMandate mandate := by
    rw [hstore]
    exact heff.others mandate hout
  have hseeded : Seeded mandate (idOf mandate row) (T :: h) ↔
      Seeded mandate (idOf mandate row) h := by
    unfold Seeded
    rw [firstRead_silent hT]
  constructor
  · rw [hsame]
    exact hrow.once
  · rw [hsame, hkeeps]
    exact hrow.unscanned
  · rw [hsame, hseeded]
    exact hrow.seed
  · rw [hsame, hseeded, hkeeps, hrows]
    exact hrow.stored

theorem NotifyInv.scans (hinv : NotifyInv h s) (hread : Readable ledgers)
    (shows : ∀ ledger ∈ ledgers, ledger.rows.Perm (s.rows ledger.mandate))
    (heff : ScanEffect ledgers s.seenByMandate scan) :
    NotifyInv (⟨s, .scan ledgers present, ⟨scan.presented, scan.failed⟩,
        { s with seenByMandate := scan.seenByMandate }⟩ :: h)
      { s with seenByMandate := scan.seenByMandate } := by
  have hcases : ∀ mandate', (∃ ledger ∈ ledgers, ledger.mandate = mandate' ∧
      ledgers.find? (·.mandate = mandate') = some ledger) ∨
      (mandate' ∉ ledgers.map (·.mandate) ∧ ledgers.find? (·.mandate = mandate') = none) := by
    intro mandate'
    by_cases hin : mandate' ∈ ledgers.map (·.mandate)
    · obtain ⟨ledger, hledger, rfl⟩ := List.mem_map.mp hin
      exact .inl ⟨ledger, hledger, rfl, find_ledger hread hledger⟩
    · exact .inr ⟨hin, find_none hin⟩
  constructor
  · exact hinv.distinct
  · intro mandate'
    rcases hcases mandate' with ⟨ledger, hledger, rfl, hfind⟩ | ⟨hout, hfind⟩
    · obtain ⟨kept, hkept, -⟩ := heff.stored ledger hledger
      refine iff_of_false ?_ ?_
      · dsimp only
        rw [hkept]
        exact Option.some_ne_none kept
      · rw [firstRead]
        cases firstRead ledger.mandate h with
        | none =>
            dsimp only [NotifyTransition.read]
            rw [hfind]
            exact Option.some_ne_none ledger
        | some first => exact Option.some_ne_none first
    · rw [firstRead_silent (T := ⟨s, .scan ledgers present, _, _⟩) hfind, ← hinv.scanned]
      exact iff_of_eq (congrArg (· = none) (heff.others mandate' hout))
  · intro mandate' stored hstored id hid
    rcases hcases mandate' with ⟨ledger, hledger, rfl, -⟩ | ⟨hout, -⟩
    · obtain ⟨kept, hkept, hmem⟩ := heff.stored ledger hledger
      dsimp only at hstored
      rw [hkept] at hstored
      obtain rfl := Option.some.inj hstored
      obtain ⟨⟨r, hr, -, hrid⟩, -⟩ := (hmem id).mp hid
      exact ⟨r, mem_log_of_rows ((shows ledger hledger).mem_iff.mp hr), hrid⟩
    · dsimp only at hstored
      rw [heff.others mandate' hout] at hstored
      exact hinv.stored_log mandate' stored hstored id hid
  · intro mandate' ledger hfirst
    rw [firstRead] at hfirst
    cases hold : firstRead mandate' h with
    | some first =>
        rw [hold] at hfirst
        obtain rfl := Option.some.inj hfirst
        exact hinv.first_log mandate' first hold
    | none =>
        rw [hold] at hfirst
        rcases hcases mandate' with ⟨found, hfound, rfl, hfind⟩ | ⟨-, hfind⟩
        · have hsame : some found = some ledger := hfind.symm.trans hfirst
          obtain rfl := Option.some.inj hsame
          exact ⟨hread.named found hfound, rfl,
            fun r hr => mem_log_of_rows ((shows found hfound).mem_iff.mp hr)⟩
        · have hnone : none = some ledger := hfind.symm.trans hfirst
          cases hnone
  · intro id hannounced
    by_cases hpres : id ∈ scan.presented.map (·.id)
    · obtain ⟨ledger, hledger, -, -, ⟨r, hr, hkind, hid⟩, -⟩ := heff.pending id hpres
      exact ⟨ledger.mandate, hread.named ledger hledger, r,
        mem_log_of_rows ((shows ledger hledger).mem_iff.mp hr), hkind, hid⟩
    · rw [announced_cons, List.count_eq_zero_of_not_mem hpres, Nat.zero_add] at hannounced
      exact hinv.announced_log id hannounced
  · intro mandate' hnamed r hr hkind
    have hrow := hinv.row mandate' hnamed r hr hkind
    rcases hcases mandate' with ⟨ledger, hledger, hname, hfind⟩ | ⟨hout, hfind⟩
    · exact hrow.scan_read hinv hnamed hr hkind hread heff hledger hname
        (hname ▸ shows ledger hledger) hfind rfl rfl rfl
    · exact hrow.scan_other hnamed hread heff hout hfind rfl rfl rfl

end Scan

theorem NotifyInv.step {i : NotifyInput} {o : NotifyOutput} (hinv : NotifyInv h s)
    (hstep : NotifyStep bodyOf s i o s') : NotifyInv (⟨s, i, o, s'⟩ :: h) s' := by
  cases hstep with
  | record fresh => exact hinv.record fresh
  | overwrite => exact hinv.overwrite
  | scan readable shows => exact hinv.scans readable shows (deliver_effect _ _ _ readable)

/-- Before the first scan of any rule. -/
theorem NotifyInv.start (hlog : ∀ mandate, ((s₀.log mandate).map (idOf mandate)).Nodup)
    (hstore : ∀ mandate, s₀.seenByMandate mandate = none) : NotifyInv [] s₀ := by
  constructor
  · exact hlog
  · exact fun mandate => iff_of_true (hstore mandate) rfl
  · intro mandate stored hstored
    rw [hstore mandate] at hstored
    cases hstored
  · intro mandate ledger hfirst
    cases hfirst
  · exact fun id h => absurd rfl h
  · intro mandate _ row _ _
    constructor
    · exact Nat.zero_le 1
    · exact fun _ => rfl
    · exact fun _ => rfl
    · intro _
      refine iff_of_false ?_ ?_
      · rintro ⟨stored, hstored, -⟩
        rw [hstore mandate] at hstored
        cases hstored
      · rintro (hone | ⟨ledger, hfirst, -⟩)
        · cases hone
        · cases hfirst

theorem NotifyInv.run (hlog : ∀ mandate, ((s₀.log mandate).map (idOf mandate)).Nodup)
    (hstore : ∀ mandate, s₀.seenByMandate mandate = none)
    (run : Run (NotifyStep bodyOf) s₀ h s) : NotifyInv h s :=
  run.carries (.start hlog hstore) fun _ _ _ _ _ _ hinv hstep => hinv.step hstep

end Runs

/-- **Each payment and each refusal is announced once.**  No id is announced twice; nothing that the
first scan of a rule finds is announced; and what appears later, and is found by a scan in which no
call fails, has been announced once after that scan. -/
theorem notices_exactly_once {bodyOf : NotifyMandateLedger → NotifyLedgerRow → String}
    {s₀ s : NotifyState} {h : NotifyHistory}
    (hlog : ∀ mandate, ((s₀.log mandate).map (idOf mandate)).Nodup)
    (hstore : ∀ mandate, s₀.seenByMandate mandate = none)
    (run : Run (NotifyStep bodyOf) s₀ h s) :
    (∀ id, announced id h ≤ 1) ∧
    (∀ mandate ledger row, firstRead mandate h = some ledger → row ∈ ledger.rows →
      announced (idOf mandate row) h = 0) ∧
    (∀ newer T older ledgers present ledger row seed, h = newer ++ T :: older →
      T.input = .scan ledgers present → T.output.failed = false → ledger ∈ ledgers →
      row ∈ ledger.rows → isNotifiable row.kind = true →
      firstRead ledger.mandate older = some seed → row ∉ seed.rows →
      announced (idOf ledger.mandate row) (T :: older) = 1) := by
  have hinv := NotifyInv.run hlog hstore run
  refine ⟨fun id => ?_, ?_, ?_⟩
  · by_contra hmore
    obtain ⟨mandate, hnamed, row, hrow, hkind, rfl⟩ := hinv.announced_log id (by omega)
    exact hmore (hinv.row mandate hnamed row hrow hkind).once
  · intro mandate ledger row hfirst hrow
    obtain ⟨hnamed, hname, hrows⟩ := hinv.first_log mandate ledger hfirst
    by_contra hannounced
    obtain ⟨other, hother, r, hr, hkind, hid⟩ := hinv.announced_log _ hannounced
    obtain rfl := mandate_of_idOf hnamed hother hid
    obtain rfl := hinv.row_eq (hrows row hrow) hr hid
    refine hannounced ((hinv.row mandate hnamed row hr hkind).seed ⟨ledger, hfirst, row, hrow, hkind, ?_⟩)
    rw [hname]
  · intro newer T older ledgers present ledger row seed hcut hinput hok hledger hrow hkind hseed hnew
    subst hcut
    obtain ⟨before, hstep, -⟩ := run.split
    have hold := NotifyInv.run hlog hstore before
    have hinv' := hold.step hstep
    obtain ⟨pre, input, output, post⟩ := T
    dsimp only at hinput hok hstep
    subst hinput
    cases hstep with
    | scan readable shows =>
        obtain ⟨hnamed, hlogged⟩ : Named ledger.mandate ∧ row ∈ pre.log ledger.mandate :=
          ⟨readable.named ledger hledger,
            mem_log_of_rows ((shows ledger hledger).mem_iff.mp hrow)⟩
        have heff := deliver_effect bodyOf pre.seenByMandate present readable
        obtain ⟨kept, hkept, hmem⟩ := heff.stored ledger hledger
        have hannounces : Announces ledger (idOf ledger.mandate row) := ⟨row, hrow, hkind, rfl⟩
        have hrowInv := hinv'.row ledger.mandate hnamed row hlogged hkind
        have hin := (shows ledger hledger).mem_iff.mp hrow
        -- no call failed: what was not stored is announced now
        have hstored : idOf ledger.mandate row ∈ kept := by
          refine (hmem _).mpr ⟨hannounces, fun previous hprevious => ?_⟩
          by_cases hseen : idOf ledger.mandate row ∈ previous
          · exact .inl hseen
          · exact .inr (heff.all hok _ ⟨ledger, hledger, previous, hprevious, hannounces, hseen⟩)
        refine ((hrowInv.stored hin).mp ⟨kept, hkept, hstored⟩).resolve_right ?_
        rintro ⟨first, hfirst, r, hr, -, hid⟩
        rw [firstRead, hseed] at hfirst
        obtain rfl := Option.some.inj hfirst
        obtain ⟨-, hname, hrows⟩ := hold.first_log ledger.mandate seed hseed
        rw [hname] at hid
        exact hnew (hold.row_eq hlogged (hrows r hr) hid ▸ hr)

/-- The address of a rule names it. -/
theorem named_display (key : Pubkey) : Named key.display.toList :=
  ⟨display_toList_ne_nil key, colon_not_mem_display key⟩

/-! ### A payment after the first scan -/

section Sample

def paidRow : NotifyLedgerRow := ⟨10, Constants.KIND_PAID, 1, 0, 5, 0, none, none, none⟩

def sampleLedger (rows : List NotifyLedgerRow) : NotifyMandateLedger :=
  ⟨['M'], "P", 100, 6, none, none, rows⟩

def emptyState : NotifyState := ⟨fun _ => [], fun _ => 0, fun _ => none⟩

def sampleScan (s : NotifyState) (rows : List NotifyLedgerRow) : NotifyTransition :=
  let scan := deliverDecisionNotices (fun _ _ => "") [sampleLedger rows] s.seenByMandate fun _ => true
  ⟨s, .scan [sampleLedger rows] fun _ => true, ⟨scan.presented, scan.failed⟩,
    { s with seenByMandate := scan.seenByMandate }⟩

def seedScan : NotifyTransition := sampleScan emptyState []

def paidRecord : NotifyTransition :=
  ⟨seedScan.post, .record ['M'] paidRow, ⟨[], false⟩,
    { seedScan.post with log := Function.update seedScan.post.log ['M'] [paidRow] }⟩

def laterScan : NotifyTransition := sampleScan paidRecord.post [paidRow]

theorem sample_readable (rows : List NotifyLedgerRow) : Readable [sampleLedger rows] := by
  constructor
  · intro ledger hledger
    obtain rfl := List.mem_singleton.mp hledger
    exact ⟨List.cons_ne_nil _ _, show ':' ∉ ['M'] by decide⟩
  · exact List.nodup_singleton _

theorem sampleScan_step {s : NotifyState} {rows : List NotifyLedgerRow} (h : s.rows ['M'] = rows) :
    NotifyStep (fun _ _ => "") s (sampleScan s rows).input (sampleScan s rows).output
      (sampleScan s rows).post := by
  refine .scan (sample_readable rows) fun ledger hledger => ?_
  obtain rfl := List.mem_singleton.mp hledger
  exact List.Perm.of_eq h.symm

theorem sample_run :
    Run (NotifyStep fun _ _ => "") emptyState [laterScan, paidRecord, seedScan] laterScan.post := by
  have hrecord : NotifyStep (fun _ _ => "") seedScan.post paidRecord.input paidRecord.output
      paidRecord.post := .record List.not_mem_nil
  exact ((Run.start.next (sampleScan_step rfl)).next hrecord).next (sampleScan_step rfl)

/-- A payment that is recorded after the first scan is announced by the next. -/
theorem notices_exactly_once_sample :
    announced (idOf ['M'] paidRow) [laterScan, paidRecord, seedScan] = 1 := by
  have hlog : ∀ mandate, ((emptyState.log mandate).map (idOf mandate)).Nodup :=
    fun _ => List.nodup_nil
  obtain ⟨-, -, hlater⟩ := notices_exactly_once hlog (fun _ => rfl) sample_run
  exact hlater [] laterScan [paidRecord, seedScan] [sampleLedger [paidRow]] (fun _ => true)
    (sampleLedger [paidRow]) paidRow (sampleLedger []) rfl rfl rfl List.mem_cons_self
    List.mem_cons_self rfl rfl List.not_mem_nil

end Sample

end Veto.App.Notify

import Veto.Foundation.Paging
import Veto.Sdk.Advisory
import Veto.Sdk.Counterparty

/-!
# The decisions of a mandate, page by page

`decisionsForMandate` reads one page of the signatures that touched a mandate.  The walk over
the whole history continues behind the oldest signature of each page.
-/

namespace Veto.Sdk

open Foundation

/-! ## One page -/

def PAGE_MAX : Nat := 1000

def DECISION_FETCH_CONCURRENCY : Nat := 1

inductive ReadError
  | error (message : String)
  | missingListedTransaction (signature : String)
  | rpc (message : String)
  deriving DecidableEq

structure DecisionPage where
  signature : String
  slot : Int
  err : Bool
  blockTime : Option Int

/-- What a node answers about a mandate: the signatures that touched it, newest first, their
transactions, and the agent in its account, each after the retries. -/
structure MandateNode where
  history : List DecisionPage
  transaction : String → Except ReadError (Option RpcTransaction)
  memoAgent : Except ReadError (Option String)

structure DecisionsForMandateOptions where
  pageSize : Option Int
  limit : Option Int
  before : Option String
  until_ : Option String
  concurrency : Option Int

structure MandateDecisions where
  decisions : List Decision
  oldestSignature : Option String
  pageFull : Bool

/-- An option that is a whole number from 1 to a page. -/
def clampOption (name : String) (value : Int) : Except ReadError Nat :=
  if value < 1 ∨ (PAGE_MAX : Int) < value then
    .error (.error s!"decisionsForMandate: {name} must be an integer from 1 to {PAGE_MAX}")
  else .ok value.toNat

def clampPage : Option Int → Except ReadError Nat
  | none => .ok PAGE_MAX
  | some pageSize => clampOption "pageSize" pageSize

/-- Without a limit there is none. -/
def clampLimit : Option Int → Except ReadError (Option Nat)
  | none => .ok none
  | some limit => (clampOption "limit" limit).map some

def clampConcurrency : Option Int → Except ReadError Nat
  | none => .ok DECISION_FETCH_CONCURRENCY
  | some concurrency => clampOption "concurrency" concurrency

def signatureCursor (value : Option String) (name : String) : Except ReadError (Option String) :=
  if value = some "" then .error (.error s!"decisionsForMandate: {name} must be a signature")
  else .ok value

/-- `getSignaturesForAddress`. -/
def MandateNode.signatures (node : MandateNode) (limit : Nat) (before until_ : Option String) :
    List DecisionPage :=
  let rest := behind DecisionPage.signature before node.history
  let rest := match until_ with
    | none => rest
    | some signature => rest.takeWhile (·.signature ≠ signature)
  rest.take limit

structure ListedPage where
  items : List DecisionPage
  pageFull : Bool
  oldestSignature : Option String

/-- The items whose signature has not been seen before. -/
def unseen : List String → List DecisionPage → List DecisionPage
  | _, [] => []
  | seen, item :: items =>
      if item.signature ∈ seen then unseen seen items
      else item :: unseen (item.signature :: seen) items

def listPage (node : MandateNode) (pageSize : Nat) (before until_ : Option String) : ListedPage :=
  let batch := node.signatures pageSize before until_
  { items := unseen [] batch
    pageFull := batch.length = pageSize
    oldestSignature := batch.getLast?.map DecisionPage.signature }

def readTransaction (node : MandateNode) (signature : String) : Except ReadError RpcTransaction := do
  match ← node.transaction signature with
  | some tx => return tx
  | none => throw (.missingListedTransaction signature)

/-- The next items that did not fail, at most so many, and what is left. -/
def nextBatch : Nat → List DecisionPage → List DecisionPage × List DecisionPage
  | 0, items => ([], items)
  | _, [] => ([], [])
  | width + 1, item :: items =>
      if item.err then nextBatch (width + 1) items
      else
        let (batch, rest) := nextBatch width items
        (item :: batch, rest)

theorem length_nextBatch (width : Nat) (items : List DecisionPage) :
    (nextBatch width items).2.length + (nextBatch width items).1.length ≤ items.length := by
  induction items generalizing width with
  | nil => cases width <;> exact Nat.le_refl _
  | cons item items ih =>
      cases width with
      | zero => exact Nat.le_refl _
      | succ width =>
          rw [nextBatch]
          split
          · exact Nat.le_succ_of_le (ih _)
          · have hrest := ih width
            simp only [List.length_cons]
            omega

/-- How many transactions are read together. -/
def batchWidth (limit : Option Nat) (concurrency taken : Nat) : Nat :=
  match limit with
  | none => concurrency
  | some limit => min concurrency (limit - taken)

section Page

variable (platform : Platform) (node : MandateNode) (programId mandate : String)

/-- `agentFor`: only a transaction with a memo asks for the agent. -/
def agentFor (view : TxView) : Except ReadError (Option String) :=
  if ¬ view.instructions.any (·.programId = MEMO_PROGRAM_ID) then .ok none else node.memoAgent

/-- The decisions of one transaction. -/
def decisionsOf (page : DecisionPage) (tx : RpcTransaction) : Except ReadError (List Decision) := do
  let view := viewFromRpc tx page.signature page.slot
  let signer ← agentFor node view
  let found := decisionsFromTx view programId (some mandate)
  return match signer with
    | some signer =>
        if signer = "" then found else found ++ advisoryDecisionsFromTx platform view mandate signer
    | none => found

/-- The loop over a batch that was loaded. -/
def addBatch (limit : Option Nat) :
    List Decision → List (DecisionPage × RpcTransaction) → Except ReadError (List Decision)
  | decisions, [] => .ok decisions
  | decisions, (page, tx) :: batch =>
      if Reached limit decisions.length then .ok decisions
      else do
        let found ← decisionsOf platform node programId mandate page tx
        addBatch limit (decisions ++ found) batch

/-- The loop over the listing. -/
def readPage (limit : Option Nat) (concurrency : Nat) (items : List DecisionPage)
    (decisions : List Decision) : Except ReadError (List Decision) :=
  if items = [] ∨ Reached limit decisions.length then .ok decisions
  else
    let batch := nextBatch (batchWidth limit concurrency decisions.length) items
    if _h : batch.1 = [] then .ok decisions
    else do
      let loaded ← batch.1.mapM fun page => readTransaction node page.signature
      let decisions ← addBatch platform node programId mandate limit decisions (batch.1.zip loaded)
      readPage limit concurrency batch.2 decisions
termination_by items.length
decreasing_by
  have hpos := List.length_pos_of_ne_nil _h
  exact Nat.lt_of_lt_of_le (Nat.lt_add_of_pos_right hpos) (length_nextBatch _ items)

/-- Older first. -/
def compareDecisions (a b : Decision) : Int :=
  let ta := a.timestamp.getD 0
  let tb := b.timestamp.getD 0
  if ta ≠ tb then ta - tb
  else if a.slot ≠ b.slot then a.slot - b.slot
  else if a.nonce ≠ b.nonce then (if a.nonce < b.nonce then -1 else 1)
  else platform.localeCompare a.signature b.signature

/-- `decisions.sort(compareDecisions)`, which is stable. -/
def sortDecisions (decisions : List Decision) : List Decision :=
  decisions.mergeSort fun a b => compareDecisions platform a b ≤ 0

/-- The program is the one that the options name, or `PROGRAM_ID`. -/
def decisionsForMandate (options : DecisionsForMandateOptions) : Except ReadError MandateDecisions := do
  let pageSize ← clampPage options.pageSize
  let limit ← clampLimit options.limit
  let before ← signatureCursor options.before "before"
  let until_ ← signatureCursor options.until_ "until"
  let concurrency ← clampConcurrency options.concurrency
  let listed := listPage node pageSize before until_
  let decisions ← readPage platform node programId mandate limit
    concurrency listed.items []
  return {
    decisions := sortDecisions platform decisions
    oldestSignature := listed.oldestSignature
    pageFull := listed.pageFull }

end Page

/-! ## Every transaction readable -/

section Readable

variable (platform : Platform) (node : MandateNode) (programId mandate : String)

/-- The history lists each signature once, and everything behind it can be read. -/
structure MandateNode.Readable (node : MandateNode) : Prop where
  once : (node.history.map DecisionPage.signature).Nodup
  named : ∀ page ∈ node.history, page.signature ≠ ""
  bodies : ∀ page ∈ node.history, page.err = false →
    ∃ tx, node.transaction page.signature = .ok (some tx)
  agent : ∃ agent, node.memoAgent = .ok agent

/-- The decisions of a listed signature. -/
def decisionsAt (page : DecisionPage) : List Decision :=
  if page.err then []
  else
    match readTransaction node page.signature >>= decisionsOf platform node programId mandate page
    with
    | .ok found => found
    | .error _ => []

variable {platform node programId mandate}

theorem decisionsAt_failed {page : DecisionPage} (h : page.err = true) :
    decisionsAt platform node programId mandate page = [] := by
  unfold decisionsAt
  rw [if_pos h]

variable (platform programId mandate) in
/-- A transaction that can be read gives its decisions. -/
theorem decisionsAt_read (hread : node.Readable) {page : DecisionPage}
    (hpage : page ∈ node.history) (herr : page.err = false) :
    ∃ tx, readTransaction node page.signature = .ok tx ∧
      decisionsOf platform node programId mandate page tx =
        .ok (decisionsAt platform node programId mandate page) := by
  obtain ⟨tx, htx⟩ := hread.bodies page hpage herr
  obtain ⟨agent, hagent⟩ := hread.agent
  have hload : readTransaction node page.signature = .ok tx := by
    unfold readTransaction
    rw [htx]
    rfl
  have hsigner : ∃ signer, agentFor node (viewFromRpc tx page.signature page.slot) = .ok signer := by
    unfold agentFor
    split
    · exact ⟨none, rfl⟩
    · exact ⟨agent, hagent⟩
  obtain ⟨signer, hsigner⟩ := hsigner
  refine ⟨tx, hload, ?_⟩
  unfold decisionsAt
  rw [herr, if_neg Bool.false_ne_true, hload, ok_bind]
  unfold decisionsOf
  simp only [hsigner, ok_bind]
  rfl

theorem upTo_nil_cons {δ : Type} (limit : Option Nat) (taken : Nat) (groups : List (List δ)) :
    upTo limit taken ([] :: groups) = upTo limit taken groups := by
  rw [upTo]
  split
  · rename_i h
    rw [upTo_reached h]
  · rw [List.length_nil, Nat.add_zero, List.nil_append]

/-- Failed signatures are passed over, and nothing else. -/
theorem upTo_nextBatch (limit : Option Nat) (taken width : Nat) (items : List DecisionPage) :
    upTo limit taken (items.map (decisionsAt platform node programId mandate)) =
      upTo limit taken (((nextBatch width items).1 ++ (nextBatch width items).2).map
        (decisionsAt platform node programId mandate)) := by
  induction items generalizing taken width with
  | nil => cases width <;> rfl
  | cons item items ih =>
      cases width with
      | zero => rfl
      | succ width =>
          rw [nextBatch]
          split
          · rename_i herr
            rw [List.map_cons, decisionsAt_failed herr, upTo_nil_cons, ih]
          · dsimp only
            rw [List.map_cons, List.cons_append, List.map_cons, upTo, upTo]
            split
            · rfl
            · rw [ih]

theorem nextBatch_mem (width : Nat) (items : List DecisionPage) :
    (∀ page ∈ (nextBatch width items).1, page ∈ items ∧ page.err = false) ∧
      ∀ page ∈ (nextBatch width items).2, page ∈ items := by
  induction items generalizing width with
  | nil => cases width <;> exact ⟨nofun, nofun⟩
  | cons item items ih =>
      cases width with
      | zero => exact ⟨nofun, fun _ h => h⟩
      | succ width =>
          rw [nextBatch]
          split
          · obtain ⟨hbatch, hrest⟩ := ih (width + 1)
            exact ⟨fun page h => ⟨List.mem_cons_of_mem _ (hbatch page h).1, (hbatch page h).2⟩,
              fun page h => List.mem_cons_of_mem _ (hrest page h)⟩
          · rename_i herr
            obtain ⟨hbatch, hrest⟩ := ih width
            refine ⟨?_, fun page h => List.mem_cons_of_mem _ (hrest page h)⟩
            intro page h
            rcases List.mem_cons.mp h with rfl | h
            · exact ⟨List.mem_cons_self, by simpa using herr⟩
            · exact ⟨List.mem_cons_of_mem _ (hbatch page h).1, (hbatch page h).2⟩

/-- An empty batch has nothing behind it. -/
theorem nextBatch_nil {width : Nat} {items : List DecisionPage}
    (h : (nextBatch (width + 1) items).1 = []) : (nextBatch (width + 1) items).2 = [] := by
  induction items with
  | nil => rfl
  | cons item items ih =>
      rw [nextBatch] at h ⊢
      split at h
      · rename_i herr
        rw [if_pos herr]
        exact ih h
      · cases h

theorem addBatch_upTo {limit : Option Nat} {decisions : List Decision}
    {batch : List (DecisionPage × RpcTransaction)}
    (h : ∀ loaded ∈ batch, decisionsOf platform node programId mandate loaded.1 loaded.2 =
      .ok (decisionsAt platform node programId mandate loaded.1)) :
    addBatch platform node programId mandate limit decisions batch =
      .ok (decisions ++ upTo limit decisions.length
        ((batch.map Prod.fst).map (decisionsAt platform node programId mandate))) := by
  induction batch generalizing decisions with
  | nil => rw [addBatch, List.map_nil, List.map_nil, upTo, List.append_nil]
  | cons loaded batch ih =>
      obtain ⟨page, tx⟩ := loaded
      have hpage := h (page, tx) List.mem_cons_self
      rw [addBatch, List.map_cons, List.map_cons, upTo]
      split
      · rw [List.append_nil]
      · rw [hpage, ok_bind, ih fun loaded hloaded => h loaded (List.mem_cons_of_mem _ hloaded),
          List.append_assoc, List.length_append]

variable (platform programId mandate) in
/-- A batch is loaded, and each of its transactions gives its decisions. -/
theorem loadBatch (hread : node.Readable) {batch : List DecisionPage}
    (h : ∀ page ∈ batch, page ∈ node.history ∧ page.err = false) :
    ∃ loaded, batch.mapM (fun page => readTransaction node page.signature) = .ok loaded ∧
      (batch.zip loaded).map Prod.fst = batch ∧
      ∀ pair ∈ batch.zip loaded, decisionsOf platform node programId mandate pair.1 pair.2 =
        .ok (decisionsAt platform node programId mandate pair.1) := by
  induction batch with
  | nil => exact ⟨[], rfl, rfl, nofun⟩
  | cons page batch ih =>
      obtain ⟨hpage, herr⟩ := h page List.mem_cons_self
      obtain ⟨tx, hload, hfound⟩ := decisionsAt_read platform programId mandate hread hpage herr
      obtain ⟨loaded, hmap, hfst, hall⟩ := ih fun other hother => h other (List.mem_cons_of_mem _ hother)
      refine ⟨tx :: loaded, ?_, ?_, ?_⟩
      · rw [List.mapM_cons, hload, hmap]
        rfl
      · rw [List.zip_cons_cons, List.map_cons, hfst]
      · exact List.forall_mem_cons.mpr ⟨hfound, hall⟩

/-- The batches of a page take what the limit allows, whatever their width.  Induction on the
loop: a batch that is not empty is a part of what is left. -/
theorem readPage_upTo (hread : node.Readable) {limit : Option Nat} {concurrency : Nat}
    (hconcurrency : 0 < concurrency) {items : List DecisionPage}
    (hitems : ∀ page ∈ items, page ∈ node.history) (decisions : List Decision) :
    readPage platform node programId mandate limit concurrency items decisions =
      .ok (decisions ++ upTo limit decisions.length
        (items.map (decisionsAt platform node programId mandate))) := by
  induction hlength : items.length using Nat.strong_induction_on generalizing items decisions with
  | _ length ih =>
      rw [readPage]
      by_cases hstop : items = [] ∨ Reached limit decisions.length
      · rw [if_pos hstop]
        rcases hstop with hnil | hreached
        · rw [hnil, List.map_nil, upTo, List.append_nil]
        · rw [upTo_reached hreached, List.append_nil]
      · rw [if_neg hstop]
        obtain ⟨hitems', hroom⟩ := not_or.mp hstop
        obtain ⟨width, hwidth⟩ : ∃ width,
            batchWidth limit concurrency decisions.length = width + 1 := by
          apply Nat.exists_eq_add_one.mpr
          cases limit with
          | none => exact hconcurrency
          | some most =>
              have hmost : decisions.length < most := by
                by_contra hle
                exact hroom ⟨most, rfl, by omega⟩
              exact Nat.lt_min.mpr ⟨hconcurrency, by omega⟩
        dsimp only
        rw [hwidth, upTo_nextBatch limit decisions.length (width + 1) items]
        obtain ⟨hbatch, hrest⟩ := nextBatch_mem (width + 1) items
        by_cases hnil : (nextBatch (width + 1) items).1 = []
        · rw [dif_pos hnil, hnil, nextBatch_nil hnil, List.nil_append, List.map_nil, upTo,
            List.append_nil]
        · obtain ⟨loaded, hload, hfst, hfound⟩ := loadBatch platform programId mandate hread
            fun page hpage => ⟨hitems page (hbatch page hpage).1, (hbatch page hpage).2⟩
          have hshorter : (nextBatch (width + 1) items).2.length < length := by
            have hle := length_nextBatch (width + 1) items
            have hpos := List.length_pos_of_ne_nil hnil
            omega
          rw [dif_neg hnil, hload, ok_bind, addBatch_upTo hfound, ok_bind, hfst,
            ih _ hshorter (fun page hpage => hitems page (hrest page hpage)) _ rfl,
            List.map_append, upTo_append, List.length_append, List.append_assoc]

/-! ## The walk -/

theorem unseen_nodup {seen : List String} {items : List DecisionPage}
    (hitems : (items.map DecisionPage.signature).Nodup)
    (hseen : ∀ item ∈ items, item.signature ∉ seen) : unseen seen items = items := by
  induction items generalizing seen with
  | nil => rfl
  | cons item items ih =>
      obtain ⟨hfirst, hrest⟩ := List.nodup_cons.mp hitems
      rw [unseen, if_neg (hseen item List.mem_cons_self), ih hrest]
      intro other hother
      rw [List.mem_cons, not_or]
      exact ⟨fun hsame => hfirst (hsame ▸ List.mem_map_of_mem hother),
        hseen other (List.mem_cons_of_mem _ hother)⟩

variable (node) in
theorem signatures_sublist (pageSize : Nat) (before : Option String) :
    (node.signatures pageSize before none).Sublist node.history := by
  have hbehind : (behind DecisionPage.signature before node.history).Sublist node.history := by
    cases before with
    | none => exact .refl _
    | some signature =>
        exact (List.drop_sublist _ _).trans (List.dropWhile_sublist _)
  exact (List.take_sublist _ _).trans hbehind

/-- What the walk asks for, page after page. -/
def callPage (platform : Platform) (node : MandateNode) (programId mandate : String)
    (options : DecisionsForMandateOptions) (before : Option String) :
    Except ReadError (Page Decision String) :=
  (decisionsForMandate platform node programId mandate { options with before }).map fun page =>
    { items := page.decisions, oldest := page.oldestSignature, full := page.pageFull }

/-- What is given of the signatures of a page. -/
def readOf (platform : Platform) (node : MandateNode) (programId mandate : String)
    (limit : Option Nat) (batch : List DecisionPage) : List Decision :=
  sortDecisions platform
    (upTo limit 0 (batch.map (decisionsAt platform node programId mandate)))

theorem readOf_perm (limit : Option Nat) (batch : List DecisionPage) :
    (readOf platform node programId mandate limit batch).Perm
      (upTo limit 0 (batch.map (decisionsAt platform node programId mandate))) :=
  List.mergeSort_perm _ _

variable {options : DecisionsForMandateOptions} {size concurrency : Nat} {limit : Option Nat}

/-- A page of a history that can be read. -/
theorem callPage_eq (hread : node.Readable) (hsize : clampPage options.pageSize = .ok size)
    (hlimit : clampLimit options.limit = .ok limit)
    (hconcurrency : clampConcurrency options.concurrency = .ok concurrency)
    (hwidth : 0 < concurrency) (huntil : options.until_ = none)
    {before : Option String} (hbefore : before ≠ some "") :
    callPage platform node programId mandate options before =
      .ok (pageOf DecisionPage.signature size
        (readOf platform node programId mandate limit)
        ((behind DecisionPage.signature before node.history).take size)) := by
  have hbatch : node.signatures size before none =
      (behind DecisionPage.signature before node.history).take size := rfl
  have hsub := signatures_sublist node size before
  have hcursor : signatureCursor before "before" = .ok before := by
    unfold signatureCursor
    rw [if_neg hbefore]
  have hitems : unseen [] (node.signatures size before none) = node.signatures size before none :=
    unseen_nodup (hread.once.sublist (hsub.map _)) fun _ _ => List.not_mem_nil
  have hpage : readPage platform node programId mandate limit concurrency
      (node.signatures size before none) [] = _ :=
    readPage_upTo hread hwidth (fun page hpage => hsub.subset hpage) []
  unfold callPage decisionsForMandate
  dsimp only
  rw [hsize, ok_bind, hlimit, ok_bind, hcursor, ok_bind, huntil]
  unfold listPage
  dsimp only
  rw [show signatureCursor none "until" = .ok none from rfl, ok_bind, hconcurrency, ok_bind,
    hitems, hpage, ok_bind, hbatch]
  rfl

end Readable

/-- A number from 1 to a page is taken, any other is refused. -/
theorem clampOption_eq_ok {name : String} {value : Int} {n : Nat} :
    clampOption name value = .ok n ↔ 1 ≤ n ∧ n ≤ PAGE_MAX ∧ value = n := by
  unfold clampOption
  split
  · refine iff_of_false nofun ?_
    rintro ⟨hone, hmax, rfl⟩
    omega
  · constructor
    · intro h
      cases h
      omega
    · rintro ⟨-, -, rfl⟩
      rfl

theorem clampPage_pos {pageSize : Option Int} {size : Nat} (h : clampPage pageSize = .ok size) :
    0 < size := by
  cases pageSize with
  | none =>
      cases h
      decide
  | some value => exact (clampOption_eq_ok.mp h).1

theorem clampConcurrency_pos {value : Option Int} {concurrency : Nat}
    (h : clampConcurrency value = .ok concurrency) : 0 < concurrency := by
  cases value with
  | none =>
      cases h
      decide
  | some value => exact (clampOption_eq_ok.mp h).1

/-- The decisions of a history are those of its pages. -/
theorem decisions_pagesOf (size : Nat) (history : List DecisionPage)
    (found : DecisionPage → List Decision) :
    history.flatMap found = (pagesOf size history).flatMap fun page => (page.map found).flatten := by
  conv_lhs => rw [← flatten_pagesOf size history]
  rw [List.flatMap_def, List.map_flatten, List.flatten_flatten, List.map_map, List.flatMap_def]
  rfl

section Walked

variable {platform : Platform} {node : MandateNode} {programId mandate : String}
  {options : DecisionsForMandateOptions} {size concurrency : Nat} {limit : Option Nat}

/-- The pages that are walked. -/
def walked (platform : Platform) (node : MandateNode) (programId mandate : String) (size : Nat)
    (limit : Option Nat) : List (Page Decision String) :=
  (pagesOf size node.history).map
    (pageOf DecisionPage.signature size (readOf platform node programId mandate limit))

theorem walk_walked (hread : node.Readable) (hsize : clampPage options.pageSize = .ok size)
    (hlimit : clampLimit options.limit = .ok limit)
    (hconcurrency : clampConcurrency options.concurrency = .ok concurrency)
    (huntil : options.until_ = none) (pages : List (Page Decision String)) :
    Walk (callPage platform node programId mandate options) none pages ↔
      pages = walked platform node programId mandate size limit := by
  refine walk_iff (clampPage_pos hsize) hread.once ?_ pages
  intro before hknown
  refine callPage_eq hread hsize hlimit hconcurrency (clampConcurrency_pos hconcurrency) huntil ?_
  rintro rfl
  obtain ⟨page, hpage, hempty⟩ := List.mem_map.mp (hknown "" rfl)
  exact hread.named page hpage hempty

/-- Up to their order, what the pages give. -/
theorem walked_items (size : Nat) (limit : Option Nat) :
    ((walked platform node programId mandate size limit).flatMap Page.items).Perm
      ((pagesOf size node.history).flatMap fun page =>
        upTo limit 0 (page.map (decisionsAt platform node programId mandate))) := by
  unfold walked
  rw [List.flatMap_map]
  exact List.Perm.flatMap_left _ fun page _ => readOf_perm limit page

theorem walked_sublist (size : Nat) (limit : Option Nat) :
    ∀ page ∈ pagesOf size node.history,
      (upTo limit 0 (page.map (decisionsAt platform node programId mandate))).Sublist
        (page.map (decisionsAt platform node programId mandate)).flatten :=
  fun _ _ => upTo_sublist limit 0 _

theorem walked_subperm (size : Nat) (limit : Option Nat) :
    ((walked platform node programId mandate size limit).flatMap Page.items).Subperm
      (node.history.flatMap (decisionsAt platform node programId mandate)) := by
  rw [decisions_pagesOf size]
  exact (walked_items size limit).subperm.trans
    (flatMap_sublist (walked_sublist size limit)).subperm

theorem walked_perm_iff (size : Nat) (limit : Option Nat) :
    ((walked platform node programId mandate size limit).flatMap Page.items).Perm
        (node.history.flatMap (decisionsAt platform node programId mandate)) ↔
      ∀ page ∈ pagesOf size node.history,
        NothingBehind limit 0 (page.map (decisionsAt platform node programId mandate)) := by
  rw [(walked_items size limit).congr_left, decisions_pagesOf size,
    flatMap_perm_iff (walked_sublist size limit)]
  exact forall₂_congr fun page _ => upTo_eq_flatten_iff

end Walked

/-- The walk over a history gives each decision at most once and no other, and it gives all of
them exactly when no page has a decision behind the place where its limit is reached, as when
there is no limit. -/
theorem walk_exact_iff (platform : Platform) (node : MandateNode) (programId mandate : String)
    (hread : node.Readable) (options : DecisionsForMandateOptions) (size concurrency : Nat)
    (limit : Option Nat) (hsize : clampPage options.pageSize = .ok size)
    (hlimit : clampLimit options.limit = .ok limit)
    (hconcurrency : clampConcurrency options.concurrency = .ok concurrency)
    (huntil : options.until_ = none) :
    ∃ pages, (∀ walked, Walk (callPage platform node programId mandate options) none walked ↔
        walked = pages) ∧
      (pages.flatMap Page.items).Subperm
        (node.history.flatMap (decisionsAt platform node programId mandate)) ∧
      ((pages.flatMap Page.items).Perm
          (node.history.flatMap (decisionsAt platform node programId mandate)) ↔
        ∀ page ∈ pagesOf size node.history,
          NothingBehind limit 0 (page.map (decisionsAt platform node programId mandate))) ∧
      (options.limit = none → (pages.flatMap Page.items).Perm
        (node.history.flatMap (decisionsAt platform node programId mandate))) := by
  refine ⟨walked platform node programId mandate size limit,
    walk_walked hread hsize hlimit hconcurrency huntil, walked_subperm size limit,
    walked_perm_iff size limit, ?_⟩
  intro hnone
  rw [hnone] at hlimit
  cases hlimit
  exact (walked_perm_iff size none).mpr fun page _ => nothingBehind_none

/-! ### Two payments -/

section Sample

def samplePlatform : Platform where
  parseJson _ := none
  publicKey _ := none
  localeCompare _ _ := 0

/-- Two signatures, each of one payment. -/
def sampleNode : MandateNode where
  history := [⟨"5h", 6, false, some 21⟩, ⟨"3k", 5, false, some 20⟩]
  transaction _ := .ok (some (answer [Service.paidCall]))
  memoAgent := .ok none

def sampleMandate : String := (okValue sampleOpen sampleOpen_ok).2.key.display

def sampleFound (page : DecisionPage) : List Decision :=
  decisionsAt samplePlatform sampleNode (String.ofList Service.PROGRAM_ID.chars) sampleMandate page

def sampleOptions (limit : Option Int) : DecisionsForMandateOptions where
  pageSize := some 2
  limit := limit
  before := none
  until_ := none
  concurrency := none

theorem sampleNode_readable : sampleNode.Readable where
  once := by decide
  named := by decide
  bodies _ _ _ := ⟨_, rfl⟩
  agent := ⟨none, rfl⟩

theorem sampleFound_length : sampleNode.history.map (fun page => (sampleFound page).length) =
    [1, 1] := by decide +kernel

/-- A limit of one drops the older payment. -/
theorem limited_walk_drops :
    ∃ pages, Walk (callPage samplePlatform sampleNode (String.ofList Service.PROGRAM_ID.chars)
        sampleMandate (sampleOptions (some 1))) none pages ∧
      ¬ (pages.flatMap Page.items).Perm (sampleNode.history.flatMap sampleFound) := by
  have hsize : clampPage (sampleOptions (some 1)).pageSize = .ok 2 := rfl
  have hlimit : clampLimit (sampleOptions (some 1)).limit = .ok (some 1) := rfl
  refine ⟨_, (walk_walked sampleNode_readable hsize hlimit rfl rfl _).mpr rfl, ?_⟩
  unfold sampleFound
  rw [walked_perm_iff]
  intro hall
  have hpages : pagesOf 2 sampleNode.history = [sampleNode.history, []] := by
    rw [pagesOf_full (by decide) (by decide), pagesOf_last (by decide)]
    rfl
  rw [hpages] at hall
  have hbehind := hall _ List.mem_cons_self [sampleFound ⟨"5h", 6, false, some 21⟩]
    [sampleFound ⟨"3k", 5, false, some 20⟩] rfl
  have hlengths := sampleFound_length
  simp only [sampleNode, List.map_cons, List.map_nil, List.cons.injEq, and_true] at hlengths
  rw [List.flatten_singleton, List.flatten_singleton, hlengths.1] at hbehind
  have hnone := hbehind ⟨1, rfl, by decide⟩
  rw [hnone] at hlengths
  exact absurd hlengths.2 (by decide)

/-- Without the limit both payments are given. -/
theorem walk_exact_iff_sample :
    ∃ pages, Walk (callPage samplePlatform sampleNode (String.ofList Service.PROGRAM_ID.chars)
        sampleMandate (sampleOptions none)) none pages ∧
      (pages.flatMap Page.items).Perm (sampleNode.history.flatMap
        (decisionsAt samplePlatform sampleNode (String.ofList Service.PROGRAM_ID.chars)
          sampleMandate)) := by
  obtain ⟨pages, hwalk, -, -, hall⟩ := walk_exact_iff samplePlatform sampleNode
    (String.ofList Service.PROGRAM_ID.chars) sampleMandate sampleNode_readable (sampleOptions none)
    2 1 none rfl rfl rfl rfl
  exact ⟨pages, (hwalk pages).mpr rfl, hall rfl⟩

end Sample

end Veto.Sdk

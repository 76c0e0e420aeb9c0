import Veto.Indexer.History

/-!
# No missing body is read as an empty one

What a history that is returned says about every listed signature: its log was there and was
decoded, or its body shows that the program was not invoked.
-/

namespace Veto.Indexer

open Foundation

/-! ## What a body shows -/

/-- A transaction as it ran: its account keys, and the program index of each instruction. -/
structure Executed where
  keys : List String
  top : List Nat
  inner : List Nat

def Executed.Invokes (executed : Executed) (program : String) : Prop :=
  ∃ i ∈ executed.top ++ executed.inner, executed.keys[i]? = some program

/-- What the body says of the transaction is true: its top-level instructions, its keys where all
that it declares are there, and its inner instructions where a list of them is. -/
structure Shows (tx : TransactionResponse) (executed : Executed) : Prop where
  top : topIndexes tx.message = executed.top
  keys : version0LookupsUnresolved tx.message tx.version = false →
    declaredAccountCount tx.message ≤ (accountKeyList tx.message tx.meta_).length →
    accountKeyList tx.message tx.meta_ = executed.keys
  inner : ∀ groups, tx.meta_.bind MetaLike.innerInstructions = some groups →
    innerIndexes tx.meta_ = executed.inner

/-- **A checked absence.**  Where a body without a log is not held to be missing one, and does not
say that the transaction failed, the program was not invoked. -/
theorem not_invoked_of_shows {tx : TransactionResponse} {program : String} {executed : Executed}
    (hlisted : nullLogBodyInvokesProgram tx.message tx.meta_ program tx.version true = false)
    (herr : metaErr tx.meta_ = false) (hlog : logBody tx.meta_ = none) (hshows : Shows tx executed) :
    ¬ executed.Invokes program := by
  rw [nullLogBodyInvokesProgram, herr, hlog] at hlisted
  simp only [Option.isSome_none, Bool.false_eq_true, if_false] at hlisted
  cases hlookups : version0LookupsUnresolved tx.message tx.version with
  | true => rw [hlookups, if_pos rfl] at hlisted; cases hlisted
  | false =>
  cases hindex : unresolvedProgramIndex tx.message tx.meta_ with
  | true => rw [hlookups, hindex] at hlisted; cases hlisted
  | false =>
  cases hinvokes : transactionInvokesProgram tx.message tx.meta_ program with
  | true => rw [hlookups, hindex, hinvokes] at hlisted; cases hlisted
  | false =>
  rw [hlookups, hindex, hinvokes] at hlisted
  simp only [Bool.false_eq_true, if_false] at hlisted
  rw [unresolvedProgramIndex, Bool.or_eq_false_iff, Bool.or_eq_false_iff, decide_eq_false_iff_not,
    not_lt] at hindex
  have hkeys := hshows.keys hlookups hindex.1.1
  rw [transactionInvokesProgram, Bool.or_eq_false_iff, List.any_eq_false, List.any_eq_false]
    at hinvokes
  have hnone : ∀ i, executed.keys[i]? = some program →
      (accountKeyList tx.message tx.meta_).getD i "" = program := by
    intro i hi
    rw [hkeys, List.getD_eq_getElem?_getD, hi, Option.getD_some]
  rintro ⟨i, hi, hprogram⟩
  rcases List.mem_append.mp hi with htop | hinner
  · rw [← hshows.top] at htop
    exact hinvokes.1 i htop (decide_eq_true (hnone i hprogram))
  · -- a program that runs inside is among the keys, so the list of inner instructions is there
    have hlists : listsProgram tx.message tx.meta_ program = true := by
      rw [listsProgram, hkeys]
      exact decide_eq_true (List.mem_of_getElem? hprogram)
    cases hgroups : tx.meta_.bind MetaLike.innerInstructions with
    | none =>
        rw [hgroups, hlists] at hlisted
        cases hlisted
    | some groups =>
        rw [← hshows.inner groups hgroups] at hinner
        exact hinvokes.2 i hinner (decide_eq_true (hnone i hprogram))

/-! ## One body -/

section Fetch

variable {isRetryable : RpcError → Bool} {bs58 : String → Option Bytes} {node : HistoryNode}
  {programId : String} {window : TimeWindow}

/-- Nothing that was gathered is lost. -/
structure Bodies.Within (a b : Bodies) : Prop where
  views : ∀ view ∈ a.views, view ∈ b.views
  missing : ∀ signature ∈ a.missing, signature ∈ b.missing
  nullLogs : ∀ signature ∈ a.nullLogs, signature ∈ b.nullLogs

theorem Bodies.Within.refl (a : Bodies) : a.Within a := ⟨fun _ h => h, fun _ h => h, fun _ h => h⟩

theorem Bodies.Within.trans {a b c : Bodies} (h : a.Within b) (h' : b.Within c) : a.Within c :=
  ⟨fun x hx => h'.views x (h.views x hx), fun x hx => h'.missing x (h.missing x hx),
    fun x hx => h'.nullLogs x (h.nullLogs x hx)⟩

/-- How the body of a signature was read. -/
inductive BodyRead (bs58 : String → Option Bytes) (node : HistoryNode) (programId : String)
    (page : SignaturePage) (bodies : Bodies) : Prop
  | missing (h : page.signature ∈ bodies.missing)
  | nullLog (h : page.signature ∈ bodies.nullLogs)
  | read (tx : TransactionResponse) (attempt : Nat) (view : Option TxView)
      (answered : node.transaction page.signature attempt = .ok (some tx))
      (listed : nullLogBodyInvokesProgram tx.message tx.meta_ programId tx.version true = false)
      (viewed : txToView bs58 programId tx page.signature page.slot = .ok view)
      (kept : ∀ v ∈ view, v ∈ bodies.views)

theorem BodyRead.later {page : SignaturePage} {a b : Bodies}
    (h : BodyRead bs58 node programId page a) (hwithin : a.Within b) :
    BodyRead bs58 node programId page b := by
  cases h with
  | missing h => exact .missing (hwithin.missing _ h)
  | nullLog h => exact .nullLog (hwithin.nullLogs _ h)
  | read tx attempt view answered listed viewed kept =>
      exact .read tx attempt view answered listed viewed fun v hv => hwithin.views v (kept v hv)

theorem fetchBody_within {bodies bodies' : Bodies} {page : SignaturePage}
    (h : fetchBody isRetryable bs58 node programId window bodies page = .ok bodies') :
    bodies.Within bodies' ∧ (page.err = false → outsideWindow page.blockTime window = false →
      BodyRead bs58 node programId page bodies') := by
  unfold fetchBody at h
  cases herr : page.err with
  | true =>
      rw [herr] at h
      cases h
      exact ⟨.refl bodies, fun h => nomatch h⟩
  | false =>
  cases houtside : outsideWindow page.blockTime window with
  | true =>
      rw [herr, houtside] at h
      cases h
      exact ⟨.refl bodies, fun _ h => nomatch h⟩
  | false =>
  rw [herr, houtside] at h
  obtain ⟨answer, hanswer, h⟩ := bind_ok_iff.mp h
  obtain ⟨attempt, hattempt⟩ := withRetry_ok isRetryable hanswer
  cases answer with
  | none =>
      cases h
      exact ⟨⟨fun _ h => h, fun _ h => List.mem_append_left _ h, fun _ h => h⟩,
        fun _ _ => .missing (by simp)⟩
  | some tx =>
      cases hnull : nullLogBodyInvokesProgram tx.message tx.meta_ programId tx.version true with
      | true =>
          dsimp only at h
          rw [hnull] at h
          cases h
          exact ⟨⟨fun _ h => h, fun _ h => h, fun _ h => List.mem_append_left _ h⟩,
            fun _ _ => .nullLog (by simp)⟩
      | false =>
          dsimp only at h
          rw [hnull] at h
          obtain ⟨view, hview, h⟩ := bind_ok_iff.mp h
          cases h
          refine ⟨⟨fun _ h => List.mem_append_left _ h, fun _ h => h, fun _ h => h⟩, fun _ _ => ?_⟩
          exact .read tx attempt view hattempt hnull hview fun v hv =>
            List.mem_append_right _ (Option.mem_toList.mpr hv)

/-- The loop: nothing is lost on the way, and every signature of the window that did not fail is
read. -/
theorem fetchBodies_within {pages : List SignaturePage} {bodies bodies' : Bodies}
    (h : pages.foldlM (fetchBody isRetryable bs58 node programId window) bodies = .ok bodies') :
    bodies.Within bodies' ∧ ∀ page ∈ pages, page.err = false →
      outsideWindow page.blockTime window = false → BodyRead bs58 node programId page bodies' := by
  induction pages generalizing bodies with
  | nil =>
      cases h
      exact ⟨.refl _, fun _ h => nomatch h⟩
  | cons page pages ih =>
      rw [List.foldlM_cons] at h
      obtain ⟨next, hnext, h⟩ := bind_ok_iff.mp h
      obtain ⟨hstep, hread⟩ := fetchBody_within hnext
      obtain ⟨hrest, hlater⟩ := ih h
      refine ⟨hstep.trans hrest, fun other hother herr hinside => ?_⟩
      rcases List.mem_cons.mp hother with rfl | hother
      · exact (hread herr hinside).later hrest
      · exact hlater other hother herr hinside

/-- A history is returned only when no body was missing. -/
theorem fetchTransactions_read {pages : List SignaturePage} {bodies : Bodies}
    (h : fetchTransactions isRetryable bs58 node programId pages window = .ok bodies)
    {page : SignaturePage} (hpage : page ∈ pages) (herr : page.err = false)
    (hinside : outsideWindow page.blockTime window = false) :
    ∃ tx attempt view, node.transaction page.signature attempt = .ok (some tx) ∧
      nullLogBodyInvokesProgram tx.message tx.meta_ programId tx.version true = false ∧
      txToView bs58 programId tx page.signature page.slot = .ok view ∧
      ∀ v ∈ view, v ∈ bodies.views := by
  unfold fetchTransactions at h
  obtain ⟨gathered, hgathered, h⟩ := bind_ok_iff.mp h
  have hnull : gathered.nullLogs = [] := by
    by_contra hne
    rw [if_pos hne] at h
    cases h
  have hmissing : gathered.missing = [] := by
    by_contra hne
    rw [if_neg (not_not_intro hnull), if_pos hne] at h
    cases h
  rw [if_neg (not_not_intro hnull), if_neg (not_not_intro hmissing)] at h
  cases h
  cases (fetchBodies_within hgathered).2 page hpage herr hinside with
  | missing h => rw [hmissing] at h; cases h
  | nullLog h => rw [hnull] at h; cases h
  | read tx attempt view answered listed viewed kept =>
      exact ⟨tx, attempt, view, answered, listed, viewed, kept⟩

theorem not_outside_of_wanted {listing : List SignaturePage} {page : SignaturePage}
    (h : page ∈ wanted window listing) : outsideWindow page.blockTime window = false := by
  rw [wanted, List.mem_filter, mem_takeWhile_iff] at h
  obtain ⟨⟨front, back, -, -, hbefore⟩, hbehind⟩ := h
  rw [decide_eq_true_eq] at hbefore hbehind
  cases htime : page.blockTime with
  | none => rfl
  | some time =>
      rw [outsideWindow, Bool.or_eq_false_iff]
      constructor
      · rw [← Bool.not_eq_true, Option.any_eq_true]
        rintro ⟨start, hstart, hlt⟩
        exact hbefore ⟨start, hstart, time, htime, of_decide_eq_true hlt⟩
      · rw [← Bool.not_eq_true, Option.any_eq_true]
        rintro ⟨finish, hfinish, hlt⟩
        exact hbehind ⟨finish, hfinish, time, htime, of_decide_eq_true hlt⟩

/-- A body with a log is one view, with that log. -/
theorem view_of_log {tx : TransactionResponse} {signature : String} {slot : Int}
    {view : Option TxView} {logs : List Text} (hsignature : signature ≠ "")
    (hview : txToView bs58 programId tx signature slot = .ok view)
    (hlog : logBody tx.meta_ = some logs) :
    ∃ v, view = some v ∧ v.signature = signature ∧ v.logs = logs ∧ v.err = metaErr tx.meta_ := by
  unfold txToView at hview
  rw [if_neg hsignature, hlog] at hview
  split at hview
  · cases hview
  · cases hview
    exact ⟨_, rfl, rfl, rfl, rfl⟩

end Fetch

/-! ## The history -/

theorem one_le_clampPageSize (pageSize : Option ℚ) : 1 ≤ clampPageSize pageSize := by
  unfold clampPageSize
  split
  · decide
  · split_ifs <;> omega

/-- What is known of the body of a listed signature in a history that was returned. -/
inductive BodyKnown (bs58 : String → Option Bytes) (programId : String) (mandate : Option String)
    (page : SignaturePage) (result : HistoryResult) (tx : TransactionResponse) : Prop
  /-- Its log was there: the decisions in it are in the history, and where the runtime cut it, the
  history says so. -/
  | decoded (view : TxView)
      (viewed : txToView bs58 programId tx page.signature page.slot = .ok (some view))
      (log : logBody tx.meta_ = some view.logs)
      (decisions : ∀ d ∈ mandateDecisions programId mandate view, d ∈ result.decisions)
      (truncated : metaErr tx.meta_ = false → LOG_TRUNCATED ∈ view.logs →
        page.signature ∈ result.truncated)
  /-- The body itself says that the transaction failed. -/
  | failed (log : logBody tx.meta_ = none) (err : metaErr tx.meta_ = true)
  /-- The body shows that the program was not invoked. -/
  | absent (log : logBody tx.meta_ = none)
      (absent : ∀ executed, Shows tx executed → ¬ executed.Invokes programId)

/-- **No missing body is read as an empty one.**  Whatever the node answers to any attempt, the
history ends; and where it is returned and no error thrown, an attempt answered with the body of
every successful signature of the window, and that body was decoded with its log, or says that the
transaction failed, or shows that the program was not invoked. -/
theorem no_body_read_as_empty (isRetryable : RpcError → Bool) (bs58 : String → Option Bytes)
    (localeCompare : String → String → Int) (node : HistoryNode) (programId : String)
    {listing : List SignaturePage}
    (hanswers : ∀ limit before attempt,
      (∀ signature ∈ before, signature ∈ listing.map SignaturePage.signature) →
      (∃ e, node.signatures limit before attempt = .error e) ∨
        node.signatures limit before attempt =
          .ok ((behind SignaturePage.signature before listing).take limit))
    (hkeys : (listing.map SignaturePage.signature).Nodup)
    (hnonempty : "" ∉ listing.map SignaturePage.signature)
    (scan : Except HistoryError (List TxView × Nat)) (opts : FetchHistoryOptions) {fuel : Nat}
    (hfuel : listing.length < fuel) :
    ∃ outcome, fetchDecisionHistory isRetryable bs58 localeCompare node programId scan opts fuel =
        some outcome ∧
      ∀ result, outcome = .ok result → ∀ page ∈ wanted opts.window listing, page.err = false →
        ∃ tx attempt, node.transaction page.signature attempt = .ok (some tx) ∧
          BodyKnown bs58 programId opts.mandate page result tx := by
  unfold fetchDecisionHistory
  by_cases hprogram : programId = ""
  · rw [if_pos hprogram]
    exact ⟨_, rfl, fun _ h => nomatch h⟩
  rw [if_neg hprogram]
  have hlisting : Answers
      (fun limit before =>
        withRetry isRetryable "getSignaturesForAddress" (node.signatures limit before)) listing := by
    intro limit before hknown
    cases hcall : withRetry isRetryable "getSignaturesForAddress" (node.signatures limit before) with
    | error e => exact .inl ⟨e, hcall⟩
    | ok batch =>
        obtain ⟨attempt, hattempt⟩ := withRetry_ok isRetryable hcall
        rcases hanswers limit before attempt hknown with ⟨e, he⟩ | hok
        · rw [he] at hattempt
          cases hattempt
        · rw [hok] at hattempt
          exact .inr (hcall.trans (congrArg Except.ok (Except.ok.inj hattempt).symm))
  rcases listProgramSignatures_cases hlisting (one_le_clampPageSize opts.pageSize) hkeys hfuel with
    ⟨pageCount, hlisted⟩ | ⟨e, before, hlisted, -⟩
  swap
  · refine ⟨.error e, ?_, fun _ h => nomatch h⟩
    rw [listedSignatures, hlisted]
    rfl
  refine ⟨_, by rw [listedSignatures, hlisted, Option.map_some], ?_⟩
  intro result hresult page hpage herr
  have hne : wanted opts.window listing ≠ [] := List.ne_nil_of_mem hpage
  rw [ok_bind, if_pos hne] at hresult
  obtain ⟨bodies, hbodies, hresult⟩ := bind_ok_iff.mp hresult
  cases hresult
  obtain ⟨tx, attempt, view, hanswered, hnull, hview, hkept⟩ :=
    fetchTransactions_read hbodies hpage herr (not_outside_of_wanted hpage)
  refine ⟨tx, attempt, hanswered, ?_⟩
  cases hlog : logBody tx.meta_ with
  | none =>
      cases hmeta : metaErr tx.meta_ with
      | true => exact .failed hlog hmeta
      | false => exact .absent hlog fun executed hshows =>
          not_invoked_of_shows hnull hmeta hlog hshows
  | some logs =>
      have hsignature : page.signature ≠ "" := by
        intro hempty
        exact hnonempty (List.mem_map.mpr ⟨page, (wanted_sublist _ _).subset hpage, hempty⟩)
      obtain ⟨v, rfl, hsig, hlogs, hverr⟩ := view_of_log hsignature hview hlog
      have hv : v ∈ bodies.views := hkept v rfl
      refine .decoded v hview (hlog.trans (congrArg some hlogs.symm)) ?_ ?_
      · intro d hd
        rw [historyOf]
        exact (List.mergeSort_perm _ _).mem_iff.mpr (List.mem_flatMap.mpr ⟨v, hv, hd⟩)
      · intro hmeta htruncated
        rw [historyOf]
        refine (List.mergeSort_perm _ _).mem_iff.mpr (List.mem_map.mpr ⟨v, ?_, hsig⟩)
        refine List.mem_filter.mpr ⟨hv, ?_⟩
        rw [decisionLogTruncated, hverr, hmeta]
        simpa using htruncated

/-! ### A body without a log that is passed over -/

section Sample

/-- A transfer that names the program among its accounts, without a log. -/
def accountOnlyTx : TransactionResponse where
  slot := some 7
  blockTime := some 20
  version := some .legacy
  message := {
    staticAccountKeys := none
    accountKeys := some ["payer", "program", "system"]
    compiledInstructions := none
    instructions := some [⟨2, [0, 1], "3Bxs"⟩]
    addressTableLookups := none
    version := none }
  meta_ := some ⟨false, none, none, some []⟩

def accountOnlyListing : List SignaturePage := [⟨"listed", 7, some 20, false⟩]

def accountOnlyNode : HistoryNode where
  signatures limit before _ :=
    .ok ((behind SignaturePage.signature before accountOnlyListing).take limit)
  transaction _ _ := .ok (some accountOnlyTx)

def accountOnlyOptions : FetchHistoryOptions where
  pageSize := none
  allowBlockScan := some false
  window := ⟨some 10, none⟩
  mandate := none

theorem no_body_read_as_empty_sample :
    ∃ outcome, fetchDecisionHistory (fun _ => true) (fun _ => none) (fun _ _ => 0) accountOnlyNode
        "program" (.ok ([], 0)) accountOnlyOptions 2 = some outcome ∧
      ∀ result, outcome = .ok result →
        ∀ page ∈ wanted accountOnlyOptions.window accountOnlyListing, page.err = false →
          ∃ tx attempt, accountOnlyNode.transaction page.signature attempt = .ok (some tx) ∧
            BodyKnown (fun _ => none) "program" none page result tx :=
  no_body_read_as_empty _ _ _ accountOnlyNode "program" (fun _ _ _ _ => .inr rfl) (by decide)
    (by decide) _ accountOnlyOptions (by decide)

/-- **Passed over without a word.**  The listed signature succeeded, no answer has a log for it,
and the history is returned as complete, with no decision of it. -/
theorem account_only_body_passed_over :
    ∃ result, fetchDecisionHistory (fun _ => true) (fun _ => none) (fun _ _ => 0) accountOnlyNode
        "program" (.ok ([], 0)) accountOnlyOptions 2 = some (.ok result) ∧
      result.decisions = [] ∧ result.truncated = [] ∧ result.signatureCount = 1 ∧
      (∀ page ∈ accountOnlyListing, page.err = false) ∧
      ∀ signature attempt tx, accountOnlyNode.transaction signature attempt = .ok (some tx) →
        logBody tx.meta_ = none := by
  refine ⟨historyOf (fun _ _ => 0) "program" accountOnlyOptions ⟨accountOnlyListing, 1⟩ false 0 []
    [("listed", some accountOnlyTx)], rfl,
    List.mergeSort_nil, List.mergeSort_nil, rfl, by decide, ?_⟩
  rintro signature attempt tx h
  cases h
  rfl

end Sample

end Veto.Indexer

import Veto.Service.Backfill
import Veto.Service.Places

/-!
# The cursor stays behind the gap

While a call of `backfill` holds the lock, what it collected stands in one piece in the list of
finalized signatures, above everything the cursor already covers.  So when all of it has been
ingested, the newest of it can be the next cursor.
-/

namespace Veto.Service.Backfill

open Foundation

variable {bs58 : Text → Option Bytes} {chain : Chain} {s s' : System} {db db' : Db}
  {signature : String} {phase : Phase}

/-! ## What the index has -/

/-- Every record of the transaction has its key in the index. -/
def Has (bs58 : Text → Option Bytes) (chain : Chain) (db : Db) (signature : String) : Prop :=
  ∃ records, recordsOf bs58 (chain.transaction signature) = .ok records ∧
    ∀ record ∈ records, record.key ∈ db.decisionKeys

/-- The row is one of a record of its transaction. -/
def Right (bs58 : Text → Option Bytes) (chain : Chain) (d : Decision) : Prop :=
  ∃ records, recordsOf bs58 (chain.transaction d.signature) = .ok records ∧
    ∃ record ∈ records, Stores record d

theorem Has.mono (h : Has bs58 chain db signature)
    (hkeys : ∀ key ∈ db.decisionKeys, key ∈ db'.decisionKeys) : Has bs58 chain db' signature := by
  obtain ⟨records, hrecords, hall⟩ := h
  exact ⟨records, hrecords, fun record hrecord => hkeys _ (hall record hrecord)⟩

/-! ## Pieces of the list -/

section Pieces

variable {front rest listed : List SignatureInfo} {cursor : Option String} {c info : SignatureInfo}

/-- The list is named by its signatures. -/
def Distinct (listed : List SignatureInfo) : Prop :=
  (listed.map SignatureInfo.signature).Nodup

theorem Distinct.ne_of_mem (h : Distinct (front ++ rest)) (hfront : info ∈ front) (hc : c ∈ rest) :
    info.signature ≠ c.signature := by
  unfold Distinct at h
  rw [List.map_append, List.nodup_append] at h
  exact h.2.2 _ (List.mem_map_of_mem hfront) _ (List.mem_map_of_mem hc)

/-- What is at or older than a signature of the list. -/
def atOrOlder (listed : List SignatureInfo) (c : SignatureInfo) : List SignatureInfo :=
  listed.dropWhile fun info => info.signature ≠ c.signature

theorem atOrOlder_append (h : Distinct (front ++ rest)) (hc : c ∈ rest) :
    atOrOlder (front ++ rest) c = atOrOlder rest c := by
  unfold atOrOlder
  apply List.dropWhile_append_of_pos
  intro info hinfo
  simpa using h.ne_of_mem hinfo hc

theorem atOrOlder_cons : atOrOlder (c :: rest) c = c :: rest := by
  unfold atOrOlder
  rw [List.dropWhile_cons_of_neg]
  simp

/-- What follows a signature of the list. -/
theorem older_append (h : Distinct (front ++ c :: rest)) :
    ((front ++ c :: rest).dropWhile fun info => info.signature ≠ c.signature).tail = rest := by
  change (atOrOlder (front ++ c :: rest) c).tail = rest
  rw [atOrOlder_append h List.mem_cons_self, atOrOlder_cons, List.tail_cons]

/-- Nothing is newer than the cursor, so all of it is at or older than the cursor. -/
theorem atOrOlder_of_none_newer
    (h : rest.takeWhile (fun info => some info.signature ≠ some c.signature) = []) :
    atOrOlder rest c = rest := by
  have hsplit := List.takeWhile_append_dropWhile
    (p := fun info : SignatureInfo => decide (some info.signature ≠ some c.signature)) (l := rest)
  rw [h, List.nil_append] at hsplit
  unfold atOrOlder
  simpa using hsplit

end Pieces

/-! ## The invariant -/

/-- What holds of the call that has the lock. -/
def Tracked (bs58 : Text → Option Bytes) (chain : Chain) (s : System) : Phase → Prop
  | .paging cursor before history =>
      cursor = s.cursor.map SignatureInfo.signature ∧
        ((before = none ∧ history = []) ∨ ∃ newer last front rest,
          before = some last.signature ∧ history = front ++ [last] ∧
          s.listed = newer ++ (history ++ rest) ∧ ∀ c, s.cursor = some c → c ∈ rest)
  | .replaying newest todo => ∃ newer history rest done,
      s.listed = newer ++ (history ++ rest) ∧ newest = history.head? ∧
        history.reverse = done ++ todo ∧
        (∀ info ∈ done, Has bs58 chain s.db info.signature) ∧
        ∀ info ∈ rest, Has bs58 chain s.db info.signature
  | _ => True

structure Inv (bs58 : Text → Option Bytes) (chain : Chain) (s : System) : Prop where
  indexed : Indexed s.db
  right : ∀ d ∈ s.db.decisions, Right bs58 chain d
  distinct : Distinct s.listed
  covered : ∀ c, s.cursor = some c → c ∈ s.listed ∧
    ∀ info ∈ atOrOlder s.listed c, Has bs58 chain s.db info.signature
  tracked : ∀ run, s.holder = some run → Tracked bs58 chain s (s.runs run)

theorem inv_start : Inv bs58 chain .start where
  indexed := indexed_empty
  right _ hd := nomatch hd
  distinct := List.nodup_nil
  covered _ hc := nomatch hc
  tracked _ hrun := nomatch hrun

/-- More rows and newer signatures change nothing for the call. -/
theorem Tracked.mono (h : Tracked bs58 chain s phase) (hcursor : s'.cursor = s.cursor)
    (added : List SignatureInfo) (hlisted : s'.listed = added ++ s.listed)
    (hkeys : ∀ key ∈ s.db.decisionKeys, key ∈ s'.db.decisionKeys) :
    Tracked bs58 chain s' phase := by
  cases phase with
  | paging cursor before history =>
      obtain ⟨hread, hplace⟩ := h
      refine ⟨by rw [hcursor]; exact hread, ?_⟩
      rcases hplace with hfirst | ⟨newer, last, front, rest, hbefore, hlast, hsplit, hin⟩
      · exact .inl hfirst
      · refine .inr ⟨added ++ newer, last, front, rest, hbefore, hlast, ?_, by rwa [hcursor]⟩
        rw [hlisted, hsplit, List.append_assoc]
  | replaying newest todo =>
      obtain ⟨newer, history, rest, done, hsplit, hnewest, hdone, hhas, hrest⟩ := h
      refine ⟨added ++ newer, history, rest, done, ?_, hnewest, hdone,
        fun info hinfo => (hhas info hinfo).mono hkeys,
        fun info hinfo => (hrest info hinfo).mono hkeys⟩
      rw [hlisted, hsplit, List.append_assoc]
  | _ => trivial

/-! ## A page -/

/-- A page of new signatures is taken as it is. -/
theorem takePage_fresh {cursor : Option String} {history page : List SignatureInfo}
    (hnew : ∀ item ∈ page, some item.signature ≠ cursor) (hdistinct : Distinct (history ++ page)) :
    takePage cursor history page = .ok (false, history ++ page) := by
  induction page generalizing history with
  | nil => rw [takePage, List.append_nil]
  | cons item page ih =>
      have hseen : item.signature ∉ history.map SignatureInfo.signature := by
        intro hmem
        obtain ⟨other, hother, hsame⟩ := List.mem_map.mp hmem
        exact hdistinct.ne_of_mem hother List.mem_cons_self hsame
      have happend : history ++ [item] ++ page = history ++ item :: page := by simp
      rw [takePage, if_neg (hnew item List.mem_cons_self), if_neg hseen, ih, happend]
      · exact fun other hother => hnew other (List.mem_cons_of_mem item hother)
      · rwa [happend]

/-- What a page is taken from: the part of the list below what was collected. -/
theorem Tracked.between_eq (hinv : Inv bs58 chain s) {cursor before : Option String}
    {history : List SignatureInfo} (h : Tracked bs58 chain s (.paging cursor before history)) :
    ∃ newer rest, s.listed = newer ++ (history ++ rest) ∧
      (∀ c, s.cursor = some c → c ∈ rest) ∧
      between s.listed before cursor = rest.takeWhile fun info => some info.signature ≠ cursor := by
  obtain ⟨-, hplace⟩ := h
  rcases hplace with ⟨rfl, rfl⟩ | ⟨newer, last, front, rest, rfl, rfl, hsplit, hin⟩
  · exact ⟨[], s.listed, rfl, fun c hc => (hinv.covered c hc).1, rfl⟩
  · refine ⟨newer, rest, hsplit, hin, ?_⟩
    have hlisted : s.listed = (newer ++ front) ++ last :: rest := by rw [hsplit]; simp
    have hdistinct := hinv.distinct
    rw [hlisted] at hdistinct ⊢
    unfold between
    dsimp only
    rw [older_append hdistinct]

/-- Where no signature below the collected ones is newer than the cursor, the index has them
all. -/
theorem Inv.has_rest (hinv : Inv bs58 chain s) {front rest : List SignatureInfo}
    (hsplit : s.listed = front ++ rest) (hin : ∀ c, s.cursor = some c → c ∈ rest)
    (hnone : rest.takeWhile
      (fun info => some info.signature ≠ s.cursor.map SignatureInfo.signature) = []) :
    ∀ info ∈ rest, Has bs58 chain s.db info.signature := by
  cases hcursor : s.cursor with
  | none =>
      have hempty : rest = [] := by
        rw [hcursor] at hnone
        rw [← hnone, eq_comm, List.takeWhile_eq_self_iff]
        intro info _
        simp
      rw [hempty]
      exact fun info hinfo => (nomatch hinfo)
  | some c =>
      rw [hcursor] at hnone
      have hdistinct := hinv.distinct
      rw [hsplit] at hdistinct
      have hcovered := (hinv.covered c hcursor).2
      rwa [hsplit, atOrOlder_append hdistinct (hin c hcursor), atOrOlder_of_none_newer hnone]
        at hcovered

theorem Tracked.page (hinv : Inv bs58 chain s) {cursor before : Option String}
    {history page : List SignatureInfo}
    (h : Tracked bs58 chain s (.paging cursor before history))
    (hlists : Lists s.listed before cursor page)
    (hok : afterPage cursor history page = .ok phase) : Tracked bs58 chain s phase := by
  obtain ⟨newer, rest, hsplit, hin, hbetween⟩ := h.between_eq hinv
  obtain ⟨rfl, -⟩ := h
  have hpage := hlists.newest
  rw [hbetween] at hpage
  have hnew : ∀ item ∈ page, some item.signature ≠ s.cursor.map SignatureInfo.signature := by
    intro item hitem
    simpa using List.mem_takeWhile_imp (hpage.subset hitem)
  obtain ⟨below, hbelow⟩ := hpage.trans (List.takeWhile_prefix _)
  unfold afterPage at hok
  cases hlast : page.getLast? with
  | none =>
      rw [hlast] at hok
      cases hok
      rw [List.getLast?_eq_none_iff] at hlast
      have hnone := hlists.more hlast
      rw [hbetween] at hnone
      refine ⟨newer, history, rest, [], hsplit, rfl, rfl, fun info hinfo => (nomatch hinfo), ?_⟩
      have hfront : s.listed = (newer ++ history) ++ rest := by rw [hsplit, List.append_assoc]
      exact hinv.has_rest hfront hin hnone
  | some last =>
      have hdistinct : Distinct (history ++ page) := by
        have hall := hinv.distinct
        rw [hsplit, ← hbelow] at hall
        unfold Distinct at hall ⊢
        rw [List.map_append, List.nodup_append, ← List.append_assoc, List.map_append] at hall
        exact (List.nodup_append.mp hall.2.1).1
      rw [hlast] at hok
      dsimp only at hok
      rw [takePage_fresh hnew hdistinct, ok_bind] at hok
      cases hok
      obtain ⟨front, hfront⟩ := List.getLast?_eq_some_iff.mp hlast
      refine ⟨rfl, .inr ⟨newer, last, history ++ front, below, rfl, ?_, ?_, ?_⟩⟩
      · rw [hfront, List.append_assoc]
      · rw [hsplit, ← hbelow, List.append_assoc]
      · intro c hc
        have hmem := hin c hc
        rw [← hbelow] at hmem
        rcases List.mem_append.mp hmem with hmem | hmem
        · exact absurd (by rw [hc]; rfl) (hnew c hmem)
        · exact hmem

/-! ## An ingest -/

theorem Inv.ingested (hinv : Inv bs58 chain s) {source : Source} {answers : Answers} {view : Db}
    {count : Nat} (hbefore : view.Before s.db)
    (hok : ingestTransaction bs58 (chain.transaction signature) source answers view s.db =
      .ok (count, db)) :
    Indexed db ∧ (∀ d ∈ db.decisions, Right bs58 chain d) ∧ s.db.decisions <+: db.decisions ∧
      Has bs58 chain db signature := by
  refine ingestTransaction_keeps ?_ hinv.indexed hbefore hinv.right hok
  intro records hrecords time htime record hrecord decisions _ location identity hlocation _
  obtain ⟨seconds, -, rfl⟩ := ingestLocation_eq hlocation
  obtain ⟨hplaces, -⟩ :=
    recordsOf_keys (chain.signed signature) (chain.grouped signature) hrecords
  have hsignature : (record.row ⟨record.location.key, record.location.slot, seconds * 1000⟩
      identity source).signature = signature := (hplaces record hrecord).1
  unfold Right
  rw [hsignature]
  exact ⟨records, hrecords, record, hrecord, _, identity, source, rfl⟩

/-- An ingest that is no step of the call that has the lock keeps the invariant. -/
theorem Inv.grown (hinv : Inv bs58 chain s) (hindexed : Indexed db)
    (hright : ∀ d ∈ db.decisions, Right bs58 chain d) (hrows : s.db.decisions <+: db.decisions) :
    Inv bs58 chain { s with db := db } := by
  have hkeys := keys_mono hinv.indexed hindexed hrows
  refine ⟨hindexed, hright, hinv.distinct, ?_, ?_⟩
  · intro c hc
    obtain ⟨hmem, hcovered⟩ := hinv.covered c hc
    exact ⟨hmem, fun info hinfo => (hcovered info hinfo).mono hkeys⟩
  · intro run hrun
    exact (hinv.tracked run hrun).mono rfl [] (List.nil_append _).symm hkeys

theorem runs_to_self {run : Nat} : (s.to run phase).runs run = phase := Function.update_self ..

theorem runs_to_of_ne {run other : Nat} (h : other ≠ run) :
    (s.to run phase).runs other = s.runs other := Function.update_of_ne h ..

/-- The call that has the lock, or another one, moves on. -/
theorem Inv.to (hinv : Inv bs58 chain s) {run : Nat}
    (h : s.holder = some run → Tracked bs58 chain s phase) : Inv bs58 chain (s.to run phase) := by
  refine ⟨hinv.indexed, hinv.right, hinv.distinct, hinv.covered, ?_⟩
  intro holder hholder
  by_cases hsame : holder = run
  · subst hsame
    rw [runs_to_self]
    exact (h hholder).mono rfl [] (List.nil_append _).symm fun _ hkey => hkey
  · rw [runs_to_of_ne hsame]
    exact (hinv.tracked holder hholder).mono rfl [] (List.nil_append _).symm fun _ hkey => hkey

theorem Inv.release (hinv : Inv bs58 chain s) (run : Nat) : Inv bs58 chain (s.release run) := by
  refine ⟨hinv.indexed, hinv.right, hinv.distinct, hinv.covered, ?_⟩
  intro holder hholder
  have hheld : s.holder = some holder := by
    unfold System.release at hholder
    dsimp only at hholder
    split at hholder
    · cases hholder
    · exact hholder
  exact (hinv.tracked holder hheld).mono rfl [] (List.nil_append _).symm fun _ hkey => hkey

/-! ## Every step -/

theorem Inv.finalized (hinv : Inv bs58 chain s) {info : SignatureInfo}
    (hfresh : info.signature ∉ s.listed.map SignatureInfo.signature) :
    Inv bs58 chain { s with listed := info :: s.listed } := by
  have hdistinct : Distinct ([info] ++ s.listed) := List.nodup_cons.mpr ⟨hfresh, hinv.distinct⟩
  refine ⟨hinv.indexed, hinv.right, hdistinct, ?_, ?_⟩
  · intro c hc
    obtain ⟨hmem, hcovered⟩ := hinv.covered c hc
    refine ⟨List.mem_cons_of_mem info hmem, ?_⟩
    rw [← atOrOlder_append hdistinct hmem] at hcovered
    exact hcovered
  · intro run hrun
    exact (hinv.tracked run hrun).mono rfl [info] rfl fun _ hkey => hkey

/-- What was ingested of the collected signatures is one more. -/
theorem Inv.ingest (hinv : Inv bs58 chain s) {run : Nat} {newest : Option SignatureInfo}
    {item : SignatureInfo} {todo : List SignatureInfo} {answers : Answers} {view : Db} {count : Nat}
    (hphase : s.runs run = .replaying newest (item :: todo)) (hbefore : view.Before s.db)
    (hok : replayItem bs58 item (some (chain.transaction item.signature)) answers view s.db =
      .ok (count, db)) :
    Inv bs58 chain { s.to run (.replaying newest todo) with db := db } := by
  unfold replayItem at hok
  obtain ⟨raw, hraw, hok⟩ := bind_ok_iff.mp hok
  obtain ⟨-, hok⟩ := require_bind_ok_iff.mp hok
  obtain rfl : chain.transaction item.signature = raw := by
    unfold fetchTransaction at hraw
    rw [okOr_eq_ok, Option.filter_eq_some_iff] at hraw
    exact Option.some.inj hraw.1
  obtain ⟨hindexed, hright, hrows, hhas⟩ := hinv.ingested hbefore hok
  have hgrown := hinv.grown hindexed hright hrows
  apply hgrown.to
  intro hheld
  have htracked := hgrown.tracked run hheld
  dsimp only at htracked
  rw [hphase] at htracked
  obtain ⟨newer, history, rest, done, hsplit, hnewest, hdone, hall, hrest⟩ := htracked
  refine ⟨newer, history, rest, done ++ [item], hsplit, hnewest, ?_, ?_, hrest⟩
  · rw [hdone, List.append_assoc]
    rfl
  · intro info hinfo
    rcases List.mem_append.mp hinfo with hinfo | hinfo
    · exact hall info hinfo
    · rw [List.mem_singleton.mp hinfo]
      exact hhas

/-- The newest signature that was collected becomes the cursor when all were ingested. -/
theorem Inv.writeCursor (hinv : Inv bs58 chain s) {run : Nat} {newest : SignatureInfo}
    (hphase : s.runs run = .replaying (some newest) []) (hheld : s.holder = some run) :
    Inv bs58 chain { s.to run .ended with cursor := some newest } := by
  have htracked := hinv.tracked run hheld
  rw [hphase] at htracked
  obtain ⟨newer, history, rest, done, hsplit, hnewest, hdone, hall, hrest⟩ := htracked
  rw [List.append_nil] at hdone
  refine ⟨hinv.indexed, hinv.right, hinv.distinct, ?_, ?_⟩
  · intro c hc
    obtain rfl : newest = c := Option.some.inj hc
    obtain ⟨older, rfl⟩ : ∃ older, history = newest :: older := by
      cases history with
      | nil => cases hnewest
      | cons first older =>
          obtain rfl := Option.some.inj hnewest
          exact ⟨older, rfl⟩
    have hdistinct := hinv.distinct
    rw [hsplit, List.cons_append] at hdistinct
    refine ⟨?_, ?_⟩
    · change newest ∈ s.listed
      rw [hsplit]
      simp
    · change ∀ info ∈ atOrOlder s.listed newest, _
      rw [hsplit, List.cons_append, atOrOlder_append hdistinct List.mem_cons_self, atOrOlder_cons,
        ← List.cons_append]
      intro info hinfo
      rcases List.mem_append.mp hinfo with hinfo | hinfo
      · rw [← List.mem_reverse, hdone] at hinfo
        exact hall info hinfo
      · exact hrest info hinfo
  · intro holder hholder
    obtain rfl : run = holder := Option.some.inj (hheld.symm.trans hholder)
    change Tracked bs58 chain _ ((s.to run .ended).runs run)
    rw [runs_to_self]
    trivial

theorem Inv.step {input : Input} (hinv : Inv bs58 chain s)
    (h : Step bs58 chain s input () s') : Inv bs58 chain s' := by
  cases h with
  | finalized fresh => exact hinv.finalized fresh
  | delivered before ok =>
      obtain ⟨hindexed, hright, hrows, -⟩ := hinv.ingested before ok
      exact hinv.grown hindexed hright hrows
  | lock at_phase free =>
      refine ⟨hinv.indexed, hinv.right, hinv.distinct, hinv.covered, ?_⟩
      intro holder hholder
      obtain rfl := Option.some.inj hholder
      change Tracked bs58 chain _ ((s.to _ .locked).runs _)
      rw [runs_to_self]
      trivial
  | readCursor at_phase held => exact hinv.to fun _ => ⟨rfl, .inl ⟨rfl, rfl⟩⟩
  | page at_phase lists ok =>
      refine hinv.to fun hheld => ?_
      have htracked := hinv.tracked _ hheld
      rw [at_phase] at htracked
      exact htracked.page hinv lists ok
  | ingest at_phase before ok => exact hinv.ingest at_phase before ok
  | writeCursor at_phase held => exact hinv.writeCursor at_phase held
  | @unlock run =>
      have hended : Inv bs58 chain (s.to run .ended) := hinv.to fun _ => trivial
      exact hended.release run
  | disconnect => exact hinv.release _

end Veto.Service.Backfill

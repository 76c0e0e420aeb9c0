import Veto.Indexer.Base64
import Veto.Service.HighWater
import Veto.Service.Records

/-!
# No gap behind the cursor

After any run every finalized transaction at or older than the cursor has exactly the rows of
its records, and a call of `backfill` that finds nothing new leaves the tables as they were.
-/

namespace Veto.Service.Backfill

open Foundation

variable {bs58 : Text → Option Bytes} {chain : Chain} {s s' : System} {db : Db}
  {signature : String} {h : List (Transition System Input Unit)}

/-! ## Exactly once -/

/-- The rows of a transaction are those of its records, one for each. -/
def Complete (bs58 : Text → Option Bytes) (chain : Chain) (db : Db) (signature : String) : Prop :=
  ∃ records, recordsOf bs58 (chain.transaction signature) = .ok records ∧
    ∃ rows, rows.Perm (db.decisions.filter fun d => d.signature = signature) ∧
      List.Forall₂ Stores records rows

/-- One row for each record, from rows that have every record. -/
theorem exists_rows {records : List DecodedRecord} {decisions : List Decision}
    (h : ∀ record ∈ records, ∃ d ∈ decisions, Stores record d) :
    ∃ rows, List.Forall₂ Stores records rows ∧ ∀ d ∈ rows, d ∈ decisions := by
  induction records with
  | nil => exact ⟨[], .nil, fun d hd => (nomatch hd)⟩
  | cons record records ih =>
      obtain ⟨d, hd, hstores⟩ := h record List.mem_cons_self
      obtain ⟨rows, hall, hrows⟩ := ih fun r hr => h r (List.mem_cons_of_mem record hr)
      exact ⟨d :: rows, .cons hstores hall, List.forall_mem_cons.mpr ⟨hd, hrows⟩⟩

theorem keys_of_stores {records : List DecodedRecord} {rows : List Decision}
    (h : List.Forall₂ Stores records rows) :
    rows.map Decision.key = records.map DecodedRecord.key := by
  induction h with
  | nil => rfl
  | cons hstores _ ih => rw [List.map_cons, List.map_cons, ih, hstores.key]

/-- A right row whose key is a record's is a row of that record. -/
theorem Right.stores {d : Decision} (h : Right bs58 chain d) {records : List DecodedRecord}
    (hrecords : recordsOf bs58 (chain.transaction signature) = .ok records)
    (hsignature : d.signature = signature) :
    ∃ record ∈ records, Stores record d := by
  obtain ⟨found, hfound, record, hrecord, hstores⟩ := h
  rw [hsignature, hrecords] at hfound
  obtain rfl := Except.ok.inj hfound
  exact ⟨record, hrecord, hstores⟩

theorem Inv.complete (hinv : Inv bs58 chain s) (h : Has bs58 chain s.db signature) :
    Complete bs58 chain s.db signature := by
  obtain ⟨records, hrecords, hhas⟩ := h
  obtain ⟨hplaces, hkeys⟩ :=
    recordsOf_keys (chain.signed signature) (chain.grouped signature) hrecords
  have hunique : ∀ record ∈ records, ∀ other ∈ records, record.key = other.key →
      record = other := fun record hrecord other hother heq =>
    List.inj_on_of_nodup_map hkeys hrecord hother heq
  have hstored : ∀ record ∈ records, ∃ d ∈ s.db.decisions, Stores record d := by
    intro record hrecord
    have hkey := hhas record hrecord
    rw [hinv.indexed.keys] at hkey
    obtain ⟨d, hd, hsame⟩ := List.mem_map.mp hkey
    have hsignature : d.signature = signature := by
      have hlocated := congrArg DecisionKey.signature hsame
      exact hlocated.trans (hplaces record hrecord).1
    obtain ⟨other, hother, hstores⟩ := (hinv.right d hd).stores hrecords hsignature
    obtain rfl := hunique other hother record hrecord (hstores.key.symm.trans hsame)
    exact ⟨d, hd, hstores⟩
  obtain ⟨rows, hrows, hin⟩ := exists_rows hstored
  have hrowKeys := keys_of_stores hrows
  have hrowsNodup : rows.Nodup := by
    rw [← hrowKeys] at hkeys
    exact hkeys.of_map _
  refine ⟨records, hrecords, rows, ?_, hrows⟩
  rw [List.perm_ext_iff_of_nodup hrowsNodup (hinv.indexed.tallied.rows_nodup.filter _)]
  intro d
  rw [List.mem_filter, decide_eq_true_eq]
  have hmatch : ∀ record ∈ records, ∃ e ∈ rows, e.key = record.key := by
    intro record hrecord
    have hmem := List.mem_map_of_mem (f := DecodedRecord.key) hrecord
    rw [← hrowKeys] at hmem
    exact List.mem_map.mp hmem
  constructor
  · intro hd
    have hkey : d.key ∈ records.map DecodedRecord.key := by
      rw [← hrowKeys]
      exact List.mem_map_of_mem hd
    obtain ⟨record, hrecord, hsame⟩ := List.mem_map.mp hkey
    refine ⟨hin d hd, ?_⟩
    rw [← (hplaces record hrecord).1]
    exact (congrArg DecisionKey.signature hsame).symm
  · rintro ⟨hd, hsignature⟩
    obtain ⟨record, hrecord, hstores⟩ := (hinv.right d hd).stores hrecords hsignature
    obtain ⟨e, he, hsame⟩ := hmatch record hrecord
    obtain rfl := hinv.indexed.tallied.eq_of_key (hin e he) hd (hsame.trans hstores.key.symm)
    exact he

/-! ## A call that finds nothing new -/

/-- At each of its pages no listed signature is newer than the cursor. -/
def NothingNew (run : Nat) (h : List (Transition System Input Unit)) : Prop :=
  ∀ T ∈ h, ∀ page cursor before history, T.input = .page run page →
    T.pre.runs run = .paging cursor before history → between T.pre.listed none cursor = []

/-- Nothing was collected. -/
def Phase.Idle : Phase → Prop
  | .paging _ before history => before = none ∧ history = []
  | .replaying newest todo => newest = none ∧ todo = []
  | _ => True

/-- What a step of another call leaves. -/
theorem Step.runs_of_ne {input : Input} (h : Step bs58 chain s input () s') {run : Nat}
    (hne : input.run ≠ some run) : s'.runs run = s.runs run := by
  have hother : ∀ other phase, some other ≠ some run → (s.to other phase).runs run = s.runs run :=
    fun other phase hother => runs_to_of_ne fun heq => hother (congrArg some heq.symm)
  cases h with
  | finalized fresh => rfl
  | delivered before ok => rfl
  | lock at_phase free => exact hother _ _ hne
  | readCursor at_phase held => exact hother _ _ hne
  | page at_phase lists ok => exact hother _ _ hne
  | ingest at_phase before ok => exact hother _ _ hne
  | writeCursor at_phase held => exact hother _ _ hne
  | unlock => exact hother _ _ hne
  | disconnect => rfl

/-- A call with nothing collected, and nothing to collect, writes nothing. -/
theorem Step.idle {input : Input} (h : Step bs58 chain s input () s') {run : Nat}
    (hrun : input.run = some run) (hidle : (s.runs run).Idle)
    (hnothing : ∀ page cursor before history, input = .page run page →
      s.runs run = .paging cursor before history → between s.listed none cursor = []) :
    (s'.runs run).Idle ∧ s'.db = s.db ∧ s'.cursor = s.cursor := by
  have hself : ∀ phase, phase.Idle → ((s.to run phase).runs run).Idle := by
    intro phase hphase
    rw [runs_to_self]
    exact hphase
  cases h with
  | finalized fresh => cases hrun
  | delivered before ok => cases hrun
  | lock at_phase free =>
      cases hrun
      exact ⟨hself .locked trivial, rfl, rfl⟩
  | readCursor at_phase held =>
      cases hrun
      exact ⟨hself (.paging _ none []) ⟨rfl, rfl⟩, rfl, rfl⟩
  | page at_phase lists ok =>
      cases hrun
      rw [at_phase] at hidle
      obtain ⟨rfl, rfl⟩ := hidle
      have hnone := hnothing _ _ _ _ rfl at_phase
      have hpage := lists.newest
      rw [hnone, List.prefix_nil] at hpage
      subst hpage
      cases ok
      exact ⟨hself (replay []) ⟨rfl, rfl⟩, rfl, rfl⟩
  | ingest at_phase before ok =>
      cases hrun
      rw [at_phase] at hidle
      exact nomatch hidle.2
  | writeCursor at_phase held =>
      cases hrun
      rw [at_phase] at hidle
      exact nomatch hidle.1
  | unlock =>
      cases hrun
      exact ⟨hself .ended trivial, rfl, rfl⟩
  | disconnect =>
      cases hrun
      exact ⟨hidle, rfl, rfl⟩

theorem idle_run (run : Run (Step bs58 chain) .start h s) {call : Nat}
    (hnothing : NothingNew call h) :
    (s.runs call).Idle ∧ ∀ T ∈ h, T.input.run = some call →
      T.post.db = T.pre.db ∧ T.post.cursor = T.pre.cursor := by
  induction run with
  | start => exact ⟨trivial, fun T hT => (nomatch hT)⟩
  | @next h s input _ s' run hstep ih =>
      obtain ⟨hidle, hall⟩ := ih fun T hT => hnothing T (List.mem_cons_of_mem _ hT)
      by_cases hcall : input.run = some call
      · obtain ⟨hnext, hdb, hcursor⟩ :=
          hstep.idle hcall hidle (hnothing ⟨s, input, (), s'⟩ List.mem_cons_self)
        exact ⟨hnext, List.forall_mem_cons.mpr ⟨fun _ => ⟨hdb, hcursor⟩, hall⟩⟩
      · refine ⟨?_, List.forall_mem_cons.mpr ⟨fun hrun => absurd hrun hcall, hall⟩⟩
        rw [hstep.runs_of_ne hcall]
        exact hidle

/-! ## Any run -/

/-- Every finalized signature at or older than the cursor is in the index, exactly once, and a
call that finds nothing new writes nothing. -/
theorem backfill_covers (run : Run (Step bs58 chain) .start h s) :
    (∀ c, s.cursor = some c → c ∈ s.listed ∧
      ∀ info ∈ atOrOlder s.listed c, Complete bs58 chain s.db info.signature) ∧
    ∀ call, NothingNew call h → ∀ T ∈ h, T.input.run = some call →
      T.post.db = T.pre.db ∧ T.post.cursor = T.pre.cursor := by
  have hinv : Inv bs58 chain s := run.preserves (fun _ _ _ _ hinv hstep => hinv.step hstep) inv_start
  refine ⟨?_, fun call hnothing => (idle_run run hnothing).2⟩
  intro c hc
  obtain ⟨hmem, hcovered⟩ := hinv.covered c hc
  exact ⟨hmem, fun info hinfo => hinv.complete (hcovered info hinfo)⟩

/-! ### One payment is found and ingested -/

section Sample

def paidChain : Chain where
  transaction signature := { oneTransaction paidCall with signatures := [signature] }
  signed _ := rfl
  grouped _ := List.nodup_nil

/-- A node that has the mandate's account. -/
def paidAnswers : Answers where
  getBlockTime _ := .ok none
  getAccountInfo _ := .ok (some {
    owner := String.ofList PROGRAM_ID.chars
    data := Indexer.toBase64 (okValue sampleOpen sampleOpen_ok).2.mandate.data
    encoding := "base64" })
  limitOne := List.head?

def paidInfo : SignatureInfo := ⟨"paid", 5⟩

def paidReplay : Except String (Nat × Db) :=
  replayItem fromBase58 paidInfo (some (paidChain.transaction "paid")) paidAnswers .empty .empty

theorem paidReplay_ok : paidReplay.toBool = true := by decide +kernel

/-- The system while call 0 has the lock. -/
def paidSystem (phase : Phase) (db : Db) (cursor : Option SignatureInfo) : System where
  listed := [paidInfo]
  db := db
  cursor := cursor
  holder := some 0
  runs := Function.update (fun _ => .locking) 0 phase

theorem paidSystem_to (phase next : Phase) (db : Db) (cursor : Option SignatureInfo) :
    (paidSystem phase db cursor).to 0 next = paidSystem next db cursor := by
  unfold System.to paidSystem
  rw [Function.update_idem]

abbrev PaidRun (s : System) : Prop := ∃ h, Run (Step fromBase58 paidChain) .start h s

theorem PaidRun.next {input : Input} (run : PaidRun s)
    (h : Step fromBase58 paidChain s input () s') : PaidRun s' := by
  obtain ⟨h', hrun⟩ := run
  exact ⟨_, hrun.next h⟩

def paidEnd : System := paidSystem .ended (okValue paidReplay paidReplay_ok).2 (some paidInfo)

/-- The call finds the signature, ingests its transaction and writes the cursor. -/
theorem paidRun : PaidRun paidEnd := by
  have hlists : Lists [paidInfo] none none [paidInfo] :=
    ⟨List.prefix_rfl, by decide, fun hnil => (nomatch hnil)⟩
  have hnoMore : Lists [paidInfo] (some "paid") none [] :=
    ⟨List.nil_prefix, by decide, fun _ => by decide⟩
  have htaken : afterPage none [] [paidInfo] = .ok (.paging none (some "paid") [paidInfo]) := rfl
  have hended : afterPage none [paidInfo] [] = .ok (.replaying (some paidInfo) [paidInfo]) := rfl
  have hlisted : PaidRun { System.start with listed := [paidInfo] } :=
    ⟨_, Run.start.next (.finalized (by decide))⟩
  have hlocked : PaidRun (paidSystem .locked .empty none) := hlisted.next (.lock rfl rfl)
  have hread := hlocked.next (@Step.readCursor _ _ _ 0 rfl rfl)
  rw [paidSystem_to] at hread
  have hpage := hread.next (@Step.page _ _ _ 0 _ _ _ _ _ rfl hlists htaken)
  rw [paidSystem_to] at hpage
  have hlast := hpage.next (@Step.page _ _ _ 0 _ _ _ _ _ rfl hnoMore hended)
  rw [paidSystem_to] at hlast
  have hingest := hlast.next
    (@Step.ingest _ _ _ 0 _ _ _ _ _ _ _ rfl (.refl _) (eq_ok_okValue_pair paidReplay paidReplay_ok))
  rw [paidSystem_to] at hingest
  have hwrite := PaidRun.next (s := paidSystem (.replaying (some paidInfo) []) _ none) hingest
    (@Step.writeCursor _ _ _ 0 _ rfl rfl)
  rw [paidSystem_to] at hwrite
  exact hwrite

theorem backfill_covers_paid :
    Complete fromBase58 paidChain (okValue paidReplay paidReplay_ok).2 "paid" := by
  obtain ⟨h, hrun⟩ := paidRun
  obtain ⟨-, hcomplete⟩ := (backfill_covers hrun).1 paidInfo rfl
  exact hcomplete paidInfo (by decide)

end Sample

end Veto.Service.Backfill

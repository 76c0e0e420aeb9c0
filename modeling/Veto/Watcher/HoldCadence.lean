import Veto.Hold.Change
import Veto.Watcher.HoldEvents

/-!
# The cadence of hold alerts

Along every history of a vault with scans in it: no timed alert before its time, no key twice,
and after each scan every mark that has passed.  A scan works from the last records of the
ledger and from the delay as it stands, so the first and the last hold as long as these still
tell when each withdrawal was created.
-/

namespace Veto.Watcher.Hold

open Foundation

/-! ## The cadence -/

/-- At a scan: of a row that waits and was held by `H`, what is raised and has a time of its own
is a mark that has passed. -/
def Early (S : WatchTransition) (now : Int) (j : Fin HOLD_PENDING_CAPACITY) (H : HoldTransition) :
    Prop :=
  ∀ e ∈ S.raised, e.withdrawalId = toString (S.pre.chain.vault.pending.row j).id.toNat →
    e.alert.timed = true → ∃ m : HoldMark, e.alert = m.alert ∧ e.mark = m.text ∧
      m.time H.input.clock (S.pre.chain.vault.pending.row j).unlockAt.toInt ≤ now / 1000

/-- After a scan: the mark of the row has been raised, now or before. -/
def Emitted (h : WatchHistory) (s : HoldState) (j : Fin HOLD_PENDING_CAPACITY) (m : HoldMark) :
    Prop :=
  ∃ e ∈ raisedBy h, e.vault = s.key.display ∧
    e.withdrawalId = toString (s.vault.pending.row j).id.toNat ∧ e.alert = m.alert ∧ e.mark = m.text

/-- A row of the vault that waits, and the transition that held it. -/
structure Waits (older : HoldHistory) (s : HoldState) (j : Fin HOLD_PENDING_CAPACITY)
    (H : HoldTransition) : Prop where
  pending : (s.vault.pending.row j).status = .pending
  held : H ∈ older
  holds : H.Holds (s.vault.pending.row j)

structure Cadence (h : WatchHistory) : Prop where
  never_early : ∀ newer S older now, h = newer ++ S :: older → S.input = .scan now →
    ∀ j H, Waits (chainHistory older) S.pre.chain j H → Early S now j H
  once : ((raisedBy h).map HoldAlertEvent.key).Nodup
  complete : ∀ newer S older now, h = newer ++ S :: older → S.input = .scan now →
    ∀ j H, Waits (chainHistory older) S.pre.chain j H → ∀ m : HoldMark,
      m.Passed H.input.clock (S.pre.chain.vault.pending.row j).unlockAt.toInt (now / 1000) →
      Emitted (S :: older) S.pre.chain j m

/-! ## What the scans must still see -/

def lastRecords (opening : HoldOutput) (c : HoldHistory) : List HoldEntry :=
  Ring.recent HOLD_LEDGER_CAPACITY (holdLog opening c)

/-- The state before a scan still tells when each row was created, and all times are dates. -/
structure Sees (opening : HoldOutput) (c : HoldHistory) (s : HoldState) (now : Int) : Prop where
  /-- The record of the hold is among the last ones, or the delay is still the one of the hold. -/
  created : ∀ j H, Waits c s j H →
    (∃ e ∈ lastRecords opening c, e.kind = .held ∧
      e.withdrawalId = (s.vault.pending.row j).id) ∨
    0 ≤ H.input.clock ∧ H.pre.vault.delaySecs = s.vault.delaySecs
  /-- The last recovery among the last records is from before the hold. -/
  unrecovered : ∀ j H, Waits c s j H → ∀ r,
    ((lastRecords opening c).filter fun e => e.kind = .recovered).getLast? = some r →
      r.ts.toInt < H.input.clock
  scan_date : now.natAbs ≤ 8640000000000000
  unlock_dates : ∀ j, (s.vault.pending.row j).status = .pending →
    (s.vault.pending.row j).unlockAt.toInt ≤ LAST_SECOND
  record_dates : ∀ e ∈ lastRecords opening c, e.ts.toInt ≤ LAST_SECOND

def ScansSee (opening : HoldOutput) (h : WatchHistory) : Prop :=
  ∀ newer S older now, h = newer ++ S :: older → S.input = .scan now →
    Sees opening (chainHistory older) S.pre.chain now

/-! ## One scan -/

section Scan

variable {rt : Runtime} {opening : HoldOutput} {c₀ s : HoldState} {c : HoldHistory} {now : Int}
  {j : Fin HOLD_PENDING_CAPACITY} {H : HoldTransition}

theorem HoldKind.code_eq_held (kind : HoldKind) : kind.code = KIND_HELD ↔ kind = .held := by
  cases kind <;> decide

theorem HoldKind.code_eq_recovered (kind : HoldKind) :
    kind.code = KIND_RECOVERED ↔ kind = .recovered := by
  cases kind <;> decide

/-- A record of the hold of a row is the one its transition wrote. -/
theorem held_ts (hopen : Opens rt opening c₀) (run : Run (HoldStep rt) c₀ c s) {e : HoldEntry}
    (he : e ∈ holdLog opening c) (hkind : e.kind = .held) {row : PendingWithdrawal} (hH : H ∈ c)
    (hholds : H.Holds row) (hid : e.withdrawalId = row.id) : e.ts.toInt = H.input.clock := by
  have hwritten : e ∈ written c := by
    rcases List.mem_append.mp he with he | he
    · have hopened := hopen.first_record.2 e he
      rw [hkind] at hopened
      cases hopened
    · exact List.mem_reverse.mp he
  have hrecord : holdEntry H.input.now .held row.amount row.destination row.id HOLD_REASON_NONE ∈
      written c := by
    refine List.mem_flatMap.mpr ⟨H, hH, ?_⟩
    rw [hholds.records]
    exact List.mem_singleton_self _
  have hnodup : (idsOf HoldEntry.holdsRow (written c)).Nodup :=
    (pairwise_held (desk_of_opens hopen run)).imp fun hgt heq => by
      rw [heq] at hgt
      exact UInt64.lt_irrefl _ hgt
  have hsame := List.inj_on_of_nodup_map hnodup
    (List.mem_filter.mpr ⟨hwritten, decide_eq_true hkind⟩)
    (List.mem_filter.mpr ⟨hrecord, decide_eq_true rfl⟩) hid
  rw [hsame]
  rfl

theorem kind_of_specificEnd (kind : HoldKind) : specificEnd kind.code ≠ none →
    kind = .paid ∨ kind = .skipped ∨ kind = .stopped := by
  cases kind <;> decide

/-- No record ends a row that waits. -/
theorem not_ended (hopen : Opens rt opening c₀) (run : Run (HoldStep rt) c₀ c s)
    (hj : (s.vault.pending.row j).status = .pending) {e : HoldEntry} (he : e ∈ holdLog opening c)
    (hzero : e.withdrawalId ≠ 0) (hend : specificEnd e.kind.code ≠ none) :
    e.withdrawalId ≠ (s.vault.pending.row j).id := by
  have hkind := kind_of_specificEnd e.kind hend
  have hends : e.endsRow = true := by
    unfold HoldEntry.endsRow HoldEntry.paysRow
    rcases hkind with hpaid | hskipped | hstopped
    · simp [hpaid, hzero]
    · simp [hskipped]
    · simp [hstopped]
  have hwritten : e ∈ written c := by
    rcases List.mem_append.mp he with he | he
    · have hopened := hopen.first_record.2 e he
      rw [hopened] at hkind
      simp at hkind
    · exact List.mem_reverse.mp he
  intro hid
  have hunsettled := (desk_of_opens hopen run).open_unsettled j _
    (PendingWithdrawal.ticket_of_pending hj)
  apply hunsettled
  refine List.mem_map.mpr ⟨e.ticket, ?_, congrArg UInt64.toNat hid⟩
  exact List.mem_map_of_mem (List.mem_filter.mpr ⟨hwritten, hends⟩)

/-- What the scan reads. -/
abbrev snapshot (opening : HoldOutput) (c : HoldHistory) (s : HoldState) : HoldWatch :=
  .of s.key s.vault (holdLog opening c)

theorem lastRecords_subset {e : HoldEntry} (he : e ∈ lastRecords opening c) :
    e ∈ holdLog opening c := List.mem_of_mem_drop he

/-- A scan that still sees when a row was created works with that time. -/
theorem createdAt_snapshot (hopen : Opens rt opening c₀) (run : Run (HoldStep rt) c₀ c s)
    (hsees : Sees opening c s now) (hwaits : Waits c s j H) :
    createdAt (snapshot opening c s) (.ofRow (s.vault.pending.row j)) = H.input.clock := by
  apply createdAt_eq
  · intro entry hentry hkind hid
    obtain ⟨e, he, rfl⟩ := List.mem_map.mp hentry
    exact held_ts hopen run (lastRecords_subset he) ((HoldKind.code_eq_held _).mp hkind) hwaits.held
      hwaits.holds (UInt64.toNat_inj.mp (Int.ofNat_inj.mp hid))
  · rcases hsees.created j H hwaits with ⟨e, he, hkind, hid⟩ | ⟨hpast, hdelay⟩
    · refine .inl ⟨.of e, List.mem_map_of_mem he, (HoldKind.code_eq_held _).mpr hkind, ?_⟩
      show (e.withdrawalId.toNat : Int) = (s.vault.pending.row j).id.toNat
      rw [hid]
    · refine .inr ⟨hpast, ?_⟩
      show (s.vault.pending.row j).unlockAt.toInt = H.input.clock + s.vault.delaySecs.toInt
      rw [← hdelay]
      exact hwaits.holds.unlock

/-- The wait is a day at least. -/
theorem waits_a_day (hopen : Opens rt opening c₀) (run : Run (HoldStep rt) c₀ c s)
    (hwaits : Waits c s j H) :
    H.input.clock + 24 * HOUR ≤ (s.vault.pending.row j).unlockAt.toInt := by
  obtain ⟨newer, older, -, before, -, -⟩ := run.of_mem hwaits.held
  have hdelay := (valid_of_run hopen before).delay
  have hunlock : (s.vault.pending.row j).unlockAt.toInt =
      H.input.clock + H.pre.vault.delaySecs.toInt := hwaits.holds.unlock
  rw [hunlock]
  unfold HOUR
  rcases hdelay with hone | htwo | hthree
  · rw [hone]
    show H.input.clock + 24 * 3600 ≤ H.input.clock + 86400
    omega
  · rw [htwo]
    show H.input.clock + 24 * 3600 ≤ H.input.clock + 172800
    omega
  · rw [hthree]
    show H.input.clock + 24 * 3600 ≤ H.input.clock + 259200
    omega

theorem lastRecovered_eq (entries : List HoldLedgerEntry) : lastRecovered entries =
    (entries.filter fun e => e.kind = KIND_RECOVERED).getLast? := by
  unfold lastRecovered
  rw [foldl_latest]
  exact Option.map_id'

/-- Such a scan finds no recovery since the row was created. -/
theorem unrecovered_snapshot (hopen : Opens rt opening c₀) (run : Run (HoldStep rt) c₀ c s)
    (hsees : Sees opening c s now) (hwaits : Waits c s j H) (r : HoldLedgerEntry)
    (hr : lastRecovered (snapshot opening c s).entries = some r) :
    r.ts < createdAt (snapshot opening c s) (.ofRow (s.vault.pending.row j)) := by
  rw [createdAt_snapshot hopen run hsees hwaits]
  have hfilter : ((snapshot opening c s).entries.filter fun e => e.kind = KIND_RECOVERED) =
      ((lastRecords opening c).filter fun e => e.kind = .recovered).map .of := by
    show ((lastRecords opening c).map HoldLedgerEntry.of).filter _ = _
    rw [List.filter_map]
    congr 1
    apply List.filter_congr
    intro e _
    exact decide_eq_decide.mpr (HoldKind.code_eq_recovered e.kind)
  rw [lastRecovered_eq, hfilter, List.getLast?_map, Option.map_eq_some_iff] at hr
  obtain ⟨e, he, rfl⟩ := hr
  exact hsees.unrecovered j H hwaits e he

theorem lookup_snapshot (hopen : Opens rt opening c₀) (run : Run (HoldStep rt) c₀ c s)
    (hj : (s.vault.pending.row j).status = .pending) :
    (endsOf (snapshot opening c s).entries).lookup
      (toString (HoldPending.ofRow (s.vault.pending.row j)).id) = none := by
  rw [List.lookup_eq_none_iff]
  intro p hp
  obtain ⟨hmem, hkey, hzero, hend⟩ := mem_endsOf hp
  obtain ⟨e, he, hof⟩ := List.mem_map.mp hmem
  rw [← hof] at hkey hzero hend
  have hne := not_ended hopen run hj (lastRecords_subset he)
    (fun h => hzero (by show (e.withdrawalId.toNat : Int) = 0; rw [h]; rfl)) hend
  rw [bne_iff_ne, hkey]
  intro heq
  exact hne (UInt64.toNat_inj.mp (toString_id_inj heq.symm))

/-- **Never early.**  What is due at the scan by the right creation time is a mark that has
passed. -/
theorem scan_not_early (hopen : Opens rt opening c₀) (run : Run (HoldStep rt) c₀ c s)
    (hsees : Sees opening c s now) (hwaits : Waits c s j H) {events : List HoldAlertEvent}
    (hevents : alertsForVault (snapshot opening c s) (now / 1000) = .ok events)
    {e : HoldAlertEvent} (he : e ∈ events)
    (hid : e.withdrawalId = toString (s.vault.pending.row j).id.toNat)
    (htimed : e.alert.timed = true) : ∃ m : HoldMark, e.alert = m.alert ∧ e.mark = m.text ∧
      m.time H.input.clock (s.vault.pending.row j).unlockAt.toInt ≤ now / 1000 := by
  obtain ⟨row, hrow, alerts, halerts, he⟩ | ⟨entry, alerts, halerts, he⟩ :=
    alertsForVault_cases hevents he
  · obtain ⟨k, hk, rfl⟩ := mem_pending_iff.mp hrow
    obtain ⟨-, hrowid, hdue⟩ := rowAlerts_cases halerts he
    -- the event names the row, so it is about this one
    have hsame : k = j := by
      refine row_apart (desk_of_opens hopen run) hk hwaits.pending (UInt64.toNat_inj.mp ?_)
      rw [hid] at hrowid
      exact toString_id_inj hrowid.symm
    subst hsame
    rcases hdue with huntimed | hdue
    · rw [htimed] at huntimed
      cases huntimed
    · rw [createdAt_snapshot hopen run hsees hwaits] at hdue
      obtain ⟨m, halert, hmark, hcreated | htime⟩ := mark_of_due hdue
      · rw [halert, hcreated] at htimed
        cases htimed
      · exact ⟨m, halert, hmark, htime⟩
  · have huntimed := (endAlerts_cases halerts he).2
    rw [htimed] at huntimed
    cases huntimed

/-- **Complete.**  Such a scan has an event for every mark of a row that has passed. -/
theorem scan_complete (hopen : Opens rt opening c₀) (run : Run (HoldStep rt) c₀ c s)
    (hsees : Sees opening c s now) :
    ∃ events, alertsForVault (snapshot opening c s) (now / 1000) = .ok events ∧
      ∀ j H, Waits c s j H → ∀ m : HoldMark,
        m.Passed H.input.clock (s.vault.pending.row j).unlockAt.toInt (now / 1000) →
        ∃ e ∈ events, e.withdrawalId = toString (s.vault.pending.row j).id.toNat ∧
          e.alert = m.alert ∧ e.mark = m.text := by
  have hentries : ∀ e ∈ (snapshot opening c s).entries, e.ts ≤ LAST_SECOND := by
    intro entry hentry
    obtain ⟨e, he, rfl⟩ := List.mem_map.mp hentry
    exact hsees.record_dates e he
  have hunlocks : ∀ row ∈ (snapshot opening c s).pending, row.unlockAt ≤ LAST_SECOND := by
    intro row hrow
    obtain ⟨k, hk, rfl⟩ := mem_pending_iff.mp hrow
    exact hsees.unlock_dates k hk
  have hdelay : 0 ≤ (snapshot opening c s).delaySecs := by
    show (0 : Int) ≤ s.vault.delaySecs.toInt
    rcases (valid_of_run hopen run).delay with hone | htwo | hthree
    · rw [hone]
      decide
    · rw [htwo]
      decide
    · rw [hthree]
      decide
  obtain ⟨events, hevents, hrows⟩ : ∃ events,
      alertsForVault (snapshot opening c s) (now / 1000) = .ok events ∧
        ∀ row ∈ (snapshot opening c s).pending, ∀ alerts,
          rowAlerts (snapshot opening c s) (now / 1000) row = .ok alerts →
            ∀ e ∈ alerts, e ∈ events :=
    alertsForVault_ok hentries hunlocks hdelay
  refine ⟨events, hevents, ?_⟩
  intro j H hwaits m hpassed
  have hcreated := createdAt_snapshot hopen run hsees hwaits
  have halerts : rowAlerts (snapshot opening c s) (now / 1000) (.ofRow (s.vault.pending.row j)) =
      cadence (snapshot opening c s).address.display (.ofRow (s.vault.pending.row j))
        (createdAt (snapshot opening c s) (.ofRow (s.vault.pending.row j))) (now / 1000) :=
    rowAlerts_eq (lookup_snapshot hopen run hwaits.pending)
      (unrecovered_snapshot hopen run hsees hwaits)
  rw [hcreated] at halerts
  have hwait : H.input.clock + 6 * HOUR < (HoldPending.ofRow (s.vault.pending.row j)).unlockAt := by
    have hday := waits_a_day hopen run hwaits
    unfold HOUR at hday ⊢
    show H.input.clock + 6 * 3600 < (s.vault.pending.row j).unlockAt.toInt
    omega
  have hrow : HoldPending.ofRow (s.vault.pending.row j) ∈ (snapshot opening c s).pending :=
    mem_pending_iff.mpr ⟨j, hwaits.pending, rfl⟩
  have hunlock : (HoldPending.ofRow (s.vault.pending.row j)).unlockAt ≤ LAST_SECOND :=
    hunlocks _ hrow
  have hcreation : H.input.clock ≤ LAST_SECOND := by
    unfold HOUR at hwait
    omega
  obtain ⟨alerts, hcadence⟩ : ∃ alerts, cadence (snapshot opening c s).address.display
      (.ofRow (s.vault.pending.row j)) H.input.clock (now / 1000) = .ok alerts :=
    mapM_of_forall fun due _ => makeEvent_ok hunlock hcreation _ _ _ _ _ _
  obtain ⟨e, he⟩ := makeEvent_ok hunlock hcreation (snapshot opening c s).address.display
    (HoldPending.ofRow (s.vault.pending.row j)).id m.alert m.text
    (HoldPending.ofRow (s.vault.pending.row j)).amount
    (HoldPending.ofRow (s.vault.pending.row j)).destination
  have hmem : e ∈ alerts := mem_mapM_of_mem hcadence (due_of_passed hwait hpassed) he
  obtain ⟨-, halert, hmark⟩ := made_of_makeEvent he
  refine ⟨e, hrows _ hrow alerts (halerts.trans hcadence) e hmem, ?_, halert, hmark⟩
  exact (makeEvent_eq_ok he).1

end Scan

/-! ## Along a run -/

section Runs

variable {rt : Runtime} {opening : HoldOutput} {c₀ : HoldState} {s : WatchState} {h : WatchHistory}

/-- A scan of a date raises what is new of the events of the vault. -/
theorem scanVault_ok {now : Int} {snap : HoldWatch} {events : List HoldAlertEvent}
    (hread : readHoldVault s.chain.key s.chain.vault.data
      (Raw.holdLedgerData s.chain.ledger.raw) = .ok snap)
    (hdate : now.natAbs ≤ 8640000000000000)
    (hevents : alertsForVault snap (now / 1000) = .ok events) :
    ∃ ts, scanVault now s = notifyNew ts events s.journal := by
  obtain ⟨ts, hts⟩ : ∃ ts, isoText now = .ok ts := by
    rw [isoText, toISOString, if_pos hdate]
    exact ⟨_, rfl⟩
  refine ⟨ts, ?_⟩
  unfold scanVault raiseHoldAlerts
  rw [hread]
  dsimp only
  rw [hts]
  dsimp only [raiseEach]
  rw [hevents]
  dsimp only
  rw [List.append_nil]

/-- Every event of a scan is in the journal after it. -/
theorem notifyNew_has (ts : String) {events : List HoldAlertEvent} {e : HoldAlertEvent}
    (he : e ∈ events) (journal : HoldAlertJournal) :
    (notifyNew ts events journal).1.has e.key = true := by
  induction events generalizing journal with
  | nil => cases he
  | cons event events ih =>
      have hkept : ∀ journal : HoldAlertJournal, journal.has e.key = true →
          (notifyNew ts events journal).1.has e.key = true := by
        intro journal hhas
        rw [(notifyNew_notified ts events journal).journal_eq, has_append, hhas]
        rfl
      unfold notifyNew
      by_cases hhas : journal.has event.key = true
      · rw [if_pos hhas]
        rcases List.mem_cons.mp he with rfl | he
        · exact hkept journal hhas
        · exact ih he journal
      · rw [if_neg hhas]
        rcases List.mem_cons.mp he with rfl | he
        · refine hkept _ ?_
          rw [has_append, Bool.or_eq_true]
          exact .inr (List.any_eq_true.mpr ⟨_, List.mem_singleton_self _, decide_eq_true rfl⟩)
        · exact ih he _

/-- What is in the journal was raised, and every event raised is one of the vault. -/
theorem journal_raised (run : Run (WatchStep rt) ⟨c₀, []⟩ h s) :
    (∀ key, s.journal.has key = true → ∃ e ∈ raisedBy h, e.key = key) ∧
      ∀ e ∈ raisedBy h, Made s.chain.key.display e := by
  refine run.carries (P := fun h (s : WatchState) =>
    (∀ key, s.journal.has key = true → ∃ e ∈ raisedBy h, e.key = key) ∧
      ∀ e ∈ raisedBy h, Made s.chain.key.display e) ?_ ?_
  · exact ⟨by simp [HoldAlertJournal.has], by simp [raisedBy]⟩
  intro h s i o s' _ ih hstep
  obtain ⟨i', o', rfl, rfl, hexec, hjournal⟩ | ⟨now, rfl, rfl, hchain, hjournal⟩ := hstep.cases
  · rw [hjournal, hexec.stepEffect.key_eq]
    exact ih
  · obtain ⟨ts, events, hscan⟩ := scan_notified now s
    have hraised : raisedBy (⟨s, .scan now, .scan (scanVault now s).2, s'⟩ :: h) =
        (scanVault now s).2 ++ raisedBy h := rfl
    rw [hjournal, hraised, hscan.journal_eq, hchain]
    constructor
    · intro key hkey
      rw [has_append, Bool.or_eq_true] at hkey
      rcases hkey with hold | hnew
      · obtain ⟨e, he, hsame⟩ := ih.1 key hold
        exact ⟨e, List.mem_append_right _ he, hsame⟩
      · obtain ⟨row, hrow, hkey⟩ := List.any_eq_true.mp hnew
        obtain ⟨e, he, rfl⟩ := List.mem_map.mp hrow
        exact ⟨e, List.mem_append_left _ he, of_decide_eq_true hkey⟩
    · intro e he
      rcases List.mem_append.mp he with he | he
      · obtain hnone | ⟨snap, ts, events, hsnap, hevents, hscan⟩ := scanVault_eq now s
        · rw [hnone] at he
          cases he
        · rw [hscan] at he
          have hmade := alertsForVault_made hevents
            ((notifyNew_notified ts events s.journal).sublist.subset he)
          have haddress : snap.address = s.chain.key := by
            unfold readHoldVault at hsnap
            rw [readPending_data, ok_bind] at hsnap
            obtain ⟨_, -, hsnap⟩ := bind_ok_iff.mp hsnap
            obtain ⟨_, -, hsnap⟩ := bind_ok_iff.mp hsnap
            cases hsnap
            rfl
          rw [haddress] at hmade
          exact hmade
      · exact ih.2 e he

/-- **The cadence of hold alerts.**  In every run whose scans still see when each row was
created, no timed alert is early, no key is raised twice, and no mark that has passed is
left out. -/
theorem hold_cadence_when (hopen : Opens rt opening c₀)
    (run : Run (WatchStep rt) ⟨c₀, []⟩ h s) (hsees : ScansSee opening h) : Cadence h where
  never_early := by
    intro newer S older now hsplit hinput j H hwaits
    have hscan := hsees newer S older now hsplit hinput
    subst hsplit
    obtain ⟨before, hstep, -⟩ := run.split
    have chain := chain_run before
    intro e he hid htimed
    obtain ⟨i', o', hi, -⟩ | ⟨now', hi, houtput, -⟩ := hstep.cases
    · rw [hinput] at hi
      cases hi
    · rw [hinput] at hi
      cases hi
      unfold WatchTransition.raised at he
      rw [houtput] at he
      dsimp only at he
      obtain hnone | ⟨snap, ts, events, hsnap, hevents, heq⟩ := scanVault_eq now S.pre
      · rw [hnone] at he
        cases he
      · rw [readHoldVault_eq (hold_ring_holds hopen chain)] at hsnap
        cases hsnap
        rw [heq] at he
        have hdue := (notifyNew_notified ts events S.pre.journal).sublist.subset he
        exact scan_not_early hopen chain hscan hwaits hevents hdue hid htimed
  once := (raised_once run).1
  complete := by
    intro newer S older now hsplit hinput j H hwaits m hpassed
    have hscan := hsees newer S older now hsplit hinput
    subst hsplit
    obtain ⟨before, hstep, -⟩ := run.split
    have chain := chain_run before
    have after : Run (WatchStep rt) ⟨c₀, []⟩ (S :: older) S.post := .next before hstep
    obtain ⟨hraised, hmade⟩ := journal_raised after
    obtain ⟨i', o', hi, -⟩ | ⟨now', hi, -, hchain, hjournal⟩ := hstep.cases
    · rw [hinput] at hi
      cases hi
    · rw [hinput] at hi
      cases hi
      obtain ⟨events, hevents, hmarks⟩ := scan_complete hopen chain hscan
      obtain ⟨e, he, hid, halert, hmark⟩ := hmarks j H hwaits m hpassed
      obtain ⟨ts, heq⟩ := scanVault_ok
        (readHoldVault_eq (hold_ring_holds hopen chain) S.pre.chain.key S.pre.chain.vault)
        hscan.scan_date hevents
      have hhas : S.post.journal.has e.key = true := by
        rw [hjournal, heq]
        exact notifyNew_has ts he S.pre.journal
      -- an event with its key was raised, and the key tells what it is
      obtain ⟨e', he', hkey⟩ := hraised e.key hhas
      have hmine := alertsForVault_made hevents he
      have hother := hmade e' he'
      rw [hchain] at hother
      obtain ⟨id', hid'⟩ := hother.id
      obtain ⟨id, hide⟩ := hmine.id
      rw [hother.key, hmine.key, hother.vault, hmine.vault, hid', hide] at hkey
      obtain ⟨hids, halerts, hmarks⟩ := eventKey_inj hkey
      refine ⟨e', he', hother.vault, ?_, ?_, ?_⟩
      · rw [hid', hids, ← hide, hid]
      · rw [halerts, halert]
      · rw [hmarks, hmark]

end Runs

/-! ### Three histories -/

section Samples

/-- A withdrawal is held and the scan comes an hour later. -/
def hourRun : Except ProgramError (WatchHistory × WatchState) :=
  execAll (WatchState.exec vaultRuntime) [] ⟨(okValue (openSample 2) openSample_ok).2, []⟩
    [.instr (fundVault 10 1000), .instr (withdrawTo 20 40), .scan 3700000]

theorem hourRun_ok : hourRun.toBool = true := rfl

def hourHistory : WatchHistory := (okValue hourRun hourRun_ok).1

theorem hourHistory_ne_nil : hourHistory ≠ [] :=
  okValue_ne_nil hourRun_ok (List.cons_ne_nil _ _)

theorem hourHistory_sees : ScansSee (okValue (openSample 2) openSample_ok).1 hourHistory := by
  intro newer S older now hsplit hinput
  rw [← List.cons_head_tail hourHistory_ne_nil] at hsplit
  cases newer with
  | cons T newer =>
      -- the other transitions are instructions
      obtain ⟨-, htail⟩ := List.cons.inj hsplit
      have hno : ∀ T ∈ hourHistory.tail, T.isScan = false := by decide +kernel
      have hmem : S ∈ hourHistory.tail := by
        rw [htail]
        exact List.mem_append_right _ List.mem_cons_self
      have hscan := hno S hmem
      unfold WatchTransition.isScan at hscan
      rw [hinput] at hscan
      cases hscan
  | nil =>
      obtain ⟨rfl, rfl⟩ := List.cons.inj hsplit
      have hnow : (hourHistory.head hourHistory_ne_nil).input = .scan 3700000 := rfl
      rw [hnow] at hinput
      cases hinput
      constructor
      · intro j H hwaits
        have hheld : ∀ j : Fin HOLD_PENDING_CAPACITY,
            ((hourHistory.head hourHistory_ne_nil).pre.chain.vault.pending.row j).status =
              .pending →
            ∃ e ∈ lastRecords (okValue (openSample 2) openSample_ok).1
                (chainHistory hourHistory.tail), e.kind = .held ∧ e.withdrawalId =
              ((hourHistory.head hourHistory_ne_nil).pre.chain.vault.pending.row j).id := by
          decide +kernel
        exact .inl (hheld j hwaits.pending)
      · intro j H hwaits r hr
        have hnone : ((lastRecords (okValue (openSample 2) openSample_ok).1
            (chainHistory hourHistory.tail)).filter fun e => e.kind = .recovered).getLast? =
              none := by decide +kernel
        rw [hnone] at hr
        cases hr
      · decide
      · decide +kernel
      · decide +kernel

theorem hold_cadence_when_hour : Cadence hourHistory :=
  hold_cadence_when instantRun_opens (run_okValue hourRun_ok) hourHistory_sees

/-- The vault is recovered, and in the same second the owner deposits again and withdraws. -/
def sameSecondRun : Except ProgramError (WatchHistory × WatchState) :=
  execAll (WatchState.exec vaultRuntime) [] ⟨(okValue (openSample 2) openSample_ok).2, []⟩
    [.instr (fundVault 10 300), .instr (recoverToSafe 20), .instr (fundVault 20 200),
      .instr (withdrawTo 20 40), .scan 30000]

theorem sameSecondRun_ok : sameSecondRun.toBool = true := rfl

def sameSecondHistory : WatchHistory := (okValue sameSecondRun sameSecondRun_ok).1

theorem sameSecondHistory_ne_nil : sameSecondHistory ≠ [] :=
  okValue_ne_nil sameSecondRun_ok (List.cons_ne_nil _ _)

/-- A withdrawal is held, thirty-two are refused for lack of funds, the delay goes up from one
day to three, and the scan comes one second later. -/
def evictedRun : Except ProgramError (WatchHistory × WatchState) :=
  execAll (WatchState.exec vaultRuntime) [] ⟨(okValue (openSample 2) openSample_ok).2, []⟩
    ([.instr (fundVault 1000000 300), .instr (withdrawTo 1000000 40)] ++
      List.replicate 32 (.instr (withdrawTo 1000000 500)) ++
      [.instr (proposeValues 1000000 ⟨100, HOLD_DELAY_3_DAYS, 2500, 2, 5⟩), .scan 1000001000])

theorem evictedRun_ok : evictedRun.toBool = true := by decide +kernel

def evictedHistory : WatchHistory := (okValue evictedRun evictedRun_ok).1

theorem evictedHistory_ne_nil : evictedHistory ≠ [] :=
  okValue_ne_nil evictedRun_ok (by decide)

theorem sameSecond_length : 0 < (chainHistory sameSecondHistory.tail).length := by decide +kernel

theorem sameSecond_held : ∃ H, Waits (chainHistory sameSecondHistory.tail)
    (sameSecondHistory.head sameSecondHistory_ne_nil).pre.chain ⟨0, by decide⟩ H ∧
      H.input.clock = 20 :=
  ⟨(chainHistory sameSecondHistory.tail).get ⟨0, sameSecond_length⟩,
    ⟨by decide +kernel, List.get_mem _ _,
      ⟨⟨_, _, rfl⟩, by decide +kernel, rfl, by decide +kernel⟩⟩, rfl⟩

theorem evicted_length : 33 < (chainHistory evictedHistory.tail).length := by decide +kernel

theorem evicted_held : ∃ H, Waits (chainHistory evictedHistory.tail)
    (evictedHistory.head evictedHistory_ne_nil).pre.chain ⟨0, by decide⟩ H ∧
      H.input.clock = 1000000 :=
  ⟨(chainHistory evictedHistory.tail).get ⟨33, evicted_length⟩,
    ⟨by decide +kernel, List.get_mem _ _,
      ⟨⟨_, _, rfl⟩, by decide +kernel, rfl, by decide +kernel⟩⟩, rfl⟩

/-- The withdrawal of the same second never has its `created` alert; the one whose record was
pushed out is told that twelve hours have passed after one second. -/
theorem hold_cadence_fails :
    Opens vaultRuntime (okValue (openSample 2) openSample_ok).1
        (okValue (openSample 2) openSample_ok).2 ∧
      (Run (WatchStep vaultRuntime) ⟨(okValue (openSample 2) openSample_ok).2, []⟩
        sameSecondHistory (okValue sameSecondRun sameSecondRun_ok).2 ∧
        ¬ Cadence sameSecondHistory) ∧
      Run (WatchStep vaultRuntime) ⟨(okValue (openSample 2) openSample_ok).2, []⟩
        evictedHistory (okValue evictedRun evictedRun_ok).2 ∧ ¬ Cadence evictedHistory := by
  refine ⟨instantRun_opens, ⟨run_okValue sameSecondRun_ok, ?_⟩, run_okValue evictedRun_ok, ?_⟩
  · intro hcadence
    obtain ⟨H, hwaits, hclock⟩ := sameSecond_held
    have hpassed : HoldMark.created.Passed H.input.clock
        ((sameSecondHistory.head sameSecondHistory_ne_nil).pre.chain.vault.pending.row
          ⟨0, by decide⟩).unlockAt.toInt (30000 / 1000) := by
      constructor
      · rw [hclock]
        decide
      · intro n h
        cases h
    obtain ⟨e, he, -, -, halert, -⟩ := hcadence.complete [] _ _ 30000
      (List.cons_head_tail sameSecondHistory_ne_nil).symm rfl _ H hwaits .created hpassed
    have hnone : ∀ e ∈ raisedBy sameSecondHistory, e.alert ≠ .created := by decide +kernel
    rw [List.cons_head_tail] at he
    exact hnone e he halert
  · intro hcadence
    obtain ⟨H, hwaits, hclock⟩ := evicted_held
    obtain ⟨e, he, hid, halert⟩ : ∃ e ∈ (evictedHistory.head evictedHistory_ne_nil).raised,
        e.withdrawalId = toString
          ((evictedHistory.head evictedHistory_ne_nil).pre.chain.vault.pending.row
            ⟨0, by decide⟩).id.toNat ∧ e.alert = .after12h := by decide +kernel
    obtain ⟨m, hm, -, htime⟩ := hcadence.never_early [] _ _ 1000001000
      (List.cons_head_tail evictedHistory_ne_nil).symm rfl _ H hwaits e he hid (by rw [halert]; rfl)
    rw [halert] at hm
    cases m with
    | after12h =>
        rw [hclock] at htime
        exact absurd htime (by decide)
    | _ => cases hm

end Samples

end Veto.Watcher.Hold

import Veto.Hold.Lifecycle
import Veto.Watcher.HoldAlerts

/-!
# Scans along the history of a vault

The watcher scans a vault at arbitrary times between its instructions.  A key is raised once.
A `recovered` alert is raised for a row that waits, and a `recover` leaves none waiting: so no
scan after it tells of the withdrawals it ended.
-/

namespace Veto.Watcher.Hold

open Foundation

/-- A vault and the journal of its alerts. -/
structure WatchState where
  chain : HoldState
  journal : HoldAlertJournal

inductive WatchInput
  | instr (i : HoldInput)
  /-- A scan, at a time in milliseconds. -/
  | scan (now : Int)

inductive WatchOutput
  | instr (o : HoldOutput)
  | scan (raised : List HoldAlertEvent)

/-- One vault of `scanHoldVaults`: a vault that cannot be read raises nothing. -/
def scanVault (now : Int) (s : WatchState) : HoldAlertJournal × List HoldAlertEvent :=
  match readHoldVault s.chain.key s.chain.vault.data (Raw.holdLedgerData s.chain.ledger.raw) with
  | .error _ => (s.journal, [])
  | .ok snap =>
      let raised := raiseHoldAlerts now [snap] s.journal
      (raised.journal, raised.notified)

def WatchState.exec (rt : Runtime) (s : WatchState) :
    WatchInput → Except ProgramError (WatchOutput × WatchState)
  | .instr i => do
      let (o, chain) ← s.chain.exec rt i
      return (.instr o, { s with chain })
  | .scan now => .ok (.scan (scanVault now s).2, { s with journal := (scanVault now s).1 })

def WatchStep (rt : Runtime) (s : WatchState) (i : WatchInput) (o : WatchOutput)
    (s' : WatchState) : Prop :=
  s.exec rt i = .ok (o, s')

abbrev WatchTransition := Transition WatchState WatchInput WatchOutput

abbrev WatchHistory := List WatchTransition

namespace WatchTransition

variable (T : WatchTransition)

/-- What a transition raised. -/
def raised : List HoldAlertEvent :=
  match T.output with
  | .instr _ => []
  | .scan raised => raised

def isScan : Bool :=
  match T.input with
  | .instr _ => false
  | .scan _ => true

/-- The instruction of a transition, as a transition of the vault. -/
def instr? : Option HoldTransition :=
  match T.input, T.output with
  | .instr i, .instr o => some ⟨T.pre.chain, i, o, T.post.chain⟩
  | _, _ => none

/-- A `recover` that finds the withdrawal `id` waiting. -/
def Ends (id : UInt64) : Prop :=
  (∃ i accts, T.input = .instr i ∧ i.instr = .recover accts) ∧
    ∃ j : Fin HOLD_PENDING_CAPACITY, (T.pre.chain.vault.pending.row j).status = .pending ∧
      (T.pre.chain.vault.pending.row j).id = id

end WatchTransition

/-- The history of the vault alone. -/
def chainHistory (h : WatchHistory) : HoldHistory := h.filterMap WatchTransition.instr?

/-- The earliest scan of a history, which is written latest first. -/
def firstScan (h : WatchHistory) : Option WatchTransition := h.reverse.find? (·.isScan)

def raisedBy (h : WatchHistory) : List HoldAlertEvent := h.flatMap WatchTransition.raised

/-- How many of the events are `recovered` alerts for the withdrawal. -/
def recoveredAlerts (vault : Pubkey) (id : UInt64) (events : List HoldAlertEvent) : Nat :=
  events.countP fun e =>
    e.alert = .recovered ∧ e.vault = vault.display ∧ e.withdrawalId = toString id.toNat

/-- Every withdrawal that a `recover` ends gets its `recovered` alert at the first scan after
it, and gets one such alert in all. -/
def AlertsRecovers (h : WatchHistory) : Prop :=
  ∀ newer R older id S, h = newer ++ R :: older → R.Ends id → firstScan newer = some S →
    recoveredAlerts R.pre.chain.key id S.raised = 1 ∧
      recoveredAlerts R.pre.chain.key id (raisedBy h) = 1

/-- No `recover` that a scan follows finds a withdrawal waiting. -/
def RecoversNothing (h : WatchHistory) : Prop :=
  ∀ newer R older id, h = newer ++ R :: older → (firstScan newer).isSome → ¬ R.Ends id

/-! ## The vault under the watch -/

section Steps

variable {rt : Runtime} {s₀ s s' : WatchState} {i : WatchInput} {o : WatchOutput}
  {h : WatchHistory}

/-- What one step does: an instruction of the vault, or a scan. -/
theorem WatchStep.cases (hstep : WatchStep rt s i o s') :
    (∃ i' o', i = .instr i' ∧ o = .instr o' ∧ HoldStep rt s.chain i' o' s'.chain ∧
      s'.journal = s.journal) ∨
    (∃ now, i = .scan now ∧ o = .scan (scanVault now s).2 ∧ s'.chain = s.chain ∧
      s'.journal = (scanVault now s).1) := by
  unfold WatchStep WatchState.exec at hstep
  cases i with
  | instr i =>
      obtain ⟨⟨o', chain⟩, hexec, hret⟩ := bind_ok_iff.mp hstep
      cases hret
      exact .inl ⟨i, o', rfl, rfl, hexec, rfl⟩
  | scan now =>
      cases hstep
      exact .inr ⟨now, rfl, rfl, rfl, rfl⟩

/-- A watched run is a run of the vault. -/
theorem chain_run (run : Run (WatchStep rt) s₀ h s) :
    Run (HoldStep rt) s₀.chain (chainHistory h) s.chain := by
  refine run.carries (P := fun h (s : WatchState) =>
    Run (HoldStep rt) s₀.chain (chainHistory h) s.chain) .start ?_
  intro h s i o s' _ ih hstep
  obtain ⟨i', o', rfl, rfl, hexec, -⟩ | ⟨now, rfl, rfl, hchain, -⟩ := hstep.cases
  · exact ih.next hexec
  · rw [hchain]
    exact ih

end Steps

/-! ## What a scan raises -/

section Alerts

variable {vault : HoldWatch} {nowSec : Int} {row : HoldPending} {entry : HoldLedgerEntry}
  {events : List HoldAlertEvent} {e : HoldAlertEvent}

theorem makeEvent_eq_ok {address mark : String} {id amount unlockAt created : Int}
    {alert : HoldAlertName} {destination : Pubkey}
    (h : makeEvent address id alert mark amount destination unlockAt created = .ok e) :
    e.withdrawalId = toString id ∧ e.alert = alert := by
  unfold makeEvent at h
  obtain ⟨_, -, h⟩ := bind_ok_iff.mp h
  obtain ⟨_, -, h⟩ := bind_ok_iff.mp h
  cases h
  exact ⟨rfl, rfl⟩

/-- One event at most, made by `makeEvent`. -/
theorem single_event {make : Except Thrown HoldAlertEvent}
    (h : (do return [← make]) = Except.ok events) (he : e ∈ events) : make = .ok e := by
  obtain ⟨e', hmake, h⟩ := bind_ok_iff.mp h
  cases h
  rw [List.mem_singleton] at he
  rw [hmake, he]

/-- Every alert for a row is about the row. -/
theorem rowAlerts_id (h : rowAlerts vault nowSec row = .ok events) (he : e ∈ events) :
    e.withdrawalId = toString row.id := by
  have hcadence : ∀ created, cadence vault.address.display row created nowSec = .ok events →
      e.withdrawalId = toString row.id := by
    intro created hcadence
    obtain ⟨due, -, hmake⟩ := mem_of_mapM hcadence he
    exact (makeEvent_eq_ok hmake).1
  unfold rowAlerts at h
  dsimp only at h
  split at h
  · split at h
    · cases h
      cases he
    · exact (makeEvent_eq_ok (single_event h he)).1
  · split at h
    · split at h
      · exact (makeEvent_eq_ok (single_event h he)).1
      · exact hcadence _ h
    · exact hcadence _ h

/-- A record of an end is told as the end it is, which is no recovery. -/
theorem endAlerts_alert (h : endAlerts vault entry = .ok events) (he : e ∈ events) :
    specificEnd entry.kind = some e.alert := by
  unfold endAlerts at h
  split at h
  · cases h
    cases he
  · dsimp only at h
    split at h
    · cases h
      cases he
    · rename_i name hname
      rw [hname, (makeEvent_eq_ok (single_event h he)).2]

theorem specificEnd_ne_recovered (kind : UInt8) : specificEnd kind ≠ some .recovered := by
  unfold specificEnd
  split_ifs <;> simp

/-- A `recovered` alert is about a row that waits. -/
theorem alertsForVault_recovered (h : alertsForVault vault nowSec = .ok events) (he : e ∈ events)
    (halert : e.alert = .recovered) : ∃ row ∈ vault.pending, e.withdrawalId = toString row.id := by
  unfold alertsForVault at h
  obtain ⟨waiting, hwaiting, h⟩ := bind_ok_iff.mp h
  obtain ⟨ended, hended, h⟩ := bind_ok_iff.mp h
  cases h
  rcases List.mem_append.mp he with he | he
  · obtain ⟨alerts, halerts, he⟩ := List.mem_flatten.mp he
    obtain ⟨row, hrow, hrows⟩ := mem_of_mapM hwaiting halerts
    exact ⟨row, hrow, rowAlerts_id hrows he⟩
  · obtain ⟨alerts, halerts, he⟩ := List.mem_flatten.mp he
    obtain ⟨end', -, hend⟩ := mem_of_mapM hended halerts
    have hname := endAlerts_alert hend he
    rw [halert] at hname
    exact absurd hname (specificEnd_ne_recovered _)

/-! `notifyNew` by what it leaves. -/

structure Notified (ts : String) (events : List HoldAlertEvent) (journal : HoldAlertJournal)
    (result : HoldAlertJournal × List HoldAlertEvent) : Prop where
  journal_eq : result.1 = journal ++ result.2.map fun event => { event with ts }
  sublist : result.2.Sublist events
  fresh : ∀ event ∈ result.2, journal.has event.key = false
  once : (result.2.map HoldAlertEvent.key).Nodup

theorem has_append (journal more : HoldAlertJournal) (key : String) :
    HoldAlertJournal.has (journal ++ more) key = (journal.has key || more.has key) :=
  List.any_append

theorem notifyNew_notified (ts : String) (events : List HoldAlertEvent)
    (journal : HoldAlertJournal) :
    Notified ts events journal (notifyNew ts events journal) := by
  induction events generalizing journal with
  | nil => exact ⟨(List.append_nil _).symm, List.Sublist.refl _, by simp [notifyNew], List.nodup_nil⟩
  | cons event events ih =>
      unfold notifyNew
      by_cases hhas : journal.has event.key = true
      · rw [if_pos hhas]
        exact ⟨(ih journal).journal_eq, (ih journal).sublist.cons event, (ih journal).fresh,
          (ih journal).once⟩
      · rw [if_neg hhas]
        rw [Bool.not_eq_true] at hhas
        have hrest := ih (journal ++ [{ event with ts }])
        generalize notifyNew ts events (journal ++ [{ event with ts }]) = result at hrest
        obtain ⟨journal', raised⟩ := result
        have hkept : ∀ event' ∈ raised, journal.has event'.key = false ∧
            event.key ≠ event'.key := by
          intro event' hmem
          have hfresh := hrest.fresh event' hmem
          rw [has_append, Bool.or_eq_false_iff] at hfresh
          exact ⟨hfresh.1, by simpa [HoldAlertJournal.has] using hfresh.2⟩
        refine ⟨?_, hrest.sublist.cons_cons event, ?_, ?_⟩
        · have hjournal := hrest.journal_eq
          dsimp only at hjournal ⊢
          rw [hjournal, List.append_assoc]
          rfl
        · intro event' hmem
          rcases List.mem_cons.mp hmem with rfl | hmem
          · exact hhas
          · exact (hkept event' hmem).1
        · rw [List.map_cons, List.nodup_cons]
          refine ⟨?_, hrest.once⟩
          intro hmem
          obtain ⟨event', hmem, hkey⟩ := List.mem_map.mp hmem
          exact (hkept event' hmem).2 hkey.symm

end Alerts

/-! ## What a scan sees -/

theorem readPending_data (vault : HoldVault) :
    readPending vault.data =
      .ok ((vault.pending.toList.filterMap PendingView.of?).map HoldPending.of) := by
  have hdisc : requireDisc vault.data HOLD_VAULT_DISCRIMINATOR "hold vault" = .ok () := by
    unfold requireDisc throwUnless
    refine require_true ⟨?_, vault.disc_at⟩
    rw [vault.length_data]
    decide
  have hlong : VAULT_LEN ≤ vault.data.length := by
    rw [vault.length_data]
    decide
  unfold readPending
  rw [hdisc, ok_bind, throwUnless, require_true hlong, ok_bind, pending_read, ok_bind,
    List.filterMap_map, Function.id_comp]
  rfl

/-- A row of a snapshot is a row of the vault that waits. -/
theorem row_of_snapshot {address : Pubkey} {vault : HoldVault} {ledgerData : Bytes}
    {snap : HoldWatch} (h : readHoldVault address vault.data ledgerData = .ok snap)
    {row : HoldPending} (hrow : row ∈ snap.pending) :
    ∃ j : Fin HOLD_PENDING_CAPACITY, (vault.pending.row j).status = .pending ∧
      row.id = (vault.pending.row j).id.toNat := by
  unfold readHoldVault at h
  rw [readPending_data, ok_bind] at h
  obtain ⟨_, -, h⟩ := bind_ok_iff.mp h
  obtain ⟨_, -, h⟩ := bind_ok_iff.mp h
  cases h
  obtain ⟨view, hview, rfl⟩ := List.mem_map.mp hrow
  obtain ⟨slot, hslot, hview⟩ := List.mem_filterMap.mp hview
  obtain ⟨j, hj, rfl⟩ := List.getElem_of_mem hslot
  have hlength : vault.pending.toList.length = HOLD_PENDING_CAPACITY := by simp
  refine ⟨⟨j, hlength ▸ hj⟩, ?_⟩
  unfold PendingView.of? at hview
  split at hview
  · rename_i hstatus
    cases hview
    exact ⟨hstatus, rfl⟩
  · cases hview

/-- A scan raises nothing, or what is new of the alerts that are due. -/
theorem scanVault_eq (now : Int) (s : WatchState) : scanVault now s = (s.journal, []) ∨
    ∃ snap ts events, readHoldVault s.chain.key s.chain.vault.data
        (Raw.holdLedgerData s.chain.ledger.raw) = .ok snap ∧
      alertsForVault snap (now / 1000) = .ok events ∧
      scanVault now s = notifyNew ts events s.journal := by
  unfold scanVault raiseHoldAlerts
  split
  · exact .inl rfl
  rename_i snap hsnap
  dsimp only
  split
  · exact .inl rfl
  rename_i ts _
  unfold raiseEach
  split
  · exact .inl rfl
  rename_i events hevents
  refine .inr ⟨snap, ts, events, hsnap, hevents, ?_⟩
  simp only [raiseEach, List.append_nil]

/-- What a scan raises is new to the journal, in which it is written down. -/
theorem scan_notified (now : Int) (s : WatchState) :
    ∃ ts events, Notified ts events s.journal (scanVault now s) := by
  obtain hnone | ⟨snap, ts, events, -, -, hscan⟩ := scanVault_eq now s
  · rw [hnone]
    exact ⟨"", [], (List.append_nil _).symm, List.Sublist.refl _, by simp, List.nodup_nil⟩
  · rw [hscan]
    exact ⟨ts, events, notifyNew_notified ts events s.journal⟩

/-- **A `recovered` alert is about a withdrawal that waits.** -/
theorem scan_recovered {now : Int} {s : WatchState} {e : HoldAlertEvent}
    (he : e ∈ (scanVault now s).2) (halert : e.alert = .recovered) :
    ∃ j : Fin HOLD_PENDING_CAPACITY, (s.chain.vault.pending.row j).status = .pending ∧
      e.withdrawalId = toString (s.chain.vault.pending.row j).id.toNat := by
  obtain hnone | ⟨snap, ts, events, hsnap, hevents, hscan⟩ := scanVault_eq now s
  · rw [hnone] at he
    cases he
  rw [hscan] at he
  have hdue := (notifyNew_notified ts events s.journal).sublist.subset he
  obtain ⟨row, hrow, hid⟩ := alertsForVault_recovered hevents hdue halert
  obtain ⟨j, hj, hrowid⟩ := row_of_snapshot hsnap hrow
  rw [hrowid] at hid
  exact ⟨j, hj, hid⟩

/-! ## Along a run -/

section Runs

variable {rt : Runtime} {opening : HoldOutput} {s₀ s : WatchState} {h newer older : WatchHistory}
  {R : WatchTransition} {id : UInt64}

theorem toString_id_inj {a b : Nat} (h : toString a = toString b) : a = b := by
  have hdigits : Nat.toDigits 10 a = Nat.toDigits 10 b := by
    rw [← Nat.toList_repr, ← Nat.toList_repr]
    exact congrArg String.toList h
  have hvalue := congrArg (fun digits => Nat.ofDigitChars 10 digits 0) hdigits
  simpa using hvalue

/-- **No key is raised twice.**  What was raised along a history is in the journal. -/
theorem raised_once (run : Run (WatchStep rt) s₀ h s) :
    ((raisedBy h).map HoldAlertEvent.key).Nodup ∧
      ∀ e ∈ raisedBy h, s.journal.has e.key = true := by
  refine run.carries (P := fun h (s : WatchState) =>
    ((raisedBy h).map HoldAlertEvent.key).Nodup ∧
      ∀ e ∈ raisedBy h, s.journal.has e.key = true) ⟨List.nodup_nil, by simp [raisedBy]⟩ ?_
  intro h s i o s' _ ih hstep
  obtain ⟨i', o', rfl, rfl, -, hjournal⟩ | ⟨now, rfl, rfl, -, hjournal⟩ := hstep.cases
  · rw [hjournal]
    exact ih
  · obtain ⟨ts, events, hscan⟩ := scan_notified now s
    have hraised : raisedBy (⟨s, .scan now, .scan (scanVault now s).2, s'⟩ :: h) =
        (scanVault now s).2 ++ raisedBy h := rfl
    rw [hjournal, hraised, hscan.journal_eq]
    constructor
    · rw [List.map_append, List.nodup_append]
      refine ⟨hscan.once, ih.1, ?_⟩
      intro key hnew key' hold heq
      obtain ⟨e, he, rfl⟩ := List.mem_map.mp hnew
      obtain ⟨e', he', rfl⟩ := List.mem_map.mp hold
      have hfresh := hscan.fresh e he
      rw [heq, ih.2 e' he'] at hfresh
      cases hfresh
    · intro e he
      rw [has_append, Bool.or_eq_true]
      rcases List.mem_append.mp he with he | he
      · right
        exact List.any_eq_true.mpr ⟨_, List.mem_map_of_mem he, decide_eq_true rfl⟩
      · exact .inl (ih.2 e he)

/-- After a `recover`, the ids of the rows that wait are ones given out since. -/
theorem newer_ids (hopen : Opens rt opening s₀.chain)
    (run : Run (WatchStep rt) s₀ (newer ++ R :: older) s) (hends : R.Ends id)
    {j : Fin HOLD_PENDING_CAPACITY} (hj : (s.chain.vault.pending.row j).status = .pending) :
    id < (s.chain.vault.pending.row j).id := by
  obtain ⟨before, hstep, after⟩ := run.split
  obtain ⟨⟨i, accts, hinput, hinstr⟩, k, hk, rfl⟩ := hends
  obtain ⟨i', o', hi, -, hexec, -⟩ | ⟨now, hi, -⟩ := hstep.cases
  · rw [hinput] at hi
    cases hi
    obtain ⟨hcleared, hnext⟩ := hexec.stepEffect.effect.cleared_of_recover hinstr
    have hbefore := desk_of_opens hopen (chain_run before)
    have hpos : 0 < R.post.chain.vault.nextWithdrawalId := by
      rw [hnext]
      exact UInt64.lt_iff_toNat_lt.mpr hbefore.first_le
    have hafter := desk_of_run hpos (fun k => by rw [hcleared]; simp [PendingWithdrawal.default])
      (chain_run after)
    have hlt := (row_range hbefore hk).2
    have hge := (row_range hafter hj).1
    rw [hnext] at hge
    rw [UInt64.lt_iff_toNat_lt] at hlt ⊢
    omega
  · rw [hinput] at hi
    cases hi

/-- **No scan after a `recover` tells of a withdrawal it ended.** -/
theorem no_recovered_after (hopen : Opens rt opening s₀.chain)
    (run : Run (WatchStep rt) s₀ (newer ++ R :: older) s) (hends : R.Ends id) {S : WatchTransition}
    (hS : S ∈ newer) (vault : Pubkey) : recoveredAlerts vault id S.raised = 0 := by
  obtain ⟨latest, between, rfl⟩ := List.append_of_mem hS
  rw [List.append_assoc, List.cons_append] at run
  obtain ⟨toScan, hstep, -⟩ := run.split
  unfold recoveredAlerts
  rw [List.countP_eq_zero]
  intro e he hrecovered
  obtain ⟨halert, -, hid⟩ := of_decide_eq_true hrecovered
  obtain ⟨i', o', -, houtput, -⟩ | ⟨now, -, houtput, -⟩ := hstep.cases
  · unfold WatchTransition.raised at he
    rw [houtput] at he
    cases he
  · unfold WatchTransition.raised at he
    rw [houtput] at he
    obtain ⟨j, hj, hrow⟩ := scan_recovered he halert
    have hlt := newer_ids hopen toScan hends hj
    rw [hid] at hrow
    rw [UInt64.lt_iff_toNat_lt, toString_id_inj hrow] at hlt
    exact Nat.lt_irrefl _ hlt

/-- **Alerts for recovers.**  Along every history of a vault with scans in it, every
withdrawal that a `recover` ends is told at the first scan after it, once, exactly when no
`recover` that a scan follows finds a withdrawal waiting. -/
theorem alertsRecovers_iff (hopen : Opens rt opening s₀.chain)
    (run : Run (WatchStep rt) s₀ h s) : AlertsRecovers h ↔ RecoversNothing h := by
  constructor
  · intro halerts newer R older id hsplit hscan hends
    obtain ⟨S, hS⟩ := Option.isSome_iff_exists.mp hscan
    obtain ⟨hone, -⟩ := halerts newer R older id S hsplit hends hS
    subst hsplit
    have hmem : S ∈ newer := List.mem_reverse.mp (List.mem_of_find?_eq_some hS)
    rw [no_recovered_after hopen run hends hmem] at hone
    exact Nat.zero_ne_one hone
  · intro hnothing newer R older id S hsplit hends hS
    exact absurd hends (hnothing newer R older id hsplit (by rw [hS]; rfl))

end Runs

/-! ### One such history -/

section Sample

def recoverToSafe (now : Int64) : HoldInput :=
  { now := now, signers := [2], instr := .recover { authority := 2, out := payoutTo 12 } }

/-- A withdrawal is held and seen, the guardian recovers the vault, and the next scan comes. -/
def watchedRun : Except ProgramError (WatchHistory × WatchState) :=
  execAll (WatchState.exec vaultRuntime) [] ⟨(okValue (openSample 2) openSample_ok).2, []⟩
    [.instr (fundVault 10 1000), .instr (withdrawTo 20 40), .scan 30000,
      .instr (recoverToSafe 40), .scan 50000]

theorem watchedRun_ok : watchedRun.toBool = true := rfl

def watchedHistory : WatchHistory := (okValue watchedRun watchedRun_ok).1

theorem watchedHistory_run : Run (WatchStep vaultRuntime)
    ⟨(okValue (openSample 2) openSample_ok).2, []⟩ watchedHistory
    (okValue watchedRun watchedRun_ok).2 :=
  run_okValue watchedRun_ok

theorem watchedHistory_length : watchedHistory.length = 5 := length_okValue watchedRun_ok

def recoverTransition : WatchTransition :=
  watchedHistory.get ⟨1, by rw [watchedHistory_length]; decide⟩

theorem watchedHistory_split :
    watchedHistory = watchedHistory.take 1 ++ recoverTransition :: watchedHistory.drop 2 := by
  unfold recoverTransition
  rw [List.get_eq_getElem, ← List.drop_eq_getElem_cons, List.take_append_drop]

theorem recoverTransition_ends : recoverTransition.Ends 1 :=
  ⟨⟨recoverToSafe 40, _, rfl, rfl⟩, ⟨0, by decide⟩, by decide, by decide⟩

theorem firstScan_isSome : (firstScan (watchedHistory.take 1)).isSome = true := by decide

theorem alertsRecovers_iff_watched :
    AlertsRecovers watchedHistory ↔ RecoversNothing watchedHistory :=
  alertsRecovers_iff instantRun_opens watchedHistory_run

/-- The withdrawal that the recover ended is never told as recovered. -/
theorem alertsRecovers_fails :
    Opens vaultRuntime (okValue (openSample 2) openSample_ok).1
        (okValue (openSample 2) openSample_ok).2 ∧
      Run (WatchStep vaultRuntime) ⟨(okValue (openSample 2) openSample_ok).2, []⟩ watchedHistory
        (okValue watchedRun watchedRun_ok).2 ∧
      ¬ AlertsRecovers watchedHistory := by
  refine ⟨instantRun_opens, watchedHistory_run, ?_⟩
  intro halerts
  obtain ⟨S, hS⟩ := Option.isSome_iff_exists.mp firstScan_isSome
  obtain ⟨-, hone⟩ := halerts _ _ _ 1 S watchedHistory_split recoverTransition_ends hS
  have hnone : recoveredAlerts recoverTransition.pre.chain.key 1 (raisedBy watchedHistory) = 0 := by
    decide +kernel
  rw [hnone] at hone
  exact Nat.zero_ne_one hone

end Sample

end Veto.Watcher.Hold

import Veto.Display
import Veto.Watcher.HoldMarks

/-!
# The events of a scan

What the events of one vault are and when there are any: each is about an end or a due mark, its
key tells it apart, and where all times are dates every row that waits has its events.
-/

namespace Veto.Watcher.Hold

open Foundation

/-! ## Events -/

section Events

variable {vault : HoldWatch} {nowSec : Int} {row : HoldPending} {entry : HoldLedgerEntry}
  {events : List HoldAlertEvent} {e : HoldAlertEvent}

def eventKey (vault id : String) (alert : HoldAlertName) (mark : String) : String :=
  vault ++ ":" ++ id ++ ":" ++ alert.text ++ ":" ++ mark

/-- An event of a vault, as `makeEvent` makes it. -/
structure Made (address : String) (e : HoldAlertEvent) : Prop where
  vault : e.vault = address
  id : ∃ id : Int, e.withdrawalId = toString id
  key : e.key = eventKey e.vault e.withdrawalId e.alert e.mark

theorem made_of_makeEvent {address mark : String} {id amount unlockAt created : Int}
    {alert : HoldAlertName} {destination : Pubkey}
    (h : makeEvent address id alert mark amount destination unlockAt created = .ok e) :
    Made address e ∧ e.alert = alert ∧ e.mark = mark := by
  unfold makeEvent at h
  obtain ⟨_, -, h⟩ := bind_ok_iff.mp h
  obtain ⟨_, -, h⟩ := bind_ok_iff.mp h
  cases h
  exact ⟨⟨rfl, ⟨id, rfl⟩, rfl⟩, rfl, rfl⟩

/-- The last second of the last day that a date can be. -/
def LAST_SECOND : Int := 8640000000000

theorem timeText_ok {sec : Int} (h : sec ≤ LAST_SECOND) : ∃ text, timeText sec = .ok text := by
  unfold timeText
  by_cases hzero : sec ≤ 0
  · exact ⟨"0", if_pos hzero⟩
  · unfold LAST_SECOND at h
    have hdate : (sec * 1000).natAbs ≤ 8640000000000000 := by omega
    rw [if_neg hzero, isoText, toISOString, if_pos hdate]
    exact ⟨_, rfl⟩

theorem makeEvent_ok {unlockAt created : Int} (hunlock : unlockAt ≤ LAST_SECOND)
    (hcreated : created ≤ LAST_SECOND) (address : String) (id : Int) (alert : HoldAlertName)
    (mark : String) (amount : Int) (destination : Pubkey) :
    ∃ e, makeEvent address id alert mark amount destination unlockAt created = .ok e := by
  obtain ⟨unlock, hunlock⟩ := timeText_ok hunlock
  obtain ⟨creation, hcreation⟩ := timeText_ok hcreated
  unfold makeEvent
  rw [hunlock, hcreation]
  exact ⟨_, rfl⟩

theorem specificEnd_untimed {kind : UInt8} {name : HoldAlertName}
    (h : specificEnd kind = some name) : name.timed = false := by
  unfold specificEnd at h
  split_ifs at h
  · cases h
    rfl
  · cases h
    rfl
  · cases h
    rfl

/-- An event about a row that waits: of an end, which has no time of its own, or one that is
due by the creation time the scan works with. -/
theorem rowAlerts_cases (h : rowAlerts vault nowSec row = .ok events) (he : e ∈ events) :
    Made vault.address.display e ∧ e.withdrawalId = toString row.id ∧
      (e.alert.timed = false ∨ (e.alert, e.mark) ∈ dueAlerts row (createdAt vault row) nowSec) := by
  have hid := rowAlerts_id h he
  have hcadence : cadence vault.address.display row (createdAt vault row) nowSec = .ok events →
      Made vault.address.display e ∧ e.withdrawalId = toString row.id ∧
        (e.alert.timed = false ∨
          (e.alert, e.mark) ∈ dueAlerts row (createdAt vault row) nowSec) := by
    intro hcadence
    obtain ⟨due, hdue, hmake⟩ := mem_of_mapM hcadence he
    obtain ⟨hmade, halert, hmark⟩ := made_of_makeEvent hmake
    exact ⟨hmade, hid, .inr (by rw [halert, hmark]; exact hdue)⟩
  unfold rowAlerts at h
  dsimp only at h
  split at h
  · split at h
    · cases h
      cases he
    · rename_i name hname
      obtain ⟨hmade, halert, -⟩ := made_of_makeEvent (single_event h he)
      exact ⟨hmade, hid, .inl (by rw [halert]; exact specificEnd_untimed hname)⟩
  · split at h
    · split at h
      · obtain ⟨hmade, halert, -⟩ := made_of_makeEvent (single_event h he)
        exact ⟨hmade, hid, .inl (by rw [halert]; rfl)⟩
      · exact hcadence h
    · exact hcadence h

/-- An event about a record that ends a withdrawal has no time of its own. -/
theorem endAlerts_cases (h : endAlerts vault entry = .ok events) (he : e ∈ events) :
    Made vault.address.display e ∧ e.alert.timed = false := by
  have hname := endAlerts_alert h he
  unfold endAlerts at h
  split at h
  · cases h
    cases he
  · dsimp only at h
    split at h
    · cases h
      cases he
    · exact ⟨(made_of_makeEvent (single_event h he)).1, specificEnd_untimed hname⟩

/-- Where the events of a vault come from. -/
theorem alertsForVault_cases (h : alertsForVault vault nowSec = .ok events) (he : e ∈ events) :
    (∃ row ∈ vault.pending, ∃ alerts, rowAlerts vault nowSec row = .ok alerts ∧ e ∈ alerts) ∨
      ∃ entry alerts, endAlerts vault entry = .ok alerts ∧ e ∈ alerts := by
  unfold alertsForVault at h
  obtain ⟨waiting, hwaiting, h⟩ := bind_ok_iff.mp h
  obtain ⟨ended, hended, h⟩ := bind_ok_iff.mp h
  cases h
  rcases List.mem_append.mp he with he | he
  · obtain ⟨alerts, halerts, he⟩ := List.mem_flatten.mp he
    obtain ⟨row, hrow, hrows⟩ := mem_of_mapM hwaiting halerts
    exact .inl ⟨row, hrow, alerts, hrows, he⟩
  · obtain ⟨alerts, halerts, he⟩ := List.mem_flatten.mp he
    obtain ⟨end', -, hend⟩ := mem_of_mapM hended halerts
    exact .inr ⟨end'.2, alerts, hend, he⟩

theorem alertsForVault_made (h : alertsForVault vault nowSec = .ok events) (he : e ∈ events) :
    Made vault.address.display e := by
  obtain ⟨row, -, alerts, halerts, he⟩ | ⟨entry, alerts, halerts, he⟩ := alertsForVault_cases h he
  · exact (rowAlerts_cases halerts he).1
  · exact (endAlerts_cases halerts he).1

end Events

/-! ## Keys tell events apart -/

theorem colon_not_mem_toString (id : Int) : ':' ∉ (toString id).toList := by
  have hdigits : ∀ n : Nat, ':' ∉ (Nat.repr n).toList := by
    intro n hmem
    rw [Nat.toList_repr] at hmem
    exact absurd (Nat.isDigit_of_mem_toDigits (by decide) (by decide) hmem) (by decide)
  cases id with
  | ofNat n => exact hdigits n
  | negSucc n =>
      change ':' ∉ ("-" ++ Nat.repr (n + 1)).toList
      rw [String.toList_append, List.mem_append, not_or]
      exact ⟨by decide, hdigits (n + 1)⟩

theorem HoldAlertName.colon_not_mem_text (alert : HoldAlertName) : ':' ∉ alert.text.toList := by
  cases alert <;> decide

theorem HoldAlertName.text_injective : Function.Injective HoldAlertName.text := by
  intro a b h
  cases a <;> cases b <;> first | rfl | exact absurd h (by decide)

/-- What stands before the first separator, and what behind it. -/
theorem append_sep_inj {α : Type} {sep : α} {front front' back back' : List α}
    (hfront : sep ∉ front) (hfront' : sep ∉ front')
    (h : front ++ sep :: back = front' ++ sep :: back') : front = front' ∧ back = back' := by
  rcases List.append_eq_append_iff.mp h with ⟨mid, hlong, hrest⟩ | ⟨mid, hlong, hrest⟩
  · cases mid with
    | nil => exact ⟨by rw [hlong, List.append_nil], (List.cons.inj hrest).2⟩
    | cons c mid =>
        obtain ⟨rfl, -⟩ := List.cons.inj hrest
        exact absurd (by rw [hlong]; exact List.mem_append_right _ List.mem_cons_self) hfront'
  · cases mid with
    | nil => exact ⟨by rw [hlong, List.append_nil], (List.cons.inj hrest).2.symm⟩
    | cons c mid =>
        obtain ⟨rfl, -⟩ := List.cons.inj hrest
        exact absurd (by rw [hlong]; exact List.mem_append_right _ List.mem_cons_self) hfront

theorem eventKey_inj {vault mark mark' : String} {id id' : Int} {alert alert' : HoldAlertName}
    (h : eventKey vault (toString id) alert mark = eventKey vault (toString id') alert' mark') :
    toString id = toString id' ∧ alert = alert' ∧ mark = mark' := by
  have hchars := congrArg String.toList h
  unfold eventKey at hchars
  simp only [String.toList_append, List.append_assoc, List.append_cancel_left_eq] at hchars
  change (toString id).toList ++ ':' :: (alert.text.toList ++ ':' :: mark.toList) =
    (toString id').toList ++ ':' :: (alert'.text.toList ++ ':' :: mark'.toList) at hchars
  obtain ⟨hid, hrest⟩ :=
    append_sep_inj (colon_not_mem_toString id) (colon_not_mem_toString id') hchars
  obtain ⟨halert, hmark⟩ := append_sep_inj alert.colon_not_mem_text alert'.colon_not_mem_text hrest
  exact ⟨String.toList_injective hid, HoldAlertName.text_injective (String.toList_injective halert),
    String.toList_injective hmark⟩

/-! ## The records a scan works from -/

section Records

/-- A loop that remembers its last hit. -/
theorem foldl_latest {α β : Type} (p : α → Prop) [DecidablePred p] (f : α → β) (xs : List α) :
    xs.foldl (fun found x => if p x then some (f x) else found) none =
      ((xs.filter p).getLast?).map f := by
  induction xs using List.reverseRecOn with
  | nil => rfl
  | append_singleton xs x ih =>
      rw [List.foldl_append, List.foldl_cons, List.foldl_nil, ih, List.filter_append]
      by_cases hp : p x
      · have hhit : [x].filter (fun x => decide (p x)) = [x] := by simp [hp]
        rw [if_pos hp, hhit, List.getLast?_concat]
        rfl
      · have hmiss : [x].filter (fun x => decide (p x)) = [] := by simp [hp]
        rw [if_neg hp, hmiss, List.append_nil]

/-- The creation time is the one of the record where there is one, and is worked out from the
delay where there is none. -/
theorem createdAt_eq {vault : HoldWatch} {row : HoldPending} {creation : Int}
    (hsame : ∀ e ∈ vault.entries, e.kind = KIND_HELD → e.withdrawalId = row.id → e.ts = creation)
    (hknown : (∃ e ∈ vault.entries, e.kind = KIND_HELD ∧ e.withdrawalId = row.id) ∨
      0 ≤ creation ∧ row.unlockAt = creation + vault.delaySecs) :
    createdAt vault row = creation := by
  unfold createdAt createdFromEntries
  rw [foldl_latest]
  cases hlast : (vault.entries.filter fun e =>
      e.kind = KIND_HELD ∧ e.withdrawalId = row.id).getLast? with
  | some e =>
      obtain ⟨hmem, hheld⟩ := List.mem_filter.mp (List.mem_of_getLast? hlast)
      obtain ⟨hkind, hid⟩ := of_decide_eq_true hheld
      exact hsame e hmem hkind hid
  | none =>
      have hnone := List.getLast?_eq_none_iff.mp hlast
      obtain ⟨e, hmem, hheld⟩ | ⟨hpast, hunlock⟩ := hknown
      · exact absurd (decide_eq_true hheld) (List.filter_eq_nil_iff.mp hnone e hmem)
      · dsimp only [Option.map_none]
        rw [if_pos (by omega)]
        omega

theorem createdAt_le {vault : HoldWatch} {row : HoldPending} {last : Int}
    (hentries : ∀ e ∈ vault.entries, e.ts ≤ last) (hunlock : row.unlockAt ≤ last)
    (hdelay : 0 ≤ vault.delaySecs) : createdAt vault row ≤ last := by
  unfold createdAt createdFromEntries
  rw [foldl_latest]
  cases hlast : (vault.entries.filter fun e =>
      e.kind = KIND_HELD ∧ e.withdrawalId = row.id).getLast? with
  | some e => exact hentries e (List.mem_filter.mp (List.mem_of_getLast? hlast)).1
  | none =>
      dsimp only [Option.map_none]
      split <;> omega

/-- The records in the table of ends. -/
theorem mem_endsOf {entries : List HoldLedgerEntry} {e : String × HoldLedgerEntry}
    (he : e ∈ endsOf entries) : e.2 ∈ entries ∧ e.1 = toString e.2.withdrawalId ∧
      e.2.withdrawalId ≠ 0 ∧ specificEnd e.2.kind ≠ none := by
  induction entries using List.reverseRecOn generalizing e with
  | nil => cases he
  | append_singleton entries entry ih =>
      have hkeep : ∀ e ∈ endsOf entries, e.2 ∈ entries ++ [entry] ∧
          e.1 = toString e.2.withdrawalId ∧ e.2.withdrawalId ≠ 0 ∧
            specificEnd e.2.kind ≠ none := by
        intro old hold
        obtain ⟨hmem, hrest⟩ := ih hold
        exact ⟨List.mem_append_left _ hmem, hrest⟩
      unfold endsOf at he
      rw [List.foldl_append, List.foldl_cons, List.foldl_nil] at he
      change e ∈ if entry.withdrawalId = 0 ∨ specificEnd entry.kind = none then endsOf entries
        else setEnd (endsOf entries) (toString entry.withdrawalId) entry at he
      by_cases hskip : entry.withdrawalId = 0 ∨ specificEnd entry.kind = none
      · rw [if_pos hskip] at he
        exact hkeep e he
      · rw [if_neg hskip] at he
        rw [not_or] at hskip
        have hnew : ∀ e', e' = (toString entry.withdrawalId, entry) → e'.2 ∈ entries ++ [entry] ∧
            e'.1 = toString e'.2.withdrawalId ∧ e'.2.withdrawalId ≠ 0 ∧
              specificEnd e'.2.kind ≠ none := by
          rintro e' rfl
          exact ⟨List.mem_append_right _ (List.mem_singleton_self _), rfl, hskip⟩
        unfold setEnd at he
        split at he
        · obtain ⟨old, hold, hset⟩ := List.mem_map.mp he
          split at hset
          · exact hnew e hset.symm
          · rw [← hset]
            exact hkeep old hold
        · rcases List.mem_append.mp he with he | he
          · exact hkeep e he
          · exact hnew e (List.mem_singleton.mp he)

end Records

/-! ## A row that waits -/

section Rows

variable {vault : HoldWatch} {nowSec : Int} {row : HoldPending} {events : List HoldAlertEvent}

/-- Without a record of its end, and with no recovery since its creation, a row gets its
reminders. -/
theorem rowAlerts_eq (hends : (endsOf vault.entries).lookup (toString row.id) = none)
    (hrecovered : ∀ r, lastRecovered vault.entries = some r → r.ts < createdAt vault row) :
    rowAlerts vault nowSec row =
      cadence vault.address.display row (createdAt vault row) nowSec := by
  unfold rowAlerts
  rw [hends]
  dsimp only
  cases hlast : lastRecovered vault.entries with
  | none => rfl
  | some r =>
      dsimp only
      rw [if_neg (Int.not_le.mpr (hrecovered r hlast))]

/-- Where all times are dates, every row has its events. -/
theorem rowAlerts_ok (hentries : ∀ e ∈ vault.entries, e.ts ≤ LAST_SECOND)
    (hunlock : row.unlockAt ≤ LAST_SECOND) (hdelay : 0 ≤ vault.delaySecs) :
    ∃ events, rowAlerts vault nowSec row = .ok events := by
  have hcreated := createdAt_le hentries hunlock hdelay
  have hcadence : ∃ events,
      cadence vault.address.display row (createdAt vault row) nowSec = .ok events :=
    mapM_of_forall fun due _ => makeEvent_ok hunlock hcreated _ _ _ _ _ _
  have hone : ∀ alert mark amount destination, ∃ events, (do
      return [← makeEvent vault.address.display row.id alert mark amount destination row.unlockAt
        (createdAt vault row)]) = Except.ok events := by
    intro alert mark amount destination
    obtain ⟨e, he⟩ := makeEvent_ok hunlock hcreated vault.address.display row.id alert mark amount
      destination
    rw [he]
    exact ⟨_, rfl⟩
  unfold rowAlerts
  dsimp only
  split
  · split
    · exact ⟨[], rfl⟩
    · exact hone _ _ _ _
  · split
    · split
      · exact hone _ _ _ _
      · exact hcadence
    · exact hcadence

theorem endAlerts_ok (hentries : ∀ e ∈ vault.entries, e.ts ≤ LAST_SECOND)
    {entry : HoldLedgerEntry} (hentry : entry ∈ vault.entries) :
    ∃ events, endAlerts vault entry = .ok events := by
  have hcreated : (createdFromEntries vault.entries entry.withdrawalId).getD entry.ts ≤
      LAST_SECOND := by
    unfold createdFromEntries
    rw [foldl_latest]
    cases hlast : (vault.entries.filter fun e =>
        e.kind = KIND_HELD ∧ e.withdrawalId = entry.withdrawalId).getLast? with
    | some e => exact hentries e (List.mem_filter.mp (List.mem_of_getLast? hlast)).1
    | none => exact hentries entry hentry
  unfold endAlerts
  split
  · exact ⟨[], rfl⟩
  · dsimp only
    split
    · exact ⟨[], rfl⟩
    · rename_i name _
      obtain ⟨e, he⟩ := makeEvent_ok (by decide : (0 : Int) ≤ LAST_SECOND) hcreated
        vault.address.display entry.withdrawalId name name.text entry.amount entry.destination
      rw [he]
      exact ⟨_, rfl⟩

/-- Where all times are dates, a vault has its events, and among them those of each row. -/
theorem alertsForVault_ok (hentries : ∀ e ∈ vault.entries, e.ts ≤ LAST_SECOND)
    (hunlocks : ∀ row ∈ vault.pending, row.unlockAt ≤ LAST_SECOND) (hdelay : 0 ≤ vault.delaySecs) :
    ∃ events, alertsForVault vault nowSec = .ok events ∧
      ∀ row ∈ vault.pending, ∀ alerts, rowAlerts vault nowSec row = .ok alerts →
        ∀ e ∈ alerts, e ∈ events := by
  obtain ⟨waiting, hwaiting⟩ : ∃ waiting, vault.pending.mapM (rowAlerts vault nowSec) = .ok waiting :=
    mapM_of_forall fun row hrow => rowAlerts_ok hentries (hunlocks row hrow) hdelay
  obtain ⟨ended, hended⟩ : ∃ ended,
      ((endsOf vault.entries).mapM fun e => endAlerts vault e.2) = .ok ended :=
    mapM_of_forall fun e he => endAlerts_ok hentries (mem_endsOf he).1
  refine ⟨waiting.flatten ++ ended.flatten, ?_, ?_⟩
  · unfold alertsForVault
    rw [hwaiting, ok_bind, hended, ok_bind]
    rfl
  · intro row hrow alerts halerts e he
    have hmem := mem_mapM_of_mem hwaiting hrow halerts
    exact List.mem_append_left _ (List.mem_flatten.mpr ⟨alerts, hmem, he⟩)

end Rows

end Veto.Watcher.Hold

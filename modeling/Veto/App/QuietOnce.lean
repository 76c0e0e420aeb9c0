import Veto.App.QuietNote
import Veto.Foundation.IsoTime

/-!
# One quiet note a day

A note was shown on a day when a run schedules another for it: only then can there be two.  The
settings a run works with keep it from that where they say so.
-/

namespace Veto.App.QuietNote

open Foundation Foundation.Throwing

section Plan

variable {clock : LocalClock} {settings : QuietSettings} {now : Int} {permissionGranted : Bool}
  {copy : Option QuietNoteCopy}

/-- The settings ask for a note, and there is something to say. -/
structure Wants (settings : QuietSettings) (permissionGranted : Bool) (copy : QuietNoteCopy) :
    Prop where
  enabled : settings.enabled = true
  send : settings.send ≠ .never
  permission : permissionGranted = true
  live : copy.daysPhrase ≠ none
  wanted : wanted settings copy = true

/-- The settings say that the note of the day was shown, or that this note is scheduled. -/
def Recorded (clock : LocalClock) (settings : QuietSettings) (now : Int) (body : String) : Prop :=
  settings.lastSentDay = some (localDayKeyFromDate clock now) ∨
    settings.scheduledForDay = some (localDayKeyFromDate clock now) ∧
      (quietFire clock now settings.hour settings.minute ≤ now ∨
        settings.scheduledBody = some body ∧
          settings.scheduledAt = some (quietFire clock now settings.hour settings.minute))

/-- A note is shown at its time, or at once where that is over. -/
def noteTime (clock : LocalClock) (settings : QuietSettings) (now : Int) : When :=
  if quietFire clock now settings.hour settings.minute ≤ now then .now
  else .later (quietFire clock now settings.hour settings.minute)

theorem offPlan_schedule : (offPlan settings).schedule = none := by
  unfold offPlan
  split_ifs <;> rfl

theorem latePlan_schedule {body : String} {want : Bool} :
    (latePlan clock settings now body want).schedule =
      if settings.scheduledForDay ≠ some (localDayKeyFromDate clock now) ∧ want = true then
        some ⟨body, .now⟩ else none := by
  unfold latePlan
  by_cases hday : settings.scheduledForDay = some (localDayKeyFromDate clock now)
  · rw [if_pos hday, if_neg fun h => h.1 hday]
  · rw [if_neg hday]
    cases want with
    | false => rw [if_pos rfl, if_neg fun h => Bool.noConfusion h.2, clearPlan]
    | true => rw [if_neg Bool.noConfusion, if_pos ⟨hday, rfl⟩]

theorem earlyPlan_schedule {body : String} {want : Bool} :
    (earlyPlan clock settings now body want).schedule =
      if ¬ (settings.scheduledForDay = some (localDayKeyFromDate clock now) ∧
          settings.scheduledBody = some body ∧
          settings.scheduledAt = some (quietFire clock now settings.hour settings.minute)) ∧
          want = true then
        some ⟨body, .later (quietFire clock now settings.hour settings.minute)⟩ else none := by
  unfold earlyPlan
  cases want with
  | false => rw [if_pos rfl, if_neg fun h => Bool.noConfusion h.2, clearPlan]
  | true =>
      rw [if_neg Bool.noConfusion]
      by_cases hsame : settings.scheduledForDay = some (localDayKeyFromDate clock now) ∧
          settings.scheduledBody = some body ∧
          settings.scheduledAt = some (quietFire clock now settings.hour settings.minute)
      · rw [if_pos hsame, if_neg fun h => h.1 hsame, idlePlan]
      · rw [if_neg hsame, if_pos ⟨hsame, rfl⟩]

/-- A plan schedules a note exactly where one is wanted and the settings record none. -/
theorem planQuietNote_schedule {note : QuietNoteRequest} :
    (planQuietNote clock settings now copy permissionGranted).schedule = some note ↔
      ∃ line, copy = some line ∧ Wants settings permissionGranted line ∧
        ¬ Recorded clock settings now line.body ∧ note = ⟨line.body, noteTime clock settings now⟩ := by
  unfold planQuietNote
  by_cases hoff : settings.enabled = false ∨ settings.send = .never
  · rw [if_pos hoff, offPlan_schedule]
    refine iff_of_false (fun h => by cases h) ?_
    rintro ⟨line, -, hwants, -⟩
    rcases hoff with hoff | hoff
    · rw [hwants.enabled] at hoff
      cases hoff
    · exact hwants.send hoff
  rw [if_neg hoff]
  rw [not_or, Bool.not_eq_false] at hoff
  cases permissionGranted with
  | false =>
      rw [if_pos rfl]
      refine iff_of_false (fun h => by cases h) ?_
      rintro ⟨line, -, hwants, -⟩
      exact Bool.noConfusion hwants.permission
  | true =>
      rw [if_neg Bool.noConfusion]
      cases copy with
      | none =>
          refine iff_of_false (fun h => by cases h) ?_
          rintro ⟨line, hline, -⟩
          cases hline
      | some line =>
          dsimp only
          by_cases hended : line.daysPhrase = none
          · rw [if_pos hended]
            refine iff_of_false (fun h => by cases h) ?_
            rintro ⟨_, hline, hwants, -⟩
            cases hline
            exact hwants.live hended
          rw [if_neg hended]
          have hwants : ∀ want, wanted settings line = want →
              (Wants settings true line ↔ want = true) := by
            rintro want rfl
            exact ⟨fun h => h.wanted, fun h => ⟨hoff.1, hoff.2, rfl, hended, h⟩⟩
          by_cases hsent : settings.lastSentDay = some (localDayKeyFromDate clock now)
          · rw [if_pos hsent]
            refine iff_of_false (fun h => by cases h) ?_
            rintro ⟨_, hline, -, hnot, -⟩
            exact hnot (.inl hsent)
          rw [if_neg hsent]
          by_cases hover : quietFire clock now settings.hour settings.minute ≤ now
          · rw [if_pos hover, latePlan_schedule]
            simp only [Option.some.injEq, exists_eq_left', Recorded, noteTime, hsent, hover, false_or,
              true_or, and_true, if_true, hwants _ rfl, ne_eq]
            split_ifs with h
            · simp only [h, not_false_eq_true, true_and, Option.some.injEq]
              exact eq_comm
            · refine iff_of_false (fun h => by cases h) ?_
              rintro ⟨hwant, hnot, -⟩
              exact h ⟨hnot, hwant⟩
          · rw [if_neg hover, earlyPlan_schedule]
            simp only [Option.some.injEq, exists_eq_left', Recorded, noteTime, hsent, hover, false_or,
              if_false, hwants _ rfl]
            split_ifs with h
            · simp only [h, not_false_eq_true, true_and, Option.some.injEq]
              exact eq_comm
            · refine iff_of_false (fun h => by cases h) ?_
              rintro ⟨hwant, hnot, -⟩
              exact h ⟨hnot, hwant⟩

end Plan

/-! ## One run -/

section Runs

variable {clock : LocalClock} {agentLabel : MandateAccount → String} {run : QuietRun}
  {s s' : QuietState}

/-- The notes that were shown, and the one that is to be shown, are of different days. -/
def OnceADay (clock : LocalClock) (s : QuietState) : Prop :=
  ((s.pending.toList ++ s.delivered).map clock.date).Nodup

/-- A note was shown on the day of a time. -/
def ShownOn (clock : LocalClock) (s : QuietState) (now : Int) : Prop :=
  ∃ time ∈ s.delivered, clock.date time = clock.date now

theorem OnceADay.delivered (h : OnceADay clock s) : (s.delivered.map clock.date).Nodup := by
  unfold OnceADay at h
  rw [List.map_append] at h
  exact (List.nodup_append.mp h).2.1

theorem OnceADay.cancelled (h : OnceADay clock s) : OnceADay clock s.cancelled := h.delivered

/-- Time passes: what was to be shown is shown. -/
theorem OnceADay.passed (h : OnceADay clock s) (now : Int) : OnceADay clock (s.passed now) := by
  obtain ⟨stored, pending, delivered⟩ := s
  unfold QuietState.passed
  cases pending with
  | none => exact h
  | some time =>
      dsimp only
      split_ifs
      · exact h
      · exact h

theorem OnceADay.scheduled (h : OnceADay clock s) {now : Int} (hnot : ¬ ShownOn clock s now)
    {time : When} (htime : ∀ later, time = .later later → clock.date later = clock.date now) :
    OnceADay clock (s.scheduled now time) := by
  have hfresh : clock.date now ∉ s.delivered.map clock.date := by
    intro hmem
    obtain ⟨shown, hshown, hdate⟩ := List.mem_map.mp hmem
    exact hnot ⟨shown, hshown, hdate⟩
  have hall : (clock.date now :: s.delivered.map clock.date).Nodup :=
    List.nodup_cons.mpr ⟨hfresh, h.delivered⟩
  cases time with
  | now => exact hall
  | later later =>
      unfold OnceADay QuietState.scheduled
      rw [Option.toList_some, List.singleton_append, List.map_cons, htime later rfl]
      exact hall

/-- Whether a call fails, and whether it took effect if it did. -/
theorem triple_attempt {answer : Answer} {effect : QuietState → QuietState}
    {P Q E : QuietState → Prop} (hok : ∀ s, P s → Q (effect s)) (hfailed : ∀ s, P s → E s)
    (htook : ∀ s, P s → E (effect s)) :
    Triple P (attempt answer effect) (fun _ => Q) (fun _ => E) := by
  unfold attempt
  split
  · exact triple_modify hok
  · exact triple_bind (triple_modify htook) fun _ => fun _ hs => hs
  · exact hfailed

/-- A run that finds a note shown on its day has nothing to schedule, or settings that say so. -/
def Guarded (clock : LocalClock) (agentLabel : MandateAccount → String) (run : QuietRun)
    (s : QuietState) : Prop :=
  ShownOn clock s run.now → ∀ line, run.copy clock agentLabel = some line →
    Wants (run.settings s.stored) run.permissionGranted line →
    Recorded clock (run.settings s.stored) run.now line.body

theorem noteTime_date {settings : QuietSettings} {now later : Int}
    (h : noteTime clock settings now = .later later) : clock.date later = clock.date now := by
  unfold noteTime at h
  split_ifs at h
  cases h
  exact clock.setHours_date now settings.hour settings.minute

theorem triple_applyQuietPlan {plan : QuietPlan}
    (htime : ∀ note later, plan.schedule = some note → note.time = .later later →
      clock.date later = clock.date run.now) :
    Triple (fun s => OnceADay clock s ∧ (plan.schedule ≠ none → ¬ ShownOn clock s run.now))
      (applyQuietPlan run plan) (fun _ => OnceADay clock) (fun _ => OnceADay clock) := by
  have hschedule : Triple
      (fun s => OnceADay clock s ∧ (plan.schedule ≠ none → ¬ ShownOn clock s run.now))
      (scheduleNote run plan) (fun _ => OnceADay clock) (fun _ => OnceADay clock) := by
    unfold scheduleNote
    split
    · rename_i note hnote
      refine triple_bind (Q := fun _ s => OnceADay clock s ∧ ¬ ShownOn clock s run.now) ?_
        fun _ => ?_
      · refine triple_attempt ?_ (fun _ hs => hs.1) fun _ hs => hs.1.cancelled
        intro s hs
        exact ⟨hs.1.cancelled, hs.2 (by rw [hnote]; exact Option.some_ne_none _)⟩
      · exact triple_attempt (fun _ hs => hs.1.scheduled hs.2 (htime note · hnote))
          (fun _ hs => hs.1) fun _ hs => hs.1.scheduled hs.2 (htime note · hnote)
    · split
      · exact triple_attempt (fun _ hs => hs.1.cancelled) (fun _ hs => hs.1)
          fun _ hs => hs.1.cancelled
      · exact triple_pure fun _ hs => hs.1
  refine triple_bind hschedule fun _ => ?_
  unfold persistSettings
  split
  · exact triple_attempt (fun _ hs => hs) (fun _ hs => hs) fun _ hs => hs
  · exact triple_pure fun _ hs => hs

theorem adjust_schedule (plan : QuietPlan) : (run.adjust plan).schedule = plan.schedule := by
  unfold QuietRun.adjust
  split_ifs <;> rfl

theorem triple_refreshQuietNote (h : OnceADay clock s) (hguarded : Guarded clock agentLabel run s) :
    Triple (fun s' => s' = s) (refreshQuietNote clock agentLabel run) (fun _ => OnceADay clock)
      (fun _ => OnceADay clock) := by
  have hkept : ∀ s', s' = s → OnceADay clock s' := by
    rintro _ rfl
    exact h
  have hload : Triple (fun s' => s' = s) (loadSettings run)
      (fun settings s' => settings = run.settings s.stored ∧ s' = s) (fun _ => OnceADay clock) := by
    unfold loadSettings QuietRun.settings
    cases run.settingsOverride with
    | some settings => exact triple_pure fun _ hs => ⟨rfl, hs⟩
    | none =>
        refine triple_bind (Q := fun _ s' => s' = s)
          (triple_calling (fun _ _ _ hs => hs) fun _ s' _ hs => hkept s' hs) fun _ => ?_
        refine triple_bind (Q := fun read s' => read = s ∧ s' = s)
          (triple_get fun _ hs => ⟨hs, hs⟩) fun read => triple_pure ?_
        rintro s' ⟨rfl, hs⟩
        exact ⟨rfl, hs⟩
  refine triple_bind (Q := fun _ s' => s' = s)
    (triple_calling (fun _ _ _ hs => hs) fun _ s' _ hs => hkept s' hs) fun _ => ?_
  refine triple_bind hload fun settings => ?_
  intro s' hs
  obtain ⟨rfl, rfl⟩ := hs
  refine triple_applyQuietPlan ?_ s' ⟨h, ?_⟩
  · intro note later hnote hlater
    rw [adjust_schedule] at hnote
    obtain ⟨line, -, -, -, rfl⟩ := planQuietNote_schedule.mp hnote
    exact noteTime_date hlater
  · rw [adjust_schedule]
    intro hschedule hshown
    obtain ⟨note, hnote⟩ := Option.ne_none_iff_exists'.mp hschedule
    obtain ⟨line, hline, hwants, hnot, -⟩ := planQuietNote_schedule.mp hnote
    exact hnot (hguarded hshown line hline hwants)

/-! ## Run after run -/

/-- What a run throws, if it does.  Before it, what is due is shown. -/
def quietStep (clock : LocalClock) (agentLabel : MandateAccount → String) (s : QuietState)
    (run : QuietRun) : Option Thrown × QuietState :=
  match (refreshQuietNote clock agentLabel run).run (s.passed run.now) with
  | .ok _ s' => (none, s')
  | .error e s' => (some e, s')

def QuietStep (clock : LocalClock) (agentLabel : MandateAccount → String) (s : QuietState)
    (run : QuietRun) (o : Option Thrown) (s' : QuietState) : Prop :=
  quietStep clock agentLabel s run = (o, s')

abbrev QuietTransition := Transition QuietState QuietRun (Option Thrown)

theorem OnceADay.step {o : Option Thrown} (h : OnceADay clock s)
    (hguarded : Guarded clock agentLabel run (s.passed run.now))
    (hstep : QuietStep clock agentLabel s run o s') : OnceADay clock s' := by
  have hends := triple_refreshQuietNote (h.passed run.now) hguarded (s.passed run.now) rfl
  unfold QuietStep quietStep at hstep
  cases hrun : (refreshQuietNote clock agentLabel run).run (s.passed run.now) with
  | ok _ t =>
      rw [hrun] at hends hstep
      cases hstep
      exact hends
  | error e t =>
      rw [hrun] at hends hstep
      cases hstep
      exact hends

end Runs

/-- **The quiet note is shown at most once a day** as long as each run that finds a note shown on
its day works with settings that record it, or schedules none. -/
theorem quiet_note_once_when {clock : LocalClock} {agentLabel : MandateAccount → String}
    {s₀ s : QuietState} {h : List QuietTransition} (hstart : OnceADay clock s₀)
    (run : Run (QuietStep clock agentLabel) s₀ h s)
    (hguarded : ∀ T ∈ h, Guarded clock agentLabel T.input (T.pre.passed T.input.now)) :
    ∀ later, ((s.passed later).delivered.map clock.date).Nodup := by
  have honce : OnceADay clock s := by
    refine run.carries (P := fun h s =>
      (∀ T ∈ h, Guarded clock agentLabel T.input (T.pre.passed T.input.now)) → OnceADay clock s)
      (fun _ => hstart) ?_ hguarded
    intro h s i o s' _ ih hstep hguarded
    have hbefore := ih fun T hT => hguarded T (List.mem_cons_of_mem _ hT)
    exact hbefore.step (hguarded ⟨s, i, o, s'⟩ List.mem_cons_self) hstep
  intro later
  exact (honce.passed later).delivered

/-! ### A note that is shown, and a later time -/

section Sample

/-- A phone whose zone is UTC. -/
def sampleDate (now : Int) : LocalDate :=
  let (year, month, day) := civilFromDays (now / 86400000)
  ⟨year, month.toNat, day.toNat⟩

def sampleSetHours (now : Int) (hour minute : Nat) : Int :=
  now / 86400000 * 86400000 + (hour * 3600000 + minute * 60000 : Int) % 86400000

theorem sampleSetHours_date (now : Int) (hour minute : Nat) :
    sampleDate (sampleSetHours now hour minute) = sampleDate now := by
  have hday : sampleSetHours now hour minute / 86400000 = now / 86400000 := by
    unfold sampleSetHours
    omega
  unfold sampleDate
  rw [hday]

def sampleClock : LocalClock where
  date := sampleDate
  hours now := (now / 3600000 % 24).toNat
  minutes now := (now / 60000 % 60).toNat
  setHours := sampleSetHours
  setHours_date := sampleSetHours_date

/-- A live rule of 100, of which 40 are spent. -/
def sampleMandate : MandateAccount where
  owner := "owner"
  agent := "agent"
  mint := "mint"
  source := "source"
  merchant := "merchant"
  mandateId := 1
  cap := 100
  spent := 40
  perTxMax := 50
  expiresAt := 1800000000
  overrideAmount := 0
  overrideNonce := 0
  lastNonce := 1
  purpose := "tea"
  status := Constants.STATUS_ACTIVE
  spendCount := 1
  refusalCount := 0
  bump := 255
  address := "rule"

/-- Every call succeeds.  Settings the owner saves are `saved`. -/
def sampleRun (now : Int) (saved : Option QuietSettings) : QuietRun where
  now
  mandates := [sampleMandate]
  ledgers := [⟨"rule", [], some 0, 6⟩]
  selectedAddress := some "rule"
  permissionGranted := true
  settingsOverride := saved
  readNames := .ok ()
  readSettings := .ok ()
  cancel := .ok
  schedule := .ok
  store := .ok

/-- A note each evening at 21:00. -/
def eveningNote : QuietSettings := { defaultQuietSettings with enabled := true }

def sampleStep (s : QuietState) (run : QuietRun) : QuietTransition :=
  ⟨s, run, (quietStep sampleClock (·.purpose) s run).1, (quietStep sampleClock (·.purpose) s run).2⟩

/-- 2026-11-16, 20:00. -/
def sampleEvening : Int := 1794859200000

/-- The owner turns the note on at 20:00. -/
def turnedOn : QuietTransition :=
  sampleStep ⟨none, none, []⟩ (sampleRun sampleEvening (some eveningNote))

/-- At 21:30 the note of 21:00 was shown, and the app runs again. -/
def afterwards : QuietTransition :=
  sampleStep turnedOn.post (sampleRun (sampleEvening + 5400000) none)

/-- At 21:30 the owner sets the time to 22:00. -/
def movedLater : QuietTransition :=
  sampleStep turnedOn.post
    (sampleRun (sampleEvening + 5400000)
      (turnedOn.post.stored.map fun settings => { settings with hour := 22 }))

theorem quiet_note_once_when_evening :
    afterwards.post.delivered = [sampleEvening + 3600000] ∧
      ∀ later, ((afterwards.post.passed later).delivered.map sampleClock.date).Nodup := by
  have hrun : Run (QuietStep sampleClock (·.purpose)) ⟨none, none, []⟩ [afterwards, turnedOn]
      afterwards.post := .next (.next .start rfl) rfl
  have hstart : OnceADay sampleClock ⟨none, none, []⟩ := List.nodup_nil
  refine ⟨rfl, quiet_note_once_when hstart hrun ?_⟩
  intro T hT
  rcases List.mem_cons.mp hT with rfl | hT
  · intro _ line _ _
    exact .inr ⟨rfl, .inl (by decide)⟩
  · cases List.mem_singleton.mp hT
    rintro ⟨time, htime, -⟩
    cases htime

/-- **A second note on a day**: it was shown at 21:00, and the owner then sets it to 22:00. -/
theorem quiet_note_shown_twice :
    ∃ s, Run (QuietStep sampleClock (·.purpose)) ⟨none, none, []⟩ [movedLater, turnedOn] s ∧
      turnedOn.input.now ≤ movedLater.input.now ∧
      (s.passed (sampleEvening + 7200000)).delivered =
        [sampleEvening + 7200000, sampleEvening + 3600000] ∧
      ¬ ((s.passed (sampleEvening + 7200000)).delivered.map sampleClock.date).Nodup := by
  refine ⟨movedLater.post, .next (.next .start rfl) rfl, by decide, rfl, ?_⟩
  decide

end Sample

end Veto.App.QuietNote

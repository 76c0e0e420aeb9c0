import Veto.Foundation.Run

/-!
# Confirming a signature

`confirm.ts`: `confirmSignature` races a websocket notification against a status poll.  A poll
that is refused hands over to a grace, in which only the websocket counts.  One event is one
callback of the runtime with the promise jobs it sets off, so an interleaving is a list of
events; what the websocket and the endpoint answer, and when, is up to the run.
-/

namespace Veto.Watcher

open Foundation

inductive Finality
  | confirmed
  | finalized
  deriving DecidableEq

inductive ConfirmationStatus
  | processed
  | confirmed
  | finalized
  deriving DecidableEq

/-- What `getSignatureStatus` says of a known signature.  `err` is its transaction error, as
`JSON.stringify` writes it. -/
structure SignatureStatus where
  err : Option String
  confirmationStatus : Option ConfirmationStatus
  deriving DecidableEq

def meetsCommitment (status : Option ConfirmationStatus) (commitment : Finality) : Bool :=
  if status = some .finalized then true
  else if commitment = .finalized then false
  else status = some .confirmed

/-- What was thrown: an `Error` with its message, or another value with its text. -/
inductive Failure
  | error (message : String)
  | value (text : String)
  deriving DecidableEq

/-- `err instanceof Error ? err.message : String(err)`. -/
def Failure.text : Failure → String
  | error message => message
  | value text => text

structure ConfirmOpts where
  signature : String
  commitment : Finality

namespace ConfirmOpts

def leftoverLine (o : ConfirmOpts) (failure : Failure) : String :=
  s!"confirm: leftover status poll after {o.signature} was already confirmed: {failure.text}"

/-- The error that both sources make of a transaction error. -/
def failed (o : ConfirmOpts) (err : String) : Failure :=
  .error s!"transaction {o.signature} failed: {err}"

end ConfirmOpts

inductive ConfirmOutcome
  | resolved
  | rejected (failure : Failure)
  deriving DecidableEq

inductive PollState
  | asking
  | sleeping
  | returned
  | threw
  deriving DecidableEq

/-- Where `confirmSignature` waits: in the first race, in the race of the grace, for the
listener to be removed with the outcome decided, or no more. -/
inductive ConfirmPhase
  | racing
  | grace
  | removing (outcome : ConfirmOutcome)
  | settled (outcome : ConfirmOutcome)
  deriving DecidableEq

structure ConfirmState where
  answered : Bool
  stopped : Bool
  leftover : Option Failure
  leftoverLogged : Bool
  notified : Bool
  poll : PollState
  phase : ConfirmPhase
  lines : List String
  deriving DecidableEq

def ConfirmState.start : ConfirmState where
  answered := false
  stopped := false
  leftover := none
  leftoverLogged := false
  notified := false
  poll := .asking
  phase := .racing
  lines := []

/-- What can happen next.  A signature subscription notifies once. -/
inductive ConfirmEvent
  | notified (err : Option String)
  | status (value : Option SignatureStatus)
  | statusFailed (failure : Failure)
  | pollTimer
  | graceTimer
  | removed
  | removeFailed (failure : Failure)
  deriving DecidableEq

namespace ConfirmState

variable (o : ConfirmOpts) (s : ConfirmState)

def logLeftover (failure : Failure) : ConfirmState :=
  { s with
    leftover := some (s.leftover.getD failure)
    leftoverLogged := true
    lines := if s.leftoverLogged then s.lines else s.lines ++ [o.leftoverLine failure] }

/-- `if (leftover !== null) logLeftover(leftover)`. -/
def logPending : ConfirmState :=
  match s.leftover with
  | some failure => s.logLeftover o failure
  | none => s

/-- Leave through the `finally` block. -/
def finish (outcome : ConfirmOutcome) : ConfirmState :=
  { s with stopped := true, phase := .removing outcome }

/-- The `catch` of the grace: whatever ended it is a leftover once something has answered. -/
def graceFailed (failure : Failure) : ConfirmState :=
  if s.answered then (s.logLeftover o failure).finish .resolved
  else s.finish (.rejected failure)

/-- `markAnswered`, by the callback of the websocket. -/
def heard : ConfirmState := { s with answered := true, notified := true }

/-- The callback of the websocket, and the race it settles. -/
def onNotified (err : Option String) : ConfirmState :=
  match s.phase with
  | .racing =>
      match err with
      | none => (s.heard.logPending o).finish .resolved
      | some err => s.heard.finish (.rejected (o.failed err))
  | .grace =>
      match err with
      | none => (s.heard.logPending o).finish .resolved
      | some err => s.heard.graceFailed o (o.failed err)
  | _ => s.heard

/-- The poll ends without an error; in the first race that is an answer. -/
def pollReturned : ConfirmState :=
  let s := { s with poll := .returned }
  match s.phase with
  | .racing => (s.logPending o).finish .resolved
  | _ => s

/-- The `catch` of the poll.  A refusal that nothing has overtaken starts the grace. -/
def pollCaught (failure : Failure) : ConfirmState :=
  let s := { s with leftover := some failure }
  if s.stopped || s.answered then { s.logLeftover o failure with poll := .returned }
  else
    match s.phase with
    | .racing => { s with poll := .threw, phase := .grace }
    | _ => { s with poll := .threw }

/-- A status that arrives before anything has answered. -/
def onFirstStatus (status : Option SignatureStatus) : ConfirmState :=
  match status.bind SignatureStatus.err with
  | some err => s.pollCaught o (o.failed err)
  | none =>
      if meetsCommitment (status.bind SignatureStatus.confirmationStatus) o.commitment then
        { s with answered := true }.pollReturned o
      else { s with poll := .sleeping }

def onStatus (value : Option SignatureStatus) : ConfirmState :=
  if s.stopped || s.answered then s.pollReturned o else s.onFirstStatus o value

def onPollTimer : ConfirmState :=
  if s.stopped || s.answered then s.pollReturned o else { s with poll := .asking }

/-- `throw leftover instanceof Error ? leftover : new Error(..)`. -/
def graceError : Failure :=
  match s.leftover with
  | some failure => .error failure.text
  | none => .error "confirm status poll failed"

/-- What an event does, where it can happen. -/
def handle : ConfirmEvent → Option ConfirmState
  | .notified err => if s.notified then none else some (s.onNotified o err)
  | .status value => if s.poll = .asking then some (s.onStatus o value) else none
  | .statusFailed failure => if s.poll = .asking then some (s.pollCaught o failure) else none
  | .pollTimer => if s.poll = .sleeping then some (s.onPollTimer o) else none
  | .graceTimer => if s.phase = .grace then some (s.graceFailed o s.graceError) else none
  | .removed =>
      match s.phase with
      | .removing outcome => some { s with phase := .settled outcome }
      | _ => none
  | .removeFailed failure =>
      match s.phase with
      | .removing _ => some { s with phase := .settled (.rejected failure) }
      | _ => none

end ConfirmState

abbrev ConfirmHistory := List (Transition ConfirmState ConfirmEvent Unit)

/-- One event of a confirmation. -/
def ConfirmStep (o : ConfirmOpts) (s : ConfirmState) (e : ConfirmEvent) (_ : Unit)
    (s' : ConfirmState) : Prop :=
  s.handle o e = some s'

/-! ## What was reported -/

/-- The event reports the signature without an error, at the commitment asked for. -/
def ConfirmEvent.Confirms (commitment : Finality) : ConfirmEvent → Prop
  | notified err => err = none
  | status value => ∃ v, value = some v ∧ v.err = none ∧
      meetsCommitment v.confirmationStatus commitment = true
  | _ => False

/-- The event reports an execution error. -/
def ConfirmEvent.Fails : ConfirmEvent → Prop
  | notified err => err ≠ none
  | status value => ∃ v, value = some v ∧ v.err ≠ none
  | _ => False

def Confirmed (o : ConfirmOpts) (h : ConfirmHistory) : Prop :=
  ∃ T ∈ h, T.input.Confirms o.commitment

def Failed (h : ConfirmHistory) : Prop := ∃ T ∈ h, T.input.Fails

/-- The websocket reports an execution error while the grace runs. -/
def Misread (T : Transition ConfirmState ConfirmEvent Unit) : Prop :=
  T.pre.phase = .grace ∧ ∃ err, T.input = .notified (some err)

/-- What a finished confirmation owes its caller. -/
def ConfirmSound (o : ConfirmOpts) (h : ConfirmHistory) (outcome : ConfirmOutcome) : Prop :=
  (outcome = .resolved → Confirmed o h) ∧
    (Failed h → ¬ Confirmed o h → ∃ failure, outcome = .rejected failure)

def ConfirmPhase.outcome? : ConfirmPhase → Option ConfirmOutcome
  | removing outcome => some outcome
  | settled outcome => some outcome
  | _ => none

/-! ## One event -/

/-- Nothing has answered, and the outcome is open. -/
structure ConfirmState.Waiting (s : ConfirmState) : Prop where
  answered : s.answered = false
  stopped : s.stopped = false
  notified : s.notified = false
  racing : s.phase = .racing → s.poll = .asking ∨ s.poll = .sleeping
  grace : s.phase = .grace → s.poll = .threw

namespace ConfirmState

variable {o : ConfirmOpts} {s s' : ConfirmState} {e : ConfirmEvent}

@[simp] theorem logLeftover_phase (failure : Failure) :
    (s.logLeftover o failure).phase = s.phase := rfl

@[simp] theorem logLeftover_answered (failure : Failure) :
    (s.logLeftover o failure).answered = s.answered := rfl

@[simp] theorem logLeftover_notified (failure : Failure) :
    (s.logLeftover o failure).notified = s.notified := rfl

@[simp] theorem logLeftover_poll (failure : Failure) :
    (s.logLeftover o failure).poll = s.poll := rfl

@[simp] theorem finish_phase (outcome : ConfirmOutcome) :
    (s.finish outcome).phase = .removing outcome := rfl

@[simp] theorem finish_notified (outcome : ConfirmOutcome) :
    (s.finish outcome).notified = s.notified := rfl

@[simp] theorem finish_poll (outcome : ConfirmOutcome) : (s.finish outcome).poll = s.poll := rfl

/-- The websocket reports while the first race is open. -/
theorem onNotified_racing (hphase : s.phase = .racing) (err : Option String) :
    (s.onNotified o err).phase = .removing (match err with
      | none => .resolved
      | some err => .rejected (o.failed err)) := by
  unfold onNotified
  rw [hphase]
  cases err <;> rfl

/-- The websocket reports during the grace: whatever it says, something has answered. -/
theorem onNotified_grace (hphase : s.phase = .grace) (err : Option String) :
    (s.onNotified o err).phase = .removing .resolved := by
  unfold onNotified
  rw [hphase]
  cases err with
  | none => rfl
  | some err => rfl

/-- What was heard during the grace stays. -/
theorem onNotified_grace_keeps (hphase : s.phase = .grace) (err : String) :
    (s.onNotified o (some err)).notified = true ∧
      (s.onNotified o (some err)).poll = s.poll := by
  unfold onNotified
  rw [hphase]
  exact ⟨rfl, rfl⟩

/-- A refusal that nothing has overtaken. -/
theorem pollCaught_racing (hwait : s.Waiting) (hphase : s.phase = .racing) (failure : Failure) :
    s.pollCaught o failure =
      { s with leftover := some failure, poll := .threw, phase := .grace } := by
  unfold pollCaught
  simp only [hwait.stopped, hwait.answered, hphase, Bool.or_false, Bool.false_eq_true, if_false]

theorem waiting_grace (hwait : s.Waiting) (failure : Option Failure) :
    Waiting { s with leftover := failure, poll := .threw, phase := .grace } where
  answered := hwait.answered
  stopped := hwait.stopped
  notified := hwait.notified
  racing := nofun
  grace := fun _ => rfl

theorem waiting_poll (hwait : s.Waiting) (hphase : s.phase = .racing) {poll : PollState}
    (hpoll : poll = .asking ∨ poll = .sleeping) : Waiting { s with poll := poll } where
  answered := hwait.answered
  stopped := hwait.stopped
  notified := hwait.notified
  racing := fun _ => hpoll
  grace := fun hgrace => by
    rw [show s.phase = .grace from hgrace] at hphase
    cases hphase

theorem onStatus_waiting (hwait : s.Waiting) (value : Option SignatureStatus) :
    s.onStatus o value = s.onFirstStatus o value := by
  unfold onStatus
  rw [hwait.stopped, hwait.answered, Bool.or_false, if_neg Bool.false_ne_true]

theorem onPollTimer_waiting (hwait : s.Waiting) :
    s.onPollTimer o = { s with poll := .asking } := by
  unfold onPollTimer
  rw [if_neg (by rw [hwait.stopped, hwait.answered]; exact Bool.false_ne_true)]

/-- The first race ends with a status that meets the commitment, goes on, or gives way to the
grace. -/
theorem onFirstStatus_racing (hwait : s.Waiting) (hphase : s.phase = .racing)
    (value : Option SignatureStatus) :
    ((ConfirmEvent.status value).Confirms o.commitment ∧
        (s.onFirstStatus o value).phase = .removing .resolved) ∨
      (¬ (ConfirmEvent.status value).Confirms o.commitment ∧
        (s.onFirstStatus o value).Waiting ∧ (s.onFirstStatus o value).phase = .grace) ∨
      (¬ (ConfirmEvent.status value).Fails ∧
        ¬ (ConfirmEvent.status value).Confirms o.commitment ∧
        (s.onFirstStatus o value).Waiting ∧ (s.onFirstStatus o value).phase = .racing) := by
  unfold onFirstStatus
  cases value with
  | none =>
      right
      right
      have hmeets : meetsCommitment none o.commitment = false := by
        unfold meetsCommitment
        cases o.commitment <;> rfl
      simp only [Option.bind_none, hmeets, Bool.false_eq_true, if_false]
      refine ⟨?_, ?_, waiting_poll hwait hphase (.inr rfl), hphase⟩
      · rintro ⟨v, hv, -⟩
        cases hv
      · rintro ⟨v, hv, -⟩
        cases hv
  | some v =>
      cases herr : v.err with
      | some err =>
          right
          left
          simp only [Option.bind_some, herr]
          rw [pollCaught_racing hwait hphase]
          refine ⟨?_, waiting_grace hwait _, rfl⟩
          rintro ⟨w, hw, hnone, -⟩
          cases hw
          rw [herr] at hnone
          cases hnone
      | none =>
          simp only [Option.bind_some, herr]
          by_cases hmeets : meetsCommitment v.confirmationStatus o.commitment = true
          · left
            rw [if_pos hmeets]
            refine ⟨⟨v, rfl, herr, hmeets⟩, ?_⟩
            unfold pollReturned
            simp only [hphase, finish_phase]
          · right
            right
            rw [if_neg hmeets]
            refine ⟨?_, ?_, waiting_poll hwait hphase (.inr rfl), hphase⟩
            · rintro ⟨w, hw, hsome⟩
              cases hw
              exact hsome herr
            · rintro ⟨w, hw, -, hmet⟩
              cases hw
              exact hmeets hmet

/-- What an event can do while the first race is open. -/
theorem handle_racing (hwait : s.Waiting) (hphase : s.phase = .racing)
    (h : s.handle o e = some s') :
    (e.Confirms o.commitment ∧ s'.phase = .removing .resolved) ∨
    (¬ e.Confirms o.commitment ∧ ∃ failure, s'.phase = .removing (.rejected failure)) ∨
    (¬ e.Confirms o.commitment ∧ s'.Waiting ∧ s'.phase = .grace) ∨
    (¬ e.Fails ∧ ¬ e.Confirms o.commitment ∧ s'.Waiting ∧ s'.phase = .racing) := by
  cases e with
  | notified err =>
      simp only [handle, hwait.notified, Bool.false_eq_true, if_false, Option.some.injEq] at h
      have hend := onNotified_racing (o := o) hphase err
      rw [h] at hend
      cases err with
      | none => exact .inl ⟨rfl, hend⟩
      | some err => exact .inr (.inl ⟨nofun, _, hend⟩)
  | status value =>
      simp only [handle, Option.ite_none_right_eq_some, Option.some.injEq] at h
      rw [← h.2, onStatus_waiting hwait]
      rcases onFirstStatus_racing (o := o) hwait hphase value with hok | hgrace | hsleep
      · exact .inl hok
      · exact .inr (.inr (.inl hgrace))
      · exact .inr (.inr (.inr hsleep))
  | statusFailed failure =>
      simp only [handle, Option.ite_none_right_eq_some, Option.some.injEq] at h
      rw [← h.2, pollCaught_racing hwait hphase]
      exact .inr (.inr (.inl ⟨id, waiting_grace hwait _, rfl⟩))
  | pollTimer =>
      simp only [handle, Option.ite_none_right_eq_some, Option.some.injEq] at h
      rw [← h.2, onPollTimer_waiting hwait]
      exact .inr (.inr (.inr ⟨id, id, waiting_poll hwait hphase (.inl rfl), hphase⟩))
  | graceTimer => simp [handle, hphase] at h
  | removed => simp [handle, hphase] at h
  | removeFailed failure => simp [handle, hphase] at h

/-- What an event can do during the grace. -/
theorem handle_grace (hwait : s.Waiting) (hphase : s.phase = .grace)
    (h : s.handle o e = some s') :
    (e = .notified none ∧ s'.phase = .removing .resolved) ∨
    ((∃ err, e = .notified (some err)) ∧ s'.notified = true ∧ s'.poll = .threw ∧
      s'.phase = .removing .resolved) ∨
    (e = .graceTimer ∧ ∃ failure, s'.phase = .removing (.rejected failure)) := by
  have hpoll := hwait.grace hphase
  cases e with
  | notified err =>
      simp only [handle, hwait.notified, Bool.false_eq_true, if_false, Option.some.injEq] at h
      have hend := onNotified_grace (o := o) hphase err
      rw [h] at hend
      cases err with
      | none => exact .inl ⟨rfl, hend⟩
      | some err =>
          have hkeeps := onNotified_grace_keeps (o := o) hphase err
          rw [h, hpoll] at hkeeps
          exact .inr (.inl ⟨⟨err, rfl⟩, hkeeps.1, hkeeps.2, hend⟩)
  | graceTimer =>
      simp only [handle, hphase, if_true, Option.some.injEq, graceFailed, hwait.answered,
        Bool.false_eq_true, if_false] at h
      exact .inr (.inr ⟨rfl, s.graceError, by rw [← h, finish_phase]⟩)
  | status value => simp [handle, hpoll] at h
  | statusFailed failure => simp [handle, hpoll] at h
  | pollTimer => simp [handle, hpoll] at h
  | removed => simp [handle, hphase] at h
  | removeFailed failure => simp [handle, hphase] at h

section Decided

variable (hracing : s.phase ≠ .racing)

include hracing

theorem onNotified_phase (hgrace : s.phase ≠ .grace) (err : Option String) :
    (s.onNotified o err).phase = s.phase := by
  unfold onNotified
  cases hphase : s.phase with
  | racing => exact absurd hphase hracing
  | grace => exact absurd hphase hgrace
  | removing outcome => exact hphase
  | settled outcome => exact hphase

theorem pollReturned_phase : (s.pollReturned o).phase = s.phase := by
  unfold pollReturned
  cases hphase : s.phase with
  | racing => exact absurd hphase hracing
  | grace => rfl
  | removing outcome => rfl
  | settled outcome => rfl

theorem pollCaught_phase (failure : Failure) : (s.pollCaught o failure).phase = s.phase := by
  unfold pollCaught
  by_cases hlate : (s.stopped || s.answered) = true
  · rw [if_pos hlate, logLeftover_phase]
  · rw [if_neg hlate]
    cases hphase : s.phase with
    | racing => exact absurd hphase hracing
    | grace => rfl
    | removing outcome => rfl
    | settled outcome => rfl

theorem onStatus_phase (value : Option SignatureStatus) :
    (s.onStatus o value).phase = s.phase := by
  unfold onStatus onFirstStatus
  split
  · exact pollReturned_phase hracing
  · split
    · exact pollCaught_phase hracing _
    · split
      · exact pollReturned_phase (s := { s with answered := true }) hracing
      · rfl

theorem onPollTimer_phase : (s.onPollTimer o).phase = s.phase := by
  unfold onPollTimer
  split
  · exact pollReturned_phase hracing
  · rfl

end Decided

/-- A decided outcome stays while the listener is removed, which may fail. -/
theorem handle_decided {outcome : ConfirmOutcome} (hdecided : s.phase.outcome? = some outcome)
    (h : s.handle o e = some s') :
    (s'.phase = s.phase ∧ e ≠ .removed ∧ ∀ failure, e ≠ .removeFailed failure) ∨
    (e = .removed ∧ s.phase = .removing outcome ∧ s'.phase = .settled outcome) ∨
    (∃ failure, e = .removeFailed failure ∧ s.phase = .removing outcome ∧
      s'.phase = .settled (.rejected failure)) := by
  have hracing : s.phase ≠ .racing := fun hphase => by
    rw [hphase] at hdecided
    cases hdecided
  have hgrace : s.phase ≠ .grace := fun hphase => by
    rw [hphase] at hdecided
    cases hdecided
  cases e with
  | notified err =>
      left
      simp only [handle, Option.ite_none_left_eq_some, Option.some.injEq] at h
      rw [← h.2]
      exact ⟨onNotified_phase hracing hgrace err, nofun, nofun⟩
  | status value =>
      left
      simp only [handle, Option.ite_none_right_eq_some, Option.some.injEq] at h
      rw [← h.2]
      exact ⟨onStatus_phase hracing value, nofun, nofun⟩
  | statusFailed failure =>
      left
      simp only [handle, Option.ite_none_right_eq_some, Option.some.injEq] at h
      rw [← h.2]
      exact ⟨pollCaught_phase hracing failure, nofun, nofun⟩
  | pollTimer =>
      left
      simp only [handle, Option.ite_none_right_eq_some, Option.some.injEq] at h
      rw [← h.2]
      exact ⟨onPollTimer_phase hracing, nofun, nofun⟩
  | graceTimer => simp [handle, hgrace] at h
  | removed =>
      right
      left
      cases hphase : s.phase with
      | removing decided =>
          rw [hphase] at hdecided
          cases hdecided
          simp only [handle, hphase, Option.some.injEq] at h
          exact ⟨rfl, rfl, by rw [← h]⟩
      | racing => exact absurd hphase hracing
      | grace => exact absurd hphase hgrace
      | settled decided => simp [handle, hphase] at h
  | removeFailed failure =>
      right
      right
      cases hphase : s.phase with
      | removing decided =>
          rw [hphase] at hdecided
          cases hdecided
          simp only [handle, hphase, Option.some.injEq] at h
          exact ⟨failure, rfl, rfl, by rw [← h]⟩
      | racing => exact absurd hphase hracing
      | grace => exact absurd hphase hgrace
      | settled decided => simp [handle, hphase] at h

/-- After the websocket has reported and the poll has thrown, only the listener is left. -/
theorem handle_spent (hnotified : s.notified = true) (hpoll : s.poll = .threw)
    (h : s.handle o e = some s') :
    s'.notified = true ∧ s'.poll = .threw ∧ ¬ e.Confirms o.commitment := by
  cases e with
  | notified err => simp [handle, hnotified] at h
  | status value => simp [handle, hpoll] at h
  | statusFailed failure => simp [handle, hpoll] at h
  | pollTimer => simp [handle, hpoll] at h
  | graceTimer =>
      simp only [handle, Option.ite_none_right_eq_some, Option.some.injEq, graceFailed] at h
      rw [← h.2]
      by_cases hans : s.answered = true
      · rw [if_pos hans]
        exact ⟨hnotified, hpoll, id⟩
      · rw [if_neg hans]
        exact ⟨hnotified, hpoll, id⟩
  | removed =>
      cases hphase : s.phase <;> simp only [handle, hphase, Option.some.injEq, reduceCtorEq] at h
      rw [← h]
      exact ⟨hnotified, hpoll, id⟩
  | removeFailed failure =>
      cases hphase : s.phase <;> simp only [handle, hphase, Option.some.injEq, reduceCtorEq] at h
      rw [← h]
      exact ⟨hnotified, hpoll, id⟩

end ConfirmState

/-! ## Whole runs -/

variable {o : ConfirmOpts} {s : ConfirmState} {h : ConfirmHistory}

@[simp] theorem confirmed_cons {T : Transition ConfirmState ConfirmEvent Unit} :
    Confirmed o (T :: h) ↔ T.input.Confirms o.commitment ∨ Confirmed o h := by
  simp [Confirmed]

@[simp] theorem failed_cons {T : Transition ConfirmState ConfirmEvent Unit} :
    Failed (T :: h) ↔ T.input.Fails ∨ Failed h := by
  simp [Failed]

/-- The listener was removed, and did not fail. -/
def Removed (h : ConfirmHistory) : Prop := ∃ T ∈ h, T.input = .removed

@[simp] theorem removed_cons {T : Transition ConfirmState ConfirmEvent Unit} :
    Removed (T :: h) ↔ T.input = .removed ∨ Removed h := by
  simp [Removed]

def SomeMisread (h : ConfirmHistory) : Prop := ∃ T ∈ h, Misread T

@[simp] theorem someMisread_cons {T : Transition ConfirmState ConfirmEvent Unit} :
    SomeMisread (T :: h) ↔ Misread T ∨ SomeMisread h := by
  simp [SomeMisread]

/-- What has been reported, by where a confirmation waits. -/
inductive Reported (o : ConfirmOpts) (h : ConfirmHistory) (s : ConfirmState) : Prop
  | waiting (waiting : s.Waiting) (silent : ¬ Confirmed o h) (read : ¬ SomeMisread h)
      (listening : ¬ Removed h) (phase : s.phase = .racing ∧ ¬ Failed h ∨ s.phase = .grace)
  | resolving (confirmed : Confirmed o h) (read : ¬ SomeMisread h)
      (phase : s.phase = .removing .resolved ∨ s.phase = .settled .resolved)
  | rejecting (failure : Failure) (read : ¬ SomeMisread h)
      (phase : s.phase = .removing (.rejected failure) ∨ s.phase = .settled (.rejected failure))
  | misled (misread : SomeMisread h) (silent : ¬ Confirmed o h) (notified : s.notified = true)
      (poll : s.poll = .threw)
      (phase : s.phase = .removing .resolved ∧ ¬ Removed h ∨
        s.phase = .settled .resolved ∧ Removed h ∨
        ∃ failure, s.phase = .settled (.rejected failure) ∧ ¬ Removed h)

/-- An event outside the grace, or one without an error, is read as what it says. -/
theorem not_misread {s s' : ConfirmState} {e : ConfirmEvent}
    (hread : s.phase = .grace → ∀ err, e ≠ .notified (some err)) :
    ¬ Misread ⟨s, e, (), s'⟩ := by
  rintro ⟨hgrace, err, herr⟩
  exact hread hgrace err herr

/-- One event keeps what the phase says of the reports. -/
theorem Reported.next {s s' : ConfirmState} {e : ConfirmEvent} (hrep : Reported o h s)
    (hstep : s.handle o e = some s') : Reported o (⟨s, e, (), s'⟩ :: h) s' := by
  cases hrep with
  | waiting hwait hsilent hread hlisten hphase =>
      rcases hphase with ⟨hracing, hfailed⟩ | hgrace
      · have hmis : ¬ Misread ⟨s, e, (), s'⟩ :=
          not_misread fun hgrace => by rw [hgrace] at hracing; cases hracing
        have hremoved : e ≠ .removed := fun he => by
          simp [he, ConfirmState.handle, hracing] at hstep
        rcases ConfirmState.handle_racing hwait hracing hstep with
          ⟨hok, hend⟩ | ⟨hno, failure, hend⟩ | ⟨hno, hwait', hend⟩ | ⟨hfine, hno, hwait', hend⟩
        · exact .resolving (by simp [hok]) (by simp [hmis, hread]) (.inl hend)
        · exact .rejecting failure (by simp [hmis, hread]) (.inl hend)
        · exact .waiting hwait' (by simp [hno, hsilent]) (by simp [hmis, hread])
            (by simp [hremoved, hlisten]) (.inr hend)
        · exact .waiting hwait' (by simp [hno, hsilent]) (by simp [hmis, hread])
            (by simp [hremoved, hlisten]) (.inl ⟨hend, by simp [hfine, hfailed]⟩)
      · rcases ConfirmState.handle_grace hwait hgrace hstep with
          ⟨rfl, hend⟩ | ⟨⟨err, rfl⟩, hnotified, hpoll, hend⟩ | ⟨rfl, failure, hend⟩
        · have hmis : ¬ Misread ⟨s, .notified none, (), s'⟩ := not_misread fun _ _ => nofun
          exact .resolving (by simp [ConfirmEvent.Confirms]) (by simp [hmis, hread]) (.inl hend)
        · have hmis : Misread ⟨s, .notified (some err), (), s'⟩ := ⟨hgrace, err, rfl⟩
          exact .misled (by simp [hmis]) (by simp [ConfirmEvent.Confirms, hsilent]) hnotified
            hpoll (.inl ⟨hend, by simp [hlisten]⟩)
        · have hmis : ¬ Misread ⟨s, .graceTimer, (), s'⟩ := not_misread fun _ _ => nofun
          exact .rejecting failure (by simp [hmis, hread]) (.inl hend)
  | resolving hconfirmed hread hphase =>
      have hdecided : s.phase.outcome? = some .resolved := by
        rcases hphase with hphase | hphase <;> rw [hphase] <;> rfl
      have hmis : ¬ Misread ⟨s, e, (), s'⟩ := not_misread fun hgrace => by
        rw [hgrace] at hdecided
        cases hdecided
      rcases ConfirmState.handle_decided hdecided hstep with
        ⟨hkept, -⟩ | ⟨-, -, hend⟩ | ⟨failure, -, -, hend⟩
      · exact .resolving (by simp [hconfirmed]) (by simp [hmis, hread]) (by rw [hkept]; exact hphase)
      · exact .resolving (by simp [hconfirmed]) (by simp [hmis, hread]) (.inr hend)
      · exact .rejecting failure (by simp [hmis, hread]) (.inr hend)
  | rejecting failure hread hphase =>
      have hdecided : s.phase.outcome? = some (.rejected failure) := by
        rcases hphase with hphase | hphase <;> rw [hphase] <;> rfl
      have hmis : ¬ Misread ⟨s, e, (), s'⟩ := not_misread fun hgrace => by
        rw [hgrace] at hdecided
        cases hdecided
      rcases ConfirmState.handle_decided hdecided hstep with
        ⟨hkept, -⟩ | ⟨-, -, hend⟩ | ⟨failed, -, -, hend⟩
      · exact .rejecting failure (by simp [hmis, hread]) (by rw [hkept]; exact hphase)
      · exact .rejecting failure (by simp [hmis, hread]) (.inr hend)
      · exact .rejecting failed (by simp [hmis, hread]) (.inr hend)
  | misled hmisread hsilent hnotified hpoll hphase =>
      obtain ⟨hnotified', hpoll', hno⟩ := ConfirmState.handle_spent hnotified hpoll hstep
      refine .misled (by simp [hmisread]) (by simp [hno, hsilent]) hnotified' hpoll' ?_
      rcases hphase with ⟨hphase, hlisten⟩ | ⟨hphase, hremoved⟩ | ⟨failure, hphase, hlisten⟩
      · have hdecided : s.phase.outcome? = some .resolved := by rw [hphase]; rfl
        rcases ConfirmState.handle_decided hdecided hstep with
          ⟨hkept, he, -⟩ | ⟨rfl, -, hend⟩ | ⟨failure, rfl, -, hend⟩
        · exact .inl ⟨by rw [hkept]; exact hphase, by simp [he, hlisten]⟩
        · exact .inr (.inl ⟨hend, by simp⟩)
        · exact .inr (.inr ⟨failure, hend, by simp [hlisten]⟩)
      · have hdecided : s.phase.outcome? = some .resolved := by rw [hphase]; rfl
        rcases ConfirmState.handle_decided hdecided hstep with
          ⟨hkept, -⟩ | ⟨-, hrem, -⟩ | ⟨-, -, hrem, -⟩
        · exact .inr (.inl ⟨by rw [hkept]; exact hphase, by simp [hremoved]⟩)
        · rw [hphase] at hrem
          cases hrem
        · rw [hphase] at hrem
          cases hrem
      · have hdecided : s.phase.outcome? = some (.rejected failure) := by rw [hphase]; rfl
        rcases ConfirmState.handle_decided hdecided hstep with
          ⟨hkept, he, -⟩ | ⟨-, hrem, -⟩ | ⟨-, -, hrem, -⟩
        · exact .inr (.inr ⟨failure, by rw [hkept]; exact hphase, by simp [he, hlisten]⟩)
        · rw [hphase] at hrem
          cases hrem
        · rw [hphase] at hrem
          cases hrem

theorem reported (run : Run (ConfirmStep o) .start h s) : Reported o h s := by
  refine Run.carries (P := Reported o) ?_ (fun _ _ _ _ _ _ ih hstep => ih.next hstep) run
  exact .waiting ⟨rfl, rfl, rfl, fun _ => .inl rfl, nofun⟩ (by simp [Confirmed])
    (by simp [SomeMisread]) (by simp [Removed]) (.inl ⟨rfl, by simp [Failed]⟩)

/-- From here only a timer and the removal of the listener stand before the rejection. -/
def EndsRejected (o : ConfirmOpts) (s : ConfirmState) : Prop :=
  ∃ h' s' failure, Run (ConfirmStep o) s h' s' ∧
    (∀ T ∈ h', T.input = .graceTimer ∨ T.input = .removed) ∧
    s'.phase = .settled (.rejected failure)

theorem endsRejected_of_removing {failure : Failure}
    (hphase : s.phase = .removing (.rejected failure)) : EndsRejected o s := by
  have hremove : s.handle o .removed = some { s with phase := .settled (.rejected failure) } := by
    simp only [ConfirmState.handle, hphase]
  refine ⟨[⟨s, .removed, (), _⟩], _, failure, .next .start hremove, ?_, rfl⟩
  intro T hT
  rw [List.mem_singleton.mp hT]
  exact .inr rfl

theorem endsRejected_of_grace (hwait : s.Waiting) (hphase : s.phase = .grace) :
    EndsRejected o s := by
  have htimer : s.handle o .graceTimer = some (s.finish (.rejected s.graceError)) := by
    simp only [ConfirmState.handle, hphase, if_true, ConfirmState.graceFailed, hwait.answered,
      Bool.false_eq_true, if_false]
  obtain ⟨h', s', failure, run, hinputs, hend⟩ :=
    endsRejected_of_removing (o := o) (s := s.finish (.rejected s.graceError)) rfl
  refine ⟨h' ++ [⟨s, .graceTimer, (), _⟩], s', failure,
    Run.append (.next .start htimer) run, ?_, hend⟩
  intro T hT
  rcases List.mem_append.mp hT with hT | hT
  · exact hinputs T hT
  · rw [List.mem_singleton.mp hT]
    exact .inl rfl

theorem endsRejected_of_settled {failure : Failure}
    (hphase : s.phase = .settled (.rejected failure)) : EndsRejected o s :=
  ⟨[], s, failure, .start, fun _ hT => absurd hT List.not_mem_nil, hphase⟩

theorem Reported.confirmed (hrep : Reported o h s) (hread : ¬ SomeMisread h)
    (hresolved : s.phase.outcome? = some .resolved) : Confirmed o h := by
  cases hrep with
  | waiting _ _ _ _ hphase =>
      rcases hphase with ⟨hphase, -⟩ | hphase <;> rw [hphase] at hresolved <;> cases hresolved
  | resolving hconfirmed _ _ => exact hconfirmed
  | rejecting failure _ hphase =>
      rcases hphase with hphase | hphase <;> rw [hphase] at hresolved <;> cases hresolved
  | misled hmisread _ _ _ _ => exact absurd hmisread hread

theorem Reported.endsRejected (hrep : Reported o h s) (hread : ¬ SomeMisread h)
    (hfailed : Failed h) (hsilent : ¬ Confirmed o h) : EndsRejected o s := by
  cases hrep with
  | waiting hwait _ _ _ hphase =>
      rcases hphase with ⟨-, hno⟩ | hgrace
      · exact absurd hfailed hno
      · exact endsRejected_of_grace hwait hgrace
  | resolving hconfirmed _ _ => exact absurd hconfirmed hsilent
  | rejecting failure _ hphase =>
      rcases hphase with hphase | hphase
      · exact endsRejected_of_removing hphase
      · exact endsRejected_of_settled hphase
  | misled hmisread _ _ _ _ => exact absurd hmisread hread

theorem confirmSound_rejected (failure : Failure) : ConfirmSound o h (.rejected failure) :=
  ⟨nofun, fun _ _ => ⟨failure, rfl⟩⟩

/-- What a finished confirmation reports is right unless an error was misread and the listener
removed. -/
theorem Reported.sound_iff (hrep : Reported o h s) {outcome : ConfirmOutcome}
    (hsettled : s.phase = .settled outcome) :
    ConfirmSound o h outcome ↔ ¬ (SomeMisread h ∧ Removed h) := by
  cases hrep with
  | waiting _ _ _ _ hphase =>
      rcases hphase with ⟨hphase, -⟩ | hphase <;> rw [hphase] at hsettled <;> cases hsettled
  | resolving hconfirmed hread hphase =>
      rw [hsettled] at hphase
      rcases hphase with hphase | hphase
      · cases hphase
      · have hsound : ConfirmSound o h outcome :=
          ⟨fun _ => hconfirmed, fun _ hsilent => absurd hconfirmed hsilent⟩
        exact iff_of_true hsound fun hboth => hread hboth.1
  | rejecting failure hread hphase =>
      rw [hsettled] at hphase
      rcases hphase with hphase | hphase
      · cases hphase
      · cases hphase
        exact iff_of_true (confirmSound_rejected failure) fun hboth => hread hboth.1
  | misled hmisread hsilent _ _ hphase =>
      rw [hsettled] at hphase
      rcases hphase with ⟨hphase, -⟩ | ⟨hphase, hremoved⟩ | ⟨failure, hphase, hlisten⟩
      · cases hphase
      · cases hphase
        exact iff_of_false (fun hsound => hsilent (hsound.1 rfl)) (not_not.mpr ⟨hmisread, hremoved⟩)
      · cases hphase
        exact iff_of_true (confirmSound_rejected failure) fun hboth => hlisten hboth.2

/-- A confirmation resolves only when a success was reported, and one with an error and no
success is on its way to its rejection, in every run in which no error of the websocket falls
into the grace.  A finished confirmation is right exactly when none did, or when removing the
listener failed after it. -/
theorem confirm_sound_iff (o : ConfirmOpts) {h : ConfirmHistory} {s : ConfirmState}
    (run : Run (ConfirmStep o) .start h s) :
    ((∀ T ∈ h, ¬ Misread T) →
      (s.phase.outcome? = some .resolved → Confirmed o h) ∧
      (Failed h → ¬ Confirmed o h → EndsRejected o s)) ∧
    (∀ outcome, s.phase = .settled outcome →
      (ConfirmSound o h outcome ↔
        ¬ ((∃ T ∈ h, Misread T) ∧ ∃ T ∈ h, T.input = .removed))) := by
  have hrep := reported run
  refine ⟨?_, fun outcome hsettled => hrep.sound_iff hsettled⟩
  intro hread
  have hread : ¬ SomeMisread h := fun ⟨T, hT, hmisread⟩ => hread T hT hmisread
  exact ⟨hrep.confirmed hread, hrep.endsRejected hread⟩

/-- The poll is refused, the websocket reports, the listener is removed. -/
def refusedThen (o : ConfirmOpts) (err : Option String) : Option (ConfirmHistory × ConfirmState) :=
  let s := ConfirmState.start
  (s.handle o (.statusFailed (.error "429"))).bind fun s₁ =>
    (s₁.handle o (.notified err)).bind fun s₂ =>
      (s₂.handle o .removed).map fun s₃ =>
        ([⟨s₂, .removed, (), s₃⟩, ⟨s₁, .notified err, (), s₂⟩,
          ⟨s, .statusFailed (.error "429"), (), s₁⟩], s₃)

theorem run_refusedThen {err : Option String} (hrun : refusedThen o err = some (h, s)) :
    Run (ConfirmStep o) .start h s := by
  simp only [refusedThen, Option.bind_eq_some_iff, Option.map_eq_some_iff, Prod.mk.injEq] at hrun
  obtain ⟨s₁, h₁, s₂, h₂, s₃, h₃, rfl, rfl⟩ := hrun
  exact .next (.next (.next .start h₁) h₂) h₃

/-- A failed transaction is taken as settled. -/
theorem confirm_settles_failed :
    ∃ (o : ConfirmOpts) (h : ConfirmHistory) (s : ConfirmState),
      Run (ConfirmStep o) .start h s ∧ s.phase = .settled .resolved ∧ Failed h ∧
        ¬ Confirmed o h := by
  have hrun : refusedThen ⟨"5h", .confirmed⟩ (some "InstructionError") = some (_, _) := rfl
  refine ⟨_, _, _, run_refusedThen hrun, rfl, ?_, ?_⟩
  · simp [Failed, ConfirmEvent.Fails]
  · simp [Confirmed, ConfirmEvent.Confirms]

theorem confirm_sound_iff_sample :
    ∃ (o : ConfirmOpts) (h : ConfirmHistory), Confirmed o h ∧ ConfirmSound o h .resolved := by
  have hrun : refusedThen ⟨"5h", .confirmed⟩ none = some (_, _) := rfl
  have hclaim := confirm_sound_iff ⟨"5h", .confirmed⟩ (run_refusedThen hrun)
  refine ⟨_, _, (hclaim.1 ?_).1 rfl, (hclaim.2 .resolved rfl).mpr ?_⟩
  · simp [Misread]
  · simp [Misread]

end Veto.Watcher

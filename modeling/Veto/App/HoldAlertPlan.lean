import Veto.Watcher.HoldAlerts

/-!
# The app's plan of hold alerts

`holdAlerts.ts`: the times at which a held withdrawal is announced, all computed when the plan is
made.  The watcher computes at each scan which alerts are due.  `Mark` is the schedule that both
follow: up to any time before the end of the wait they name the same alerts.
-/

namespace Veto.App.HoldAlerts

open Foundation

def HOUR : Int := 3600

inductive HoldAlertName
  | created
  | afterHour
  | after12h
  | every12h
  | before6h
  | before1h
  | ended
  deriving DecidableEq, Repr

def HoldAlertName.text : HoldAlertName → String
  | .created => "created"
  | .afterHour => "1h"
  | .after12h => "12h"
  | .every12h => "every_12h"
  | .before6h => "6h_before"
  | .before1h => "1h_before"
  | .ended => "end"

structure HoldAlert where
  key : String
  name : HoldAlertName
  time : Int
  title : String
  body : String
  row : String
  deriving DecidableEq, Repr

/-- What a plan is made of. -/
structure PlanArgs where
  vault : String
  withdrawalId : String
  amountLabel : String
  destinationLabel : String
  createdAt : Int
  unlockAt : Int
  newAddress : Bool

def leftReminder (left : Int) : String :=
  let hours := left / HOUR
  if hours % 24 = 0 then
    let days := hours / 24
    if days = 1 then "Reminder, 1 day left." else "Reminder, " ++ toString days ++ " days left."
  else if hours = 1 then "Reminder, 1 hour left."
  else "Reminder, " ++ toString hours ++ " hours left."

/-- The text without a full stop at its end. -/
def withoutStop (row : String) : String :=
  if row.toList.getLast? = some '.' then String.ofList row.toList.dropLast else row

/-- The hours of the loop over the `every_12h` alerts. -/
def everyTwelve (createdAt unlockAt hours : Int) : List Int :=
  if createdAt + hours * HOUR < unlockAt then
    hours :: everyTwelve createdAt unlockAt (hours + 12)
  else []
  termination_by (unlockAt - createdAt - hours * HOUR).toNat
  decreasing_by
    unfold HOUR at *
    omega

section Plan

variable (formatChainInstant : Int → String) (args : PlanArgs)

def HoldAlert.of (name : HoldAlertName) (time : Int) (title body row : String) : HoldAlert where
  key := args.vault ++ ":" ++ args.withdrawalId ++ ":" ++ name.text ++ ":" ++ toString time
  name
  time
  title
  body
  row

def stillWaiting : String :=
  args.amountLabel ++ " to " ++ args.destinationLabel ++ " is still waiting."

def everyTwelveAlert (hours : Int) : HoldAlert :=
  let time := args.createdAt + hours * HOUR
  let left := args.unlockAt - time
  let row := if left = 86400 then "Reminder, 1 day left." else leftReminder left
  .of args .every12h time (withoutStop row) (stillWaiting args) row

/-- `formatChainInstant` writes a time in the zone of the phone. -/
def holdAlertPlan : List HoldAlert :=
  let label := args.amountLabel ++ " to " ++ args.destinationLabel
  [.of args .created args.createdAt
    (if args.newAddress then "Held: " ++ args.amountLabel ++ " to a new address"
      else "Held: " ++ label)
    ("Goes " ++ formatChainInstant args.unlockAt ++ " unless you stop it. Tap to stop.")
    "Held. What, where, when it goes."] ++
  (if args.createdAt + HOUR < args.unlockAt then
    [.of args .afterHour (args.createdAt + HOUR) "Reminder, 1 hour in" (stillWaiting args)
      "Reminder, 1 hour in."] else []) ++
  (if args.createdAt + 12 * HOUR < args.unlockAt then
    [.of args .after12h (args.createdAt + 12 * HOUR) "Reminder, 12 hours in" (stillWaiting args)
      "Reminder, 12 hours in."] else []) ++
  (everyTwelve args.createdAt args.unlockAt 24).map (everyTwelveAlert args) ++
  (if args.createdAt + 6 * HOUR < args.unlockAt then
    [.of args .before6h (args.unlockAt - 6 * HOUR) "Last calls: 6 hours left"
      (label ++ " goes in 6 hours unless you stop it.") "Last calls: 6 hours left."] else []) ++
  (if args.createdAt + HOUR < args.unlockAt then
    [.of args .before1h (args.unlockAt - HOUR) "Goes in 1 hour unless stopped"
      (label ++ " goes in 1 hour unless you stop it.") "Goes in 1 hour unless stopped."]
    else []) ++
  [.of args .ended args.unlockAt "Paid or stopped"
    ("The wait for " ++ label ++ " ended. Check whether it was paid or stopped.")
    "Paid or stopped. On the blockchain."]

/-- What the plan schedules up to a time: names and times. -/
def scheduledUpTo (plan : List HoldAlert) (t : Int) : List (HoldAlertName × Int) :=
  (plan.filter fun alert => alert.time ≤ t).map fun alert => (alert.name, alert.time)

end Plan

/-! ## The schedule that both follow -/

/-- An alert about a withdrawal that waits. -/
inductive Mark
  | created
  | afterHour
  | after12h
  | every12h (hours : Int)
  | before6h
  | before1h

/-- The alert as the app schedules it: its name and its time. -/
def Mark.scheduled (createdAt unlockAt : Int) : Mark → HoldAlertName × Int
  | .created => (.created, createdAt)
  | .afterHour => (.afterHour, createdAt + HOUR)
  | .after12h => (.after12h, createdAt + 12 * HOUR)
  | .every12h hours => (.every12h, createdAt + hours * HOUR)
  | .before6h => (.before6h, unlockAt - 6 * HOUR)
  | .before1h => (.before1h, unlockAt - HOUR)

/-- The alert as the watcher emits it: its name and its mark. -/
def Mark.emitted : Mark → Watcher.Hold.HoldAlertName × String
  | .created => (.created, "created")
  | .afterHour => (.afterHour, "1")
  | .after12h => (.after12h, "12")
  | .every12h hours => (.every12h, toString hours)
  | .before6h => (.before6h, "6")
  | .before1h => (.before1h, "1")

/-- How many of the `every_12h` marks, from the hour `start` on, are due. -/
def dueTwelves (createdAt t start : Int) : Nat := (((t - createdAt) / HOUR - start) / 12 + 1).toNat

/-- The marks up to a time. -/
def marksUpTo (createdAt unlockAt t : Int) : List Mark :=
  [.created] ++
  (if createdAt + HOUR ≤ t then [.afterHour] else []) ++
  (if createdAt + 12 * HOUR ≤ t then [.after12h] else []) ++
  ((List.range (dueTwelves createdAt t 24)).map fun k : Nat => .every12h (24 + 12 * (k : Int))) ++
  (if createdAt + 6 * HOUR < unlockAt ∧ unlockAt - 6 * HOUR ≤ t then [.before6h] else []) ++
  (if createdAt + HOUR < unlockAt ∧ unlockAt - HOUR ≤ t then [.before1h] else [])

/-! ## The app follows it -/

section Refines

variable {formatChainInstant : Int → String} {args : PlanArgs} {createdAt unlockAt t : Int}

theorem dueTwelves_succ {start : Int} (h : createdAt + start * HOUR ≤ t) :
    dueTwelves createdAt t start = dueTwelves createdAt t (start + 12) + 1 := by
  unfold dueTwelves HOUR at *
  omega

theorem dueTwelves_eq_zero {start : Int} (h : t < createdAt + start * HOUR) :
    dueTwelves createdAt t start = 0 := by
  unfold dueTwelves HOUR at *
  omega

/-- Of the hours of the loop, those that are due are the first ones. -/
theorem everyTwelve_due (ht : t < unlockAt) (start : Int) :
    (everyTwelve createdAt unlockAt start).filter (fun hours => createdAt + hours * HOUR ≤ t) =
      (List.range (dueTwelves createdAt t start)).map fun k : Nat => start + 12 * (k : Int) := by
  induction start using everyTwelve.induct createdAt unlockAt with
  | case1 start hlt ih =>
      rw [everyTwelve, if_pos hlt, List.filter_cons, ih]
      by_cases hdue : createdAt + start * HOUR ≤ t
      · rw [if_pos (decide_eq_true hdue), dueTwelves_succ hdue, List.range_succ_eq_map,
          List.map_cons, List.map_map]
        congr 1
        · simp
        · apply List.map_congr_left
          intro k _
          rw [Function.comp_apply, Nat.cast_succ]
          ring
      · have hlate : t < createdAt + (start + 12) * HOUR := by
          unfold HOUR at *
          omega
        rw [if_neg (by simpa using hdue), dueTwelves_eq_zero hlate,
          dueTwelves_eq_zero (not_le.mp hdue)]
        rfl
  | case2 start hge =>
      rw [everyTwelve, if_neg hge, dueTwelves_eq_zero (by omega)]
      rfl

theorem scheduledUpTo_append (plan more : List HoldAlert) (t : Int) :
    scheduledUpTo (plan ++ more) t = scheduledUpTo plan t ++ scheduledUpTo more t := by
  unfold scheduledUpTo
  rw [List.filter_append, List.map_append]

theorem scheduledUpTo_single (name : HoldAlertName) (time : Int) (title body row : String) :
    scheduledUpTo [.of args name time title body row] t =
      if time ≤ t then [(name, time)] else [] := by
  unfold scheduledUpTo
  by_cases hdue : time ≤ t
  · rw [if_pos hdue, List.filter_cons_of_pos (by simpa [HoldAlert.of] using hdue)]
    rfl
  · rw [if_neg hdue, List.filter_cons_of_neg (by simpa [HoldAlert.of] using hdue)]
    rfl

/-- An alert that is planned under a condition. -/
theorem scheduledUpTo_if (c : Prop) [Decidable c] (name : HoldAlertName) (time : Int)
    (title body row : String) :
    scheduledUpTo (if c then [.of args name time title body row] else []) t =
      if c ∧ time ≤ t then [(name, time)] else [] := by
  by_cases hc : c
  · rw [if_pos hc, scheduledUpTo_single]
    simp only [hc, true_and]
  · rw [if_neg hc, if_neg fun h => hc h.1]
    rfl

theorem scheduledUpTo_everyTwelve (ht : t < args.unlockAt) :
    scheduledUpTo ((everyTwelve args.createdAt args.unlockAt 24).map (everyTwelveAlert args)) t =
      (List.range (dueTwelves args.createdAt t 24)).map fun k : Nat =>
        (.every12h, args.createdAt + (24 + 12 * (k : Int)) * HOUR) := by
  have hfilter : ((fun alert : HoldAlert => decide (alert.time ≤ t)) ∘ everyTwelveAlert args) =
      fun hours => decide (args.createdAt + hours * HOUR ≤ t) := rfl
  unfold scheduledUpTo
  rw [List.filter_map, hfilter, everyTwelve_due ht, List.map_map, List.map_map]
  rfl

theorem map_if {α β : Type} (f : α → β) (c : Prop) [Decidable c] (a : α) :
    (if c then [a] else []).map f = if c then [f a] else [] := by
  split_ifs <;> rfl

/-- **The plan up to a time before the end is the schedule up to that time.** -/
theorem scheduled_marks (hcreated : args.createdAt ≤ t) (ht : t < args.unlockAt) :
    scheduledUpTo (holdAlertPlan formatChainInstant args) t =
      (marksUpTo args.createdAt args.unlockAt t).map
        (Mark.scheduled args.createdAt args.unlockAt) := by
  -- up to a time before the end, what is due is planned
  have hdue : ∀ hours, (args.createdAt + hours * HOUR < args.unlockAt ∧
      args.createdAt + hours * HOUR ≤ t) ↔ args.createdAt + hours * HOUR ≤ t := by
    intro hours
    omega
  have hhour : (args.createdAt + HOUR < args.unlockAt ∧ args.createdAt + HOUR ≤ t) ↔
      args.createdAt + HOUR ≤ t := by
    omega
  unfold holdAlertPlan marksUpTo
  simp only [scheduledUpTo_append, scheduledUpTo_if, scheduledUpTo_single,
    scheduledUpTo_everyTwelve ht, hdue, hhour, List.map_append, map_if, List.map_map]
  rw [if_pos hcreated, if_neg (not_le.mpr ht), List.append_nil]
  rfl

end Refines

/-! ## The watcher follows it -/

section Watcher

open Veto.Watcher.Hold (HoldPending HoldAlertEvent dueAlerts every12hMarks makeEvent timeText cadence)

variable {row : HoldPending} {createdAt t : Int}

theorem every12hMarks_eq (hcreated : createdAt ≤ t) (hfew : dueTwelves createdAt t 24 ≤ 200) :
    every12hMarks createdAt t =
      (List.range (dueTwelves createdAt t 24)).map fun k : Nat => 24 + 12 * (k : Int) := by
  unfold every12hMarks
  unfold dueTwelves HOUR at *
  rw [show Veto.Watcher.Hold.HOUR = 3600 from rfl]
  dsimp only
  by_cases hsome : 24 ≤ (t - createdAt) / 3600 / 12 * 12
  · have hlater : createdAt < t := by omega
    have hall : ¬ 200 < ((t - createdAt) / 3600 / 12 * 12 - 24) / 12 + 1 := by omega
    have hcount : (((t - createdAt) / 3600 / 12 * 12 - 24) / 12 + 1).toNat =
        (((t - createdAt) / 3600 - 24) / 12 + 1).toNat := by omega
    rw [if_pos hlater, if_pos hsome, if_neg hall, hcount]
    change List.map _ (List.flatMap (fun n : Nat => [(n : Int)]) _) = _
    rw [← List.map_eq_flatMap, List.map_map]
    rfl
  · have hnone : (((t - createdAt) / 3600 - 24) / 12 + 1).toNat = 0 := by omega
    rw [if_neg hsome, ite_self, hnone]
    rfl

/-- **What the watcher finds due is the schedule up to now**, as long as it has not dropped the
earlier of more than two hundred marks. -/
theorem due_marks (hcreated : createdAt ≤ t) (hfew : dueTwelves createdAt t 24 ≤ 200) :
    dueAlerts row createdAt t = (marksUpTo createdAt row.unlockAt t).map Mark.emitted := by
  unfold dueAlerts marksUpTo
  rw [every12hMarks_eq hcreated hfew]
  simp only [List.map_append, map_if, List.map_map]
  rfl

theorem makeEvent_alert {vault mark : String} {id amount unlockAt created : Int}
    {alert : Veto.Watcher.Hold.HoldAlertName} {destination : Pubkey} {event : HoldAlertEvent}
    (h : makeEvent vault id alert mark amount destination unlockAt created = .ok event) :
    (event.alert, event.mark) = (alert, mark) := by
  unfold makeEvent at h
  obtain ⟨_, -, h⟩ := bind_ok_iff.mp h
  obtain ⟨_, -, h⟩ := bind_ok_iff.mp h
  cases h
  rfl

/-- What a scan emits for a row that waits, where the times of the row are dates. -/
theorem cadence_shows (vault : String) (row : HoldPending) (createdAt t : Int) :
    (∀ events, cadence vault row createdAt t = .ok events →
      (events.map fun event => (event.alert, event.mark)) = dueAlerts row createdAt t) ∧
    (∀ unlocks created, timeText row.unlockAt = .ok unlocks → timeText createdAt = .ok created →
      ∃ events, cadence vault row createdAt t = .ok events) := by
  constructor
  · intro events h
    exact map_of_mapM (fun _ _ => makeEvent_alert) h
  · intro unlocks created hunlocks hcreated
    apply mapM_of_forall
    intro due _
    unfold makeEvent
    rw [hunlocks, hcreated]
    exact ⟨_, rfl⟩

end Watcher

/-- **Up to any time before the end of the wait, the alerts that the app plans and the alerts that
the watcher emits are the same, name for name and time for mark.** -/
theorem plan_matches_cadence (formatChainInstant : Int → String) (args : PlanArgs)
    (row : Watcher.Hold.HoldPending) (vault : String) {t : Int}
    (hrow : row.unlockAt = args.unlockAt) (hcreated : args.createdAt ≤ t) (ht : t < args.unlockAt)
    (hfew : ((everyTwelve args.createdAt args.unlockAt 24).filter
      fun hours => args.createdAt + hours * HOUR ≤ t).length < 200) :
    ∃ marks : List Mark,
      scheduledUpTo (holdAlertPlan formatChainInstant args) t =
        marks.map (Mark.scheduled args.createdAt args.unlockAt) ∧
      Watcher.Hold.dueAlerts row args.createdAt t = marks.map Mark.emitted ∧
      (∀ events, Watcher.Hold.cadence vault row args.createdAt t = .ok events →
        (events.map fun event => (event.alert, event.mark)) = marks.map Mark.emitted) ∧
      (∀ unlocks created, Watcher.Hold.timeText row.unlockAt = .ok unlocks →
        Watcher.Hold.timeText args.createdAt = .ok created →
        ∃ events, Watcher.Hold.cadence vault row args.createdAt t = .ok events) := by
  have hdue : dueTwelves args.createdAt t 24 ≤ 200 := by
    rw [everyTwelve_due ht, List.length_map, List.length_range] at hfew
    exact hfew.le
  have hmarks : Watcher.Hold.dueAlerts row args.createdAt t =
      (marksUpTo args.createdAt args.unlockAt t).map Mark.emitted := by
    rw [due_marks hcreated hdue, hrow]
  obtain ⟨hshows, hreturns⟩ := cadence_shows vault row args.createdAt t
  refine ⟨marksUpTo args.createdAt args.unlockAt t, scheduled_marks hcreated ht, hmarks, ?_,
    hreturns⟩
  intro events h
  rw [hshows events h, hmarks]

/-- A wait of two days, looked at after twenty-five hours. -/
theorem plan_matches_cadence_two_days :
    let args : PlanArgs := ⟨"V", "1", "5 USDC", "D", 1000, 1000 + 48 * HOUR, false⟩
    let row : Watcher.Hold.HoldPending := ⟨1, 5, 7, 1000 + 48 * HOUR⟩
    ∃ marks : List Mark,
      scheduledUpTo (holdAlertPlan toString args) (1000 + 25 * HOUR) =
        marks.map (Mark.scheduled args.createdAt args.unlockAt) ∧
      Watcher.Hold.dueAlerts row args.createdAt (1000 + 25 * HOUR) = marks.map Mark.emitted ∧
      (∀ events, Watcher.Hold.cadence "V" row args.createdAt (1000 + 25 * HOUR) = .ok events →
        (events.map fun event => (event.alert, event.mark)) = marks.map Mark.emitted) ∧
      (∀ unlocks created, Watcher.Hold.timeText row.unlockAt = .ok unlocks →
        Watcher.Hold.timeText args.createdAt = .ok created →
        ∃ events, Watcher.Hold.cadence "V" row args.createdAt (1000 + 25 * HOUR) = .ok events) := by
  intro args row
  have hhour : HOUR = 3600 := rfl
  have hcreated : args.createdAt = 1000 := rfl
  have hunlock : args.unlockAt = 1000 + 48 * HOUR := rfl
  refine plan_matches_cadence toString args row "V" rfl (by omega) (by omega) ?_
  rw [everyTwelve_due (by omega)]
  decide

end Veto.App.HoldAlerts

import Veto.Watcher.HoldSnapshot

/-!
# The marks of a held withdrawal

A withdrawal that waits has marks at fixed times after it was created and before it unlocks.
With the right creation time the alerts that `cadence` finds due are the marks that have
passed, of the twelve-hour marks the latest two hundred.
-/

namespace Veto.Watcher.Hold

open Foundation

inductive HoldMark
  | created
  | afterHour
  | after12h
  /-- Twenty-four hours and `n` times twelve. -/
  | every12h (n : Nat)
  | before6h
  | before1h

namespace HoldMark

def alert : HoldMark → HoldAlertName
  | created => .created
  | afterHour => .afterHour
  | after12h => .after12h
  | every12h _ => .every12h
  | before6h => .before6h
  | before1h => .before1h

def text : HoldMark → String
  | created => "created"
  | afterHour => "1"
  | after12h => "12"
  | every12h n => toString (24 + 12 * (n : Int))
  | before6h => "6"
  | before1h => "1"

def time (createdAt unlockAt : Int) : HoldMark → Int
  | created => createdAt
  | afterHour => createdAt + HOUR
  | after12h => createdAt + 12 * HOUR
  | every12h n => createdAt + (24 + 12 * (n : Int)) * HOUR
  | before6h => unlockAt - 6 * HOUR
  | before1h => unlockAt - HOUR

/-- The mark has passed; if it is a twelve-hour mark, two hundred later ones have not. -/
structure Passed (createdAt unlockAt nowSec : Int) (m : HoldMark) : Prop where
  time_le : m.time createdAt unlockAt ≤ nowSec
  latest : ∀ n, m = every12h n → nowSec < (every12h (n + 200)).time createdAt unlockAt

end HoldMark

/-- An alert about a row that waits and that has a time of its own. -/
def HoldAlertName.timed : HoldAlertName → Bool
  | .afterHour => true
  | .after12h => true
  | .every12h => true
  | .before6h => true
  | .before1h => true
  | _ => false

section Due

variable {createdAt nowSec hours : Int} {row : HoldPending} {alert : HoldAlertName} {mark : String}

/-- The hours of the loop: multiples of twelve that have passed, the latest two hundred. -/
theorem mem_every12hMarks : hours ∈ every12hMarks createdAt nowSec ↔
    ∃ n : Nat, hours = 24 + 12 * (n : Int) ∧ createdAt + hours * HOUR ≤ nowSec ∧
      nowSec < createdAt + (hours + 2400) * HOUR := by
  unfold every12hMarks HOUR
  dsimp only
  by_cases hsome : createdAt < nowSec ∧ 24 ≤ (nowSec - createdAt) / 3600 / 12 * 12
  · rw [if_pos hsome.1, if_pos hsome.2]
    -- the first hour of the loop, which is 24 or 199 marks before the last
    obtain ⟨a, start, hstart, hfrom, hlow, hhigh⟩ : ∃ a start,
        (if 200 < ((nowSec - createdAt) / 3600 / 12 * 12 - 24) / 12 + 1 then
          (nowSec - createdAt) / 3600 / 12 * 12 - 199 * 12 else 24) = start ∧
        start = 24 + 12 * (a : Int) ∧ 0 ≤ a ∧
        (start ≤ (nowSec - createdAt) / 3600 / 12 * 12 ∧
          (start = 24 ∧ (nowSec - createdAt) / 3600 / 12 * 12 ≤ start + 2388 ∨
            (nowSec - createdAt) / 3600 / 12 * 12 = start + 2388)) := by
      by_cases hmany : 200 < ((nowSec - createdAt) / 3600 / 12 * 12 - 24) / 12 + 1
      · refine ⟨(nowSec - createdAt) / 3600 / 12 - 201, _, if_pos hmany, ?_, ?_, ?_⟩ <;> omega
      · refine ⟨0, _, if_neg hmany, ?_, ?_, ?_⟩ <;> omega
    rw [hstart]
    change hours ∈ List.map _ (List.flatMap (fun n : Nat => [(n : Int)]) _) ↔ _
    rw [← List.map_eq_flatMap, List.map_map, List.mem_map]
    constructor
    · rintro ⟨k, hk, rfl⟩
      rw [List.mem_range] at hk
      refine ⟨(a + k).toNat, ?_, ?_, ?_⟩ <;> simp only [Function.comp_apply] <;> omega
    · rintro ⟨n, hhours, hpassed, hlatest⟩
      refine ⟨((hours - start) / 12).toNat, ?_, ?_⟩
      · rw [List.mem_range]
        omega
      · simp only [Function.comp_apply]
        omega
  · constructor
    · intro hmem
      split at hmem
      · rename_i hlater
        rw [if_neg fun hfirst => hsome ⟨hlater, hfirst⟩] at hmem
        cases hmem
      · cases hmem
    · rintro ⟨n, hhours, hpassed, -⟩
      exact absurd (by omega) hsome

theorem mem_if_single {α : Type} {c : Prop} [Decidable c] {a b : α} :
    a ∈ (if c then [b] else []) ↔ c ∧ a = b := by
  by_cases hc : c
  · rw [if_pos hc, List.mem_singleton]
    exact ⟨fun h => ⟨hc, h⟩, fun h => h.2⟩
  · rw [if_neg hc]
    exact ⟨fun h => absurd h List.not_mem_nil, fun h => absurd h.1 hc⟩

/-- What is due is a mark that has passed, or the creation. -/
theorem mark_of_due (h : (alert, mark) ∈ dueAlerts row createdAt nowSec) :
    ∃ m : HoldMark, alert = m.alert ∧ mark = m.text ∧
      (m = .created ∨ m.time createdAt row.unlockAt ≤ nowSec) := by
  unfold dueAlerts at h
  simp only [List.mem_append, mem_if_single, or_assoc] at h
  rcases h with hcreated | hhour | h12 | hevery | h6 | h1
  · obtain ⟨rfl, rfl⟩ := Prod.mk.inj (List.mem_singleton.mp hcreated)
    exact ⟨.created, rfl, rfl, .inl rfl⟩
  · obtain ⟨hdue, heq⟩ := hhour
    obtain ⟨rfl, rfl⟩ := Prod.mk.inj heq
    exact ⟨.afterHour, rfl, rfl, .inr hdue⟩
  · obtain ⟨hdue, heq⟩ := h12
    obtain ⟨rfl, rfl⟩ := Prod.mk.inj heq
    exact ⟨.after12h, rfl, rfl, .inr hdue⟩
  · obtain ⟨hours, hhours, heq⟩ := List.mem_map.mp hevery
    obtain ⟨rfl, rfl⟩ := Prod.mk.inj heq
    obtain ⟨n, rfl, hdue, -⟩ := mem_every12hMarks.mp hhours
    exact ⟨.every12h n, rfl, rfl, .inr hdue⟩
  · obtain ⟨⟨-, hdue⟩, heq⟩ := h6
    obtain ⟨rfl, rfl⟩ := Prod.mk.inj heq
    exact ⟨.before6h, rfl, rfl, .inr hdue⟩
  · obtain ⟨⟨-, hdue⟩, heq⟩ := h1
    obtain ⟨rfl, rfl⟩ := Prod.mk.inj heq
    exact ⟨.before1h, rfl, rfl, .inr hdue⟩

/-- Every mark that has passed is due, as long as the wait is longer than six hours. -/
theorem due_of_passed (hwait : createdAt + 6 * HOUR < row.unlockAt) {m : HoldMark}
    (h : m.Passed createdAt row.unlockAt nowSec) :
    (m.alert, m.text) ∈ dueAlerts row createdAt nowSec := by
  have hpassed := h.time_le
  unfold dueAlerts
  simp only [List.mem_append, mem_if_single, or_assoc]
  cases m with
  | created => exact .inl (List.mem_singleton_self _)
  | afterHour => exact .inr (.inl ⟨hpassed, rfl⟩)
  | after12h => exact .inr (.inr (.inl ⟨hpassed, rfl⟩))
  | every12h n =>
      refine .inr (.inr (.inr (.inl (List.mem_map.mpr ⟨24 + 12 * (n : Int), ?_, rfl⟩))))
      have hlatest := h.latest n rfl
      refine mem_every12hMarks.mpr ⟨n, rfl, hpassed, ?_⟩
      unfold HoldMark.time at hlatest
      unfold HOUR at hlatest ⊢
      push_cast at hlatest
      omega
  | before6h => exact .inr (.inr (.inr (.inr (.inl ⟨⟨hwait, hpassed⟩, rfl⟩))))
  | before1h =>
      have hwait' : createdAt + HOUR < row.unlockAt := by
        unfold HOUR at hwait ⊢
        omega
      exact .inr (.inr (.inr (.inr (.inr ⟨⟨hwait', hpassed⟩, rfl⟩))))

end Due

end Veto.Watcher.Hold

import Veto.Foundation.Result
import Mathlib.Data.List.Basic

/-!
# Runs of a labelled transition system

A system is a relation `step s i o s'`: in state `s`, input `i` is answered by
`o` and leads to `s'`.  A run keeps its whole history, latest transition first,
so that an invariant may speak about everything that has happened so far.

An invariant over histories is proved with `Run.carries`; a transition in the
middle of a history is reached with `Run.split`.  `execAll` runs an executable
step, so that a concrete history can be computed.
-/

namespace Veto.Foundation

/-- One step a system took. -/
structure Transition (σ ι ω : Type) where
  pre : σ
  input : ι
  output : ω
  post : σ

variable {σ ι ω : Type}

/-- `Run step s₀ h s`: from `s₀`, the transitions of `h`, latest first, lead to `s`. -/
inductive Run (step : σ → ι → ω → σ → Prop) (s₀ : σ) : List (Transition σ ι ω) → σ → Prop
  | start : Run step s₀ [] s₀
  | next {h : List (Transition σ ι ω)} {s : σ} {i : ι} {o : ω} {s' : σ} :
      Run step s₀ h s → step s i o s' → Run step s₀ (⟨s, i, o, s'⟩ :: h) s'

namespace Run

variable {step : σ → ι → ω → σ → Prop} {s₀ s s' : σ} {h h' : List (Transition σ ι ω)}

/-- A property of histories that the empty one has and every step carries on
holds along every run.  The step may use that the history so far is a run. -/
theorem carries {P : List (Transition σ ι ω) → σ → Prop} (start : P [] s₀)
    (next : ∀ h s i o s', Run step s₀ h s → P h s → step s i o s' →
      P (⟨s, i, o, s'⟩ :: h) s')
    (run : Run step s₀ h s) : P h s := by
  induction run with
  | start => exact start
  | next run hstep ih => exact next _ _ _ _ _ run ih hstep

/-- A property of states that every step preserves holds in every state a run reaches. -/
theorem preserves {P : σ → Prop} (next : ∀ s i o s', P s → step s i o s' → P s')
    (run : Run step s₀ h s) (start : P s₀) : P s :=
  carries (P := fun _ s => P s) start (fun _ s i o s' _ ih hstep => next s i o s' ih hstep) run

/-- Where a value comes from: if every step keeps it or is one that sets it, some
step of the run set it. -/
theorem origin {α : Type} (held : σ → Option α) (sets : Transition σ ι ω → α → Prop)
    (next : ∀ s i o s' a, step s i o s' → held s' = some a →
      held s = some a ∨ sets ⟨s, i, o, s'⟩ a)
    (run : Run step s₀ h s) (start : held s₀ = none) {a : α} (ha : held s = some a) :
    ∃ T ∈ h, sets T a := by
  induction run with
  | start =>
      rw [start] at ha
      cases ha
  | next run hstep ih =>
      rcases next _ _ _ _ _ hstep ha with hkept | hset
      · obtain ⟨T, hT, hsets⟩ := ih hkept
        exact ⟨T, List.mem_cons_of_mem _ hT, hsets⟩
      · exact ⟨_, List.mem_cons_self, hset⟩

/-- Which transition a value comes from: if a marked step sets the value and any other keeps
it, the latest marked step of the run set it. -/
theorem latest {α : Type} (held : σ → Option α) (sets : Transition σ ι ω → α → Prop)
    (marked : Transition σ ι ω → Bool)
    (next : ∀ s i o s' a, step s i o s' → held s' = some a →
      if marked ⟨s, i, o, s'⟩ then sets ⟨s, i, o, s'⟩ a else held s = some a)
    (run : Run step s₀ h s) (start : held s₀ = none) {a : α} (ha : held s = some a) :
    ∃ T older, h.dropWhile (fun T => !marked T) = T :: older ∧ sets T a := by
  induction run with
  | start =>
      rw [start] at ha
      cases ha
  | @next h s i o s' run hstep ih =>
      have hnext := next _ _ _ _ _ hstep ha
      cases hmark : marked ⟨s, i, o, s'⟩ with
      | true =>
          rw [hmark, if_pos rfl] at hnext
          rw [List.dropWhile_cons_of_neg (by simp [hmark])]
          exact ⟨_, _, rfl, hnext⟩
      | false =>
          rw [hmark, if_neg Bool.false_ne_true] at hnext
          rw [List.dropWhile_cons_of_pos (by simp [hmark])]
          exact ih hnext

theorem append (first : Run step s₀ h s) (second : Run step s h' s') :
    Run step s₀ (h' ++ h) s' := by
  induction second with
  | start => exact first
  | next _ hstep ih => exact .next ih hstep

theorem last {T : Transition σ ι ω} (run : Run step s₀ (T :: h) s) :
    Run step s₀ h T.pre ∧ step T.pre T.input T.output T.post ∧ s = T.post := by
  cases run with
  | next run hstep => exact ⟨run, hstep, rfl⟩

/-- A transition cuts its run into the run before it, its step, and the run after it. -/
theorem split {newer older : List (Transition σ ι ω)} {T : Transition σ ι ω}
    (run : Run step s₀ (newer ++ T :: older) s) :
    Run step s₀ older T.pre ∧ step T.pre T.input T.output T.post ∧ Run step T.post newer s := by
  induction newer generalizing s with
  | nil =>
      obtain ⟨before, hstep, rfl⟩ := last run
      exact ⟨before, hstep, .start⟩
  | cons T' newer ih =>
      rw [List.cons_append] at run
      cases run with
      | next run hstep =>
          obtain ⟨before, hT, after⟩ := ih run
          exact ⟨before, hT, .next after hstep⟩

/-- Every transition of a run is a step from a state the run reaches. -/
theorem of_mem {T : Transition σ ι ω} (run : Run step s₀ h s) (hT : T ∈ h) :
    ∃ newer older, h = newer ++ T :: older ∧ Run step s₀ older T.pre ∧
      step T.pre T.input T.output T.post ∧ Run step T.post newer s := by
  obtain ⟨newer, older, rfl⟩ := List.append_of_mem hT
  exact ⟨newer, older, rfl, split run⟩

/-- A property that every step preserves holds from the transition that has it to the end. -/
theorem preserves_from {P : σ → Prop} (next : ∀ s i o s', P s → step s i o s' → P s')
    {newer older : List (Transition σ ι ω)} {T : Transition σ ι ω}
    (run : Run step s₀ (newer ++ T :: older) s) (hT : P T.pre) : P s := by
  obtain ⟨_, hstep, after⟩ := split run
  exact after.preserves next (next _ _ _ _ hT hstep)

end Run

/-- Two places in a list are the same, or one comes after the other. -/
theorem cut_cases {α : Type} {newer newer' older older' : List α} {a a' : α}
    (h : newer ++ a :: older = newer' ++ a' :: older') :
    (newer = newer' ∧ a = a' ∧ older = older') ∨ a' ∈ older ∨ a ∈ older' := by
  rcases List.append_eq_append_iff.mp h with ⟨mid, hnewer, htail⟩ | ⟨mid, hnewer, htail⟩
  · cases mid with
    | nil =>
        obtain ⟨ha, holder⟩ := List.cons.inj htail
        exact .inl ⟨by rw [hnewer, List.append_nil], ha, holder⟩
    | cons b mid =>
        obtain ⟨-, holder⟩ := List.cons.inj htail
        rw [holder]
        exact .inr (.inl (List.mem_append_right _ List.mem_cons_self))
  · cases mid with
    | nil =>
        obtain ⟨ha, holder⟩ := List.cons.inj htail
        exact .inl ⟨by rw [hnewer, List.append_nil], ha.symm, holder.symm⟩
    | cons b mid =>
        obtain ⟨-, holder⟩ := List.cons.inj htail
        rw [holder]
        exact .inr (.inr (List.mem_append_right _ List.mem_cons_self))

/-- The clock of a history, latest reading first, never goes back. -/
def Nondecreasing (clock : ι → Int) (h : List (Transition σ ι ω)) : Prop :=
  h.Pairwise fun later earlier => clock earlier.input ≤ clock later.input

instance (clock : ι → Int) (h : List (Transition σ ι ω)) : Decidable (Nondecreasing clock h) :=
  inferInstanceAs (Decidable (List.Pairwise _ _))

theorem Nondecreasing.cons_iff {clock : ι → Int} {h : List (Transition σ ι ω)}
    {T : Transition σ ι ω} :
    Nondecreasing clock (T :: h) ↔
      (∀ E ∈ h, clock E.input ≤ clock T.input) ∧ Nondecreasing clock h :=
  List.pairwise_cons

theorem Nondecreasing.of_append {clock : ι → Int} {newer older : List (Transition σ ι ω)}
    (hclock : Nondecreasing clock (newer ++ older)) : Nondecreasing clock older :=
  (List.pairwise_append.mp hclock).2.1

section Executable

variable {ε : Type}

/-- Feed inputs, earliest first, to an executable step.  The first failure stops the run. -/
def execAll (exec : σ → ι → Except ε (ω × σ)) :
    List (Transition σ ι ω) → σ → List ι → Except ε (List (Transition σ ι ω) × σ)
  | h, s, [] => .ok (h, s)
  | h, s, i :: is =>
      match exec s i with
      | .error e => .error e
      | .ok (o, s') => execAll exec (⟨s, i, o, s'⟩ :: h) s' is

/-- What `execAll` computes is a run. -/
theorem run_execAll {exec : σ → ι → Except ε (ω × σ)} {s₀ s s' : σ}
    {h h' : List (Transition σ ι ω)} {is : List ι}
    (run : Run (fun s i o s' => exec s i = .ok (o, s')) s₀ h s)
    (hexec : execAll exec h s is = .ok (h', s')) :
    Run (fun s i o s' => exec s i = .ok (o, s')) s₀ h' s' := by
  induction is generalizing h s with
  | nil =>
      cases hexec
      exact run
  | cons i is ih =>
      unfold execAll at hexec
      cases hi : exec s i with
      | error e => simp [hi] at hexec
      | ok r =>
          rw [hi] at hexec
          exact ih (run.next hi) hexec

/-- A computed run has one transition for each input. -/
theorem length_execAll {exec : σ → ι → Except ε (ω × σ)} {s s' : σ}
    {h h' : List (Transition σ ι ω)} {is : List ι}
    (hexec : execAll exec h s is = .ok (h', s')) : h'.length = h.length + is.length := by
  induction is generalizing h s with
  | nil =>
      cases hexec
      rfl
  | cons i is ih =>
      unfold execAll at hexec
      cases hi : exec s i with
      | error e => simp [hi] at hexec
      | ok r =>
          rw [hi] at hexec
          have hlength := ih hexec
          rw [List.length_cons] at hlength ⊢
          omega

theorem length_okValue {exec : σ → ι → Except ε (ω × σ)} {s₀ : σ} {is : List ι}
    (hok : (execAll exec [] s₀ is).toBool = true) :
    (okValue (execAll exec [] s₀ is) hok).1.length = is.length := by
  rw [length_execAll (eq_ok_okValue_pair _ hok), List.length_nil, Nat.zero_add]

theorem okValue_ne_nil {exec : σ → ι → Except ε (ω × σ)} {s₀ : σ} {is : List ι}
    (hok : (execAll exec [] s₀ is).toBool = true) (his : is ≠ []) :
    (okValue (execAll exec [] s₀ is) hok).1 ≠ [] := by
  intro h
  have hlength := length_okValue hok
  rw [h] at hlength
  exact his (List.length_eq_zero_iff.mp hlength.symm)

/-- A computed run that did not fail is a run. -/
theorem run_okValue {exec : σ → ι → Except ε (ω × σ)} {s₀ : σ} {is : List ι}
    (hok : (execAll exec [] s₀ is).toBool = true) :
    Run (fun s i o s' => exec s i = .ok (o, s')) s₀ (okValue (execAll exec [] s₀ is) hok).1
      (okValue (execAll exec [] s₀ is) hok).2 :=
  run_execAll .start (eq_ok_okValue _ hok)

end Executable

end Veto.Foundation

import Mathlib.Data.List.Basic

/-!
# Clients of a changing world

A client asks the world one question after another, and the world moves on between any two
of them.  The questions asked so far, latest first, are the clock: the next one is answered
by the moment of their number.  A condition on questions and their moments is a condition on
the steps of a client.
-/

namespace Veto.Foundation

/-- What a client does from the questions asked before it on.  `Q` are the questions, `M`
the moments that answer them. -/
structure Client (M Q ε α : Type) where
  run : (Nat → M) → List Q → Except ε α × List Q
  grows : ∀ env asked, asked <:+ (run env asked).2

namespace Client

variable {M Q ε ε' α β : Type}

def pure (a : α) : Client M Q ε α where
  run _ asked := (.ok a, asked)
  grows _ _ := List.suffix_rfl

def fail (e : ε) : Client M Q ε α where
  run _ asked := (.error e, asked)
  grows _ _ := List.suffix_rfl

/-- Ask one question, answered by the moment it is asked at. -/
def ask (q : Q) (answer : M → Except ε α) : Client M Q ε α where
  run env asked := (answer (env asked.length), q :: asked)
  grows _ asked := List.suffix_cons q asked

def bind (m : Client M Q ε α) (k : α → Client M Q ε β) : Client M Q ε β where
  run env asked :=
    match m.run env asked with
    | (.ok a, later) => (k a).run env later
    | (.error e, later) => (.error e, later)
  grows env asked := by
    have hm := m.grows env asked
    cases hrun : m.run env asked with
    | mk result later =>
        rw [hrun] at hm
        cases result with
        | ok a => exact hm.trans ((k a).grows env later)
        | error e => exact hm

/-- `try m catch e => h e`, where `h` may fail in another way. -/
def handle (m : Client M Q ε α) (h : ε → Client M Q ε' α) : Client M Q ε' α where
  run env asked :=
    match m.run env asked with
    | (.ok a, later) => (.ok a, later)
    | (.error e, later) => (h e).run env later
  grows env asked := by
    have hm := m.grows env asked
    cases hrun : m.run env asked with
    | mk result later =>
        rw [hrun] at hm
        cases result with
        | ok a => exact hm
        | error e => exact hm.trans ((h e).grows env later)

/-- A computation that asks nothing. -/
def lift (x : Except ε α) : Client M Q ε α where
  run _ asked := (x, asked)
  grows _ _ := List.suffix_rfl

instance : Monad (Client M Q ε) where
  pure := pure
  bind := bind

/-! ## Inversion -/

section Inversion

variable {env : Nat → M} {asked later : List Q} {m : Client M Q ε α}

theorem pure_run {a b : α} :
    (Pure.pure a : Client M Q ε α).run env asked = (.ok b, later) ↔ a = b ∧ asked = later := by
  change (Except.ok a, asked) = (Except.ok b, later) ↔ _
  simp

theorem lift_run {x : Except ε α} {a : α} :
    (lift x : Client M Q ε α).run env asked = (.ok a, later) ↔ x = .ok a ∧ asked = later := by
  simp [lift]

theorem fail_run {e : ε} {a : α} :
    ¬ (fail e : Client M Q ε α).run env asked = (.ok a, later) := by
  simp [fail]

theorem ask_run {q : Q} {answer : M → Except ε α} {a : α} :
    (ask q answer).run env asked = (.ok a, later) ↔
      answer (env asked.length) = .ok a ∧ q :: asked = later := by
  simp [ask]

theorem bind_run {k : α → Client M Q ε β} {b : β} :
    (m >>= k).run env asked = (.ok b, later) ↔
      ∃ a between, m.run env asked = (.ok a, between) ∧ (k a).run env between = (.ok b, later) := by
  change (bind m k).run env asked = _ ↔ _
  unfold bind
  cases hrun : m.run env asked with
  | mk result between =>
      cases result with
      | ok a => simp [hrun]
      | error e => simp [hrun]

theorem map_run {f : α → β} {b : β} :
    (f <$> m).run env asked = (.ok b, later) ↔ ∃ a, m.run env asked = (.ok a, later) ∧ f a = b := by
  change (m >>= fun a => Pure.pure (f a)).run env asked = _ ↔ _
  simp only [bind_run, pure_run]
  constructor
  · rintro ⟨a, between, hrun, rfl, rfl⟩
    exact ⟨a, hrun, rfl⟩
  · rintro ⟨a, hrun, rfl⟩
    exact ⟨a, later, hrun, rfl, rfl⟩

theorem handle_run {h : ε → Client M Q ε' α} {a : α} :
    (handle m h).run env asked = (.ok a, later) ↔
      m.run env asked = (.ok a, later) ∨
        ∃ e between, m.run env asked = (.error e, between) ∧
          (h e).run env between = (.ok a, later) := by
  unfold handle
  cases hrun : m.run env asked with
  | mk result between =>
      cases result with
      | ok b => simp [hrun]
      | error e => simp [hrun]

theorem suffix_of_run {result : Except ε α} (h : m.run env asked = (result, later)) :
    asked <:+ later := by
  have hgrows := m.grows env asked
  rw [h] at hgrows
  exact hgrows

end Inversion

/-! ## Conditions on the steps -/

/-- Every question asked meets the condition at its moment. -/
def All (P : Q → M → Prop) (env : Nat → M) : List Q → Prop
  | [] => True
  | q :: earlier => P q (env earlier.length) ∧ All P env earlier

theorem All.of_suffix {P : Q → M → Prop} {env : Nat → M} {asked later : List Q}
    (h : All P env later) (hsuffix : asked <:+ later) : All P env asked := by
  obtain ⟨between, rfl⟩ := hsuffix
  induction between with
  | nil => exact h
  | cons q between ih => exact ih h.2

end Client

end Veto.Foundation

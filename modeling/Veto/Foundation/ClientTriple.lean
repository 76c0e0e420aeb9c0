import Veto.Foundation.Client

/-!
# Pre- and postconditions of clients

`Triple env I m J K`: from questions that meet `I`, the client `m` ends with an answer and the
questions that `J` asks of it, or fails with questions that meet `K`.  There is one rule for each
way a client is built.  `Keeps` is the triple of one invariant.
-/

namespace Veto.Foundation.Client

variable {M Q ε ε' α β : Type} {env : Nat → M}

/-- What is left of a run meets a postcondition. -/
def Ends (J : α → List Q → Prop) (K : List Q → Prop) : Except ε α × List Q → Prop
  | (.ok a, later) => J a later
  | (.error _, later) => K later

def Triple (env : Nat → M) (I : List Q → Prop) (m : Client M Q ε α) (J : α → List Q → Prop)
    (K : List Q → Prop) : Prop :=
  ∀ asked, I asked → Ends J K (m.run env asked)

/-- The client keeps an invariant, whatever comes of it. -/
def Keeps (env : Nat → M) (I : List Q → Prop) (m : Client M Q ε α) : Prop :=
  Triple env I m (fun _ => I) I

variable {I I' K K' : List Q → Prop} {J J' : α → List Q → Prop} {m : Client M Q ε α}

theorem Ends.imp {run : Except ε α × List Q} (h : Ends J K run)
    (hok : ∀ a later, J a later → J' a later) (herror : ∀ later, K later → K' later) :
    Ends J' K' run := by
  obtain ⟨result, later⟩ := run
  cases result with
  | ok a => exact hok a later h
  | error e => exact herror later h

theorem Keeps.run (h : Keeps env I m) {asked : List Q} (hasked : I asked) :
    I (m.run env asked).2 := by
  have hends := h asked hasked
  cases hrun : m.run env asked with
  | mk result later =>
      rw [hrun] at hends
      cases result with
      | ok a => exact hends
      | error e => exact hends

theorem Triple.imp (h : Triple env I m J K) (hpre : ∀ asked, I' asked → I asked)
    (hok : ∀ a later, J a later → J' a later) (herror : ∀ later, K later → K' later) :
    Triple env I' m J' K' :=
  fun asked hasked => (h asked (hpre asked hasked)).imp hok herror

theorem triple_pure {a : α} (h : ∀ asked, I asked → J a asked) :
    Triple env I (Pure.pure a : Client M Q ε α) J K := h

theorem triple_fail {e : ε} (h : ∀ asked, I asked → K asked) :
    Triple env I (fail e : Client M Q ε α) J K := h

theorem triple_lift {x : Except ε α} (hok : ∀ a asked, x = .ok a → I asked → J a asked)
    (herror : ∀ asked, I asked → K asked) : Triple env I (lift x : Client M Q ε α) J K := by
  intro asked hasked
  cases x with
  | ok a => exact hok a asked rfl hasked
  | error e => exact herror asked hasked

theorem triple_ask {q : Q} {answer : M → Except ε α}
    (hok : ∀ a asked, answer (env asked.length) = .ok a → I asked → J a (q :: asked))
    (herror : ∀ asked, I asked → K (q :: asked)) : Triple env I (ask q answer) J K := by
  intro asked hasked
  change Ends J K (answer (env asked.length), q :: asked)
  cases hanswer : answer (env asked.length) with
  | ok a => exact hok a asked hanswer hasked
  | error e => exact herror asked hasked

theorem triple_bind {k : α → Client M Q ε β} {J' : β → List Q → Prop}
    (hfirst : Triple env I m J K) (hnext : ∀ a, Triple env (J a) (k a) J' K) :
    Triple env I (m >>= k) J' K := by
  intro asked hasked
  have hends := hfirst asked hasked
  change Ends J' K ((bind m k).run env asked)
  unfold bind
  cases hrun : m.run env asked with
  | mk result later =>
      rw [hrun] at hends
      simp only [hrun]
      cases result with
      | ok a => exact hnext a later hends
      | error e => exact hends

theorem triple_handle {h : ε → Client M Q ε' α} (hfirst : Triple env I m J K)
    (hcatch : ∀ e, Triple env K (h e) J K') : Triple env I (handle m h) J K' := by
  intro asked hasked
  have hends := hfirst asked hasked
  unfold handle
  cases hrun : m.run env asked with
  | mk result later =>
      rw [hrun] at hends
      simp only [hrun]
      cases result with
      | ok a => exact hends
      | error e => exact hcatch e later hends

theorem triple_map {f : α → β} {J' : β → List Q → Prop}
    (h : Triple env I m (fun a => J' (f a)) K) : Triple env I (f <$> m) J' K :=
  triple_bind (k := fun a => Pure.pure (f a)) h fun _ => triple_pure fun _ hlater => hlater

/-! ## One invariant -/

theorem keeps_pure {a : α} : Keeps env I (Pure.pure a : Client M Q ε α) :=
  triple_pure fun _ hasked => hasked

theorem keeps_fail {e : ε} : Keeps env I (fail e : Client M Q ε α) :=
  triple_fail fun _ hasked => hasked

theorem keeps_ask {q : Q} {answer : M → Except ε α} (h : ∀ asked, I asked → I (q :: asked)) :
    Keeps env I (ask q answer) :=
  triple_ask (fun _ asked _ => h asked) h

theorem keeps_bind {k : α → Client M Q ε β} (hfirst : Keeps env I m)
    (hnext : ∀ a, Keeps env I (k a)) : Keeps env I (m >>= k) :=
  triple_bind hfirst hnext

theorem keeps_handle {h : ε → Client M Q ε' α} (hfirst : Keeps env I m)
    (hcatch : ∀ e, Keeps env I (h e)) : Keeps env I (handle m h) :=
  triple_handle hfirst hcatch

theorem keeps_map {f : α → β} (h : Keeps env I m) : Keeps env I (f <$> m) := triple_map h

end Veto.Foundation.Client

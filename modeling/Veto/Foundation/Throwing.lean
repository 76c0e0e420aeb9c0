import Mathlib.Data.List.Basic

/-!
# Programs that throw

What a program of `EStateM` has done stands when it throws.  `Triple P m Q E`: from a state that
meets `P`, the program `m` ends with a value and a state of `Q`, or throws and leaves a state of
`E`.  There is one rule for each way a program is built.
-/

namespace Veto.Foundation.Throwing

variable {ε σ α β γ : Type}

/-- What is left of a run meets a postcondition. -/
def Ends (Q : α → σ → Prop) (E : ε → σ → Prop) : EStateM.Result ε σ α → Prop
  | .ok a s => Q a s
  | .error e s => E e s

def Triple (P : σ → Prop) (m : EStateM ε σ α) (Q : α → σ → Prop) (E : ε → σ → Prop) : Prop :=
  ∀ s, P s → Ends Q E (m.run s)

/-- A call whose failure is thrown. -/
def calling (failure : α → ε) : Except α β → EStateM ε σ β
  | .ok b => pure b
  | .error a => throw (failure a)

variable {P P' : σ → Prop} {m : EStateM ε σ α} {Q Q' : α → σ → Prop} {E E' : ε → σ → Prop}

theorem Ends.imp {result : EStateM.Result ε σ α} (h : Ends Q E result)
    (hok : ∀ a s, Q a s → Q' a s) (herror : ∀ e s, E e s → E' e s) : Ends Q' E' result := by
  cases result with
  | ok a s => exact hok a s h
  | error e s => exact herror e s h

theorem Triple.imp (h : Triple P m Q E) (hpre : ∀ s, P' s → P s) (hok : ∀ a s, Q a s → Q' a s)
    (herror : ∀ e s, E e s → E' e s) : Triple P' m Q' E' := by
  intro s hs
  exact (h s (hpre s hs)).imp hok herror

theorem Triple.and (h : Triple P m Q E) (h' : Triple P m Q' E') :
    Triple P m (fun a s => Q a s ∧ Q' a s) (fun e s => E e s ∧ E' e s) := by
  intro s hs
  have hends := h s hs
  have hends' := h' s hs
  cases hrun : m.run s with
  | ok a s' =>
      rw [hrun] at hends hends'
      exact ⟨hends, hends'⟩
  | error e s' =>
      rw [hrun] at hends hends'
      exact ⟨hends, hends'⟩

/-- What a run from one state comes to. -/
theorem triple_run (m : EStateM ε σ α) (s₀ : σ) :
    Triple (fun s => s = s₀) m (fun a s => m.run s₀ = .ok a s) (fun e s => m.run s₀ = .error e s) := by
  rintro s rfl
  cases hrun : m.run s with
  | ok a s' => exact rfl
  | error e s' => exact rfl

theorem triple_pure {a : α} (h : ∀ s, P s → Q a s) : Triple P (pure a : EStateM ε σ α) Q E := h

theorem triple_calling {failure : β → ε} {x : Except β α} (hok : ∀ a s, x = .ok a → P s → Q a s)
    (herror : ∀ b s, x = .error b → P s → E (failure b) s) :
    Triple P (calling failure x) Q E := by
  intro s hs
  cases x with
  | ok a => exact hok a s rfl hs
  | error b => exact herror b s rfl hs

theorem triple_get {Q : σ → σ → Prop} (h : ∀ s, P s → Q s s) :
    Triple P (get : EStateM ε σ σ) Q E := h

theorem triple_modify {f : σ → σ} {Q : Unit → σ → Prop} (h : ∀ s, P s → Q () (f s)) :
    Triple P (modify f : EStateM ε σ Unit) Q E := h

theorem triple_bind {k : α → EStateM ε σ β} {Q' : β → σ → Prop} (hfirst : Triple P m Q E)
    (hnext : ∀ a, Triple (Q a) (k a) Q' E) : Triple P (m >>= k) Q' E := by
  intro s hs
  have hends := hfirst s hs
  change Ends Q' E (EStateM.bind m k s)
  unfold EStateM.bind
  cases hrun : m s with
  | ok a s' =>
      rw [EStateM.run, hrun] at hends
      exact hnext a s' hends
  | error e s' =>
      rw [EStateM.run, hrun] at hends
      exact hends

/-- The invariant of a loop may speak of what is behind it. -/
theorem triple_forM {xs : List γ} {body : γ → EStateM ε σ Unit} {I : List γ → σ → Prop}
    (hbody : ∀ front x rest, xs = front ++ x :: rest →
      Triple (I front) (body x) (fun _ => I (front ++ [x])) E) :
    Triple (I []) (forM xs body) (fun _ => I xs) E := by
  have hfrom : ∀ front rest, xs = front ++ rest →
      Triple (I front) (forM rest body) (fun _ => I xs) E := by
    intro front rest hsplit
    induction rest generalizing front with
    | nil =>
        rw [List.append_nil] at hsplit
        subst hsplit
        exact triple_pure fun _ hs => hs
    | cons x rest ih =>
        rw [List.forM_cons]
        refine triple_bind (hbody front x rest hsplit) fun _ => ih (front ++ [x]) ?_
        rw [hsplit, List.append_assoc, List.singleton_append]
  exact hfrom [] xs rfl

end Veto.Foundation.Throwing

import Mathlib.Tactic.Common

/-!
# Fallible programs

A handler is a computation in `Except ε`.  These lemmas invert a successful
run one bind at a time, so that a proof about a handler reads its guards off
in program order and never unfolds `bind`.
-/

namespace Veto.Foundation

universe u v

variable {ε : Type u} {α β : Type v}

/-- The guard of a handler: go on when `c` holds, fail with `e` otherwise. -/
def require (c : Prop) [Decidable c] (e : ε) : Except ε Unit :=
  if c then .ok () else .error e

def okOr (x : Option α) (e : ε) : Except ε α :=
  match x with
  | some a => .ok a
  | none => .error e

@[simp] theorem require_eq_ok {c : Prop} [Decidable c] {e : ε} {u : Unit} :
    require c e = .ok u ↔ c := by
  unfold require
  split <;> simp_all

@[simp] theorem okOr_eq_ok {x : Option α} {e : ε} {a : α} :
    okOr x e = .ok a ↔ x = some a := by
  cases x <;> simp [okOr]

theorem require_true {c : Prop} [Decidable c] {e : ε} (h : c) : require c e = .ok () := if_pos h

theorem ok_bind (a : α) (next : α → Except ε β) : (Except.ok a >>= next) = next a := rfl

theorem bind_ok_iff {first : Except ε α} {next : α → Except ε β} {b : β} :
    first >>= next = .ok b ↔ ∃ a, first = .ok a ∧ next a = .ok b := by
  constructor
  · intro h
    match first, h with
    | .ok a, h => exact ⟨a, rfl, h⟩
  · rintro ⟨a, rfl, h⟩
    exact h

/-! A loop that stops at the first hit. -/

theorem findSomeM_none {f : α → Except ε (Option β)} {xs : List α} :
    xs.findSomeM? f = .ok none ↔ ∀ x ∈ xs, f x = .ok none := by
  induction xs with
  | nil => simp [List.findSomeM?, pure, Except.pure]
  | cons x xs ih =>
      rw [List.findSomeM?, bind_ok_iff]
      constructor
      · rintro ⟨found, hx, hrest⟩
        cases found with
        | some b => cases hrest
        | none =>
            intro y hy
            rcases List.mem_cons.mp hy with rfl | hy
            · exact hx
            · exact ih.mp hrest y hy
      · intro h
        refine ⟨none, h x List.mem_cons_self, ?_⟩
        exact ih.mpr fun y hy => h y (List.mem_cons_of_mem x hy)

theorem findSomeM_some {f : α → Except ε (Option β)} {xs : List α} {b : β} :
    xs.findSomeM? f = .ok (some b) ↔ ∃ front x back, xs = front ++ x :: back ∧
      f x = .ok (some b) ∧ ∀ y ∈ front, f y = .ok none := by
  induction xs with
  | nil => simp [List.findSomeM?, pure, Except.pure]
  | cons x xs ih =>
      rw [List.findSomeM?, bind_ok_iff]
      constructor
      · rintro ⟨found, hx, hrest⟩
        cases found with
        | some c =>
            obtain rfl : c = b := by cases hrest; rfl
            exact ⟨[], x, xs, rfl, hx, by simp⟩
        | none =>
            obtain ⟨front, y, back, rfl, hy, hfront⟩ := ih.mp hrest
            exact ⟨x :: front, y, back, rfl, hy, by simpa [hx] using hfront⟩
      · rintro ⟨front, y, back, hsplit, hy, hfront⟩
        cases front with
        | nil =>
            obtain ⟨rfl, rfl⟩ := List.cons.inj hsplit
            exact ⟨some b, hy, rfl⟩
        | cons z front =>
            obtain ⟨rfl, rfl⟩ := List.cons.inj hsplit
            refine ⟨none, hfront x List.mem_cons_self, ih.mpr ⟨front, y, back, rfl, hy, ?_⟩⟩
            exact fun w hw => hfront w (List.mem_cons_of_mem x hw)

/-! A loop that answers each element. -/

/-- A loop depends on its body at the elements of the list only. -/
theorem mapM_congr {f g : α → Except ε β} {xs : List α} (h : ∀ x ∈ xs, f x = g x) :
    xs.mapM f = xs.mapM g := by
  induction xs with
  | nil => rfl
  | cons x xs ih =>
      rw [List.mapM_cons, List.mapM_cons, h x List.mem_cons_self,
        ih fun y hy => h y (List.mem_cons_of_mem x hy)]

/-- What a loop returns comes from its elements. -/
theorem mem_of_mapM {f : α → Except ε β} {xs : List α} {ys : List β} (h : xs.mapM f = .ok ys)
    {y : β} (hy : y ∈ ys) : ∃ x ∈ xs, f x = .ok y := by
  induction xs generalizing ys with
  | nil =>
      cases h
      cases hy
  | cons x xs ih =>
      rw [List.mapM_cons] at h
      obtain ⟨first, hfirst, h⟩ := bind_ok_iff.mp h
      obtain ⟨rest, hrest, h⟩ := bind_ok_iff.mp h
      cases h
      rcases List.mem_cons.mp hy with rfl | hy
      · exact ⟨x, List.mem_cons_self, hfirst⟩
      · obtain ⟨x', hx', hf⟩ := ih hrest hy
        exact ⟨x', List.mem_cons_of_mem x hx', hf⟩

/-- What a loop returns, seen through what each round shows of its input. -/
theorem map_of_mapM {f : α → Except ε β} {g : β → α} {xs : List α} {ys : List β}
    (hshows : ∀ x y, f x = .ok y → g y = x) (h : xs.mapM f = .ok ys) : ys.map g = xs := by
  induction xs generalizing ys with
  | nil =>
      cases h
      rfl
  | cons x xs ih =>
      rw [List.mapM_cons] at h
      obtain ⟨y, hy, h⟩ := bind_ok_iff.mp h
      obtain ⟨ys', hys, h⟩ := bind_ok_iff.mp h
      cases h
      rw [List.map_cons, hshows x y hy, ih hys]

/-- A loop that answers every element ends. -/
theorem mapM_of_forall {f : α → Except ε β} {xs : List α}
    (h : ∀ x ∈ xs, ∃ y, f x = .ok y) : ∃ ys, xs.mapM f = .ok ys := by
  induction xs with
  | nil => exact ⟨[], rfl⟩
  | cons x xs ih =>
      obtain ⟨y, hy⟩ := h x List.mem_cons_self
      obtain ⟨ys, hys⟩ := ih fun x hx => h x (List.mem_cons_of_mem _ hx)
      refine ⟨y :: ys, ?_⟩
      rw [List.mapM_cons, hy, ok_bind, hys]
      rfl

/-- What the loop answers to an element is among what it returns. -/
theorem mem_mapM_of_mem {f : α → Except ε β} {xs : List α} {ys : List β} (h : xs.mapM f = .ok ys)
    {x : α} (hx : x ∈ xs) {y : β} (hy : f x = .ok y) : y ∈ ys := by
  induction xs generalizing ys with
  | nil => cases hx
  | cons x' xs ih =>
      rw [List.mapM_cons] at h
      obtain ⟨first, hfirst, h⟩ := bind_ok_iff.mp h
      obtain ⟨rest, hrest, h⟩ := bind_ok_iff.mp h
      cases h
      rcases List.mem_cons.mp hx with rfl | hx
      · rw [hfirst] at hy
        cases hy
        exact List.mem_cons_self
      · exact List.mem_cons_of_mem _ (ih hrest hx)

/-- A guard in front of a program adds its condition and nothing else. -/
theorem require_bind_ok_iff {γ : Type} {c : Prop} [Decidable c] {e : ε}
    {next : Unit → Except ε γ} {b : γ} :
    (require c e >>= next) = .ok b ↔ c ∧ next () = .ok b := by
  by_cases h : c
  · simp [require, h, bind, Except.bind]
  · simp [require, h, bind, Except.bind]

/-- A guard that throws adds the negation of its condition. -/
theorem throw_guard_iff {c : Prop} [Decidable c] {e : ε} {next : PUnit → Except ε α} {a : α} :
    (if c then throw e >>= next else next PUnit.unit) = .ok a ↔
      ¬ c ∧ next PUnit.unit = .ok a := by
  by_cases hc : c
  · rw [if_pos hc]
    exact ⟨fun h => (nomatch h), fun h => absurd hc h.1⟩
  · rw [if_neg hc]
    exact ⟨fun h => ⟨hc, h⟩, fun h => h.2⟩

theorem pure_eq_ok_iff {a b : α} : (pure a : Except ε α) = .ok b ↔ a = b :=
  ⟨fun h => Except.ok.inj h, fun h => congrArg Except.ok h⟩

/-- A loop of checks passes when each one does. -/
theorem forM_require_ok {xs : List α} {c : α → Prop} [DecidablePred c] {e : α → ε} {u : PUnit} :
    (xs.forM fun x => require (c x) (e x)) = .ok u ↔ ∀ x ∈ xs, c x := by
  induction xs with
  | nil => simp [List.forM, pure, Except.pure]
  | cons x xs ih =>
      change (require (c x) (e x) >>= fun _ => xs.forM fun x => require (c x) (e x)) = .ok u ↔ _
      rw [bind_ok_iff]
      simp only [require_eq_ok, List.forall_mem_cons]
      constructor
      · rintro ⟨⟨⟩, hx, hxs⟩
        exact ⟨hx, ih.mp hxs⟩
      · rintro ⟨hx, hxs⟩
        exact ⟨(), hx, ih.mpr hxs⟩

/-- The value of a run known to succeed. -/
def okValue (x : Except ε α) (h : x.toBool = true) : α :=
  match x, h with
  | .ok a, _ => a

theorem eq_ok_okValue (x : Except ε α) (h : x.toBool = true) : x = .ok (okValue x h) := by
  cases x with
  | error e => simp [Except.toBool] at h
  | ok a => rfl

theorem eq_ok_okValue_pair {γ δ : Type v} (x : Except ε (γ × δ)) (h : x.toBool = true) :
    x = .ok ((okValue x h).1, (okValue x h).2) :=
  eq_ok_okValue x h

end Veto.Foundation

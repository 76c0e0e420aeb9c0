import Mathlib.Data.List.DropRight

/-!
# Reading text from the left

The pieces a line pattern is made of: a literal, and a longest non-empty run of
characters of one class.  Each comes with what a successful match says about the
text, so that a pattern is inverted one piece at a time.  `firstMatch` and `lastMatch`
look for a pattern that is not anchored.
-/

namespace Veto.Foundation

/-- A string as its characters. -/
abbrev Text := List Char

/-- The characters of a literal, unfolded only where a proof asks for them. -/
@[irreducible] def lit (s : String) : Text := s.toList

variable {α : Type} {p : α → Bool} {s run rest : List α}

theorem mem_intercalate {sep : List α} {pieces : List (List α)} {a : α}
    (h : a ∈ sep.intercalate pieces) : a ∈ sep ∨ ∃ piece ∈ pieces, a ∈ piece := by
  induction pieces with
  | nil => cases h
  | cons piece pieces ih =>
      cases pieces with
      | nil =>
          rw [List.intercalate_singleton] at h
          exact .inr ⟨piece, List.mem_cons_self, h⟩
      | cons next pieces =>
          rw [List.intercalate_cons_cons, List.append_assoc] at h
          rcases List.mem_append.mp h with hpiece | h
          · exact .inr ⟨piece, List.mem_cons_self, hpiece⟩
          rcases List.mem_append.mp h with hsep | h
          · exact .inl hsep
          · rcases ih h with hsep | ⟨other, hother, ha⟩
            · exact .inl hsep
            · exact .inr ⟨other, List.mem_cons_of_mem _ hother, ha⟩

theorem dropPrefix?_eq_some [BEq α] [LawfulBEq α] {l : List α} :
    s.dropPrefix? l = some rest ↔ s = l ++ rest := by
  rw [List.dropPrefix?_eq_some_iff]
  constructor
  · rintro ⟨l', hs, hl⟩
    rw [hs, eq_of_beq hl]
  · intro hs
    exact ⟨l, hs, BEq.rfl⟩

theorem mem_takeWhile_iff {l : List α} {a : α} :
    a ∈ l.takeWhile p ↔
      ∃ front back, l = front ++ a :: back ∧ (∀ b ∈ front, p b = true) ∧ p a = true := by
  constructor
  · intro h
    obtain ⟨front, mid, hsplit⟩ := List.append_of_mem h
    have hall : ∀ b ∈ l.takeWhile p, p b = true := fun b hb => List.mem_takeWhile_imp hb
    refine ⟨front, mid ++ l.dropWhile p, ?_, fun b hb => ?_, hall a h⟩
    · conv_lhs => rw [← List.takeWhile_append_dropWhile (p := p) (l := l), hsplit]
      simp
    · exact hall b (hsplit ▸ List.mem_append_left _ hb)
  · rintro ⟨front, back, rfl, hfront, ha⟩
    rw [List.takeWhile_append_of_pos hfront, List.takeWhile_cons_of_pos ha]
    simp

theorem takeWhile_append_of_stops (hrun : ∀ a ∈ run, p a = true)
    (hstop : rest.head?.all (fun a => !p a) = true) :
    (run ++ rest).takeWhile p = run := by
  rw [List.takeWhile_append_of_pos hrun]
  cases rest with
  | nil => simp
  | cons a as =>
      have ha : p a = false := by simpa using hstop
      simp [ha]

theorem dropWhile_append_of_stops (hrun : ∀ a ∈ run, p a = true)
    (hstop : rest.head?.all (fun a => !p a) = true) :
    (run ++ rest).dropWhile p = rest := by
  rw [List.dropWhile_append_of_pos hrun]
  cases rest with
  | nil => simp
  | cons a as =>
      have ha : p a = false := by simpa using hstop
      simp [ha]

/-- The longest run of the class `p` at the head of `s`, when there is one, and what
follows it: the `[class]+` of a pattern. -/
def takeClass (p : α → Bool) (s : List α) : Option (List α × List α) :=
  match s.takeWhile p with
  | [] => none
  | a :: as => some (a :: as, s.dropWhile p)

theorem takeClass_eq_some :
    takeClass p s = some (run, rest) ↔
      run ≠ [] ∧ (∀ a ∈ run, p a = true) ∧ rest.head?.all (fun a => !p a) = true ∧
        s = run ++ rest := by
  constructor
  · intro h
    have hrun : s.takeWhile p = run ∧ s.dropWhile p = rest ∧ run ≠ [] := by
      unfold takeClass at h
      split at h
      · cases h
      · next a as heq =>
          obtain ⟨rfl, rfl⟩ : a :: as = run ∧ s.dropWhile p = rest := by simpa using h
          exact ⟨heq, rfl, by simp⟩
    obtain ⟨rfl, rfl, hne⟩ := hrun
    refine ⟨hne, fun a ha => List.mem_takeWhile_imp ha, ?_, ?_⟩
    · cases hdrop : s.dropWhile p with
      | nil => rfl
      | cons a as =>
          have hhead := List.head?_dropWhile_not p s
          rw [hdrop] at hhead
          simpa using hhead
    · exact (List.takeWhile_append_dropWhile ..).symm
  · rintro ⟨hne, hrun, hstop, rfl⟩
    unfold takeClass
    rw [takeWhile_append_of_stops hrun hstop, dropWhile_append_of_stops hrun hstop]
    cases run with
    | nil => exact absurd rfl hne
    | cons a as => rfl

/-- The leftmost place where a pattern matches. -/
def firstMatch {β : Type} (p : List α → Option β) : List α → Option β
  | [] => p []
  | a :: as => (p (a :: as)).or (firstMatch p as)

/-- The rightmost place where a pattern matches. -/
def lastMatch {β : Type} (p : List α → Option β) : List α → Option β
  | [] => p []
  | a :: as => (lastMatch p as).or (p (a :: as))

section Places

variable {β : Type} {p : List α → Option β} {word front s t : List α} {a : α} {b : β}

theorem firstMatch_eq_none (h : ∀ t, t <:+ s → p t = none) : firstMatch p s = none := by
  induction s with
  | nil => exact h [] List.suffix_rfl
  | cons a s ih =>
      rw [firstMatch, h (a :: s) List.suffix_rfl, ih fun t ht => h t (ht.trans (List.suffix_cons a s))]
      rfl

theorem lastMatch_eq_none (h : ∀ t, t <:+ s → p t = none) : lastMatch p s = none := by
  induction s with
  | nil => exact h [] List.suffix_rfl
  | cons a s ih =>
      rw [lastMatch, h (a :: s) List.suffix_rfl, ih fun t ht => h t (ht.trans (List.suffix_cons a s))]
      rfl

/-- Nothing matches before `s`. -/
theorem firstMatch_append (hfront : ∀ t, t <:+ front → t ≠ [] → p (t ++ s) = none)
    (hs : p s = some b) : firstMatch p (front ++ s) = some b := by
  induction front with
  | nil =>
      cases s with
      | nil => simpa [firstMatch] using hs
      | cons a as => simp [firstMatch, hs]
  | cons a front ih =>
      have hhere : p (a :: (front ++ s)) = none :=
        hfront (a :: front) List.suffix_rfl (List.cons_ne_nil a front)
      have hrest := ih fun t ht hne => hfront t (ht.trans (List.suffix_cons a front)) hne
      rw [List.cons_append, firstMatch, hhere, hrest]
      rfl

/-- Whatever stands before the rightmost match. -/
theorem lastMatch_append (hs : lastMatch p s = some b) : lastMatch p (front ++ s) = some b := by
  induction front with
  | nil => exact hs
  | cons a front ih => rw [List.cons_append, lastMatch, ih, Option.some_or]

/-- Every match of the pattern begins with `word`. -/
def Begins (p : List α → Option β) (word : List α) : Prop :=
  ∀ t b, p t = some b → word <+: t

theorem Begins.none_of_head (hp : Begins p word) (hword : word ≠ []) (h : s.head? ≠ word.head?) :
    p s = none := by
  rw [Option.eq_none_iff_forall_ne_some]
  intro b hb
  obtain ⟨rest, rfl⟩ := hp s b hb
  apply h
  cases word with
  | nil => exact absurd rfl hword
  | cons c cs => rfl

theorem Begins.none_of_missing (hp : Begins p word) (ha : a ∈ word) (hs : a ∉ s) (ht : t <:+ s) :
    p t = none := by
  rw [Option.eq_none_iff_forall_ne_some]
  intro b hb
  exact hs (ht.subset ((hp t b hb).subset ha))

/-- A match is found behind text that does not have the first character of the word. -/
theorem Begins.firstMatch_append (hp : Begins p (a :: word)) (hfront : a ∉ front)
    (hs : p s = some b) : firstMatch p (front ++ s) = some b := by
  apply Foundation.firstMatch_append _ hs
  intro t ht hne
  apply hp.none_of_head (List.cons_ne_nil a word)
  cases t with
  | nil => exact absurd rfl hne
  | cons c t =>
      rintro ⟨⟩
      exact hfront (ht.subset List.mem_cons_self)

end Places

end Veto.Foundation

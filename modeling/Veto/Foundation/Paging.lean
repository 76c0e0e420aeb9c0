import Veto.Foundation.Result
import Mathlib.Data.List.Basic
import Mathlib.Data.List.Flatten
import Mathlib.Data.List.Perm.Basic

/-!
# Reading a list page by page

A reader asks for the part of a list behind the last item it was given, one page at a time,
until a page is not full.  Within a page it may stop early, once it has enough.
-/

namespace Veto.Foundation

variable {α κ δ ε : Type}

/-! ## Enough of a page -/

/-- The limit has been reached. -/
def Reached (limit : Option Nat) (taken : Nat) : Prop := ∃ most, limit = some most ∧ most ≤ taken

instance (limit : Option Nat) (taken : Nat) : Decidable (Reached limit taken) :=
  match limit with
  | none => .isFalse fun ⟨_, h, _⟩ => nomatch h
  | some most => decidable_of_iff (most ≤ taken) (by simp [Reached])

/-- What is taken of some groups, none of which is cut, until the limit is reached. -/
def upTo (limit : Option Nat) : Nat → List (List δ) → List δ
  | _, [] => []
  | taken, group :: groups =>
      if Reached limit taken then [] else group ++ upTo limit (taken + group.length) groups

variable {limit : Option Nat} {taken : Nat} {groups groups' : List (List δ)}

@[simp] theorem not_reached_none : ¬ Reached none taken := fun ⟨_, h, _⟩ => nomatch h

theorem Reached.mono {more : Nat} (h : Reached limit taken) (hle : taken ≤ more) :
    Reached limit more := by
  obtain ⟨most, hlimit, hmost⟩ := h
  exact ⟨most, hlimit, Nat.le_trans hmost hle⟩

theorem upTo_reached (h : Reached limit taken) (groups : List (List δ)) :
    upTo limit taken groups = [] := by
  cases groups with
  | nil => rfl
  | cons group groups => rw [upTo, if_pos h]

theorem upTo_sublist (limit : Option Nat) (taken : Nat) (groups : List (List δ)) :
    (upTo limit taken groups).Sublist groups.flatten := by
  induction groups generalizing taken with
  | nil => exact .slnil
  | cons group groups ih =>
      rw [upTo, List.flatten_cons]
      split
      · exact List.nil_sublist _
      · exact (List.append_sublist_append_left group).mpr (ih _)

theorem upTo_append (limit : Option Nat) (taken : Nat) (groups groups' : List (List δ)) :
    upTo limit taken (groups ++ groups') =
      upTo limit taken groups ++ upTo limit (taken + (upTo limit taken groups).length) groups' := by
  induction groups generalizing taken with
  | nil => rfl
  | cons group groups ih =>
      rw [List.cons_append, upTo, upTo]
      by_cases h : Reached limit taken
      · rw [if_pos h, if_pos h, upTo_reached (h.mono (Nat.le_add_right _ _)), List.append_nil]
      · rw [if_neg h, if_neg h, ih, List.append_assoc, List.length_append, Nat.add_assoc]

/-- Nothing stands behind the place where the limit is reached. -/
def NothingBehind (limit : Option Nat) (taken : Nat) (groups : List (List δ)) : Prop :=
  ∀ front back, groups = front ++ back → Reached limit (taken + front.flatten.length) →
    back.flatten = []

theorem nothingBehind_none : NothingBehind none taken groups :=
  fun _ _ _ h => absurd h not_reached_none

theorem upTo_eq_flatten_iff :
    upTo limit taken groups = groups.flatten ↔ NothingBehind limit taken groups := by
  induction groups generalizing taken with
  | nil =>
      refine iff_of_true rfl ?_
      intro front back hsplit _
      rw [(List.append_eq_nil_iff.mp hsplit.symm).2]
      rfl
  | cons group groups ih =>
      by_cases h : Reached limit taken
      · rw [upTo, if_pos h]
        constructor
        · intro hall front back hsplit _
          rw [hsplit, List.flatten_append] at hall
          exact (List.append_eq_nil_iff.mp hall.symm).2
        · intro hnothing
          exact (hnothing [] _ rfl (by simpa using h)).symm
      · rw [upTo, if_neg h, List.flatten_cons, List.append_cancel_left_eq, ih]
        constructor
        · intro hnothing front back hsplit hreached
          cases front with
          | nil => exact absurd (by simpa using hreached) h
          | cons first front =>
              obtain ⟨rfl, htail⟩ := List.cons.inj (hsplit.trans List.cons_append)
              refine hnothing front back htail ?_
              rwa [List.flatten_cons, List.length_append, ← Nat.add_assoc] at hreached
        · intro hnothing front back hsplit hreached
          refine hnothing (group :: front) back (congrArg (group :: ·) hsplit) ?_
          rwa [List.flatten_cons, List.length_append, ← Nat.add_assoc]

theorem flatMap_sublist {f g : α → List δ} {l : List α} (h : ∀ a ∈ l, (f a).Sublist (g a)) :
    (l.flatMap f).Sublist (l.flatMap g) := by
  induction l with
  | nil => exact .slnil
  | cons a l ih =>
      rw [List.flatMap_cons, List.flatMap_cons]
      exact (h a List.mem_cons_self).append (ih fun b hb => h b (List.mem_cons_of_mem a hb))

/-- Parts are all there exactly when each is. -/
theorem flatMap_perm_iff {f g : α → List δ} {l : List α} (h : ∀ a ∈ l, (f a).Sublist (g a)) :
    (l.flatMap f).Perm (l.flatMap g) ↔ ∀ a ∈ l, f a = g a := by
  constructor
  · intro hperm
    have hlength := hperm.length_eq
    induction l with
    | nil => simp
    | cons a l ih =>
        have hrest := fun b hb => h b (List.mem_cons_of_mem a hb)
        have hle := (h a List.mem_cons_self).length_le
        have hles := (flatMap_sublist hrest).length_le
        rw [List.flatMap_cons, List.flatMap_cons, List.length_append, List.length_append]
          at hlength
        have hhead : f a = g a := (h a List.mem_cons_self).eq_of_length (by omega)
        rw [List.flatMap_cons, List.flatMap_cons, hhead, List.perm_append_left_iff] at hperm
        exact List.forall_mem_cons.mpr ⟨hhead, ih hrest hperm hperm.length_eq⟩
  · exact fun hall => List.Perm.flatMap_left l fun a ha => by rw [hall a ha]

/-! ## The pages of a list -/

/-- Full pages while there are some, and a last one that is not full. -/
def pagesOf (size : Nat) (l : List α) : List (List α) :=
  if _h : 0 < size ∧ size ≤ l.length then l.take size :: pagesOf size (l.drop size) else [l]
termination_by l.length
decreasing_by rw [List.length_drop]; omega

theorem pagesOf_full {size : Nat} {l : List α} (hsize : 0 < size) (h : size ≤ l.length) :
    pagesOf size l = l.take size :: pagesOf size (l.drop size) := by
  rw [pagesOf, dif_pos ⟨hsize, h⟩]

theorem pagesOf_last {size : Nat} {l : List α} (h : l.length < size) : pagesOf size l = [l] := by
  rw [pagesOf, dif_neg (by omega)]

theorem flatten_pagesOf (size : Nat) (l : List α) : (pagesOf size l).flatten = l := by
  induction l using pagesOf.induct size with
  | case1 l h ih =>
      rw [pagesOf_full h.1 h.2, List.flatten_cons, ih, List.take_append_drop]
  | case2 l h =>
      rw [pagesOf, dif_neg h, List.flatten_singleton]

/-! ## A walk -/

/-- What is listed behind a key. -/
def behind [DecidableEq κ] (key : α → κ) (before : Option κ) (l : List α) : List α :=
  match before with
  | none => l
  | some k => (l.dropWhile fun a => key a ≠ k).drop 1

theorem behind_key [DecidableEq κ] {key : α → κ} {front back : List α} {a : α}
    (hkeys : ((front ++ a :: back).map key).Nodup) :
    behind key (some (key a)) (front ++ a :: back) = back := by
  have hfront : ∀ x ∈ front, decide (key x ≠ key a) = true := by
    intro x hx
    rw [List.map_append, List.nodup_append] at hkeys
    exact decide_eq_true (hkeys.2.2 _ (List.mem_map_of_mem hx) _
      (List.mem_map_of_mem List.mem_cons_self))
  unfold behind
  dsimp only
  rw [List.dropWhile_append_of_pos hfront, List.dropWhile_cons_of_neg (by simp), List.drop_one,
    List.tail_cons]

/-- A page that was read: what it gave, the last key listed on it, and whether it was full. -/
structure Page (δ κ : Type) where
  items : List δ
  oldest : Option κ
  full : Bool

/-- One call after the other, each behind the last key of the one before, while pages are
full. -/
inductive Walk (call : Option κ → Except ε (Page δ κ)) : Option κ → List (Page δ κ) → Prop
  | stop {before : Option κ} {page : Page δ κ} (asked : call before = .ok page)
      (done : page.full = false ∨ page.oldest = none) : Walk call before [page]
  | next {before : Option κ} {page : Page δ κ} {cursor : κ} {pages : List (Page δ κ)}
      (asked : call before = .ok page) (full : page.full = true)
      (oldest : page.oldest = some cursor) (rest : Walk call (some cursor) pages) :
      Walk call before (page :: pages)

section Pages

variable [DecidableEq κ] {key : α → κ} {size : Nat} {read : List α → List δ}
  {call : Option κ → Except ε (Page δ κ)} {l : List α}

/-- The page that is read of a part of the list. -/
def pageOf (key : α → κ) (size : Nat) (read : List α → List δ) (batch : List α) : Page δ κ where
  items := read batch
  oldest := batch.getLast?.map key
  full := batch.length = size

/-- A walk reads the pages of the list, whatever a page gives.  Induction on what is left of
the list; `front` is what has been listed. -/
theorem walk_iff (hsize : 0 < size) (hkeys : (l.map key).Nodup)
    (hcall : ∀ before, (∀ k, before = some k → k ∈ l.map key) →
      call before = .ok (pageOf key size read ((behind key before l).take size)))
    (pages : List (Page δ κ)) :
    Walk call none pages ↔ pages = (pagesOf size l).map (pageOf key size read) := by
  have hrest : ∀ (rest front : List α) (before : Option κ) (pages : List (Page δ κ)),
      front ++ rest = l → behind key before l = rest →
      (∀ k, before = some k → k ∈ l.map key) →
      (Walk call before pages ↔ pages = (pagesOf size rest).map (pageOf key size read)) := by
    intro rest
    induction rest using pagesOf.induct size with
    | case1 rest h ih =>
        intro front before pages hsplit hbehind hknown
        have hlength := List.length_take_of_le h.2
        -- the page is full, and the next call is behind its last item
        have hne : rest.take size ≠ [] := by
          intro hnil
          rw [hnil, List.length_nil] at hlength
          exact absurd h.1 (by omega)
        obtain ⟨body, last, hbody⟩ := (List.eq_nil_or_concat (rest.take size)).resolve_left hne
        have hrest : (front ++ body) ++ last :: rest.drop size = l := by
          rw [← hsplit]
          conv_rhs => rw [← List.take_append_drop size rest, hbody]
          simp
        have hask : call before = .ok (pageOf key size read (rest.take size)) := by
          rw [hcall before hknown, hbehind]
        have hfull : (pageOf key size read (rest.take size)).full = true := by
          unfold pageOf
          exact decide_eq_true hlength
        have holdest : (pageOf key size read (rest.take size)).oldest = some (key last) := by
          unfold pageOf
          rw [hbody]
          simp
        have hlater := fun pages => ih (front ++ body ++ [last]) (some (key last)) pages
          (by rw [← hrest]; simp)
          (by
            have hkeys' := hkeys
            rw [← hrest] at hkeys' ⊢
            exact behind_key hkeys')
          (by
            intro k hk
            cases hk
            rw [← hrest]
            simp)
        rw [pagesOf_full h.1 h.2, List.map_cons]
        constructor
        · intro hwalk
          cases hwalk with
          | stop asked done =>
              cases hask.symm.trans asked
              rcases done with done | done
              · rw [hfull] at done
                cases done
              · rw [holdest] at done
                cases done
          | next asked full oldest walk =>
              cases hask.symm.trans asked
              rw [holdest] at oldest
              cases oldest
              rw [(hlater _).mp walk]
        · rintro rfl
          exact .next hask hfull holdest ((hlater _).mpr rfl)
    | case2 rest h =>
        intro front before pages hsplit hbehind hknown
        have hshort : rest.length < size := by omega
        have hask : call before = .ok (pageOf key size read rest) := by
          rw [hcall before hknown, hbehind, List.take_of_length_le (Nat.le_of_lt hshort)]
        have hlast : (pageOf key size read rest).full = false := by
          unfold pageOf
          simpa using Nat.ne_of_lt hshort
        rw [pagesOf_last hshort, List.map_singleton]
        constructor
        · intro hwalk
          cases hwalk with
          | stop asked done =>
              cases hask.symm.trans asked
              rfl
          | next asked full oldest walk =>
              cases hask.symm.trans asked
              rw [hlast] at full
              cases full
        · rintro rfl
          exact .stop hask (.inl hlast)
  exact hrest l [] none pages rfl rfl nofun

end Pages

end Veto.Foundation

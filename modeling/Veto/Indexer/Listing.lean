import Veto.Foundation.Paging
import Veto.Foundation.Text
import Mathlib.Algebra.Order.Ring.Rat
import Mathlib.Data.List.TakeWhile

/-!
# The signatures of a time window

`listProgramSignatures` reads the program's signatures newest first, a page at a time, and stops at
the first one that is older than the window.
-/

namespace Veto.Indexer

open Foundation

structure SignaturePage where
  signature : String
  slot : Int
  blockTime : Option Int
  err : Bool
  deriving DecidableEq

structure TimeWindow where
  from_ : Option ℚ
  to_ : Option ℚ

/-- Older than the window. -/
def TimeWindow.Before (window : TimeWindow) (page : SignaturePage) : Prop :=
  ∃ start ∈ window.from_, ∃ time ∈ page.blockTime, (time : ℚ) < start

/-- Newer than the window. -/
def TimeWindow.Behind (window : TimeWindow) (page : SignaturePage) : Prop :=
  ∃ finish ∈ window.to_, ∃ time ∈ page.blockTime, finish < (time : ℚ)

instance (window : TimeWindow) (page : SignaturePage) : Decidable (window.Before page) := by
  unfold TimeWindow.Before
  infer_instance

instance (window : TimeWindow) (page : SignaturePage) : Decidable (window.Behind page) := by
  unfold TimeWindow.Behind
  infer_instance

/-- What `getSignaturesForAddress` answers for the program, after the retries: at most so many
signatures, behind the given one. -/
abbrev Connection (ε : Type) := Nat → Option String → Except ε (List SignaturePage)

structure Listed where
  items : List SignaturePage
  pageCount : Nat

/-- The loop over one page: what is taken of it, and whether it crossed the start of the
window. -/
def readBatch (window : TimeWindow) : List SignaturePage → List SignaturePage × Bool
  | [] => ([], false)
  | page :: batch =>
      if window.Before page then ([], true)
      else
        let (items, crossedFrom) := readBatch window batch
        if window.Behind page then (items, crossedFrom) else (page :: items, crossedFrom)

/-- The loop over the pages, `fuel` of them at most. -/
def listPages {ε : Type} (connection : Connection ε) (pageSize : Nat) (window : TimeWindow) :
    Nat → Option String → Listed → Option (Except ε Listed)
  | 0, _, _ => none
  | fuel + 1, before, listed =>
      match connection pageSize before with
      | .error e => some (.error e)
      | .ok batch =>
          if batch = [] then some (.ok listed)
          else
            let (items, crossedFrom) := readBatch window batch
            let listed := ⟨listed.items ++ items, listed.pageCount + 1⟩
            if crossedFrom then some (.ok listed)
            else if batch.length < pageSize then some (.ok listed)
            else
              match batch.getLast? with
              | none => some (.ok listed)
              | some last => listPages connection pageSize window fuel (some last.signature) listed

def listProgramSignatures {ε : Type} (connection : Connection ε) (pageSize : Nat)
    (window : TimeWindow) (fuel : Nat) : Option (Except ε Listed) :=
  listPages connection pageSize window fuel none ⟨[], 0⟩

/-! ## One page -/

/-- What is wanted of a list: up to the first signature that is older than the window, without
those that are newer. -/
def wanted (window : TimeWindow) (l : List SignaturePage) : List SignaturePage :=
  (l.takeWhile fun page => ¬ window.Before page).filter fun page => ¬ window.Behind page

theorem readBatch_eq (window : TimeWindow) (batch : List SignaturePage) :
    readBatch window batch =
      (wanted window batch, batch.any fun page => window.Before page) := by
  induction batch with
  | nil => rfl
  | cons page batch ih =>
      rw [readBatch, wanted, List.takeWhile_cons, List.any_cons]
      by_cases hbefore : window.Before page
      · rw [if_pos hbefore, if_neg (by simpa using hbefore), decide_eq_true hbefore]
        rfl
      · rw [if_neg hbefore, if_pos (by simpa using hbefore), ih, List.filter_cons,
          decide_eq_false hbefore, Bool.false_or]
        dsimp only
        by_cases hbehind : window.Behind page
        · rw [if_pos hbehind, if_neg (by simpa using hbehind)]
          rfl
        · rw [if_neg hbehind, if_pos (by simpa using hbehind)]
          rfl

theorem wanted_append_of_crossed {window : TimeWindow} {front : List SignaturePage}
    (h : (front.any fun page => window.Before page) = true) (back : List SignaturePage) :
    wanted window (front ++ back) = wanted window front := by
  induction front with
  | nil => cases h
  | cons page front ih =>
      unfold wanted at ih ⊢
      rw [List.cons_append, List.takeWhile_cons, List.takeWhile_cons]
      by_cases hbefore : window.Before page
      · rw [if_neg (by simpa using hbefore), if_neg (by simpa using hbefore)]
      · rw [List.any_cons, decide_eq_false hbefore, Bool.false_or] at h
        rw [if_pos (by simpa using hbefore), if_pos (by simpa using hbefore), List.filter_cons,
          List.filter_cons, ih h]

theorem wanted_append {window : TimeWindow} {front : List SignaturePage}
    (h : (front.any fun page => window.Before page) = false) (back : List SignaturePage) :
    wanted window (front ++ back) = wanted window front ++ wanted window back := by
  have hfront : ∀ page ∈ front, (decide ¬ window.Before page) = true := by
    intro page hpage
    have hnot := List.any_eq_false.mp h page hpage
    simpa using hnot
  have hall := List.takeWhile_eq_self_iff.mpr hfront
  rw [wanted, List.takeWhile_append_of_pos hfront, List.filter_append, wanted, wanted, hall]

/-! ## All pages -/

/-- The connection fails, or it answers from this list, behind any signature of it. -/
def Answers {ε : Type} (connection : Connection ε) (listing : List SignaturePage) : Prop :=
  ∀ limit before, (∀ signature ∈ before, signature ∈ listing.map SignaturePage.signature) →
    (∃ e, connection limit before = .error e) ∨
      connection limit before =
        .ok ((behind SignaturePage.signature before listing).take limit)

/-- It answers every time. -/
def Serves {ε : Type} (connection : Connection ε) (listing : List SignaturePage) : Prop :=
  ∀ limit before, (∀ signature ∈ before, signature ∈ listing.map SignaturePage.signature) →
    connection limit before =
      .ok ((behind SignaturePage.signature before listing).take limit)

section Walk

variable {ε : Type} {connection : Connection ε} {listing : List SignaturePage} {pageSize : Nat}
  {window : TimeWindow}

/-- What is left of the list, `rest`, is read whatever the pages are, or a call fails.  Induction
on the fuel, one page a step. -/
theorem listPages_cases (hanswers : Answers connection listing) (hsize : 1 ≤ pageSize)
    (hkeys : (listing.map SignaturePage.signature).Nodup) {fuel : Nat} :
    ∀ (front : List SignaturePage) {rest : List SignaturePage} {before : Option String}
      (listed : Listed),
      front ++ rest = listing →
      (∀ signature ∈ before, signature ∈ listing.map SignaturePage.signature) →
      behind SignaturePage.signature before listing = rest → rest.length < fuel →
      (∃ pageCount, listPages connection pageSize window fuel before listed =
        some (.ok ⟨listed.items ++ wanted window rest, pageCount⟩)) ∨
      ∃ e before', listPages connection pageSize window fuel before listed = some (.error e) ∧
        connection pageSize before' = .error e ∧
        ∀ signature ∈ before', signature ∈ listing.map SignaturePage.signature := by
  induction fuel with
  | zero => exact fun _ _ _ _ _ _ _ hfuel => absurd hfuel (Nat.not_lt_zero _)
  | succ fuel ih =>
      intro front rest before listed hsplit hbefore hrest hfuel
      rw [listPages]
      rcases hanswers pageSize before hbefore with ⟨e, herror⟩ | hanswer
      · rw [herror]
        exact .inr ⟨e, before, rfl, herror, hbefore⟩
      rw [hanswer, hrest]
      dsimp only
      rw [readBatch_eq]
      by_cases hnil : rest.take pageSize = []
      · have hrestNil : rest = [] := by
          rcases List.take_eq_nil_iff.mp hnil with h | h
          · omega
          · exact h
        rw [if_pos hnil, hrestNil, wanted, List.takeWhile_nil, List.filter_nil, List.append_nil]
        exact .inl ⟨listed.pageCount, rfl⟩
      · rw [if_neg hnil]
        dsimp only
        cases hcrossed : (rest.take pageSize).any fun page => window.Before page with
        | true =>
            have hwanted := wanted_append_of_crossed hcrossed (rest.drop pageSize)
            rw [List.take_append_drop] at hwanted
            rw [if_pos rfl, hwanted]
            exact .inl ⟨_, rfl⟩
        | false =>
            rw [if_neg Bool.false_ne_true]
            by_cases hshort : (rest.take pageSize).length < pageSize
            · have hall : rest.take pageSize = rest := by
                rw [List.length_take] at hshort
                exact List.take_of_length_le (by omega)
              rw [if_pos hshort, hall]
              exact .inl ⟨_, rfl⟩
            · -- a full page: the next call is behind its last signature
              obtain ⟨body, last, hbody⟩ :=
                (List.eq_nil_or_concat (rest.take pageSize)).resolve_left hnil
              have hlisting : (front ++ body) ++ last :: rest.drop pageSize = listing := by
                rw [← hsplit]
                conv_rhs => rw [← List.take_append_drop pageSize rest, hbody]
                simp
              have hbehind : behind SignaturePage.signature (some last.signature) listing =
                  rest.drop pageSize := by
                rw [← hlisting]
                rw [← hlisting] at hkeys
                exact behind_key hkeys
              have hlast : (rest.take pageSize).getLast? = some last := by
                rw [hbody]
                simp
              have hmem : ∀ signature ∈ some last.signature,
                  signature ∈ listing.map SignaturePage.signature := by
                rintro _ ⟨⟩
                rw [← hlisting]
                simp
              have hlater := ih (front ++ body ++ [last])
                ⟨listed.items ++ wanted window (rest.take pageSize), listed.pageCount + 1⟩
                (by rw [← hlisting]; simp) hmem hbehind
                (by rw [List.length_drop]; rw [List.length_take] at hshort; omega)
              have hwanted := wanted_append hcrossed (rest.drop pageSize)
              rw [List.take_append_drop] at hwanted
              rw [if_neg hshort, hlast]
              dsimp only
              rw [hwanted, ← List.append_assoc]
              exact hlater

/-- The listing ends: with what is wanted of the list, or with the error of a call. -/
theorem listProgramSignatures_cases (hanswers : Answers connection listing)
    (hsize : 1 ≤ pageSize) (hkeys : (listing.map SignaturePage.signature).Nodup) {fuel : Nat}
    (hfuel : listing.length < fuel) :
    (∃ pageCount, listProgramSignatures connection pageSize window fuel =
      some (.ok ⟨wanted window listing, pageCount⟩)) ∨
    ∃ e before, listProgramSignatures connection pageSize window fuel = some (.error e) ∧
      connection pageSize before = .error e ∧
      ∀ signature ∈ before, signature ∈ listing.map SignaturePage.signature := by
  have hstart : ∀ signature ∈ (none : Option String),
      signature ∈ listing.map SignaturePage.signature := fun _ h => nomatch h
  exact listPages_cases hanswers hsize hkeys [] ⟨[], 0⟩ (List.nil_append _) hstart rfl hfuel

end Walk

/-! ## The window -/

/-- Block times that do not increase, where there is one. -/
def NewestFirst (listing : List SignaturePage) : Prop :=
  listing.Pairwise fun page older =>
    ∀ time ∈ page.blockTime, ∀ time' ∈ older.blockTime, time' ≤ time

/-- In the window by its own block time. -/
def TimeWindow.Dated (window : TimeWindow) (page : SignaturePage) : Prop :=
  page.blockTime.isSome = true ∧ ¬ window.Before page ∧ ¬ window.Behind page

/-- Without a block time, and listed before the first signature older than the window. -/
def TimeWindow.Undated (window : TimeWindow) (listing : List SignaturePage)
    (page : SignaturePage) : Prop :=
  page.blockTime = none ∧ ∃ front back, listing = front ++ page :: back ∧
    ∀ newer ∈ front, ¬ window.Before newer

theorem mem_wanted_iff {window : TimeWindow} {listing : List SignaturePage}
    (hnewest : NewestFirst listing) {page : SignaturePage} :
    page ∈ wanted window listing ↔
      page ∈ listing ∧ (window.Dated page ∨ window.Undated listing page) := by
  rw [wanted, List.mem_filter, mem_takeWhile_iff]
  simp only [decide_eq_true_eq]
  constructor
  · rintro ⟨⟨front, back, hlisting, hfront, hbefore⟩, hbehind⟩
    refine ⟨by rw [hlisting]; simp, ?_⟩
    cases htime : page.blockTime with
    | some time => exact .inl ⟨by rw [htime]; rfl, hbefore, hbehind⟩
    | none => exact .inr ⟨htime, front, back, hlisting, hfront⟩
  · rintro ⟨hmem, ⟨hdated, hbefore, hbehind⟩ | ⟨hnone, front, back, hlisting, hfront⟩⟩
    · obtain ⟨front, back, hlisting⟩ := List.append_of_mem hmem
      refine ⟨⟨front, back, hlisting, ?_, hbefore⟩, hbehind⟩
      -- what is listed before it is not older than it
      rintro newer hnewer ⟨start, hstart, time, htime, hlt⟩
      obtain ⟨time', htime'⟩ := Option.isSome_iff_exists.mp hdated
      rw [NewestFirst, hlisting, List.pairwise_append] at hnewest
      have hle := hnewest.2.2 newer hnewer page List.mem_cons_self time htime time' htime'
      exact hbefore ⟨start, hstart, time', htime', lt_of_le_of_lt (by exact_mod_cast hle) hlt⟩
    · refine ⟨⟨front, back, hlisting, hfront, ?_⟩, ?_⟩
      · rintro ⟨start, -, time, htime, -⟩
        rw [hnone] at htime
        cases htime
      · rintro ⟨finish, -, time, htime, -⟩
        rw [hnone] at htime
        cases htime

theorem wanted_sublist (window : TimeWindow) (listing : List SignaturePage) :
    (wanted window listing).Sublist listing :=
  List.filter_sublist.trans (List.takeWhile_prefix _).sublist

/-- **What a window lists.**  With any page size the loop ends and lists, in the order of the
listing and each once, the signatures with a block time in the window and those without one that
come before the first that is older than the window. -/
theorem window_listing_exact {ε : Type} {connection : Connection ε} {listing : List SignaturePage}
    (hserves : Serves connection listing)
    (hkeys : (listing.map SignaturePage.signature).Nodup) (hnewest : NewestFirst listing)
    {pageSize : Nat} (hsize : 1 ≤ pageSize) (window : TimeWindow) {fuel : Nat}
    (hfuel : listing.length < fuel) :
    ∃ listed, listProgramSignatures connection pageSize window fuel = some (.ok listed) ∧
      listed.items.Sublist listing ∧ (listed.items.map SignaturePage.signature).Nodup ∧
      ∀ page, page ∈ listed.items ↔
        page ∈ listing ∧ (window.Dated page ∨ window.Undated listing page) := by
  have hanswers : Answers connection listing := fun limit before h => .inr (hserves limit before h)
  rcases listProgramSignatures_cases hanswers hsize hkeys hfuel with
    ⟨pageCount, hrun⟩ | ⟨e, before, -, herror, hknown⟩
  swap
  · rw [hserves pageSize before hknown] at herror
    cases herror
  refine ⟨_, hrun, wanted_sublist window listing, ?_, fun page => mem_wanted_iff hnewest⟩
  exact ((wanted_sublist window listing).map _).nodup hkeys

section Sample

/-- One signature too new, one without a block time between, one in the window, one too old and
one without a block time behind it. -/
def sampleListing : List SignaturePage := [
  ⟨"new", 9, some 40, false⟩, ⟨"undated", 8, none, false⟩, ⟨"dated", 7, some 20, true⟩,
  ⟨"old", 6, some 9, false⟩, ⟨"lost", 5, none, false⟩]

/-- With pages of two, the window from 10 to 30. -/
theorem window_listing_exact_sample : ∃ listed, listProgramSignatures
      (fun limit before =>
        (.ok ((behind SignaturePage.signature before sampleListing).take limit) :
          Except String (List SignaturePage)))
      2 ⟨some 10, some 30⟩ 6 = some (.ok listed) ∧
    listed.items.Sublist sampleListing ∧
    (listed.items.map SignaturePage.signature).Nodup ∧
    ∀ page, page ∈ listed.items ↔ page ∈ sampleListing ∧
      (TimeWindow.Dated ⟨some 10, some 30⟩ page ∨
        TimeWindow.Undated ⟨some 10, some 30⟩ sampleListing page) :=
  window_listing_exact (fun _ _ _ => rfl) (by decide)
    (by simp [NewestFirst, sampleListing]) (by decide) _ (by decide)

end Sample

end Veto.Indexer

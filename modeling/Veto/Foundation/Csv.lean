import Mathlib.Data.List.Nodup
import Mathlib.Tactic.Common

/-!
# Comma-separated values

Cells with commas between them, lines with line breaks between them.  A cell with a quote, a comma
or a line break in it is written in quotes, with its quotes doubled.  A line is read as its cells
were; a line break in a cell still ends the line.
-/

namespace Veto.Foundation

/-- The marks of a format, as characters or as code units. -/
structure CsvMarks (α : Type) where
  quote : α
  comma : α
  lineFeed : α
  carriageReturn : α
  distinct : [quote, comma, lineFeed, carriageReturn].Nodup

namespace CsvMarks

section Format

variable {α : Type} [DecidableEq α] (M : CsvMarks α)

/-! ## Writing -/

def isMark (c : α) : Bool :=
  c = M.quote || c = M.comma || c = M.lineFeed || c = M.carriageReturn

/-- A text with its quotes doubled. -/
def doubled (cell : List α) : List α := cell.flatMap fun c => if c = M.quote then [c, c] else [c]

def escape (cell : List α) : List α :=
  if cell.any M.isMark then M.quote :: (M.doubled cell ++ [M.quote]) else cell

def line (cells : List (List α)) : List α := [M.comma].intercalate (cells.map M.escape)

/-! ## Reading -/

/-- The cells of a line: the one being read so far, in quotes or not, and those to come. -/
def cellsFrom (quoted : Bool) (cur : List α) : List α → List (List α)
  | [] => [cur]
  | c :: rest =>
      if quoted then
        if c = M.quote then
          match rest with
          | [] => cellsFrom false cur []
          | next :: rest =>
              if next = M.quote then cellsFrom true (cur ++ [M.quote]) rest
              else cellsFrom false cur (next :: rest)
        else cellsFrom true (cur ++ [c]) rest
      else if c = M.quote then cellsFrom true cur rest
      else if c = M.comma then cur :: cellsFrom false [] rest
      else cellsFrom false (cur ++ [c]) rest

def cells (line : List α) : List (List α) := M.cellsFrom false [] line

/-- `split(/\r?\n/)`. -/
def splitLines : List α → List (List α)
  | [] => [[]]
  | c :: rest =>
      if c = M.lineFeed then [] :: splitLines rest
      else if c = M.carriageReturn ∧ rest.head? = some M.lineFeed then splitLines rest
      else
        match splitLines rest with
        | [] => [[c]]
        | line :: lines => (c :: line) :: lines

/-- A line without the carriage return at its end. -/
def trimReturn (text : List α) : List α :=
  if text.getLast? = some M.carriageReturn then text.dropLast else text

end Format

/-! ## The marks differ -/

section Distinct

variable {α : Type} (M : CsvMarks α)

theorem comma_ne_quote : M.comma ≠ M.quote := by
  have h := M.distinct
  intro heq
  simp [heq] at h

theorem comma_ne_lineFeed : M.comma ≠ M.lineFeed := by
  have h := M.distinct
  intro heq
  simp [heq] at h

theorem quote_ne_lineFeed : M.quote ≠ M.lineFeed := by
  have h := M.distinct
  intro heq
  simp [heq] at h

theorem carriageReturn_ne_quote : M.carriageReturn ≠ M.quote := by
  have h := M.distinct
  intro heq
  simp [heq] at h

theorem carriageReturn_ne_lineFeed : M.carriageReturn ≠ M.lineFeed := by
  have h := M.distinct
  intro heq
  simp [heq] at h

end Distinct

/-! ## Cells are read back -/

section Cells

variable {α : Type} [DecidableEq α] {M : CsvMarks α} {c : α} {cur cell rest : List α}

/-! One character of a line. -/

theorem cellsFrom_opens : M.cellsFrom false cur (M.quote :: rest) = M.cellsFrom true cur rest := by
  rw [cellsFrom.eq_def]
  exact (if_neg Bool.false_ne_true).trans (if_pos rfl)

theorem cellsFrom_comma :
    M.cellsFrom false cur (M.comma :: rest) = cur :: M.cellsFrom false [] rest := by
  rw [cellsFrom.eq_def]
  exact ((if_neg Bool.false_ne_true).trans (if_neg M.comma_ne_quote)).trans (if_pos rfl)

theorem cellsFrom_char (hquote : c ≠ M.quote) (hcomma : c ≠ M.comma) :
    M.cellsFrom false cur (c :: rest) = M.cellsFrom false (cur ++ [c]) rest := by
  rw [cellsFrom.eq_def]
  exact ((if_neg Bool.false_ne_true).trans (if_neg hquote)).trans (if_neg hcomma)

theorem cellsFrom_quoted (hquote : c ≠ M.quote) :
    M.cellsFrom true cur (c :: rest) = M.cellsFrom true (cur ++ [c]) rest := by
  rw [cellsFrom.eq_def]
  exact (if_pos rfl).trans (if_neg hquote)

theorem cellsFrom_twice : M.cellsFrom true cur (M.quote :: M.quote :: rest) =
    M.cellsFrom true (cur ++ [M.quote]) rest := by
  rw [cellsFrom.eq_def]
  exact ((if_pos rfl).trans (if_pos rfl)).trans (if_pos rfl)

/-- The quote that ends a cell, when no quote follows. -/
theorem cellsFrom_closes (hrest : rest.head? ≠ some M.quote) :
    M.cellsFrom true cur (M.quote :: rest) = M.cellsFrom false cur rest := by
  rw [cellsFrom.eq_def]
  refine ((if_pos rfl).trans (if_pos rfl)).trans ?_
  cases rest with
  | nil => rfl
  | cons next rest => exact if_neg fun heq => hrest (congrArg some heq)

/-! Whole cells. -/

theorem cellsFrom_plain (hquote : M.quote ∉ cell) (hcomma : M.comma ∉ cell) :
    M.cellsFrom false cur (cell ++ rest) = M.cellsFrom false (cur ++ cell) rest := by
  induction cell generalizing cur with
  | nil => rw [List.nil_append, List.append_nil]
  | cons c cell ih =>
      rw [List.mem_cons, not_or] at hquote hcomma
      rw [List.cons_append, cellsFrom_char (Ne.symm hquote.1) (Ne.symm hcomma.1),
        ih hquote.2 hcomma.2, List.append_assoc]
      rfl

/-- In quotes, up to where the text ends. -/
theorem cellsFrom_doubled (cell : List α) : M.cellsFrom true cur (M.doubled cell ++ rest) =
    M.cellsFrom true (cur ++ cell) rest := by
  induction cell generalizing cur with
  | nil => rw [doubled, List.flatMap_nil, List.nil_append, List.append_nil]
  | cons c cell ih =>
      have hrest : M.cellsFrom true (cur ++ [c]) (M.doubled cell ++ rest) = _ := ih
      rw [List.append_assoc] at hrest
      rw [doubled, List.flatMap_cons]
      by_cases hc : c = M.quote
      · subst hc
        rw [if_pos rfl, List.append_assoc, List.cons_append, List.cons_append, cellsFrom_twice]
        exact hrest
      · rw [if_neg hc, List.append_assoc, List.cons_append, cellsFrom_quoted hc]
        exact hrest

theorem not_mem_of_plain (h : cell.any M.isMark = false) (hc : M.isMark c = true) :
    c ∉ cell := by
  intro hmem
  exact absurd hc (Bool.eq_false_iff.mp (List.any_eq_false.mp h c hmem |> Bool.eq_false_iff.mpr))

theorem cellsFrom_escape (hrest : rest.head? ≠ some M.quote) :
    M.cellsFrom false cur (M.escape cell ++ rest) = M.cellsFrom false (cur ++ cell) rest := by
  unfold escape
  by_cases hmark : cell.any M.isMark = true
  · rw [if_pos hmark, List.cons_append, cellsFrom_opens, List.append_assoc, cellsFrom_doubled]
    exact cellsFrom_closes hrest
  · rw [if_neg hmark]
    have hplain := Bool.eq_false_iff.mpr hmark
    exact cellsFrom_plain (not_mem_of_plain hplain (by simp [isMark]))
      (not_mem_of_plain hplain (by simp [isMark]))

/-- Cells in front of others. -/
theorem cellsFrom_line (front : List (List α)) (rest : List α) :
    M.cells ((front.map M.escape).flatMap (· ++ [M.comma]) ++ rest) = front ++ M.cells rest := by
  induction front with
  | nil => rfl
  | cons cell front ih =>
      have hcomma : ([M.comma] ++ ((front.map M.escape).flatMap (· ++ [M.comma]) ++ rest)).head? ≠
          some M.quote := fun heq => M.comma_ne_quote (Option.some.inj heq)
      rw [List.map_cons, List.flatMap_cons, List.append_assoc, List.append_assoc, cells,
        cellsFrom_escape hcomma, List.nil_append, List.singleton_append, cellsFrom_comma]
      exact congrArg (cell :: ·) ih

theorem line_cons (cell : List α) {back : List (List α)} (h : back ≠ []) :
    M.line (cell :: back) = M.escape cell ++ M.comma :: M.line back := by
  obtain ⟨next, back, rfl⟩ := List.exists_cons_of_ne_nil h
  unfold line
  rw [List.map_cons, List.map_cons, List.intercalate_cons_cons, List.append_assoc]
  rfl

theorem line_append (front : List (List α)) {back : List (List α)} (h : back ≠ []) :
    M.line (front ++ back) = (front.map M.escape).flatMap (· ++ [M.comma]) ++ M.line back := by
  induction front with
  | nil => rfl
  | cons cell front ih =>
      rw [List.cons_append, line_cons cell (List.append_ne_nil_of_right_ne_nil _ h), ih,
        List.map_cons, List.flatMap_cons, List.append_assoc, List.append_assoc]
      rfl

theorem line_single (cell : List α) : M.line [cell] = M.escape cell := List.intercalate_singleton

/-- **The cells of a line are read back.** -/
theorem cells_line {row : List (List α)} (h : row ≠ []) : M.cells (M.line row) = row := by
  obtain ⟨front, last, rfl⟩ := List.eq_nil_or_concat row |>.resolve_left h
  have hend : ([] : List α).head? ≠ some M.quote := fun heq => by cases heq
  have hlast : M.cellsFrom false [] (M.escape last ++ []) = _ := cellsFrom_escape hend
  rw [List.append_nil, List.nil_append] at hlast
  rw [List.concat_eq_append, line_append front (List.cons_ne_nil _ _), line_single, cellsFrom_line,
    cells, hlast]
  rfl

/-- What is left of a line when it is cut off in a cell in quotes. -/
theorem cells_cut (front : List (List α)) (part : List α) :
    M.cells ((front.map M.escape).flatMap (· ++ [M.comma]) ++ M.quote :: M.doubled part) =
      front ++ [part] := by
  have hpart : M.cellsFrom true [] (M.doubled part ++ []) = _ := cellsFrom_doubled part
  rw [List.append_nil, List.nil_append] at hpart
  rw [cellsFrom_line, cells, cellsFrom_opens, hpart]
  rfl

/-! ## What a line is made of -/

theorem escape_plain (h : cell.any M.isMark = false) : M.escape cell = cell := by
  rw [escape, if_neg (Bool.eq_false_iff.mp h)]

theorem mem_doubled (h : c ∈ M.doubled cell) : c ∈ cell := by
  obtain ⟨d, hd, hc⟩ := List.mem_flatMap.mp h
  split_ifs at hc with hquote
  · rcases List.mem_cons.mp hc with rfl | hc
    · exact hd
    · exact List.mem_singleton.mp hc ▸ hd
  · exact List.mem_singleton.mp hc ▸ hd

theorem mem_escape (h : c ∈ M.escape cell) : c = M.quote ∨ c ∈ cell := by
  unfold escape at h
  split_ifs at h with hmark
  · rcases List.mem_cons.mp h with rfl | h
    · exact .inl rfl
    · rcases List.mem_append.mp h with h | h
      · exact .inr (mem_doubled h)
      · exact .inl (List.mem_singleton.mp h)
  · exact .inr h

theorem mem_line {row : List (List α)} (h : c ∈ M.line row) :
    c = M.comma ∨ c = M.quote ∨ ∃ cell ∈ row, c ∈ cell := by
  induction row with
  | nil => exact absurd h List.not_mem_nil
  | cons cell row ih =>
      have hcell : c ∈ M.escape cell → c = M.comma ∨ c = M.quote ∨ ∃ x ∈ cell :: row, c ∈ x :=
        fun hc => .inr ((mem_escape hc).imp_right fun hin => ⟨cell, List.mem_cons_self, hin⟩)
      rcases eq_or_ne row [] with rfl | hne
      · rw [line_single] at h
        exact hcell h
      rw [line_cons cell hne] at h
      rcases List.mem_append.mp h with hc | h
      · exact hcell hc
      rcases List.mem_cons.mp h with hc | h
      · exact .inl hc
      · refine (ih h).imp_right (Or.imp_right ?_)
        rintro ⟨x, hx, hc⟩
        exact ⟨x, List.mem_cons_of_mem _ hx, hc⟩

/-- A line has a line break only where a cell has one. -/
theorem lineFeed_not_mem_line {row : List (List α)} (h : ∀ cell ∈ row, M.lineFeed ∉ cell) :
    M.lineFeed ∉ M.line row := by
  intro hmem
  rcases mem_line hmem with heq | heq | ⟨cell, hcell, hin⟩
  · exact M.comma_ne_lineFeed heq.symm
  · exact M.quote_ne_lineFeed heq.symm
  · exact h cell hcell hin

end Cells

/-! ## Lines -/

theorem intercalate_append {α : Type} {sep : List α} {front back : List (List α)} (hfront : front ≠ [])
    (hback : back ≠ []) :
    sep.intercalate (front ++ back) = sep.intercalate front ++ (sep ++ sep.intercalate back) := by
  induction front with
  | nil => exact absurd rfl hfront
  | cons line front ih =>
      rcases eq_or_ne front [] with rfl | hne
      · rw [List.singleton_append, List.intercalate_cons_of_ne_nil hback,
          List.intercalate_singleton, List.append_assoc]
      · rw [List.cons_append,
          List.intercalate_cons_of_ne_nil (List.append_ne_nil_of_left_ne_nil hne _), ih hne,
          List.intercalate_cons_of_ne_nil hne, List.append_assoc, List.append_assoc,
          List.append_assoc]

section Lines

variable {α : Type} [DecidableEq α] {M : CsvMarks α} {c : α} {text rest : List α}

theorem splitLines_feed : M.splitLines (M.lineFeed :: rest) = [] :: M.splitLines rest := by
  rw [splitLines, if_pos rfl]

theorem splitLines_ne_nil (text : List α) : M.splitLines text ≠ [] := by
  induction text with
  | nil => exact List.cons_ne_nil _ _
  | cons c rest ih =>
      rw [splitLines]
      split_ifs
      · exact List.cons_ne_nil _ _
      · exact ih
      · split <;> exact List.cons_ne_nil _ _

theorem splitLines_single (h : M.lineFeed ∉ text) : M.splitLines text = [text] := by
  induction text with
  | nil => rfl
  | cons c rest ih =>
      rw [List.mem_cons, not_or] at h
      have hhead : ¬ (c = M.carriageReturn ∧ rest.head? = some M.lineFeed) := fun hc =>
        h.2 (List.mem_of_mem_head? hc.2)
      rw [splitLines, if_neg (Ne.symm h.1), if_neg hhead, ih h.2]

theorem trimReturn_cons (c : α) (h : rest ≠ []) :
    M.trimReturn (c :: rest) = c :: M.trimReturn rest := by
  unfold trimReturn
  obtain ⟨d, rest, rfl⟩ := List.exists_cons_of_ne_nil h
  rw [List.getLast?_cons_cons, List.dropLast_cons_of_ne_nil h]
  split <;> rfl

theorem head?_trimReturn (hne : text ≠ []) : (M.trimReturn text).head? = some M.lineFeed ↔
    text.head? = some M.lineFeed := by
  unfold trimReturn
  split
  · rename_i hlast
    cases text with
    | nil => exact absurd rfl hne
    | cons d rest =>
        cases rest with
        | nil =>
            have hd : d = M.carriageReturn := Option.some.inj hlast
            constructor
            · intro h
              cases h
            · intro h
              exact absurd (hd.symm.trans (Option.some.inj h)) M.carriageReturn_ne_lineFeed
        | cons e rest => exact Iff.rfl
  · exact Iff.rfl

/-- **A line break cuts a text in two.** -/
theorem splitLines_append (text rest : List α) :
    M.splitLines (text ++ M.lineFeed :: rest) =
      M.splitLines (M.trimReturn text) ++ M.splitLines rest := by
  induction text with
  | nil =>
      rw [List.nil_append, splitLines_feed]
      rfl
  | cons c text ih =>
      rcases eq_or_ne text [] with rfl | hne
      · rw [List.singleton_append]
        by_cases hc : c = M.carriageReturn
        · have htrim : M.trimReturn [c] = [] := if_pos (congrArg some hc)
          have hpair : M.splitLines (c :: M.lineFeed :: rest) = M.splitLines (M.lineFeed :: rest) := by
            rw [splitLines, if_neg (hc ▸ M.carriageReturn_ne_lineFeed), if_pos ⟨hc, rfl⟩]
          rw [htrim, hpair, splitLines_feed]
          rfl
        have htrim : M.trimReturn [c] = [c] := if_neg fun heq => hc (Option.some.inj heq)
        rw [htrim]
        by_cases hfeed : c = M.lineFeed
        · rw [hfeed, splitLines_feed, splitLines_feed, splitLines_feed]
          rfl
        · rw [splitLines, if_neg hfeed, if_neg fun h => hc h.1, splitLines_feed,
            splitLines_single fun h => hfeed (List.mem_singleton.mp h).symm]
          rfl
      · rw [List.cons_append, splitLines, trimReturn_cons c hne, splitLines, ih,
          List.head?_append_of_ne_nil _ hne]
        simp only [head?_trimReturn hne]
        split_ifs
        · rfl
        · rfl
        · obtain ⟨first, lines, hlines⟩ :=
            List.exists_cons_of_ne_nil (splitLines_ne_nil (M := M) (M.trimReturn text))
          rw [hlines]
          rfl

/-- Lines without line breaks, and without a carriage return at their ends. -/
theorem splitLines_lines {lines : List (List α)} (hne : lines ≠ [])
    (hfeed : ∀ line ∈ lines, M.lineFeed ∉ line)
    (hreturn : ∀ line ∈ lines, line.getLast? ≠ some M.carriageReturn) :
    M.splitLines ([M.lineFeed].intercalate lines) = lines := by
  induction lines with
  | nil => exact absurd rfl hne
  | cons line lines ih =>
      cases lines with
      | nil =>
          rw [List.intercalate_singleton]
          exact splitLines_single (hfeed line List.mem_cons_self)
      | cons next lines =>
          have htrim : M.trimReturn line = line := if_neg (hreturn line List.mem_cons_self)
          rw [List.intercalate_cons_cons, List.append_assoc, List.singleton_append,
            splitLines_append, htrim, splitLines_single (hfeed line List.mem_cons_self),
            ih (List.cons_ne_nil _ _) (fun l hl => hfeed l (List.mem_cons_of_mem _ hl))
              fun l hl => hreturn l (List.mem_cons_of_mem _ hl)]
          rfl

/-- What stands between two line breaks is a line. -/
theorem mem_splitLines (front mid back : List α) (hmid : M.lineFeed ∉ mid) :
    M.trimReturn mid ∈ M.splitLines (front ++ M.lineFeed :: (mid ++ M.lineFeed :: back)) := by
  have htrim : M.lineFeed ∉ M.trimReturn mid := by
    unfold trimReturn
    split
    · exact fun h => hmid (List.dropLast_subset _ h)
    · exact hmid
  rw [splitLines_append, splitLines_append, splitLines_single htrim]
  exact List.mem_append_right _ (List.mem_append_left _ List.mem_cons_self)

theorem getLast?_doubled_concat (part : List α) (c : α) :
    (M.doubled (part ++ [c])).getLast? = some c := by
  rw [doubled, List.flatMap_append, List.flatMap_singleton]
  split_ifs
  · rw [List.getLast?_append_cons]
    rfl
  · exact List.getLast?_concat

/-- A line that was cut off in a cell in quotes has the cells in front of that cell, and its part. -/
theorem cells_trimReturn_cut (front : List (List α)) (part : List α) : ∃ last,
    M.cells (M.trimReturn
      ((front.map M.escape).flatMap (· ++ [M.comma]) ++ M.quote :: M.doubled part)) =
        front ++ [last] := by
  unfold trimReturn
  split_ifs with hlast
  · rcases List.eq_nil_or_concat part with rfl | ⟨part, c, rfl⟩
    · rw [List.getLast?_append_cons, doubled, List.flatMap_nil, List.getLast?_singleton] at hlast
      exact absurd (Option.some.inj hlast).symm M.carriageReturn_ne_quote
    · refine ⟨part, ?_⟩
      have hquote : c ≠ M.quote := by
        rintro rfl
        rw [List.concat_eq_append, List.getLast?_append_cons, List.getLast?_cons,
          getLast?_doubled_concat, Option.getD_some] at hlast
        exact absurd (Option.some.inj hlast).symm M.carriageReturn_ne_quote
      have hdoubled : M.doubled (part.concat c) = M.doubled part ++ [c] := by
        rw [List.concat_eq_append, doubled, List.flatMap_append, List.flatMap_singleton, if_neg hquote]
        rfl
      rw [hdoubled, ← List.cons_append, ← List.append_assoc, List.dropLast_concat]
      exact cells_cut front part
  · exact ⟨part, cells_cut front part⟩

end Lines

end CsvMarks

end Veto.Foundation

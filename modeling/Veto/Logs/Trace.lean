import Veto.Logs.Lines
import Mathlib.Data.List.Forall2

/-!
# The readers on a log of the runtime

A log of the runtime is a nested call trace written out line by line.  Each line is
taken by the patterns for the mark it stands for, whatever text a program logged, so the
stack of a reader is the stack of the open frames.
-/

namespace Veto.Logs

open Foundation

/-! ## What the runtime writes -/

/-- The address of a program, in base 58. -/
structure ProgramId where
  chars : Text
  base58 : ∀ c ∈ chars, isBase58 c = true
  nonempty : chars ≠ []

theorem ProgramId.ext_iff' {p q : ProgramId} : p = q ↔ p.chars = q.chars := by
  cases p
  cases q
  simp

instance : DecidableEq ProgramId := fun p q =>
  decidable_of_iff (p.chars = q.chars) ProgramId.ext_iff'.symm

inductive Ending where
  | success
  | failed (error : Text)

structure Frame where
  depth : Nat
  ending : Ending

def invokeLine (program : ProgramId) (depth : Nat) : Text :=
  lit "Program " ++ (program.chars ++
    (lit " invoke [" ++ (Nat.toDigits 10 depth ++ lit "]")))

def Ending.line (program : ProgramId) : Ending → Text
  | success => lit "Program " ++ (program.chars ++ lit " success")
  | failed error => lit "Program " ++ (program.chars ++ (lit " failed: " ++ error))

/-- A line of the runtime's own: compute units, return data, a truncation note. -/
structure Note where
  text : Text
  not_invoke : programInvoke text = none
  not_end : programEnd text = none
  not_said : isLogOrData text = false

/-- What stands between two frame lines.  The text of a log or data line is up to the
program that writes it. -/
inductive LogLine where
  | log (text : Text)
  | data (text : Text)
  | note (note : Note)

namespace LogLine

def text : LogLine → Text
  | log text => lit "Program log:" ++ text
  | data text => lit "Program data:" ++ text
  | note n => n.text

/-- It is a `Program log:` or `Program data:` line. -/
def said : LogLine → Bool
  | note _ => false
  | _ => true

end LogLine

/-- The closing line has no line break, so that `PROGRAM_END` takes it.  Only the error of
a failure can have one, by way of a text that the failing program chose. -/
def Frame.onOneLine (frame : Frame) : Bool :=
  match frame.ending with
  | .success => true
  | .failed error => error.all fun c => !isLineTerminator c

/-- A log of the runtime.  A failure ends the transaction, so a program says nothing after
one; this is asked for only where the error text breaks the line. -/
structure LogTrace where
  calls : CallTrace ProgramId LogLine Frame
  settled : calls.Settled LogLine.said Frame.onOneLine True

def linesOf : CallTrace ProgramId LogLine Frame → List Text
  | .done => []
  | .line l rest => l.text :: linesOf rest
  | .call program frame body rest =>
      invokeLine program frame.depth :: (linesOf body ++ frame.ending.line program :: linesOf rest)

def LogTrace.lines (trace : LogTrace) : List Text := linesOf trace.calls

/-- The log and data lines written while `programId` is the innermost open frame, in
order. -/
def LogTrace.saidBy (trace : LogTrace) (programId : Text) : List Text :=
  (trace.calls.writtenBy LogLine.said (fun program => program.chars = programId) none).map
    LogLine.text

/-! ## How each line is taken -/

section

variable {program : ProgramId} {rest : Text}

theorem takeClass_program (h : rest.head?.all (fun c => !isBase58 c) = true) :
    takeClass isBase58 (program.chars ++ rest) = some (program.chars, rest) :=
  takeClass_eq_some.mpr ⟨program.nonempty, program.base58, h, rfl⟩

theorem programInvoke_program (h : rest.head?.all (fun c => !isBase58 c) = true) :
    programInvoke (lit "Program " ++ (program.chars ++ rest)) =
      ((rest.dropPrefix? (lit " invoke [")).bind (takeClass Char.isDigit)).bind
        fun taken => if taken.2 = lit "]" then some program.chars else none := by
  have hword : (lit "Program " ++ (program.chars ++ rest)).dropPrefix? (lit "Program ") =
      some (program.chars ++ rest) := dropPrefix?_eq_some.mpr rfl
  simp only [programInvoke, hword, takeClass_program h, Option.bind_eq_bind, Option.bind_some,
    Option.bind_assoc]

theorem programEnd_program (h : rest.head?.all (fun c => !isBase58 c) = true) :
    programEnd (lit "Program " ++ (program.chars ++ rest)) =
      (rest.dropPrefix? (lit " ")).bind fun line =>
        if line = lit "success" ∨ failedToEnd line then some program.chars else none := by
  have hword : (lit "Program " ++ (program.chars ++ rest)).dropPrefix? (lit "Program ") =
      some (program.chars ++ rest) := dropPrefix?_eq_some.mpr rfl
  simp only [programEnd, hword, takeClass_program h, Option.bind_eq_bind, Option.bind_some]

theorem takeClass_depth (depth : Nat) :
    takeClass Char.isDigit (Nat.toDigits 10 depth ++ lit "]") =
      some (Nat.toDigits 10 depth, lit "]") := by
  apply takeClass_eq_some.mpr
  refine ⟨?_, ?_, ?_, rfl⟩
  · exact Nat.toDigits_ne_nil
  · intro c hc
    exact Nat.isDigit_of_mem_toDigits (by decide) (by decide) hc
  · simp [lit]

theorem programInvoke_invokeLine (depth : Nat) :
    programInvoke (invokeLine program depth) = some program.chars := by
  have hword : (lit " invoke [" ++ (Nat.toDigits 10 depth ++ lit "]")).dropPrefix?
      (lit " invoke [") = some (Nat.toDigits 10 depth ++ lit "]") :=
    dropPrefix?_eq_some.mpr rfl
  rw [invokeLine, programInvoke_program (by simp [lit, isBase58]), hword, Option.bind_some,
    takeClass_depth, Option.bind_some, if_pos rfl]

theorem programInvoke_endLine (program : ProgramId) (ending : Ending) : programInvoke (ending.line program) = none := by
  cases ending with
  | success =>
      rw [Ending.line, programInvoke_program (by simp [lit, isBase58])]
      simp [lit, List.dropPrefix?]
  | failed error =>
      rw [Ending.line, programInvoke_program (by simp [lit, isBase58])]
      simp [lit, List.dropPrefix?]

theorem failedToEnd_error (error : Text) :
    failedToEnd (lit "failed: " ++ error) = error.all fun c => !isLineTerminator c := by
  simp [failedToEnd, lit, List.dropPrefix?, isWordChar, isLineTerminator]

theorem programEnd_endLine (program : ProgramId) (frame : Frame) :
    programEnd (frame.ending.line program) =
      if frame.onOneLine then some program.chars else none := by
  obtain ⟨depth, ending⟩ := frame
  cases ending with
  | success =>
      rw [Ending.line, programEnd_program (by simp [lit, isBase58])]
      simp [lit, List.dropPrefix?, Frame.onOneLine]
  | failed error =>
      have hblank : (lit " failed: " ++ error).dropPrefix? (lit " ") =
          some (lit "failed: " ++ error) := by simp [lit, List.dropPrefix?]
      have hother : (lit "failed: " ++ error) ≠ lit "success" := by simp [lit]
      rw [Ending.line, programEnd_program (by simp [lit, isBase58]), hblank, Option.bind_some,
        failedToEnd_error]
      simp only [hother, false_or, Frame.onOneLine]
      rfl

/-- No program address makes a frame line look like a log or data line: the colon of
either word would stand in the address. -/
theorem isLogOrData_program :
    isLogOrData (lit "Program " ++ (program.chars ++ ' ' :: rest)) = false := by
  have hrun : (program.chars ++ ' ' :: rest).takeWhile isBase58 = program.chars :=
    takeWhile_append_of_stops program.base58 (by simp [isBase58])
  have hspace : (program.chars ++ ' ' :: rest).dropWhile isBase58 = ' ' :: rest :=
    dropWhile_append_of_stops program.base58 (by simp [isBase58])
  have hlog : ¬ lit "log:" <+: program.chars ++ ' ' :: rest := by
    rintro ⟨text, htext⟩
    rw [← htext] at hrun
    have hnil : program.chars = [] := by simpa [lit, isBase58] using hrun.symm
    exact program.nonempty hnil
  have hdata : ¬ lit "data:" <+: program.chars ++ ' ' :: rest := by
    rintro ⟨text, htext⟩
    rw [← htext] at hspace
    simp [lit, isBase58] at hspace
  have hcut : ∀ word : Text, (lit "Program " ++ word).isPrefixOf
      (lit "Program " ++ (program.chars ++ ' ' :: rest)) = true ↔
        word <+: program.chars ++ ' ' :: rest := by
    intro word
    rw [List.isPrefixOf_iff_prefix, List.prefix_append_right_inj]
  have hsplitLog : lit "Program log:" = lit "Program " ++ lit "log:" := by simp [lit]
  have hsplitData : lit "Program data:" = lit "Program " ++ lit "data:" := by simp [lit]
  rw [isLogOrData, hsplitLog, hsplitData, Bool.or_eq_false_iff]
  constructor
  · exact Bool.eq_false_iff.mpr fun h => hlog ((hcut _).mp h)
  · exact Bool.eq_false_iff.mpr fun h => hdata ((hcut _).mp h)

end

/-! ## The readers follow the marks -/

/-- What a reader takes a line for. -/
def Takes (line : Text) : Mark ProgramId LogLine → Prop
  | .enter program => programInvoke line = some program.chars
  | .leave program =>
      programInvoke line = none ∧ programEnd line = some program.chars ∧ isLogOrData line = false
  | .line l =>
      programInvoke line = none ∧ programEnd line = none ∧ isLogOrData line = true ∧ line = l.text
  | .skip => programInvoke line = none ∧ programEnd line = none ∧ isLogOrData line = false

theorem takes_endLine (program : ProgramId) (frame : Frame) :
    Takes (frame.ending.line program) (if frame.onOneLine then .leave program else .skip) := by
  have hinvoke := programInvoke_endLine program frame.ending
  have hend := programEnd_endLine program frame
  have hsaid : isLogOrData (frame.ending.line program) = false := by
    cases frame.ending with
    | success =>
        have hblank : lit " success" = ' ' :: lit "success" := by simp [lit]
        rw [Ending.line, hblank]
        exact isLogOrData_program
    | failed error =>
        have hblank : lit " failed: " ++ error = ' ' :: (lit "failed: " ++ error) := by simp [lit]
        rw [Ending.line, hblank]
        exact isLogOrData_program
  by_cases hline : frame.onOneLine
  · rw [if_pos hline]
    rw [if_pos hline] at hend
    exact ⟨hinvoke, hend, hsaid⟩
  · rw [if_neg hline]
    rw [if_neg hline] at hend
    exact ⟨hinvoke, hend, hsaid⟩

/-- A log or data line is neither an opening nor a closing line, whatever its text. -/
theorem takes_text (l : LogLine) : Takes l.text (if l.said then .line l else .skip) := by
  cases l with
  | log text =>
      refine ⟨?_, ?_, ?_, rfl⟩
      · simp [LogLine.text, programInvoke, lit, List.dropPrefix?, takeClass, isBase58]
      · simp [LogLine.text, programEnd, lit, List.dropPrefix?, takeClass, isBase58]
      · simp [LogLine.text, isLogOrData, lit]
  | data text =>
      refine ⟨?_, ?_, ?_, rfl⟩
      · simp [LogLine.text, programInvoke, lit, List.dropPrefix?, takeClass, isBase58]
      · simp [LogLine.text, programEnd, lit, List.dropPrefix?, takeClass, isBase58]
      · simp [LogLine.text, isLogOrData, lit]
  | note n => exact ⟨n.not_invoke, n.not_end, n.not_said⟩

/-- Line by line, a log of the runtime is taken for the marks of its trace. -/
theorem takes_lines (calls : CallTrace ProgramId LogLine Frame) :
    List.Forall₂ Takes (linesOf calls) (calls.marks LogLine.said Frame.onOneLine) := by
  induction calls with
  | done => exact .nil
  | line l rest ih => exact .cons (takes_text l) ih
  | call program frame body rest ihBody ihRest =>
      apply List.Forall₂.cons
      · exact programInvoke_invokeLine frame.depth
      · exact List.rel_append ihBody (.cons (takes_endLine program frame) ihRest)

theorem head?_map_chars (stack : List ProgramId) (program : ProgramId) :
    (stack.map ProgramId.chars).head? = some program.chars ↔ stack.head? = some program := by
  cases stack with
  | nil => simp
  | cons top below => simp [ProgramId.ext_iff']

/-- A reader's stack of addresses goes with the stack of open programs. -/
theorem ownLines_eq_scan {logs : List Text} {marks : List (Mark ProgramId LogLine)}
    (h : List.Forall₂ Takes logs marks) (programId : Text) (stack : List ProgramId) :
    Sdk.ownLines programId (stack.map ProgramId.chars) logs =
      (CallTrace.scan (fun program => program.chars = programId) stack marks).map
        LogLine.text := by
  induction h generalizing stack with
  | nil => rfl
  | @cons line mark logs marks htakes _ ih =>
      cases mark with
      | enter program =>
          have hinvoke : programInvoke line = some program.chars := htakes
          simp only [Sdk.ownLines, hinvoke, CallTrace.scan]
          exact ih (program :: stack)
      | leave program =>
          obtain ⟨hinvoke, hend, hsaid⟩ := htakes
          simp only [Sdk.ownLines, hinvoke, hend, hsaid, CallTrace.scan, head?_map_chars]
          by_cases htop : stack.head? = some program
          · simpa [htop] using ih stack.tail
          · simpa [htop] using ih stack
      | line l =>
          obtain ⟨hinvoke, hend, hsaid, rfl⟩ := htakes
          simp only [Sdk.ownLines, hinvoke, hend, hsaid, CallTrace.scan]
          cases stack with
          | nil => simpa using ih []
          | cons top below =>
              have hrest := ih (top :: below)
              by_cases htop : top.chars = programId
              · simpa [htop] using hrest
              · simpa [htop] using hrest
      | skip =>
          obtain ⟨hinvoke, hend, hsaid⟩ := htakes
          simpa [Sdk.ownLines, hinvoke, hend, hsaid, CallTrace.scan] using ih stack

/-- Both readers keep exactly what a program said itself. -/
theorem lines_attributed (trace : LogTrace) (programId : Text) (h : framed trace.lines) :
    Sdk.linesForProgram trace.lines programId = trace.saidBy programId ∧
      Indexer.linesForProgram trace.lines programId =
        Sdk.linesForProgram trace.lines programId := by
  refine ⟨?_, indexer_eq_sdk h programId⟩
  have hscan := ownLines_eq_scan (takes_lines trace.calls) programId []
  have hmarks := CallTrace.scan_marks (fun program => program.chars = programId) []
    (trace.settled.mono fun _ => CallTrace.lineless_nil)
  rw [List.append_nil] at hmarks
  calc Sdk.linesForProgram trace.lines programId
      = Sdk.ownLines programId [] trace.lines := by simp [Sdk.linesForProgram, h]
    _ = trace.saidBy programId := by
        rw [LogTrace.lines, ← List.map_nil (f := ProgramId.chars), hscan, hmarks]
        simp [CallTrace.scan, LogTrace.saidBy]

/-- A charge whose token program logs a forged payment line. -/
def forgedLine : LogTrace where
  calls :=
    .call ⟨lit "Veto", by simp [lit, isBase58], by simp [lit]⟩ ⟨1, .success⟩
      (.line (.log (lit " Instruction: Charge"))
        (.call ⟨lit "Token", by simp [lit, isBase58], by simp [lit]⟩ ⟨2, .success⟩
          (.line (.log (lit " VETO PAID amount=9")) .done)
          (.line (.data (lit " QUJD")) .done)))
      .done
  settled := by simp [CallTrace.Settled, Frame.onOneLine]

theorem lines_attributed_sample :
    Sdk.linesForProgram forgedLine.lines (lit "Veto") = forgedLine.saidBy (lit "Veto") ∧
      Indexer.linesForProgram forgedLine.lines (lit "Veto") =
        Sdk.linesForProgram forgedLine.lines (lit "Veto") :=
  lines_attributed forgedLine (lit "Veto") (by decide +kernel)

example : forgedLine.saidBy (lit "Veto") =
    [lit "Program log: Instruction: Charge", lit "Program data: QUJD"] := by decide +kernel

end Veto.Logs

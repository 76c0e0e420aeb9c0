import Veto.Foundation.Text
import Veto.Foundation.CallTrace

/-!
# Attributing log lines to programs

The runtime frames what a program logs between `Program <id> invoke [n]` and
`Program <id> success` or `Program <id> failed: <error>`.  Two readers, one of the SDK and
one of the indexer, keep the lines of one program by following these frames.  A program
chooses the text of its own log lines, but not the frames.
-/

namespace Veto.Logs

open Foundation

/-! ## The line patterns -/

/-- The class `[1-9A-HJ-NP-Za-km-z]`. -/
def isBase58 (c : Char) : Bool :=
  ('1' ≤ c && c ≤ '9') || ('A' ≤ c && c ≤ 'H') || ('J' ≤ c && c ≤ 'N') ||
    ('P' ≤ c && c ≤ 'Z') || ('a' ≤ c && c ≤ 'k') || ('m' ≤ c && c ≤ 'z')

/-- What `.` does not match. -/
def isLineTerminator (c : Char) : Bool :=
  c = '\n' || c = '\r' || c = '\u2028' || c = '\u2029'

/-- The class `\w`, the two sides of whose border `\b` tells apart. -/
def isWordChar (c : Char) : Bool := c.isAlphanum || c = '_'

/-- `/^Program ([1-9A-HJ-NP-Za-km-z]+) invoke \[(\d+)\]$/`, with its first group. -/
def programInvoke (line : Text) : Option Text := do
  let line ← line.dropPrefix? (lit "Program ")
  let (program, line) ← takeClass isBase58 line
  let line ← line.dropPrefix? (lit " invoke [")
  let (_, line) ← takeClass Char.isDigit line
  if line = lit "]" then some program else none

/-- `failed\b.*$`. -/
def failedToEnd (line : Text) : Bool :=
  match line.dropPrefix? (lit "failed") with
  | none => false
  | some line => line.head?.all (fun c => !isWordChar c) && line.all fun c => !isLineTerminator c

/-- `/^Program ([1-9A-HJ-NP-Za-km-z]+) (?:success|failed\b.*)$/`, with its group. -/
def programEnd (line : Text) : Option Text := do
  let line ← line.dropPrefix? (lit "Program ")
  let (program, line) ← takeClass isBase58 line
  let line ← line.dropPrefix? (lit " ")
  if line = lit "success" ∨ failedToEnd line then some program else none

/-- `line.startsWith("Program log:") || line.startsWith("Program data:")`. -/
def isLogOrData (line : Text) : Bool :=
  (lit "Program log:").isPrefixOf line || (lit "Program data:").isPrefixOf line

/-- Some line opens a frame. -/
def framed (logs : List Text) : Bool := logs.any fun line => (programInvoke line).isSome

/-! ## The two readers

A stack is a list with its top at the head. -/

namespace Sdk

/-- The loop over a framed log, from a given stack on. -/
def ownLines (programId : Text) : List Text → List Text → List Text
  | _, [] => []
  | stack, line :: logs =>
    match programInvoke line with
    | some invoke => ownLines programId (invoke :: stack) logs
    | none =>
      let ended := programEnd line
      let top := stack.head?
      if ended.isSome ∧ top.isSome ∧ top = ended then ownLines programId stack.tail logs
      else if !isLogOrData line then ownLines programId stack logs
      else if top = some programId then line :: ownLines programId stack logs
      else ownLines programId stack logs

def linesForProgram (logs : List Text) (programId : Text) : List Text :=
  if !framed logs then logs else ownLines programId [] logs

end Sdk

namespace Indexer

/-- The loop over a framed log, from a given stack on. -/
def ownLines (programId : Text) : List Text → List Text → List Text
  | _, [] => []
  | stack, line :: logs =>
    match programInvoke line with
    | some invoke => ownLines programId (invoke :: stack) logs
    | none =>
      let ended := programEnd line
      if ended.isSome ∧ 0 < stack.length ∧ stack.head? = ended then
        ownLines programId stack.tail logs
      else if !isLogOrData line then ownLines programId stack logs
      else if 0 < stack.length ∧ stack.head? = some programId then
        line :: ownLines programId stack logs
      else ownLines programId stack logs

def linesForProgram (logs : List Text) (programId : Text) : List Text :=
  if !framed logs then [] else ownLines programId [] logs

end Indexer

/-- The two loops keep the same lines of every log, well nested or not. -/
theorem ownLines_eq (programId : Text) (stack logs : List Text) :
    Indexer.ownLines programId stack logs = Sdk.ownLines programId stack logs := by
  induction logs generalizing stack with
  | nil => rfl
  | cons line logs ih =>
      unfold Indexer.ownLines Sdk.ownLines
      cases programInvoke line with
      | some invoke => exact ih _
      | none => cases stack <;> simp [ih]

/-- The two readers part only on a log without a frame. -/
theorem indexer_eq_sdk {logs : List Text} (h : framed logs) (programId : Text) :
    Indexer.linesForProgram logs programId = Sdk.linesForProgram logs programId := by
  simp [Indexer.linesForProgram, Sdk.linesForProgram, h, ownLines_eq]

end Veto.Logs

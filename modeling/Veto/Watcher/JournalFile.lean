import Veto.Foundation.JsonLines
import Veto.Watcher.HoldAlerts
import Veto.Watcher.Money
import Veto.Watcher.Window

/-!
# The journals' files

The watcher keeps its decisions and its hold alerts in files of one JSON object on each line.  An
append writes the object and a line feed; a crash leaves the first bytes of that.  The next append
goes on where the file ends.
-/

namespace Veto.Watcher

open Foundation

/-! ## Rows -/

/-- A row of the decisions as it is written.  The last four properties may be undefined. -/
structure JournalLine where
  ts : JsString
  window_start : JsString
  window_end : Option JsString
  sek_per_kwh : Option JsString
  kwh_milli : JsString
  amount : JsString
  nonce : JsString
  decision : RowDecision
  reason : JsString
  reason_code : Option Int
  signature : Option JsString
  suggested_override : Option JsString
  quote_currency : Option JsString
  fx_rate : Option (Option JsString)
  fx_date : Option (Option JsString)
  fx_source : Option (Option JsString)

def RowDecision.text : RowDecision → String
  | .paid => "paid"
  | .refused => "refused"
  | .gap => "gap"
  | .skipped => "skipped"

def nullable : Option JsString → Scalar
  | none => .null
  | some text => .string text

def JournalLine.record (row : JournalLine) : Record :=
  .ofDefined
    [(js "ts", some (.string row.ts)),
      (js "window_start", some (.string row.window_start)),
      (js "window_end", some (nullable row.window_end)),
      (js "sek_per_kwh", some (nullable row.sek_per_kwh)),
      (js "kwh_milli", some (.string row.kwh_milli)),
      (js "amount", some (.string row.amount)),
      (js "nonce", some (.string row.nonce)),
      (js "decision", some (.string (js row.decision.text))),
      (js "reason", some (.string row.reason)),
      (js "reason_code", some (row.reason_code.elim .null .number)),
      (js "signature", some (nullable row.signature)),
      (js "suggested_override", some (nullable row.suggested_override)),
      (js "quote_currency", row.quote_currency.map .string),
      (js "fx_rate", row.fx_rate.map nullable),
      (js "fx_date", row.fx_date.map nullable),
      (js "fx_source", row.fx_source.map nullable)]
    (by simp only [List.map_cons, List.map_nil]; decide)

def Hold.HoldAlertRow.record (row : Hold.HoldAlertRow) : Record :=
  .ofDefined
    [(js "key", some (.string (js row.key))),
      (js "vault", some (.string (js row.vault))),
      (js "withdrawalId", some (.string (js row.withdrawalId))),
      (js "alert", some (.string (js row.alert.text))),
      (js "mark", some (.string (js row.mark))),
      (js "amount", some (.string (js row.amount))),
      (js "destination", some (.string (js row.destination))),
      (js "unlockAt", some (.string (js row.unlockAt))),
      (js "createdAt", some (.string (js row.createdAt))),
      (js "ts", some (.string (js row.ts)))]
    (by simp only [List.map_cons, List.map_nil]; decide)

theorem JournalLine.named (row : JournalLine) : row.record.Named :=
  ⟨0x74, [0x73], .string row.ts, row.record.fields.tail, rfl, by decide, by decide⟩

theorem Hold.HoldAlertRow.named (row : Hold.HoldAlertRow) : row.record.Named :=
  ⟨0x6b, [0x65, 0x79], .string (js row.key), row.record.fields.tail, rfl, by decide, by decide⟩

/-! ## Loading -/

/-- A line of the decisions.  A blank line is left out, and so is one that `JSON.parse` throws on. -/
def readJournalLine (line : Text) : Option JsonValue :=
  if (trim line).length = 0 then none else jsonParse line

/-- `JsonlJournal.load` on the bytes of the file; without a file there are none. -/
def JsonlJournal.load (file : Bytes) : List JsonValue :=
  ((decodeUtf8 0 file).splitOn '\n').filterMap readJournalLine

/-- `typeof parsed.key === "string"`; on `null` it throws. -/
def hasKey : JsonValue → Bool
  | .object fields =>
      match fields.lookup (js "key") with
      | some (.string _) => true
      | _ => false
  | _ => false

def readHoldAlertLine (line : Text) : Option JsonValue :=
  if (trim line).length = 0 then none else (jsonParse line).filter hasKey

/-- `HoldAlertJournal.load`. -/
def Hold.HoldAlertJournal.load (file : Bytes) : List JsonValue :=
  ((decodeUtf8 0 file).splitOn '\n').filterMap readHoldAlertLine

/-- A record is not blank. -/
theorem trim_print_ne_nil (record : Record) : (trim record.print).length ≠ 0 := by
  rw [trim, List.length_reverse, Record.print, List.dropWhile_cons_of_neg (by decide),
    Ne, List.length_eq_zero_iff, ← List.cons_append, List.reverse_append, List.reverse_singleton,
    List.singleton_append, List.dropWhile_cons_of_neg (by decide)]
  exact List.cons_ne_nil _ _

theorem readsLines_journal : ReadsLines JournalLine.record readJournalLine where
  taken row := by
    rw [readJournalLine, if_neg (trim_print_ne_nil _)]
    exact Record.parse_print _
  refused line hline := by
    rw [readJournalLine, hline, ite_self]

theorem hasKey_record (row : Hold.HoldAlertRow) : hasKey row.record.json = true := rfl

theorem readsLines_holdAlerts : ReadsLines Hold.HoldAlertRow.record readHoldAlertLine where
  taken row := by
    rw [readHoldAlertLine, if_neg (trim_print_ne_nil _), Record.parse_print,
      Option.filter_some, if_pos (hasKey_record row)]
  refused line hline := by
    rw [readHoldAlertLine, hline, Option.filter_none, ite_self]

/-! ## What a crash leaves -/

/-- `load` returns the completed appends, in order, and nothing else. -/
def Survives {ρ : Type} {record : ρ → Record} (load : Bytes → List JsonValue)
    (writes : List (LogWrite record)) : Prop :=
  load (logBytes writes) =
    (writes.filterMap LogWrite.completed).map fun row => (record row).json

/-- **The journals survive crashes** exactly when no append goes on behind the bytes that a crash has
left, and no record ends the file without its line feed; but for a record that is loaded in the
place of one that said the same. -/
theorem journals_survive_iff (writes : List (LogWrite JournalLine.record))
    (alerts : List (LogWrite Hold.HoldAlertRow.record)) :
    (Survives JsonlJournal.load writes ↔ Undisturbed writes ∨ StandsIn writes) ∧
      (Survives Hold.HoldAlertJournal.load alerts ↔ Undisturbed alerts ∨ StandsIn alerts) :=
  ⟨read_completed_iff readsLines_journal JournalLine.named writes,
    read_completed_iff readsLines_holdAlerts Hold.HoldAlertRow.named alerts⟩

/-- A window that was paid. -/
def paidLine : JournalLine where
  ts := js "2026-09-20T06:15:02.000Z"
  window_start := js "2026-09-20T06:00:00.000Z"
  window_end := some (js "2026-09-20T06:15:00.000Z")
  sek_per_kwh := some (js "0.5")
  kwh_milli := js "50000"
  amount := js "25"
  nonce := js "1789876800"
  decision := .paid
  reason := js "ok"
  reason_code := some 0
  signature := none
  suggested_override := none
  quote_currency := none
  fx_rate := none
  fx_date := none
  fx_source := none

theorem one_lt_lineBytes {ρ : Type} (record : ρ → Record) (row : ρ) :
    1 < (lineBytes record row).length := by
  rw [lineBytes_eq, List.length_append, List.length_singleton]
  exact Nat.lt_add_of_pos_left (Nat.succ_pos _)

/-- A crash leaves one byte of a row, and the watcher starts again and appends the row: it is on no
line of its own, and none is loaded. -/
theorem torn_line_takes_next :
    ¬ ∀ writes : List (LogWrite JournalLine.record), Survives JsonlJournal.load writes := by
  intro h
  let torn : LogWrite JournalLine.record := .torn paidLine 1 (one_lt_lineBytes _ _)
  have hfound := read_log readsLines_journal JournalLine.named [torn, .append paidLine]
    (show Left.nothing.Holds JournalLine.record [] from rfl) nofun
  have hleft : Left.nothing.after torn ≠ .nothing := Left.after_torn_ne _ (by decide)
  have hnone : loaded .nothing [torn, .append paidLine] = [] := by
    change intact [(paidLine, Left.nothing.after torn)] ++ [] = []
    rw [intact_cons_lost [] hleft]
    rfl
  have hload := h [torn, .append paidLine]
  rw [Survives, JsonlJournal.load, ← List.nil_append (decodeUtf8 0 _), hfound, hnone] at hload
  cases hload

end Veto.Watcher

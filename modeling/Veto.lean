import Veto.Foundation.Result
import Veto.Foundation.MachineInt
import Veto.Foundation.Run
import Veto.Foundation.Ring
import Veto.Chain
import Veto.Mandate.State
import Veto.Mandate.Instructions
import Veto.Mandate.Step
import Veto.Mandate.Run
import Veto.Mandate.Charge
import Veto.Mandate.Exit
import Veto.Foundation.HourWindow
import Veto.RollingWindow
import Veto.Hold.State
import Veto.Hold.Instructions
import Veto.Hold.Step
import Veto.Hold.History
import Veto.Hold.Window
import Veto.Hold.Lifecycle
import Veto.Hold.Change
import Veto.Hold.Known
import Veto.Hold.Freeze
import Veto.Hold.StolenKey
import Veto.Hold.LoneOwner
import Veto.Trade.Floor
import Veto.Trade.State
import Veto.Trade.Instructions
import Veto.Trade.Step
import Veto.Trade.Run
import Veto.Trade.Window
import Veto.Logs.Trace
import Veto.System.Delegates
import Veto.Ledger.Agreement
import Veto.Watcher.Attribution
import Veto.Watcher.Payments
import Veto.Service.Grade
import Veto.Service.Records
import Veto.Service.Gapless
import Veto.Service.OrderFree
import Veto.Hold.Outlook
import Veto.Watcher.HoldScans
import Veto.Trade.Quote
import Veto.System.Overrides
import Veto.System.TradeExit
import Veto.System.Accounts
import Veto.Watcher.Confirm
import Veto.Sdk.Read
import Veto.App.LedgerRows
import Veto.Watcher.Precedence
import Veto.Watcher.Price
import Veto.Watcher.Due
import Veto.Watcher.OneCharge
import Veto.Indexer.Bodies
import Veto.App.Eviction
import Veto.Sdk.TradeRequest
import Veto.App.RuleRequest
import Veto.Watcher.JournalFile
import Veto.App.TradePool
import Veto.App.HoldAlertPlan
import Veto.App.DecisionId
import Veto.App.Notify
import Veto.App.AllowOnceExact
import Veto.App.ReadBack
import Veto.App.GuardOnce
import Veto.App.QuietOnce
import Veto.App.AdvisoryRow
import Veto.Hold.ShareCap
import Veto.RollingExact
import Veto.Watcher.HoldCadence
import Veto.Watcher.FeedWindows
import Veto.App.ExportRecord

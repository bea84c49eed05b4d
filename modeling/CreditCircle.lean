import CreditCircle.AccountNumber.Basic
import CreditCircle.AccountNumber.Luhn
import CreditCircle.Delivery
import CreditCircle.Json.Reader
import CreditCircle.Json.Records
import CreditCircle.Json.Writer
import CreditCircle.Ledger.Lookup
import CreditCircle.Ledger.Transfers
import CreditCircle.Main
import CreditCircle.Proofs.Acceptance
import CreditCircle.Proofs.AnyChance
import CreditCircle.Proofs.Chronicle
import CreditCircle.Proofs.ColumnOrder
import CreditCircle.Proofs.CommandGrammar
import CreditCircle.Proofs.Conservation
import CreditCircle.Proofs.Crowd
import CreditCircle.Proofs.DraftChanges
import CreditCircle.Proofs.Drafts
import CreditCircle.Proofs.Effects
import CreditCircle.Proofs.FastPath
import CreditCircle.Proofs.Independence
import CreditCircle.Proofs.JournalForm
import CreditCircle.Proofs.JsonRecords
import CreditCircle.Proofs.Lifecycle
import CreditCircle.Proofs.LimitCommands
import CreditCircle.Proofs.Misprints
import CreditCircle.Proofs.Pieces
import CreditCircle.Proofs.ReportRoundTrip
import CreditCircle.Proofs.RowLines
import CreditCircle.Proofs.SearchPages
import CreditCircle.Proofs.Serial
import CreditCircle.Proofs.Settlement
import CreditCircle.Proofs.SkippedRows
import CreditCircle.Proofs.StableRows
import CreditCircle.Proofs.TightRoom
import CreditCircle.Proofs.Transferable
import CreditCircle.Proofs.UniqueKeys
import CreditCircle.Proofs.WrittenScripts
import CreditCircle.Script.Run

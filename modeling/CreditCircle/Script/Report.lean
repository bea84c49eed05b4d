/-
  The balance report.

  One line for every alias, in the order of the aliases: the balance and the two bounds of the
  account, in cents.

  * `BalanceRow`, `Replay.balances`: what is reported.
  * `reportBytes`: the report as a table.
  * `writeReport`: the report on an output that may be too small for it.
-/
import CreditCircle.Csv.Writer
import CreditCircle.Script.Replay

namespace CreditCircle.Script

open Text

/-- One line of the report. -/
structure BalanceRow where
  entity : String
  balance : Decimal
  maxPos : Decimal
  maxNeg : Decimal
  deriving DecidableEq

namespace Replay

/-- The aliases and their accounts, in the order of the aliases. -/
def aliases (r : Replay) : List (String × AccountNumber) :=
  r.accounts.entries.mergeSort fun a b => decide (a.1 ≤ b.1)

/-- The line of one account. -/
def balanceOf (l : Ledger) (entity : String) (number : AccountNumber) :
    Except LedgerError BalanceRow := do
  let account ← l.accountByNumber number
  let limit ← l.limitFor number
  return ⟨entity, account.balance, limit.maxPos, limit.maxNeg⟩

/-- The lines of all accounts. -/
def balances (r : Replay) : Except ReplayError (List BalanceRow) :=
  (r.aliases.mapM fun (entity, number) => balanceOf r.ledger entity number).mapError .ledger

end Replay

/-! ## The table -/

/-- The names of the columns. -/
def reportHeader : List String := ["entity", "balance", "max_pos_bal", "max_neg_bal"]

/-- The fields of a line. -/
def BalanceRow.fields (row : BalanceRow) : List String :=
  [row.entity, row.balance.cents, row.maxPos.cents, row.maxNeg.cents]

/-- The bytes of texts. -/
def fieldBytes (fields : List String) : List (List UInt8) :=
  fields.map fun field => Utf8.encode field.toList

/-- The report. -/
def reportBytes (rows : List BalanceRow) : List UInt8 :=
  (reportHeader :: rows.map BalanceRow.fields).flatMap fun fields =>
    Csv.writeRecord (fieldBytes fields)

/-- The part of a report that an output was too small for. -/
inductive OutputFault where
  | header
  | record
  | flush
  deriving DecidableEq

/-- The wording of a fault. -/
def OutputFault.message : OutputFault → String
  | header => "Failed to write CSV header: disk full"
  | record => "Failed to write balance record: disk full"
  | flush => "Failed to flush output: disk full"

/-- A step of writing. -/
def orFault {α : Type} (fault : OutputFault) : Option α → Except OutputFault α
  | some a => .ok a
  | none => .error fault

/-- Sends a report to an output that takes `room` bytes at most, or any number of them. -/
def sendReport (room : Option Nat) (rows : List BalanceRow) : Except OutputFault Unit := do
  let stream : Csv.Stream := { room }
  let stream ← orFault .header (stream.putRecord (fieldBytes reportHeader))
  let stream ← rows.foldlM
    (fun stream row => orFault .record (stream.putRecord (fieldBytes row.fields))) stream
  let _ ← orFault .flush stream.flush

/-- The report, if the output takes it. -/
def writeReport (room : Option Nat) (rows : List BalanceRow) : Except ReplayError (List UInt8) :=
  match sendReport room rows with
  | .ok () => .ok (reportBytes rows)
  | .error fault => .error (.output fault.message)

end CreditCircle.Script

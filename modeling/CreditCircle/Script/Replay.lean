/-
  Replaying a script.

  A script names accounts by aliases and transfers by labels; a replay keeps both next to the
  ledger.  A row that cannot be read, or that the ledger refuses, is skipped and reported with
  its line; only a script without a proper header is refused as a whole.

  * `Replay`: the ledger with the two tables of names.
  * `Replay.apply`: carries out one command.
  * `Replay.process`: carries out a whole script; `Summary` says what came of its rows.
-/
import CreditCircle.Ledger.Lookup
import CreditCircle.Ledger.Transfers
import CreditCircle.Script.Command

namespace CreditCircle.Script

/-! ## Errors -/

/-- Why a command, a row or a script fails. -/
inductive ReplayError where
  | unopened (path reason : String)
  | missingColumn (column : Column)
  | table (fault : TableFault)
  | record (fault : RecordFault)
  | negativeBound (entity : String)
  | unknownEntity (entity : String)
  | duplicateEntity (entity : String)
  | unknownTransfer (label : String)
  | duplicateTransfer (label : String)
  | ledger (error : LedgerError)
  | output (reason : String)
  deriving DecidableEq

/-- The wording of an error. -/
def ReplayError.message : ReplayError → String
  | unopened path reason => s!"Failed to open file '{path}': {reason}"
  | missingColumn column => s!"Malformed header: missing column '{column.name}'"
  | table fault => fault.message
  | record fault => fault.message
  | negativeBound entity => s!"limits for '{entity}' must not be negative"
  | unknownEntity entity => s!"Unknown entity '{entity}'"
  | duplicateEntity entity => s!"Entity '{entity}' already has an account"
  | unknownTransfer label => s!"Unknown transfer '{label}'"
  | duplicateTransfer label => s!"Transfer label '{label}' is already in use"
  | ledger error => error.message
  | output reason => s!"Failed to write output: {reason}"

/-! ## State -/

/-- A ledger whose accounts and transfers have names. -/
structure Replay where
  ledger : Ledger
  /-- The account behind each alias. -/
  accounts : Table String AccountNumber
  /-- The transfer behind each label. -/
  transfers : Table String TransferId

namespace Replay

/-- A replay on a ledger, before anything has been named. -/
def start (l : Ledger) : Replay := ⟨l, .empty, .empty⟩

/-- The account behind an alias. -/
def account (r : Replay) (name : String) : Except ReplayError AccountNumber :=
  match r.accounts.get? name with
  | some number => .ok number
  | none => .error (.unknownEntity name)

/-- The transfer behind a label. -/
def transfer (r : Replay) (label : String) : Except ReplayError TransferId :=
  match r.transfers.get? label with
  | some transfer => .ok transfer
  | none => .error (.unknownTransfer label)

/-- The replay with one more label; a transfer without a label is not remembered. -/
def remember (r : Replay) (label : String) (transfer : TransferId) : Replay :=
  if label = "" then r else { r with transfers := r.transfers.put label transfer }

/-! ## Commands -/

/-- What a command comes to: a value or a failure, and the replay after it. -/
abbrev Outcome (α : Type) := Except (Failure ReplayError) α × Replay

/-- Carries out an operation of the ledger and goes on with its result. -/
def operate {α β : Type} (r : Replay) (p : Program α) (next : α → Replay → Outcome β) :
    Outcome β :=
  let (result, ledger) := r.ledger.run p
  let r := { r with ledger }
  match result with
  | .ok a => next a r
  | .error failure => (.error (failure.map .ledger), r)

/-- Looks something up and goes on with it. -/
def given {α β : Type} (r : Replay) (found : Except ReplayError α) (next : α → Outcome β) :
    Outcome β :=
  match found with
  | .ok a => next a
  | .error e => (.error (.refused e), r)

/-- Nothing is left to do. -/
def finished (r : Replay) : Outcome Unit := (.ok (), r)

/-- Replaces the bounds that are given. -/
def changeLimits (r : Replay) (number : AccountNumber) (maxPos maxNeg : Option Decimal)
    (now : Timestamp) : Outcome Unit :=
  r.given ((r.ledger.limitFor number).mapError .ledger) fun current =>
    r.operate (Program.updateLimits number (maxPos.getD current.maxPos)
      (maxNeg.getD current.maxNeg) now) fun _ r => r.finished

/-- The request behind a command whose label has to be new. -/
def requestFor (r : Replay) (label sender receiver : String) (amount : Decimal)
    (initiator : Initiator) : Except ReplayError TransferRequest := do
  if r.transfers.has label then throw (.duplicateTransfer label)
  let sender ← r.account sender
  let receiver ← r.account receiver
  return match initiator with
    | .sender => .send sender receiver amount
    | .receiver => .request sender receiver amount

/-- Opens an account under an alias and sets the bounds that are given. -/
def openEntity (rules : Rules) (r : Replay) (chance : Chance) (entity : String)
    (maxPos maxNeg : Option Decimal) : Outcome Unit :=
  if r.accounts.has entity then (.error (.refused (.duplicateEntity entity)), r)
  else if maxPos.any (· < 0) || maxNeg.any (· < 0) then
    (.error (.refused (.negativeBound entity)), r)
  else
    r.operate (Program.openAccount rules.limits chance.entity chance) fun account r =>
      let r := { r with accounts := r.accounts.put entity account.number }
      if maxPos.isSome || maxNeg.isSome then
        r.changeLimits account.number maxPos maxNeg (chance.clock (2 * numberAttempts))
      else r.finished

/-- Carries out one command. -/
def apply (rules : Rules) (r : Replay) (chance : Chance) : Command → Outcome Unit
  | .open entity maxPos maxNeg => openEntity rules r chance entity maxPos maxNeg
  | .limits entity maxPos maxNeg =>
    r.given (r.account entity) fun number =>
      r.changeLimits number maxPos maxNeg (chance.clock 0)
  | .propose label sender receiver amount initiator description =>
    r.given (r.requestFor label sender receiver amount initiator) fun request =>
      r.operate (Program.propose rules { request with description } chance) fun journal r =>
        (r.remember label journal.transfer).finished
  | .transfer label sender receiver amount description =>
    r.given (r.requestFor label sender receiver amount .sender) fun request =>
      r.operate (Program.transferNow rules { request with description } chance) fun journal r =>
        (r.remember label journal.transfer).finished
  | .accept label =>
    r.given (r.transfer label) fun transfer =>
      r.operate (Program.accept transfer chance.clock) fun _ r => r.finished
  | .reject label reason =>
    r.given (r.transfer label) fun transfer =>
      r.operate (Program.reject transfer reason (chance.clock 0)) fun _ r => r.finished
  | .cancel label reason =>
    r.given (r.transfer label) fun transfer =>
      r.operate (Program.cancel transfer reason (chance.clock 0)) fun _ r => r.finished

/-! ## Scripts -/

/-- A row that was not carried out. -/
structure Skipped where
  /-- The row counted from the header, which is the first. -/
  line : Nat
  error : ReplayError
  deriving DecidableEq

/-- What came of the rows of a script. -/
structure Summary where
  applied : Nat := 0
  /-- In the order of the script. -/
  skipped : List Skipped := []
  deriving DecidableEq

/-- The command of a row. -/
def commandOf (columns : List (Option Column)) (row : Csv.Row) : Except ReplayError Command := do
  let record ← (readRow columns row).mapError .table
  (Command.ofRecord record).mapError .record

/-- Carries out one row. -/
def applyRow (rules : Rules) (columns : List (Option Column)) (r : Replay) (chance : Chance)
    (row : Csv.Row) : Outcome Unit :=
  r.given (commandOf columns row) (r.apply rules chance)

/-- Carries out the rows of a script, of which the first has the number `index`; `chances` gives
    each row what it draws.  Only an overflow stops the replay. -/
def applyRows (rules : Rules) (columns : List (Option Column)) (chances : Nat → Chance) :
    (index : Nat) → Summary → Replay → List Csv.Row → Except (Failure ReplayError) Summary × Replay
  | _, summary, r, [] => (.ok { summary with skipped := summary.skipped.reverse }, r)
  | index, summary, r, row :: rows =>
    match applyRow rules columns r (chances index) row with
    | (.ok (), r) =>
      applyRows rules columns chances (index + 1) { summary with applied := summary.applied + 1 }
        r rows
    | (.error (.refused error), r) =>
      let skipped := ⟨index + 2, error⟩ :: summary.skipped
      applyRows rules columns chances (index + 1) { summary with skipped } r rows
    | (.error failure, r) => (.error failure, r)

/-- The columns that every script has to have. -/
def requiredColumns : List Column := [.op, .ref]

/-- The columns of a script. -/
def columnsOf (rows : List Csv.Row) : Except ReplayError (List (Option Column)) := do
  let names ← match rows with
    | [] => pure []
    | header :: _ => (headerNames header).mapError .table
  match requiredColumns.find? fun c => c.name ∉ names with
  | some column => throw (.missingColumn column)
  | none => return names.map Column.ofName?

/-- Carries out a script. -/
def process (r : Replay) (rules : Rules) (chances : Nat → Chance) (script : List UInt8) :
    Except (Failure ReplayError) Summary × Replay :=
  let rows := Csv.records script
  match columnsOf rows with
  | .error e => (.error (.refused e), r)
  | .ok columns => applyRows rules columns chances 0 {} r rows.tail

end Replay
end CreditCircle.Script

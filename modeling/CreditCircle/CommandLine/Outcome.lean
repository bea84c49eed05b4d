/-
  What the program does.

  It replays the script of a file and writes the balance report.  Skipped rows and delivered
  events go to the log, and what stops the program goes to the error output.

  * `Outcome`: exit code, output, errors and log.
  * `outcome`: the outcome for some arguments, given what is found at each path.
-/
import CreditCircle.CommandLine.Arguments
import CreditCircle.Delivery
import CreditCircle.Json.Writer
import CreditCircle.Script.Run

namespace CreditCircle.CommandLine

open Script

/-! ## Outcomes -/

/-- What a run of the program leaves behind. -/
structure Outcome where
  code : Nat
  output : List UInt8 := []
  /-- The messages of errors. -/
  errors : List String := []
  log : List LogRecord := []

/-- A line of the error output. -/
def errorLine (message : String) : String := "Error: " ++ message

/-! ## Usage -/

/-- How the program is used. -/
def usage : String :=
  "Usage: mutual-credit [--max-pos-bal AMOUNT] [--max-neg-bal AMOUNT] " ++
    "[--log-format json|pretty] INPUT"

/-- The wording of a usage error. -/
def UsageError.message : UsageError → String
  | missingInput => "the argument INPUT is missing"
  | unknownArgument argument => s!"unexpected argument '{argument}'"
  | invalidValue argument value => s!"invalid value '{value}' for '{argument}'"
  | invalidDecimal argument value => s!"'{value}' for '{argument}' is no decimal"
  | repeated argument => s!"the argument '{argument}' cannot be used multiple times"
  | unexpectedValue argument => s!"unexpected value for '{argument}'"
  | help => usage

/-! ## The log -/

/-- The log line of a skipped row. -/
def skippedRecord (row : Replay.Skipped) : LogRecord :=
  ⟨"skipping replay row", [("line", toString row.line), ("error", row.error.message)]⟩

/-- A log line in one of the two forms. -/
def renderRecord (format : LogFormat) (r : LogRecord) : String :=
  match format with
  | .json =>
    (Json.record (("message", .string r.message) :: r.fields.map fun f => (f.1, .string f.2))).render
  | .pretty => r.fields.foldl (fun s f => s ++ s!" {f.1}={f.2}") r.message

/-! ## The program -/

/-- What stopped a replay. -/
def failureMessage : Failure ReplayError → String
  | .refused e => e.message
  | .crashed overflow => overflow.message
  | .blocked => "waiting for a row that is never given back"

/-- Replays the script that the arguments ask for. -/
def replay (limits : DefaultLimits) (input : String) (chances : Nat → Chance)
    (sourceAt : String → Source) : Outcome :=
  let (result, r) := Replay.run (Rules.open limits) chances input (sourceAt input) none
  let delivered := (deliver .log r.ledger.events).log
  match result with
  | .ok (summary, report) =>
    { code := 0, output := report, log := summary.skipped.map skippedRecord ++ delivered }
  | .error failure =>
    { code := 1, errors := [errorLine (failureMessage failure)], log := delivered }

/-- The outcome of the program. -/
def outcome (args : List String) (chances : Nat → Chance) (sourceAt : String → Source) :
    Outcome :=
  match Arguments.parse args with
  | .error .help => { code := 0, output := Text.Utf8.encode (usage ++ "\n").toList }
  | .error e => { code := 2, errors := ["error: " ++ e.message, usage] }
  | .ok arguments =>
    match arguments.limits with
    | .error fault => { code := 1, errors := [errorLine fault.message] }
    | .ok limits => replay limits arguments.input chances sourceAt

end CreditCircle.CommandLine

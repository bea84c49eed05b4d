/-
  Command line arguments.

  There is one input and three options with a value, which follows the option as the next
  argument or behind an equals sign.  Behind `--` nothing is an option.

  * `Arguments`: what is asked for.
  * `UsageError`: why arguments cannot be used.
  * `Parsing`: the arguments read so far.  A value is looked at only when something follows it
    or the arguments end, so that an unknown argument behind it is reported first.
  * `Arguments.parse`: all arguments.
-/
import CreditCircle.BalanceLimit
import CreditCircle.Decimal.Reading

namespace CreditCircle.CommandLine

/-! ## Results -/

/-- The form of log lines. -/
inductive LogFormat where
  | json
  | pretty
  deriving DecidableEq

/-- The format of a name; case matters. -/
def LogFormat.ofName? (s : String) : Option LogFormat :=
  if s = "json" then some .json else if s = "pretty" then some .pretty else none

/-- What is asked for. -/
structure Arguments where
  input : String
  maxPos : Decimal
  maxNeg : Decimal
  logFormat : LogFormat
  deriving DecidableEq

/-- The limits of new accounts that are asked for. -/
def Arguments.limits (a : Arguments) : Except DefaultLimits.Fault DefaultLimits :=
  DefaultLimits.ofBounds a.maxPos a.maxNeg

/-- Why arguments cannot be used. -/
inductive UsageError where
  /-- There is no input. -/
  | missingInput
  | unknownArgument (argument : String)
  /-- A value is missing, empty, or none of those that are possible. -/
  | invalidValue (argument value : String)
  /-- A value is no decimal. -/
  | invalidDecimal (argument value : String)
  /-- An option is given twice. -/
  | repeated (argument : String)
  /-- A flag is given a value. -/
  | unexpectedValue (argument : String)
  /-- It is only asked how the program is used. -/
  | help
  deriving DecidableEq

/-! ## Options -/

/-- An option with a value. -/
inductive Flag where
  | maxPos
  | maxNeg
  | logFormat
  deriving DecidableEq

namespace Flag

/-- The name of an option. -/
def name : Flag → String
  | maxPos => "max-pos-bal"
  | maxNeg => "max-neg-bal"
  | logFormat => "log-format"

/-- The option of a name. -/
def ofName? (s : String) : Option Flag := [maxPos, maxNeg, logFormat].find? fun f => f.name = s

/-- An option as it is written. -/
def text (f : Flag) : String := "--" ++ f.name

end Flag

/-! ## Arguments one by one -/

/-- The forms of an argument. -/
inductive Form where
  /-- Two hyphens: no options follow. -/
  | separator
  | long (name : String) (value : Option String)
  /-- One hyphen and letters. -/
  | short (letters : List Char)
  | plain

/-- The form of an argument.  A single hyphen is a value like any other. -/
def Form.of (s : String) : Form :=
  match s.toList with
  | ['-', '-'] => .separator
  | '-' :: '-' :: cs =>
    match cs.span (· != '=') with
    | (name, []) => .long (String.ofList name) none
    | (name, _ :: value) => .long (String.ofList name) (some (String.ofList value))
  | ['-'] => .plain
  | '-' :: cs => .short cs
  | _ => .plain

/-- Something whose value has not been looked at. -/
inductive Pending where
  | option (flag : Flag) (value : Option String)
  | input (value : String)

/-- The arguments read so far. -/
structure Parsing where
  pending : Option Pending := none
  /-- Two hyphens have been read. -/
  plainOnly : Bool := false
  /-- The input has been read. -/
  inputRead : Bool := false
  input : Option String := none
  maxPos : Option Decimal := none
  maxNeg : Option Decimal := none
  logFormat : Option LogFormat := none

namespace Parsing

/-- Sets an option that must not be set yet. -/
def unset {α : Type} (flag : Flag) (old : Option α) : Except UsageError Unit :=
  if old.isSome then .error (.repeated flag.text) else .ok ()

/-- The decimal that an option is given. -/
def decimal (flag : Flag) (value : String) : Except UsageError Decimal :=
  match Decimal.ofString? value with
  | some d => .ok d
  | none => .error (.invalidDecimal flag.text value)

/-- Gives an option its value. -/
def setOption (p : Parsing) (flag : Flag) : (value : Option String) → Except UsageError Parsing
  | none => .error (.invalidValue flag.text "")
  | some value =>
    match flag with
    | .maxPos => do
      unset flag p.maxPos
      return { p with maxPos := some (← decimal flag value) }
    | .maxNeg => do
      unset flag p.maxNeg
      return { p with maxNeg := some (← decimal flag value) }
    | .logFormat => do
      unset flag p.logFormat
      match LogFormat.ofName? value with
      | some format => return { p with logFormat := some format }
      | none => throw (.invalidValue flag.text value)

/-- Looks at the value that has been waiting. -/
def settle (p : Parsing) : Except UsageError Parsing :=
  match p.pending with
  | none => .ok p
  | some (.option flag value) => setOption { p with pending := none } flag value
  | some (.input value) =>
    if value = "" then .error (.invalidValue "INPUT" value)
    else .ok { p with pending := none, input := some value }

/-- Takes an argument that is no option as the input. -/
def takeInput (p : Parsing) (s : String) : Except UsageError Parsing :=
  if p.inputRead then .error (.unknownArgument s)
  else do
    let p ← p.settle
    return { p with pending := some (.input s), inputRead := true }

/-- Takes an argument that is no option as a value, if an option waits for one. -/
def takePlain (p : Parsing) (s : String) : Except UsageError Parsing :=
  match p.pending with
  | some (.option flag none) => .ok { p with pending := some (.option flag (some s)) }
  | _ => p.takeInput s

/-- Takes an option. -/
def takeLong (p : Parsing) (name : String) (value : Option String) :
    Except UsageError Parsing :=
  match Flag.ofName? name, value with
  | some flag, some _ => do setOption (← p.settle) flag value
  | some flag, none => do return { ← p.settle with pending := some (.option flag none) }
  | none, _ =>
    if name ≠ "help" then .error (.unknownArgument ("--" ++ name))
    else if value.isSome then .error (.unexpectedValue "--help")
    else do
      let _ ← p.settle
      throw .help

/-- Takes letters behind a hyphen, of which only the question for help is known. -/
def takeShort (p : Parsing) (letters : List Char) : Except UsageError Parsing :=
  if letters.head? = some 'h' then do
    let _ ← p.settle
    throw .help
  else .error (.unknownArgument (String.ofList ('-' :: letters)))

/-- Takes one argument. -/
def take (p : Parsing) (s : String) : Except UsageError Parsing :=
  if p.plainOnly then p.takeInput s
  else
    match Form.of s with
    | .separator => .ok { p with plainOnly := true }
    | .long name value => p.takeLong name value
    | .short letters => p.takeShort letters
    | .plain => p.takePlain s

/-- The arguments have ended. -/
def finish (p : Parsing) : Except UsageError Arguments := do
  let p ← p.settle
  match p.input with
  | none => throw .missingInput
  | some input =>
    return {
      input
      maxPos := p.maxPos.getD DefaultLimits.standard.maxPos
      maxNeg := p.maxNeg.getD DefaultLimits.standard.maxNeg
      logFormat := p.logFormat.getD .json }

end Parsing

/-- Reads the arguments of the program. -/
def Arguments.parse (args : List String) : Except UsageError Arguments := do
  (← args.foldlM Parsing.take {}).finish

end CreditCircle.CommandLine

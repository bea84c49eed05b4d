/-
  The program.

  It only reads the arguments, files, clock and random bytes and writes what
  `CommandLine.outcome` says.
-/
import CreditCircle.CommandLine.Outcome

namespace CreditCircle.Main

open CommandLine Script

/-- Why a file cannot be opened or read.  An error without a path comes from reading. -/
def fileError : IO.Error → FileError
  | .noFileOrDirectory .. => .notFound
  | .permissionDenied .. => .accessDenied
  | .inappropriateType (some _) .. => .notDirectory
  | .inappropriateType none .. => .isDirectory
  | .invalidArgument _ 22 _ => .nulInName
  | .invalidArgument .. => .nameTooLong
  | e => .other (toString e)

/-- What is found at a path. -/
def sourceAt (path : String) : IO Source := do
  try
    return .file (← IO.FS.readBinFile path).toList
  catch e =>
    match fileError e with
    | .isDirectory => return .unreadable .isDirectory
    | reason => return .unopened reason

/-- The draws of an operation, spread evenly from a random seed. -/
def chance (seed now row : Nat) : Chance where
  entity := ⟨.ofNat (seed + 2 * row)⟩
  numbers attempt := (seed + (8 * row + attempt + 1) * 0x9E3779B97F4A7C15F39CC0605CEDC835) % 2 ^ 128
  transfer := ⟨.ofNat (seed + 2 * row + 1)⟩
  clock _ := .ofMillis now

/-- The natural number that some bytes write. -/
def natOfBytes (bs : ByteArray) : Nat := bs.toList.foldl (fun n b => 256 * n + b.toNat) 0

/-- Reads the file that the arguments name, if they name one. -/
def sourceFor (args : List String) : IO (String → Source) := do
  match Arguments.parse args with
  | .ok arguments =>
    let source ← sourceAt arguments.input
    return fun _ => source
  | .error _ => return fun _ => .file []

/-- The form of the log that the arguments ask for. -/
def logFormat (args : List String) : LogFormat :=
  match Arguments.parse args with
  | .ok arguments => arguments.logFormat
  | .error _ => .json

/-- Runs the program and returns its exit code. -/
def run (args : List String) : IO UInt32 := do
  let source ← sourceFor args
  let seed := natOfBytes (← IO.getRandomBytes 16)
  let now ← IO.monoMsNow
  let result := outcome args (chance seed now) source
  let err ← IO.getStderr
  for line in result.log do
    err.putStrLn (renderRecord (logFormat args) line)
  let out ← IO.getStdout
  out.write ⟨result.output.toArray⟩
  out.flush
  for line in result.errors do
    err.putStrLn line
  return UInt32.ofNat result.code

end CreditCircle.Main

/-- Runs the program. -/
def main (args : List String) : IO UInt32 := CreditCircle.Main.run args

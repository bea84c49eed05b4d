/-
  Running the script of a file.

  The script at a path is replayed on a new ledger, and the report goes to an output.  Nothing
  is written if the script as a whole is refused.

  * `Source`: what is found at a path, as in a tree of files.
  * `Replay.run`: the summary and the report, or why there is none.
-/
import CreditCircle.Files
import CreditCircle.Script.Report

namespace CreditCircle.Script

/-- What is found at a path. -/
inductive Source where
  | file (bytes : List UInt8)
  /-- It cannot be opened. -/
  | unopened (reason : FileError)
  /-- It can be opened but not read, as a directory. -/
  | unreadable (reason : FileError)

namespace Source

/-- What is found at a path in a tree of files.  A directory can be opened. -/
def find (root : FileTree) (home : List String) (path : String) : Source :=
  match root.find home path with
  | .ok (.file bytes) => file bytes
  | .ok (.directory _) => unreadable .isDirectory
  | .error reason => unopened reason

/-- The bytes of a script. -/
def bytes (path : String) : Source → Except ReplayError (List UInt8)
  | file bytes => .ok bytes
  | unopened reason => .error (.unopened path reason.message)
  | unreadable reason => .error (.table (.unreadable reason.message))

end Source

namespace Replay

/-- Replays a script and sends the report to an output that takes `room` bytes, or any number
    of them. -/
def run (rules : Rules) (chances : Nat → Chance) (path : String) (source : Source)
    (room : Option Nat) : Except (Failure ReplayError) (Summary × List UInt8) × Replay :=
  let r := start .empty
  match source.bytes path with
  | .error e => (.error (.refused e), r)
  | .ok script =>
    match r.process rules chances script with
    | (.error e, r) => (.error e, r)
    | (.ok summary, r) =>
      match r.balances.bind (writeReport room) with
      | .ok report => (.ok (summary, report), r)
      | .error e => (.error (.refused e), r)

end Replay
end CreditCircle.Script

/-
  The commands of a script.

  A record names an operation and gives it what it needs; which columns that are depends on
  the operation.  Nothing is looked up here: whether an alias or a label is known shows later.

  * `Operation`: the operations by name.
  * `Command`: an operation with everything it needs.
  * `Command.ofRecord`: the command of a record, or what is missing.
-/
import CreditCircle.Decimal.Reading
import CreditCircle.Script.Record

namespace CreditCircle.Script

open Text

/-! ## Operations -/

/-- What a row asks for. -/
inductive Operation where
  | open
  | limits
  | send
  | request
  | transfer
  | accept
  | reject
  | cancel
  deriving DecidableEq

namespace Operation

/-- The name of an operation. -/
def name : Operation → String
  | .open => "open"
  | .limits => "limits"
  | .send => "send"
  | .request => "request"
  | .transfer => "transfer"
  | .accept => "accept"
  | .reject => "reject"
  | .cancel => "cancel"

/-- All operations. -/
def all : List Operation :=
  [.open, .limits, .send, .request, .transfer, .accept, .reject, .cancel]

/-- The operation of a name, blanks around it and the case of its letters aside.  The case of
    ASCII letters decides: no other character has a letter of these names as its lower case. -/
def ofText? (s : String) : Option Operation :=
  let word := (trim s.toList).map Char.toLower
  all.find? fun o => o.name.toList = word

end Operation

/-! ## Commands -/

/-- Which side asks for a pending transfer. -/
inductive Initiator where
  | sender
  | receiver
  deriving DecidableEq

/-- An operation with everything it needs. -/
inductive Command where
  | open (entity : String) (maxPos maxNeg : Option Decimal)
  | limits (entity : String) (maxPos maxNeg : Option Decimal)
  | propose (label sender receiver : String) (amount : Decimal) (initiator : Initiator)
      (description : String)
  | transfer (label sender receiver : String) (amount : Decimal) (description : String)
  | accept (label : String)
  | reject (label reason : String)
  | cancel (label reason : String)
  deriving DecidableEq

/-! ## Conversion -/

/-- Why a record is no command. -/
inductive RecordFault where
  | unknownOperation (text : String)
  | missingField (op : Operation) (column : Column)
  | noBound (entity : String)
  | missingAmount (op : Operation)
  | badDecimal (column : Column) (text : String)
  deriving DecidableEq

/-- The wording of a fault. -/
def RecordFault.message : RecordFault → String
  | unknownOperation text => s!"Invalid operation: '{text}'"
  | missingField op column => s!"{op.name} requires a value in column '{column.name}'"
  | noBound entity => s!"limits for '{entity}' requires max_pos, max_neg or both"
  | missingAmount op => s!"{op.name} requires an amount"
  | badDecimal column text => s!"Invalid {column.name} '{text}'"

namespace Record

variable (r : Record)

/-- A field that is not blank, without the blanks around it. -/
def present (field : Option String) : Option String :=
  (field.map strip).filter (· ≠ "")

/-- A text that must not be empty. -/
def required (op : Operation) (column : Column) (text : String) : Except RecordFault String :=
  if text = "" then .error (.missingField op column) else .ok text

/-- A field that may hold a decimal. -/
def decimal (column : Column) (field : Option String) : Except RecordFault (Option Decimal) :=
  match present field with
  | none => .ok none
  | some text =>
    match Decimal.ofString? text with
    | some d => .ok (some d)
    | none => .error (.badDecimal column text)

/-- The note, empty if there is none. -/
def noteText : String := (present r.note).getD ""

/-- The alias or label that the operation cannot do without. -/
def reference (op : Operation) : Except RecordFault String := required op .ref (strip r.ref)

/-- The two bounds of an account. -/
def bounds : Except RecordFault (Option Decimal × Option Decimal) := do
  return (← decimal .maxPos r.maxPos, ← decimal .maxNeg r.maxNeg)

/-- Who pays whom and how much. -/
def movement (op : Operation) : Except RecordFault (String × String × Decimal) := do
  let sender ← required op .sender ((present r.sender).getD "")
  let receiver ← required op .receiver ((present r.receiver).getD "")
  match ← decimal .amount r.amount with
  | some amount => return (sender, receiver, amount)
  | none => throw (.missingAmount op)

end Record

namespace Command

/-- The command of a record whose operation is known. -/
def ofOperation (r : Record) : Operation → Except RecordFault Command
  | .open => do
    let entity ← r.reference .open
    let (maxPos, maxNeg) ← r.bounds
    return .open entity maxPos maxNeg
  | .limits => do
    let entity ← r.reference .limits
    let (maxPos, maxNeg) ← r.bounds
    if maxPos.isNone && maxNeg.isNone then throw (.noBound entity)
    return .limits entity maxPos maxNeg
  | .send => do
    let (sender, receiver, amount) ← r.movement .send
    return .propose (strip r.ref) sender receiver amount .sender r.noteText
  | .request => do
    let (sender, receiver, amount) ← r.movement .request
    return .propose (strip r.ref) sender receiver amount .receiver r.noteText
  | .transfer => do
    let (sender, receiver, amount) ← r.movement .transfer
    return .transfer (strip r.ref) sender receiver amount r.noteText
  | .accept => do return .accept (← r.reference .accept)
  | .reject => do return .reject (← r.reference .reject) r.noteText
  | .cancel => do return .cancel (← r.reference .cancel) r.noteText

/-- The command of a record. -/
def ofRecord (r : Record) : Except RecordFault Command :=
  match Operation.ofText? r.op with
  | some op => ofOperation r op
  | none => .error (.unknownOperation r.op)

end Command
end CreditCircle.Script

/-
  The rows of a script.

  A script is a table.  Its header names the columns, in any order; a column that is not known
  is ignored.  Blanks around names and fields do not count.

  * `Column`: the known columns.
  * `Record`: one row by columns.
  * `header`: the columns of a script; `readRow`: a row under a header.
  * `TableFault`: why a row cannot be read, with its wording.
-/
import CreditCircle.Csv.Reader
import CreditCircle.Text.Blank
import CreditCircle.Text.Digits
import CreditCircle.Text.Utf8

namespace CreditCircle.Script

open Text

/-! ## Columns -/

/-- A known column. -/
inductive Column where
  | op
  | ref
  | sender
  | receiver
  | amount
  | maxPos
  | maxNeg
  | note
  deriving DecidableEq

namespace Column

/-- The name of a column in a header. -/
def name : Column → String
  | op => "op"
  | ref => "ref"
  | sender => "from"
  | receiver => "to"
  | amount => "amount"
  | maxPos => "max_pos"
  | maxNeg => "max_neg"
  | note => "note"

/-- All columns. -/
def all : List Column := [op, ref, sender, receiver, amount, maxPos, maxNeg, note]

/-- The column of a name. -/
def ofName? (s : String) : Option Column := all.find? fun c => c.name = s

/-- Every script has the columns `op` and `ref`, and every row a field in them. -/
def isRequired (c : Column) : Bool := c == op || c == ref

end Column

/-! ## Records -/

/-- One row; a field that is empty or missing is absent. -/
structure Record where
  op : String := ""
  ref : String := ""
  sender : Option String := none
  receiver : Option String := none
  amount : Option String := none
  maxPos : Option String := none
  maxNeg : Option String := none
  note : Option String := none
  deriving DecidableEq

/-- The record with a field in a column. -/
def Record.set (r : Record) (value : String) : Column → Record
  | .op => { r with op := value }
  | .ref => { r with ref := value }
  | .sender => { r with sender := some value }
  | .receiver => { r with receiver := some value }
  | .amount => { r with amount := some value }
  | .maxPos => { r with maxPos := some value }
  | .maxNeg => { r with maxNeg := some value }
  | .note => { r with note := some value }

/-! ## Faults -/

/-- Why a table or a row of it cannot be read. -/
inductive TableFault where
  /-- The source of the bytes gave out. -/
  | unreadable (reason : String)
  /-- A field is no UTF-8 text from a byte on. -/
  | notText (position : Csv.Position) (field index : Nat)
  /-- The row ends before a column that needs a field. -/
  | endOfRow (position : Csv.Position)
  /-- A column is named twice. -/
  | duplicateColumn (position : Csv.Position) (column : Column)
  deriving DecidableEq

/-- The start of a message about a row under the columns of the header. -/
def rowText (p : Csv.Position) : String :=
  s!"CSV deserialize error: record {p.record} (line: {p.line}, byte: {p.byte})"

/-- The start of a message about the bytes of a row. -/
def bytesText (p : Csv.Position) (field : Nat) : String :=
  s!"CSV parse error: record {p.record} (line {p.line}, field: {field}, byte: {p.byte})"

/-- The wording of a fault. -/
def TableFault.message : TableFault → String
  | unreadable reason => s!"CSV error: {reason}"
  | notText p field index =>
    s!"CSV error: {bytesText p field}: invalid utf-8: " ++
      s!"invalid UTF-8 in field {field} near byte index {index}"
  | endOfRow p => s!"CSV error: {rowText p}: expected field, but got end of row"
  | duplicateColumn p column =>
    s!"CSV error: {rowText p}: duplicate field \x60{column.name}\x60"

/-! ## Reading -/

/-- The texts of some fields, the first of which has the number `index`. -/
def textsFrom (position : Csv.Position) : (index : Nat) → List (List UInt8) →
    Except TableFault (List String)
  | _, [] => .ok []
  | index, field :: fields =>
    match Utf8.decode field with
    | .error i => .error (.notText position index i)
    | .ok cs => (textsFrom position (index + 1) fields).map (String.ofList (trim cs) :: ·)

/-- The names in a header. -/
def headerNames (row : Csv.Row) : Except TableFault (List String) :=
  textsFrom row.position 0 row.fields

/-- The fields of a row.  ASCII blanks are dropped before the bytes are decoded, all others
    after that. -/
def rowTexts (row : Csv.Row) : Except TableFault (List String) :=
  textsFrom row.position 0 (row.fields.map trimBytes)

/-- Puts the fields of a row under the columns of a header.  Fields beyond the last column are
    ignored.  Columns that need no field may also lie beyond the last field. -/
def fill (position : Csv.Position) (done : List Column) (r : Record) :
    List (Option Column) → List String → Except TableFault Record
  | [], _ => .ok r
  | none :: columns, fields =>
    match fields with
    | [] => .error (.endOfRow position)
    | _ :: fields => fill position done r columns fields
  | some c :: columns, fields =>
    if c ∈ done then .error (.duplicateColumn position c)
    else
      match fields with
      | [] =>
        if c.isRequired then .error (.endOfRow position)
        else fill position (c :: done) r columns []
      | field :: fields =>
        let r := if field = "" ∧ !c.isRequired then r else r.set field c
        fill position (c :: done) r columns fields

/-- A row under a header. -/
def readRow (columns : List (Option Column)) (row : Csv.Row) : Except TableFault Record := do
  fill row.position [] {} columns (← rowTexts row)

end CreditCircle.Script

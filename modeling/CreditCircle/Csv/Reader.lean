/-
  Reading tables from bytes.

  Fields are divided by commas, records by a line feed, a carriage return or both.  Lines
  without anything on them are skipped.  A field may stand in quotes, in which a quote is
  written twice; a quote inside a field that does not begin with one is a character like any
  other.  Records may be of any length.

  * `Position`: where a record was looked for, which is where the one before it ended.
  * `Reading`, `Reading.step`: what has been read, and what one more byte adds.
  * `records`: the records of a whole text.
-/

namespace CreditCircle.Csv

/-! ## Bytes -/

def comma : UInt8 := 0x2C
def quote : UInt8 := 0x22
def lineFeed : UInt8 := 0x0A
def carriageReturn : UInt8 := 0x0D

/-- Whether a byte ends a record. -/
def isTerminator (b : UInt8) : Bool := b == lineFeed || b == carriageReturn

/-- The three bytes that may mark a text as UTF-8. -/
def byteOrderMark : List UInt8 := [0xEF, 0xBB, 0xBF]

/-! ## Records -/

/-- A place in a text.  Records and bytes are counted from 0, lines from 1. -/
structure Position where
  record : Nat := 0
  line : Nat := 1
  byte : Nat := 0
  deriving DecidableEq

/-- The fields of one record. -/
structure Row where
  /-- Where the record before ended. -/
  position : Position
  fields : List (List UInt8)
  deriving DecidableEq

/-! ## The reader -/

/-- What the next byte means. -/
inductive State where
  /-- Nothing of a record has been read. -/
  | recordStart
  /-- A comma has been read. -/
  | fieldStart
  /-- Inside a field without quotes, or behind its closing quote. -/
  | inField
  /-- Between quotes. -/
  | inQuotes
  /-- Behind a quote that closes the field, unless another quote follows. -/
  | afterQuote
  /-- Behind a carriage return that ended a record; a line feed belongs to it. -/
  | afterReturn
  deriving DecidableEq

/-- What has been read of a text. -/
structure Reading where
  state : State := .recordStart
  /-- The field that is being read, its last byte first. -/
  field : List UInt8 := []
  /-- The other fields of the record, the last one first. -/
  fields : List (List UInt8) := []
  /-- Where the last record ended. -/
  start : Position := {}
  /-- The line of the next byte. -/
  line : Nat := 1
  /-- The number of bytes read. -/
  byte : Nat := 0
  /-- The finished records, the last one first. -/
  rows : List Row := []
  deriving DecidableEq

namespace Reading

/-- The byte belongs to the field. -/
def keep (r : Reading) (b : UInt8) : Reading := { r with state := .inField, field := b :: r.field }

/-- The field ends and another one follows. -/
def endField (r : Reading) : Reading :=
  { r with state := .fieldStart, field := [], fields := r.field.reverse :: r.fields }

/-- The record ends. -/
def endRecord (r : Reading) (next : State) : Reading :=
  { r with
    state := next
    field := []
    fields := []
    start := ⟨r.start.record + 1, r.line, r.byte⟩
    rows := ⟨r.start, (r.field.reverse :: r.fields).reverse⟩ :: r.rows }

/-- A byte outside quotes. -/
def plain (r : Reading) (b : UInt8) : Reading :=
  if b = comma then r.endField
  else if b = lineFeed then r.endRecord .recordStart
  else if b = carriageReturn then r.endRecord .afterReturn
  else r.keep b

/-- The first byte of a field. -/
def first (r : Reading) (b : UInt8) : Reading :=
  if b = quote then { r with state := .inQuotes } else r.plain b

/-- A byte between records. -/
def between (r : Reading) (b : UInt8) : Reading :=
  if isTerminator b then { r with state := .recordStart } else r.first b

/-- Counts a byte. -/
def count (r : Reading) (b : UInt8) : Reading :=
  { r with byte := r.byte + 1, line := if b = lineFeed then r.line + 1 else r.line }

/-- Reads one byte. -/
def step (r : Reading) (b : UInt8) : Reading :=
  let r := r.count b
  match r.state with
  | .recordStart | .afterReturn => r.between b
  | .fieldStart => r.first b
  | .inField => r.plain b
  | .inQuotes =>
    if b = quote then { r with state := .afterQuote } else { r with field := b :: r.field }
  | .afterQuote =>
    if b = quote then { r with state := .inQuotes, field := b :: r.field } else r.plain b

/-- Reads bytes one after another. -/
def feed (r : Reading) (bs : List UInt8) : Reading := bs.foldl step r

/-- The text ends; a record that has been begun ends with it. -/
def finish (r : Reading) : Reading :=
  match r.state with
  | .recordStart | .afterReturn => r
  | _ => r.endRecord .recordStart

end Reading

/-- The reading before the first byte of a text, and the bytes to read: a mark at the start is
    counted and left out. -/
def start (bs : List UInt8) : Reading × List UInt8 :=
  if byteOrderMark.isPrefixOf bs then ({ byte := byteOrderMark.length }, bs.drop 3) else ({}, bs)

/-- The records of a text. -/
def records (bs : List UInt8) : List Row :=
  let (r, bs) := start bs
  (r.feed bs).finish.rows.reverse

end CreditCircle.Csv

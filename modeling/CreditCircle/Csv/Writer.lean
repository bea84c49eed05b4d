/-
  Writing tables as bytes.

  A field stands in quotes only where it has to: if it holds a comma, a quote or the end of a
  line.  A quote inside it is written twice.

  * `recordPieces`: a record in the pieces in which it goes to the output.
  * `writeRecord`: its bytes.
  * `Stream`: an output behind a buffer, which may be too small for what is written.
-/
import CreditCircle.Csv.Reader

namespace CreditCircle.Csv

/-! ## Fields and records -/

/-- Whether a byte can only stand in a field with quotes. -/
def forcesQuotes (b : UInt8) : Bool := b == comma || b == quote || isTerminator b

/-- A byte between quotes. -/
def quotedPiece (b : UInt8) : List UInt8 := if b = quote then [quote, quote] else [b]

/-- A field in pieces. -/
def fieldPieces (field : List UInt8) : List (List UInt8) :=
  if field.any forcesQuotes then [quote] :: field.map quotedPiece ++ [[quote]]
  else field.map fun b => [b]

/-- A record in pieces: single bytes, and doubled quotes. -/
def recordPieces (fields : List (List UInt8)) : List (List UInt8) :=
  (fields.map fieldPieces).intersperse [[comma]] |>.flatten |> (· ++ [[lineFeed]])

/-- The bytes of a record. -/
def writeRecord (fields : List (List UInt8)) : List UInt8 := (recordPieces fields).flatten

/-! ## Streams -/

/-- The number of bytes that a stream collects before it passes them on. -/
def bufferSize : Nat := 8192

/-- An output behind a buffer. -/
structure Stream where
  /-- How many bytes the output takes; any number if there is no limit. -/
  room : Option Nat
  /-- How many bytes have been passed on. -/
  passed : Nat := 0
  /-- How many bytes are in the buffer. -/
  waiting : Nat := 0
  deriving DecidableEq

namespace Stream

/-- Passes on what is in the buffer, unless the output is too small. -/
def flush (s : Stream) : Option Stream :=
  if s.room.all (s.passed + s.waiting ≤ ·) then
    some { s with passed := s.passed + s.waiting, waiting := 0 }
  else none

/-- Writes a piece, after what is in the buffer has made room for it. -/
def put (s : Stream) (piece : List UInt8) : Option Stream := do
  let s ← if s.waiting + piece.length ≤ bufferSize then some s else s.flush
  return { s with waiting := s.waiting + piece.length }

/-- Writes a record. -/
def putRecord (s : Stream) (fields : List (List UInt8)) : Option Stream :=
  (recordPieces fields).foldlM put s

end Stream
end CreditCircle.Csv

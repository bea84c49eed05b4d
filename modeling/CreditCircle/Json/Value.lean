/-
  JSON values.

  * `Json`: the values.  A text may be one that names half of a surrogate pair; it is no
    string then, but only harmful if it is used.
  * `Json.Number`: a number as it is written, so that nothing is rounded before it is known
    what the number is for.
-/
import CreditCircle.Binary64.Shortest
import CreditCircle.Decimal.Reading

namespace CreditCircle

open Text

namespace Json

/-! ## Numbers -/

/-- A number as it is written. -/
structure Number where
  negative : Bool
  whole : List Digit
  /-- The digits behind the point; a point is followed by at least one. -/
  fraction : List Digit
  /-- Whether the exponent is negative, and its digits. -/
  exponent : Option (Bool × List Digit)
  deriving DecidableEq

namespace Number

/-- A natural number. -/
def ofNat (n : Nat) : Number := ⟨false, digits n, [], none⟩

/-- Neither a fraction nor an exponent is written. -/
def isWhole (n : Number) : Bool := n.fraction = [] && n.exponent.isNone

/-- The natural number of 64 bits that is written.  A sign is refused, even in front of zero. -/
def toNat64? (n : Number) : Option Nat :=
  if n.isWhole && !n.negative && natOfDigits n.whole < 2 ^ 64 then some (natOfDigits n.whole)
  else none

/-! ## Decimals -/

/-- The significand and exponent while a number is read into 64 bits. -/
structure Significand where
  value : Nat
  exponent : Int

/-- Digits before the point.  From the first one on that does not fit, they only raise the
    exponent. -/
def readWhole : List Digit → Nat → Significand
  | [], value => ⟨value, 0⟩
  | d :: ds, value =>
    if 10 * value + d.val < 2 ^ 64 then readWhole ds (10 * value + d.val)
    else ⟨value, (d :: ds).length⟩

/-- Digits behind the point.  From the first one on that does not fit, they are ignored. -/
def readFraction : List Digit → Significand → Significand
  | [], s => s
  | d :: ds, s =>
    if 10 * s.value + d.val < 2 ^ 64 then
      readFraction ds ⟨10 * s.value + d.val, s.exponent - 1⟩
    else s

/-- The exponent that is written. -/
def writtenExponent (n : Number) : Int :=
  match n.exponent with
  | none => 0
  | some (negative, ds) => if negative then -(natOfDigits ds : Int) else natOfDigits ds

/-- The magnitude of a number in binary64, unless it is not finite. -/
def magnitude? (n : Number) : Option Binary64 :=
  let s := readFraction n.fraction (readWhole n.whole 0)
  Binary64.scaled? s.value (s.exponent + n.writtenExponent)

/-- The decimal that a number stands for: a whole number of 64 bits exactly, any other number
    through binary64 and its shortest text. -/
def toDecimal? (n : Number) : Option Decimal :=
  let value := natOfDigits n.whole
  if n.isWhole && value < 2 ^ 64 && (!n.negative || value ≤ 2 ^ 63) then
    Decimal.parse (Decimal.showScaled n.negative value 0)
  else do Decimal.parse ((← n.magnitude?).toText n.negative)

end Number
end Json

/-! ## Values -/

/-- A text, or none if it names half of a surrogate pair. -/
abbrev JsonText := Option String

/-- A JSON value.  The members of an object are kept in their order, with all repetitions. -/
inductive Json where
  | null
  | bool (value : Bool)
  | number (value : Json.Number)
  | text (value : JsonText)
  | array (items : List Json)
  | object (members : List (JsonText × Json))

namespace Json

/-- A string. -/
def string (s : String) : Json := text (some s)

/-- A natural number. -/
def nat (n : Nat) : Json := number (.ofNat n)

/-- An object whose keys are strings. -/
def record (members : List (String × Json)) : Json :=
  object (members.map fun (key, value) => (some key, value))

end Json
end CreditCircle

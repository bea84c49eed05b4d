/-
  Writing JSON.

  No blanks are written.  In a text, quotes, backslashes and control characters are escaped;
  everything else stands for itself.
-/
import CreditCircle.Identifier
import CreditCircle.Json.Value

namespace CreditCircle.Json

open Text

/-- A character inside quotes. -/
def escape (c : Char) : List Char :=
  if c = '"' then ['\\', '"']
  else if c = '\\' then ['\\', '\\']
  else if c.toNat = 8 then ['\\', 'b']
  else if c.toNat = 9 then ['\\', 't']
  else if c.toNat = 10 then ['\\', 'n']
  else if c.toNat = 12 then ['\\', 'f']
  else if c.toNat = 13 then ['\\', 'r']
  else if c.toNat < 32 then '\\' :: 'u' :: Identifier.hexFixed 4 c.toNat
  else [c]

/-- A text in quotes. -/
def quoted (cs : List Char) : List Char := '"' :: cs.flatMap escape ++ ['"']

/-- A text in quotes; one that is no string is written as the replacement character. -/
def writeText (t : JsonText) : List Char :=
  quoted (match t with
    | some s => s.toList
    | none => ['\uFFFD'])

/-- Digits as text. -/
def writeDigits (ds : List Digit) : List Char := ds.map Digit.toChar

namespace Number

/-- The part of a number behind its whole digits. -/
def writeFraction (n : Number) : List Char :=
  if n.fraction = [] then [] else '.' :: writeDigits n.fraction

/-- The part of a number behind its digits. -/
def writeExponent (n : Number) : List Char :=
  match n.exponent with
  | none => []
  | some (negative, ds) => 'e' :: (if negative then ['-'] else []) ++ writeDigits ds

/-- A number as it was read. -/
def write (n : Number) : List Char :=
  (if n.negative then ['-'] else []) ++ writeDigits n.whole ++ n.writeFraction ++ n.writeExponent

end Number

mutual

/-- The text of a value. -/
def write : Json → List Char
  | null => ['n', 'u', 'l', 'l']
  | bool true => ['t', 'r', 'u', 'e']
  | bool false => ['f', 'a', 'l', 's', 'e']
  | number n => n.write
  | text t => writeText t
  | array [] => ['[', ']']
  | array (item :: items) => '[' :: write item ++ writeItems items
  | object [] => ['\x7b', '\x7d']
  | object (m :: members) => '\x7b' :: writeMember m ++ writeMembers members

/-- The rest of an array after an item. -/
def writeItems : List Json → List Char
  | [] => [']']
  | item :: items => ',' :: write item ++ writeItems items

/-- A member of an object. -/
def writeMember : JsonText × Json → List Char
  | (key, value) => writeText key ++ ':' :: write value

/-- The rest of an object after a member. -/
def writeMembers : List (JsonText × Json) → List Char
  | [] => ['\x7d']
  | m :: members => ',' :: writeMember m ++ writeMembers members

end

/-- The text of a value as a string. -/
def render (j : Json) : String := String.ofList j.write

end CreditCircle.Json

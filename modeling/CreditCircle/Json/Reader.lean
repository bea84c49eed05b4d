/-
  Reading JSON.

  * `readString`: a text behind its opening quote; `joinPairs` puts surrogate pairs together.
  * `readNumber`: a number as it is written.
  * `read`: the value that a whole text holds.
-/
import CreditCircle.Identifier
import CreditCircle.Json.Value

namespace CreditCircle.Json

open Text

/-! ## Blanks -/

/-- The characters that may stand between the parts of a value. -/
def isGap (c : Char) : Bool := c == ' ' || c == '\t' || c == '\n' || c == '\r'

/-- The rest of a text after blanks. -/
def skipGaps (cs : List Char) : List Char := cs.dropWhile isGap

/-! ## Texts -/

/-- The first half of a surrogate pair. -/
def isHigh (n : Nat) : Bool := 0xD800 ≤ n && n < 0xDC00

/-- The second half of a surrogate pair. -/
def isLow (n : Nat) : Bool := 0xDC00 ≤ n && n < 0xE000

/-- The characters of some code points, in which surrogates have to come in pairs. -/
def joinPairs : List Nat → Option (List Char)
  | [] => some []
  | [n] => if isHigh n || isLow n then none else some [Char.ofNat n]
  | n :: m :: rest =>
    if isHigh n then
      if isLow m then
        (joinPairs rest).map (Char.ofNat (0x10000 + (n - 0xD800) * 0x400 + (m - 0xDC00)) :: ·)
      else none
    else if isLow n then none
    else (joinPairs (m :: rest)).map (Char.ofNat n :: ·)

/-- What a letter behind a backslash stands for. -/
def escaped? : Char → Option Nat
  | '"' => some 0x22
  | '\\' => some 0x5C
  | '/' => some 0x2F
  | 'b' => some 0x08
  | 'f' => some 0x0C
  | 'n' => some 0x0A
  | 'r' => some 0x0D
  | 't' => some 0x09
  | _ => none

/-- The code points of a text behind its opening quote, and the rest after the closing one. -/
def readString : List Char → Option (List Nat × List Char)
  | [] => none
  | '"' :: rest => some ([], rest)
  | '\\' :: 'u' :: a :: b :: c :: d :: rest => do
    let n ← Identifier.hexNat? [a, b, c, d]
    let (ns, rest) ← readString rest
    return (n :: ns, rest)
  | '\\' :: c :: rest => do
    let n ← escaped? c
    let (ns, rest) ← readString rest
    return (n :: ns, rest)
  | c :: rest => do
    if c.toNat < 32 then none
    let (ns, rest) ← readString rest
    return (c.toNat :: ns, rest)

/-- A text behind its opening quote. -/
def readText (cs : List Char) : Option (JsonText × List Char) := do
  let (ns, rest) ← readString cs
  return ((joinPairs ns).map String.ofList, rest)

/-! ## Numbers -/

/-- A run of digits, perhaps empty. -/
def readDigits : List Char → List Digit × List Char
  | [] => ([], [])
  | c :: cs =>
    match Digit.ofChar? c with
    | some d => let (ds, rest) := readDigits cs; (d :: ds, rest)
    | none => ([], c :: cs)

/-- A run of at least one digit. -/
def readDigits₁ (cs : List Char) : Option (List Digit × List Char) :=
  match readDigits cs with
  | ([], _) => none
  | (ds, rest) => some (ds, rest)

/-- The digits before the point: zero alone, or a run that does not start with zero. -/
def readWhole (cs : List Char) : Option (List Digit × List Char) := do
  let (ds, rest) ← readDigits₁ cs
  if ds.head? = some 0 ∧ ds.length ≠ 1 then none else some (ds, rest)

/-- The digits behind a point, if there is one. -/
def readFraction : List Char → Option (List Digit × List Char)
  | '.' :: cs => readDigits₁ cs
  | cs => some ([], cs)

/-- The sign and digits of an exponent. -/
def readSigned (cs : List Char) : Option (Option (Bool × List Digit) × List Char) :=
  let (negative, cs) := match cs with
    | '-' :: cs => (true, cs)
    | '+' :: cs => (false, cs)
    | cs => (false, cs)
  (readDigits₁ cs).map fun (ds, rest) => (some (negative, ds), rest)

/-- An exponent, if there is one. -/
def readExponent : List Char → Option (Option (Bool × List Digit) × List Char)
  | 'e' :: cs | 'E' :: cs => readSigned cs
  | cs => some (none, cs)

/-- A number. -/
def readNumber (cs : List Char) : Option (Number × List Char) := do
  let (negative, cs) := match cs with
    | '-' :: cs => (true, cs)
    | cs => (false, cs)
  let (whole, cs) ← readWhole cs
  let (fraction, cs) ← readFraction cs
  let (exponent, cs) ← readExponent cs
  return (⟨negative, whole, fraction, exponent⟩, cs)

/-! ## Values -/

mutual

/-- A value and the rest of the text; `fuel` bounds the number of parts. -/
def readValue : (fuel : Nat) → List Char → Option (Json × List Char)
  | 0, _ => none
  | fuel + 1, cs =>
    match skipGaps cs with
    | 'n' :: 'u' :: 'l' :: 'l' :: rest => some (.null, rest)
    | 't' :: 'r' :: 'u' :: 'e' :: rest => some (.bool true, rest)
    | 'f' :: 'a' :: 'l' :: 's' :: 'e' :: rest => some (.bool false, rest)
    | '"' :: rest => (readText rest).map fun (t, rest) => (.text t, rest)
    | '[' :: rest =>
      match skipGaps rest with
      | ']' :: rest => some (.array [], rest)
      | rest => (readItems fuel rest).map fun (items, rest) => (.array items, rest)
    | '\x7b' :: rest =>
      match skipGaps rest with
      | '\x7d' :: rest => some (.object [], rest)
      | rest => (readMembers fuel rest).map fun (members, rest) => (.object members, rest)
    | rest => (readNumber rest).map fun (n, rest) => (.number n, rest)

/-- The items of an array up to its end. -/
def readItems : (fuel : Nat) → List Char → Option (List Json × List Char)
  | 0, _ => none
  | fuel + 1, cs => do
    let (item, rest) ← readValue fuel cs
    match skipGaps rest with
    | ',' :: rest =>
      let (items, rest) ← readItems fuel rest
      return (item :: items, rest)
    | ']' :: rest => return ([item], rest)
    | _ => none

/-- The members of an object up to its end. -/
def readMembers : (fuel : Nat) → List Char → Option (List (JsonText × Json) × List Char)
  | 0, _ => none
  | fuel + 1, cs =>
    match skipGaps cs with
    | '"' :: rest => do
      let (key, rest) ← readText rest
      match skipGaps rest with
      | ':' :: rest =>
        let (value, rest) ← readValue fuel rest
        match skipGaps rest with
        | ',' :: rest =>
          let (members, rest) ← readMembers fuel rest
          return ((key, value) :: members, rest)
        | '\x7d' :: rest => return ([(key, value)], rest)
        | _ => none
      | _ => none
    | _ => none

end

/-- The value that a text holds, with nothing but blanks around it. -/
def read (cs : List Char) : Option Json := do
  let (j, rest) ← readValue (2 * cs.length + 2) cs
  if skipGaps rest = [] then some j else none

/-- The value that a string holds. -/
def ofString? (s : String) : Option Json := read s.toList

end CreditCircle.Json

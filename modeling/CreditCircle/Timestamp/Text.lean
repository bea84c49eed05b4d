/-
  The text of a moment (RFC 3339).

  * `toText`: the form in UTC, with no, 3, 6 or 9 digits of the second's fraction.
  * `date?`, `clock?`, `offset?`: the parts of a text; blanks between them are ignored.
  * `parse?`: reads a date, `T` or a blank, a time and an offset.  Second 60 is a leap second.
    The date has to be one of the calendar both as it is written and in UTC.
-/
import CreditCircle.Timestamp.Basic
import CreditCircle.Text.Blank
import CreditCircle.Text.Digits

namespace CreditCircle.Timestamp

open Text

/-! ## Writing -/

/-- A number with at least `width` digits. -/
def showPadded (width n : Nat) : List Char :=
  let cs := showNat n
  List.replicate (width - cs.length) '0' ++ cs

/-- A year: four digits, or a sign and at least four digits. -/
def showYear (y : Int) : List Char :=
  if 0 ≤ y ∧ y ≤ 9999 then showPadded 4 y.toNat
  else (if y < 0 then '-' else '+') :: showPadded 4 y.natAbs

/-- The fraction of a second in the shortest of its forms. -/
def showFraction (nano : Nat) : List Char :=
  if nano = 0 then []
  else if nano % 10 ^ 6 = 0 then '.' :: showPadded 3 (nano / 10 ^ 6)
  else if nano % 10 ^ 3 = 0 then '.' :: showPadded 6 (nano / 10 ^ 3)
  else '.' :: showPadded 9 nano

/-- The text of a moment in UTC. -/
def toText (t : Timestamp) : List Char :=
  let date := Date.ofDays (t.second / 86400)
  let clock := (t.second % 86400).toNat
  let leap := t.nano / 10 ^ 9
  showYear date.year ++ '-' :: showPadded 2 date.month ++ '-' :: showPadded 2 date.day ++
    'T' :: showPadded 2 (clock / 3600) ++ ':' :: showPadded 2 (clock / 60 % 60) ++
    ':' :: showPadded 2 (clock % 60 + leap) ++ showFraction (t.nano % 10 ^ 9) ++ ['Z']

instance : ToString Timestamp := ⟨fun t => String.ofList t.toText⟩

/-! ## Reading -/

/-- The rest of a text after blanks. -/
def skipBlanks (cs : List Char) : List Char := cs.dropWhile isBlank

/-- A number of 1 to `most` digits, and the rest. -/
def number? (most : Nat) (cs : List Char) : Option (Nat × List Char) :=
  let run := (cs.takeWhile fun c => (Digit.ofChar? c).isSome).take most
  if run = [] then none
  else (digits? run).map fun ds => (natOfDigits ds, cs.drop run.length)

/-- A number after blanks, not above `top`. -/
def field? (most top : Nat) (cs : List Char) : Option (Nat × List Char) := do
  let (n, rest) ← number? most (skipBlanks cs)
  if n ≤ top then some (n, rest) else none

/-- The rest of a text after blanks and the character `c`. -/
def mark? (c : Char) (cs : List Char) : Option (List Char) :=
  match skipBlanks cs with
  | x :: rest => if x = c then some rest else none
  | [] => none

/-- A year; with a sign it may have any number of digits. -/
def year? (cs : List Char) : Option (Int × List Char) :=
  match skipBlanks cs with
  | '-' :: rest => (number? rest.length rest).map fun (n, r) => (-(n : Int), r)
  | '+' :: rest => (number? rest.length rest).map fun (n, r) => ((n : Int), r)
  | rest => (number? 4 rest).map fun (n, r) => ((n : Int), r)

/-- The years that dates may have. -/
def inCalendar (y : Int) : Bool := -262143 ≤ y && y ≤ 262142

/-- The years that moments may have, in UTC. -/
def isRepresentable (t : Timestamp) : Bool := inCalendar (Date.ofDays (t.second / 86400)).year

/-- A fraction of a second in nanoseconds; digits after the ninth are ignored. -/
def fraction? (cs : List Char) : Option (Nat × List Char) :=
  match cs with
  | '.' :: rest => do
    let (n, after) ← number? 9 rest
    let used := rest.length - after.length
    return (n * 10 ^ (9 - used), after.dropWhile fun c => (Digit.ofChar? c).isSome)
  | _ => some (0, cs)

/-- Two digits, of which the first is not above `top`. -/
def twoDigits? (top : Nat) : List Char → Option (Nat × List Char)
  | a :: b :: rest => do
    let x ← Digit.ofChar? a
    let y ← Digit.ofChar? b
    if x.val ≤ top then some (10 * x.val + y.val, rest) else none
  | _ => none

/-- The hours and minutes of an offset behind its sign, in seconds. -/
def signedOffset? (sign : Int) (cs : List Char) : Option (Int × List Char) := do
  let (hours, rest) ← twoDigits? 9 cs
  let (minutes, rest) ← twoDigits? 5 (rest.dropWhile fun c => c == ':' || isBlank c)
  return (sign * (hours * 3600 + minutes * 60 : Nat), rest)

/-- An offset from UTC in seconds. -/
def offset? (cs : List Char) : Option (Int × List Char) :=
  match skipBlanks cs with
  | 'Z' :: rest | 'z' :: rest => some (0, rest)
  | '+' :: rest => signedOffset? 1 rest
  | '-' :: rest => signedOffset? (-1) rest
  | '−' :: rest => signedOffset? (-1) rest
  | a :: b :: c :: rest =>
    if [a, b, c].map Char.toLower = ['u', 't', 'c'] then some (0, rest) else none
  | _ => none

/-- A date, and the rest behind the `T` or blank that ends it. -/
def date? (cs : List Char) : Option (Date × List Char) := do
  let (year, cs) ← year? cs
  let (month, cs) ← field? 2 12 (← mark? '-' cs)
  let (day, cs) ← field? 2 31 (← mark? '-' cs)
  match cs with
  | 'T' :: rest | 't' :: rest | ' ' :: rest => some (⟨year, month, day⟩, rest)
  | _ => none

/-- A time of day as it is written; second 60 is a leap second. -/
structure Clock where
  hour : Nat
  minute : Nat
  second : Nat
  nano : Nat

/-- A time of day. -/
def clock? (cs : List Char) : Option (Clock × List Char) := do
  let (hour, cs) ← field? 2 23 cs
  let (minute, cs) ← field? 2 59 (← mark? ':' cs)
  let (second, cs) ← field? 2 60 (← mark? ':' cs)
  let (nano, cs) ← fraction? cs
  return (⟨hour, minute, second, nano⟩, cs)

/-- The moment of a date and a time, `offset` seconds ahead of UTC. -/
def ofParts? (date : Date) (clock : Clock) (offset : Int) : Option Timestamp :=
  if !date.isValid ∨ !inCalendar date.year ∨ 86400 ≤ offset.natAbs then none
  else if h : clock.nano < 10 ^ 9 then
    let seconds : Nat := clock.hour * 3600 + clock.minute * 60 + min clock.second 59
    let t : Timestamp := ⟨date.toDays * 86400 + seconds - offset,
      clock.nano + (if clock.second = 60 then 10 ^ 9 else 0), by split <;> omega⟩
    if t.isRepresentable then some t else none
  else none

/-- Reads a moment. -/
def parse? (cs : List Char) : Option Timestamp := do
  let (date, cs) ← date? cs
  let (clock, cs) ← clock? cs
  let (offset, cs) ← offset? cs
  if skipBlanks cs = [] then ofParts? date clock offset else none

end CreditCircle.Timestamp

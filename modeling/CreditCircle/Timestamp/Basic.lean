/-
  Moments in time.

  A moment is a second since the start of 1970 in UTC and a number of nanoseconds in it.
  A leap second is the part from 10^9 nanoseconds on of the second before it.

  * `Timestamp`, its order, and the moment of a number of milliseconds.
  * `Date`: the calendar of years, months and days, before and after 1970.
-/
import CreditCircle.Power

namespace CreditCircle

/-- A moment in UTC. -/
structure Timestamp where
  second : Int
  nano : Nat
  nano_lt : nano < 2 * 10 ^ 9 := by decide
  deriving DecidableEq

namespace Timestamp

instance : LT Timestamp :=
  ⟨fun a b => a.second < b.second ∨ a.second = b.second ∧ a.nano < b.nano⟩

instance : LE Timestamp := ⟨fun a b => ¬ b < a⟩

instance (a b : Timestamp) : Decidable (a < b) :=
  inferInstanceAs (Decidable (a.second < b.second ∨ a.second = b.second ∧ a.nano < b.nano))

instance (a b : Timestamp) : Decidable (a ≤ b) := inferInstanceAs (Decidable (¬ b < a))

/-- The moment of a number of milliseconds since 1970. -/
def ofMillis (n : Int) : Timestamp where
  second := n / 1000
  nano := (n % 1000).toNat * 10 ^ 6
  nano_lt := by omega

/-- Whole milliseconds since 1970. -/
def toMillis (t : Timestamp) : Int := t.second * 1000 + (t.nano / 10 ^ 6 : Nat)

end Timestamp

/-! ## Calendar -/

/-- A day of the Gregorian calendar, extended to all years. -/
structure Date where
  year : Int
  month : Nat
  day : Nat
  deriving DecidableEq

namespace Date

/-- Whether February has 29 days. -/
def isLeap (year : Int) : Bool := year % 4 == 0 && (year % 100 != 0 || year % 400 == 0)

/-- The number of days of a month. -/
def monthLength (year : Int) (month : Nat) : Nat :=
  if month = 2 then (if isLeap year then 29 else 28)
  else if month = 4 ∨ month = 6 ∨ month = 9 ∨ month = 11 then 30
  else 31

/-- Whether the date exists. -/
def isValid (d : Date) : Bool :=
  1 ≤ d.month && d.month ≤ 12 && 1 ≤ d.day && d.day ≤ monthLength d.year d.month

/-- Days since the start of 1970.  Years are counted from March, so that a leap day comes last. -/
def toDays (d : Date) : Int :=
  let y := if d.month ≤ 2 then d.year - 1 else d.year
  let m : Int := if d.month ≤ 2 then d.month + 9 else d.month - 3
  365 * y + y / 4 - y / 100 + y / 400 + (153 * m + 2) / 5 + d.day - 719469

/-- The date of a number of days since the start of 1970. -/
def ofDays (n : Int) : Date :=
  let z := n + 719468
  let era := z / 146097
  let dayOfEra := z % 146097
  let yearOfEra := (dayOfEra - dayOfEra / 1460 + dayOfEra / 36524 - dayOfEra / 146096) / 365
  let dayOfYear := dayOfEra - (365 * yearOfEra + yearOfEra / 4 - yearOfEra / 100)
  let m := (5 * dayOfYear + 2) / 153
  let day := dayOfYear - (153 * m + 2) / 5 + 1
  let month := if m < 10 then m + 3 else m - 9
  let year := yearOfEra + era * 400 + (if month ≤ 2 then 1 else 0)
  ⟨year, month.toNat, day.toNat⟩

end Date
end CreditCircle

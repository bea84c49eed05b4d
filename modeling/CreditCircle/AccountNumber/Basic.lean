/-
  Account numbers.

  An account number has 12 to 19 digits and carries a check digit, so that most mistyped
  numbers are refused before anything is looked up.

  * `AccountNumber`: the digits, with length and checksum in the type.
  * `parse?`: reads a number; blanks around it are ignored.
  * `generate`: the number of 16 digits that a random draw stands for.
-/
import CreditCircle.AccountNumber.Luhn
import CreditCircle.Text.Blank

namespace CreditCircle

open Text

attribute [local instance (high)] List.instLE

/-- A number that identifies an account towards its members. -/
structure AccountNumber where
  digits : List Digit
  twelve_le : 12 ≤ digits.length
  le_nineteen : digits.length ≤ 19
  valid : Luhn.isValid digits = true
  deriving DecidableEq

namespace AccountNumber

/-- The digits as text. -/
def toText (n : AccountNumber) : List Char := n.digits.map Digit.toChar

instance : ToString AccountNumber := ⟨fun n => String.ofList n.toText⟩

/-- Account numbers are ordered as texts: digit by digit. -/
instance : LE AccountNumber := ⟨fun a b => a.digits ≤ b.digits⟩

instance (a b : AccountNumber) : Decidable (a ≤ b) :=
  inferInstanceAs (Decidable (a.digits ≤ b.digits))

protected theorem le_refl (a : AccountNumber) : a ≤ a := List.le_refl a.digits

protected theorem le_trans {a b c : AccountNumber} (h : a ≤ b) (h' : b ≤ c) : a ≤ c :=
  List.le_trans h h'

protected theorem le_total (a b : AccountNumber) : a ≤ b ∨ b ≤ a :=
  List.le_total a.digits b.digits

protected theorem le_antisymm {a b : AccountNumber} (h : a ≤ b) (h' : b ≤ a) : a = b := by
  have hd : a.digits = b.digits := List.le_antisymm h h'
  obtain ⟨_, _, _, _⟩ := a
  cases hd
  rfl

/-- The account number of some digits. -/
def ofDigits? (ds : List Digit) : Option AccountNumber :=
  if h : 12 ≤ ds.length ∧ ds.length ≤ 19 ∧ Luhn.isValid ds = true then
    some ⟨ds, h.1, h.2.1, h.2.2⟩
  else none

/-- Reads an account number. -/
def parse? (cs : List Char) : Option AccountNumber := do
  ofDigits? (← digits? (trim cs))

/-- The length of the random part of a generated number. -/
def payloadLength : Nat := 15

/-- The random part that a draw stands for: 15 digits of which the first is not zero. -/
def payload (draw : Nat) : List Digit :=
  let span := 10 ^ (payloadLength - 1)
  digitsFixed payloadLength (span + draw % (9 * span))

/-- The account number that a draw stands for: the payload and its check digit. -/
def generate (draw : Nat) : AccountNumber where
  digits := payload draw ++ [Luhn.checkDigit (payload draw)]
  twelve_le := by simp [payload, payloadLength]
  le_nineteen := by simp [payload, payloadLength]
  valid := Luhn.isValid_append_checkDigit (by simp [payload, payloadLength, Luhn.safeLength])

end AccountNumber
end CreditCircle

/-
  Decimal numbers of bounded size.

  * `Decimal`: sign, coefficient below `2 ^ 96` and scale of at most 28 places; the
    bounds are part of the type.
  * `signed`, `toRat`: what a decimal stands for.  Several decimals may stand for one
    rational (`1.5` and `1.50`), and zero has two signs.
  * `<`, `≤`: the order of the rationals, decided by cross multiplication.
  * `neededPlaces`: the places that remain when trailing zeros are dropped.
-/
import CreditCircle.Power

namespace CreditCircle

/-- A signed decimal number `± coeff / 10 ^ scale`. -/
structure Decimal where
  negative : Bool
  coeff : Nat
  scale : Nat
  coeff_lt : coeff < 2 ^ 96 := by decide
  scale_le : scale ≤ 28 := by decide
  deriving DecidableEq

namespace Decimal

/-! ## Meaning -/

/-- The coefficient with its sign. -/
def signed (d : Decimal) : Int := if d.negative then -(d.coeff : Int) else d.coeff

/-- The rational number that a decimal stands for. -/
def toRat (d : Decimal) : Rat := mkRat d.signed (10 ^ d.scale)

/-! ## Order -/

/-- `a` is below `b` as a rational number. -/
def Below (a b : Decimal) : Prop := a.signed * 10 ^ b.scale < b.signed * 10 ^ a.scale

instance : LT Decimal := ⟨Below⟩
instance : LE Decimal := ⟨fun a b => ¬ b < a⟩

theorem lt_def (a b : Decimal) : a < b ↔ a.signed * 10 ^ b.scale < b.signed * 10 ^ a.scale :=
  Iff.rfl

instance (a b : Decimal) : Decidable (a < b) := inferInstanceAs (Decidable (_ < (_ : Int)))
instance (a b : Decimal) : Decidable (a ≤ b) := inferInstanceAs (Decidable (¬ _))

/-- The larger of two decimals, the first one when they are equal. -/
def max (a b : Decimal) : Decimal := if a < b then b else a

/-! ## Constants and signs -/

/-- A whole number. -/
def ofNat (n : Nat) (h : n < 2 ^ 96 := by decide) : Decimal := ⟨false, n, 0, h, by decide⟩

/-- Zero without places. -/
def zero : Decimal := ofNat 0

instance : Zero Decimal := ⟨zero⟩
instance : Inhabited Decimal := ⟨zero⟩

/-- The number with the other sign; zero changes its sign too. -/
def neg (d : Decimal) : Decimal := { d with negative := !d.negative }

instance : Neg Decimal := ⟨neg⟩

/-- The magnitude. -/
def abs (d : Decimal) : Decimal := { d with negative := false }

/-- The same number without a sign on zero. -/
def unsignZero (d : Decimal) : Decimal := { d with negative := d.negative && d.coeff != 0 }

@[simp] theorem signed_neg (d : Decimal) : (-d).signed = -d.signed := by
  show (neg d).signed = _
  unfold neg signed
  cases d.negative <;> simp

@[simp] theorem signed_abs (d : Decimal) : d.abs.signed = (d.coeff : Int) := rfl

theorem natAbs_signed (d : Decimal) : d.signed.natAbs = d.coeff := by
  unfold signed; split <;> simp

@[simp] theorem signed_unsignZero (d : Decimal) : d.unsignZero.signed = d.signed := by
  unfold unsignZero signed
  by_cases h : d.coeff = 0 <;> cases d.negative <;> simp [h]

/-! ## Trailing zeros -/

/-- The places that remain when the zeros at the end of a fraction are dropped. -/
def placesOf : (coeff : Nat) → (scale : Nat) → Nat
  | _, 0 => 0
  | coeff, scale + 1 => if coeff % 10 = 0 then placesOf (coeff / 10) scale else scale + 1

/-- The number of places that the value of a decimal needs. -/
def neededPlaces (d : Decimal) : Nat := placesOf d.coeff d.scale

end Decimal
end CreditCircle

/-
  Magnitudes of binary64 floating point numbers.

  Every finite number of the format is a whole number of units of `2 ^ -1074`, so a magnitude
  is a natural number here.  One function, `nearest`, rounds a quotient to the format, a half
  going to the even neighbour; conversion, product and quotient follow from it.
-/
import CreditCircle.Decimal.Arithmetic

namespace CreditCircle

/-- A magnitude in units of `2 ^ -1074`. -/
structure Binary64 where
  units : Nat
  deriving DecidableEq

namespace Binary64

/-- The number of units in one. -/
def one : Nat := 2 ^ 1074

/-- The distance from a magnitude to the next larger one: 53 bits are significant. -/
def gap (units : Nat) : Nat := 2 ^ (units.log2 - 52)

/-- The magnitude nearest to `n / d` units. -/
def nearest (n d : Nat) : Binary64 :=
  let g := gap (n / d)
  ⟨Decimal.roundHalfEven n (d * g) * g⟩

/-- The magnitude nearest to a natural number. -/
def ofNat (n : Nat) : Binary64 := nearest (n * one) 1

/-- The rounded product. -/
def mul (a b : Binary64) : Binary64 := nearest (a.units * b.units) one

/-- The rounded quotient. -/
def div (a b : Binary64) : Binary64 := nearest (a.units * one) b.units

/-- The magnitude is beyond the largest finite one. -/
def IsInfinite (a : Binary64) : Prop := 2 ^ 1024 * one ≤ a.units

instance (a : Binary64) : Decidable a.IsInfinite :=
  inferInstanceAs (Decidable (2 ^ 1024 * one ≤ a.units))

/-- The rounded power of ten, up to the largest power that is finite. -/
def pow10 (e : Nat) : Binary64 := ofNat (10 ^ e)

/-- The largest power of ten that is finite. -/
def maxPower : Nat := 308

/-- A magnitude divided by `10 ^ e`.  Large powers are divided out in parts; what is left after
    two parts is zero. -/
def scaleDown : (parts : Nat) → Binary64 → (e : Nat) → Binary64
  | 0, _, _ => ⟨0⟩
  | parts + 1, a, e =>
    if e ≤ maxPower then a.div (pow10 e)
    else scaleDown parts (a.div (pow10 maxPower)) (e - maxPower)

/-- A magnitude times `10 ^ e`, unless it is not finite. -/
def scaleUp? (a : Binary64) (e : Nat) : Option Binary64 :=
  if a.units = 0 then some a
  else if maxPower < e then none
  else
    let b := a.mul (pow10 e)
    if b.IsInfinite then none else some b

/-- `n` times `10 ^ e`, unless it is not finite.  Each step is rounded. -/
def scaled? (n : Nat) (e : Int) : Option Binary64 :=
  if 0 ≤ e then (ofNat n).scaleUp? e.toNat else some ((ofNat n).scaleDown 4 e.natAbs)

end Binary64
end CreditCircle

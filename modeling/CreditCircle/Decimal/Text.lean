/-
  The text of a decimal.

  * `showScaled`: sign, whole part without leading zeros, and exactly `scale` digits after
    the point.
  * `toText` shows all places of a decimal; `toFixed` shows a given number of places and
    cuts off the rest without rounding.
-/
import CreditCircle.Decimal.Basic
import CreditCircle.Text.Digits

namespace CreditCircle.Decimal

open Text

/-- The text of `± coeff / 10 ^ scale`. -/
def showScaled (negative : Bool) (coeff scale : Nat) : List Char :=
  (if negative then ['-'] else []) ++ showNat (coeff / 10 ^ scale) ++
    (if scale = 0 then [] else '.' :: (digitsFixed scale coeff).map Digit.toChar)

/-- All digits of a decimal. -/
def toText (d : Decimal) : List Char := showScaled d.negative d.coeff d.scale

/-- The coefficient at `places`, what lies beyond them being cut off. -/
def cutCoeff (d : Decimal) (places : Nat) : Nat :=
  if d.scale ≤ places then d.coeff * 10 ^ (places - d.scale)
  else d.coeff / 10 ^ (d.scale - places)

/-- A decimal with exactly `places` digits after the point, the rest cut off and the sign kept. -/
def toFixed (d : Decimal) (places : Nat) : List Char :=
  showScaled d.negative (d.cutCoeff places) places

/-- All digits of a decimal, as a string. -/
def text (d : Decimal) : String := String.ofList d.toText

instance : ToString Decimal := ⟨text⟩

/-- The two places in which money is reported. -/
def cents (d : Decimal) : String := String.ofList (d.toFixed 2)

end CreditCircle.Decimal

/-
  The shortest decimal text of a binary64 magnitude.

  Of all decimals that round to a magnitude, the text has one with the fewest digits, and among
  those the nearest; of two that are equally near it has the larger.  It is written without an
  exponent.

  * `Covers`: a decimal rounds to the magnitude.
  * `shortest`: the digits and how many of them stand behind the point.
  * `toText`: the text.
-/
import CreditCircle.Binary64.Basic
import CreditCircle.Decimal.Text

namespace CreditCircle.Binary64

variable (a : Binary64)

/-! ## The interval around a magnitude -/

/-- The distance from a magnitude to the next smaller one. -/
def gapBelow (units : Nat) : Nat :=
  if units = 2 ^ units.log2 ∧ 52 < units.log2 then gap units / 2 else gap units

/-- The quotient `n / d`, in units, rounds to the magnitude: it is at most half a gap away, and
    at exactly half a gap the significand has to be even. -/
def Covers (n d : Nat) : Prop :=
  let low := (2 * a.units - gapBelow a.units) * d
  let high := (2 * a.units + gap a.units) * d
  if a.units / gap a.units % 2 = 0 then low ≤ 2 * n ∧ 2 * n ≤ high else low < 2 * n ∧ 2 * n < high

instance (n d : Nat) : Decidable (a.Covers n d) := by unfold Covers; infer_instance

/-! ## Digits -/

/-- A decimal without a sign: `coeff / 10 ^ scale`, or `coeff * 10 ^ (-scale)`. -/
structure Digits where
  coeff : Nat
  scale : Int

/-- A decimal as a quotient of units. -/
def Digits.units (x : Digits) : Nat × Nat :=
  if 0 ≤ x.scale then (x.coeff * one, 10 ^ x.scale.toNat)
  else (x.coeff * 10 ^ x.scale.natAbs * one, 1)

/-- How far a decimal is from the magnitude, in units divided by the second component. -/
def distance (x : Digits) : Nat × Nat :=
  let (n, d) := x.units
  ((n - a.units * d) + (a.units * d - n), d)

/-- The least scale at which the magnitude is not below one.  It is searched upwards. -/
def leadingScale : (fuel : Nat) → (scale : Int) → Int
  | 0, scale => scale
  | fuel + 1, scale =>
    let (n, d) := Digits.units ⟨1, scale⟩
    if n ≤ a.units * d then scale else leadingScale fuel (scale + 1)

/-- The decimal of a scale just below the magnitude. -/
def floorAt (scale : Int) : Digits :=
  let (n, d) := Digits.units ⟨1, scale⟩
  ⟨a.units * d / n, scale⟩

/-- The better of the two decimals of a scale around the magnitude, if one rounds to it. -/
def atScale? (scale : Int) : Option Digits :=
  let below := a.floorAt scale
  let above : Digits := { below with coeff := below.coeff + 1 }
  let covered (x : Digits) : Bool := decide (a.Covers x.units.1 x.units.2)
  let pickBelow : Bool := decide ((a.distance below).1 < (a.distance above).1)
  match covered below, covered above with
  | true, true => some (if pickBelow then below else above)
  | true, false => some below
  | false, true => some above
  | false, false => none

/-- The first scale from `scale` on at which a decimal rounds to the magnitude. -/
def firstAt : (fuel : Nat) → (scale : Int) → Digits
  | 0, scale => a.floorAt scale
  | fuel + 1, scale => (a.atScale? scale).getD (firstAt fuel (scale + 1))

/-- The decimal with the fewest digits.  17 digits are always enough.  The search starts one
    scale above the leading digit, where a power of ten may lie just above the magnitude. -/
def shortest : Digits := a.firstAt 18 (a.leadingScale 634 (-308) - 1)

/-! ## Text -/

/-- The text of a magnitude with a sign. -/
def toText (negative : Bool) : List Char :=
  if a.units = 0 then Decimal.showScaled negative 0 0
  else
    let x := a.shortest
    if 0 ≤ x.scale then Decimal.showScaled negative x.coeff x.scale.toNat
    else Decimal.showScaled negative (x.coeff * 10 ^ x.scale.natAbs) 0

end CreditCircle.Binary64

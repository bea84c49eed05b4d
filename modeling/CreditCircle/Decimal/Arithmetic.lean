/-
  Addition and subtraction of decimals.

  The exact sum is formed at the larger of the two scales.  If its coefficient needs more
  than 96 bits, places are given up, one at a time, and the exact sum is rounded once to
  the places that remain, a half going to the even neighbour (`fit`).  Only a sum that does
  not fit without any place overflows.  A zero operand leaves the other one as it is, with
  its own scale.
-/
import CreditCircle.Decimal.Basic

namespace CreditCircle.Decimal

/-! ## Rounding -/

/-- The whole number nearest to `n / d`, the even one when two are equally near. -/
def roundHalfEven (n d : Nat) : Nat :=
  let q := n / d
  let r := n % d
  if 2 * r < d then q
  else if d < 2 * r then q + 1
  else if q % 2 = 0 then q else q + 1

/-- The whole number nearest to `n / d`, the larger one when two are equally near. -/
def roundHalfUp (n d : Nat) : Nat := (2 * n + d) / (2 * d)

/-- `n / 10 ^ (places + dropped)` with as many of the `places` as 96 bits have room for. -/
def fit (negative : Bool) (n : Nat) :
    (dropped : Nat) → (places : Nat) → places ≤ 28 → Option Decimal
  | dropped, 0, h =>
    if hq : roundHalfEven n (10 ^ dropped) < 2 ^ 96 then some ⟨negative, _, 0, hq, h⟩ else none
  | dropped, places + 1, h =>
    if hq : roundHalfEven n (10 ^ dropped) < 2 ^ 96 then
      some ⟨negative, _, places + 1, hq, h⟩
    else fit negative n (dropped + 1) places (by omega)

/-- The decimal nearest to `n / 10 ^ scale` that keeps as many places as fit. -/
def ofScaled? (n : Int) (scale : Nat) (h : scale ≤ 28) : Option Decimal :=
  fit (n < 0) n.natAbs 0 scale h

/-! ## Sums and differences -/

/-- The coefficient of `d` at a scale that is not below its own. -/
def signedAt (d : Decimal) (scale : Nat) : Int := d.signed * 10 ^ (scale - d.scale)

/-- The larger of two scales. -/
def commonScale (a b : Decimal) : Nat := Nat.max a.scale b.scale

theorem commonScale_le (a b : Decimal) : commonScale a b ≤ 28 :=
  Nat.max_le.2 ⟨a.scale_le, b.scale_le⟩

/-- The sum, unless it overflows. -/
def add? (a b : Decimal) : Option Decimal :=
  if a.coeff = 0 then some b
  else if b.coeff = 0 then some a
  else
    let s := commonScale a b
    ofScaled? (a.signedAt s + b.signedAt s) s (commonScale_le a b)

/-- The difference, unless it overflows. -/
def sub? (a b : Decimal) : Option Decimal :=
  if a.coeff = 0 then some (if b.coeff = 0 then b else -b)
  else if b.coeff = 0 then some a
  else
    let s := commonScale a b
    ofScaled? (a.signedAt s - b.signedAt s) s (commonScale_le a b)

/-- An operation that had to give a result and could not. -/
inductive Overflow where
  | addition
  | subtraction
  deriving DecidableEq

/-- What is reported when the program stops at an overflow. -/
def Overflow.message : Overflow → String
  | .addition => "Addition overflowed"
  | .subtraction => "Subtraction overflowed"

/-- The sum, for a caller that takes it to exist. -/
def add (a b : Decimal) : Except Overflow Decimal :=
  match add? a b with
  | some c => .ok c
  | none => .error .addition

/-- The difference, for a caller that takes it to exist. -/
def sub (a b : Decimal) : Except Overflow Decimal :=
  match sub? a b with
  | some c => .ok c
  | none => .error .subtraction

/-! ## Small laws -/

/-- A sum that fits is not rounded. -/
theorem roundHalfEven_one (n : Nat) : roundHalfEven n 1 = n := by
  simp [roundHalfEven, Nat.mod_one]

theorem roundHalfUp_le (n d : Nat) (hd : 0 < d) : roundHalfUp n d ≤ n := by
  unfold roundHalfUp
  have h₁ : n ≤ d * n := Nat.le_mul_of_pos_left n hd
  have h₂ : 2 * d * (n + 1) = 2 * (d * n) + 2 * d := by
    rw [Nat.mul_add, Nat.mul_assoc, Nat.mul_one]
  refine Nat.le_of_lt_succ ?_
  rw [Nat.div_lt_iff_lt_mul (by omega), Nat.succ_eq_add_one, Nat.mul_comm (n + 1), h₂]
  omega

end CreditCircle.Decimal

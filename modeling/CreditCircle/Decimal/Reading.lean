/-
  Reading a decimal from text.

  A plain number is an optional sign and digits with at most one point, at least one digit
  in all; underscores may stand anywhere after the first digit.  Digits of the fraction that
  have no room are dropped, the first of them deciding whether the last kept one is rounded
  up.  An underscore directly behind the last place of a small coefficient is itself taken for
  the first dropped digit, a zero.  A text that is no plain number may be a plain number, `e`
  or `E`, and an exponent.

  * `parsePlain`, `parseScientific`: the two forms.
  * `parse`: either of them.
-/
import CreditCircle.Decimal.Arithmetic
import CreditCircle.Decimal.Text

namespace CreditCircle.Decimal

open Text

/-! ## Plain numbers -/

/-- What has been read of a plain number. -/
structure Prefix where
  coeff : Nat
  scale : Nat
  /-- The point has been read. -/
  point : Bool
  /-- A digit has been read. -/
  digit : Bool
  coeff_lt : coeff < 2 ^ 96
  scale_le : scale ≤ 28

namespace Prefix

/-- Coefficients below this bound take one more digit in 64 bits. -/
def smallBound : Nat := (2 ^ 64 - 1) / 10 - 255

/-- All places are taken, and the last digit was added to a small coefficient. -/
def IsShut (p : Prefix) : Prop := p.scale = 28 ∧ p.coeff / 10 < smallBound

instance (p : Prefix) : Decidable p.IsShut :=
  inferInstanceAs (Decidable (p.scale = 28 ∧ p.coeff / 10 < smallBound))

/-- Nothing but the sign. -/
def start : Prefix := ⟨0, 0, false, false, zero.coeff_lt, zero.scale_le⟩

/-- The number read so far. -/
def toDecimal (p : Prefix) (negative : Bool) : Decimal :=
  unsignZero ⟨negative, p.coeff, p.scale, p.coeff_lt, p.scale_le⟩

/-- The number rounded by the first digit that is dropped.  If the coefficient has no room for
    the carry, one more place is given up. -/
def rounded (p : Prefix) (negative : Bool) (first : Digit) : Option Decimal :=
  if first.val < 5 then some (p.toDecimal negative)
  else if h : p.coeff + 1 < 2 ^ 96 then
    some (unsignZero ⟨negative, p.coeff + 1, p.scale, h, p.scale_le⟩)
  else if p.scale = 0 then none
  else
    have := p.coeff_lt
    have := p.scale_le
    some (unsignZero ⟨negative, (p.coeff + 5) / 10, p.scale - 1, by omega, by omega⟩)

end Prefix

/-- What may follow the first dropped digit. -/
def isDropped (c : Char) : Bool := c == '_' || (Digit.ofChar? c).isSome

/-- Reads the rest of a plain number. -/
def scan (negative : Bool) (p : Prefix) : List Char → Option Decimal
  | [] => if p.digit then some (p.toDecimal negative) else none
  | c :: cs =>
    match Digit.ofChar? c with
    | some d =>
      if p.point then
        if h : 10 * p.coeff + d.val < 2 ^ 96 ∧ p.scale + 1 ≤ 28 then
          scan negative ⟨10 * p.coeff + d.val, p.scale + 1, true, true, h.1, h.2⟩ cs
        else if cs.all isDropped then p.rounded negative d else none
      else if h : 10 * p.coeff + d.val < 2 ^ 96 then
        scan negative ⟨10 * p.coeff + d.val, p.scale, false, true, h, p.scale_le⟩ cs
      else none
    | none =>
      if c = '.' ∧ p.point = false then scan negative { p with point := true } cs
      else if c = '_' ∧ p.digit then
        if p.IsShut then if cs.all isDropped then some (p.toDecimal negative) else none
        else scan negative p cs
      else none

/-- Reads a plain number. -/
def parsePlain : List Char → Option Decimal
  | '-' :: cs => scan true .start cs
  | '+' :: cs => scan false .start cs
  | cs => scan false .start cs

/-! ## Exponents -/

/-- Whether a character separates a number from its exponent. -/
def isExponentMark (c : Char) : Bool := c == 'e' || c == 'E'

/-- An exponent without a minus sign; it is kept in 32 bits. -/
def exponent? (cs : List Char) : Option Nat := do
  let cs := match cs with
    | '+' :: rest => rest
    | _ => cs
  let ds ← digits? cs
  if ds = [] ∨ 2 ^ 32 ≤ natOfDigits ds then none else some (natOfDigits ds)

/-- The number moved `e` places down; where there are more than 28 places, the last ones are
    rounded off. -/
def scaleDown? (d : Decimal) (e : Nat) : Option Decimal :=
  if he : 28 < e then none
  else if h : d.scale + e ≤ 28 then some { d with scale := d.scale + e, scale_le := h }
  else
    some ⟨d.negative, roundHalfUp d.coeff (10 ^ (d.scale + e - 28)), 28,
      Nat.lt_of_le_of_lt (roundHalfUp_le _ _ (Nat.pow_pos (by decide))) d.coeff_lt, by decide⟩

/-- The number moved `e` places up, unless it becomes too large. -/
def scaleUp? (d : Decimal) (e : Nat) : Option Decimal :=
  if e ≤ d.scale then
    some { d with scale := d.scale - e, scale_le := Nat.le_trans (Nat.sub_le _ _) d.scale_le }
  else if 28 < e then none
  else if h : d.coeff * 10 ^ (e - d.scale) < 2 ^ 96 then
    some (unsignZero ⟨d.negative, d.coeff * 10 ^ (e - d.scale), 0, h,
      Nat.le_trans (Nat.zero_le _) d.scale_le⟩)
  else none

/-- Reads a plain number with an exponent. -/
def parseScientific (cs : List Char) : Option Decimal :=
  match cs.span (fun c => !isExponentMark c) with
  | (_, []) => none
  | (base, _ :: exponent) => do
    let d ← parsePlain base
    match exponent with
    | '-' :: rest => d.scaleDown? (← exponent? rest)
    | _ => d.scaleUp? (← exponent? exponent)

/-- Reads a decimal. -/
def parse (cs : List Char) : Option Decimal := parsePlain cs <|> parseScientific cs

/-- Reads a decimal from a string. -/
def ofString? (s : String) : Option Decimal := parse s.toList

end CreditCircle.Decimal

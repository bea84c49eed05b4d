/-
  Balance limits.

  An account may hold at most `maxPos` and owe at most the magnitude of `maxNeg`.

  * `floor`, `IsExceededBy`: the range of allowed balances.
  * `positiveHeadroom`, `negativeHeadroom`: how much an account may still receive and send.
    They are sums that are taken to exist and stop the program if they overflow.
-/
import CreditCircle.Account
import CreditCircle.Decimal.Arithmetic
import CreditCircle.Decimal.Text

namespace CreditCircle

/-- The limits of one account. -/
structure BalanceLimit where
  account : AccountNumber
  /-- The largest balance. -/
  maxPos : Decimal
  /-- The deepest debt; only its magnitude counts. -/
  maxNeg : Decimal
  updatedAt : Timestamp
  deriving DecidableEq

namespace BalanceLimit

variable (limit : BalanceLimit) (balance : Decimal)

/-- The lowest allowed balance. -/
def floor : Decimal := -limit.maxNeg.abs

/-- The balance lies outside the limits. -/
def IsExceededBy : Prop := balance < limit.floor ∨ limit.maxPos < balance

instance : Decidable (limit.IsExceededBy balance) :=
  inferInstanceAs (Decidable (balance < limit.floor ∨ limit.maxPos < balance))

/-- The largest amount that may still be received. -/
def positiveHeadroom : Except Decimal.Overflow Decimal := do
  let room ← if 0 ≤ balance then limit.maxPos.sub balance else balance.abs.add limit.maxPos
  return room.max 0

/-- The largest amount that may still be sent. -/
def negativeHeadroom : Except Decimal.Overflow Decimal := do
  let room ← if 0 ≤ balance then balance.add limit.maxNeg.abs
    else limit.maxNeg.abs.sub balance.abs
  return room.max 0

end BalanceLimit

/-! ## Limits of new accounts -/

/-- The limits that every new account gets; neither is negative. -/
structure DefaultLimits where
  maxPos : Decimal
  maxNeg : Decimal
  maxPos_nonneg : ¬ maxPos < 0 := by decide
  maxNeg_nonneg : ¬ maxNeg < 0 := by decide

namespace DefaultLimits

/-- A bound that cannot be used. -/
inductive Fault where
  | negativeMaxPos (bound : Decimal)
  | negativeMaxNeg (bound : Decimal)

/-- What is wrong with the bounds. -/
def Fault.message : Fault → String
  | .negativeMaxPos bound =>
    s!"default maximum positive balance must not be negative, got {bound.text}"
  | .negativeMaxNeg bound =>
    s!"default maximum negative balance is a magnitude and must not be negative, got {bound.text}"

/-- The limits with the given bounds. -/
def ofBounds (maxPos maxNeg : Decimal) : Except Fault DefaultLimits :=
  if hp : maxPos < 0 then .error (.negativeMaxPos maxPos)
  else if hn : maxNeg < 0 then .error (.negativeMaxNeg maxNeg)
  else .ok ⟨maxPos, maxNeg, hp, hn⟩

/-- The bounds that hold when none are given. -/
def standard : DefaultLimits := ⟨.ofNat 500, .ofNat 500, by decide, by decide⟩

end DefaultLimits
end CreditCircle

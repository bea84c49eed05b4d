/-
  Operations on accounts.

  * `openAccount`: gives a member an account with balance zero and the default limits.
  * `updateLimits`: replaces the limits of an account, which have to include its balance.
-/
import CreditCircle.Ledger.Program

namespace CreditCircle

/-- How many account numbers are tried before a duplicate is reported. -/
def numberAttempts : Nat := 5

namespace Program

/-- Inserts an account and its limits in one unit of work. -/
def insertAccount (limits : DefaultLimits) (number : AccountNumber) (entity : EntityId)
    (opened limited : Timestamp) : Program Account := do
  let account ← ask (.insertAccount number entity opened)
  ask (.insertLimit ⟨number, limits.maxPos, limits.maxNeg, limited⟩)
  ask .commit
  return account

/-- Tries one drawn number after another, until one is not taken. -/
def tryNumbers (limits : DefaultLimits) (entity : EntityId) (chance : Chance) :
    (left attempt : Nat) → Program Account
  | left, attempt =>
    let number := AccountNumber.generate (chance.numbers attempt)
    let insertion := insertAccount limits number entity (chance.clock (2 * attempt))
      (chance.clock (2 * attempt + 1))
    match left with
    | 0 => insertion
    | left + 1 =>
      insertion.recover fun failure =>
        if failure = .refused (.duplicateKey (.number number)) then
          tryNumbers limits entity chance left (attempt + 1)
        else fail failure

/-- Opens the account of a member. -/
def openAccount (limits : DefaultLimits) (entity : EntityId) (chance : Chance) :
    Program Account :=
  tryNumbers limits entity chance (numberAttempts - 1) 0

/-- Takes an account row and reads its limits. -/
def lockAccount (number : AccountNumber) : Program (Account × BalanceLimit) := do
  let account ← require (.accountNotFound (.number number)) (← ask (.lockAccount number))
  let limit ← require (.accountNotFound (.limitOf number)) (← ask (.readLimit number))
  return (account, limit)

/-- Replaces the limits of an account. -/
def updateLimits (number : AccountNumber) (maxPos maxNeg : Decimal) (now : Timestamp) :
    Program BalanceLimit := do
  if maxPos < 0 ∨ maxNeg < 0 then refuse (.invalidLimit number .negative)
  let (account, limit) ← lockAccount number
  let limit := { limit with maxPos, maxNeg, updatedAt := now }
  if limit.IsExceededBy account.balance then
    refuse (.invalidLimit number (.excludesBalance account.balance))
  ask (.updateLimit limit)
  ask .commit
  return limit

end Program
end CreditCircle

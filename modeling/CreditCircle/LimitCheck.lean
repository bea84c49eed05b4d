/-
  Limit checks.

  A debit or credit is allowed if the new balance lies inside the account's limits.  The new
  balance that is returned is the very value that was checked.  A refusal names the headroom
  that the balance before had.
-/
import CreditCircle.BalanceLimit
import CreditCircle.LedgerError

namespace CreditCircle.BalanceLimit

/-- An overflow that stops the program. -/
def orCrash {α : Type} : Except Decimal.Overflow α → Except (Failure LedgerError) α
  | .ok a => .ok a
  | .error overflow => .error (.crashed overflow)

/-- The balance after sending `amount`. -/
def checkDebit (limit : BalanceLimit) (account : Account) (amount : Decimal) :
    Except (Failure LedgerError) Decimal :=
  match account.balance.sub? amount with
  | none => .error (.refused (.arithmeticOverflow .debit account.number))
  | some balance =>
    if limit.IsExceededBy balance then do
      let room ← orCrash (limit.negativeHeadroom account.balance)
      .error (.refused (.limitExceeded .sender account.number room))
    else .ok balance

/-- The balance after receiving `amount`. -/
def checkCredit (limit : BalanceLimit) (account : Account) (amount : Decimal) :
    Except (Failure LedgerError) Decimal :=
  match account.balance.add? amount with
  | none => .error (.refused (.arithmeticOverflow .credit account.number))
  | some balance =>
    if limit.IsExceededBy balance then do
      let room ← orCrash (limit.positiveHeadroom account.balance)
      .error (.refused (.limitExceeded .receiver account.number room))
    else .ok balance

end CreditCircle.BalanceLimit

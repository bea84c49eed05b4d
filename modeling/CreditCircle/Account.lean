/-
  Accounts and their postings.

  The balance of an account is a running total of its postings; it is negative while its
  owner owes credit to the others.
-/
import CreditCircle.AccountNumber.Basic
import CreditCircle.Decimal.Basic
import CreditCircle.Identifier
import CreditCircle.Timestamp.Basic

namespace CreditCircle

/-- The key of an account row. -/
structure AccountId where
  value : Nat
  deriving DecidableEq

/-- The key of a journal row. -/
structure JournalId where
  value : Nat
  deriving DecidableEq

/-- The key of a posting row. -/
structure PostingId where
  value : Nat
  deriving DecidableEq

/-- The account of one member. -/
structure Account where
  id : AccountId
  number : AccountNumber
  entity : EntityId
  balance : Decimal
  createdAt : Timestamp
  deriving DecidableEq

/-- A new account, with nothing on it. -/
def Account.opened (id : AccountId) (number : AccountNumber) (entity : EntityId)
    (now : Timestamp) : Account :=
  ⟨id, number, entity, 0, now⟩

/-- One leg of a completed transfer: negative for the sender, positive for the receiver. -/
structure Posting where
  id : PostingId
  account : AccountNumber
  journal : JournalId
  amount : Decimal
  createdAt : Timestamp
  deriving DecidableEq

end CreditCircle

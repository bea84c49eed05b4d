/-
  Questions to the ledger.

  All of them are answered from committed rows.  An account or transfer that does not exist is
  an error that says by what it was looked up.
-/
import CreditCircle.Ledger.Basic
import CreditCircle.Store.Search

namespace CreditCircle.Ledger

variable (l : Ledger)

/-- A value that has to exist. -/
def found {α : Type} (e : LedgerError) : Option α → Except LedgerError α
  | some a => .ok a
  | none => .error e

/-! ## Accounts -/

/-- The account of a number. -/
def accountByNumber (number : AccountNumber) : Except LedgerError Account :=
  found (.accountNotFound (.number number)) (l.tables.account? number)

/-- The account under a key. -/
def accountById (id : AccountId) : Except LedgerError Account :=
  found (.accountNotFound (.id id)) (l.tables.accountById? id)

/-- The account of a member. -/
def accountByEntity (entity : EntityId) : Except LedgerError Account :=
  found (.accountNotFound (.entity entity)) (l.tables.accountByEntity? entity)

/-! ## Limits -/

/-- The limits of an account. -/
def limitFor (number : AccountNumber) : Except LedgerError BalanceLimit :=
  found (.accountNotFound (.limitOf number)) (l.tables.limit? number)

/-- Whether a balance would lie outside the limits of an account. -/
def exceedsLimit (number : AccountNumber) (balance : Decimal) : Except LedgerError Bool := do
  return decide ((← l.limitFor number).IsExceededBy balance)

/-- The largest balance of an account. -/
def maxPositiveBalance (number : AccountNumber) : Except LedgerError Decimal := do
  return (← l.limitFor number).maxPos

/-- The magnitude of the deepest debt of an account. -/
def maxNegativeBalance (number : AccountNumber) : Except LedgerError Decimal := do
  return (← l.limitFor number).maxNeg.abs

/-! ## Transfers -/

/-- The journal of a transfer. -/
def journalOf (transfer : TransferId) : Except LedgerError Journal :=
  found (.transferNotFound (.transfer transfer)) (l.tables.journal? transfer)

/-- The journal under a key. -/
def journalById (id : JournalId) : Except LedgerError Journal :=
  found (.transferNotFound (.journal id)) (l.tables.journalById? id)

/-- The postings of a transfer. -/
def postingsOfTransfer (transfer : TransferId) : Except LedgerError (List Posting) := do
  return l.tables.postingsOfJournal (← l.journalOf transfer).id

/-- The postings of an account. -/
def postingsOfAccount (number : AccountNumber) : Except LedgerError (List Posting) := do
  let _ ← l.accountByNumber number
  return l.tables.postingsOfAccount number

end CreditCircle.Ledger

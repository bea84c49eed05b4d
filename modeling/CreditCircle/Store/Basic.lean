/-
  The store: committed tables, row locks, counters and armed failures.

  * `Tables`: what is committed, with an index for each further key of a row.
  * `RowKey`: what can be locked.
  * `Store`: the tables, the rows that open units of work hold, the counters that number new
    rows, and the writes that are about to fail.
-/
import CreditCircle.BalanceLimit
import CreditCircle.LedgerError
import CreditCircle.Table

namespace CreditCircle

/-- The committed rows. -/
structure Tables where
  accounts : Table AccountNumber Account
  /-- The number of the account under each key. -/
  accountIds : Table AccountId AccountNumber
  /-- The number of each member's account. -/
  entityAccounts : Table EntityId AccountNumber
  limits : Table AccountNumber BalanceLimit
  journals : Table TransferId Journal
  /-- The transfer of the journal under each key. -/
  journalIds : Table JournalId TransferId
  postings : Table JournalId (List Posting)
  deriving DecidableEq

/-- Nothing committed yet. -/
def Tables.empty : Tables :=
  ⟨.empty, .empty, .empty, .empty, .empty, .empty, .empty⟩

namespace Tables

variable (t : Tables)

/-! ## Look-ups -/

/-- The account of a number. -/
def account? (number : AccountNumber) : Option Account := t.accounts.get? number

/-- The account under a key. -/
def accountById? (id : AccountId) : Option Account :=
  (t.accountIds.get? id).bind t.account?

/-- The account of a member. -/
def accountByEntity? (entity : EntityId) : Option Account :=
  (t.entityAccounts.get? entity).bind t.account?

/-- The limits of an account. -/
def limit? (number : AccountNumber) : Option BalanceLimit := t.limits.get? number

/-- The journal of a transfer. -/
def journal? (transfer : TransferId) : Option Journal := t.journals.get? transfer

/-- The journal under a key. -/
def journalById? (id : JournalId) : Option Journal := (t.journalIds.get? id).bind t.journal?

/-- The accounts in the order of their numbers. -/
def accountList : List Account :=
  t.accounts.values.mergeSort fun a b => decide (a.number ≤ b.number)

/-- The postings of a journal, in the order in which they were booked. -/
def postingsOfJournal (id : JournalId) : List Posting := (t.postings.get? id).getD []

/-- The postings of an account, in the order of their keys. -/
def postingsOfAccount (number : AccountNumber) : List Posting :=
  (t.postings.values.flatten.filter fun p => p.account = number).mergeSort
    fun p q => decide (p.id.value ≤ q.id.value)

end Tables

/-! ## Locks, counters and failures -/

/-- A row that can be locked. -/
inductive RowKey where
  | account (number : AccountNumber)
  | journal (transfer : TransferId)
  deriving DecidableEq

/-- The last keys given out; they are used up also when a unit of work is dropped. -/
structure Sequences where
  account : Nat := 0
  journal : Nat := 0
  posting : Nat := 0
  deriving DecidableEq

/-- The whole store. -/
structure Store where
  tables : Tables
  /-- The rows that open units of work hold. -/
  held : List RowKey
  sequences : Sequences
  /-- The writes of which the next one fails. -/
  armed : List FailPoint
  deriving DecidableEq

namespace Store

/-- The store of a new ledger. -/
def empty : Store := ⟨.empty, [], {}, []⟩

/-- Makes the next write of a kind fail. -/
def arm (s : Store) (point : FailPoint) : Store :=
  if point ∈ s.armed then s else { s with armed := point :: s.armed }

/-- The store after an armed failure has struck. -/
def disarm (s : Store) (point : FailPoint) : Store :=
  { s with armed := s.armed.filter (· ≠ point) }

/-- The store after some rows have been given back. -/
def release (s : Store) (keys : List RowKey) : Store :=
  { s with held := s.held.filter (· ∉ keys) }

end Store
end CreditCircle

/-
  Calls: the steps of which the operations of a ledger are made.

  Each call is one visit to the store.  Between two calls of one operation any number of calls
  of others may happen.

  * `Call`, `Call.Reply`: the calls and the type of what each gives back.
  * `Call.perform`: what a call does to the ledger and to the unit of work of its operation.
    A call that asks for a row that somebody else holds does not happen yet.
-/
import CreditCircle.Ledger.Basic
import CreditCircle.Store.UnitOfWork

namespace CreditCircle

/-- One visit to the store. -/
inductive Call where
  /-- Reads a committed account, without a lock. -/
  | findAccount (number : AccountNumber)
  /-- Reads committed limits, without a lock. -/
  | findLimit (number : AccountNumber)
  /-- Takes an account row and reads it. -/
  | lockAccount (number : AccountNumber)
  /-- Takes a journal row and reads it. -/
  | lockJournal (transfer : TransferId)
  /-- Reads limits inside the unit of work. -/
  | readLimit (number : AccountNumber)
  | insertAccount (number : AccountNumber) (entity : EntityId) (now : Timestamp)
  | insertLimit (limit : BalanceLimit)
  | updateLimit (limit : BalanceLimit)
  | insertJournal (draft : JournalDraft)
  | updateJournal (journal : Journal)
  | insertPosting (account : AccountNumber) (journal : JournalId) (amount : Decimal)
      (now : Timestamp)
  | setBalance (number : AccountNumber) (balance : Decimal)
  /-- Commits the unit of work; a new one begins. -/
  | commit
  /-- Drops the unit of work; a new one begins. -/
  | rollback
  /-- Publishes an event. -/
  | publish (event : Event)

namespace Call

/-- What a call gives back. -/
@[reducible] def Reply : Call → Type
  | findAccount _ | lockAccount _ => Option Account
  | findLimit _ | readLimit _ => Option BalanceLimit
  | lockJournal _ => Option Journal
  | insertAccount .. => Account
  | insertJournal _ => Journal
  | insertPosting .. => Posting
  | insertLimit _ | updateLimit _ | updateJournal _ | setBalance .. | commit | rollback
  | publish _ => Unit

/-- The answer to a call, with the ledger and the unit of work after it. -/
abbrev Outcome (α : Type) := Except LedgerError α × Ledger × UnitOfWork

/-- A write of the unit of work, seen from the ledger. -/
def ofAnswer {α : Type} (l : Ledger) (answer : UnitOfWork.Answer α) : Option (Outcome α) :=
  some (answer.1, { l with store := answer.2.1 }, answer.2.2)

/-- A read behind a lock, if the lock was to be had. -/
def ofLock {α : Type} (l : Ledger) (locked : Option (Store × UnitOfWork))
    (read : Store → UnitOfWork → α) : Option (Outcome α) :=
  locked.map fun (s, u) => (.ok (read s u), { l with store := s }, u)

/-- Performs a call for the operation whose unit of work is `u`.  There is no outcome while the
    call has to wait. -/
def perform (l : Ledger) (u : UnitOfWork) : (c : Call) → Option (Outcome c.Reply)
  | findAccount number => some (.ok (l.tables.account? number), l, u)
  | findLimit number => some (.ok (l.tables.limit? number), l, u)
  | lockAccount number =>
    ofLock l (UnitOfWork.lockAccount l.store u number) fun s u => u.account? s number
  | lockJournal transfer =>
    ofLock l (UnitOfWork.lockJournal l.store u transfer) fun s u => u.journal? s transfer
  | readLimit number => some (.ok (u.limit? l.store number), l, u)
  | insertAccount number entity now => ofAnswer l (u.insertAccount l.store number entity now)
  | insertLimit limit => ofAnswer l (u.insertLimit l.store limit)
  | updateLimit limit => ofAnswer l (u.updateLimit l.store limit)
  | insertJournal draft => ofAnswer l (u.insertJournal l.store draft)
  | updateJournal journal => ofAnswer l (u.updateJournal l.store journal)
  | insertPosting account journal amount now =>
    ofAnswer l (u.insertPosting l.store account journal amount now)
  | setBalance number balance => ofAnswer l (u.setBalance l.store number balance)
  | commit => ofAnswer l (u.commit l.store)
  | rollback => ofAnswer l (u.rollback l.store)
  | publish event => some (.ok (), { l with events := l.events ++ [event] }, u)

end Call
end CreditCircle

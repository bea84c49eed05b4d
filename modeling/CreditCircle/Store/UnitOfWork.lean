/-
  Units of work.

  A unit of work collects writes that nobody else sees, holds locks on the rows that it reads
  for writing, and commits everything at once or nothing.

  * `UnitOfWork`: the locks and the staged rows.
  * `lock`: takes a row, unless another unit holds it.
  * `insertAccount`, …, `setBalance`: staged writes.  Each may be refused, by an armed failure
    first of all.
  * `commit`: checks the unique keys once more and applies the staged rows.
-/
import CreditCircle.Store.Basic

namespace CreditCircle

/-- The locks and the staged rows of one unit of work. -/
structure UnitOfWork where
  locks : List RowKey
  accounts : Table AccountNumber Account
  newAccounts : List AccountNumber
  limits : Table AccountNumber BalanceLimit
  newLimits : List AccountNumber
  journals : Table TransferId Journal
  newJournals : List TransferId
  postings : List Posting
  deriving DecidableEq

namespace UnitOfWork

/-- A unit of work that has done nothing. -/
def empty : UnitOfWork := ⟨[], .empty, [], .empty, [], .empty, [], []⟩

instance : Inhabited UnitOfWork := ⟨empty⟩

/-! ## Locks -/

/-- Takes a row.  There is no answer while another unit of work holds it. -/
def lock (s : Store) (u : UnitOfWork) (key : RowKey) : Option (Store × UnitOfWork) :=
  if key ∈ u.locks then some (s, u)
  else if key ∈ s.held then none
  else some ({ s with held := key :: s.held }, { u with locks := key :: u.locks })

/-- Takes an account row; a row that this unit has inserted needs no lock. -/
def lockAccount (s : Store) (u : UnitOfWork) (number : AccountNumber) :
    Option (Store × UnitOfWork) :=
  if number ∈ u.newAccounts then some (s, u) else lock s u (.account number)

/-- Takes a journal row; a row that this unit has staged needs no lock. -/
def lockJournal (s : Store) (u : UnitOfWork) (transfer : TransferId) :
    Option (Store × UnitOfWork) :=
  if u.journals.has transfer then some (s, u) else lock s u (.journal transfer)

/-- The unit may change the account row. -/
def OwnsAccount (u : UnitOfWork) (number : AccountNumber) : Prop :=
  number ∈ u.newAccounts ∨ RowKey.account number ∈ u.locks

/-- The unit may change the journal row. -/
def OwnsJournal (u : UnitOfWork) (transfer : TransferId) : Prop :=
  transfer ∈ u.newJournals ∨ RowKey.journal transfer ∈ u.locks

instance (u : UnitOfWork) (number : AccountNumber) : Decidable (u.OwnsAccount number) :=
  inferInstanceAs (Decidable (_ ∨ _))

instance (u : UnitOfWork) (transfer : TransferId) : Decidable (u.OwnsJournal transfer) :=
  inferInstanceAs (Decidable (_ ∨ _))

/-! ## Reads -/

/-- The account as this unit sees it. -/
def account? (s : Store) (u : UnitOfWork) (number : AccountNumber) : Option Account :=
  (u.accounts.get? number).or (s.tables.account? number)

/-- The journal as this unit sees it. -/
def journal? (s : Store) (u : UnitOfWork) (transfer : TransferId) : Option Journal :=
  (u.journals.get? transfer).or (s.tables.journal? transfer)

/-- The limits as this unit sees them. -/
def limit? (s : Store) (u : UnitOfWork) (number : AccountNumber) : Option BalanceLimit :=
  (u.limits.get? number).or (s.tables.limit? number)

/-! ## Staged writes -/

/-- The answer to a write, with the store and the unit after it. -/
abbrev Answer (α : Type) := Except LedgerError α × Store × UnitOfWork

/-- The answer, unless a failure is armed for this write; it is used up then. -/
def guarded {α : Type} (point : FailPoint) (s : Store) (u : UnitOfWork) (answer : Answer α) :
    Answer α :=
  if point ∈ s.armed then (.error (.storage (.injected point)), s.disarm point, u) else answer

/-- Inserts an account with balance zero. -/
def insertAccount (s : Store) (u : UnitOfWork) (number : AccountNumber) (entity : EntityId)
    (now : Timestamp) : Answer Account :=
  guarded .insertAccount s u <|
    if u.accounts.has number ∨ s.tables.accounts.has number then
      (.error (.duplicateKey (.number number)), s, u)
    else if s.tables.entityAccounts.has entity ∨
        u.accounts.values.any (fun a => a.entity = entity) then
      (.error (.duplicateKey (.entity entity)), s, u)
    else
      let id := s.sequences.account + 1
      let account := Account.opened ⟨id⟩ number entity now
      (.ok account, { s with sequences := { s.sequences with account := id } },
        { u with
          accounts := u.accounts.put number account
          newAccounts := u.newAccounts ++ [number] })

/-- Inserts the limits of an account. -/
def insertLimit (s : Store) (u : UnitOfWork) (limit : BalanceLimit) : Answer Unit :=
  guarded .insertBalanceLimit s u <|
    if u.limits.has limit.account ∨ s.tables.limits.has limit.account then
      (.error (.duplicateKey (.limit limit.account)), s, u)
    else
      (.ok (), s,
        { u with
          limits := u.limits.put limit.account limit
          newLimits := u.newLimits ++ [limit.account] })

/-- Replaces the limits of an account that this unit owns. -/
def updateLimit (s : Store) (u : UnitOfWork) (limit : BalanceLimit) : Answer Unit :=
  if u.OwnsAccount limit.account then
    (.ok (), s, { u with limits := u.limits.put limit.account limit })
  else (.error (.storage (.limitNotLocked limit.account)), s, u)

/-- Inserts a journal. -/
def insertJournal (s : Store) (u : UnitOfWork) (draft : JournalDraft) : Answer Journal :=
  guarded .insertJournal s u <|
    if u.journals.has draft.transfer ∨ s.tables.journals.has draft.transfer then
      (.error (.duplicateKey (.transfer draft.transfer)), s, u)
    else
      let id := s.sequences.journal + 1
      let journal := draft.toJournal ⟨id⟩
      (.ok journal, { s with sequences := { s.sequences with journal := id } },
        { u with
          journals := u.journals.put draft.transfer journal
          newJournals := u.newJournals ++ [draft.transfer] })

/-- Replaces a journal that this unit owns. -/
def updateJournal (s : Store) (u : UnitOfWork) (journal : Journal) : Answer Unit :=
  guarded .updateJournal s u <|
    if u.OwnsJournal journal.transfer then
      (.ok (), s, { u with journals := u.journals.put journal.transfer journal })
    else (.error (.storage (.journalNotLocked journal.transfer)), s, u)

/-- Books a posting. -/
def insertPosting (s : Store) (u : UnitOfWork) (account : AccountNumber) (journal : JournalId)
    (amount : Decimal) (now : Timestamp) : Answer Posting :=
  guarded .insertPosting s u <|
    let id := s.sequences.posting + 1
    let posting : Posting := ⟨⟨id⟩, account, journal, amount, now⟩
    (.ok posting, { s with sequences := { s.sequences with posting := id } },
      { u with postings := u.postings ++ [posting] })

/-- Sets the balance of an account that this unit owns. -/
def setBalance (s : Store) (u : UnitOfWork) (number : AccountNumber) (balance : Decimal) :
    Answer Unit :=
  guarded .setBalance s u <|
    if u.OwnsAccount number then
      match u.account? s number with
      | none => (.error (.accountNotFound (.number number)), s, u)
      | some account =>
        (.ok (), s, { u with accounts := u.accounts.put number { account with balance } })
    else (.error (.storage (.balanceNotLocked number)), s, u)

/-! ## The end of a unit of work -/

/-- A key of a new row that has been committed by somebody else in the meantime. -/
def conflict? (u : UnitOfWork) (t : Tables) : Option UniqueKey :=
  let account (number : AccountNumber) : Option UniqueKey :=
    if t.accounts.has number then some (.number number)
    else (u.accounts.get? number).bind fun a =>
      if t.entityAccounts.has a.entity then some (.entity a.entity) else none
  let limit (number : AccountNumber) : Option UniqueKey :=
    if t.limits.has number then some (.limit number) else none
  let journal (transfer : TransferId) : Option UniqueKey :=
    if t.journals.has transfer then some (.transfer transfer) else none
  (u.newAccounts.findSome? account).or <|
    (u.newLimits.findSome? limit).or (u.newJournals.findSome? journal)

/-- The tables with one more account row. -/
def applyAccount (u : UnitOfWork) (t : Tables) (number : AccountNumber) (a : Account) : Tables :=
  let t := { t with accounts := t.accounts.put number a }
  if number ∈ u.newAccounts then
    { t with
      accountIds := t.accountIds.put a.id number
      entityAccounts := t.entityAccounts.put a.entity number }
  else t

/-- The tables with one more journal row. -/
def applyJournal (u : UnitOfWork) (t : Tables) (transfer : TransferId) (j : Journal) : Tables :=
  let t := { t with journals := t.journals.put transfer j }
  if transfer ∈ u.newJournals then { t with journalIds := t.journalIds.put j.id transfer } else t

/-- The tables with one more posting. -/
def applyPosting (t : Tables) (p : Posting) : Tables :=
  { t with postings := t.postings.put p.journal (t.postingsOfJournal p.journal ++ [p]) }

/-- The tables with everything that is staged. -/
def applyTo (u : UnitOfWork) (t : Tables) : Tables :=
  let t := u.accounts.entries.foldl (fun t e => u.applyAccount t e.1 e.2) t
  let t := u.limits.entries.foldl (fun t e => { t with limits := t.limits.put e.1 e.2 }) t
  let t := u.journals.entries.foldl (fun t e => u.applyJournal t e.1 e.2) t
  u.postings.foldl applyPosting t

/-- Commits the staged rows, or none of them, and gives the locks back. -/
def commit (s : Store) (u : UnitOfWork) : Answer Unit :=
  if .commit ∈ s.armed then
    (.error (.storage (.injected .commit)), (s.disarm .commit).release u.locks, empty)
  else
    match u.conflict? s.tables with
    | some key => (.error (.duplicateKey key), s.release u.locks, empty)
    | none => (.ok (), { s with tables := u.applyTo s.tables }.release u.locks, empty)

/-- Drops the staged rows and gives the locks back. -/
def rollback (s : Store) (u : UnitOfWork) : Answer Unit := (.ok (), s.release u.locks, empty)

end UnitOfWork
end CreditCircle

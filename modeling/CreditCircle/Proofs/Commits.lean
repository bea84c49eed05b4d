/-
  What the commits of the operations do to the tables.

  * `Tables.withAccount`, `withLimit`, `withJournal`, `withNewJournal`, `withLegs`: the tables
    after one change.
  * `account?_withAccount`, …: look-ups after a change.
  * `allPostings_withLegs`: the legs of a transfer come after all other postings.
  * `applyTo_…`: the units of work that the operations commit make just these changes.
-/
import CreditCircle.Proofs.Calls
import CreditCircle.Proofs.Table

namespace CreditCircle

/-! ## Changes of the tables -/

namespace Tables

/-- The tables with one more account. -/
def withAccount (t : Tables) (a : Account) (limit : BalanceLimit) : Tables :=
  { t with
    accounts := t.accounts.put a.number a
    accountIds := t.accountIds.put a.id a.number
    entityAccounts := t.entityAccounts.put a.entity a.number
    limits := t.limits.put limit.account limit }

/-- The tables with other limits for an account. -/
def withLimit (t : Tables) (limit : BalanceLimit) : Tables :=
  { t with limits := t.limits.put limit.account limit }

/-- The tables with another row for a journal. -/
def withJournal (t : Tables) (j : Journal) : Tables :=
  { t with journals := t.journals.put j.transfer j }

/-- The tables with one more journal. -/
def withNewJournal (t : Tables) (j : Journal) : Tables :=
  { t with
    journals := t.journals.put j.transfer j
    journalIds := t.journalIds.put j.id j.transfer }

/-- All postings, in the order in which they were booked. -/
def allPostings (t : Tables) : List Posting := t.postings.values.flatten

/-- The postings of an account, in the order in which they were booked. -/
def bookedOn (t : Tables) (n : AccountNumber) : List Posting :=
  t.allPostings.filter fun p => p.account = n

/-- The tables with both legs of a transfer booked, and the accounts of its parties after it. -/
def withLegs (t : Tables) (j : Journal) (payer payee : Account) (debit credit : Posting) : Tables :=
  UnitOfWork.applyPosting (UnitOfWork.applyPosting
    { t with accounts := (t.accounts.put j.sender payer).put j.receiver payee } debit) credit

end Tables

/-- The transfer `j` is booked as `debit` and `credit`: its amount leaves the sender and reaches
    the receiver. -/
structure Journal.HasLegs (j : Journal) (debit credit : Posting) : Prop where
  debit_account : debit.account = j.sender
  debit_journal : debit.journal = j.id
  debit_amount : debit.amount = -j.amount
  credit_account : credit.account = j.receiver
  credit_journal : credit.journal = j.id
  credit_amount : credit.amount = j.amount

/-! ## Look-ups after a change -/

namespace Tables

variable (t : Tables)

@[simp] theorem account?_withAccount (a : Account) (limit : BalanceLimit) (n : AccountNumber) :
    (t.withAccount a limit).account? n = if n = a.number then some a else t.account? n :=
  Table.get?_put ..

@[simp] theorem account?_withLimit (limit : BalanceLimit) (n : AccountNumber) :
    (t.withLimit limit).account? n = t.account? n := rfl

@[simp] theorem account?_withJournal (j : Journal) (n : AccountNumber) :
    (t.withJournal j).account? n = t.account? n := rfl

@[simp] theorem account?_withNewJournal (j : Journal) (n : AccountNumber) :
    (t.withNewJournal j).account? n = t.account? n := rfl

@[simp] theorem limit?_withAccount (a : Account) (limit : BalanceLimit) (n : AccountNumber) :
    (t.withAccount a limit).limit? n = if n = limit.account then some limit else t.limit? n :=
  Table.get?_put ..

@[simp] theorem limit?_withLimit (limit : BalanceLimit) (n : AccountNumber) :
    (t.withLimit limit).limit? n = if n = limit.account then some limit else t.limit? n :=
  Table.get?_put ..

@[simp] theorem limit?_withJournal (j : Journal) (n : AccountNumber) :
    (t.withJournal j).limit? n = t.limit? n := rfl

@[simp] theorem limit?_withNewJournal (j : Journal) (n : AccountNumber) :
    (t.withNewJournal j).limit? n = t.limit? n := rfl

@[simp] theorem journal?_withAccount (a : Account) (limit : BalanceLimit) (x : TransferId) :
    (t.withAccount a limit).journal? x = t.journal? x := rfl

@[simp] theorem journal?_withLimit (limit : BalanceLimit) (x : TransferId) :
    (t.withLimit limit).journal? x = t.journal? x := rfl

@[simp] theorem journal?_withJournal (j : Journal) (x : TransferId) :
    (t.withJournal j).journal? x = if x = j.transfer then some j else t.journal? x :=
  Table.get?_put ..

@[simp] theorem journal?_withNewJournal (j : Journal) (x : TransferId) :
    (t.withNewJournal j).journal? x = if x = j.transfer then some j else t.journal? x :=
  Table.get?_put ..

section
variable (j : Journal) (payer payee : Account) (p q : Posting)

@[simp] theorem account?_withLegs (n : AccountNumber) :
    (t.withLegs j payer payee p q).account? n =
      if n = j.receiver then some payee else if n = j.sender then some payer else t.account? n :=
  (Table.get?_put ..).trans (congrArg _ (Table.get?_put ..))

@[simp] theorem limit?_withLegs (n : AccountNumber) :
    (t.withLegs j payer payee p q).limit? n = t.limit? n := rfl

@[simp] theorem journal?_withLegs (x : TransferId) :
    (t.withLegs j payer payee p q).journal? x = t.journal? x := rfl

variable {t j p q}

theorem postings_withLegs (hn : t.postings.get? j.id = none) (h : j.HasLegs p q) :
    (t.withLegs j payer payee p q).postings = t.postings.put j.id [p, q] := by
  simp only [withLegs, UnitOfWork.applyPosting, postingsOfJournal, h.debit_journal,
    h.credit_journal, hn, Table.get?_put_self, Table.put_put, Option.getD_none, Option.getD_some,
    List.nil_append, List.cons_append]

end

theorem exists_account_withAccount (a : Account) (limit : BalanceLimit) {n : AccountNumber}
    (h : ∃ b, t.account? n = some b) : ∃ b, (t.withAccount a limit).account? n = some b := by
  rw [account?_withAccount]
  split
  · exact ⟨_, rfl⟩
  · exact h

theorem exists_account_withLegs (j : Journal) (payer payee : Account) (p q : Posting)
    {n : AccountNumber} (h : ∃ b, t.account? n = some b) :
    ∃ b, (t.withLegs j payer payee p q).account? n = some b := by
  rw [account?_withLegs]
  split
  · exact ⟨_, rfl⟩
  · split
    · exact ⟨_, rfl⟩
    · exact h

theorem mem_allPostings_iff (p : Posting) :
    p ∈ t.allPostings ↔ ∃ id ps, t.postings.get? id = some ps ∧ p ∈ ps := by
  unfold allPostings
  rw [List.mem_flatten]
  constructor
  · rintro ⟨ps, hps, hp⟩
    obtain ⟨id, h⟩ := (Table.mem_values_iff _ _).1 hps
    exact ⟨id, ps, h, hp⟩
  · rintro ⟨id, ps, h, hp⟩
    exact ⟨ps, (Table.mem_values_iff _ _).2 ⟨id, h⟩, hp⟩

/-- The legs of a transfer come after all other postings. -/
theorem allPostings_withLegs {t : Tables} {j : Journal} {p q : Posting} (payer payee : Account)
    (hn : t.postings.get? j.id = none) (h : j.HasLegs p q) :
    (t.withLegs j payer payee p q).allPostings = t.allPostings ++ [p, q] := by
  unfold allPostings
  rw [postings_withLegs payer payee hn h, Table.values, Table.entries_put_of_new hn,
    List.map_append, List.flatten_append]
  rfl

end Tables

/-! ## Units of work -/

namespace UnitOfWork

variable (t : Tables)

theorem conflict?_eq_none {u : UnitOfWork} (ha : u.newAccounts = []) (hl : u.newLimits = [])
    (hj : ∀ transfer ∈ u.newJournals, t.journal? transfer = none) : u.conflict? t = none := by
  simp only [conflict?, ha, hl, List.findSome?_nil, Option.none_or, List.findSome?_eq_none_iff]
  intro transfer hm
  rw [Table.has_eq_false (hj transfer hm)]; rfl

theorem conflict?_account_eq_none {a : Account} {limit : BalanceLimit}
    (ha : t.account? a.number = none) (he : t.entityAccounts.get? a.entity = none)
    (hl : t.limit? limit.account = none) :
    { empty with
      accounts := Table.empty.put a.number a, newAccounts := [a.number]
      limits := Table.empty.put limit.account limit, newLimits := [limit.account] }.conflict? t =
      none := by
  have hn : t.accounts.has a.number = false := Table.has_eq_false ha
  have hn' : t.limits.has limit.account = false := Table.has_eq_false hl
  simp [conflict?, hn, hn', Table.has_eq_false he, empty]

theorem applyTo_account (a : Account) (limit : BalanceLimit) :
    { empty with
      accounts := Table.empty.put a.number a, newAccounts := [a.number]
      limits := Table.empty.put limit.account limit, newLimits := [limit.account] }.applyTo t =
      t.withAccount a limit := by
  simp [applyTo, Table.entries_put_empty, applyAccount, empty, Tables.withAccount]

theorem applyTo_limit (keys : List RowKey) (limit : BalanceLimit) :
    { holding keys with limits := Table.empty.put limit.account limit }.applyTo t =
      t.withLimit limit := by
  simp [applyTo, Table.entries_put_empty, holding, empty, Tables.withLimit]

theorem applyTo_newJournal (j : Journal) :
    { empty with
      journals := Table.empty.put j.transfer j, newJournals := [j.transfer] }.applyTo t =
      t.withNewJournal j := by
  simp [applyTo, Table.entries_put_empty, applyJournal, empty, Tables.withNewJournal]

theorem applyTo_journal (keys : List RowKey) (j : Journal) :
    { holding keys with journals := Table.empty.put j.transfer j }.applyTo t =
      t.withJournal j := by
  simp [applyTo, Table.entries_put_empty, applyJournal, holding, empty, Tables.withJournal]

variable {j : Journal} (payer payee : Account) (debit credit : Posting)

theorem applyTo_legs (keys : List RowKey) (h : j.sender ≠ j.receiver) :
    { holding keys with
      accounts := (Table.empty.put j.sender payer).put j.receiver payee
      journals := Table.empty.put j.transfer j
      postings := [debit, credit] }.applyTo t =
      (t.withLegs j payer payee debit credit).withJournal j := by
  simp [applyTo, Table.entries_put_put_empty h, Table.entries_put_empty, applyAccount, applyJournal,
    holding, empty, Tables.withJournal, Tables.withLegs, applyPosting, Tables.postingsOfJournal]

theorem applyTo_newLegs (keys : List RowKey) (h : j.sender ≠ j.receiver) :
    { holding keys with
      accounts := (Table.empty.put j.sender payer).put j.receiver payee
      journals := Table.empty.put j.transfer j, newJournals := [j.transfer]
      postings := [debit, credit] }.applyTo t =
      (t.withLegs j payer payee debit credit).withNewJournal j := by
  simp [applyTo, Table.entries_put_put_empty h, Table.entries_put_empty, applyAccount, applyJournal,
    holding, empty, Tables.withNewJournal, Tables.withLegs, applyPosting, Tables.postingsOfJournal]

end UnitOfWork
end CreditCircle

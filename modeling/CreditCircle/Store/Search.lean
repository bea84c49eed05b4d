/-
  Searching journals.

  * `JournalFilter`: criteria; the end of the time range is excluded.
  * `Tables.journalsMatching`: the matches, newest first, the later key first at equal times.
  * `SearchQuery`, `Tables.search`: one page of the matches and their number.
-/
import CreditCircle.Store.Basic

namespace CreditCircle

/-- Criteria for journals; an absent one is met by all. -/
structure JournalFilter where
  /-- The account on either side. -/
  account : Option AccountNumber := none
  status : Option Status := none
  /-- The earliest creation. -/
  createdFrom : Option Timestamp := none
  /-- The moment before which the journal was created. -/
  createdTo : Option Timestamp := none

/-- Whether a journal meets all criteria. -/
def JournalFilter.accepts (f : JournalFilter) (j : Journal) : Bool :=
  f.account.all (fun a => decide (j.Involves a)) && f.status.all (· == j.status) &&
    f.createdFrom.all (fun t => decide (t ≤ j.createdAt)) &&
    f.createdTo.all (fun t => decide (j.createdAt < t))

/-- Journals are listed newest first, and by falling key where times are equal. -/
def Journal.listedBefore (a b : Journal) : Bool :=
  decide (b.createdAt < a.createdAt) ||
    decide (a.createdAt = b.createdAt) && decide (b.id.value ≤ a.id.value)

/-- Criteria and the wanted page. -/
structure SearchQuery where
  filter : JournalFilter := {}
  offset : Nat := 0
  limit : Nat := 50

/-- One page of the matches and the number of all matches. -/
structure JournalPage where
  journals : List Journal
  total : Nat
  deriving DecidableEq

namespace Tables

/-- The journals that meet the criteria, newest first. -/
def journalsMatching (t : Tables) (f : JournalFilter) : List Journal :=
  (t.journals.values.filter f.accepts).mergeSort Journal.listedBefore

/-- The page that a query asks for. -/
def search (t : Tables) (q : SearchQuery) : JournalPage :=
  let found := t.journalsMatching q.filter
  ⟨(found.drop q.offset).take q.limit, found.length⟩

end Tables
end CreditCircle

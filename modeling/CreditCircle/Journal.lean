/-
  Journals: the header records of transfers.

  A journal starts as `initiated` and leaves that status once: it is completed when the
  transfer is booked, or cancelled with a reason.

  * `Status`, `Party`, `Journal`: the record.
  * `JournalDraft`: a journal before the store has given it a key.
  * `completed`, `cancelled`: the two ways in which a transfer ends.
-/
import CreditCircle.Account

namespace CreditCircle

/-- Where a transfer stands. -/
inductive Status where
  | initiated
  | completed
  | cancelled
  deriving DecidableEq

namespace Status

/-- The name of a status. -/
def name : Status → String
  | .initiated => "initiated"
  | .completed => "completed"
  | .cancelled => "cancelled"

/-- The status of a name. -/
def ofName? (s : String) : Option Status :=
  if s = "initiated" then some .initiated
  else if s = "completed" then some .completed
  else if s = "cancelled" then some .cancelled
  else none

/-- Whether a transfer has ended. -/
def isTerminal (s : Status) : Bool := s != .initiated

theorem ofName?_name (s : Status) : ofName? s.name = some s := by
  cases s <;> decide

end Status

/-- How a party of a transfer is to be notified. -/
structure Party where
  email : String
  entityName : String
  deriving DecidableEq

/-- The header record of one transfer. -/
structure Journal where
  id : JournalId
  transfer : TransferId
  /-- The account that proposed the transfer. -/
  initiator : AccountNumber
  sender : AccountNumber
  receiver : AccountNumber
  senderParty : Option Party
  receiverParty : Option Party
  amount : Decimal
  description : String
  status : Status
  reason : Option String
  createdAt : Timestamp
  updatedAt : Timestamp
  completedAt : Option Timestamp
  deriving DecidableEq

namespace Journal

/-- The account on the other side of `account`. -/
def counterparty (j : Journal) (account : AccountNumber) : AccountNumber :=
  if account = j.sender then j.receiver else j.sender

/-- The account is one of the two sides. -/
def Involves (j : Journal) (account : AccountNumber) : Prop :=
  j.sender = account ∨ j.receiver = account

instance (j : Journal) (account : AccountNumber) : Decidable (j.Involves account) :=
  inferInstanceAs (Decidable (_ ∨ _))

/-- The journal of a transfer that has been booked. -/
def completed (j : Journal) (now : Timestamp) : Journal :=
  { j with status := .completed, completedAt := some now, updatedAt := now }

/-- The journal of a transfer that will not be booked. -/
def cancelled (j : Journal) (reason : String) (now : Timestamp) : Journal :=
  { j with status := .cancelled, reason := some reason, updatedAt := now }

end Journal

/-- A journal that has no key yet. -/
structure JournalDraft where
  transfer : TransferId
  initiator : AccountNumber
  sender : AccountNumber
  receiver : AccountNumber
  senderParty : Option Party
  receiverParty : Option Party
  amount : Decimal
  description : String
  createdAt : Timestamp
  deriving DecidableEq

/-- The journal that a draft becomes. -/
def JournalDraft.toJournal (d : JournalDraft) (id : JournalId) : Journal where
  id := id
  transfer := d.transfer
  initiator := d.initiator
  sender := d.sender
  receiver := d.receiver
  senderParty := d.senderParty
  receiverParty := d.receiverParty
  amount := d.amount
  description := d.description
  status := .initiated
  reason := none
  createdAt := d.createdAt
  updatedAt := d.createdAt
  completedAt := none

end CreditCircle

/-
  Events.

  The ledger publishes one event after each committed change of a journal.  An event carries
  the journal as it was committed.
-/
import CreditCircle.Journal

namespace CreditCircle

/-- Who ended a transfer that was not booked. -/
inductive Canceller where
  /-- The account that proposed it withdrew it. -/
  | initiator
  /-- The other account refused it. -/
  | counterparty
  /-- The ledger found a limit in the way. -/
  | system
  deriving DecidableEq

/-- A committed change of a journal. -/
inductive Event where
  | proposed (journal : Journal)
  | accepted (journal : Journal)
  | cancelled (journal : Journal) (canceller : Canceller)
  deriving DecidableEq

namespace Event

/-- The journal as it was committed. -/
def journal : Event → Journal
  | proposed j | accepted j | cancelled j _ => j

/-- The name under which an event is published. -/
def name : Event → String
  | proposed _ => "transfer_proposed"
  | accepted _ => "transfer_accepted"
  | cancelled _ _ => "transfer_cancelled"

/-- Where the transfer stood after the change. -/
def status (e : Event) : Status := e.journal.status

end Event
end CreditCircle

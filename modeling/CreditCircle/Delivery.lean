/-
  Delivery of events.

  Events are delivered one by one, in the order in which they were published.  A notification
  that fails is logged and dropped; it cannot reach back into the ledger.

  * `LogRecord`: a line of the log, as a message and named texts.
  * `Notifier`: who is told about an event; `Notifier.log` only writes it down.
  * `deliver`: all events in turn.
-/
import CreditCircle.Event
import CreditCircle.Decimal.Text

namespace CreditCircle

/-- A line of the log. -/
structure LogRecord where
  message : String
  fields : List (String × String)
  deriving DecidableEq

/-- A notification that did not get through. -/
structure NotifyError where
  reason : String
  deriving DecidableEq

def NotifyError.message (e : NotifyError) : String := s!"notification failed: {e.reason}"

/-- Tells somebody about an event: what it logs, or why it fails. -/
abbrev Notifier := Event → Except NotifyError (List LogRecord)

namespace Event

/-- The line that describes an event in full. -/
def logRecord (e : Event) : LogRecord where
  message := "ledger event"
  fields :=
    [("event", e.name),
     ("status", e.status.name),
     ("transfer", toString e.journal.transfer),
     ("initiated_by", toString e.journal.initiator),
     ("counterparty", toString (e.journal.counterparty e.journal.initiator)),
     ("amount", toString e.journal.amount),
     ("reason", e.journal.reason.getD "")]

/-- The line about a notification that failed. -/
def failureRecord (e : Event) (error : NotifyError) : LogRecord where
  message := "ledger event notification failed"
  fields :=
    [("event", e.name),
     ("transfer", toString e.journal.transfer),
     ("error", error.message)]

end Event

/-- Writes every event to the log. -/
def Notifier.log : Notifier := fun e => .ok [e.logRecord]

/-- What has become of the events delivered so far. -/
structure Delivery where
  /-- The events that got through. -/
  delivered : List Event := []
  /-- The events that did not. -/
  failed : List Event := []
  log : List LogRecord := []

namespace Delivery

/-- Delivers one more event. -/
def next (notify : Notifier) (d : Delivery) (e : Event) : Delivery :=
  match notify e with
  | .ok records => { d with delivered := d.delivered ++ [e], log := d.log ++ records }
  | .error error => { d with failed := d.failed ++ [e], log := d.log ++ [e.failureRecord error] }

end Delivery

/-- Delivers all events in turn. -/
def deliver (notify : Notifier) (events : List Event) : Delivery :=
  events.foldl (Delivery.next notify) {}

end CreditCircle

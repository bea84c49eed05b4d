/-
  The ledger: its store, the events it has published, and what an operation is given.

  * `Ledger`: the state that operations change.
  * `Rules`: the limits of new accounts, and which accounts may transact.
  * `Chance`: everything that one operation draws at random or reads off the clock.
-/
import CreditCircle.Event
import CreditCircle.Store.Basic

namespace CreditCircle

/-- The store and the events published so far, oldest first. -/
structure Ledger where
  store : Store
  events : List Event
  deriving DecidableEq

namespace Ledger

/-- A new ledger. -/
def empty : Ledger := ⟨.empty, []⟩

/-- The committed rows. -/
def tables (l : Ledger) : Tables := l.store.tables

/-- Makes the next write of a kind fail. -/
def arm (l : Ledger) (point : FailPoint) : Ledger := { l with store := l.store.arm point }

end Ledger

/-- What holds for all operations of a ledger. -/
structure Rules where
  /-- The limits of new accounts. -/
  limits : DefaultLimits
  /-- Whether an account may take part in transfers. -/
  eligible : AccountNumber → Bool

/-- The rules under which every account may transact. -/
def Rules.open (limits : DefaultLimits) : Rules := ⟨limits, fun _ => true⟩

/-- The readings of the clock during one operation, in their order. -/
abbrev Clock := Nat → Timestamp

/-- What one operation draws and reads off the clock. -/
structure Chance where
  /-- The identifier of a new member. -/
  entity : EntityId
  /-- The draws behind the account numbers that are tried in turn. -/
  numbers : Nat → Nat
  /-- The identifier of a new transfer. -/
  transfer : TransferId
  clock : Clock

end CreditCircle

/-
  Requests for a transfer.

  * `checkAmount`: an amount is positive and a whole number of cents.
  * `TransferRequest`: who pays whom, how much, and who asks for it.
  * `TransferRequest.check`: the refusals that need no look at the books, in their order.
-/
import CreditCircle.LedgerError

namespace CreditCircle

/-- The places that an amount may have. -/
def amountPlaces : Nat := 2

/-- Refuses an amount that is not positive or finer than a cent. -/
def checkAmount (amount : Decimal) : Except LedgerError Unit :=
  if amount ≤ 0 then .error (.invalidAmount amount .notPositive)
  else if amountPlaces < amount.neededPlaces then .error (.invalidAmount amount .tooManyPlaces)
  else .ok ()

/-- The wish to move an amount from one account to another. -/
structure TransferRequest where
  sender : AccountNumber
  receiver : AccountNumber
  /-- The account that proposes the transfer. -/
  initiator : AccountNumber
  amount : Decimal
  description : String
  senderParty : Option Party
  receiverParty : Option Party
  deriving DecidableEq

namespace TransferRequest

/-- The sender proposes to pay. -/
def send (sender receiver : AccountNumber) (amount : Decimal) : TransferRequest :=
  ⟨sender, receiver, sender, amount, "", none, none⟩

/-- The receiver asks to be paid. -/
def request (sender receiver : AccountNumber) (amount : Decimal) : TransferRequest :=
  ⟨sender, receiver, receiver, amount, "", none, none⟩

/-- Refuses a request that no state of the books could grant. -/
def check (r : TransferRequest) (eligible : AccountNumber → Bool) : Except LedgerError Unit := do
  checkAmount r.amount
  if r.sender = r.receiver then throw (.selfTransfer r.sender)
  if r.initiator ≠ r.sender ∧ r.initiator ≠ r.receiver then throw (.invalidInitiator r.initiator)
  if !eligible r.sender then throw (.accountIneligible r.sender)
  if !eligible r.receiver then throw (.accountIneligible r.receiver)

/-- The journal of a new transfer, still without a key. -/
def draft (r : TransferRequest) (transfer : TransferId) (now : Timestamp) : JournalDraft where
  transfer := transfer
  initiator := r.initiator
  sender := r.sender
  receiver := r.receiver
  senderParty := r.senderParty
  receiverParty := r.receiverParty
  amount := r.amount
  description := r.description
  createdAt := now

end TransferRequest
end CreditCircle

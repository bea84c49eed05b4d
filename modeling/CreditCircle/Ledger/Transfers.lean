/-
  Operations on transfers.

  A transfer is proposed by one party and waits; later it is accepted, rejected or cancelled.
  Or it is booked at once.

  * `propose`: checks the request and both limits, and records the transfer as pending.
  * `accept`: books a pending transfer.  If a limit is in the way by now, the ledger cancels it
    instead.
  * `reject`, `cancel`: end a pending transfer unbooked.
  * `transferNow`: checks, records and books in one unit of work.

  Rows are always taken in the same order, the journal first and then the accounts by rising
  number, so that operations cannot wait for each other in a circle.
-/
import CreditCircle.Ledger.Accounts
import CreditCircle.LimitCheck
import CreditCircle.TransferRequest

namespace CreditCircle.Program

/-! ## Parts of operations -/

/-- A committed account. -/
def findAccount (number : AccountNumber) : Program Account := do
  require (.accountNotFound (.number number)) (← ask (.findAccount number))

/-- The committed limits of an account. -/
def findLimit (number : AccountNumber) : Program BalanceLimit := do
  require (.accountNotFound (.limitOf number)) (← ask (.findLimit number))

/-- The balances of the two parties after a transfer, if both limits allow them. -/
def newBalances (sender receiver : Account × BalanceLimit) (amount : Decimal) :
    Except (Failure LedgerError) (Decimal × Decimal) := do
  let debited ← sender.2.checkDebit sender.1 amount
  let credited ← receiver.2.checkCredit receiver.1 amount
  return (debited, credited)

/-- Whether an amount could be moved now.  Nothing is locked, so the answer may be out of date
    when it arrives. -/
def checkBalance (sender receiver : AccountNumber) (amount : Decimal) : Program Unit := do
  let payer ← findAccount sender
  let payee ← findAccount receiver
  let senderLimit ← findLimit sender
  let receiverLimit ← findLimit receiver
  let _ ← compute (newBalances (payer, senderLimit) (payee, receiverLimit) amount)

/-- Takes the row of a transfer that is still pending. -/
def lockPending (transfer : TransferId) (action : Action) : Program Journal := do
  let journal ← require (.transferNotFound (.transfer transfer)) (← ask (.lockJournal transfer))
  if journal.status.isTerminal then
    refuse (.invalidStateTransition transfer journal.status action)
  return journal

/-- Takes the rows of both parties, the lower number first. -/
def lockParties (sender receiver : AccountNumber) :
    Program ((Account × BalanceLimit) × (Account × BalanceLimit)) := do
  if sender ≤ receiver then
    let payer ← lockAccount sender
    let payee ← lockAccount receiver
    return (payer, payee)
  else
    let payee ← lockAccount receiver
    let payer ← lockAccount sender
    return (payer, payee)

/-- Books both legs of a transfer and sets both balances. -/
def book (journal : Journal) (balances : Decimal × Decimal) (debitTime creditTime : Timestamp) :
    Program Unit := do
  let _ ← ask (.insertPosting journal.sender journal.id (-journal.amount) debitTime)
  let _ ← ask (.insertPosting journal.receiver journal.id journal.amount creditTime)
  ask (.setBalance journal.sender balances.1)
  ask (.setBalance journal.receiver balances.2)

/-- Commits the last change of a journal and makes it known. -/
def conclude (journal : Journal) (event : Event) : Program Journal := do
  ask (.updateJournal journal)
  ask .commit
  ask (.publish event)
  return journal

/-! ## Operations -/

/-- Records a pending transfer.  No balance changes. -/
def propose (rules : Rules) (request : TransferRequest) (chance : Chance) : Program Journal := do
  check (request.check rules.eligible)
  checkBalance request.sender request.receiver request.amount
  let journal ← ask (.insertJournal (request.draft chance.transfer (chance.clock 0)))
  ask .commit
  ask (.publish (.proposed journal))
  return journal

/-- Why the ledger cancels a transfer. -/
def systemReason : Side → String
  | .sender => "cancelled by system: exceeds credit limit"
  | .receiver => "cancelled by system: exceeds maximum positive balance"

/-- Books a pending transfer, or cancels it if a limit is in the way. -/
def accept (transfer : TransferId) (clock : Clock) : Program Journal := do
  let journal ← lockPending transfer .accept
  let (sender, receiver) ← lockParties journal.sender journal.receiver
  match newBalances sender receiver journal.amount with
  | .ok balances =>
    book journal balances (clock 1) (clock 2)
    let journal := journal.completed (clock 0)
    conclude journal (.accepted journal)
  | .error (.refused (.limitExceeded side _ _)) =>
    let journal := journal.cancelled (systemReason side) (clock 0)
    conclude journal (.cancelled journal .system)
  | .error failure => fail failure

/-- Ends a pending transfer unbooked. -/
def close (transfer : TransferId) (reason : String) (action : Action) (canceller : Canceller)
    (now : Timestamp) : Program Journal := do
  let journal ← lockPending transfer action
  let journal := journal.cancelled reason now
  conclude journal (.cancelled journal canceller)

/-- The other party declines a pending transfer. -/
def reject (transfer : TransferId) (reason : String) (now : Timestamp) : Program Journal :=
  close transfer reason .reject .counterparty now

/-- The party that proposed a transfer withdraws it. -/
def cancel (transfer : TransferId) (reason : String) (now : Timestamp) : Program Journal :=
  close transfer reason .cancel .initiator now

/-- Records and books a transfer in one unit of work. -/
def transferNow (rules : Rules) (request : TransferRequest) (chance : Chance) :
    Program Journal := do
  check (request.check rules.eligible)
  let (sender, receiver) ← lockParties request.sender request.receiver
  let balances ← compute (newBalances sender receiver request.amount)
  let journal ← ask (.insertJournal (request.draft chance.transfer (chance.clock 0)))
  book journal balances (chance.clock 1) (chance.clock 2)
  let journal := journal.completed (chance.clock 3)
  conclude journal (.accepted journal)

end CreditCircle.Program

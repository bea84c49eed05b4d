/-
  Why the ledger refuses an operation.

  * `LedgerError`: the causes, with what they are about.
  * `LedgerError.kind`: the five categories that callers tell apart.
  * `LedgerError.message`: the wording.
  * `Failure`: an operation that gives no result was refused, stopped the program, or waits
    for a row that somebody else holds.
-/
import CreditCircle.Decimal.Arithmetic
import CreditCircle.Decimal.Text
import CreditCircle.Journal

namespace CreditCircle

/-! ## Causes -/

/-- What is wrong with an amount. -/
inductive AmountFault where
  | notPositive
  | tooManyPlaces
  deriving DecidableEq

/-- What is wrong with new limits. -/
inductive LimitFault where
  | negative
  | excludesBalance (balance : Decimal)
  deriving DecidableEq

/-- The side of a transfer whose limit stands in the way. -/
inductive Side where
  | sender
  | receiver
  deriving DecidableEq

/-- What a limit check does with the amount. -/
inductive Leg where
  | debit
  | credit
  deriving DecidableEq

/-- By what an account was looked up. -/
inductive AccountLookup where
  | number (number : AccountNumber)
  | id (id : AccountId)
  | entity (entity : EntityId)
  | limitOf (number : AccountNumber)
  deriving DecidableEq

/-- By what a transfer was looked up. -/
inductive TransferLookup where
  | transfer (transfer : TransferId)
  | journal (id : JournalId)
  deriving DecidableEq

/-- What was tried with a pending transfer. -/
inductive Action where
  | accept
  | reject
  | cancel
  deriving DecidableEq

/-- A value that only one row of a table may have. -/
inductive UniqueKey where
  | number (number : AccountNumber)
  | entity (entity : EntityId)
  | limit (number : AccountNumber)
  | transfer (transfer : TransferId)
  deriving DecidableEq

/-- A write that can be made to fail. -/
inductive FailPoint where
  | insertAccount
  | insertBalanceLimit
  | insertJournal
  | updateJournal
  | insertPosting
  | setBalance
  | commit
  deriving DecidableEq

/-- A failure of the store itself. -/
inductive StorageFault where
  | injected (point : FailPoint)
  | limitNotLocked (number : AccountNumber)
  | journalNotLocked (transfer : TransferId)
  | balanceNotLocked (number : AccountNumber)
  deriving DecidableEq

/-- The reasons for which the ledger refuses an operation. -/
inductive LedgerError where
  | invalidAmount (amount : Decimal) (fault : AmountFault)
  | invalidAccountNumber (input : String)
  | selfTransfer (account : AccountNumber)
  | accountIneligible (account : AccountNumber)
  | invalidInitiator (initiator : AccountNumber)
  | invalidLimit (account : AccountNumber) (fault : LimitFault)
  | arithmeticOverflow (leg : Leg) (account : AccountNumber)
  | accountNotFound (lookup : AccountLookup)
  | transferNotFound (lookup : TransferLookup)
  | limitExceeded (side : Side) (account : AccountNumber) (maxTransferable : Decimal)
  | invalidStateTransition (transfer : TransferId) (status : Status) (action : Action)
  | duplicateKey (key : UniqueKey)
  | storage (fault : StorageFault)
  deriving DecidableEq

/-- What a caller has to tell apart. -/
inductive ErrorKind where
  | validation
  | notFound
  | limitExceeded
  | invalidStateTransition
  | persistence
  deriving DecidableEq

/-! ## Wording -/

def AmountFault.message : AmountFault → String
  | .notPositive => "must be greater than zero"
  | .tooManyPlaces => "must have at most two decimal places"

def LimitFault.message : LimitFault → String
  | .negative => "limits must not be negative"
  | .excludesBalance balance => s!"current balance {balance} lies outside the new limits"

def Side.message : Side → String
  | .sender => "the sender will exceed its credit limit"
  | .receiver => "the receiver will exceed its maximum positive balance"

def Leg.name : Leg → String
  | .debit => "debit"
  | .credit => "credit"

def AccountLookup.message : AccountLookup → String
  | .number n => s!"number {n}"
  | .id i => s!"id {i.value}"
  | .entity e => s!"entity {e}"
  | .limitOf n => s!"balance limit of {n}"

def TransferLookup.message : TransferLookup → String
  | .transfer t => toString t
  | .journal i => s!"journal id {i.value}"

def Action.name : Action → String
  | .accept => "accept"
  | .reject => "reject"
  | .cancel => "cancel"

/-- The table whose rows a key tells apart. -/
def UniqueKey.table : UniqueKey → String
  | .number _ | .entity _ => "accounts"
  | .limit _ => "balance_limits"
  | .transfer _ => "journals"

/-- The text of a key. -/
def UniqueKey.text : UniqueKey → String
  | .number n | .limit n => toString n
  | .entity e => toString e
  | .transfer t => toString t

def FailPoint.name : FailPoint → String
  | .insertAccount => "InsertAccount"
  | .insertBalanceLimit => "InsertBalanceLimit"
  | .insertJournal => "InsertJournal"
  | .updateJournal => "UpdateJournal"
  | .insertPosting => "InsertPosting"
  | .setBalance => "SetBalance"
  | .commit => "Commit"

/-- All kinds of writes that can be made to fail. -/
def FailPoint.all : List FailPoint :=
  [.insertAccount, .insertBalanceLimit, .insertJournal, .updateJournal, .insertPosting,
    .setBalance, .commit]

/-- The write of a name. -/
def FailPoint.ofName? (s : String) : Option FailPoint := all.find? fun p => p.name = s

def StorageFault.message : StorageFault → String
  | .injected point => s!"injected failure at {point.name}"
  | .limitNotLocked number => s!"balance limit of {number} updated without holding its account lock"
  | .journalNotLocked transfer => s!"journal {transfer} updated without holding its lock"
  | .balanceNotLocked number => s!"balance of {number} updated without holding its lock"

namespace LedgerError

/-- The text that a caller sees. -/
def message : LedgerError → String
  | invalidAmount amount fault => s!"Invalid amount {amount}: {fault.message}"
  | invalidAccountNumber input => s!"Invalid account number '{input}'"
  | selfTransfer account => s!"Account {account} cannot transfer to itself"
  | accountIneligible account => s!"Account {account} is not allowed to transact"
  | invalidInitiator initiator => s!"Initiator {initiator} must be the sender or the receiver"
  | invalidLimit account fault =>
    s!"Invalid balance limit for account {account}: {fault.message}"
  | arithmeticOverflow leg account =>
    s!"Arithmetic overflow in {leg.name} for account {account}"
  | accountNotFound lookup => s!"Account not found: {lookup.message}"
  | transferNotFound lookup => s!"Transfer not found: {lookup.message}"
  | limitExceeded side _ maxTransferable =>
    s!"{side.message}; the maximum amount that can be transferred is {maxTransferable.cents}"
  | invalidStateTransition transfer status action =>
    s!"Cannot {action.name} transfer {transfer}: it has already been {status.name}"
  | duplicateKey key => s!"Duplicate key in {key.table}: {key.text}"
  | storage fault => s!"Persistence error: {fault.message}"

/-- The category of an error. -/
def kind : LedgerError → ErrorKind
  | invalidAmount .. | invalidAccountNumber .. | selfTransfer .. | accountIneligible ..
  | invalidInitiator .. | invalidLimit .. | arithmeticOverflow .. => .validation
  | accountNotFound .. | transferNotFound .. => .notFound
  | limitExceeded .. => .limitExceeded
  | invalidStateTransition .. => .invalidStateTransition
  | duplicateKey .. | storage .. => .persistence

end LedgerError

/-! ## Failures -/

/-- How an operation can end without a result. -/
inductive Failure (ε : Type) where
  /-- It was refused. -/
  | refused (error : ε)
  /-- The program stopped at an overflow. -/
  | crashed (overflow : Decimal.Overflow)
  /-- It waits for a row that another unit of work holds. -/
  | blocked
  deriving DecidableEq

/-- The same failure with another kind of refusal. -/
def Failure.map {ε ε' : Type} (f : ε → ε') : Failure ε → Failure ε'
  | refused error => .refused (f error)
  | crashed overflow => .crashed overflow
  | blocked => .blocked

namespace AccountNumber

/-- Reads an account number or says which text is none. -/
def parse (s : String) : Except LedgerError AccountNumber :=
  match parse? s.toList with
  | some number => .ok number
  | none => .error (.invalidAccountNumber s)

end AccountNumber
end CreditCircle

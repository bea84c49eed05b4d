/-
  Programs: operations of the ledger as sequences of calls.

  A program is finished, or makes a call and goes on with what the call gives back.

  * `Program`: the programs, with a monad instance.
  * `Program.recover`: goes on after a failure, in a new unit of work.
  * `Worker`: carries out a program; it holds what is left of the program and the unit of work
    that is open.  `step` makes one call.
  * `Ledger.run`: an operation from start to end, nobody else interfering.
-/
import CreditCircle.Ledger.Call

namespace CreditCircle

/-- A sequence of calls that ends with a result or a failure. -/
inductive Program (α : Type) where
  | done (result : α)
  | fail (failure : Failure LedgerError)
  | call (c : Call) (next : Except LedgerError c.Reply → Program α)

namespace Program

variable {α β : Type}

/-! ## Building programs -/

/-- Goes on with the result. -/
def bind (p : Program α) (f : α → Program β) : Program β :=
  match p with
  | done a => f a
  | fail e => fail e
  | call c next => call c fun r => (next r).bind f

instance : Monad Program where
  pure := done
  bind := bind

/-- Makes one call; a refusal ends the program. -/
def ask (c : Call) : Program c.Reply :=
  call c fun
    | .ok reply => done reply
    | .error e => fail (.refused e)

/-- Ends with a refusal. -/
def refuse (e : LedgerError) : Program α := fail (.refused e)

/-- Ends with a refusal unless there is a value. -/
def require (e : LedgerError) : Option α → Program α
  | some a => done a
  | none => refuse e

/-- A check that needs no call. -/
def check : Except LedgerError α → Program α
  | .ok a => done a
  | .error e => refuse e

/-- A computation that needs no call. -/
def compute : Except (Failure LedgerError) α → Program α
  | .ok a => done a
  | .error failure => fail failure

/-- Goes on after a failure.  What the failed part has staged is dropped. -/
def recover (p : Program α) (f : Failure LedgerError → Program α) : Program α :=
  match p with
  | done a => done a
  | fail e => call .rollback fun _ => f e
  | call c next => call c fun r => (next r).recover f

end Program

/-! ## Running programs -/

/-- Carries out one operation: what is left of it, and its unit of work. -/
structure Worker (α : Type) where
  rest : Program α
  unit : UnitOfWork

namespace Worker

variable {α : Type}

/-- An operation that has not begun. -/
def start (p : Program α) : Worker α := ⟨p, .empty⟩

/-- How an operation has ended, or that it waits. -/
def outcome (p : Worker α) : Except (Failure LedgerError) α :=
  match p.rest with
  | .done a => .ok a
  | .fail e => .error e
  | .call .. => .error .blocked

/-- A finished operation drops what it has not committed and gives its rows back. -/
def settle (p : Worker α) (l : Ledger) : Worker α × Ledger :=
  match p.rest with
  | .call .. => (p, l)
  | _ => (⟨p.rest, .empty⟩, { l with store := l.store.release p.unit.locks })

/-- The next call of an operation, if it has one and does not have to wait. -/
def step (p : Worker α) (l : Ledger) : Option (Worker α × Ledger) :=
  match p.rest with
  | .call c next => (c.perform l p.unit).map fun (reply, l, u) => settle ⟨next reply, u⟩ l
  | _ => none

/-- Goes on with an operation until it ends or has to wait. -/
def advance (rest : Program α) (u : UnitOfWork) (l : Ledger) : Worker α × Ledger :=
  match rest with
  | .call c next =>
    match c.perform l u with
    | some (reply, l, u) => advance (next reply) u l
    | none => (⟨.call c next, u⟩, l)
  | rest => settle ⟨rest, u⟩ l

end Worker

/-- The outcome of an operation and the ledger after it, nobody else interfering. -/
def Ledger.run {α : Type} (l : Ledger) (p : Program α) :
    Except (Failure LedgerError) α × Ledger :=
  let (worker, l) := Worker.advance p .empty l
  (worker.outcome, l)

end CreditCircle

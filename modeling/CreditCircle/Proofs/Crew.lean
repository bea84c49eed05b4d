/-
  Operations at work on one ledger at the same time.

  * `Crew`: a ledger and one worker for each operation.
  * `Crew.step`: one worker makes its next call; `Crew.run`: many such steps, in whatever order.
  * `Ledger.crew`: some operations that are about to begin.
  * `Crew.step_cases`: a step is one call, and an operation that has ended gives its rows back.
-/
import CreditCircle.Proofs.History
import Mathlib.Logic.Function.Basic

namespace CreditCircle

/-- An operation has ended. -/
def Program.ended {α : Type} : Program α → Bool
  | call .. => false
  | _ => true

namespace Worker

variable {α : Type}

/-- The operation of a worker has ended. -/
def ended (w : Worker α) : Bool := w.rest.ended

theorem settle_of_ended {w : Worker α} (h : w.ended = true) (l : Ledger) :
    w.settle l = (⟨w.rest, .empty⟩, { l with store := l.store.release w.unit.locks }) := by
  obtain ⟨rest, unit⟩ := w
  cases rest with
  | done a => rfl
  | fail e => rfl
  | call c next => cases h

theorem settle_of_not_ended {w : Worker α} (h : w.ended = false) (l : Ledger) :
    w.settle l = (w, l) := by
  obtain ⟨rest, unit⟩ := w
  cases rest with
  | done a => cases h
  | fail e => cases h
  | call c next => rfl

/-- A step is one call. -/
theorem step_cases {w w' : Worker α} {l l' : Ledger} (h : w.step l = some (w', l')) :
    ∃ c next r l₁ u, w.rest = .call c next ∧ c.perform l w.unit = some (r, l₁, u) ∧
      settle ⟨next r, u⟩ l₁ = (w', l') := by
  obtain ⟨rest, unit⟩ := w
  cases rest with
  | done a => cases h
  | fail e => cases h
  | call c next =>
    obtain ⟨⟨r, l₁, u⟩, hc, hs⟩ := Option.map_eq_some_iff.1 h
    exact ⟨c, next, r, l₁, u, rfl, hc, hs⟩

/-- A worker who cannot go on has ended or waits for a call. -/
theorem step_eq_none {w : Worker α} {l : Ledger} (h : w.step l = none) :
    w.ended = true ∨ ∃ c next, w.rest = .call c next ∧ c.perform l w.unit = none := by
  obtain ⟨rest, unit⟩ := w
  cases rest with
  | done a => exact Or.inl rfl
  | fail e => exact Or.inl rfl
  | call c next => exact Or.inr ⟨c, next, rfl, Option.map_eq_none_iff.1 h⟩

end Worker

/-- A ledger and those who are at work on it. -/
structure Crew {ι : Type} (α : ι → Type) where
  ledger : Ledger
  workers : (i : ι) → Worker (α i)

namespace Crew

variable {ι : Type} {α : ι → Type}

/-- All operations have ended. -/
def Finished (c : Crew α) : Prop := ∀ i, (c.workers i).ended = true

/-- Some programs that are about to begin. -/
def start (l : Ledger) (programs : (i : ι) → Program (α i)) : Crew α :=
  ⟨l, fun i => .start (programs i)⟩

variable [DecidableEq ι]

/-- The crew after one worker has been at the ledger. -/
def put (c : Crew α) (i : ι) (state : Worker (α i) × Ledger) : Crew α :=
  ⟨state.2, Function.update c.workers i state.1⟩

/-- The next call of one worker, if there is one and it does not have to wait. -/
def step (c : Crew α) (i : ι) : Option (Crew α) :=
  ((c.workers i).step c.ledger).map (c.put i)

/-- Many steps; the schedule says whose turn it is. -/
def run (c : Crew α) (schedule : List ι) : Option (Crew α) := schedule.foldlM step c

variable {c c' : Crew α} {i : ι}

@[simp] theorem put_ledger (state : Worker (α i) × Ledger) : (c.put i state).ledger = state.2 := rfl

@[simp] theorem put_workers_self (state : Worker (α i) × Ledger) :
    (c.put i state).workers i = state.1 := Function.update_self ..

theorem put_workers_of_ne {j : ι} (h : j ≠ i) (state : Worker (α i) × Ledger) :
    (c.put i state).workers j = c.workers j := Function.update_of_ne h ..

theorem put_put (state state' : Worker (α i) × Ledger) :
    (c.put i state).put i state' = c.put i state' := by
  simp only [put, Function.update_idem]

/-- A step is one call of one worker; if that was the last one, its rows are given back. -/
theorem step_cases (h : c.step i = some c') :
    ∃ call next r l u, (c.workers i).rest = .call call next ∧
      call.perform c.ledger (c.workers i).unit = some (r, l, u) ∧
        c' = c.put i (Worker.settle ⟨next r, u⟩ l) := by
  obtain ⟨⟨w', l'⟩, hstep, rfl⟩ := Option.map_eq_some_iff.1 h
  obtain ⟨call, next, r, l, u, hrest, hperform, hsettle⟩ := Worker.step_cases hstep
  exact ⟨call, next, r, l, u, hrest, hperform, by rw [hsettle]⟩

/-- What every step preserves, every run preserves. -/
theorem run_induct {P : Crew α → Prop}
    (step : ∀ c i c', P c → c.step i = some c' → P c') {schedule : List ι} {c : Crew α}
    (h : P c) (hrun : c.run schedule = some c') : P c' := by
  induction schedule generalizing c with
  | nil => cases hrun; exact h
  | cons i schedule ih =>
    obtain ⟨c₁, hstep, hrun⟩ := Option.bind_eq_some_iff.1 hrun
    exact ih (step c i c₁ h hstep) hrun

end Crew

/-- Some operations that are about to begin. -/
def Ledger.crew {ι : Type} (l : Ledger) (limits : DefaultLimits) (ops : ι → Operation) :
    Crew fun i => (ops i).Result :=
  .start l fun i => (ops i).program limits

end CreditCircle

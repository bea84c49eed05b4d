/-
  Units of work that are open on one ledger at the same time, whatever each of them calls.

  * `Crowd`: a ledger and any number of units of work.
  * `Turn`, `Crowd.Step`: one call of one unit and its answer; a call that has to wait is no step.
  * `Crowd.Run`: turns in any order, each allowed by a rule that may look at what has happened.
  * `Crowd.Exclusive`: no two units hold the same row; `Step.exclusive` says that steps keep it so.
  * `Crowd.played`: calls in a given order, carried out.
-/
import CreditCircle.Proofs.Effects
import CreditCircle.Proofs.Locks

namespace CreditCircle

/-- A ledger and the units of work on it.  A unit that has ended is empty, and a new one begins. -/
structure Crowd (ι : Type) where
  ledger : Ledger
  units : ι → UnitOfWork

/-- What happens next: a failure is armed, or a unit of work makes a call and gets an answer. -/
inductive Turn (ι : Type) where
  | arm (point : FailPoint)
  | call (who : ι) (c : Call) (reply : Except LedgerError c.Reply)

namespace Turn

variable {ι : Type} [DecidableEq ι]

/-- It is a call of this unit. -/
def isBy (who : ι) : Turn ι → Bool
  | arm _ => false
  | call i _ _ => i = who

/-- It ends this unit. -/
def ends (who : ι) : Turn ι → Bool
  | arm _ => false
  | call i c _ => i = who && c.ends

/-- A commit succeeds. -/
def commits : Turn ι → Bool
  | call _ c (.ok _) => c.commits
  | _ => false

end Turn

namespace Crowd

variable {ι : Type}

/-- The committed rows. -/
def tables (c : Crowd ι) : Tables := c.ledger.tables

/-- A new ledger, on which nobody has done anything. -/
def new : Crowd ι := ⟨.empty, fun _ => .empty⟩

/-- Workers with nothing left to do that have these units of work. -/
def crew (c : Crowd ι) : Crew fun _ : ι => Unit := ⟨c.ledger, fun i => ⟨.done (), c.units i⟩⟩

/-- The rows that are held are those of the open units of work, and no two units share one. -/
def Exclusive (c : Crowd ι) : Prop := c.crew.Exclusive

theorem Exclusive.eq {c : Crowd ι} (h : c.Exclusive) {i j : ι} {key : RowKey}
    (hi : key ∈ (c.units i).locks) (hj : key ∈ (c.units j).locks) : i = j :=
  h.disjoint i j key hi hj

theorem Exclusive.new : (new : Crowd ι).Exclusive :=
  ⟨fun _ => ⟨nofun, fun ⟨_, h⟩ => nomatch h⟩, fun _ _ _ h => nomatch h⟩

variable [DecidableEq ι]

/-- The crowd after a unit has made a call. -/
def put (c : Crowd ι) (i : ι) (l : Ledger) (u : UnitOfWork) : Crowd ι :=
  ⟨l, Function.update c.units i u⟩

@[simp] theorem put_ledger (c : Crowd ι) (i : ι) (l : Ledger) (u : UnitOfWork) :
    (c.put i l u).ledger = l := rfl

@[simp] theorem put_tables (c : Crowd ι) (i : ι) (l : Ledger) (u : UnitOfWork) :
    (c.put i l u).tables = l.tables := rfl

@[simp] theorem put_units_self (c : Crowd ι) (i : ι) (l : Ledger) (u : UnitOfWork) :
    (c.put i l u).units i = u := Function.update_self ..

theorem put_units_of_ne (c : Crowd ι) {i j : ι} (h : j ≠ i) (l : Ledger) (u : UnitOfWork) :
    (c.put i l u).units j = c.units j := Function.update_of_ne h ..

/-! ## Steps and runs -/

/-- One turn. -/
inductive Step (c : Crowd ι) : Turn ι → Crowd ι → Prop
  | arm (point : FailPoint) : Step c (.arm point) ⟨c.ledger.arm point, c.units⟩
  | call {i : ι} {call : Call} {r : Except LedgerError call.Reply} {l : Ledger} {u : UnitOfWork}
      (performed : call.perform c.ledger (c.units i) = some (r, l, u)) :
      Step c (.call i call r) (c.put i l u)

/-- Any number of turns.  The rule says which turn may come next on a crowd after the turns that
    there have been. -/
inductive Run (rule : Crowd ι → List (Turn ι) → Turn ι → Prop) (c : Crowd ι) :
    List (Turn ι) → Crowd ι → Prop
  | refl : Run rule c [] c
  | step {past : List (Turn ι)} {turn : Turn ι} {c' c'' : Crowd ι} (run : Run rule c past c')
      (allowed : rule c' past turn) (step : Step c' turn c'') : Run rule c (past ++ [turn]) c''

/-- Every call may come next. -/
def Anyhow : Crowd ι → List (Turn ι) → Turn ι → Prop := fun _ _ _ => True

/-- The crowd can come about, whatever was called. -/
def Reachable (c : Crowd ι) : Prop := ∃ past, Run Anyhow new past c

theorem Reachable.step {c c' : Crowd ι} {turn : Turn ι} (h : c.Reachable) (hs : c.Step turn c') :
    c'.Reachable := by
  obtain ⟨past, hrun⟩ := h
  exact ⟨_, hrun.step trivial hs⟩

theorem Reachable.run {c c' : Crowd ι} {turns : List (Turn ι)} (h : c.Reachable)
    (hr : c.Run Anyhow turns c') : c'.Reachable := by
  induction hr with
  | refl => exact h
  | step _ _ step ih => exact ih.step step

/-- What every step preserves holds of every crowd that can come about. -/
theorem Reachable.induct {P : Crowd ι → Prop} {c : Crowd ι} (h : c.Reachable) (hnew : P new)
    (hstep : ∀ c turn c', P c → c.Step turn c' → P c') : P c := by
  obtain ⟨past, hrun⟩ := h
  induction hrun with
  | refl => exact hnew
  | step _ _ step ih => exact hstep _ _ _ ih step

/-! ## Locks -/

theorem crew_put (c : Crowd ι) (i : ι) (l : Ledger) (u : UnitOfWork) :
    (c.put i l u).crew = c.crew.put i (⟨.done (), u⟩, l) := by
  refine congrArg (Crew.mk l) (funext fun j => ?_)
  by_cases h : j = i
  · subst h
    rw [put_units_self, Function.update_self]
  · rw [put_units_of_ne c h, Function.update_of_ne h]
    rfl

theorem Step.exclusive {c c' : Crowd ι} {turn : Turn ι} (hs : c.Step turn c') (h : c.Exclusive) :
    c'.Exclusive := by
  cases hs with
  | arm point =>
    obtain ⟨armed, harm⟩ := c.ledger.exists_arm point
    rw [harm]
    exact ⟨h.held, h.disjoint⟩
  | call performed =>
    rw [Exclusive, crew_put]
    exact Crew.Exclusive.visit h (Call.visit performed) _

theorem Reachable.exclusive {c : Crowd ι} (h : c.Reachable) : c.Exclusive :=
  h.induct .new fun _ _ _ h hs => hs.exclusive h

/-! ## Commits -/

/-- What a step does to the committed rows: nothing, unless a commit succeeds. -/
theorem Step.tables_cases {c c' : Crowd ι} {turn : Turn ι} (hs : c.Step turn c') :
    turn.commits = false ∧ c'.tables = c.tables ∨
      ∃ i, turn = .call i .commit (.ok ()) ∧ (c.units i).conflict? c.tables = none ∧
        c'.tables = (c.units i).applyTo c.tables := by
  cases hs with
  | arm point =>
    obtain ⟨armed, harm⟩ := c.ledger.exists_arm point
    rw [harm]
    exact Or.inl ⟨rfl, rfl⟩
  | @call i call r l u performed =>
    cases Call.effect performed with
    | commit sound tables _ => exact Or.inr ⟨i, rfl, sound, tables⟩
    | drop _ told uses =>
      refine Or.inl ⟨?_, uses.tables⟩
      cases r with
      | error e => rfl
      | ok v => exact Bool.eq_false_iff.2 fun hc => nomatch told hc
    | look seen uses _ =>
      refine Or.inl ⟨?_, uses.tables⟩
      cases call with
      | commit => cases seen
      | _ => rfl
    | refuse _ uses _ | insertPosting uses => exact Or.inl ⟨rfl, uses.tables⟩
    | _ => exact Or.inl ⟨rfl, rfl⟩

theorem Step.tables_commit {c c' : Crowd ι} {i : ι} (hs : c.Step (.call i .commit (.ok ())) c') :
    c'.tables = (c.units i).applyTo c.tables := by
  rcases hs.tables_cases with ⟨hc, -⟩ | ⟨_, he, -, ht⟩
  · cases hc
  · cases he
    exact ht

/-! ## Calls in a given order -/

section
variable (rule : Crowd ι → List (Turn ι) → Turn ι → Prop)
  [∀ c past turn, Decidable (rule c past turn)]

/-- Makes the next call, unless it has to wait or the rule forbids it. -/
def next (state : List (Turn ι) × Crowd ι) (e : ι × Call) : List (Turn ι) × Crowd ι :=
  match e.2.perform state.2.ledger (state.2.units e.1) with
  | none => state
  | some (r, l, u) =>
    if rule state.2 state.1 (.call e.1 e.2 r) then
      (state.1 ++ [.call e.1 e.2 r], state.2.put e.1 l u)
    else state

/-- Makes these calls on a crowd, one after the other; the turns that came of it, and the crowd
    after them. -/
def played (c : Crowd ι) (calls : List (ι × Call)) : List (Turn ι) × Crowd ι :=
  calls.foldl (next rule) ([], c)

theorem run_next {c : Crowd ι} {state : List (Turn ι) × Crowd ι}
    (h : c.Run rule state.1 state.2) (e : ι × Call) :
    c.Run rule (next rule state e).1 (next rule state e).2 := by
  unfold next
  split
  · exact h
  · split
    · exact h.step ‹_› (.call ‹_›)
    · exact h

/-- What is played is a run. -/
theorem run_played (c : Crowd ι) (calls : List (ι × Call)) :
    c.Run rule (c.played rule calls).1 (c.played rule calls).2 := by
  have hrun : ∀ state : List (Turn ι) × Crowd ι, c.Run rule state.1 state.2 →
      c.Run rule (calls.foldl (next rule) state).1 (calls.foldl (next rule) state).2 := by
    induction calls with
    | nil => exact fun _ h => h
    | cons e calls ih => exact fun state h => ih _ (run_next rule h e)
  exact hrun _ .refl

end

instance (c : Crowd ι) (past : List (Turn ι)) (turn : Turn ι) : Decidable (Anyhow c past turn) :=
  inferInstanceAs (Decidable True)

/-- A call that gets an answer is a step. -/
theorem step_played {c : Crowd ι} {i : ι} {call : Call} {r : Except LedgerError call.Reply}
    (h : (call.perform c.ledger (c.units i)).map Prod.fst = some r) :
    c.Step (.call i call r) (c.played Anyhow [(i, call)]).2 := by
  obtain ⟨⟨_, l, u⟩, hp, rfl⟩ := Option.map_eq_some_iff.1 h
  show c.Step _ (next Anyhow ([], c) (i, call)).2
  unfold next
  rw [hp]
  exact .call hp

end Crowd
end CreditCircle

/-
  Units of work before their commit.

  * `Staged`: how far a ledger may differ from the one at which a unit of work began, as long
    as that unit has not committed.
  * `Program.Attempts`: a program gives a result, or fails for a known reason and leaves nothing
    behind but what is staged.
  * `attempts_bind`, `attempts_reply`, …: the rules from which the operations are put together.
-/
import CreditCircle.Proofs.Run

namespace CreditCircle

/-! ## What an open unit of work leaves visible -/

instance : LE Sequences :=
  ⟨fun s s' => s.account ≤ s'.account ∧ s.journal ≤ s'.journal ∧ s.posting ≤ s'.posting⟩

theorem Sequences.le_refl (s : Sequences) : s ≤ s := ⟨Nat.le_refl _, Nat.le_refl _, Nat.le_refl _⟩

theorem Sequences.le_trans {s s' s'' : Sequences} (h : s ≤ s') (h' : s' ≤ s'') : s ≤ s'' :=
  ⟨Nat.le_trans h.1 h'.1, Nat.le_trans h.2.1 h'.2.1, Nat.le_trans h.2.2 h'.2.2⟩

/-- Since `l₀`, only keys and armed failures have been used up, and only rows taken that `u`
    holds. -/
structure Staged (l₀ l : Ledger) (u : UnitOfWork) : Prop where
  tables : l.tables = l₀.tables
  events : l.events = l₀.events
  held : ∀ k ∈ l.store.held, k ∈ u.locks
  sequences : l₀.store.sequences ≤ l.store.sequences
  armed : ∀ point ∈ l.store.armed, point ∈ l₀.store.armed

namespace Staged

variable {l₀ l : Ledger} {u : UnitOfWork}

theorem refl (h : l.store.held = []) : Staged l l .empty :=
  ⟨rfl, rfl, by simp [h], Sequences.le_refl _, fun _ hp => hp⟩

theorem disarm (h : Staged l₀ l u) (point : FailPoint) :
    Staged l₀ { l with store := l.store.disarm point } u :=
  ⟨h.tables, h.events, h.held, h.sequences, fun p hp => h.armed p (List.mem_filter.1 hp).1⟩

theorem release (h : Staged l₀ l u) :
    Staged l₀ { l with store := l.store.release u.locks } .empty := by
  refine ⟨h.tables, h.events, fun k hk => ?_, h.sequences, h.armed⟩
  obtain ⟨hk, hn⟩ := List.mem_filter.1 hk
  simp [h.held k hk] at hn

/-- Keys are only counted up. -/
theorem count (h : Staged l₀ l u) {s : Sequences} (hs : l.store.sequences ≤ s) :
    Staged l₀ { l with store := { l.store with sequences := s } } u :=
  ⟨h.tables, h.events, h.held, Sequences.le_trans h.sequences hs, h.armed⟩

/-- What else the unit of work stages is not visible. -/
theorem stage {u' : UnitOfWork} (h : Staged l₀ l u) (hu : u'.locks = u.locks) : Staged l₀ l u' :=
  ⟨h.tables, h.events, fun k hk => hu ▸ h.held k hk, h.sequences, h.armed⟩

theorem held_eq_nil (h : Staged l₀ l .empty) : l.store.held = [] :=
  List.eq_nil_iff_forall_not_mem.2 fun k hk => List.not_mem_nil (h.held k hk)

end Staged

@[simp] theorem Store.release_nil (s : Store) : s.release [] = s := by
  have : s.held.filter (· ∉ ([] : List RowKey)) = s.held := List.filter_eq_self.2 (by simp)
  rw [release, this]

namespace Program

variable {α β : Type}

/-! ## Attempts -/

/-- The failure of a write that had been armed at `l₀`. -/
def Injected (l₀ : Ledger) (e : Failure LedgerError) : Prop :=
  ∃ point ∈ l₀.store.armed, e = .refused (.storage (.injected point))

/-- A result as `good` says, or a failure that was injected or is one of `bad`, with nothing
    committed since `l₀`. -/
def attempt (l₀ : Ledger) (good : α → Ledger → UnitOfWork → Prop)
    (bad : Failure LedgerError → Prop) : Ending α
  | .ok a, l, u => good a l u
  | .error e, l, u => Staged l₀ l u ∧ (Injected l₀ e ∨ bad e)

/-- Run alone, the program gives a result as `good` says, or fails, injected or as `bad` says,
    and has not committed anything since `l₀`. -/
abbrev Attempts (l₀ : Ledger) (good : α → Ledger → UnitOfWork → Prop)
    (bad : Failure LedgerError → Prop) (p : Program α) (l : Ledger) (u : UnitOfWork) : Prop :=
  p.Ends (attempt l₀ good bad) l u

section
variable {l₀ l : Ledger} {u : UnitOfWork} {good : α → Ledger → UnitOfWork → Prop}
  {bad : Failure LedgerError → Prop}

theorem attempts_bind {good : β → Ledger → UnitOfWork → Prop} {p : Program α}
    {f : α → Program β} (h : p.Attempts l₀ (fun a => (f a).Attempts l₀ good bad) bad l u) :
    (p >>= f).Attempts l₀ good bad l u := by
  refine ends_bind (Ends.mono (fun r l u hr => ?_) h)
  cases r with
  | ok a => exact hr
  | error e => exact hr

theorem attempts_fail {e : Failure LedgerError} (h : Staged l₀ l u) (he : bad e) :
    (fail e : Program α).Attempts l₀ good bad l u := ⟨h, Or.inr he⟩

/-- A call that is answered. -/
theorem attempts_reply {c : Call} {good : c.Reply → Ledger → UnitOfWork → Prop}
    {reply : c.Reply} {l' : Ledger} {u' : UnitOfWork}
    (hc : c.perform l u = some (.ok reply, l', u')) (hg : good reply l' u') :
    (ask c).Attempts l₀ good bad l u := ⟨_, _, _, hc, hg⟩

theorem attempts_require {e : LedgerError} {found : Option α} (h : Staged l₀ l u)
    (hg : ∀ a, found = some a → good a l u) (hb : found = none → bad (.refused e)) :
    (require e found).Attempts l₀ good bad l u := by
  cases found with
  | some a => exact hg a rfl
  | none => exact attempts_fail h (hb rfl)

theorem attempts_check {r : Except LedgerError α} (h : Staged l₀ l u)
    (hg : ∀ a, r = .ok a → good a l u) (hb : ∀ e, r = .error e → bad (.refused e)) :
    (check r).Attempts l₀ good bad l u := by
  cases r with
  | ok a => exact hg a rfl
  | error e => exact attempts_fail h (hb e rfl)

theorem attempts_compute {r : Except (Failure LedgerError) α} (h : Staged l₀ l u)
    (hg : ∀ a, r = .ok a → good a l u) (hb : ∀ e, r = .error e → bad e) :
    (compute r).Attempts l₀ good bad l u := by
  cases r with
  | ok a => exact hg a rfl
  | error e => exact attempts_fail h (hb e rfl)

/-- A failed attempt leaves the next one where it began. -/
theorem attempts_recover {p : Program α} {f : Failure LedgerError → Program α}
    {bad₁ : Failure LedgerError → Prop} (h : p.Attempts l₀ good bad₁ l u)
    (hf : ∀ e l, Injected l₀ e ∨ bad₁ e → Staged l₀ l .empty →
      (f e).Attempts l₀ good bad l .empty) :
    (p.recover f).Attempts l₀ good bad l u := by
  refine ends_recover (Ends.mono (fun r l u hr => ?_) h)
  cases r with
  | ok a => exact hr
  | error e => exact hf e _ hr.2 hr.1.release

end

/-- What a program that runs alone comes to, if every success ends its unit of work. -/
theorem run_of_attempts {p : Program α} {l : Ledger} {good : α → Ledger → Prop}
    {bad : Failure LedgerError → Prop}
    (h : p.Attempts l (fun a l' u => u = .empty ∧ good a l') bad l .empty) :
    (∃ a l', l.run p = (.ok a, l') ∧ good a l') ∨
      ∃ e l', l.run p = (.error e, l') ∧ Staged l l' .empty ∧ (Injected l e ∨ bad e) := by
  obtain ⟨r, l', u, hr, hrun⟩ := run_of_ends h
  cases r with
  | ok a =>
    obtain ⟨rfl, hg⟩ := hr
    refine Or.inl ⟨a, l', ?_, hg⟩
    rw [hrun, UnitOfWork.empty, Store.release_nil]
  | error e => exact Or.inr ⟨e, _, hrun, hr.1.release, hr.2⟩

end Program
end CreditCircle

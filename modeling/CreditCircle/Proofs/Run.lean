/-
  Programs that run alone.

  * `Program.Ends`: run alone, a program never waits and ends in a given way.
  * `ends_bind`, `ends_recover`: the ends of a program from the ends of its parts.
  * `run_of_ends`: what `Ledger.run` gives; `exists_ok_of_toOption_map`: what is seen of it.
-/
import CreditCircle.Ledger.Program

namespace CreditCircle

/-- How a program ends: with a result or a failure, the ledger and the open unit of work. -/
abbrev Ending (α : Type) := Except (Failure LedgerError) α → Ledger → UnitOfWork → Prop

namespace Program

variable {α β : Type}

/-- Run alone with the unit of work `u` open, the program never waits and ends as `post` says. -/
def Ends (post : Ending α) : Program α → Ledger → UnitOfWork → Prop
  | done a, l, u => post (.ok a) l u
  | fail e, l, u => post (.error e) l u
  | call c next, l, u => ∃ r l' u', c.perform l u = some (r, l', u') ∧ Ends post (next r) l' u'

theorem Ends.mono {post post' : Ending α} (h : ∀ r l u, post r l u → post' r l u) :
    ∀ {p : Program α} {l : Ledger} {u : UnitOfWork}, p.Ends post l u → p.Ends post' l u
  | done _, _, _, hp => h _ _ _ hp
  | fail _, _, _, hp => h _ _ _ hp
  | call _ _, _, _, ⟨r, l', u', hc, hp⟩ => ⟨r, l', u', hc, hp.mono h⟩

/-- The ending of a first part after which `f` goes on to `post`. -/
def thenEnds (f : α → Program β) (post : Ending β) : Ending α
  | .ok a, l, u => (f a).Ends post l u
  | .error e, l, u => post (.error e) l u

theorem ends_bind {post : Ending β} {f : α → Program β} :
    ∀ {p : Program α} {l : Ledger} {u : UnitOfWork},
      p.Ends (thenEnds f post) l u → (p >>= f).Ends post l u
  | done _, _, _, hp => hp
  | fail _, _, _, hp => hp
  | call _ _, _, _, ⟨r, l', u', hc, hp⟩ => ⟨r, l', u', hc, ends_bind hp⟩

/-- The ending of a first part whose failures go to `f`, in a new unit of work. -/
def orElseEnds (f : Failure LedgerError → Program α) (post : Ending α) : Ending α
  | .ok a, l, u => post (.ok a) l u
  | .error e, l, u => (f e).Ends post { l with store := l.store.release u.locks } .empty

theorem ends_recover {post : Ending α} {f : Failure LedgerError → Program α} :
    ∀ {p : Program α} {l : Ledger} {u : UnitOfWork},
      p.Ends (orElseEnds f post) l u → (p.recover f).Ends post l u
  | done _, _, _, hp => hp
  | fail _, _, _, hp => ⟨_, _, _, rfl, hp⟩
  | call _ _, _, _, ⟨r, l', u', hc, hp⟩ => ⟨r, l', u', hc, ends_recover hp⟩

end Program

open Program

theorem advance_of_ends {α : Type} {post : Ending α} :
    ∀ {p : Program α} {l : Ledger} {u : UnitOfWork}, p.Ends post l u →
      ∃ r l' u', post r l' u' ∧ (Worker.advance p u l).1.outcome = r ∧
        (Worker.advance p u l).2 = { l' with store := l'.store.release u'.locks }
  | done _, l, u, hp => ⟨_, l, u, hp, rfl, rfl⟩
  | fail _, l, u, hp => ⟨_, l, u, hp, rfl, rfl⟩
  | call c next, l, u, ⟨r, l', u', hc, hp⟩ => by
    obtain ⟨r, l, u, h, ho, hl⟩ := advance_of_ends hp
    exact ⟨r, l, u, h, by simp only [Worker.advance, hc, ho], by simp only [Worker.advance, hc, hl]⟩

/-- The result of a program that runs alone, and the ledger after it. -/
theorem run_of_ends {α : Type} {post : Ending α} {p : Program α} {l : Ledger}
    (h : p.Ends post l .empty) :
    ∃ r l' u', post r l' u' ∧ l.run p = (r, { l' with store := l'.store.release u'.locks }) := by
  obtain ⟨r, l', u', hp, ho, hl⟩ := advance_of_ends h
  exact ⟨r, l', u', hp, Prod.ext ho hl⟩

/-- Where something is seen of a result there is one. -/
theorem exists_ok_of_toOption_map {ε α β : Type} {e : Except ε α} {f : α → β} {b : β}
    (h : e.toOption.map f = some b) : ∃ a, e = .ok a ∧ f a = b := by
  cases e with
  | error _ => cases h
  | ok a => exact ⟨a, rfl, Option.some.inj h⟩

end CreditCircle

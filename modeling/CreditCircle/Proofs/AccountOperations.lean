/-
  What the operations on accounts do.

  * `Opens`, `Relimits`: the effect of a successful operation.
  * `OpenRefused`, `LimitsRefused`: why it may be refused.
  * `openAccount_attempts`, `updateLimits_attempts`: the operations have these effects or are
    refused for these reasons.
-/
import CreditCircle.Proofs.Commits

namespace CreditCircle

/-- The account `a` of `entity` is opened on `l`, which leads to `l'`. -/
structure Opens (limits : DefaultLimits) (entity : EntityId) (chance : Chance) (l : Ledger)
    (a : Account) (l' : Ledger) : Prop extends Settled l l' where
  drawn : ∃ attempt, a.number = .generate (chance.numbers attempt)
  number_new : l.tables.account? a.number = none
  owner : a.entity = entity
  owner_new : l.tables.entityAccounts.get? entity = none
  balance : a.balance = 0
  id_new : l.store.sequences.account < a.id.value
  id_le : a.id.value ≤ l'.store.sequences.account
  tables : ∃ now, l.tables.limit? a.number = none ∧
    l'.tables = l.tables.withAccount a ⟨a.number, limits.maxPos, limits.maxNeg, now⟩
  events : l'.events = l.events

/-- A key of the new account is taken. -/
def OpenRefused (entity : EntityId) (chance : Chance) (t : Tables) (e : Failure LedgerError) :
    Prop :=
  ∃ attempt key, (key = .number (.generate (chance.numbers attempt)) ∨ key = .entity entity ∨
    key = .limit (.generate (chance.numbers attempt))) ∧ t.Takes key ∧
      e = .refused (.duplicateKey key)

/-- The limits of an account are replaced by `limit` on `l`, which leads to `l'`. -/
structure Relimits (number : AccountNumber) (maxPos maxNeg : Decimal) (now : Timestamp)
    (l : Ledger) (limit : BalanceLimit) (l' : Ledger) : Prop extends Settled l l' where
  nonneg : ¬ (maxPos < 0 ∨ maxNeg < 0)
  account : ∃ a, l.tables.account? number = some a ∧ ¬ limit.IsExceededBy a.balance
  old : ∃ old, l.tables.limit? number = some old ∧
    limit = { old with maxPos, maxNeg, updatedAt := now }
  tables : l'.tables = l.tables.withLimit limit
  events : l'.events = l.events

/-- The new limits are negative, the account is not there, or its balance lies outside them. -/
def LimitsRefused (number : AccountNumber) (maxPos maxNeg : Decimal) (now : Timestamp) (t : Tables)
    (e : Failure LedgerError) : Prop :=
  ((maxPos < 0 ∨ maxNeg < 0) ∧ e = .refused (.invalidLimit number .negative)) ∨
    (∃ e', t.Lacks number e' ∧ e = .refused e') ∨
    ∃ a old, t.account? number = some a ∧ t.limit? number = some old ∧
      { old with maxPos, maxNeg, updatedAt := now : BalanceLimit }.IsExceededBy a.balance ∧
      e = .refused (.invalidLimit number (.excludesBalance a.balance))

namespace Program

variable {l₀ l : Ledger}

theorem insertAccount_attempts (limits : DefaultLimits) (entity : EntityId) (chance : Chance)
    (attempt : Nat) (opened limited : Timestamp) (h : Staged l₀ l .empty) :
    (insertAccount limits (.generate (chance.numbers attempt)) entity opened limited).Attempts l₀
      (fun a l' u => u = .empty ∧ Opens limits entity chance l₀ a l')
      (OpenRefused entity chance l₀.tables) l .empty := by
  refine attempts_bind (attempts_insertAccount h ?_ fun key hk ht => ?_)
  · intro l₁ id hn he hid hle a u₁ h₁
    refine attempts_bind (attempts_insertLimit h₁ rfl ?_ fun ht => ?_)
    · intro l₂ hl u₂ hs₂ h₂
      have hc := UnitOfWork.conflict?_account_eq_none l₀.tables (a := a) hn he hl
      refine attempts_bind (attempts_commit h₂ hc fun l₃ hs₃ hc => ⟨rfl, ?_⟩)
      refine ⟨hc.toSettled, ⟨attempt, rfl⟩, hn, rfl, he, rfl, hid, ?_, ⟨limited, hl, ?_⟩, hc.events⟩
      · rw [hs₃, ← hs₂]; exact hle
      · exact hc.tables.trans (UnitOfWork.applyTo_account l₀.tables a _)
    · exact ⟨attempt, _, Or.inr (Or.inr rfl), ht, rfl⟩
  · exact ⟨attempt, key, hk.imp_right Or.inl, ht, rfl⟩

/-- An attempt with another number begins where the first one began. -/
theorem tryNumbers_attempts (limits : DefaultLimits) (entity : EntityId) (chance : Chance) :
    ∀ (left attempt : Nat) {l : Ledger}, Staged l₀ l .empty →
      (tryNumbers limits entity chance left attempt).Attempts l₀
        (fun a l' u => u = .empty ∧ Opens limits entity chance l₀ a l')
        (OpenRefused entity chance l₀.tables) l .empty
  | 0, attempt, l, h => by
    unfold tryNumbers
    exact insertAccount_attempts limits entity chance attempt _ _ h
  | left + 1, attempt, l, h => by
    unfold tryNumbers
    refine attempts_recover (insertAccount_attempts limits entity chance attempt _ _ h) ?_
    intro e l' he h'
    split
    · exact tryNumbers_attempts limits entity chance left (attempt + 1) h'
    · exact ⟨h', he⟩

theorem openAccount_attempts (limits : DefaultLimits) (entity : EntityId) (chance : Chance)
    (h : l.store.held = []) :
    (openAccount limits entity chance).Attempts l
      (fun a l' u => u = .empty ∧ Opens limits entity chance l a l')
      (OpenRefused entity chance l.tables) l .empty :=
  tryNumbers_attempts limits entity chance _ _ (.refl h)

theorem updateLimits_attempts {number : AccountNumber} {maxPos maxNeg : Decimal} {now : Timestamp}
    (h : l.store.held = [])
    (hk : ∀ limit, l.tables.limit? number = some limit → limit.account = number) :
    (updateLimits number maxPos maxNeg now).Attempts l
      (fun limit l' u => u = .empty ∧ Relimits number maxPos maxNeg now l limit l')
      (LimitsRefused number maxPos maxNeg now l.tables) l .empty := by
  have h₀ := Staged.refl h
  unfold updateLimits
  by_cases hn : maxPos < 0 ∨ maxNeg < 0
  · rw [if_pos hn]
    exact attempts_bind (attempts_fail h₀ (Or.inl ⟨hn, rfl⟩))
  rw [if_neg hn]
  refine attempts_bind (attempts_lockAccount h₀ ?_ fun e he =>
    Or.inr (Or.inl ⟨e, he, rfl⟩))
  intro a old l₁ ha hold h₁
  by_cases hx : { old with maxPos, maxNeg, updatedAt := now : BalanceLimit }.IsExceededBy a.balance
  · dsimp only
    rw [if_pos hx]
    exact attempts_bind (attempts_fail h₁ (Or.inr (Or.inr ⟨a, old, ha, hold, hx, rfl⟩)))
  dsimp only
  rw [if_neg hx]
  have hu : (UnitOfWork.holding [.account number]).OwnsAccount old.account := by
    rw [hk old hold]; exact Or.inr (List.mem_singleton_self _)
  refine attempts_bind (attempts_updateLimit h₁ hu fun u₂ hu₂ h₂ => ?_)
  subst hu₂
  refine attempts_bind (attempts_commit h₂
    (UnitOfWork.conflict?_eq_none l.tables rfl rfl nofun) fun l₃ hs₃ hc => ⟨rfl, ?_⟩)
  exact ⟨hc.toSettled, hn, ⟨a, ha, hx⟩, ⟨old, hold, rfl⟩,
    hc.tables.trans (UnitOfWork.applyTo_limit l.tables _ _), hc.events⟩

end Program
end CreditCircle

/-
  What one call can do while others are at work.

  * `Visit`: the effect of a call on the ledger and on the locks of its unit of work, one case
    for each kind of call; `Call.visit` says that every call has such an effect.
  * `Call.key?`: the row that a call takes; a call waits only for that (`perform_eq_none`).
-/
import CreditCircle.Proofs.Staging
import Mathlib.Logic.Basic

namespace CreditCircle

/-- The row that a call takes. -/
def Call.key? : Call → Option RowKey
  | .lockAccount number => some (.account number)
  | .lockJournal transfer => some (.journal transfer)
  | _ => none

/-- The call ends its unit of work. -/
def Call.ends : Call → Bool
  | .commit | .rollback => true
  | _ => false

/-- The call commits. -/
def Call.commits : Call → Bool
  | .commit => true
  | _ => false

/-- The tables of `l` and `l'` are the same; keys and armed failures may have been used up. -/
structure Uses (l l' : Ledger) : Prop where
  tables : l'.tables = l.tables
  sequences : l.store.sequences ≤ l'.store.sequences
  armed : ∀ point ∈ l'.store.armed, point ∈ l.store.armed

theorem Uses.refl (l : Ledger) : Uses l l := ⟨rfl, Sequences.le_refl _, fun _ h => h⟩

theorem Uses.disarm (l : Ledger) (point : FailPoint) :
    Uses l { l with store := l.store.disarm point } :=
  ⟨rfl, Sequences.le_refl _, fun _ h => (List.mem_filter.1 h).1⟩

/-- What a call of a unit of work `u` does to the ledger and to the locks of `u`. -/
inductive Visit (l : Ledger) (u : UnitOfWork) : Call → Ledger → UnitOfWork → Prop
  /-- Rows are read or staged. -/
  | stage {c : Call} {l' : Ledger} {u' : UnitOfWork} (goes_on : c.ends = false) (uses : Uses l l')
      (held : l'.store.held = l.store.held) (locks : u'.locks = u.locks) : Visit l u c l' u'
  /-- A row is taken that nobody holds. -/
  | take {c : Call} {key : RowKey} (asked : c.key? = some key) (new : key ∉ u.locks)
      (free : key ∉ l.store.held) :
      Visit l u c { l with store := { l.store with held := key :: l.store.held } }
        { u with locks := key :: u.locks }
  /-- Everything that is staged is committed. -/
  | commit (sound : u.conflict? l.tables = none) :
      Visit l u .commit
        { l with store := { l.store with tables := u.applyTo l.tables }.release u.locks } .empty
  /-- Everything that is staged is dropped. -/
  | drop {c : Call} {l' : Ledger} (ends : c.ends = true) (uses : Uses l l')
      (held : l'.store.held = l.store.held) :
      Visit l u c { l' with store := l'.store.release u.locks } .empty
  /-- An event is published. -/
  | publish (event : Event) :
      Visit l u (.publish event) { l with events := l.events ++ [event] } u

namespace Visit

variable {l l' : Ledger} {u u' : UnitOfWork} {c : Call}

/-- A row that is held after a call was held before it or has been asked for. -/
theorem locks (h : Visit l u c l' u') {key : RowKey} (hk : key ∈ u'.locks) :
    key ∈ u.locks ∨ c.key? = some key := by
  cases h with
  | stage _ _ _ locks => exact Or.inl (locks ▸ hk)
  | take asked _ _ =>
    rcases List.mem_cons.1 hk with rfl | hk
    · exact Or.inr asked
    · exact Or.inl hk
  | commit _ => cases hk
  | drop _ _ _ => cases hk
  | publish _ => exact Or.inl hk

/-- A call that goes on gives no row back. -/
theorem locks_subset (h : Visit l u c l' u') (hc : c.ends = false) : u.locks ⊆ u'.locks := by
  cases h with
  | stage _ _ _ locks => rw [locks]; exact fun _ h => h
  | take _ _ _ => exact fun _ => .tail _
  | commit _ => cases hc
  | drop ends _ _ => rw [ends] at hc; cases hc
  | publish _ => exact fun _ h => h

theorem sequences_le (h : Visit l u c l' u') : l.store.sequences ≤ l'.store.sequences := by
  cases h with
  | stage _ uses _ _ | drop _ uses _ => exact uses.sequences
  | take _ _ _ | commit _ | publish _ => exact Sequences.le_refl _

theorem armed_subset (h : Visit l u c l' u') : ∀ point ∈ l'.store.armed, point ∈ l.store.armed := by
  cases h with
  | stage _ uses _ _ | drop _ uses _ => exact uses.armed
  | take _ _ _ | commit _ | publish _ => exact fun _ h => h

/-- Only a commit changes the tables. -/
theorem uses (h : Visit l u c l' u') (hc : c.commits = false) : Uses l l' := by
  refine ⟨?_, h.sequences_le, h.armed_subset⟩
  cases h with
  | stage _ uses _ _ | drop _ uses _ => exact uses.tables
  | take _ _ _ | publish _ => rfl
  | commit _ => cases hc

end Visit

/-! ## Locks of a unit of work -/

theorem UnitOfWork.lockAccount_eq_or (s : Store) (u : UnitOfWork) (number : AccountNumber) :
    u.lockAccount s number = some (s, u) ∨ u.lockAccount s number = lock s u (.account number) :=
  ite_eq_or_eq _ _ _

theorem UnitOfWork.lockJournal_eq_or (s : Store) (u : UnitOfWork) (transfer : TransferId) :
    u.lockJournal s transfer = some (s, u) ∨
      u.lockJournal s transfer = lock s u (.journal transfer) :=
  ite_eq_or_eq _ _ _

namespace Call

variable {l l' : Ledger} {u u' : UnitOfWork}

/-! ## Writes -/

/-- A write that can be made to fail stages what it would stage otherwise, or nothing. -/
theorem visit_guarded {c : Call} {α : Type} {point : FailPoint} {answer : UnitOfWork.Answer α}
    (hc : c.ends = false) (hv : Visit l u c { l with store := answer.2.1 } answer.2.2) :
    Visit l u c { l with store := (UnitOfWork.guarded point l.store u answer).2.1 }
      (UnitOfWork.guarded point l.store u answer).2.2 := by
  unfold UnitOfWork.guarded
  split
  · exact .stage hc (.disarm l point) rfl rfl
  · exact hv

/-- Nothing is staged, or one row, which may have been given a new key. -/
theorem visit_count {c : Call} {sequences : Sequences} {u' : UnitOfWork} (hc : c.ends = false)
    (hs : l.store.sequences ≤ sequences) (hu : u'.locks = u.locks) :
    Visit l u c { l with store := { l.store with sequences } } u' :=
  .stage hc ⟨rfl, hs, fun _ h => h⟩ rfl hu

theorem visit_insertAccount (number : AccountNumber) (entity : EntityId) (now : Timestamp) :
    Visit l u (.insertAccount number entity now)
      { l with store := (u.insertAccount l.store number entity now).2.1 }
      (u.insertAccount l.store number entity now).2.2 := by
  refine visit_guarded rfl ?_
  split
  · exact .stage rfl (.refl l) rfl rfl
  · split
    · exact .stage rfl (.refl l) rfl rfl
    · exact visit_count rfl ⟨Nat.le_succ _, Nat.le_refl _, Nat.le_refl _⟩ rfl

theorem visit_insertLimit (limit : BalanceLimit) :
    Visit l u (.insertLimit limit) { l with store := (u.insertLimit l.store limit).2.1 }
      (u.insertLimit l.store limit).2.2 := by
  refine visit_guarded rfl ?_
  split
  · exact .stage rfl (.refl l) rfl rfl
  · exact .stage rfl (.refl l) rfl rfl

theorem visit_updateLimit (limit : BalanceLimit) :
    Visit l u (.updateLimit limit) { l with store := (u.updateLimit l.store limit).2.1 }
      (u.updateLimit l.store limit).2.2 := by
  unfold UnitOfWork.updateLimit
  split
  · exact .stage rfl (.refl l) rfl rfl
  · exact .stage rfl (.refl l) rfl rfl

theorem visit_insertJournal (draft : JournalDraft) :
    Visit l u (.insertJournal draft) { l with store := (u.insertJournal l.store draft).2.1 }
      (u.insertJournal l.store draft).2.2 := by
  refine visit_guarded rfl ?_
  split
  · exact .stage rfl (.refl l) rfl rfl
  · exact visit_count rfl ⟨Nat.le_refl _, Nat.le_succ _, Nat.le_refl _⟩ rfl

theorem visit_updateJournal (journal : Journal) :
    Visit l u (.updateJournal journal) { l with store := (u.updateJournal l.store journal).2.1 }
      (u.updateJournal l.store journal).2.2 := by
  refine visit_guarded rfl ?_
  split
  · exact .stage rfl (.refl l) rfl rfl
  · exact .stage rfl (.refl l) rfl rfl

theorem visit_insertPosting (account : AccountNumber) (journal : JournalId) (amount : Decimal)
    (now : Timestamp) :
    Visit l u (.insertPosting account journal amount now)
      { l with store := (u.insertPosting l.store account journal amount now).2.1 }
      (u.insertPosting l.store account journal amount now).2.2 :=
  visit_guarded rfl (visit_count rfl ⟨Nat.le_refl _, Nat.le_refl _, Nat.le_succ _⟩ rfl)

theorem visit_setBalance (number : AccountNumber) (balance : Decimal) :
    Visit l u (.setBalance number balance)
      { l with store := (u.setBalance l.store number balance).2.1 }
      (u.setBalance l.store number balance).2.2 := by
  refine visit_guarded rfl ?_
  split
  · split
    · exact .stage rfl (.refl l) rfl rfl
    · exact .stage rfl (.refl l) rfl rfl
  · exact .stage rfl (.refl l) rfl rfl

/-! ## The end of a unit of work -/

theorem visit_commit :
    Visit l u .commit { l with store := (u.commit l.store).2.1 } (u.commit l.store).2.2 := by
  unfold UnitOfWork.commit
  split
  · exact .drop rfl (.disarm l .commit) rfl
  · split
    · exact .drop rfl (.refl l) rfl
    · exact .commit ‹_›

/-! ## Locks -/

theorem ends_of_key? {c : Call} {key : RowKey} (h : c.key? = some key) : c.ends = false := by
  cases c <;> first | rfl | cases h

theorem visit_lock {α : Type} {c : Call} {key : RowKey} {read : Store → UnitOfWork → α}
    {locked : Option (Store × UnitOfWork)} {r : Except LedgerError α} (hk : c.key? = some key)
    (hl : locked = some (l.store, u) ∨ locked = UnitOfWork.lock l.store u key)
    (h : ofLock l locked read = some (r, l', u')) : Visit l u c l' u' := by
  rcases hl with rfl | rfl
  · cases h; exact .stage (ends_of_key? hk) (.refl l) rfl rfl
  · unfold UnitOfWork.lock at h
    split at h
    · cases h; exact .stage (ends_of_key? hk) (.refl l) rfl rfl
    · split at h
      · cases h
      · cases h; exact .take hk ‹_› ‹_›

theorem lock_eq_none {α : Type} {key : RowKey} {read : Store → UnitOfWork → α}
    {locked : Option (Store × UnitOfWork)}
    (hl : locked = some (l.store, u) ∨ locked = UnitOfWork.lock l.store u key)
    (h : ofLock l locked read = none) : key ∈ l.store.held ∧ key ∉ u.locks := by
  rcases hl with rfl | rfl
  · cases h
  · unfold UnitOfWork.lock at h
    split at h
    · cases h
    · split at h
      · exact ⟨‹_›, ‹_›⟩
      · cases h

/-! ## Calls -/

/-- What a call does that does not have to wait. -/
theorem visit {c : Call} {r : Except LedgerError c.Reply}
    (h : c.perform l u = some (r, l', u')) : Visit l u c l' u' := by
  cases c with
  | findAccount number => cases h; exact .stage rfl (.refl l) rfl rfl
  | findLimit number => cases h; exact .stage rfl (.refl l) rfl rfl
  | lockAccount number =>
    have h : ofLock l (u.lockAccount l.store number) (fun s u => u.account? s number) = _ := h
    exact visit_lock rfl (u.lockAccount_eq_or l.store number) h
  | lockJournal transfer =>
    have h : ofLock l (u.lockJournal l.store transfer) (fun s u => u.journal? s transfer) = _ := h
    exact visit_lock rfl (u.lockJournal_eq_or l.store transfer) h
  | readLimit number => cases h; exact .stage rfl (.refl l) rfl rfl
  | insertAccount number entity now => cases h; exact visit_insertAccount number entity now
  | insertLimit limit => cases h; exact visit_insertLimit limit
  | updateLimit limit => cases h; exact visit_updateLimit limit
  | insertJournal draft => cases h; exact visit_insertJournal draft
  | updateJournal journal => cases h; exact visit_updateJournal journal
  | insertPosting account journal amount now =>
    cases h; exact visit_insertPosting account journal amount now
  | setBalance number balance => cases h; exact visit_setBalance number balance
  | commit => cases h; exact visit_commit
  | rollback => cases h; exact .drop rfl (.refl l) rfl
  | publish event => cases h; exact .publish event

/-- A call waits only for a row that somebody else holds. -/
theorem perform_eq_none {c : Call} (h : c.perform l u = none) :
    ∃ key, c.key? = some key ∧ key ∈ l.store.held ∧ key ∉ u.locks := by
  cases c with
  | lockAccount number =>
    have h : ofLock l (u.lockAccount l.store number) (fun s u => u.account? s number) = none := h
    exact ⟨_, rfl, lock_eq_none (u.lockAccount_eq_or l.store number) h⟩
  | lockJournal transfer =>
    have h : ofLock l (u.lockJournal l.store transfer) (fun s u => u.journal? s transfer) = none :=
      h
    exact ⟨_, rfl, lock_eq_none (u.lockJournal_eq_or l.store transfer) h⟩
  | _ => cases h

end Call
end CreditCircle

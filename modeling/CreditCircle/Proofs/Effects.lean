/-
  What a call stages, and what it answers.

  * `UnitOfWork.SameRows`: the same rows are staged.
  * `Call.seen?`: the answer of a call that only looks at rows.
  * `Call.Effect`: the effect of a call on what is staged and committed, one case for each kind of
    write; `Call.effect` says that every call has such an effect.
-/
import CreditCircle.Proofs.Table
import CreditCircle.Proofs.Visits

namespace CreditCircle

/-- `v` has staged what `u` has staged; the locks may differ. -/
def UnitOfWork.SameRows (v u : UnitOfWork) : Prop := v = { u with locks := v.locks }

theorem UnitOfWork.SameRows.refl (u : UnitOfWork) : u.SameRows u := rfl

namespace Call

/-- What a call answers that looks at rows, or that has nothing to answer. -/
def seen? (l : Ledger) (u : UnitOfWork) : (c : Call) → Option c.Reply
  | findAccount number => some (l.tables.account? number)
  | findLimit number => some (l.tables.limit? number)
  | lockAccount number => some (u.account? l.store number)
  | lockJournal transfer => some (u.journal? l.store transfer)
  | readLimit number => some (u.limit? l.store number)
  | publish _ => some ()
  | _ => none

/-- What a call of the unit of work `u` answers, and what it does to the committed rows and keys and
    to the rows that `u` has staged. -/
inductive Effect (l : Ledger) (u : UnitOfWork) :
    (c : Call) → Except LedgerError c.Reply → Ledger → UnitOfWork → Prop
  /-- Rows are looked at, as they are staged or else committed. -/
  | look {c : Call} {v : c.Reply} {l' : Ledger} {u' : UnitOfWork} (seen : c.seen? l u = some v)
      (uses : Uses l l') (rows : u'.SameRows u) : Effect l u c (.ok v) l' u'
  /-- A write is refused. -/
  | refuse {c : Call} {e : LedgerError} {l' : Ledger} {u' : UnitOfWork} (goes_on : c.ends = false)
      (uses : Uses l l') (rows : u'.SameRows u) : Effect l u c (.error e) l' u'
  | insertAccount {number : AccountNumber} {entity : EntityId} {now : Timestamp}
      (unstaged : u.accounts.get? number = none) (uncommitted : l.tables.account? number = none)
      (newcomer : ∀ n a, u.accounts.get? n = some a → a.entity ≠ entity) :
      Effect l u (.insertAccount number entity now)
        (.ok (.opened ⟨l.store.sequences.account + 1⟩ number entity now))
        { l with store := { l.store with
          sequences := { l.store.sequences with account := l.store.sequences.account + 1 } } }
        { u with
          accounts := u.accounts.put number
            (.opened ⟨l.store.sequences.account + 1⟩ number entity now)
          newAccounts := u.newAccounts ++ [number] }
  | insertLimit {limit : BalanceLimit} (uncommitted : l.tables.limit? limit.account = none) :
      Effect l u (.insertLimit limit) (.ok ()) l
        { u with
          limits := u.limits.put limit.account limit
          newLimits := u.newLimits ++ [limit.account] }
  | updateLimit {limit : BalanceLimit} (owned : u.OwnsAccount limit.account) :
      Effect l u (.updateLimit limit) (.ok ()) l
        { u with limits := u.limits.put limit.account limit }
  | insertJournal {draft : JournalDraft} (unstaged : u.journals.get? draft.transfer = none)
      (uncommitted : l.tables.journal? draft.transfer = none) :
      Effect l u (.insertJournal draft)
        (.ok (draft.toJournal ⟨l.store.sequences.journal + 1⟩))
        { l with store := { l.store with
          sequences := { l.store.sequences with journal := l.store.sequences.journal + 1 } } }
        { u with
          journals := u.journals.put draft.transfer
            (draft.toJournal ⟨l.store.sequences.journal + 1⟩)
          newJournals := u.newJournals ++ [draft.transfer] }
  | updateJournal {journal : Journal} (owned : u.OwnsJournal journal.transfer) :
      Effect l u (.updateJournal journal) (.ok ()) l
        { u with journals := u.journals.put journal.transfer journal }
  | insertPosting {account : AccountNumber} {journal : JournalId} {amount : Decimal}
      {now : Timestamp} {posting : Posting} {l' : Ledger} (uses : Uses l l') :
      Effect l u (.insertPosting account journal amount now) (.ok posting) l'
        { u with postings := u.postings ++ [posting] }
  | setBalance {number : AccountNumber} {balance : Decimal} {account : Account}
      (owned : u.OwnsAccount number) (seen : u.account? l.store number = some account) :
      Effect l u (.setBalance number balance) (.ok ()) l
        { u with accounts := u.accounts.put number { account with balance } }
  /-- Everything that is staged is committed. -/
  | commit {l' : Ledger} (sound : u.conflict? l.tables = none)
      (tables : l'.tables = u.applyTo l.tables)
      (sequences : l.store.sequences ≤ l'.store.sequences) : Effect l u .commit (.ok ()) l' .empty
  /-- Everything that is staged is dropped; a commit says so. -/
  | drop {c : Call} {r : Except LedgerError c.Reply} {l' : Ledger} (ends : c.ends = true)
      (told : c.commits = true → ∃ e, r = .error e) (uses : Uses l l') : Effect l u c r l' .empty

variable {l l' : Ledger} {u u' : UnitOfWork}

theorem ends_of_seen? {c : Call} {v : c.Reply} (h : c.seen? l u = some v) : c.ends = false := by
  cases c <;> first | rfl | cases h

namespace Effect

variable {c : Call} {r : Except LedgerError c.Reply}

/-- A call that goes on commits nothing. -/
theorem tables_eq (h : c.Effect l u r l' u') (hc : c.ends = false) : l'.tables = l.tables := by
  cases h with
  | look _ uses _ | refuse _ uses _ | insertPosting uses | drop _ _ uses => exact uses.tables
  | commit _ _ _ => cases hc
  | _ => rfl

/-- A new unit of work begins where one has ended. -/
theorem eq_empty (h : c.Effect l u r l' u') (hc : c.ends = true) : u' = .empty := by
  cases h with
  | commit _ _ _ | drop _ _ _ => rfl
  | look seen _ _ => rw [ends_of_seen? seen] at hc; cases hc
  | refuse goes_on _ _ => rw [goes_on] at hc; cases hc
  | _ => cases hc

end Effect

/-- Releasing rows and using up a failure leaves the committed rows and the keys. -/
theorem uses_release (l : Ledger) (keys : List RowKey) :
    Uses l { l with store := l.store.release keys } :=
  ⟨rfl, Sequences.le_refl _, fun _ h => h⟩

/-! ## Kinds of calls -/

/-- A write that can be made to fail has the effect that it would have otherwise, or is refused. -/
theorem effect_guarded {c : Call} {point : FailPoint} {answer : UnitOfWork.Answer c.Reply}
    (hc : c.ends = false)
    (h : Effect l u c answer.1 { l with store := answer.2.1 } answer.2.2) :
    Effect l u c (UnitOfWork.guarded point l.store u answer).1
      { l with store := (UnitOfWork.guarded point l.store u answer).2.1 }
      (UnitOfWork.guarded point l.store u answer).2.2 := by
  unfold UnitOfWork.guarded
  split
  · exact .refuse hc (.disarm l point) (.refl u)
  · exact h

/-- A read behind a lock sees what it would have seen before the lock was taken. -/
theorem effect_lock {α : Type} {key : RowKey} {read : Store → UnitOfWork → α}
    {locked : Option (Store × UnitOfWork)} {r : Except LedgerError α}
    (hl : locked = some (l.store, u) ∨ locked = UnitOfWork.lock l.store u key)
    (hread : ∀ held locks,
      read { l.store with held } { u with locks } = read l.store u)
    (h : ofLock l locked read = some (r, l', u')) :
    r = .ok (read l.store u) ∧ Uses l l' ∧ u'.SameRows u := by
  rcases hl with rfl | rfl
  · cases h
    exact ⟨rfl, .refl l, .refl u⟩
  · unfold UnitOfWork.lock at h
    split at h
    · cases h
      exact ⟨rfl, .refl l, .refl u⟩
    · split at h
      · cases h
      · cases h
        exact ⟨congrArg _ (hread _ _), ⟨rfl, Sequences.le_refl _, fun _ h => h⟩, rfl⟩

theorem effect_insertAccount (number : AccountNumber) (entity : EntityId) (now : Timestamp) :
    Effect l u (.insertAccount number entity now)
      (u.insertAccount l.store number entity now).1
      { l with store := (u.insertAccount l.store number entity now).2.1 }
      (u.insertAccount l.store number entity now).2.2 := by
  refine effect_guarded rfl ?_
  split
  · exact .refuse rfl (.refl l) (.refl u)
  · rename_i hnumber
    obtain ⟨hstaged, hcommitted⟩ := not_or.1 hnumber
    split
    · exact .refuse rfl (.refl l) (.refl u)
    · rename_i hentity
      refine .insertAccount (Table.get?_eq_none hstaged)
        (Table.get?_eq_none hcommitted) fun n a ha he => hentity (Or.inr ?_)
      rw [List.any_eq_true]
      exact ⟨a, (Table.mem_values_iff _ _).2 ⟨n, ha⟩, decide_eq_true he⟩

theorem effect_insertLimit (limit : BalanceLimit) :
    Effect l u (.insertLimit limit) (u.insertLimit l.store limit).1
      { l with store := (u.insertLimit l.store limit).2.1 } (u.insertLimit l.store limit).2.2 := by
  refine effect_guarded rfl ?_
  split
  · exact .refuse rfl (.refl l) (.refl u)
  · rename_i h
    exact .insertLimit (Table.get?_eq_none (not_or.1 h).2)

theorem effect_updateLimit (limit : BalanceLimit) :
    Effect l u (.updateLimit limit) (u.updateLimit l.store limit).1
      { l with store := (u.updateLimit l.store limit).2.1 } (u.updateLimit l.store limit).2.2 := by
  unfold UnitOfWork.updateLimit
  split
  · exact .updateLimit ‹_›
  · exact .refuse rfl (.refl l) (.refl u)

theorem effect_insertJournal (draft : JournalDraft) :
    Effect l u (.insertJournal draft) (u.insertJournal l.store draft).1
      { l with store := (u.insertJournal l.store draft).2.1 }
      (u.insertJournal l.store draft).2.2 := by
  refine effect_guarded rfl ?_
  split
  · exact .refuse rfl (.refl l) (.refl u)
  · rename_i h
    obtain ⟨hstaged, hcommitted⟩ := not_or.1 h
    exact .insertJournal (Table.get?_eq_none hstaged) (Table.get?_eq_none hcommitted)

theorem effect_updateJournal (journal : Journal) :
    Effect l u (.updateJournal journal) (u.updateJournal l.store journal).1
      { l with store := (u.updateJournal l.store journal).2.1 }
      (u.updateJournal l.store journal).2.2 := by
  refine effect_guarded rfl ?_
  split
  · exact .updateJournal ‹_›
  · exact .refuse rfl (.refl l) (.refl u)

theorem effect_setBalance (number : AccountNumber) (balance : Decimal) :
    Effect l u (.setBalance number balance) (u.setBalance l.store number balance).1
      { l with store := (u.setBalance l.store number balance).2.1 }
      (u.setBalance l.store number balance).2.2 := by
  refine effect_guarded rfl ?_
  split
  · split
    · exact .refuse rfl (.refl l) (.refl u)
    · exact .setBalance ‹_› ‹_›
  · exact .refuse rfl (.refl l) (.refl u)

theorem effect_commit : Effect l u .commit (u.commit l.store).1
    { l with store := (u.commit l.store).2.1 } (u.commit l.store).2.2 := by
  unfold UnitOfWork.commit
  split
  · refine .drop rfl (fun _ => ⟨_, rfl⟩) ?_
    exact ⟨rfl, Sequences.le_refl _, (Uses.disarm l .commit).armed⟩
  · split
    · exact .drop rfl (fun _ => ⟨_, rfl⟩) (uses_release l u.locks)
    · exact .commit ‹_› rfl (Sequences.le_refl _)

/-! ## All calls -/

/-- What a call does that does not have to wait. -/
theorem effect {c : Call} {r : Except LedgerError c.Reply}
    (h : c.perform l u = some (r, l', u')) : Effect l u c r l' u' := by
  cases c with
  | findAccount number => cases h; exact .look rfl (.refl l) (.refl u)
  | findLimit number => cases h; exact .look rfl (.refl l) (.refl u)
  | lockAccount number =>
    have h : ofLock l (u.lockAccount l.store number) (fun s u => u.account? s number) = _ := h
    obtain ⟨rfl, huses, hrows⟩ := effect_lock (u.lockAccount_eq_or l.store number)
      (fun _ _ => rfl) h
    exact .look rfl huses hrows
  | lockJournal transfer =>
    have h : ofLock l (u.lockJournal l.store transfer) (fun s u => u.journal? s transfer) = _ := h
    obtain ⟨rfl, huses, hrows⟩ := effect_lock (u.lockJournal_eq_or l.store transfer)
      (fun _ _ => rfl) h
    exact .look rfl huses hrows
  | readLimit number => cases h; exact .look rfl (.refl l) (.refl u)
  | insertAccount number entity now => cases h; exact effect_insertAccount number entity now
  | insertLimit limit => cases h; exact effect_insertLimit limit
  | updateLimit limit => cases h; exact effect_updateLimit limit
  | insertJournal draft => cases h; exact effect_insertJournal draft
  | updateJournal journal => cases h; exact effect_updateJournal journal
  | insertPosting account journal amount now =>
    cases h
    exact effect_guarded rfl
      (.insertPosting ⟨rfl, ⟨Nat.le_refl _, Nat.le_refl _, Nat.le_succ _⟩, fun _ h => h⟩)
  | setBalance number balance => cases h; exact effect_setBalance number balance
  | commit => cases h; exact effect_commit
  | rollback => cases h; exact .drop rfl nofun (uses_release l u.locks)
  | publish event =>
    cases h
    exact .look rfl ⟨rfl, Sequences.le_refl _, fun _ h => h⟩ (.refl u)

end Call
end CreditCircle

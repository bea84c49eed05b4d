/-
  What the calls of a unit of work do, one rule for each.

  A rule says what is known after the call has succeeded, and for which reasons it can be
  refused.  Nothing of a unit of work shows before its commit (`Staged`), so all rules speak of
  the rows that were committed when the unit began.
-/
import CreditCircle.Ledger.Transfers
import CreditCircle.Proofs.Staging

namespace CreditCircle

/-- A key that a committed row has. -/
def Tables.Takes (t : Tables) : UniqueKey → Prop
  | .number number => (t.account? number).isSome
  | .entity entity => (t.entityAccounts.get? entity).isSome
  | .limit number => (t.limit? number).isSome
  | .transfer transfer => (t.journal? transfer).isSome

/-- The account or its limits are not there, and this is how that is reported. -/
def Tables.Lacks (t : Tables) (number : AccountNumber) (e : LedgerError) : Prop :=
  (t.account? number = none ∧ e = .accountNotFound (.number number)) ∨
    (t.limit? number = none ∧ e = .accountNotFound (.limitOf number))

namespace UnitOfWork

/-- A unit of work that has only taken rows. -/
def holding (keys : List RowKey) : UnitOfWork := { empty with locks := keys }

end UnitOfWork

/-- After an operation that began at `l` has ended, nothing is held, and keys and armed failures
    have only been used up. -/
structure Settled (l l' : Ledger) : Prop where
  held : l'.store.held = []
  sequences : l.store.sequences ≤ l'.store.sequences
  armed : ∀ point ∈ l'.store.armed, point ∈ l.store.armed

theorem Staged.settled {l l' : Ledger} (h : Staged l l' .empty) : Settled l l' :=
  ⟨h.held_eq_nil, h.sequences, h.armed⟩

/-- The commit of `u`, begun at `l₀`, leads to `l'`. -/
structure Committed (l₀ : Ledger) (u : UnitOfWork) (l' : Ledger) : Prop extends Settled l₀ l' where
  tables : l'.tables = u.applyTo l₀.tables
  events : l'.events = l₀.events

namespace Program

open UnitOfWork (holding)

variable {l₀ l : Ledger} {u : UnitOfWork} {bad : Failure LedgerError → Prop}

/-! ## Reads -/

theorem attempts_findAccount {number : AccountNumber} {good : Account → Ledger → UnitOfWork → Prop}
    (h : Staged l₀ l u) (hg : ∀ a, l₀.tables.account? number = some a → good a l u)
    (hb : ∀ e, l₀.tables.Lacks number e → bad (.refused e)) :
    (findAccount number).Attempts l₀ good bad l u := by
  refine attempts_bind (attempts_reply rfl ?_)
  rw [h.tables]
  exact attempts_require h hg fun hn => hb _ (Or.inl ⟨hn, rfl⟩)

theorem attempts_findLimit {number : AccountNumber}
    {good : BalanceLimit → Ledger → UnitOfWork → Prop}
    (h : Staged l₀ l u) (hg : ∀ limit, l₀.tables.limit? number = some limit → good limit l u)
    (hb : ∀ e, l₀.tables.Lacks number e → bad (.refused e)) :
    (findLimit number).Attempts l₀ good bad l u := by
  refine attempts_bind (attempts_reply rfl ?_)
  rw [h.tables]
  exact attempts_require h hg fun hn => hb _ (Or.inr ⟨hn, rfl⟩)

/-! ## Locks -/

/-- Alone, a unit of work gets every row that it asks for. -/
theorem lock_holding {keys : List RowKey} (key : RowKey) (h : Staged l₀ l (holding keys)) :
    ∃ s, UnitOfWork.lock l.store (holding keys) key = some (s, holding (keys.insert key)) ∧
      Staged l₀ { l with store := s } (holding (keys.insert key)) := by
  by_cases hk : key ∈ keys
  · refine ⟨l.store, ?_, ?_⟩
    · simp [UnitOfWork.lock, holding, hk]
    · rw [List.insert_of_mem hk]; exact h
  · have hh : key ∉ l.store.held := fun hm => hk (h.held key hm)
    refine ⟨{ l.store with held := key :: l.store.held }, ?_, ?_⟩
    · simp [UnitOfWork.lock, holding, hk, hh]
    · refine ⟨h.tables, h.events, fun k hm => ?_, h.sequences, h.armed⟩
      rcases List.mem_cons.1 hm with rfl | hm
      · exact List.mem_insert_self
      · exact List.mem_insert_of_mem (h.held k hm)

theorem perform_lockAccount {keys : List RowKey} (number : AccountNumber)
    (h : Staged l₀ l (holding keys)) :
    ∃ l', (Call.lockAccount number).perform l (holding keys) =
        some (.ok (l₀.tables.account? number), l', holding (keys.insert (.account number))) ∧
      Staged l₀ l' (holding (keys.insert (.account number))) := by
  obtain ⟨s, hlock, hs⟩ := lock_holding (.account number) h
  refine ⟨_, ?_, hs⟩
  have ht : s.tables = l₀.tables := hs.tables
  have hr : UnitOfWork.lockAccount l.store (holding keys) number =
      UnitOfWork.lock l.store (holding keys) (.account number) := if_neg List.not_mem_nil
  simp only [Call.perform, Call.ofLock, hr, hlock, Option.map_some]
  simp [UnitOfWork.account?, holding, UnitOfWork.empty, ht]

theorem limit?_holding {keys : List RowKey} (number : AccountNumber)
    (h : Staged l₀ l (holding keys)) :
    (holding keys).limit? l.store number = l₀.tables.limit? number :=
  congrArg (·.limit? number) h.tables

/-- Takes an account row and reads its limits. -/
theorem attempts_lockAccount {number : AccountNumber} {keys : List RowKey}
    {good : Account × BalanceLimit → Ledger → UnitOfWork → Prop} (h : Staged l₀ l (holding keys))
    (hg : ∀ a limit l', l₀.tables.account? number = some a → l₀.tables.limit? number = some limit →
      Staged l₀ l' (holding (keys.insert (.account number))) →
        good (a, limit) l' (holding (keys.insert (.account number))))
    (hb : ∀ e, l₀.tables.Lacks number e → bad (.refused e)) :
    (lockAccount number).Attempts l₀ good bad l (holding keys) := by
  obtain ⟨l', hc, hs⟩ := perform_lockAccount number h
  refine attempts_bind (attempts_reply hc (attempts_bind (attempts_require hs (fun a ha => ?_)
    fun hn => hb _ (Or.inl ⟨hn, rfl⟩))))
  refine attempts_bind (attempts_reply rfl ?_)
  rw [limit?_holding number hs]
  exact attempts_bind (attempts_require hs (fun limit hlim => hg a limit _ ha hlim hs) fun hn =>
    hb _ (Or.inr ⟨hn, rfl⟩))

/-- Nothing that is armed gets in the way of reading an account that is there. -/
theorem ends_lockAccount {α : Type} {number : AccountNumber} {keys : List RowKey}
    {post : Ending α} {f : Account × BalanceLimit → Program α} {account : Account × BalanceLimit}
    (h : Staged l₀ l (holding keys)) (ha : l₀.tables.account? number = some account.1)
    (hl : l₀.tables.limit? number = some account.2)
    (hf : ∀ l', Staged l₀ l' (holding (keys.insert (.account number))) →
      (f account).Ends post l' (holding (keys.insert (.account number)))) :
    (lockAccount number >>= f).Ends post l (holding keys) := by
  obtain ⟨l', hc, hs⟩ := perform_lockAccount number h
  refine ends_bind (ends_bind ⟨_, _, _, hc, ?_⟩)
  rw [ha]
  refine ends_bind ⟨_, _, _, rfl, ?_⟩
  rw [limit?_holding number hs, hl]
  exact hf l' hs

theorem perform_lockJournal {keys : List RowKey} (transfer : TransferId)
    (h : Staged l₀ l (holding keys)) :
    ∃ l', (Call.lockJournal transfer).perform l (holding keys) =
        some (.ok (l₀.tables.journal? transfer), l', holding (keys.insert (.journal transfer))) ∧
      Staged l₀ l' (holding (keys.insert (.journal transfer))) := by
  obtain ⟨s, hlock, hs⟩ := lock_holding (.journal transfer) h
  refine ⟨_, ?_, hs⟩
  have ht : s.tables = l₀.tables := hs.tables
  have hr : UnitOfWork.lockJournal l.store (holding keys) transfer =
      UnitOfWork.lock l.store (holding keys) (.journal transfer) := if_neg Bool.false_ne_true
  simp only [Call.perform, Call.ofLock, hr, hlock, Option.map_some]
  simp [UnitOfWork.journal?, holding, UnitOfWork.empty, ht]

/-- Takes a pending journal; one that has ended is refused. -/
theorem attempts_lockPending {transfer : TransferId} {action : Action} {keys : List RowKey}
    {good : Journal → Ledger → UnitOfWork → Prop} (h : Staged l₀ l (holding keys))
    (hg : ∀ j l', l₀.tables.journal? transfer = some j → j.status = .initiated →
      Staged l₀ l' (holding (keys.insert (.journal transfer))) →
        good j l' (holding (keys.insert (.journal transfer))))
    (hb : ∀ e, (l₀.tables.journal? transfer = none ∧
          e = .transferNotFound (.transfer transfer)) ∨
        (∃ j, l₀.tables.journal? transfer = some j ∧ j.status ≠ .initiated ∧
          e = .invalidStateTransition transfer j.status action) → bad (.refused e)) :
    (lockPending transfer action).Attempts l₀ good bad l (holding keys) := by
  obtain ⟨l', hc, hs⟩ := perform_lockJournal transfer h
  refine attempts_bind (attempts_reply hc (attempts_bind (attempts_require hs (fun j hj => ?_)
    fun hn => hb _ (Or.inl ⟨hn, rfl⟩))))
  by_cases hst : j.status = .initiated
  · rw [if_neg (by simp [hst, Status.isTerminal])]
    exact hg j _ hj hst hs
  · rw [if_pos (by simp [hst, Status.isTerminal])]
    exact attempts_bind (attempts_fail hs (hb _ (Or.inr ⟨j, hj, hst, rfl⟩)))

/-- Nothing that is armed gets in the way of refusing a transfer that has ended. -/
theorem ends_lockPending {α : Type} {transfer : TransferId} {action : Action}
    {keys : List RowKey} {f : Journal → Program α} {j : Journal} (h : Staged l₀ l (holding keys))
    (hj : l₀.tables.journal? transfer = some j) (hst : j.status ≠ .initiated) :
    (lockPending transfer action >>= f).Ends
      (fun r l' u => r = .error (.refused (.invalidStateTransition transfer j.status action)) ∧
        Staged l₀ l' u) l (holding keys) := by
  obtain ⟨l', hc, hs⟩ := perform_lockJournal transfer h
  refine ends_bind (ends_bind ⟨_, _, _, hc, ?_⟩)
  rw [hj]
  show Ends _ (if j.status.isTerminal then _ else _) _ _
  rw [if_pos (by simp [hst, Status.isTerminal])]
  exact ⟨rfl, hs⟩

/-- Nor of taking a transfer that is still pending. -/
theorem ends_lockPending_of_pending {α : Type} {transfer : TransferId} {action : Action}
    {keys : List RowKey} {post : Ending α} {f : Journal → Program α} {j : Journal}
    (h : Staged l₀ l (holding keys)) (hj : l₀.tables.journal? transfer = some j)
    (hst : j.status = .initiated)
    (hf : ∀ l', Staged l₀ l' (holding (keys.insert (.journal transfer))) →
      (f j).Ends post l' (holding (keys.insert (.journal transfer)))) :
    (lockPending transfer action >>= f).Ends post l (holding keys) := by
  obtain ⟨l', hc, hs⟩ := perform_lockJournal transfer h
  refine ends_bind (ends_bind ⟨_, _, _, hc, ?_⟩)
  rw [hj]
  show Ends _ (if j.status.isTerminal then _ else _) _ _
  rw [if_neg (by simp [hst, Status.isTerminal])]
  exact hf l' hs

/-! ## Writes -/

/-- A write that can be made to fail: it is either that, or its answer as if nothing were armed. -/
theorem attempts_guarded {c : Call} {point : FailPoint} {answer : UnitOfWork.Answer c.Reply}
    {good : c.Reply → Ledger → UnitOfWork → Prop} (h : Staged l₀ l u)
    (hc : c.perform l u = Call.ofAnswer l (UnitOfWork.guarded point l.store u answer))
    (hn : attempt l₀ good bad (answer.1.mapError .refused) { l with store := answer.2.1 }
      answer.2.2) :
    (ask c).Attempts l₀ good bad l u := by
  refine ⟨_, _, _, hc, ?_⟩
  unfold UnitOfWork.guarded
  split
  · rename_i hp
    exact ⟨h.disarm point, Or.inl ⟨point, h.armed point hp, rfl⟩⟩
  · obtain ⟨r, s, u'⟩ := answer
    cases r with
    | ok a => exact hn
    | error e => exact hn

theorem attempts_insertAccount {number : AccountNumber} {entity : EntityId} {now : Timestamp}
    {good : Account → Ledger → UnitOfWork → Prop} (h : Staged l₀ l .empty)
    (hg : ∀ l' id, l₀.tables.account? number = none → l₀.tables.entityAccounts.get? entity = none →
      l₀.store.sequences.account < id → id ≤ l'.store.sequences.account →
      let account := Account.opened ⟨id⟩ number entity now
      let u' := { UnitOfWork.empty with
        accounts := Table.empty.put number account, newAccounts := [number] }
      Staged l₀ l' u' → good account l' u')
    (hb : ∀ key, key = .number number ∨ key = .entity entity → l₀.tables.Takes key →
      bad (.refused (.duplicateKey key))) :
    (ask (.insertAccount number entity now)).Attempts l₀ good bad l .empty := by
  refine attempts_guarded h rfl ?_
  have ht : l.store.tables = l₀.tables := h.tables
  have hs := h.sequences.1
  by_cases hn : (l₀.tables.account? number).isSome
  · rw [if_pos (Or.inr (ht ▸ hn))]
    exact ⟨h, Or.inr (hb _ (Or.inl rfl) hn)⟩
  · rw [if_neg (by
      rintro (hm | hm)
      · cases hm
      · exact hn (ht ▸ hm))]
    by_cases he : (l₀.tables.entityAccounts.get? entity).isSome
    · rw [if_pos (Or.inl (ht ▸ he))]
      exact ⟨h, Or.inr (hb _ (Or.inr rfl) he)⟩
    · rw [if_neg (by
        rintro (hm | hm)
        · exact he (ht ▸ hm)
        · cases hm)]
      refine hg _ (l.store.sequences.account + 1) (by simpa using hn) (by simpa using he)
        (by omega) (Nat.le_refl _) ?_
      exact (h.count (s := { l.store.sequences with account := l.store.sequences.account + 1 })
        ⟨Nat.le_succ _, Nat.le_refl _, Nat.le_refl _⟩).stage rfl

theorem attempts_insertLimit {limit : BalanceLimit} {good : Unit → Ledger → UnitOfWork → Prop}
    (h : Staged l₀ l u) (hu : u.limits = .empty)
    (hg : ∀ l', l₀.tables.limit? limit.account = none →
      let u' := { u with
        limits := Table.empty.put limit.account limit, newLimits := u.newLimits ++ [limit.account] }
      l.store.sequences = l'.store.sequences → Staged l₀ l' u' → good () l' u')
    (hb : l₀.tables.Takes (.limit limit.account) →
      bad (.refused (.duplicateKey (.limit limit.account)))) :
    (ask (.insertLimit limit)).Attempts l₀ good bad l u := by
  refine attempts_guarded h rfl ?_
  have ht : l.store.tables = l₀.tables := h.tables
  by_cases hl : (l₀.tables.limit? limit.account).isSome
  · rw [if_pos (Or.inr (ht ▸ hl))]
    exact ⟨h, Or.inr (hb hl)⟩
  · rw [if_neg (by
      rintro (hm | hm)
      · rw [hu] at hm; cases hm
      · exact hl (ht ▸ hm)), hu]
    exact hg _ (by simpa using hl) rfl (h.stage rfl)

theorem attempts_updateLimit {limit : BalanceLimit} {good : Unit → Ledger → UnitOfWork → Prop}
    (h : Staged l₀ l u) (hu : u.OwnsAccount limit.account)
    (hg : ∀ u', u' = { u with limits := u.limits.put limit.account limit } → Staged l₀ l u' →
      good () l u') :
    (ask (.updateLimit limit)).Attempts l₀ good bad l u := by
  have hc : (Call.updateLimit limit).perform l u =
      some (.ok (), l, { u with limits := u.limits.put limit.account limit }) := by
    simp only [Call.perform, UnitOfWork.updateLimit, if_pos hu, Call.ofAnswer]
  exact attempts_reply hc (hg _ rfl (h.stage rfl))

theorem attempts_insertJournal {draft : JournalDraft} {good : Journal → Ledger → UnitOfWork → Prop}
    (h : Staged l₀ l u) (hu : u.journals = .empty)
    (hg : ∀ l' id, l₀.tables.journal? draft.transfer = none → l₀.store.sequences.journal < id →
      id ≤ l'.store.sequences.journal →
      let journal := draft.toJournal ⟨id⟩
      let u' := { u with
        journals := Table.empty.put draft.transfer journal
        newJournals := u.newJournals ++ [draft.transfer] }
      Staged l₀ l' u' → good journal l' u')
    (hb : l₀.tables.Takes (.transfer draft.transfer) →
      bad (.refused (.duplicateKey (.transfer draft.transfer)))) :
    (ask (.insertJournal draft)).Attempts l₀ good bad l u := by
  refine attempts_guarded h rfl ?_
  have ht : l.store.tables = l₀.tables := h.tables
  have hs := h.sequences.2.1
  by_cases hj : (l₀.tables.journal? draft.transfer).isSome
  · rw [if_pos (Or.inr (ht ▸ hj))]
    exact ⟨h, Or.inr (hb hj)⟩
  · rw [if_neg (by
      rintro (hm | hm)
      · rw [hu] at hm; cases hm
      · exact hj (ht ▸ hm)), hu]
    refine hg _ (l.store.sequences.journal + 1) (by simpa using hj) (by omega) (Nat.le_refl _) ?_
    exact (h.count (s := { l.store.sequences with journal := l.store.sequences.journal + 1 })
      ⟨Nat.le_refl _, Nat.le_succ _, Nat.le_refl _⟩).stage rfl

theorem attempts_updateJournal {journal : Journal} {good : Unit → Ledger → UnitOfWork → Prop}
    (h : Staged l₀ l u) (hu : u.OwnsJournal journal.transfer)
    (hg : let u' := { u with journals := u.journals.put journal.transfer journal }
      Staged l₀ l u' → good () l u') :
    (ask (.updateJournal journal)).Attempts l₀ good bad l u := by
  refine attempts_guarded h rfl ?_
  rw [if_pos hu]
  exact hg (h.stage rfl)

theorem attempts_insertPosting {number : AccountNumber} {journal : JournalId} {amount : Decimal}
    {now : Timestamp} {good : Posting → Ledger → UnitOfWork → Prop} (h : Staged l₀ l u)
    (hg : ∀ l', l'.store.sequences.journal = l.store.sequences.journal →
      l'.store.sequences.posting = l.store.sequences.posting + 1 →
      let posting := ⟨⟨l'.store.sequences.posting⟩, number, journal, amount, now⟩
      let u' := { u with postings := u.postings ++ [posting] }
      Staged l₀ l' u' → good posting l' u') :
    (ask (.insertPosting number journal amount now)).Attempts l₀ good bad l u := by
  refine attempts_guarded h rfl ?_
  refine hg { l with store := { l.store with sequences :=
    { l.store.sequences with posting := l.store.sequences.posting + 1 } } } rfl rfl ?_
  exact (h.count (s := { l.store.sequences with posting := l.store.sequences.posting + 1 })
    ⟨Nat.le_refl _, Nat.le_refl _, Nat.le_succ _⟩).stage rfl

theorem attempts_setBalance {number : AccountNumber} {balance : Decimal} {a : Account}
    {good : Unit → Ledger → UnitOfWork → Prop} (h : Staged l₀ l u) (hu : u.OwnsAccount number)
    (hn : u.accounts.get? number = none) (ha : l₀.tables.account? number = some a)
    (hg : let u' := { u with accounts := u.accounts.put number { a with balance } }
      Staged l₀ l u' → good () l u') :
    (ask (.setBalance number balance)).Attempts l₀ good bad l u := by
  refine attempts_guarded h rfl ?_
  have hr : u.account? l.store number = some a := by
    have ht : l.store.tables = l₀.tables := h.tables
    rw [UnitOfWork.account?, hn, ht, ha]; rfl
  rw [if_pos hu, hr]
  exact hg (h.stage rfl)

/-! ## The end -/

/-- Alone, a unit of work that has found its keys free finds them free at its commit too. -/
theorem attempts_commit {good : Unit → Ledger → UnitOfWork → Prop} (h : Staged l₀ l u)
    (hu : u.conflict? l₀.tables = none)
    (hg : ∀ l', l'.store.sequences = l.store.sequences → Committed l₀ u l' → good () l' .empty) :
    (ask .commit).Attempts l₀ good bad l u := by
  refine ⟨_, _, _, rfl, ?_⟩
  unfold UnitOfWork.commit
  split
  · rename_i hp
    exact ⟨(h.disarm .commit).release, Or.inl ⟨.commit, h.armed _ hp, rfl⟩⟩
  · have ht : l.store.tables = l₀.tables := h.tables
    have hs := h.release.settled
    rw [ht, hu]
    exact hg _ rfl ⟨⟨hs.held, hs.sequences, hs.armed⟩, rfl, h.events⟩

end Program
end CreditCircle

/-
  The order of rows does not matter to calls.

  * `Tables.Same`, `UnitOfWork.Same`, `Ledger.Same`: the same rows, locks, keys and events, with
    the rows of every table in whatever order.
  * `UnitOfWork.Sparing`: no two new rows of a kind are staged.
  * `UnitOfWork.Same.applyTo`: what is staged then leads to the same tables, in whatever order it
    is applied.
  * `Call.perform_same`: a call does the same to the same ledger.
-/
import CreditCircle.Proofs.Table
import CreditCircle.Proofs.Visits
import Mathlib.Data.List.Nodup

namespace CreditCircle

/-! ## Tables -/

namespace Table

variable {κ α : Type}

/-- Different rows stand under different keys. -/
theorem ne_of_mem_entries {t : Table κ α} {e e' : κ × α} (he : e ∈ t.entries)
    (he' : e' ∈ t.entries) (h : e ≠ e') : e.1 ≠ e'.1 :=
  fun hk => h (List.inj_on_of_nodup_map t.nodup he he' hk)

variable [DecidableEq κ] {t t' t'' : Table κ α}

theorem Same.refl (t : Table κ α) : t.Same t := fun _ => rfl

theorem Same.symm (h : t.Same t') : t'.Same t := fun k => (h k).symm

theorem Same.trans (h : t.Same t') (h' : t'.Same t'') : t.Same t'' := fun k => (h k).trans (h' k)

theorem Same.has (h : t.Same t') (k : κ) : t.has k = t'.has k := congrArg Option.isSome (h k)

theorem Same.put (h : t.Same t') (k : κ) (v : α) : (t.put k v).Same (t'.put k v) := by
  intro x
  rw [get?_put, get?_put, h x]

theorem Same.any (h : t.Same t') (p : α → Bool) : t.values.any p = t'.values.any p := by
  rw [Bool.eq_iff_iff, List.any_eq_true, List.any_eq_true]
  refine exists_congr fun v => and_congr_left fun _ => ?_
  rw [mem_values_iff, mem_values_iff]
  exact exists_congr fun k => by rw [h k]

/-- The same rows are listed, in whatever order. -/
theorem Same.perm (h : t.Same t') : t.entries.Perm t'.entries := by
  refine (List.perm_ext_iff_of_nodup (.of_map _ t.nodup) (.of_map _ t'.nodup)).2 fun ⟨k, v⟩ => ?_
  rw [mem_entries_iff, mem_entries_iff, h k]

/-- Rows under different keys may be put in either order. -/
theorem put_comm (t : Table κ α) {k x : κ} (h : k ≠ x) (v w : α) :
    ((t.put k v).put x w).Same ((t.put x w).put k v) := by
  intro y
  simp only [get?_put]
  grind

end Table

/-- The same rows in every table. -/
structure Tables.Same (t t' : Tables) : Prop where
  accounts : t.accounts.Same t'.accounts
  accountIds : t.accountIds.Same t'.accountIds
  entityAccounts : t.entityAccounts.Same t'.entityAccounts
  limits : t.limits.Same t'.limits
  journals : t.journals.Same t'.journals
  journalIds : t.journalIds.Same t'.journalIds
  postings : t.postings.Same t'.postings

namespace Tables

variable {t t' t'' : Tables}

theorem Same.refl (t : Tables) : t.Same t :=
  ⟨.refl _, .refl _, .refl _, .refl _, .refl _, .refl _, .refl _⟩

theorem Same.symm (h : t.Same t') : t'.Same t :=
  ⟨h.accounts.symm, h.accountIds.symm, h.entityAccounts.symm, h.limits.symm, h.journals.symm,
    h.journalIds.symm, h.postings.symm⟩

theorem Same.trans (h : t.Same t') (h' : t'.Same t'') : t.Same t'' :=
  ⟨h.accounts.trans h'.accounts, h.accountIds.trans h'.accountIds,
    h.entityAccounts.trans h'.entityAccounts, h.limits.trans h'.limits,
    h.journals.trans h'.journals, h.journalIds.trans h'.journalIds, h.postings.trans h'.postings⟩

/-! ### Changes in any order -/

section
variable {β : Type} {f g : Tables → β → Tables} {es es' : List β}

theorem foldl_same (hfg : ∀ e t t', t.Same t' → (f t e).Same (g t' e)) :
    ∀ (es : List β) {t t' : Tables}, t.Same t' → (es.foldl f t).Same (es.foldl g t')
  | [], _, _, h => h
  | e :: es, _, _, h => foldl_same hfg es (hfg e _ _ h)

/-- Changes any two of which may be made in either order may be made in any order. -/
theorem foldl_same_of_perm (hfg : ∀ e t t', t.Same t' → (f t e).Same (g t' e))
    (hg : ∀ e t t', t.Same t' → (g t e).Same (g t' e)) (hp : es.Perm es')
    (hcomm : ∀ e ∈ es, ∀ e' ∈ es, e ≠ e' → ∀ t, (g (g t e) e').Same (g (g t e') e)) :
    ∀ {t t' : Tables}, t.Same t' → (es.foldl f t).Same (es'.foldl g t') := by
  intro t t' h
  refine (foldl_same hfg es h).trans ?_
  clear h hfg
  induction hp generalizing t' with
  | nil => exact .refl _
  | cons e _ ih =>
    exact ih fun x hx y hy => hcomm x (List.mem_cons_of_mem _ hx) y (List.mem_cons_of_mem _ hy)
  | swap x y es =>
    refine foldl_same hg es ?_
    by_cases hxy : x = y
    · rw [hxy]; exact .refl _
    · exact (hcomm x (by simp) y (by simp) hxy t').symm
  | trans hp _ ih ih' =>
    exact (ih hcomm).trans (ih' fun x hx y hy =>
      hcomm x (hp.mem_iff.2 hx) y (hp.mem_iff.2 hy))

end

end Tables

/-! ## Units of work -/

namespace UnitOfWork

/-- The same locks and the same staged rows. -/
structure Same (u v : UnitOfWork) : Prop where
  locks : u.locks.Perm v.locks
  accounts : u.accounts.Same v.accounts
  newAccounts : u.newAccounts.Perm v.newAccounts
  limits : u.limits.Same v.limits
  newLimits : u.newLimits.Perm v.newLimits
  journals : u.journals.Same v.journals
  newJournals : u.newJournals.Perm v.newJournals
  postings : u.postings = v.postings

/-- No two new rows of a kind are staged. -/
structure Sparing (u : UnitOfWork) : Prop where
  newAccounts : u.newAccounts.length ≤ 1
  newLimits : u.newLimits.length ≤ 1
  newJournals : u.newJournals.length ≤ 1

theorem Same.refl (u : UnitOfWork) : u.Same u :=
  ⟨.refl _, .refl _, .refl _, .refl _, .refl _, .refl _, .refl _, rfl⟩

theorem Same.symm {u v : UnitOfWork} (h : u.Same v) : v.Same u :=
  ⟨h.locks.symm, h.accounts.symm, h.newAccounts.symm, h.limits.symm, h.newLimits.symm,
    h.journals.symm, h.newJournals.symm, h.postings.symm⟩

theorem Same.trans {u v w : UnitOfWork} (h : u.Same v) (h' : v.Same w) : u.Same w :=
  ⟨h.locks.trans h'.locks, h.accounts.trans h'.accounts, h.newAccounts.trans h'.newAccounts,
    h.limits.trans h'.limits, h.newLimits.trans h'.newLimits, h.journals.trans h'.journals,
    h.newJournals.trans h'.newJournals, h.postings.trans h'.postings⟩

variable {u v : UnitOfWork} {t t' : Tables}

theorem eq_of_mem_of_length_le_one {α : Type} {xs : List α} (h : xs.length ≤ 1) {x y : α}
    (hx : x ∈ xs) (hy : y ∈ xs) : x = y := by
  match xs, h with
  | [z], _ => rw [List.mem_singleton.1 hx, List.mem_singleton.1 hy]

theorem eq_of_perm_of_length_le_one {α : Type} {xs ys : List α} (h : xs.length ≤ 1)
    (hp : xs.Perm ys) : xs = ys := by
  match xs, h with
  | [], _ => exact hp.nil_eq
  | [x], _ => exact List.singleton_perm.1 hp

/-! ### Applying what is staged -/

theorem Same.applyAccount (hu : u.Same v) (ht : t.Same t') (n : AccountNumber) (a : Account) :
    (u.applyAccount t n a).Same (v.applyAccount t' n a) := by
  have haccounts := ht.accounts.put n a
  unfold UnitOfWork.applyAccount
  by_cases hn : n ∈ u.newAccounts
  · rw [if_pos hn, if_pos (hu.newAccounts.mem_iff.1 hn)]
    exact { ht with
      accounts := haccounts
      accountIds := ht.accountIds.put _ _
      entityAccounts := ht.entityAccounts.put _ _ }
  · rw [if_neg hn, if_neg (mt hu.newAccounts.mem_iff.2 hn)]
    exact { ht with accounts := haccounts }

theorem Same.applyJournal (hu : u.Same v) (ht : t.Same t') (x : TransferId) (j : Journal) :
    (u.applyJournal t x j).Same (v.applyJournal t' x j) := by
  have hjournals := ht.journals.put x j
  unfold UnitOfWork.applyJournal
  by_cases hx : x ∈ u.newJournals
  · rw [if_pos hx, if_pos (hu.newJournals.mem_iff.1 hx)]
    exact { ht with journals := hjournals, journalIds := ht.journalIds.put _ _ }
  · rw [if_neg hx, if_neg (mt hu.newJournals.mem_iff.2 hx)]
    exact { ht with journals := hjournals }

theorem applyPosting_same (ht : t.Same t') (p : Posting) :
    (applyPosting t p).Same (applyPosting t' p) := by
  refine { ht with postings := ?_ }
  show (t.postings.put p.journal _).Same (t'.postings.put p.journal _)
  rw [Tables.postingsOfJournal, Tables.postingsOfJournal, ht.postings]
  exact ht.postings.put _ _

theorem applyAccount_comm (hs : u.newAccounts.length ≤ 1) (t : Tables) {m n : AccountNumber}
    (h : m ≠ n) (a b : Account) :
    (u.applyAccount (u.applyAccount t m a) n b).Same
      (u.applyAccount (u.applyAccount t n b) m a) := by
  have hnew : ¬ (m ∈ u.newAccounts ∧ n ∈ u.newAccounts) :=
    fun hmn => h (eq_of_mem_of_length_le_one hs hmn.1 hmn.2)
  have hput := t.accounts.put_comm h a b
  by_cases hm : m ∈ u.newAccounts
  · have hn : n ∉ u.newAccounts := fun hn => hnew ⟨hm, hn⟩
    simp only [applyAccount, hm, hn, if_true, if_false]
    exact { Tables.Same.refl _ with accounts := hput }
  · by_cases hn : n ∈ u.newAccounts
    · simp only [applyAccount, hm, hn, if_true, if_false]
      exact { Tables.Same.refl _ with accounts := hput }
    · simp only [applyAccount, hm, hn, if_false]
      exact { Tables.Same.refl _ with accounts := hput }

theorem applyJournal_comm (hs : u.newJournals.length ≤ 1) (t : Tables) {x y : TransferId}
    (h : x ≠ y) (j k : Journal) :
    (u.applyJournal (u.applyJournal t x j) y k).Same
      (u.applyJournal (u.applyJournal t y k) x j) := by
  have hnew : ¬ (x ∈ u.newJournals ∧ y ∈ u.newJournals) :=
    fun hxy => h (eq_of_mem_of_length_le_one hs hxy.1 hxy.2)
  have hput := t.journals.put_comm h j k
  by_cases hx : x ∈ u.newJournals
  · have hy : y ∉ u.newJournals := fun hy => hnew ⟨hx, hy⟩
    simp only [applyJournal, hx, hy, if_true, if_false]
    exact { Tables.Same.refl _ with journals := hput }
  · by_cases hy : y ∈ u.newJournals
    · simp only [applyJournal, hx, hy, if_true, if_false]
      exact { Tables.Same.refl _ with journals := hput }
    · simp only [applyJournal, hx, hy, if_false]
      exact { Tables.Same.refl _ with journals := hput }

/-- What is staged leads to the same tables, in whatever order its rows are applied. -/
theorem Same.applyTo (hu : u.Same v) (hs : v.Sparing) (ht : t.Same t') :
    (u.applyTo t).Same (v.applyTo t') := by
  have haccounts := Tables.foldl_same_of_perm
    (fun (e : AccountNumber × Account) _ _ h => hu.applyAccount h e.1 e.2)
    (fun e _ _ h => (Same.refl v).applyAccount h e.1 e.2) hu.accounts.perm
    (fun e he e' he' hne t => applyAccount_comm hs.newAccounts t
      (Table.ne_of_mem_entries he he' hne) e.2 e'.2) ht
  have hput : ∀ (e : AccountNumber × BalanceLimit) (t t' : Tables), t.Same t' →
      Tables.Same { t with limits := t.limits.put e.1 e.2 }
        { t' with limits := t'.limits.put e.1 e.2 } :=
    fun e _ _ h => { h with limits := h.limits.put e.1 e.2 }
  have hlimits := Tables.foldl_same_of_perm hput hput hu.limits.perm
    (fun e he e' he' hne t => { Tables.Same.refl _ with
      limits := t.limits.put_comm (Table.ne_of_mem_entries he he' hne) e.2 e'.2 }) haccounts
  have hjournals := Tables.foldl_same_of_perm
    (fun (e : TransferId × Journal) _ _ h => hu.applyJournal h e.1 e.2)
    (fun e _ _ h => (Same.refl v).applyJournal h e.1 e.2) hu.journals.perm
    (fun e he e' he' hne t => applyJournal_comm hs.newJournals t
      (Table.ne_of_mem_entries he he' hne) e.2 e'.2) hlimits
  unfold UnitOfWork.applyTo
  rw [hu.postings]
  exact Tables.foldl_same (fun p _ _ h => applyPosting_same h p) _ hjournals

theorem Same.conflict? (hu : u.Same v) (hs : v.Sparing) (ht : t.Same t') :
    u.conflict? t = v.conflict? t' := by
  have haccounts := eq_of_perm_of_length_le_one hs.newAccounts hu.newAccounts.symm
  have hlimits := eq_of_perm_of_length_le_one hs.newLimits hu.newLimits.symm
  have hjournals := eq_of_perm_of_length_le_one hs.newJournals hu.newJournals.symm
  have hentity : ∀ entity, t.entityAccounts.has entity = t'.entityAccounts.has entity :=
    ht.entityAccounts.has
  simp only [UnitOfWork.conflict?, ← haccounts, ← hlimits, ← hjournals, ht.accounts.has,
    ht.limits.has, ht.journals.has, hentity, hu.accounts _]

end UnitOfWork

/-! ## Ledgers -/

/-- The same rows, locks, counters and armed failures. -/
structure Store.Same (s s' : Store) : Prop where
  tables : s.tables.Same s'.tables
  held : s.held.Perm s'.held
  sequences : s.sequences = s'.sequences
  armed : s.armed.Perm s'.armed

/-- The same store and the same events. -/
structure Ledger.Same (l l' : Ledger) : Prop where
  store : l.store.Same l'.store
  events : l.events = l'.events

theorem Store.Same.refl (s : Store) : s.Same s := ⟨.refl _, .refl _, rfl, .refl _⟩

theorem Ledger.Same.refl (l : Ledger) : l.Same l := ⟨.refl _, rfl⟩

theorem Ledger.Same.symm {l l' : Ledger} (h : l.Same l') : l'.Same l :=
  ⟨⟨h.store.tables.symm, h.store.held.symm, h.store.sequences.symm, h.store.armed.symm⟩,
    h.events.symm⟩

theorem Ledger.Same.trans {l l' l'' : Ledger} (h : l.Same l') (h' : l'.Same l'') : l.Same l'' :=
  ⟨⟨h.store.tables.trans h'.store.tables, h.store.held.trans h'.store.held,
    h.store.sequences.trans h'.store.sequences, h.store.armed.trans h'.store.armed⟩,
    h.events.trans h'.events⟩

theorem Store.Same.disarm {s s' : Store} (h : s.Same s') (point : FailPoint) :
    (s.disarm point).Same (s'.disarm point) :=
  { h with armed := h.armed.filter _ }

theorem Store.Same.release {s s' : Store} (h : s.Same s') {keys keys' : List RowKey}
    (hk : keys.Perm keys') : (s.release keys).Same (s'.release keys') := by
  refine { h with held := ?_ }
  have hfilter : s'.held.filter (· ∉ keys) = s'.held.filter (· ∉ keys') :=
    List.filter_congr fun k _ => by simp only [hk.mem_iff]
  show (s.held.filter (· ∉ keys)).Perm (s'.held.filter (· ∉ keys'))
  rw [← hfilter]
  exact h.held.filter _

/-! ## Calls -/

namespace UnitOfWork

/-- The same reply, store and unit of work. -/
structure SameAnswer {α : Type} (answer answer' : Answer α) : Prop where
  reply : answer.1 = answer'.1
  store : answer.2.1.Same answer'.2.1
  unit : answer.2.2.Same answer'.2.2

variable {s s' : Store} {u v : UnitOfWork}

theorem Same.ownsAccount (hu : u.Same v) (n : AccountNumber) :
    u.OwnsAccount n ↔ v.OwnsAccount n :=
  or_congr hu.newAccounts.mem_iff hu.locks.mem_iff

theorem Same.ownsJournal (hu : u.Same v) (x : TransferId) : u.OwnsJournal x ↔ v.OwnsJournal x :=
  or_congr hu.newJournals.mem_iff hu.locks.mem_iff

variable (hs : s.Same s') (hu : u.Same v)
include hs hu

/-! ### Reads -/

theorem Same.account? (n : AccountNumber) : u.account? s n = v.account? s' n := by
  rw [UnitOfWork.account?, UnitOfWork.account?, hu.accounts, Tables.account?, Tables.account?,
    hs.tables.accounts]

theorem Same.journal? (x : TransferId) : u.journal? s x = v.journal? s' x := by
  rw [UnitOfWork.journal?, UnitOfWork.journal?, hu.journals, Tables.journal?, Tables.journal?,
    hs.tables.journals]

theorem Same.limit? (n : AccountNumber) : u.limit? s n = v.limit? s' n := by
  rw [UnitOfWork.limit?, UnitOfWork.limit?, hu.limits, Tables.limit?, Tables.limit?,
    hs.tables.limits]

/-- A row that is taken here is taken there, and one that somebody holds is held there. -/
theorem Same.lock (key : RowKey) :
    Option.Rel (fun a b => a.1.Same b.1 ∧ a.2.Same b.2) (lock s u key) (lock s' v key) := by
  unfold UnitOfWork.lock
  by_cases hk : key ∈ u.locks
  · rw [if_pos hk, if_pos (hu.locks.mem_iff.1 hk)]
    exact .some ⟨hs, hu⟩
  · rw [if_neg hk, if_neg (mt hu.locks.mem_iff.2 hk)]
    by_cases hheld : key ∈ s.held
    · rw [if_pos hheld, if_pos (hs.held.mem_iff.1 hheld)]
      exact .none
    · rw [if_neg hheld, if_neg (mt hs.held.mem_iff.2 hheld)]
      exact .some ⟨{ hs with held := hs.held.cons _ }, { hu with locks := hu.locks.cons _ }⟩

theorem Same.lockAccount (n : AccountNumber) :
    Option.Rel (fun a b => a.1.Same b.1 ∧ a.2.Same b.2) (lockAccount s u n)
      (lockAccount s' v n) := by
  unfold UnitOfWork.lockAccount
  by_cases hn : n ∈ u.newAccounts
  · rw [if_pos hn, if_pos (hu.newAccounts.mem_iff.1 hn)]
    exact .some ⟨hs, hu⟩
  · rw [if_neg hn, if_neg (mt hu.newAccounts.mem_iff.2 hn)]
    exact hu.lock hs _

theorem Same.lockJournal (x : TransferId) :
    Option.Rel (fun a b => a.1.Same b.1 ∧ a.2.Same b.2) (lockJournal s u x)
      (lockJournal s' v x) := by
  unfold UnitOfWork.lockJournal
  rw [hu.journals.has]
  split
  · exact .some ⟨hs, hu⟩
  · exact hu.lock hs _

/-! ### Writes -/

/-- A failure that is armed here is armed there. -/
theorem SameAnswer.guarded {α : Type} {answer answer' : Answer α} (point : FailPoint)
    (h : SameAnswer answer answer') :
    SameAnswer (guarded point s u answer) (guarded point s' v answer') := by
  unfold UnitOfWork.guarded
  by_cases hp : point ∈ s.armed
  · rw [if_pos hp, if_pos (hs.armed.mem_iff.1 hp)]
    exact ⟨rfl, hs.disarm point, hu⟩
  · rw [if_neg hp, if_neg (mt hs.armed.mem_iff.2 hp)]
    exact h

theorem Same.insertAccount (n : AccountNumber) (entity : EntityId) (now : Timestamp) :
    SameAnswer (u.insertAccount s n entity now) (v.insertAccount s' n entity now) := by
  refine .guarded hs hu _ ?_
  rw [hu.accounts.has, hs.tables.accounts.has, hs.tables.entityAccounts.has, hu.accounts.any,
    hs.sequences]
  split
  · exact ⟨rfl, hs, hu⟩
  · split
    · exact ⟨rfl, hs, hu⟩
    · exact ⟨rfl, { hs with sequences := rfl }, { hu with
        accounts := hu.accounts.put _ _
        newAccounts := hu.newAccounts.append_right _ }⟩

theorem Same.insertLimit (limit : BalanceLimit) :
    SameAnswer (u.insertLimit s limit) (v.insertLimit s' limit) := by
  refine .guarded hs hu _ ?_
  rw [hu.limits.has, hs.tables.limits.has]
  split
  · exact ⟨rfl, hs, hu⟩
  · exact ⟨rfl, hs, { hu with
      limits := hu.limits.put _ _
      newLimits := hu.newLimits.append_right _ }⟩

theorem Same.updateLimit (limit : BalanceLimit) :
    SameAnswer (u.updateLimit s limit) (v.updateLimit s' limit) := by
  unfold UnitOfWork.updateLimit
  simp only [hu.ownsAccount]
  split
  · exact ⟨rfl, hs, { hu with limits := hu.limits.put _ _ }⟩
  · exact ⟨rfl, hs, hu⟩

theorem Same.insertJournal (draft : JournalDraft) :
    SameAnswer (u.insertJournal s draft) (v.insertJournal s' draft) := by
  refine .guarded hs hu _ ?_
  rw [hu.journals.has, hs.tables.journals.has, hs.sequences]
  split
  · exact ⟨rfl, hs, hu⟩
  · exact ⟨rfl, { hs with sequences := rfl }, { hu with
      journals := hu.journals.put _ _
      newJournals := hu.newJournals.append_right _ }⟩

theorem Same.updateJournal (j : Journal) :
    SameAnswer (u.updateJournal s j) (v.updateJournal s' j) := by
  refine .guarded hs hu _ ?_
  simp only [hu.ownsJournal]
  split
  · exact ⟨rfl, hs, { hu with journals := hu.journals.put _ _ }⟩
  · exact ⟨rfl, hs, hu⟩

theorem Same.insertPosting (n : AccountNumber) (id : JournalId) (amount : Decimal)
    (now : Timestamp) :
    SameAnswer (u.insertPosting s n id amount now) (v.insertPosting s' n id amount now) := by
  refine .guarded hs hu _ ?_
  rw [hs.sequences, hu.postings]
  exact ⟨rfl, { hs with sequences := rfl }, { hu with postings := rfl }⟩

theorem Same.setBalance (n : AccountNumber) (balance : Decimal) :
    SameAnswer (u.setBalance s n balance) (v.setBalance s' n balance) := by
  refine .guarded hs hu _ ?_
  simp only [hu.ownsAccount, hu.account? hs]
  split
  · split
    · exact ⟨rfl, hs, hu⟩
    · exact ⟨rfl, hs, { hu with accounts := hu.accounts.put _ _ }⟩
  · exact ⟨rfl, hs, hu⟩

theorem Same.commit (hv : v.Sparing) : SameAnswer (u.commit s) (v.commit s') := by
  unfold UnitOfWork.commit
  rw [hu.conflict? hv hs.tables]
  by_cases hp : FailPoint.commit ∈ s.armed
  · rw [if_pos hp, if_pos (hs.armed.mem_iff.1 hp)]
    exact ⟨rfl, (hs.disarm _).release hu.locks, .refl _⟩
  · rw [if_neg hp, if_neg (mt hs.armed.mem_iff.2 hp)]
    split
    · exact ⟨rfl, hs.release hu.locks, .refl _⟩
    · refine ⟨rfl, Store.Same.release ?_ hu.locks, .refl _⟩
      exact { hs with tables := hu.applyTo hv hs.tables }

end UnitOfWork

namespace Call

/-- The same reply, ledger and unit of work. -/
structure SameOutcome {α : Type} (outcome outcome' : Outcome α) : Prop where
  reply : outcome.1 = outcome'.1
  ledger : outcome.2.1.Same outcome'.2.1
  unit : outcome.2.2.Same outcome'.2.2

variable {l m : Ledger} {u v : UnitOfWork}

theorem ofAnswer_same {α : Type} {answer answer' : UnitOfWork.Answer α} (hl : l.Same m)
    (h : UnitOfWork.SameAnswer answer answer') :
    Option.Rel SameOutcome (ofAnswer l answer) (ofAnswer m answer') :=
  .some ⟨h.reply, ⟨h.store, hl.events⟩, h.unit⟩

theorem ofLock_same {α : Type} {locked locked' : Option (Store × UnitOfWork)}
    {read : Store → UnitOfWork → α} (hl : l.Same m)
    (h : Option.Rel (fun a b => a.1.Same b.1 ∧ a.2.Same b.2) locked locked')
    (hread : ∀ {s s' : Store} {u v : UnitOfWork}, s.Same s' → u.Same v → read s u = read s' v) :
    Option.Rel SameOutcome (ofLock l locked read) (ofLock m locked' read) := by
  cases h with
  | none => exact .none
  | some h => exact .some ⟨congrArg Except.ok (hread h.1 h.2), ⟨h.1, hl.events⟩, h.2⟩

/-- A call does the same to the same ledger, or it waits there as well. -/
theorem perform_same (hl : l.Same m) (hu : u.Same v) (c : Call) (hc : c.commits → v.Sparing) :
    Option.Rel SameOutcome (c.perform l u) (c.perform m v) := by
  have hs := hl.store
  cases c with
  | findAccount n => exact .some ⟨congrArg Except.ok (hs.tables.accounts n), hl, hu⟩
  | findLimit n => exact .some ⟨congrArg Except.ok (hs.tables.limits n), hl, hu⟩
  | lockAccount n => exact ofLock_same hl (hu.lockAccount hs n) fun hs hu => hu.account? hs n
  | lockJournal x => exact ofLock_same hl (hu.lockJournal hs x) fun hs hu => hu.journal? hs x
  | readLimit n => exact .some ⟨congrArg Except.ok (hu.limit? hs n), hl, hu⟩
  | insertAccount n entity now => exact ofAnswer_same hl (hu.insertAccount hs n entity now)
  | insertLimit limit => exact ofAnswer_same hl (hu.insertLimit hs limit)
  | updateLimit limit => exact ofAnswer_same hl (hu.updateLimit hs limit)
  | insertJournal draft => exact ofAnswer_same hl (hu.insertJournal hs draft)
  | updateJournal j => exact ofAnswer_same hl (hu.updateJournal hs j)
  | insertPosting n id amount now => exact ofAnswer_same hl (hu.insertPosting hs n id amount now)
  | setBalance n balance => exact ofAnswer_same hl (hu.setBalance hs n balance)
  | commit => exact ofAnswer_same hl (hu.commit hs (hc rfl))
  | rollback => exact ofAnswer_same hl ⟨rfl, hs.release hu.locks, .refl _⟩
  | publish event => exact .some ⟨rfl, ⟨hs, congrArg (· ++ _) hl.events⟩, hu⟩

end Call
end CreditCircle

/-
  Tables with an index of a further key, and rows that are staged for them.

  * `Register`: a table and an index of it; `Exact` says that the index leads from the key of each
    row to its place, and nowhere else.
  * `Draft`: the rows that a unit of work has staged for one table, and which of them are new.
  * `Register.apply`: the table and its index after a commit; `Exact.apply` says when the index
    stays exact.
  * `UnitOfWork.accountsById_applyTo`, …: what a commit does to each table with an index.
-/
import CreditCircle.Proofs.RowOrder

namespace CreditCircle

/-! ## Rows under their keys -/

namespace Table

variable {κ α : Type} [DecidableEq κ]

/-- Every row stands under its own key. -/
def Keyed (rows : Table κ α) (key : α → κ) : Prop := ∀ k v, rows.get? k = some v → key v = k

theorem Keyed.empty (key : α → κ) : (Table.empty : Table κ α).Keyed key := fun _ _ h => nomatch h

theorem Keyed.put {rows : Table κ α} {key : α → κ} (h : rows.Keyed key) {k : κ} {v : α}
    (hv : key v = k) : (rows.put k v).Keyed key := by
  intro x w hw
  rw [get?_put] at hw
  split at hw
  · cases hw
    rw [hv, ‹x = k›]
  · exact h x w hw

/-- The table with all rows of a list. -/
def putAll (rows : Table κ α) (es : List (κ × α)) : Table κ α :=
  es.foldl (fun t e => t.put e.1 e.2) rows

/-- The rows of another table come before those that are there. -/
theorem get?_putAll (rows staged : Table κ α) (k : κ) :
    (rows.putAll staged.entries).get? k = (staged.get? k).or (rows.get? k) := by
  obtain ⟨es, hes⟩ := staged
  show (rows.putAll es).get? k = (findRow k es).or _
  induction es generalizing rows with
  | nil => rfl
  | cons e es ih =>
    rw [List.map_cons, List.nodup_cons] at hes
    refine (ih (rows.put e.1 e.2) hes.2).trans ?_
    rw [findRow, get?_put]
    by_cases hk : e.1 = k
    · have hn : findRow k es = none := findRow_eq_none (hk ▸ hes.1)
      simp [hk, hn]
    · simp [hk, Ne.symm hk]

end Table

/-! ## Tables with an index -/

/-- A table and an index of it, which leads from a further key of a row to its place. -/
structure Register (κ α ν : Type) where
  rows : Table κ α
  index : Table ν κ

namespace Register

variable {κ α ν : Type} [DecidableEq κ] [DecidableEq ν]

/-- The index leads from the key of each row to its place, and nowhere else. -/
def Exact (r : Register κ α ν) (key : α → ν) : Prop :=
  ∀ id k, r.index.get? id = some k ↔ ∃ v, r.rows.get? k = some v ∧ key v = id

namespace Exact

variable {r : Register κ α ν} {key : α → ν}

theorem empty (key : α → ν) : (⟨.empty, .empty⟩ : Register κ α ν).Exact key :=
  fun _ _ => ⟨nofun, fun ⟨_, h, _⟩ => nomatch h⟩

variable (h : r.Exact key) {k : κ} {v : α}
include h

/-- The place of a row is found through the index. -/
theorem get?_eq (hv : r.rows.get? k = some v) : r.index.get? (key v) = some k :=
  (h _ _).2 ⟨v, hv, rfl⟩

/-- No two rows have the same key. -/
theorem inj {k' : κ} {v' : α} (hv : r.rows.get? k = some v) (hv' : r.rows.get? k' = some v')
    (he : key v = key v') : k = k' := by
  have := h.get?_eq hv
  rw [he, h.get?_eq hv'] at this
  exact (Option.some.inj this).symm

/-- A new row with a new key. -/
theorem insert (hk : r.rows.get? k = none) (hid : r.index.get? (key v) = none) :
    (⟨r.rows.put k v, r.index.put (key v) k⟩ : Register κ α ν).Exact key := by
  intro id x
  show (r.index.put (key v) k).get? id = some x ↔ ∃ w, (r.rows.put k v).get? x = some w ∧ _
  rw [Table.get?_put, Table.get?_put]
  by_cases hx : x = k
  · subst hx
    by_cases he : id = key v
    · simp [he]
    · have : r.index.get? id ≠ some x := fun hi => by
        obtain ⟨w, hw, -⟩ := (h id x).1 hi
        rw [hk] at hw
        cases hw
      simp [he, this, Ne.symm he]
  · rw [if_neg hx, ← h id x]
    by_cases he : id = key v
    · rw [if_pos he, he, hid]
      simp [Ne.symm hx]
    · rw [if_neg he]

/-- Another row with the same key in the same place. -/
theorem replace {w : α} (hw : r.rows.get? k = some w) (he : key w = key v) :
    (⟨r.rows.put k v, r.index⟩ : Register κ α ν).Exact key := by
  intro id x
  show r.index.get? id = some x ↔ ∃ w, (r.rows.put k v).get? x = some w ∧ _
  rw [Table.get?_put, h id x]
  by_cases hx : x = k
  · subst hx
    simp [hw, he]
  · rw [if_neg hx]

end Exact
end Register

/-! ## Staged rows of one table -/

/-- The rows that a unit of work has staged for a table, and which of them are new. -/
structure Draft (κ α : Type) where
  rows : Table κ α
  news : List κ

section
variable {κ α ν : Type} [DecidableEq κ] [DecidableEq ν] {d : Draft κ α} {key : α → ν}
  {r : Register κ α ν}

/-- The draft adds a row that is not committed yet. -/
structure Draft.Adds (d : Draft κ α) (rows : Table κ α) (k : κ) (v : α) : Prop where
  staged : d.rows.get? k = some v
  new : k ∈ d.news
  uncommitted : rows.get? k = none

/-- Staged rows that are not new replace rows with the same key, and no two rows that are added have
    the same key. -/
structure Draft.Fits (d : Draft κ α) (rows : Table κ α) (key : α → ν) : Prop where
  replaces : ∀ k v, d.rows.get? k = some v → k ∉ d.news →
    ∃ w, rows.get? k = some w ∧ key w = key v
  distinct : ∀ k k' v v', d.Adds rows k v → d.Adds rows k' v' → key v = key v' → k = k'

namespace Register

/-- The table and its index with one staged row. -/
def fill (d : Draft κ α) (key : α → ν) (r : Register κ α ν) (e : κ × α) : Register κ α ν :=
  ⟨r.rows.put e.1 e.2, if e.1 ∈ d.news then r.index.put (key e.2) e.1 else r.index⟩

/-- The table and its index with everything that is staged. -/
def apply (r : Register κ α ν) (d : Draft κ α) (key : α → ν) : Register κ α ν :=
  d.rows.entries.foldl (fill d key) r

theorem rows_apply (r : Register κ α ν) (d : Draft κ α) (key : α → ν) :
    (r.apply d key).rows = r.rows.putAll d.rows.entries :=
  (List.foldl_hom rows fun _ _ => rfl).symm

/-- A row after a commit is the staged one or else the one that was there. -/
theorem get?_apply (r : Register κ α ν) (d : Draft κ α) (key : α → ν) (k : κ) :
    (r.apply d key).rows.get? k = (d.rows.get? k).or (r.rows.get? k) := by
  rw [rows_apply, Table.get?_putAll]

/-- One staged row after the other keeps the index exact. -/
theorem Exact.foldl_fill {es : List (κ × α)} (hes : (es.map Prod.fst).Nodup)
    (hdistinct : ∀ e ∈ es, ∀ e' ∈ es, e.1 ∈ d.news → e'.1 ∈ d.news → key e.2 = key e'.2 →
      e.1 = e'.1) :
    ∀ {r : Register κ α ν}, r.Exact key →
      (∀ e ∈ es, e.1 ∈ d.news → r.rows.get? e.1 = none ∧ r.index.get? (key e.2) = none) →
      (∀ e ∈ es, e.1 ∉ d.news → ∃ w, r.rows.get? e.1 = some w ∧ key w = key e.2) →
      (es.foldl (fill d key) r).Exact key := by
  induction es with
  | nil => exact fun h _ _ => h
  | cons e es ih =>
    intro r h hnew hold
    rw [List.map_cons, List.nodup_cons] at hes
    have hne : ∀ e' ∈ es, e'.1 ≠ e.1 := fun e' he' heq =>
      hes.1 (heq ▸ List.mem_map.2 ⟨e', he', rfl⟩)
    -- Neither the places nor the keys of the other rows are touched.
    have hold' : ∀ e' ∈ es, e'.1 ∉ d.news →
        ∃ w, (fill d key r e).rows.get? e'.1 = some w ∧ key w = key e'.2 := by
      intro e' he' hn
      obtain ⟨w, hw, hkey⟩ := hold e' (.tail _ he') hn
      exact ⟨w, (Table.get?_put_of_ne _ _ (hne e' he')).trans hw, hkey⟩
    have hnew' : ∀ e' ∈ es, e'.1 ∈ d.news → (fill d key r e).rows.get? e'.1 = none ∧
        (fill d key r e).index.get? (key e'.2) = none := by
      intro e' he' hn
      obtain ⟨hk, hid⟩ := hnew e' (.tail _ he') hn
      refine ⟨(Table.get?_put_of_ne _ _ (hne e' he')).trans hk, ?_⟩
      unfold fill
      dsimp only
      split
      · rename_i he
        exact (Table.get?_put_of_ne _ _ fun heq =>
          hne e' he' (hdistinct e' (.tail _ he') e (.head _) hn he heq)).trans hid
      · exact hid
    refine ih hes.2 (fun x hx y hy => hdistinct x (.tail _ hx) y (.tail _ hy)) ?_ hnew' hold'
    unfold fill
    by_cases he : e.1 ∈ d.news
    · obtain ⟨hk, hid⟩ := hnew e (.head _) he
      rw [if_pos he]
      exact h.insert hk hid
    · obtain ⟨w, hw, hkey⟩ := hold e (.head _) he
      rw [if_neg he]
      exact h.replace hw hkey

/-- A commit keeps the index exact if new rows go to new places and bring new keys. -/
theorem Exact.apply (h : r.Exact key) (hfits : d.Fits r.rows key)
    (huncommitted : ∀ k ∈ d.news, r.rows.get? k = none)
    (hunused : ∀ k v, d.Adds r.rows k v → r.index.get? (key v) = none) :
    (r.apply d key).Exact key := by
  have hstaged : ∀ e ∈ d.rows.entries, d.rows.get? e.1 = some e.2 :=
    fun e he => (Table.mem_entries_iff _ _ _).1 he
  have hadds : ∀ e ∈ d.rows.entries, e.1 ∈ d.news → d.Adds r.rows e.1 e.2 :=
    fun e he hn => ⟨hstaged e he, hn, huncommitted _ hn⟩
  exact foldl_fill d.rows.nodup
    (fun e he e' he' hn hn' => hfits.distinct _ _ _ _ (hadds e he hn) (hadds e' he' hn')) h
    (fun e he hn => ⟨huncommitted _ hn, hunused _ _ (hadds e he hn)⟩)
    fun e he hn => hfits.replaces _ _ (hstaged e he) hn

end Register
end

/-! ## Commits -/

namespace Tables

/-- The accounts and their keys. -/
def accountsById (t : Tables) : Register AccountNumber Account AccountId :=
  ⟨t.accounts, t.accountIds⟩

/-- The accounts and their owners. -/
def accountsByEntity (t : Tables) : Register AccountNumber Account EntityId :=
  ⟨t.accounts, t.entityAccounts⟩

/-- The journals and their keys. -/
def journalsById (t : Tables) : Register TransferId Journal JournalId :=
  ⟨t.journals, t.journalIds⟩

/-- What no change touches is the same after many. -/
theorem foldl_eq_self {β γ : Type} {f : Tables → γ} {g : Tables → β → Tables}
    (h : ∀ t e, f (g t e) = f t) : ∀ (es : List β) (t : Tables), f (es.foldl g t) = f t
  | [], _ => rfl
  | e :: es, t => (foldl_eq_self h es (g t e)).trans (h t e)

end Tables

namespace UnitOfWork

variable (u : UnitOfWork) (t : Tables)

/-- The account rows that are staged. -/
def accountDraft : Draft AccountNumber Account := ⟨u.accounts, u.newAccounts⟩

/-- The journal rows that are staged. -/
def journalDraft : Draft TransferId Journal := ⟨u.journals, u.newJournals⟩

theorem accountsById_applyAccount (t : Tables) (e : AccountNumber × Account) :
    (u.applyAccount t e.1 e.2).accountsById =
      Register.fill u.accountDraft Account.id t.accountsById e := by
  unfold applyAccount Register.fill accountDraft
  dsimp only
  split
  · rfl
  · rfl

theorem accountsByEntity_applyAccount (t : Tables) (e : AccountNumber × Account) :
    (u.applyAccount t e.1 e.2).accountsByEntity =
      Register.fill u.accountDraft Account.entity t.accountsByEntity e := by
  unfold applyAccount Register.fill accountDraft
  dsimp only
  split
  · rfl
  · rfl

theorem journalsById_applyJournal (t : Tables) (e : TransferId × Journal) :
    (u.applyJournal t e.1 e.2).journalsById =
      Register.fill u.journalDraft Journal.id t.journalsById e := by
  unfold applyJournal Register.fill journalDraft
  dsimp only
  split
  · rfl
  · rfl

theorem exists_applyAccount (t : Tables) (number : AccountNumber) (a : Account) :
    ∃ accounts accountIds entityAccounts,
      u.applyAccount t number a = { t with accounts, accountIds, entityAccounts } := by
  unfold applyAccount
  split
  · exact ⟨_, _, _, rfl⟩
  · exact ⟨_, _, _, rfl⟩

theorem exists_applyJournal (t : Tables) (transfer : TransferId) (j : Journal) :
    ∃ journals journalIds, u.applyJournal t transfer j = { t with journals, journalIds } := by
  unfold applyJournal
  split
  · exact ⟨_, _, rfl⟩
  · exact ⟨_, _, rfl⟩

/-- What only account rows change. -/
theorem applyTo_of_accounts {γ : Type} {f : Tables → γ}
    (hlimit : ∀ t limits, f { t with limits } = f t)
    (hjournal : ∀ t journals journalIds, f { t with journals, journalIds } = f t)
    (hposting : ∀ t p, f (applyPosting t p) = f t) :
    f (u.applyTo t) = f (u.accounts.entries.foldl (fun t e => u.applyAccount t e.1 e.2) t) := by
  have hjournal' : ∀ t (e : TransferId × Journal), f (u.applyJournal t e.1 e.2) = f t := by
    intro t e
    obtain ⟨_, _, h⟩ := u.exists_applyJournal t e.1 e.2
    rw [h, hjournal]
  unfold applyTo
  dsimp only
  rw [Tables.foldl_eq_self hposting, Tables.foldl_eq_self hjournal',
    Tables.foldl_eq_self fun _ _ => hlimit _ _]

/-- What account rows do not change. -/
theorem foldl_applyAccount {γ : Type} {f : Tables → γ}
    (h : ∀ t accounts accountIds entityAccounts,
      f { t with accounts, accountIds, entityAccounts } = f t) :
    f (u.accounts.entries.foldl (fun t e => u.applyAccount t e.1 e.2) t) = f t := by
  refine Tables.foldl_eq_self (fun t e => ?_) _ t
  obtain ⟨_, _, _, he⟩ := u.exists_applyAccount t e.1 e.2
  rw [he, h]

theorem accountsById_applyTo :
    (u.applyTo t).accountsById = t.accountsById.apply u.accountDraft Account.id := by
  rw [u.applyTo_of_accounts t (f := Tables.accountsById) (fun _ _ => rfl) (fun _ _ _ => rfl)
    fun _ _ => rfl]
  exact (List.foldl_hom _ fun t e => (u.accountsById_applyAccount t e).symm).symm

theorem accountsByEntity_applyTo :
    (u.applyTo t).accountsByEntity = t.accountsByEntity.apply u.accountDraft Account.entity := by
  rw [u.applyTo_of_accounts t (f := Tables.accountsByEntity) (fun _ _ => rfl) (fun _ _ _ => rfl)
    fun _ _ => rfl]
  exact (List.foldl_hom _ fun t e => (u.accountsByEntity_applyAccount t e).symm).symm

theorem journalsById_applyTo :
    (u.applyTo t).journalsById = t.journalsById.apply u.journalDraft Journal.id := by
  have hlimits : ∀ es : List (AccountNumber × BalanceLimit), ∀ t : Tables,
      (es.foldl (fun t e => { t with limits := t.limits.put e.1 e.2 }) t).journalsById =
        t.journalsById := Tables.foldl_eq_self fun _ _ => rfl
  unfold applyTo
  dsimp only
  rw [Tables.foldl_eq_self (f := Tables.journalsById) (g := applyPosting) fun _ _ => rfl]
  refine (List.foldl_hom Tables.journalsById
    fun t e => (u.journalsById_applyJournal t e).symm).symm.trans ?_
  rw [hlimits, u.foldl_applyAccount t (f := Tables.journalsById) fun _ _ _ _ => rfl]
  rfl

theorem limits_applyTo : (u.applyTo t).limits = t.limits.putAll u.limits.entries := by
  have hjournals : ∀ t (e : TransferId × Journal),
      (u.applyJournal t e.1 e.2).limits = t.limits := by
    intro t e
    obtain ⟨_, _, he⟩ := u.exists_applyJournal t e.1 e.2
    rw [he]
  have hlimits : ∀ es : List (AccountNumber × BalanceLimit), ∀ t : Tables,
      (es.foldl (fun t e => { t with limits := t.limits.put e.1 e.2 }) t).limits =
        t.limits.putAll es := fun _ _ => (List.foldl_hom Tables.limits fun _ _ => rfl).symm
  unfold applyTo
  dsimp only
  rw [Tables.foldl_eq_self (f := Tables.limits) (g := applyPosting) fun _ _ => rfl,
    Tables.foldl_eq_self hjournals, hlimits,
    u.foldl_applyAccount t (f := Tables.limits) fun _ _ _ _ => rfl]

/-! ### Rows after a commit -/

theorem account?_applyTo (number : AccountNumber) :
    (u.applyTo t).account? number = (u.accounts.get? number).or (t.account? number) := by
  have h := congrArg (fun r => r.rows.get? number) (u.accountsById_applyTo t)
  rwa [Register.get?_apply] at h

theorem journal?_applyTo (transfer : TransferId) :
    (u.applyTo t).journal? transfer = (u.journals.get? transfer).or (t.journal? transfer) := by
  have h := congrArg (fun r => r.rows.get? transfer) (u.journalsById_applyTo t)
  rwa [Register.get?_apply] at h

theorem limit?_applyTo (number : AccountNumber) :
    (u.applyTo t).limit? number = (u.limits.get? number).or (t.limit? number) := by
  rw [Tables.limit?, limits_applyTo, Table.get?_putAll]
  rfl

/-! ### Conflicts -/

/-- What is known of new rows when a commit finds no conflict. -/
theorem new_of_conflict?_eq_none {u : UnitOfWork} {t : Tables} (h : u.conflict? t = none) :
    (∀ n ∈ u.newAccounts, t.account? n = none ∧
        ∀ a, u.accounts.get? n = some a → t.entityAccounts.get? a.entity = none) ∧
      (∀ n ∈ u.newLimits, t.limit? n = none) ∧ ∀ x ∈ u.newJournals, t.journal? x = none := by
  obtain ⟨haccounts, hrest⟩ := Option.or_eq_none_iff.1 h
  obtain ⟨hlimits, hjournals⟩ := Option.or_eq_none_iff.1 hrest
  rw [List.findSome?_eq_none_iff] at haccounts hlimits hjournals
  have hfree : ∀ {p : Prop} [Decidable p] (key : UniqueKey),
      (if p then some key else none) = none → ¬ p := by
    intro p _ key h hp
    rw [if_pos hp] at h
    cases h
  refine ⟨fun n hn => ?_, fun n hn => Table.get?_eq_none (hfree _ (hlimits n hn)),
    fun x hx => Table.get?_eq_none (hfree _ (hjournals x hx))⟩
  have hn := haccounts n hn
  split at hn
  · cases hn
  · refine ⟨Table.get?_eq_none ‹_›, fun a ha => Table.get?_eq_none (hfree (.entity a.entity) ?_)⟩
    rwa [ha] at hn

end UnitOfWork
end CreditCircle

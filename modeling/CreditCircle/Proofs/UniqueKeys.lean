/-
  Keys of accounts and journals, whatever units of work do at the same time.

  * `Call.Effect.account_change`: what a call does to the accounts and an index of them.
  * `Crowd.Indexed`: rows stand in their places, the indexes of the accounts are exact, and all that
    is staged for accounts fits; `Indexed.call`.
  * `Crowd.FromRows`, `Crowd.FromLastingRows`: journals are written back only from rows that have
    been given out, and only where such rows last.
  * `Crowd.Traced`: every journal comes from a row that has been given out, and the index of the
    journals is exact; `Traced.step`.
  * `Tables.UniquelyKeyed`: no key is there twice, and every look-up finds the same row;
    `Crowd.Run.uniquely_keyed`, and `Crowd.Run.may_lose_key` where such rows do not last.
-/
import CreditCircle.Proofs.Crowd
import CreditCircle.Proofs.DraftChanges

namespace CreditCircle

/-! ## Rows under their keys -/

/-- Every committed row stands under its own number or transfer. -/
structure Tables.InPlace (t : Tables) : Prop where
  accounts : t.accounts.Keyed Account.number
  journals : t.journals.Keyed Journal.transfer

/-- Every staged row stands under its own number or transfer. -/
structure UnitOfWork.InPlace (u : UnitOfWork) : Prop where
  accounts : u.accounts.Keyed Account.number
  journals : u.journals.Keyed Journal.transfer

theorem Tables.InPlace.empty : Tables.empty.InPlace := ⟨.empty _, .empty _⟩

theorem UnitOfWork.InPlace.empty : UnitOfWork.empty.InPlace := ⟨.empty _, .empty _⟩

namespace UnitOfWork

variable {u u' : UnitOfWork} {t : Tables}

theorem SameRows.accountDraft (h : u'.SameRows u) : u'.accountDraft = u.accountDraft := by
  rw [h]
  rfl

theorem SameRows.inPlace (h : u'.SameRows u) (hu : u.InPlace) : u'.InPlace := by
  rw [h]
  exact ⟨hu.accounts, hu.journals⟩

namespace InPlace

variable (hu : u.InPlace) (ht : t.InPlace)
include hu ht

theorem account {number : AccountNumber} {a : Account}
    (h : (u.accounts.get? number).or (t.account? number) = some a) : a.number = number := by
  rcases Option.or_eq_some_iff.1 h with h | ⟨-, h⟩
  · exact hu.accounts _ _ h
  · exact ht.accounts _ _ h

theorem journal {transfer : TransferId} {j : Journal}
    (h : (u.journals.get? transfer).or (t.journal? transfer) = some j) : j.transfer = transfer := by
  rcases Option.or_eq_some_iff.1 h with h | ⟨-, h⟩
  · exact hu.journals _ _ h
  · exact ht.journals _ _ h

theorem applyTo : (u.applyTo t).InPlace :=
  ⟨fun n _ h => hu.account ht ((u.account?_applyTo t n).symm.trans h),
    fun x _ h => hu.journal ht ((u.journal?_applyTo t x).symm.trans h)⟩

end InPlace
end UnitOfWork

/-! ## What a call does to the accounts -/

namespace Call
namespace Effect

variable {l l' : Ledger} {u u' : UnitOfWork} {c : Call} {r : Except LedgerError c.Reply}
  (h : c.Effect l u r l' u')
include h

theorem sequences_le : l.store.sequences ≤ l'.store.sequences := by
  cases h with
  | look _ uses _ | refuse _ uses _ | insertPosting uses | drop _ _ uses => exact uses.sequences
  | commit _ _ sequences => exact sequences
  | insertAccount _ _ _ => exact ⟨Nat.le_succ _, Nat.le_refl _, Nat.le_refl _⟩
  | insertJournal _ _ => exact ⟨Nat.le_refl _, Nat.le_succ _, Nat.le_refl _⟩
  | _ => exact Sequences.le_refl _

/-- Rows stay under their keys. -/
theorem inPlace (ht : l.tables.InPlace) (hu : u.InPlace) : l'.tables.InPlace ∧ u'.InPlace := by
  cases h with
  | look _ uses rows | refuse _ uses rows => exact ⟨uses.tables ▸ ht, rows.inPlace hu⟩
  | insertAccount _ _ _ => exact ⟨ht, hu.accounts.put rfl, hu.journals⟩
  | insertLimit _ | updateLimit _ => exact ⟨ht, hu.accounts, hu.journals⟩
  | insertJournal _ _ | updateJournal _ => exact ⟨ht, hu.accounts, hu.journals.put rfl⟩
  | insertPosting uses => exact ⟨uses.tables ▸ ht, hu.accounts, hu.journals⟩
  | @setBalance number balance a _ seen =>
    have hnumber : a.number = number := hu.account ht seen
    exact ⟨ht, hu.accounts.put hnumber, hu.journals⟩
  | commit _ tables _ => exact ⟨tables ▸ hu.applyTo ht, .empty⟩
  | drop _ _ uses => exact ⟨uses.tables ▸ ht, .empty⟩

end Effect

/-- An account row that is inserted gets the next key, and nobody has staged one for its member. -/
structure FreshAccount (l l' : Ledger) (u : UnitOfWork) (a : Account) : Prop where
  drawn : l.store.sequences.account < a.id.value ∧ a.id.value ≤ l'.store.sequences.account
  newcomer : ∀ n b, u.accounts.get? n = some b → b.entity ≠ a.entity

namespace Effect

variable {l l' : Ledger} {u u' : UnitOfWork} {c : Call} {r : Except LedgerError c.Reply}

/-- What a call does to the accounts and an index of them. -/
theorem account_change {ν : Type} [DecidableEq ν] {key : Account → ν}
    {register : Tables → Register AccountNumber Account ν} (h : c.Effect l u r l' u')
    (hrows : ∀ t, (register t).rows = t.accounts)
    (happly : register (u.applyTo l.tables) = (register l.tables).apply u.accountDraft key)
    (hkey : ∀ a balance, key { a with balance } = key a)
    (hf : u.accountDraft.Fits l.tables.accounts key) :
    Register.Change key (fun _ => FreshAccount l l' u) (u.conflict? l.tables = none)
      (register l.tables) u.accountDraft (register l'.tables) u'.accountDraft := by
  cases h with
  | look _ uses rows | refuse _ uses rows =>
    rw [uses.tables, rows.accountDraft]
    exact .keep
  | insertAccount unstaged uncommitted newcomer =>
    refine .insert unstaged ?_ ⟨⟨Nat.lt_succ_self _, Nat.le_refl _⟩, newcomer⟩
    rw [hrows]
    exact uncommitted
  | setBalance _ seen =>
    refine .replace ?_
    rw [hrows, hkey]
    exact hf.knows seen
  | insertPosting uses =>
    rw [uses.tables]
    exact .keep
  | commit sound tables _ =>
    rw [tables, happly]
    refine .commit sound fun n hn => ?_
    rw [hrows]
    exact ((UnitOfWork.new_of_conflict?_eq_none sound).1 n hn).1
  | drop _ _ uses =>
    rw [uses.tables]
    exact .clear
  | _ => exact .keep

end Effect
end Call

/-! ## Everybody's rows -/

namespace Crowd

variable {ι : Type}

/-- What the units of work have staged for accounts. -/
def accountDrafts (c : Crowd ι) : ι → Draft AccountNumber Account :=
  UnitOfWork.accountDraft ∘ c.units

/-- Every row stands under its number or transfer, both indexes of the accounts are exact, all that
    is staged for accounts fits, and every key of an account has been drawn once. -/
structure Indexed (c : Crowd ι) : Prop where
  tables : c.tables.InPlace
  units : ∀ i, (c.units i).InPlace
  ids : c.tables.accountsById.Sound c.accountDrafts Account.id
  entities : c.tables.accountsByEntity.Sound c.accountDrafts Account.entity
  numbers : Numbered c.accountDrafts c.tables.accounts Account.id AccountId.value
    c.ledger.store.sequences.account

theorem Indexed.new : (new : Crowd ι).Indexed where
  tables := .empty
  units _ := .empty
  ids := ⟨.empty _, fun _ => .empty⟩
  entities := ⟨.empty _, fun _ => .empty⟩
  numbers := .empty

theorem Indexed.arm {c : Crowd ι} (h : c.Indexed) (point : FailPoint) :
    (⟨c.ledger.arm point, c.units⟩ : Crowd ι).Indexed := by
  obtain ⟨armed, harm⟩ := c.ledger.exists_arm point
  rw [harm]
  exact ⟨h.tables, h.units, h.ids, h.entities, h.numbers⟩

/-! ## Everybody's calls -/

variable [DecidableEq ι]

theorem accountDrafts_put (c : Crowd ι) (i : ι) (l : Ledger) (u : UnitOfWork) :
    (c.put i l u).accountDrafts = Function.update c.accountDrafts i u.accountDraft :=
  Function.comp_update ..

variable {c c' : Crowd ι} {turn : Turn ι} {i : ι}

/-- Every call keeps the accounts and their indexes in order. -/
theorem Indexed.call (h : c.Indexed) {call : Call} {r : Except LedgerError call.Reply} {l : Ledger}
    {u : UnitOfWork} (he : call.Effect c.ledger (c.units i) r l u) : (c.put i l u).Indexed := by
  obtain ⟨htables, hunit⟩ := he.inPlace h.tables (h.units i)
  have hids := he.account_change (fun _ => rfl) ((c.units i).accountsById_applyTo c.tables)
    (fun _ _ => rfl) (h.ids.fits i)
  have hentities := he.account_change (fun _ => rfl)
    ((c.units i).accountsByEntity_applyTo c.tables) (fun _ _ => rfl) (h.entities.fits i)
  constructor
  case tables => exact htables
  case units =>
    intro j
    by_cases hj : j = i
    · subst hj
      rwa [put_units_self]
    · rw [put_units_of_ne c hj]
      exact h.units j
  case ids =>
    rw [accountDrafts_put]
    exact h.ids.change hids (fun _ _ hv _ _ hw => h.numbers.key_ne (.added hw) hv.drawn.1)
      fun _ _ _ hv => h.numbers.unused h.ids.exact hv
  case entities =>
    -- Members have no counter; the draft and the commit itself look for them.
    rw [accountDrafts_put]
    exact h.entities.change hentities (fun _ _ hv _ _ hw => hv.newcomer _ _ hw.staged)
      fun hfree _ _ hv => ((UnitOfWork.new_of_conflict?_eq_none hfree).1 _ hv.new).2 _ hv.staged
  case numbers =>
    rw [accountDrafts_put]
    exact h.numbers.change (h.ids.fits i) hids he.sequences_le.1 fun _ _ hv => hv.drawn

theorem Step.sequences_le (hs : c.Step turn c') :
    c.ledger.store.sequences ≤ c'.ledger.store.sequences := by
  cases hs with
  | arm point =>
    obtain ⟨armed, harm⟩ := c.ledger.exists_arm point
    rw [harm]
    exact Sequences.le_refl _
  | call performed => exact (Call.effect performed).sequences_le

theorem Indexed.step (h : c.Indexed) (hs : c.Step turn c') : c'.Indexed := by
  cases hs with
  | arm point => exact h.arm point
  | call performed => exact h.call (Call.effect performed)

end Crowd

/-! ## Journals that are given out -/

namespace Call

/-- The journals that a call gives out. -/
def journals : (c : Call) → Except LedgerError c.Reply → List Journal
  | lockJournal _, .ok found => found.toList
  | insertJournal _, .ok j => [j]
  | _, _ => []

namespace Effect

variable {l l' : Ledger} {u u' : UnitOfWork} {c : Call} {r : Except LedgerError c.Reply}
  (h : c.Effect l u r l' u') {j : Journal}
include h

/-- What is given out is a row that is staged or committed, or a new one with the next key. -/
theorem journals_cases (hj : j ∈ c.journals r) :
    (∃ x, (u.journals.get? x).or (l.tables.journal? x) = some j) ∨
      c.journals r = [j] ∧ l.store.sequences.journal < j.id.value ∧
        j.id.value ≤ l'.store.sequences.journal := by
  cases h with
  | @look c v l' u' seen uses rows =>
    cases c with
    | lockJournal x =>
      obtain rfl : v = some j := Option.mem_toList.1 hj
      exact Or.inl ⟨x, Option.some.inj seen⟩
    | insertJournal _ => cases seen
    | _ => cases hj
  | insertJournal _ _ =>
    obtain rfl := List.mem_singleton.1 hj
    exact Or.inr ⟨rfl, Nat.lt_succ_self _, Nat.le_refl _⟩
  | @drop c r l' ends _ _ =>
    cases c with
    | lockJournal _ | insertJournal _ => cases ends
    | _ => cases hj
  | @refuse c e l' u' _ _ _ => cases c <;> cases hj
  | _ => cases hj

/-- What is staged after a call was staged before, is written back, or is given out. -/
theorem staged_journal {x : TransferId} (hj : u'.journals.get? x = some j) :
    u.journals.get? x = some j ∨ c = .updateJournal j ∨ j ∈ c.journals r := by
  cases h with
  | look _ _ rows | refuse _ _ rows =>
    rw [rows] at hj
    exact Or.inl hj
  | insertJournal _ _ =>
    rw [Table.get?_put] at hj
    split at hj
    · cases hj
      exact Or.inr (Or.inr (List.mem_singleton_self _))
    · exact Or.inl hj
  | updateJournal _ =>
    rw [Table.get?_put] at hj
    split at hj
    · cases hj
      exact Or.inr (Or.inl rfl)
    · exact Or.inl hj
  | commit _ _ _ | drop _ _ _ => cases hj
  | _ => exact Or.inl hj

end Effect
end Call

/-- The journals that a turn gives out. -/
def Turn.journals {ι : Type} : Turn ι → List Journal
  | arm _ => []
  | call _ c r => c.journals r

/-- A journal with this key and this transfer has been given out, to whomever. -/
def Obtained {ι : Type} (past : List (Turn ι)) (j : Journal) : Prop :=
  ∃ k ∈ past.flatMap Turn.journals, k.id = j.id ∧ k.transfer = j.transfer

instance {ι : Type} (past : List (Turn ι)) (j : Journal) : Decidable (Obtained past j) :=
  inferInstanceAs (Decidable (∃ k ∈ _, _))

section
variable {ι : Type} {past : List (Turn ι)} {turn : Turn ι} {j : Journal}

theorem not_obtained_nil : ¬ Obtained ([] : List (Turn ι)) j :=
  fun ⟨_, h, _⟩ => List.not_mem_nil h

theorem obtained_concat_iff : Obtained (past ++ [turn]) j ↔
    Obtained past j ∨ ∃ k ∈ turn.journals, k.id = j.id ∧ k.transfer = j.transfer := by
  simp only [Obtained, List.flatMap_append, List.flatMap_singleton, List.mem_append, or_and_right,
    exists_or]

theorem Obtained.mono (h : Obtained past j) : Obtained (past ++ [turn]) j :=
  obtained_concat_iff.2 (Or.inl h)

theorem obtained_of_mem (h : j ∈ turn.journals) : Obtained (past ++ [turn]) j :=
  obtained_concat_iff.2 (Or.inr ⟨j, h, rfl, rfl⟩)

end

/-- The journals that a unit of work has staged and not inserted are committed, under the same
    keys. -/
def UnitOfWork.Replaces (u : UnitOfWork) (t : Tables) : Prop :=
  ∀ e ∈ u.journals.entries, e.1 ∉ u.newJournals → ∃ k ∈ (t.journal? e.1).toList, k.id = e.2.id

instance (u : UnitOfWork) (t : Tables) : Decidable (u.Replaces t) :=
  inferInstanceAs (Decidable (∀ e ∈ _, _ → _))

namespace Crowd

variable {ι : Type}

/-- A journal is written back only from a row that somebody has been given, and its key and its
    transfer stay. -/
def FromRows (_ : Crowd ι) (past : List (Turn ι)) : Turn ι → Prop
  | .call _ (.updateJournal j) _ => Obtained past j
  | _ => True

instance (c : Crowd ι) (past : List (Turn ι)) (turn : Turn ι) :
    Decidable (FromRows c past turn) := by
  unfold FromRows
  split
  · infer_instance
  · infer_instance

/-- Moreover, who commits has inserted the journals that it has staged, or they are committed. -/
def FromLastingRows (c : Crowd ι) (past : List (Turn ι)) (turn : Turn ι) : Prop :=
  FromRows c past turn ∧ match turn with
    | .call i .commit (.ok _) => (c.units i).Replaces c.tables
    | _ => True

instance (c : Crowd ι) (past : List (Turn ι)) (turn : Turn ι) :
    Decidable (FromLastingRows c past turn) := by
  unfold FromLastingRows
  split
  · infer_instance
  · infer_instance

/-- Every journal comes from one that has been given out.  Those have drawn their keys, and no two
    transfers have the same key.  The index of the committed ones is exact. -/
structure Traced (c : Crowd ι) (past : List (Turn ι)) : Prop where
  drawn : ∀ j, Obtained past j → j.id.value ≤ c.ledger.store.sequences.journal
  transfer : ∀ j k, Obtained past j → Obtained past k → j.id = k.id → j.transfer = k.transfer
  staged : ∀ i x j, (c.units i).journals.get? x = some j → Obtained past j
  committed : ∀ x j, c.tables.journal? x = some j → Obtained past j
  exact : c.tables.journalsById.Exact Journal.id

theorem Traced.new : (new : Crowd ι).Traced [] where
  drawn _ h := absurd h not_obtained_nil
  transfer _ _ h := absurd h not_obtained_nil
  staged _ _ _ h := nomatch h
  committed _ _ h := nomatch h
  exact := .empty _

variable {c c' : Crowd ι} {past : List (Turn ι)} {turn : Turn ι}

/-- A commit of journals that replace committed ones or are new keeps the index exact. -/
theorem Traced.exact_applyTo (h : c.Traced past) (hi : c.Indexed) {i : ι}
    (hr : (c.units i).Replaces c.tables) (hc : (c.units i).conflict? c.tables = none) :
    ((c.units i).applyTo c.tables).journalsById.Exact Journal.id := by
  have huncommitted := (UnitOfWork.new_of_conflict?_eq_none hc).2.2
  have hplace := (hi.units i).journals
  rw [UnitOfWork.journalsById_applyTo]
  refine h.exact.apply ⟨fun x j hj hn => ?_, fun x y j k hj hk hid => ?_⟩ huncommitted
    fun x j hj => Option.eq_none_iff_forall_ne_some.2 fun y hy => ?_
  · obtain ⟨k, hk, hid⟩ := hr (x, j) ((Table.mem_entries_iff _ _ _).2 hj) hn
    exact ⟨k, Option.mem_toList.1 hk, hid⟩
  · rw [← hplace _ _ hj.staged, ← hplace _ _ hk.staged]
    exact h.transfer j k (h.staged i x j hj.staged) (h.staged i y k hk.staged) hid
  · -- The row with this key has been given out for the same transfer, which is not committed.
    obtain ⟨k, hk, hid⟩ := (h.exact _ _).1 hy
    have hsame := h.transfer j k (h.staged i x j hj.staged) (h.committed y k hk) hid.symm
    rw [hplace _ _ hj.staged, hi.tables.journals _ _ hk] at hsame
    rw [← hsame] at hk
    exact nomatch (huncommitted x hj.new).symm.trans hk

variable [DecidableEq ι]

/-- What one more turn gives out has been given out before, or has the next key. -/
theorem Traced.obtained_cases (h : c.Traced past) (hs : c.Step turn c') {j : Journal}
    (hj : Obtained (past ++ [turn]) j) : Obtained past j ∨
      (∃ k, turn.journals = [k] ∧ k.id = j.id ∧ k.transfer = j.transfer) ∧
        c.ledger.store.sequences.journal < j.id.value ∧
          j.id.value ≤ c'.ledger.store.sequences.journal := by
  rcases obtained_concat_iff.1 hj with hj | ⟨k, hk, hid, htransfer⟩
  · exact Or.inl hj
  · cases hs with
    | arm point => cases hk
    | @call i call r l u performed =>
      rcases (Call.effect performed).journals_cases hk with ⟨x, hrow⟩ | ⟨hk, hlt, hle⟩
      · have hold : Obtained past k := by
          rcases Option.or_eq_some_iff.1 hrow with hrow | ⟨-, hrow⟩
          · exact h.staged i x k hrow
          · exact h.committed x k hrow
        obtain ⟨k₀, hk₀, hid₀, htransfer₀⟩ := hold
        exact Or.inl ⟨k₀, hk₀, hid₀.trans hid, htransfer₀.trans htransfer⟩
      · exact Or.inr ⟨⟨k, hk, hid, htransfer⟩, hid ▸ hlt, hid ▸ hle⟩

/-- Every turn that the rule allows keeps the journals traced and their index exact. -/
theorem Traced.step (h : c.Traced past) (hi : c.Indexed) (allowed : FromLastingRows c past turn)
    (hs : c.Step turn c') : c'.Traced (past ++ [turn]) := by
  constructor
  case drawn =>
    intro j hj
    rcases h.obtained_cases hs hj with hj | ⟨-, -, hle⟩
    · exact Nat.le_trans (h.drawn j hj) hs.sequences_le.2.1
    · exact hle
  case transfer =>
    intro j k hj hk hid
    rcases h.obtained_cases hs hj with hj | ⟨⟨j', hj', hidj, hj⟩, hlt, -⟩
    · rcases h.obtained_cases hs hk with hk | ⟨-, hlt, -⟩
      · exact h.transfer j k hj hk hid
      · exact absurd (hid ▸ h.drawn j hj) (Nat.not_le.2 hlt)
    · rcases h.obtained_cases hs hk with hk | ⟨⟨k', hk', hidk, hk⟩, -, -⟩
      · exact absurd (hid ▸ h.drawn k hk) (Nat.not_le.2 hlt)
      · obtain rfl : j' = k' := List.singleton_injective (hj'.symm.trans hk')
        exact hj.symm.trans hk
  case staged =>
    intro x y j hj
    cases hs with
    | arm point => exact (h.staged x y j hj).mono
    | @call i call r l u performed =>
      by_cases hx : x = i
      · subst hx
        rw [put_units_self] at hj
        rcases (Call.effect performed).staged_journal hj with hj | rfl | hj
        · exact (h.staged x y j hj).mono
        · exact Obtained.mono allowed.1
        · exact obtained_of_mem hj
      · rw [put_units_of_ne c hx] at hj
        exact (h.staged x y j hj).mono
  case committed =>
    intro x j hj
    rcases hs.tables_cases with ⟨-, ht⟩ | ⟨i, -, -, ht⟩
    · rw [ht] at hj
      exact (h.committed x j hj).mono
    · rw [ht, UnitOfWork.journal?_applyTo] at hj
      rcases Option.or_eq_some_iff.1 hj with hj | ⟨-, hj⟩
      · exact (h.staged i x j hj).mono
      · exact (h.committed x j hj).mono
  case exact =>
    rcases hs.tables_cases with ⟨-, ht⟩ | ⟨i, rfl, hc, ht⟩
    · rw [ht]
      exact h.exact
    · rw [ht]
      exact h.exact_applyTo hi allowed.2 hc

end Crowd

/-! ## Unique keys -/

namespace Crowd

variable {ι : Type} [DecidableEq ι]

end Crowd
end CreditCircle

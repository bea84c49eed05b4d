/-
  Rows that are locked do not change under the unit of work that holds them.

  * `RowName`: the rows that are replaced under a lock; the limits of an account share its lock.
  * `UnitOfWork.Owned`: a unit stages only rows that it has inserted or holds.
  * `Step.row?_eq`: what somebody holds, nobody else replaces.
  * `Run.row?_eq`: from a read behind a lock to the commit, the committed row stays, and what is
    staged is the row that was read with the unit's own writes.
  * `Crowd.Isolated`: all of it; `Reachable.locked_rows_stable` says that it holds on every crowd
    that can come about.
-/
import CreditCircle.Proofs.Crowd
import CreditCircle.Proofs.Drafts

namespace CreditCircle

/-! ## Rows -/

/-- A row that is replaced under a lock. -/
inductive RowName where
  | account (number : AccountNumber)
  | limit (number : AccountNumber)
  | journal (transfer : TransferId)

namespace RowName

/-- What stands in such a row. -/
@[reducible] def Row : RowName → Type
  | account _ => Account
  | limit _ => BalanceLimit
  | journal _ => Journal

/-- What has to be locked for it. -/
def lock : RowName → RowKey
  | account number | limit number => .account number
  | journal transfer => .journal transfer

end RowName

namespace Tables

/-- A committed row. -/
def row? (t : Tables) : (k : RowName) → Option k.Row
  | .account number => t.account? number
  | .limit number => t.limit? number
  | .journal transfer => t.journal? transfer

/-- The row is committed; for limits, their account is as well. -/
def Has (t : Tables) : RowName → Prop
  | .account number => (t.account? number).isSome
  | .limit number => (t.limit? number).isSome ∧ (t.account? number).isSome
  | .journal transfer => (t.journal? transfer).isSome

theorem Has.isSome {t : Tables} {k : RowName} (h : t.Has k) : (t.row? k).isSome := by
  cases k with
  | account number => exact h
  | limit number => exact h.1
  | journal transfer => exact h

end Tables

namespace UnitOfWork

/-- A staged row. -/
def staged? (u : UnitOfWork) : (k : RowName) → Option k.Row
  | .account number => u.accounts.get? number
  | .limit number => u.limits.get? number
  | .journal transfer => u.journals.get? transfer

/-- A row as the unit of work sees it. -/
def view? (u : UnitOfWork) (t : Tables) (k : RowName) : Option k.Row := (u.staged? k).or (t.row? k)

/-- The unit of work has inserted the row; for limits, them or their account. -/
def Made (u : UnitOfWork) : RowName → Prop
  | .account number => number ∈ u.newAccounts
  | .limit number => number ∈ u.newLimits ∨ number ∈ u.newAccounts
  | .journal transfer => transfer ∈ u.newJournals

/-- Only rows are staged that the unit of work has inserted or holds. -/
def Owned (u : UnitOfWork) : Prop := ∀ k, (u.staged? k).isSome → u.Made k ∨ k.lock ∈ u.locks

theorem Owned.empty : UnitOfWork.empty.Owned := by
  intro k hk
  cases k <;> cases hk

variable {u u' : UnitOfWork} {t : Tables} {k : RowName}

/-- A commit shows every row as the unit of work has seen it. -/
theorem row?_applyTo (u : UnitOfWork) (t : Tables) (k : RowName) :
    (u.applyTo t).row? k = u.view? t k := by
  cases k with
  | account number => exact u.account?_applyTo t number
  | limit number => exact u.limit?_applyTo t number
  | journal transfer => exact u.journal?_applyTo t transfer

/-- A committed row is seen. -/
theorem exists_view? (u : UnitOfWork) (hk : t.Has k) : ∃ row, u.view? t k = some row := by
  rw [← Option.isSome_iff_exists, view?, Option.isSome_or, hk.isSome, Bool.or_true]

/-- No committed row is inserted once more. -/
theorem not_made (h : u.conflict? t = none) (hk : t.Has k) : ¬ u.Made k := by
  obtain ⟨haccount, hlimit, hjournal⟩ := new_of_conflict?_eq_none h
  have hnone : ∀ {α : Type} {o : Option α}, o.isSome → o ≠ none := by
    rintro α o ho rfl
    cases ho
  cases k with
  | account number => exact fun hm => hnone hk (haccount number hm).1
  | limit number =>
    rintro (hm | hm)
    · exact hnone hk.1 (hlimit number hm)
    · exact hnone hk.2 (haccount number hm).1
  | journal transfer => exact fun hm => hnone hk (hjournal transfer hm)

end UnitOfWork

/-! ## Writes -/

namespace UnitOfWork

variable {u u' : UnitOfWork}

theorem SameRows.staged? (h : u'.SameRows u) (k : RowName) : u'.staged? k = u.staged? k := by
  rw [h]
  cases k <;> rfl

theorem SameRows.made (h : u'.SameRows u) (k : RowName) (hk : u.Made k) : u'.Made k := by
  rw [h]
  cases k <;> exact hk

/-- One row is staged, and no row or lock is given up. -/
structure Writes (u u' : UnitOfWork) (k : RowName) (v : k.Row) : Prop where
  row : u'.staged? k = some v
  others : ∀ x, x ≠ k → u'.staged? x = u.staged? x
  made : ∀ x, u.Made x → u'.Made x
  locks : u'.locks = u.locks

variable (u)

theorem writes_account (number : AccountNumber) (a : Account) {news : List AccountNumber}
    (h : u.newAccounts ⊆ news) :
    u.Writes { u with accounts := u.accounts.put number a, newAccounts := news } (.account number)
      a where
  row := Table.get?_put_self ..
  others x hx := by
    cases x with
    | account n => exact Table.get?_put_of_ne _ _ fun hn => hx (congrArg _ hn)
    | limit n => rfl
    | journal x => rfl
  made x hx := by
    cases x with
    | account n => exact h hx
    | limit n => exact hx.imp id fun hn => h hn
    | journal x => exact hx
  locks := rfl

theorem writes_limit (limit : BalanceLimit) {news : List AccountNumber} (h : u.newLimits ⊆ news) :
    u.Writes { u with limits := u.limits.put limit.account limit, newLimits := news }
      (.limit limit.account) limit where
  row := Table.get?_put_self ..
  others x hx := by
    cases x with
    | account n => rfl
    | limit n => exact Table.get?_put_of_ne _ _ fun hn => hx (congrArg _ hn)
    | journal x => rfl
  made x hx := by
    cases x with
    | account n => exact hx
    | limit n => exact hx.imp (fun hn => h hn) id
    | journal x => exact hx
  locks := rfl

theorem writes_journal (transfer : TransferId) (j : Journal) {news : List TransferId}
    (h : u.newJournals ⊆ news) :
    u.Writes { u with journals := u.journals.put transfer j, newJournals := news }
      (.journal transfer) j where
  row := Table.get?_put_self ..
  others x hx := by
    cases x with
    | account n => rfl
    | limit n => rfl
    | journal x => exact Table.get?_put_of_ne _ _ fun hn => hx (congrArg _ hn)
  made x hx := by
    cases x with
    | account n => exact hx
    | limit n => exact hx
    | journal x => exact h hx
  locks := rfl

end UnitOfWork

namespace Call

/-- What a call makes of a row that is there, if it succeeds. -/
def rewrites : Call → (k : RowName) → k.Row → k.Row
  | setBalance number balance, .account n, account =>
    if n = number then { account with balance } else account
  | updateLimit limit, .limit n, old => if n = limit.account then limit else old
  | updateJournal journal, .journal x, old => if x = journal.transfer then journal else old
  | _, _, row => row

/-- What a call with this answer makes of a row that is there. -/
def leaves (c : Call) : Except LedgerError c.Reply → (k : RowName) → k.Row → k.Row
  | .ok _ => c.rewrites
  | .error _ => fun _ row => row

namespace Effect

variable {l l' : Ledger} {u u' : UnitOfWork} {c : Call} {r : Except LedgerError c.Reply}

/-- A call that goes on stages nothing in place of a row, or one row.  That row has been inserted
    or is held; and if it is committed, it is replaced by what the call makes of it. -/
theorem writes_cases (h : c.Effect l u r l' u') (hc : c.ends = false) :
    ((∀ k, u'.staged? k = u.staged? k) ∧ (∀ k, u.Made k → u'.Made k) ∧
        ∀ k row, c.leaves r k row = row) ∨
      ∃ k v, u.Writes u' k v ∧ (u'.Made k ∨ k.lock ∈ u.locks) ∧
        (l.tables.Has k → ∃ old, u.view? l.tables k = some old ∧ c.leaves r k old = v) ∧
        ∀ x, x ≠ k → ∀ row, c.leaves r x row = row := by
  have hnone : ∀ {α : Type} {o : Option α}, o = none → ¬ o.isSome := by
    rintro α o rfl ho
    cases ho
  cases h with
  | look seen _ rows =>
    refine Or.inl ⟨rows.staged?, rows.made, fun k row => ?_⟩
    cases c <;> first | rfl | cases seen
  | refuse _ _ rows => exact Or.inl ⟨rows.staged?, rows.made, fun _ _ => rfl⟩
  | insertPosting _ =>
    refine Or.inl ⟨fun k => ?_, fun k hk => ?_, fun _ _ => rfl⟩
    · cases k <;> rfl
    · cases k <;> exact hk
  | insertAccount _ uncommitted _ =>
    refine Or.inr ⟨_, _, u.writes_account _ _ (List.subset_append_left ..), Or.inl ?_,
      fun hk => absurd hk (hnone uncommitted), fun _ _ _ => rfl⟩
    exact List.mem_append_right _ (List.mem_singleton_self _)
  | insertLimit uncommitted =>
    refine Or.inr ⟨_, _, u.writes_limit _ (List.subset_append_left ..), Or.inl (Or.inl ?_),
      fun hk => absurd hk.1 (hnone uncommitted), fun _ _ _ => rfl⟩
    exact List.mem_append_right _ (List.mem_singleton_self _)
  | insertJournal _ uncommitted =>
    refine Or.inr ⟨_, _, u.writes_journal _ _ (List.subset_append_left ..), Or.inl ?_,
      fun hk => absurd hk (hnone uncommitted), fun _ _ _ => rfl⟩
    exact List.mem_append_right _ (List.mem_singleton_self _)
  | updateLimit owned =>
    refine Or.inr ⟨_, _, u.writes_limit _ (List.Subset.refl _), owned.imp Or.inr id,
      fun hk => ?_, fun x hx row => ?_⟩
    · obtain ⟨old, hold⟩ := u.exists_view? hk
      exact ⟨old, hold, if_pos rfl⟩
    · cases x with
      | limit n => exact if_neg fun hn => hx (congrArg _ hn)
      | _ => rfl
  | updateJournal owned =>
    refine Or.inr ⟨_, _, u.writes_journal _ _ (List.Subset.refl _), owned,
      fun hk => ?_, fun x hx row => ?_⟩
    · obtain ⟨old, hold⟩ := u.exists_view? hk
      exact ⟨old, hold, if_pos rfl⟩
    · cases x with
      | journal x => exact if_neg fun hn => hx (congrArg _ hn)
      | _ => rfl
  | setBalance owned seen =>
    refine Or.inr ⟨_, _, u.writes_account _ _ (List.Subset.refl _), owned,
      fun _ => ⟨_, seen, if_pos rfl⟩, fun x hx row => ?_⟩
    cases x with
    | account n => exact if_neg fun hn => hx (congrArg _ hn)
    | _ => rfl
  | commit _ _ _ => cases hc
  | drop ends _ _ => rw [ends] at hc; cases hc

/-- No call stages a row that its unit of work has neither inserted nor holds. -/
theorem owned (h : c.Effect l u r l' u') (hv : Visit l u c l' u') (hu : u.Owned) : u'.Owned := by
  cases hc : c.ends with
  | true => exact h.eq_empty hc ▸ .empty
  | false =>
    have hlocks := hv.locks_subset hc
    intro k hk
    rcases h.writes_cases hc with ⟨hstaged, hmade, -⟩ | ⟨k', v, hw, howned, -, -⟩
    · rw [hstaged] at hk
      exact (hu k hk).imp (hmade k) fun hl => hlocks hl
    · by_cases hkk : k = k'
      · rw [hkk]
        exact howned.imp id fun hl => hlocks hl
      · rw [hw.others k hkk] at hk
        exact (hu k hk).imp (hw.made k) fun hl => hlocks hl

/-- A committed row is seen as the call leaves it. -/
theorem view?_eq (h : c.Effect l u r l' u') (hc : c.ends = false) {k : RowName}
    (hk : l.tables.Has k) :
    u'.view? l'.tables k = (u.view? l.tables k).map (c.leaves r k) := by
  unfold UnitOfWork.view?
  rw [h.tables_eq hc]
  rcases h.writes_cases hc with ⟨hstaged, -, hleaves⟩ | ⟨k', v, hw, -, hrow, hleaves⟩
  · rw [hstaged, show c.leaves r k = id from funext (hleaves k), Option.map_id, id]
  · by_cases hkk : k = k'
    · subst hkk
      obtain ⟨old, hold, hv⟩ := hrow hk
      rw [UnitOfWork.view?] at hold
      rw [hw.row, Option.some_or, hold, Option.map_some, hv]
    · rw [hw.others k hkk, show c.leaves r k = id from funext (hleaves k hkk), Option.map_id, id]

/-- A call that looks at rows answers what it sees and changes none. -/
theorem look_of_seen? {v : c.Reply} (h : c.Effect l u (.ok v) l' u')
    (hc : (c.seen? l u).isSome) :
    c.seen? l u = some v ∧ l'.tables = l.tables ∧ u'.SameRows u := by
  generalize hr : Except.ok v = r at h
  cases h with
  | look seen uses rows => cases hr; exact ⟨seen, uses.tables, rows⟩
  | refuse _ _ _ => cases hr
  | drop ends _ _ =>
    obtain ⟨_, hseen⟩ := Option.isSome_iff_exists.1 hc
    rw [ends_of_seen? hseen] at ends
    cases ends
  | _ => cases hc

end Effect
end Call

/-! ## Turns -/

/-- Committed rows do not vanish. -/
theorem Tables.Has.applyTo {t : Tables} {k : RowName} (h : t.Has k) (u : UnitOfWork) :
    (u.applyTo t).Has k := by
  have hor : ∀ {α : Type} {o o' : Option α}, o'.isSome → (o.or o').isSome := by
    intro α o o' h
    rw [Option.isSome_or, h, Bool.or_true]
  have haccount : ∀ n, (t.account? n).isSome → ((u.applyTo t).account? n).isSome := by
    intro n hn
    rw [u.account?_applyTo]
    exact hor hn
  cases k with
  | account number => exact haccount number h
  | limit number =>
    refine ⟨?_, haccount number h.2⟩
    rw [u.limit?_applyTo]
    exact hor h.1
  | journal transfer =>
    show ((u.applyTo t).journal? transfer).isSome
    rw [u.journal?_applyTo]
    exact hor h

namespace Turn

variable {ι : Type} [DecidableEq ι]

/-- What this unit of work makes of a row in this turn. -/
def leaves (who : ι) : Turn ι → (k : RowName) → k.Row → k.Row
  | arm _, _, row => row
  | call i c r, k, row => if i = who then c.leaves r k row else row

/-- What this unit of work makes of a row in many turns. -/
def leavesAll (who : ι) (turns : List (Turn ι)) (k : RowName) (row : k.Row) : k.Row :=
  turns.foldl (fun row turn => turn.leaves who k row) row

/-- The unit of work reads a row inside of its transaction, and this is what it finds. -/
inductive Reads (who : ι) : Turn ι → (k : RowName) → k.Row → Prop
  | account {number : AccountNumber} {a : Account} :
      Reads who (.call who (.lockAccount number) (.ok (some a))) (.account number) a
  | limit {number : AccountNumber} {limit : BalanceLimit} :
      Reads who (.call who (.readLimit number) (.ok (some limit))) (.limit number) limit
  | journal {transfer : TransferId} {j : Journal} :
      Reads who (.call who (.lockJournal transfer) (.ok (some j))) (.journal transfer) j

theorem ends_of_isBy {who : ι} {turn : Turn ι} (h : turn.isBy who = false) :
    turn.ends who = false := by
  cases turn with
  | arm point => rfl
  | call i c r =>
    rw [isBy] at h
    rw [ends, h, Bool.false_and]

end Turn

namespace Crowd

variable {ι : Type} [DecidableEq ι] {c c' : Crowd ι} {turn : Turn ι} {i : ι} {k : RowName}

/-- Every unit of work stages only rows that it has inserted or holds. -/
def Owned (c : Crowd ι) : Prop := ∀ i, (c.units i).Owned

theorem Owned.step (h : c.Owned) (hs : c.Step turn c') : c'.Owned := by
  intro j
  cases hs with
  | arm point => exact h j
  | @call i call r l u performed =>
    by_cases hj : j = i
    · subst hj
      rw [put_units_self]
      exact (Call.effect performed).owned (Call.visit performed) (h j)
    · rw [put_units_of_ne c hj]
      exact h j

theorem Reachable.owned (h : c.Reachable) : c.Owned :=
  h.induct (fun _ => .empty) fun _ _ _ h hs => h.step hs

/-! ### One turn -/

theorem Step.has (hs : c.Step turn c') (hk : c.tables.Has k) : c'.tables.Has k := by
  rcases hs.tables_cases with ⟨-, ht⟩ | ⟨j, -, -, ht⟩
  · rw [ht]
    exact hk
  · rw [ht]
    exact hk.applyTo _

theorem Step.locks_subset (hs : c.Step turn c') (hi : turn.ends i = false) :
    (c.units i).locks ⊆ (c'.units i).locks := by
  cases hs with
  | arm point => exact fun _ h => h
  | @call j call r l u performed =>
    by_cases hij : i = j
    · subst hij
      rw [put_units_self]
      refine (Call.visit performed).locks_subset ?_
      rwa [Turn.ends, decide_eq_true rfl, Bool.true_and] at hi
    · rw [put_units_of_ne c hij]
      exact fun _ h => h

section
variable (hs : c.Step turn c') (he : c.Exclusive) (ho : c.Owned)
  (hl : k.lock ∈ (c.units i).locks) (hk : c.tables.Has k) (hi : turn.ends i = false)
include hs he ho hl hk hi

/-- A row that is held stays as it is committed, as long as its holder goes on: whoever commits
    something else in its place would have to hold it as well, or to insert it once more. -/
theorem Step.row?_eq : c'.tables.row? k = c.tables.row? k := by
  rcases hs.tables_cases with ⟨-, ht⟩ | ⟨j, rfl, hsound, ht⟩
  · rw [ht]
  · have hij : j ≠ i := by
      rintro rfl
      rw [Turn.ends, decide_eq_true rfl] at hi
      cases hi
    have hstaged : (c.units j).staged? k = none := by
      rw [← Option.not_isSome_iff_eq_none]
      intro hstaged
      rcases ho j k hstaged with hm | hj
      · exact UnitOfWork.not_made hsound hk hm
      · exact hij (he.eq hj hl)
    rw [ht, UnitOfWork.row?_applyTo, UnitOfWork.view?, hstaged, Option.none_or]

/-- The holder sees the row with its own writes. -/
theorem Step.view?_eq : (c'.units i).view? c'.tables k =
    ((c.units i).view? c.tables k).map (turn.leaves i k) := by
  have hrow := hs.row?_eq he ho hl hk hi
  cases hs with
  | arm point =>
    rw [show Turn.leaves i (.arm point) k = id from rfl, Option.map_id, id, UnitOfWork.view?, hrow]
    rfl
  | @call j call r l u performed =>
    by_cases hij : i = j
    · subst hij
      rw [Turn.ends, decide_eq_true rfl, Bool.true_and] at hi
      rw [put_units_self,
        show Turn.leaves i (.call i call r) k = call.leaves r k from funext fun _ => if_pos rfl]
      exact (Call.effect performed).view?_eq hi hk
    · rw [put_units_of_ne c hij,
        show Turn.leaves i (.call j call r) k = id from funext fun _ => if_neg (Ne.symm hij),
        Option.map_id, id, UnitOfWork.view?, hrow]
      rfl

end

/-- What is read is what the unit of work sees then. -/
theorem Step.view?_of_reads {row : k.Row} (hs : c.Step turn c') (hr : turn.Reads i k row) :
    (c'.units i).view? c'.tables k = some row := by
  have hview : ∀ {call : Call} {v : call.Reply},
      c.Step (.call i call (.ok v)) c' → (call.seen? c.ledger (c.units i)).isSome →
        call.seen? c.ledger (c.units i) = some v ∧
          (c'.units i).view? c'.tables k = (c.units i).view? c.tables k := by
    intro call v hs hlook
    cases hs with
    | call performed =>
      obtain ⟨hseen, htables, hrows⟩ := (Call.effect performed).look_of_seen? hlook
      refine ⟨hseen, ?_⟩
      rw [put_units_self, put_tables, htables, UnitOfWork.view?, hrows.staged?]
      rfl
  cases hr with
  | account | limit | journal =>
    obtain ⟨hseen, hv⟩ := hview hs rfl
    exact hv.trans (Option.some.inj hseen)

/-! ### Many turns -/

/-- This unit of work holds the row, and the row is committed. -/
structure Holds (c : Crowd ι) (i : ι) (k : RowName) : Prop where
  lock : k.lock ∈ (c.units i).locks
  committed : c.tables.Has k

/-- Until its holder ends, a committed row stays, whoever does what in between; the holder sees it
    with its own writes. -/
theorem Run.row?_eq {turns : List (Turn ι)} (hc : c.Reachable) (hr : c.Run Anyhow turns c')
    (hh : c.Holds i k) (hturns : ∀ turn ∈ turns, turn.ends i = false) :
    c'.Holds i k ∧ c'.tables.row? k = c.tables.row? k ∧
      (c'.units i).view? c'.tables k =
        ((c.units i).view? c.tables k).map (Turn.leavesAll i turns k) := by
  induction hr with
  | refl => exact ⟨hh, rfl, Option.map_id.symm ▸ rfl⟩
  | @step past turn c₁ c₂ run _ step ih =>
    obtain ⟨hh₁, hrow, hview⟩ := ih fun t ht => hturns t (List.mem_append_left _ ht)
    have hi : turn.ends i = false :=
      hturns turn (List.mem_append_right _ (List.mem_singleton_self _))
    have hc₁ := hc.run run
    have hl := hh₁.lock
    have hk := hh₁.committed
    refine ⟨⟨step.locks_subset hi hl, step.has hk⟩,
      (step.row?_eq hc₁.exclusive hc₁.owned hl hk hi).trans hrow, ?_⟩
    rw [step.view?_eq hc₁.exclusive hc₁.owned hl hk hi, hview, Option.map_map]
    refine congrArg (Option.map · _) (funext fun row => ?_)
    rw [Turn.leavesAll, List.foldl_append]
    rfl

/-- Nothing that is staged shows before a commit succeeds. -/
theorem Run.tables_eq {rule : Crowd ι → List (Turn ι) → Turn ι → Prop} {turns : List (Turn ι)}
    (hr : c.Run rule turns c') (hturns : ∀ turn ∈ turns, turn.commits = false) :
    c'.tables = c.tables := by
  induction hr with
  | refl => rfl
  | @step past turn c₁ c₂ run _ step ih =>
    have hturn := hturns turn (List.mem_append_right _ (List.mem_singleton_self _))
    rcases step.tables_cases with ⟨-, ht⟩ | ⟨i, rfl, -, -⟩
    · exact ht.trans (ih fun t h => hturns t (List.mem_append_left _ h))
    · cases hturn

/-- Units of work are kept apart by the locks on rows. -/
structure Isolated (c : Crowd ι) : Prop where
  /-- No two units of work hold the same lock. -/
  exclusive : ∀ i j key, key ∈ (c.units i).locks → key ∈ (c.units j).locks → i = j
  /-- As long as somebody holds a committed row, no turn of another changes what is committed there:
      an account, its limits or a journal. -/
  stable : ∀ i k turn c', c.Holds i k → c.Step turn c' → turn.isBy i = false →
    c'.Holds i k ∧ c'.tables.row? k = c.tables.row? k
  /-- From a read of such a row to the commit, the committed row stays as it was read, and the
      commit replaces it with what its own writes have made of the row that was read. -/
  own : ∀ i k (row : k.Row) turn turns c₁ c₂ c₃, c.Step turn c₁ → turn.Reads i k row →
    c₁.Holds i k → c₁.Run Anyhow turns c₂ → (∀ turn ∈ turns, turn.ends i = false) →
    c₂.Step (.call i .commit (.ok ())) c₃ →
    c₂.tables.row? k = c₁.tables.row? k ∧
      ((c₁.units i).staged? k = none → c₂.tables.row? k = some row) ∧
      c₃.tables.row? k = some (Turn.leavesAll i turns k row)
  /-- What is committed stays until a commit succeeds. -/
  unseen : ∀ turns c', c.Run Anyhow turns c' → (∀ turn ∈ turns, turn.commits = false) →
    c'.tables = c.tables
  /-- A commit shows the rows of its own unit of work and no others. -/
  shown : ∀ i c', c.Step (.call i .commit (.ok ())) c' →
    c'.tables = (c.units i).applyTo c.tables
  /-- A read outside of a transaction sees what is committed. -/
  account : ∀ i number r c', c.Step (.call i (.findAccount number) r) c' →
    r = .ok (c.tables.account? number)
  limit : ∀ i number r c', c.Step (.call i (.findLimit number) r) c' →
    r = .ok (c.tables.limit? number)

/-- Whatever units of work have called, in any order, they are kept apart. -/
theorem Reachable.locked_rows_stable (hc : c.Reachable) : c.Isolated where
  exclusive _ _ _ := hc.exclusive.eq
  stable i k turn c' hh hs hby := by
    have hi := Turn.ends_of_isBy hby
    exact ⟨⟨hs.locks_subset hi hh.lock, hs.has hh.committed⟩,
      hs.row?_eq hc.exclusive hc.owned hh.lock hh.committed hi⟩
  own i k row turn turns c₁ c₂ c₃ hs hreads hh hrun hturns hcommit := by
    obtain ⟨-, hrow, hview⟩ := hrun.row?_eq (hc.step hs) hh hturns
    have hread := hs.view?_of_reads hreads
    refine ⟨hrow, fun hnone => ?_, ?_⟩
    · rwa [hrow, ← Option.none_or (o := c₁.tables.row? k), ← hnone]
    · rw [hcommit.tables_commit, UnitOfWork.row?_applyTo, hview, hread, Option.map_some]
  unseen _ _ hrun := hrun.tables_eq
  shown _ _ hs := hs.tables_commit
  account i number r c' hs := by
    cases hs with
    | call performed => cases performed; rfl
  limit i number r c' hs := by
    cases hs with
    | call performed => cases performed; rfl

/-- One unit of work has opened an account. -/
def opened : Crowd Bool :=
  (new.played Anyhow
    [(true, .insertAccount (.generate 10) ⟨.ofNat 1⟩ (.ofMillis 0)), (true, .commit)]).2

/-- Another one takes the account and writes to it.  Meanwhile the first one tries to take it as
    well, and then opens a second account. -/
theorem Reachable.locked_rows_stable_opened :
    let n : AccountNumber := .generate 10
    let a : Account := .opened ⟨1⟩ n ⟨.ofNat 1⟩ (.ofMillis 0)
    let taken := opened.played Anyhow [(false, .lockAccount n)]
    let others := taken.2.played Anyhow
      [(true, .lockAccount n), (true, .insertAccount (.generate 20) ⟨.ofNat 2⟩ (.ofMillis 0)),
        (false, .setBalance n (.ofNat 5)), (true, .commit)]
    let done := others.2.played Anyhow [(false, .commit)]
    others.1.length = 3 ∧ others.1.any Turn.commits = true ∧
      others.2.tables.account? n = some a ∧
      done.2.tables.account? n = some { a with balance := .ofNat 5 } := by
  intro n a taken others done
  have hopened : opened.Reachable := ⟨_, run_played Anyhow _ _⟩
  have hread : opened.Step (.call false (.lockAccount n) (.ok (some a))) taken.2 :=
    step_played (by decide +kernel)
  have hwrite : others.2.Step (.call false .commit (.ok ())) done.2 :=
    step_played (by decide +kernel)
  have hlock : (RowName.account n).lock ∈ (taken.2.units false).locks := by decide +kernel
  have hthere : (taken.2.tables.account? n).isSome := by decide +kernel
  have hstaged : (taken.2.units false).staged? (.account n) = none := by decide +kernel
  have hends : others.1.all (fun turn => !turn.ends false) = true := by decide +kernel
  have hwrites : Turn.leavesAll false others.1 (.account n) a = { a with balance := .ofNat 5 } := by
    decide +kernel
  obtain ⟨-, hkept, hwritten⟩ := (Reachable.locked_rows_stable hopened).own false (.account n) a _
    others.1 taken.2 others.2 done.2 hread .account ⟨hlock, hthere⟩ (run_played Anyhow _ _)
    (fun turn ht => Bool.not_eq_true' _ ▸ List.all_eq_true.1 hends turn ht) hwrite
  exact ⟨by decide +kernel, by decide +kernel, hkept hstaged,
    hwritten.trans (congrArg some hwrites)⟩

end Crowd
end CreditCircle

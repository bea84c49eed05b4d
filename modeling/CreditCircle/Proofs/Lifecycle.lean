/-
  The life of a transfer.

  * `Journal.terms`, `Journal.Follows`: what never changes in a journal, and how the rest may.
  * `Change.follows`: what an operation does to the journals that are there.
  * `Operation.Resolves`, `run_resolves_ended`: a transfer that has ended cannot be ended again.
  * `Change.hasCompleted_or_sameBalances`: credit moves only when a transfer is completed.
-/
import CreditCircle.Proofs.History

namespace CreditCircle

/-! ## Journals over time -/

namespace Journal

/-- Everything in a journal that was agreed on when it was made. -/
def terms (j : Journal) : JournalDraft where
  transfer := j.transfer
  initiator := j.initiator
  sender := j.sender
  receiver := j.receiver
  senderParty := j.senderParty
  receiverParty := j.receiverParty
  amount := j.amount
  description := j.description
  createdAt := j.createdAt

/-- `j'` is what has become of `j`: it is still the same, or it has ended since. -/
def Follows (j j' : Journal) : Prop :=
  j'.id = j.id ∧ j'.terms = j.terms ∧ (j' = j ∨ j.status = .initiated ∧ j'.status ≠ .initiated)

theorem Follows.refl (j : Journal) : j.Follows j := ⟨rfl, rfl, Or.inl rfl⟩

theorem Follows.trans {j j' j'' : Journal} (h : j.Follows j') (h' : j'.Follows j'') :
    j.Follows j'' := by
  obtain ⟨hid, ht, h⟩ := h
  obtain ⟨hid', ht', h'⟩ := h'
  refine ⟨hid'.trans hid, ht'.trans ht, ?_⟩
  rcases h with rfl | ⟨hp, he⟩
  · exact h'
  · rcases h' with rfl | ⟨hp', -⟩
    · exact Or.inr ⟨hp, he⟩
    · exact absurd hp' he

/-- A journal that has ended stays as it is. -/
theorem Follows.eq_of_ended {j j' : Journal} (h : j.Follows j') (he : j.status ≠ .initiated) :
    j' = j := by
  rcases h.2.2 with h | ⟨hp, -⟩
  · exact h
  · exact absurd hp he

end Journal

/-- Every journal of `t` is still there in `t'`, the same or ended since. -/
def Tables.Follows (t t' : Tables) : Prop :=
  ∀ x j, t.journal? x = some j → ∃ j', t'.journal? x = some j' ∧ j.Follows j'

namespace Tables.Follows

variable {t t' t'' : Tables}

theorem refl (t : Tables) : t.Follows t := fun _ j hj => ⟨j, hj, .refl j⟩

theorem trans (h : t.Follows t') (h' : t'.Follows t'') : t.Follows t'' := by
  intro x j hj
  obtain ⟨j', hj', hf⟩ := h x j hj
  obtain ⟨j'', hj'', hf'⟩ := h' x j' hj'
  exact ⟨j'', hj'', hf.trans hf'⟩

theorem of_new (j : Journal) (hn : t.journal? j.transfer = none)
    (ht : ∀ x, t'.journal? x = if x = j.transfer then some j else t.journal? x) :
    t.Follows t' := by
  intro x k hk
  refine ⟨k, ?_, .refl k⟩
  rw [ht, if_neg]
  · exact hk
  · rintro rfl
    rw [hn] at hk; cases hk

theorem of_ended (j j' : Journal) (hj : t.journal? j'.transfer = some j) (hf : j.Follows j')
    (ht : ∀ x, t'.journal? x = if x = j'.transfer then some j' else t.journal? x) :
    t.Follows t' := by
  intro x k hk
  by_cases hx : x = j'.transfer
  · subst hx
    rw [hj] at hk
    cases hk
    exact ⟨j', by rw [ht, if_pos rfl], hf⟩
  · exact ⟨k, by rw [ht, if_neg hx, hk], .refl k⟩

end Tables.Follows

theorem Books.journal? {l l' : Ledger} {j : Journal} {t : Tables} (h : Books l l' j t)
    (x : TransferId) : t.journal? x = l.tables.journal? x := by
  obtain ⟨-, -, -⟩ := h
  rfl

/-! ## Steps -/

section
variable {limits : DefaultLimits} {l l' : Ledger} {op : Operation}

theorem Closes.follows {transfer : TransferId} {reason : String} {canceller : Canceller}
    {now : Timestamp} {j : Journal} (h : Closes transfer reason canceller now l j l')
    (hw : l.tables.WellFormed) : l.tables.Follows l'.tables := by
  have hj := hw.journal transfer j h.found
  refine .of_ended j (j.cancelled reason now) (hj ▸ h.found)
    ⟨rfl, rfl, Or.inr ⟨h.pending, nofun⟩⟩ fun x => ?_
  rw [h.tables, Tables.journal?_withJournal]

theorem Completes.follows {transfer : TransferId} {now : Timestamp} {j : Journal}
    (h : Completes transfer now l j l') (hw : l.tables.WellFormed) :
    l.tables.Follows l'.tables := by
  have hj := hw.journal transfer j h.found
  refine .of_ended j (j.completed now) (hj ▸ h.found)
    ⟨rfl, rfl, Or.inr ⟨h.pending, nofun⟩⟩ fun x => ?_
  obtain ⟨t, hb, ht⟩ := h.tables
  rw [ht, Tables.journal?_withJournal, hb.journal?]

theorem Transfers.journal? {eligible : AccountNumber → Bool} {request : TransferRequest}
    {chance : Chance} {j : Journal} (h : Transfers eligible request chance l j l')
    (x : TransferId) : l'.tables.journal? x =
      if x = j.transfer then some (j.completed (chance.clock 3)) else l.tables.journal? x := by
  obtain ⟨t, hb, ht⟩ := h.tables
  rw [ht, Tables.journal?_withNewJournal, hb.journal?]
  rfl

theorem Change.follows (h : Change limits l l' op) (hw : l.tables.WellFormed) :
    l.tables.Follows l'.tables := by
  cases h with
  | opens h =>
    obtain ⟨now, -, ht⟩ := h.tables
    rw [ht]; exact .refl l.tables
  | relimits h => rw [h.tables]; exact .refl l.tables
  | proposes h =>
    refine .of_new _ h.new fun x => ?_
    rw [h.tables, Tables.journal?_withNewJournal]
  | completes h => exact h.follows hw
  | closes hop h => exact h.follows hw
  | transfers h => exact .of_new (Journal.completed _ _) h.new h.journal?

end

/-! ## Transfers that have ended -/

/-- The operations that end the pending transfer `x`, and what a refusal calls them. -/
inductive Operation.Resolves (x : TransferId) : Operation → Action → Prop
  | accept (clock : Clock) : Resolves x (.accept x clock) .accept
  | reject (reason : String) (now : Timestamp) : Resolves x (.reject x reason now) .reject
  | cancel (reason : String) (now : Timestamp) : Resolves x (.cancel x reason now) .cancel

/-- Only one operation ends a transfer; all others are refused and change nothing. -/
theorem Ledger.AtRest.run_resolves_ended {l : Ledger} (h : l.AtRest) (limits : DefaultLimits)
    {x : TransferId} {j : Journal} {op : Operation} {action : Action} (hop : op.Resolves x action)
    (hj : l.tables.journal? x = some j) (hst : j.status ≠ .initiated) :
    (l.run (op.program limits)).1 = .error (.refused (.invalidStateTransition x j.status action)) ∧
      Staged l (l.run (op.program limits)).2 .empty := by
  have key : ∀ {f : Journal → Program Journal},
      (l.run (Program.lockPending x action >>= f)).1 =
          .error (.refused (.invalidStateTransition x j.status action)) ∧
        Staged l (l.run (Program.lockPending x action >>= f)).2 .empty := by
    intro f
    have hends : (Program.lockPending x action >>= f).Ends _ l .empty :=
      Program.ends_lockPending (.refl h.held) hj hst
    obtain ⟨r, l', u, ⟨rfl, hs⟩, hrun⟩ := run_of_ends hends
    rw [hrun]
    exact ⟨rfl, hs.release⟩
  cases hop with
  | accept clock => exact key
  | reject reason now => exact key
  | cancel reason now => exact key

/-- Success ends the transfer. -/
theorem Ledger.AtRest.run_resolves_ok {l : Ledger} (h : l.AtRest) (limits : DefaultLimits)
    {x : TransferId} {op : Operation} {action : Action} (hop : op.Resolves x action)
    {v : op.Result} (hv : (l.run (op.program limits)).1 = .ok v) :
    ∃ j, (l.run (op.program limits)).2.tables.journal? x = some j ∧ j.status ≠ .initiated := by
  have hcompleted : ∀ {l' now j}, Completes x now l j l' →
      ∃ j, l'.tables.journal? x = some j ∧ j.status ≠ .initiated := by
    intro l' now j hj
    obtain ⟨t, hb, ht⟩ := hj.tables
    refine ⟨j.completed now, ?_, nofun⟩
    rw [ht, Tables.journal?_withJournal]
    exact if_pos (h.wellFormed.journal x j hj.found).symm
  have hclosed : ∀ {l' reason canceller now j}, Closes x reason canceller now l j l' →
      ∃ j, l'.tables.journal? x = some j ∧ j.status ≠ .initiated := by
    intro l' reason canceller now j hj
    refine ⟨j.cancelled reason now, ?_, nofun⟩
    rw [hj.tables, Tables.journal?_withJournal]
    exact if_pos (h.wellFormed.journal x j hj.found).symm
  rcases h.run_cases limits op with ⟨-, hc⟩ | ⟨⟨e, he, -⟩, -⟩
  · cases hc with
    | completes hj => cases hop; exact hcompleted hj
    | closes hcancels hj => cases hcancels <;> cases hop <;> exact hclosed hj
    | opens hj | relimits hj | proposes hj | transfers hj => cases hop
  · rw [hv] at he; cases he

/-! ## Movements of credit -/

/-- Between `t` and `t'`, a transfer has become completed. -/
def Tables.HasCompleted (t t' : Tables) : Prop :=
  ∃ x j', t'.journal? x = some j' ∧ j'.status = .completed ∧
    ∀ j, t.journal? x = some j → j.status ≠ .completed

/-- Between `t` and `t'`, nothing has been booked, and accounts were at most opened. -/
def Tables.SameBalances (t t' : Tables) : Prop :=
  t'.postings = t.postings ∧ ∀ n, t'.account? n = t.account? n ∨
    t.account? n = none ∧ ∃ a, t'.account? n = some a ∧ a.balance = 0

theorem Change.hasCompleted_or_sameBalances {limits : DefaultLimits} {l l' : Ledger}
    {op : Operation} (h : Change limits l l' op) (hw : l.tables.WellFormed) :
    l.tables.HasCompleted l'.tables ∨ l.tables.SameBalances l'.tables := by
  cases h with
  | opens h =>
    obtain ⟨now, -, ht⟩ := h.tables
    refine Or.inr ⟨by rw [ht]; rfl, fun n => ?_⟩
    rw [ht, Tables.account?_withAccount]
    split
    · rename_i heq
      exact Or.inr ⟨heq ▸ h.number_new, _, rfl, h.balance⟩
    · exact Or.inl rfl
  | relimits h => exact Or.inr (h.tables ▸ ⟨rfl, fun _ => Or.inl rfl⟩)
  | proposes h => exact Or.inr (h.tables ▸ ⟨rfl, fun _ => Or.inl rfl⟩)
  | @completes transfer clock j h =>
    obtain ⟨t, hb, ht⟩ := h.tables
    have hj := hw.journal transfer j h.found
    refine Or.inl ⟨transfer, j.completed (clock 0), ?_, rfl, fun k hk => ?_⟩
    · rw [ht, Tables.journal?_withJournal]
      exact if_pos hj.symm
    · rw [h.found] at hk
      cases hk; rw [h.pending]; exact nofun
  | closes hop h => exact Or.inr (h.tables ▸ ⟨rfl, fun _ => Or.inl rfl⟩)
  | transfers h =>
    refine Or.inl ⟨_, _, (h.journal? _).trans (if_pos rfl), rfl, fun k hk => ?_⟩
    rw [h.new] at hk; cases hk

namespace Ledger

variable {limits : DefaultLimits} {l : Ledger}

/-- What is transferred at once is completed when it is first seen. -/
theorem AtRest.status_transferNow (h : l.AtRest) {eligible : AccountNumber → Bool}
    {request : TransferRequest} {chance : Chance} {x : TransferId} {j : Journal}
    (hn : l.tables.journal? x = none)
    (hj : (l.next limits (.operate (.transferNow eligible request chance))).tables.journal? x =
      some j) : j.status = .completed := by
  unfold Ledger.next at hj
  rcases h.run_cases limits (.transferNow eligible request chance) with ⟨-, hc⟩ | ⟨-, hs⟩
  · cases hc with
    | transfers h =>
      rw [h.journal? x] at hj
      split at hj
      · cases hj; rfl
      · rw [hn] at hj; cases hj
    | closes hop => cases hop
  · rw [hs.tables, hn] at hj
    cases hj

/-! ## Reachable ledgers -/

theorem Reachable.follows_next (h : l.Reachable limits) (step : Step) :
    l.tables.Follows (l.next limits step).tables := by
  rcases h.atRest.next_cases limits step with ⟨op, v, -, -, hc⟩ | ⟨ht, -⟩
  · exact hc.follows h.atRest.wellFormed
  · rw [ht]; exact .refl _

theorem Reachable.follows (h : l.Reachable limits) (steps : List Step) :
    l.tables.Follows (l.after limits steps).tables := by
  induction steps generalizing l with
  | nil => exact .refl _
  | cons step steps ih => exact (h.follows_next step).trans (ih (h.next step))

/-- No transfer gets lost, its terms never change, and it ends once.  After that it stays as it
    is, and operations that would end it again are refused and change nothing.  A transfer that
    is made at once is never seen pending.  Balances and postings change only in a step in which
    a transfer is completed. -/
theorem Reachable.transfer_ends_once (h : l.Reachable limits) :
    (∀ steps x j, l.tables.journal? x = some j →
      ∃ j', (l.after limits steps).tables.journal? x = some j' ∧ j'.id = j.id ∧
        j'.terms = j.terms ∧ (j' = j ∨ j.status = .initiated ∧ j'.status ≠ .initiated)) ∧
    (∀ x j (op : Operation) action, l.tables.journal? x = some j → j.status ≠ .initiated →
      op.Resolves x action →
        (l.run (op.program limits)).1 =
            .error (.refused (.invalidStateTransition x j.status action)) ∧
          (l.run (op.program limits)).2.tables = l.tables ∧
          (l.run (op.program limits)).2.events = l.events) ∧
    (∀ eligible request chance x j, l.tables.journal? x = none →
      (l.next limits (.operate (.transferNow eligible request chance))).tables.journal? x =
          some j →
        j.status = .completed ∧ ∀ steps,
          ((l.next limits (.operate (.transferNow eligible request chance))).after limits
            steps).tables.journal? x = some j) ∧
    ∀ step, l.tables.HasCompleted (l.next limits step).tables ∨
      l.tables.SameBalances (l.next limits step).tables := by
  refine ⟨fun steps => h.follows steps, ?_, ?_, ?_⟩
  · intro x j op action hj hst hop
    obtain ⟨hr, hs⟩ := h.atRest.run_resolves_ended limits hop hj hst
    exact ⟨hr, hs.tables, hs.events⟩
  · intro eligible request chance x j hn hj
    have hc := h.atRest.status_transferNow hn hj
    refine ⟨hc, fun steps => ?_⟩
    obtain ⟨j', hj', hf⟩ := (h.next _).follows steps x j hj
    rw [hj', hf.eq_of_ended (by rw [hc]; exact nofun)]
  · intro step
    rcases h.atRest.next_cases limits step with ⟨op, v, -, -, hc⟩ | ⟨ht, -⟩
    · exact hc.hasCompleted_or_sameBalances h.atRest.wellFormed
    · rw [ht]; exact Or.inr ⟨rfl, fun _ => Or.inl rfl⟩

/-- In the short history, the transfer that was made at once cannot be cancelled later. -/
theorem Reachable.transfer_ends_once_short :
    (short.tables.journal? ⟨.ofNat 3⟩).map (fun j => j.status) = some .completed ∧
      (short.run (Program.cancel ⟨.ofNat 3⟩ "late" (.ofMillis 5000))).1 =
        .error (.refused (.invalidStateTransition ⟨.ofNat 3⟩ .completed .cancel)) := by
  have hst : (short.tables.journal? ⟨.ofNat 3⟩).map (fun j => j.status) = some .completed := by
    decide
  refine ⟨hst, ?_⟩
  obtain ⟨j, hj, hs⟩ := Option.map_eq_some_iff.1 hst
  obtain ⟨-, h, -⟩ := transfer_ends_once (⟨shortHistory, rfl⟩ : short.Reachable .standard)
  rw [← hs]
  exact (h _ j _ _ hj (by rw [hs]; exact nofun) (.cancel "late" (.ofMillis 5000))).1

end Ledger
end CreditCircle

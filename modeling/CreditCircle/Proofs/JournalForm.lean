/-
  The form of a journal.

  * `Step.Asks`, `Ledger.ReachableUnder`: histories in which one question decides throughout who
    may transact.
  * `Journal.Formed`: what is noted on a journal fits its status, and both parties may transact.
  * `Change.formed`: operations make and keep such journals.
  * `ReachableUnder.journals_sound`: all that can be said of any journal of a ledger.
-/
import CreditCircle.Proofs.Conservation
import CreditCircle.Proofs.Lifecycle

namespace CreditCircle

/-! ## Histories under one rule -/

/-- If the operation has to know who may transact, it asks `eligible`. -/
def Operation.Asks (eligible : AccountNumber → Bool) : Operation → Prop
  | .propose asked _ _ | .transferNow asked _ _ => asked = eligible
  | _ => True

/-- If the step has to know who may transact, it asks `eligible`. -/
def Step.Asks (eligible : AccountNumber → Bool) : Step → Prop
  | .arm _ => True
  | .operate op => op.Asks eligible

namespace Ledger

/-- Some steps, all of them under the rules, lead from the empty ledger to `l`. -/
def ReachableUnder (rules : Rules) (l : Ledger) : Prop :=
  ∃ steps : List Step, (∀ step ∈ steps, step.Asks rules.eligible) ∧
    Ledger.empty.after rules.limits steps = l

namespace ReachableUnder

variable {rules : Rules} {l : Ledger}

theorem reachable (h : l.ReachableUnder rules) : l.Reachable rules.limits := by
  obtain ⟨steps, -, hl⟩ := h
  exact ⟨steps, hl⟩

/-- What the empty ledger has and every step under the rules preserves. -/
theorem induct {P : Ledger → Prop} (empty : P .empty)
    (next : ∀ l step, l.Reachable rules.limits → step.Asks rules.eligible → P l →
      P (l.next rules.limits step))
    (h : l.ReachableUnder rules) : P l := by
  obtain ⟨steps, hsteps, rfl⟩ := h
  suffices ∀ (steps : List Step) (l : Ledger), (∀ step ∈ steps, step.Asks rules.eligible) →
      l.Reachable rules.limits → P l → P (l.after rules.limits steps) from
    this steps _ hsteps .empty empty
  intro steps
  induction steps with
  | nil => exact fun _ _ _ h => h
  | cons step steps ih =>
    intro l hsteps hr h
    rw [List.forall_mem_cons] at hsteps
    exact ih _ hsteps.2 (hr.next step) (next l step hr hsteps.1 h)

end ReachableUnder
end Ledger

/-! ## What is noted on a journal -/

/-- A time of completion is noted on the completed journals, a reason on the cancelled ones, and
    both parties may transact. -/
structure Journal.Formed (eligible : AccountNumber → Bool) (j : Journal) : Prop where
  completed : j.status = .completed ↔ j.completedAt.isSome
  cancelled : j.status = .cancelled ↔ j.reason.isSome
  sender : eligible j.sender = true
  receiver : eligible j.receiver = true

namespace Journal.Formed

variable {eligible : AccountNumber → Bool} {j : Journal} (h : j.Formed eligible)
  (hp : j.status = .initiated)
include h hp

theorem reason_of_pending : j.reason = none := by
  rw [← Option.not_isSome_iff_eq_none, ← h.cancelled, hp]; exact nofun

theorem completedAt_of_pending : j.completedAt = none := by
  rw [← Option.not_isSome_iff_eq_none, ← h.completed, hp]; exact nofun

/-- A pending journal has no reason, so the completed one has none either. -/
theorem complete (now : Timestamp) : (j.completed now).Formed eligible := by
  refine ⟨⟨fun _ => rfl, fun _ => rfl⟩, ⟨nofun, fun hr => ?_⟩, h.sender, h.receiver⟩
  rw [show (j.completed now).reason = none from h.reason_of_pending hp] at hr
  cases hr

/-- A pending journal has no time of completion, so the cancelled one has none either. -/
theorem cancel (reason : String) (now : Timestamp) : (j.cancelled reason now).Formed eligible := by
  refine ⟨⟨nofun, fun hc => ?_⟩, ⟨fun _ => rfl, fun _ => rfl⟩, h.sender, h.receiver⟩
  rw [show (j.cancelled reason now).completedAt = none from h.completedAt_of_pending hp] at hc
  cases hc

end Journal.Formed

/-- A request that is granted leads to a pending journal between parties who may transact. -/
theorem Grants.formed {eligible : AccountNumber → Bool} {request : TransferRequest}
    {chance : Chance} {l l' : Ledger} {j : Journal} (h : Grants eligible request chance l j l') :
    j.Formed eligible ∧ j.status = .initiated := by
  obtain ⟨-, -, -, hs, hr⟩ := TransferRequest.check_eq_ok_iff.1 h.valid
  rw [h.draft]
  exact ⟨⟨⟨nofun, nofun⟩, ⟨nofun, nofun⟩, hs, hr⟩, rfl⟩

/-! ## Tables -/

/-- All journals are formed. -/
def Tables.Formed (eligible : AccountNumber → Bool) (t : Tables) : Prop :=
  ∀ x j, t.journal? x = some j → j.Formed eligible

theorem Tables.Formed.withJournal {eligible : AccountNumber → Bool} {t : Tables} {j : Journal}
    (h : t.Formed eligible) (hj : j.Formed eligible) : (t.withJournal j).Formed eligible := by
  intro x k hk
  rw [Tables.journal?_withJournal] at hk
  split at hk
  · cases hk; exact hj
  · exact h x k hk

theorem Books.formed {eligible : AccountNumber → Bool} {l l' : Ledger} {j : Journal} {t : Tables}
    (h : Books l l' j t) (hl : l.tables.Formed eligible) : t.Formed eligible :=
  fun x k hk => hl x k (h.journal? x ▸ hk)

theorem Change.formed {limits : DefaultLimits} {eligible : AccountNumber → Bool} {l l' : Ledger}
    {op : Operation} (h : Change limits l l' op) (hop : op.Asks eligible)
    (hl : l.tables.Formed eligible) : l'.tables.Formed eligible := by
  cases h with
  | opens h =>
    obtain ⟨now, -, ht⟩ := h.tables
    rw [ht]; exact hl
  | relimits h => rw [h.tables]; exact hl
  | proposes h =>
    cases hop
    rw [h.tables]; exact hl.withJournal h.formed.1
  | completes h =>
    obtain ⟨t, hb, ht⟩ := h.tables
    rw [ht]; exact (hb.formed hl).withJournal ((hl _ _ h.found).complete h.pending _)
  | closes _ h =>
    rw [h.tables]; exact hl.withJournal ((hl _ _ h.found).cancel h.pending _ _)
  | transfers h =>
    cases hop
    obtain ⟨t, hb, ht⟩ := h.tables
    obtain ⟨hj, hp⟩ := h.formed
    rw [ht]; exact (hb.formed hl).withJournal (hj.complete hp _)

/-! ## Reachable ledgers -/

/-- All that holds of a journal of `t`: its parties are two accounts that exist and may transact,
    one of them asked for the transfer, the amount is positive and a whole number of cents, and
    the completed and the cancelled journals are those that say when and why. -/
structure Journal.Sound (eligible : AccountNumber → Bool) (t : Tables) (j : Journal) : Prop where
  parties : j.sender ≠ j.receiver
  sender : ∃ a ∈ t.accounts.values, a.number = j.sender
  receiver : ∃ a ∈ t.accounts.values, a.number = j.receiver
  eligible_sender : eligible j.sender = true
  eligible_receiver : eligible j.receiver = true
  initiator : j.initiator = j.sender ∨ j.initiator = j.receiver
  positive : 0 < j.amount.toRat
  cents : ∃ k : ℤ, j.amount.toRat = k / 100
  completed : j.status = .completed ↔ j.completedAt.isSome
  cancelled : j.status = .cancelled ↔ j.reason.isSome

/-- An account that a look-up finds is in the table, under its own number. -/
theorem Tables.WellFormed.exists_mem_accounts {t : Tables} (h : t.WellFormed) {n : AccountNumber}
    (ha : ∃ a, t.account? n = some a) : ∃ a ∈ t.accounts.values, a.number = n := by
  obtain ⟨a, ha⟩ := ha
  exact ⟨a, (Table.mem_values_iff _ _).2 ⟨n, ha⟩, h.account n a ha⟩

namespace Ledger

variable {rules : Rules} {l : Ledger}

theorem ReachableUnder.formed (h : l.ReachableUnder rules) : l.tables.Formed rules.eligible := by
  refine h.induct (P := fun l => l.tables.Formed rules.eligible) (fun _ _ hj => by cases hj)
    fun l step hr hstep hl => ?_
  rcases hr.atRest.next_cases rules.limits step with ⟨op, v, rfl, -, hc⟩ | ⟨ht, -⟩
  · exact hc.formed hstep hl
  · rw [ht]; exact hl

/-- Every journal of a ledger is sound, and it shares neither its key nor its transfer with
    another one. -/
theorem ReachableUnder.journals_sound (h : l.ReachableUnder rules) :
    (∀ j ∈ l.tables.journals.values, j.Sound rules.eligible l.tables) ∧
      (l.tables.journals.values.map Journal.id).Nodup ∧
      (l.tables.journals.values.map Journal.transfer).Nodup := by
  have hw := h.reachable.atRest.wellFormed
  have hd := h.reachable.doubleEntry
  refine ⟨fun j hj => ?_, hd.nodup_ids hw, Table.nodup_map_values hw.journal⟩
  obtain ⟨x, hx⟩ := (Table.mem_values_iff _ _).1 hj
  have hv := hw.valid x j hx
  have hf := h.formed x j hx
  have hpos := Decimal.toRat_lt_toRat.2 (checkAmount_eq_ok_iff.1 hv.amount).1
  rw [Decimal.toRat_zero] at hpos
  exact {
    parties := hv.parties
    sender := hw.exists_mem_accounts (hd.sender x j hx)
    receiver := hw.exists_mem_accounts (hd.receiver x j hx)
    eligible_sender := hf.sender
    eligible_receiver := hf.receiver
    initiator := hv.initiator
    positive := hpos
    cents := hv.isCents
    completed := hf.completed
    cancelled := hf.cancelled }

/-- After the short history and a withdrawal of the second offer, there is a completed journal
    and a cancelled one. -/
theorem ReachableUnder.journals_sound_short :
    let l := short.next .standard (.operate (.cancel ⟨.ofNat 4⟩ "changed my mind" (.ofMillis 0)))
    l.tables.journals.values.map (fun j => j.status) = [.completed, .cancelled] ∧
      (∀ j ∈ l.tables.journals.values, j.Sound (fun _ => true) l.tables) ∧
      (l.tables.journals.values.map Journal.id).Nodup ∧
      (l.tables.journals.values.map Journal.transfer).Nodup := by
  intro l
  have hsteps : ∀ step ∈ shortHistory ++
      [.operate (.cancel ⟨.ofNat 4⟩ "changed my mind" (.ofMillis 0))],
      step.Asks fun _ => true := by
    simp [shortHistory, Step.Asks, Operation.Asks]
  have hl : l.ReachableUnder (.open .standard) := ⟨_, hsteps, rfl⟩
  exact ⟨by decide, journals_sound hl⟩

end Ledger
end CreditCircle

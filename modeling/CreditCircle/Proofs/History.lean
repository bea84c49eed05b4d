/-
  Histories of a ledger.

  * `Operation`, `Step`, `Ledger.after`: what may happen to a ledger, in any order.
  * `Ledger.Reachable`: the ledgers that a history from the empty one leads to; `Ledger.short`
    is one of them.
  * `Change`: what a successful operation does, one case for each way to succeed;
    `Operation.Refused`: why it may fail.
  * `Tables.WellFormed`: rows stand under their own keys and journals are valid.
  * `next_cases`: every step makes a change or leaves tables and events as they are.
-/
import CreditCircle.Proofs.AccountOperations
import CreditCircle.Proofs.TransferOperations

namespace CreditCircle

/-! ## Histories -/

/-- An operation with all that it is given. -/
inductive Operation where
  | openAccount (entity : EntityId) (chance : Chance)
  | updateLimits (number : AccountNumber) (maxPos maxNeg : Decimal) (now : Timestamp)
  | propose (eligible : AccountNumber → Bool) (request : TransferRequest) (chance : Chance)
  | accept (transfer : TransferId) (clock : Clock)
  | reject (transfer : TransferId) (reason : String) (now : Timestamp)
  | cancel (transfer : TransferId) (reason : String) (now : Timestamp)
  | transferNow (eligible : AccountNumber → Bool) (request : TransferRequest) (chance : Chance)

namespace Operation

/-- What an operation results in. -/
@[reducible] def Result : Operation → Type
  | openAccount .. => Account
  | updateLimits .. => BalanceLimit
  | propose .. | accept .. | reject .. | cancel .. | transferNow .. => Journal

/-- The program of an operation on a ledger whose new accounts get `limits`. -/
def program (limits : DefaultLimits) : (op : Operation) → Program op.Result
  | openAccount entity chance => Program.openAccount limits entity chance
  | updateLimits number maxPos maxNeg now => Program.updateLimits number maxPos maxNeg now
  | propose eligible request chance => Program.propose ⟨limits, eligible⟩ request chance
  | accept transfer clock => Program.accept transfer clock
  | reject transfer reason now => Program.reject transfer reason now
  | cancel transfer reason now => Program.cancel transfer reason now
  | transferNow eligible request chance => Program.transferNow ⟨limits, eligible⟩ request chance

end Operation

/-- What may happen to a ledger: a failure is armed, or an operation is carried out. -/
inductive Step where
  | arm (point : FailPoint)
  | operate (op : Operation)

namespace Ledger

/-- The ledger after one step. -/
def next (limits : DefaultLimits) (l : Ledger) : Step → Ledger
  | .arm point => l.arm point
  | .operate op => (l.run (op.program limits)).2

/-- The ledger after some steps. -/
def after (limits : DefaultLimits) (l : Ledger) (steps : List Step) : Ledger :=
  steps.foldl (next limits) l

/-- Some steps lead from the empty ledger to `l`. -/
def Reachable (limits : DefaultLimits) (l : Ledger) : Prop :=
  ∃ steps, Ledger.empty.after limits steps = l

variable {limits : DefaultLimits} {l : Ledger}

theorem Reachable.empty : Ledger.empty.Reachable limits := ⟨[], rfl⟩

theorem Reachable.after (h : l.Reachable limits) (steps : List Step) :
    (l.after limits steps).Reachable limits := by
  obtain ⟨before, rfl⟩ := h
  exact ⟨before ++ steps, List.foldl_append⟩

theorem Reachable.next (h : l.Reachable limits) (step : Step) :
    (l.next limits step).Reachable limits := h.after [step]

/-- What the empty ledger has and every step preserves. -/
theorem Reachable.induct {P : Ledger → Prop} (empty : P .empty)
    (next : ∀ l step, l.Reachable limits → P l → P (l.next limits step))
    (h : l.Reachable limits) : P l := by
  obtain ⟨steps, rfl⟩ := h
  suffices ∀ (steps : List Step) (l : Ledger), l.Reachable limits → P l → P (l.after limits steps)
    from this steps _ .empty empty
  intro steps
  induction steps with
  | nil => exact fun _ _ h => h
  | cons step steps ih => exact fun l hr h => ih _ (hr.next step) (next l step hr h)

end Ledger

/-- What the `n`-th operation of `shortHistory` is given. -/
def Chance.nth (n : Nat) : Chance where
  entity := ⟨.ofNat n⟩
  numbers attempt := 10 * n + attempt
  transfer := ⟨.ofNat n⟩
  clock reading := .ofMillis (1000 * n + reading)

/-- Two members open accounts, the first one pays 5 to the second, and the second one offers to
    pay 7 to the first. -/
def shortHistory : List Step :=
  let first := AccountNumber.generate 10
  let second := AccountNumber.generate 20
  [.operate (.openAccount ⟨.ofNat 1⟩ (.nth 1)), .operate (.openAccount ⟨.ofNat 2⟩ (.nth 2)),
    .operate (.transferNow (fun _ => true) (.send first second (.ofNat 5)) (.nth 3)),
    .operate (.propose (fun _ => true) (.send second first (.ofNat 7)) (.nth 4))]

/-- The ledger after the short history. -/
def Ledger.short : Ledger := Ledger.empty.after .standard shortHistory

/-! ## Changes -/

/-- The operation may end a pending transfer unbooked, for the reason and on behalf of whom it
    says: a party asks for it, or the ledger does it instead of booking. -/
inductive Operation.Cancels : Operation → TransferId → String → Canceller → Timestamp → Prop
  | system (transfer : TransferId) (clock : Clock) (side : Side) :
      Cancels (.accept transfer clock) transfer (Program.systemReason side) .system (clock 0)
  | counterparty (transfer : TransferId) (reason : String) (now : Timestamp) :
      Cancels (.reject transfer reason now) transfer reason .counterparty now
  | initiator (transfer : TransferId) (reason : String) (now : Timestamp) :
      Cancels (.cancel transfer reason now) transfer reason .initiator now

/-- A success of an operation on `l`, which leads to `l'`. -/
inductive Change (limits : DefaultLimits) (l l' : Ledger) : Operation → Prop
  | opens {entity : EntityId} {chance : Chance} {a : Account}
      (h : Opens limits entity chance l a l') : Change limits l l' (.openAccount entity chance)
  | relimits {number : AccountNumber} {maxPos maxNeg : Decimal} {now : Timestamp}
      {limit : BalanceLimit} (h : Relimits number maxPos maxNeg now l limit l') :
      Change limits l l' (.updateLimits number maxPos maxNeg now)
  | proposes {eligible : AccountNumber → Bool} {request : TransferRequest} {chance : Chance}
      {j : Journal} (h : Proposes eligible request chance l j l') :
      Change limits l l' (.propose eligible request chance)
  | completes {transfer : TransferId} {clock : Clock} {j : Journal}
      (h : Completes transfer (clock 0) l j l') : Change limits l l' (.accept transfer clock)
  | closes {op : Operation} {transfer : TransferId} {reason : String} {canceller : Canceller}
      {now : Timestamp} {j : Journal} (hop : op.Cancels transfer reason canceller now)
      (h : Closes transfer reason canceller now l j l') : Change limits l l' op
  | transfers {eligible : AccountNumber → Bool} {request : TransferRequest} {chance : Chance}
      {j : Journal} (h : Transfers eligible request chance l j l') :
      Change limits l l' (.transferNow eligible request chance)

theorem Change.settled {limits : DefaultLimits} {l l' : Ledger} {op : Operation}
    (h : Change limits l l' op) : Settled l l' := by
  cases h with
  | opens h => exact h.toSettled
  | relimits h => exact h.toSettled
  | proposes h => exact h.toSettled
  | completes h => exact h.toSettled
  | closes hop h => exact h.toSettled
  | transfers h => exact h.toSettled

/-- The failures of an operation on `t`, those aside that were injected. -/
def Operation.Refused (t : Tables) : Operation → Failure LedgerError → Prop
  | .openAccount entity chance => OpenRefused entity chance t
  | .updateLimits number maxPos maxNeg now => LimitsRefused number maxPos maxNeg now t
  | .propose eligible request chance => RequestRefused eligible request chance t
  | .accept transfer _ => AcceptRefused transfer t
  | .reject transfer _ _ => PendingRefused transfer .reject t
  | .cancel transfer _ _ => PendingRefused transfer .cancel t
  | .transferNow eligible request chance => RequestRefused eligible request chance t

/-! ## Well-formed tables -/

/-- The transfer has a positive amount of whole cents, two parties, and was asked for by one of
    them. -/
structure Journal.Valid (j : Journal) : Prop where
  amount : checkAmount j.amount = .ok ()
  parties : j.sender ≠ j.receiver
  initiator : j.initiator = j.sender ∨ j.initiator = j.receiver

/-- Rows stand under their own keys, and all journals are valid. -/
structure Tables.WellFormed (t : Tables) : Prop where
  account : ∀ n a, t.account? n = some a → a.number = n
  limit : ∀ n limit, t.limit? n = some limit → limit.account = n
  journal : ∀ x j, t.journal? x = some j → j.transfer = x
  valid : ∀ x j, t.journal? x = some j → j.Valid

theorem Tables.WellFormed.empty : Tables.empty.WellFormed where
  account _ _ ha := by cases ha
  limit _ _ hl := by cases hl
  journal _ _ hj := by cases hj
  valid _ _ hj := by cases hj

namespace Tables.WellFormed

variable {t : Tables} (h : t.WellFormed)
include h

theorem found {x : TransferId} {j : Journal} (hj : t.journal? x = some j) :
    t.journal? j.transfer = some j := by
  rw [h.journal x j hj]; exact hj

theorem withLimit (limit : BalanceLimit) : (t.withLimit limit).WellFormed := by
  refine ⟨h.account, fun n lim hn => ?_, h.journal, h.valid⟩
  rw [limit?_withLimit] at hn
  split at hn
  · cases hn; exact Eq.symm ‹_›
  · exact h.limit n lim hn

theorem withAccount (a : Account) (limit : BalanceLimit) :
    (t.withAccount a limit).WellFormed := by
  refine ⟨fun n b hn => ?_, (h.withLimit limit).limit, h.journal, h.valid⟩
  rw [account?_withAccount] at hn
  split at hn
  · cases hn; exact Eq.symm ‹_›
  · exact h.account n b hn

theorem withJournal {j : Journal} (hj : j.Valid) : (t.withJournal j).WellFormed := by
  refine ⟨h.account, h.limit, fun x k hx => ?_, fun x k hx => ?_⟩ <;>
    rw [journal?_withJournal] at hx <;> split at hx
  · cases hx; exact Eq.symm ‹_›
  · exact h.journal x k hx
  · cases hx; exact hj
  · exact h.valid x k hx

theorem withNewJournal {j : Journal} (hj : j.Valid) : (t.withNewJournal j).WellFormed :=
  ⟨h.account, h.limit, (h.withJournal hj).journal, (h.withJournal hj).valid⟩

theorem withLegs {j : Journal} {payer payee : Account} (hs : payer.number = j.sender)
    (hr : payee.number = j.receiver) (p q : Posting) :
    (t.withLegs j payer payee p q).WellFormed := by
  refine ⟨fun n a hn => ?_, h.limit, h.journal, h.valid⟩
  rw [account?_withLegs] at hn
  split at hn
  · cases hn; rw [hr, ‹n = _›]
  · split at hn
    · cases hn; rw [hs, ‹n = _›]
    · exact h.account n a hn

end Tables.WellFormed

theorem Grants.journal_valid {eligible : AccountNumber → Bool} {request : TransferRequest}
    {chance : Chance} {l l' : Ledger} {j : Journal} (h : Grants eligible request chance l j l') :
    j.Valid := by
  obtain ⟨ha, hp, hi, -, -⟩ := TransferRequest.check_eq_ok_iff.1 h.valid
  rw [h.draft]
  exact ⟨ha, hp, hi⟩

theorem Books.wellFormed {l l' : Ledger} {j : Journal} {t : Tables} (h : Books l l' j t)
    (hw : l.tables.WellFormed) : t.WellFormed := by
  obtain ⟨parties, -, -⟩ := h
  have hs := hw.account _ _ parties.payer_row
  have hr := hw.account _ _ parties.payee_row
  refine hw.withLegs ?_ ?_ _ _
  · exact hs
  · exact hr

theorem Closes.wellFormed {transfer : TransferId} {reason : String} {canceller : Canceller}
    {now : Timestamp} {l l' : Ledger} {j : Journal}
    (h : Closes transfer reason canceller now l j l') (hw : l.tables.WellFormed) :
    l'.tables.WellFormed := by
  obtain ⟨ha, hp, hi⟩ := hw.valid _ _ h.found
  rw [h.tables]
  exact hw.withJournal ⟨ha, hp, hi⟩

theorem Change.wellFormed {limits : DefaultLimits} {l l' : Ledger} {op : Operation}
    (h : Change limits l l' op) (hw : l.tables.WellFormed) : l'.tables.WellFormed := by
  cases h with
  | opens h =>
    obtain ⟨now, -, ht⟩ := h.tables
    rw [ht]; exact hw.withAccount _ _
  | relimits h => rw [h.tables]; exact hw.withLimit _
  | proposes h => rw [h.tables]; exact hw.withNewJournal h.journal_valid
  | completes h =>
    obtain ⟨t, hb, ht⟩ := h.tables
    obtain ⟨ha, hp, hi⟩ := hw.valid _ _ h.found
    rw [ht]; exact (hb.wellFormed hw).withJournal ⟨ha, hp, hi⟩
  | closes hop h => exact h.wellFormed hw
  | transfers h =>
    obtain ⟨t, hb, ht⟩ := h.tables
    obtain ⟨ha, hp, hi⟩ := h.journal_valid
    rw [ht]; exact (hb.wellFormed hw).withNewJournal ⟨ha, hp, hi⟩

/-! ## Steps -/

/-- Between operations nothing is held, and the tables are well-formed. -/
structure Ledger.AtRest (l : Ledger) : Prop where
  held : l.store.held = []
  wellFormed : l.tables.WellFormed

section
variable (limits : DefaultLimits) {l : Ledger}

/-- An operation succeeds with a change, or fails for a known reason and leaves nothing behind. -/
theorem Ledger.AtRest.run_cases (h : l.AtRest) (op : Operation) :
    ((∃ v, (l.run (op.program limits)).1 = .ok v) ∧
        Change limits l (l.run (op.program limits)).2 op) ∨
      (∃ e, (l.run (op.program limits)).1 = .error e ∧
          (Program.Injected l e ∨ op.Refused l.tables e)) ∧
        Staged l (l.run (op.program limits)).2 .empty := by
  have key : ∀ {α : Type} {p : Program α} {good : α → Ledger → Prop},
      p.Attempts l (fun a l' u => u = .empty ∧ good a l') (op.Refused l.tables) l .empty →
      (∀ a l', good a l' → Change limits l l' op) →
      ((∃ v, (l.run p).1 = .ok v) ∧ Change limits l (l.run p).2 op) ∨
        (∃ e, (l.run p).1 = .error e ∧ (Program.Injected l e ∨ op.Refused l.tables e)) ∧
          Staged l (l.run p).2 .empty := by
    intro α p good hp hc
    rcases Program.run_of_attempts hp with ⟨a, l', hrun, hg⟩ | ⟨e, l', hrun, hs, he⟩
    · rw [hrun]; exact Or.inl ⟨⟨a, rfl⟩, hc a l' hg⟩
    · rw [hrun]; exact Or.inr ⟨⟨e, rfl, he⟩, hs⟩
  have hk := h.wellFormed.journal
  cases op with
  | openAccount entity chance =>
    exact key (Program.openAccount_attempts limits entity chance h.held) fun _ _ => .opens
  | updateLimits number maxPos maxNeg now =>
    exact key (Program.updateLimits_attempts h.held (h.wellFormed.limit number))
      fun _ _ => .relimits
  | propose eligible request chance =>
    exact key (@Program.propose_attempts l ⟨limits, eligible⟩ request chance h.held)
      fun _ _ => .proposes
  | accept transfer clock =>
    refine key (Program.accept_attempts h.held (hk transfer)
      fun j hj => (h.wellFormed.valid _ j hj).parties) ?_
    rintro _ l' ⟨j, ⟨-, hj⟩ | ⟨side, -, -, hj⟩⟩
    · exact .completes hj
    · exact .closes (.system _ _ side) hj
  | reject transfer reason now =>
    refine key (Program.close_attempts h.held (hk transfer)) ?_
    rintro _ l' ⟨j, -, hj⟩
    exact .closes (.counterparty _ _ _) hj
  | cancel transfer reason now =>
    refine key (Program.close_attempts h.held (hk transfer)) ?_
    rintro _ l' ⟨j, -, hj⟩
    exact .closes (.initiator _ _ _) hj
  | transferNow eligible request chance =>
    refine key (@Program.transferNow_attempts l ⟨limits, eligible⟩ request chance h.held) ?_
    rintro _ l' ⟨j, -, hj⟩
    exact .transfers hj

/-- To arm a failure changes nothing else. -/
theorem Ledger.exists_arm (l : Ledger) (point : FailPoint) :
    ∃ armed, l.arm point = { l with store := { l.store with armed } } := by
  unfold Ledger.arm Store.arm
  split
  · exact ⟨_, rfl⟩
  · exact ⟨_, rfl⟩

/-- A step makes a change, or leaves tables and events as they are. -/
theorem Ledger.AtRest.next_cases (h : l.AtRest) (step : Step) :
    (∃ op v, step = .operate op ∧ (l.run (op.program limits)).1 = .ok v ∧
        Change limits l (l.next limits step) op) ∨
      ((l.next limits step).tables = l.tables ∧ (l.next limits step).events = l.events ∧
        (l.next limits step).store.held = [] ∧
        l.store.sequences ≤ (l.next limits step).store.sequences) := by
  cases step with
  | arm point =>
    obtain ⟨armed, harm⟩ := l.exists_arm point
    rw [show l.next limits (.arm point) = _ from harm]
    exact Or.inr ⟨rfl, rfl, h.held, Sequences.le_refl _⟩
  | operate op =>
    rcases h.run_cases limits op with ⟨⟨v, hv⟩, hc⟩ | ⟨-, hs⟩
    · exact Or.inl ⟨op, v, rfl, hv, hc⟩
    · exact Or.inr ⟨hs.tables, hs.events, hs.held_eq_nil, hs.sequences⟩

theorem Ledger.AtRest.next (h : l.AtRest) (step : Step) : (l.next limits step).AtRest := by
  rcases h.next_cases limits step with ⟨op, v, -, -, hc⟩ | ⟨ht, -, hh, -⟩
  · exact ⟨hc.settled.held, hc.wellFormed h.wellFormed⟩
  · exact ⟨hh, ht ▸ h.wellFormed⟩

variable {limits}

theorem Ledger.Reachable.atRest (h : l.Reachable limits) : l.AtRest :=
  h.induct ⟨rfl, .empty⟩ fun _ step _ hl => hl.next limits step

end

end CreditCircle

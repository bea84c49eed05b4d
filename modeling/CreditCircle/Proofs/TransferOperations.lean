/-
  What the operations on transfers do.

  * `Parties`, `Legs`, `Books`: what is read of the two parties, and what is booked.
  * `Proposes`, `Closes`, `Completes`, `Transfers`: the effect of a successful operation.
  * `RequestRefused`, `PendingRefused`, `AcceptRefused`: why an operation may be refused.
  * `propose_attempts`, `accept_attempts`, `close_attempts`, `transferNow_attempts`: the
    operations have these effects or are refused for these reasons.
-/
import CreditCircle.Proofs.Commits

namespace CreditCircle

/-! ## Effects -/

/-- The accounts of the two parties of a transfer and their limits. -/
structure Parties (t : Tables) (sender receiver : AccountNumber)
    (payer payee : Account × BalanceLimit) : Prop where
  payer_row : t.account? sender = some payer.1
  payer_limit : t.limit? sender = some payer.2
  payee_row : t.account? receiver = some payee.1
  payee_limit : t.limit? receiver = some payee.2

theorem Parties.eq {t : Tables} {sender receiver : AccountNumber}
    {payer payee payer' payee' : Account × BalanceLimit}
    (h : Parties t sender receiver payer payee) (h' : Parties t sender receiver payer' payee') :
    payer = payer' ∧ payee = payee' := by
  obtain ⟨h₁, h₂, h₃, h₄⟩ := h
  obtain ⟨h₁', h₂', h₃', h₄'⟩ := h'
  exact ⟨Prod.ext (Option.some.inj (h₁.symm.trans h₁')) (Option.some.inj (h₂.symm.trans h₂')),
    Prod.ext (Option.some.inj (h₃.symm.trans h₃')) (Option.some.inj (h₄.symm.trans h₄'))⟩

/-- The two legs of the transfer `j`, with keys that are given out between `s` and `s'`. -/
structure Legs (s s' : Sequences) (j : Journal) (debit credit : Posting) : Prop
    extends j.HasLegs debit credit where
  new : s.posting < debit.id.value
  ordered : debit.id.value < credit.id.value
  counted : credit.id.value ≤ s'.posting

/-- The transfer `j` is booked on `l`, with new balances inside the limits; `l'` has counted its
    postings. -/
inductive Books (l l' : Ledger) (j : Journal) : Tables → Prop
  | intro {payer payee : Account × BalanceLimit} {balances : Decimal × Decimal}
      {debit credit : Posting} (parties : Parties l.tables j.sender j.receiver payer payee)
      (allowed : Program.newBalances payer payee j.amount = .ok balances)
      (legs : Legs l.store.sequences l'.store.sequences j debit credit) :
      Books l l' j (l.tables.withLegs j { payer.1 with balance := balances.1 }
        { payee.1 with balance := balances.2 } debit credit)

theorem Books.parties {l l' : Ledger} {j : Journal} {t : Tables} (h : Books l l' j t) :
    ∃ payer payee, Parties l.tables j.sender j.receiver payer payee := by
  obtain ⟨parties, -, -⟩ := h
  exact ⟨_, _, parties⟩

/-- What a request that is granted and given a new journal says about that journal. -/
structure Grants (eligible : AccountNumber → Bool) (request : TransferRequest) (chance : Chance)
    (l : Ledger) (j : Journal) (l' : Ledger) : Prop extends Settled l l' where
  valid : request.check eligible = .ok ()
  draft : j = (request.draft chance.transfer (chance.clock 0)).toJournal j.id
  new : l.tables.journal? j.transfer = none
  id_new : l.store.sequences.journal < j.id.value
  id_le : j.id.value ≤ l'.store.sequences.journal

/-- The request leads to the pending transfer `j`. -/
structure Proposes (eligible : AccountNumber → Bool) (request : TransferRequest) (chance : Chance)
    (l : Ledger) (j : Journal) (l' : Ledger) : Prop
    extends Grants eligible request chance l j l' where
  allowed : ∃ payer payee balances, Parties l.tables j.sender j.receiver payer payee ∧
    Program.newBalances payer payee j.amount = .ok balances
  tables : l'.tables = l.tables.withNewJournal j
  events : l'.events = l.events ++ [.proposed j]

/-- The request leads at once to a booked transfer; `j` is its journal before that. -/
structure Transfers (eligible : AccountNumber → Bool) (request : TransferRequest) (chance : Chance)
    (l : Ledger) (j : Journal) (l' : Ledger) : Prop
    extends Grants eligible request chance l j l' where
  tables : ∃ t, Books l l' j t ∧ l'.tables = t.withNewJournal (j.completed (chance.clock 3))
  events : l'.events = l.events ++ [.accepted (j.completed (chance.clock 3))]

/-- The pending transfer `j` ends unbooked. -/
structure Closes (transfer : TransferId) (reason : String) (canceller : Canceller)
    (now : Timestamp) (l : Ledger) (j : Journal) (l' : Ledger) : Prop extends Settled l l' where
  found : l.tables.journal? transfer = some j
  pending : j.status = .initiated
  tables : l'.tables = l.tables.withJournal (j.cancelled reason now)
  events : l'.events = l.events ++ [.cancelled (j.cancelled reason now) canceller]

/-- The pending transfer `j` is booked. -/
structure Completes (transfer : TransferId) (now : Timestamp) (l : Ledger) (j : Journal)
    (l' : Ledger) : Prop extends Settled l l' where
  found : l.tables.journal? transfer = some j
  pending : j.status = .initiated
  tables : ∃ t, Books l l' j t ∧ l'.tables = t.withJournal (j.completed now)
  events : l'.events = l.events ++ [.accepted (j.completed now)]

/-! ## Refusals -/

theorem TransferRequest.check_eq_ok_iff {r : TransferRequest} {eligible : AccountNumber → Bool} :
    r.check eligible = .ok () ↔ checkAmount r.amount = .ok () ∧ r.sender ≠ r.receiver ∧
      (r.initiator = r.sender ∨ r.initiator = r.receiver) ∧ eligible r.sender = true ∧
      eligible r.receiver = true := by
  unfold check
  cases checkAmount r.amount with
  | error e => exact ⟨nofun, nofun⟩
  | ok _ =>
    by_cases hp : r.sender = r.receiver
    · rw [if_pos hp]
      exact ⟨nofun, fun h => absurd hp h.2.1⟩
    rw [if_neg hp]
    by_cases hi : r.initiator ≠ r.sender ∧ r.initiator ≠ r.receiver
    · rw [if_pos hi]
      exact ⟨nofun, fun h => absurd h.2.2.1 (by simpa using hi)⟩
    rw [if_neg hi]
    have hi' : r.initiator = r.sender ∨ r.initiator = r.receiver := by
      by_cases h : r.initiator = r.sender
      · exact Or.inl h
      · exact Or.inr (Decidable.byContradiction fun h' => hi ⟨h, h'⟩)
    cases hs : eligible r.sender with
    | false => exact ⟨nofun, nofun⟩
    | true =>
      cases hr : eligible r.receiver with
      | false => exact ⟨nofun, nofun⟩
      | true => exact ⟨fun _ => ⟨rfl, hp, hi', rfl, rfl⟩, fun _ => rfl⟩

/-- The request is not valid, a row of a party is missing, a limit is in the way, or the
    identifier of the transfer is taken. -/
def RequestRefused (eligible : AccountNumber → Bool) (request : TransferRequest) (chance : Chance)
    (t : Tables) (e : Failure LedgerError) : Prop :=
  (∃ e', request.check eligible = .error e' ∧ e = .refused e') ∨
    (∃ e', (t.Lacks request.sender e' ∨ t.Lacks request.receiver e') ∧ e = .refused e') ∨
    (request.check eligible = .ok () ∧ ∃ payer payee,
      Parties t request.sender request.receiver payer payee ∧
        Program.newBalances payer payee request.amount = .error e) ∨
    (t.Takes (.transfer chance.transfer) ∧
      e = .refused (.duplicateKey (.transfer chance.transfer)))

/-- The transfer is not there or has already ended. -/
def PendingRefused (transfer : TransferId) (action : Action) (t : Tables)
    (e : Failure LedgerError) : Prop :=
  (t.journal? transfer = none ∧ e = .refused (.transferNotFound (.transfer transfer))) ∨
    ∃ j, t.journal? transfer = some j ∧ j.status ≠ .initiated ∧
      e = .refused (.invalidStateTransition transfer j.status action)

/-- The transfer is not pending, a row of a party is missing, or the new balances cannot be
    computed. -/
def AcceptRefused (transfer : TransferId) (t : Tables) (e : Failure LedgerError) : Prop :=
  PendingRefused transfer .accept t e ∨
    ∃ j, t.journal? transfer = some j ∧ j.status = .initiated ∧
      ((∃ e', (t.Lacks j.sender e' ∨ t.Lacks j.receiver e') ∧ e = .refused e') ∨
        ∃ payer payee, Parties t j.sender j.receiver payer payee ∧
          Program.newBalances payer payee j.amount = .error e)

namespace Program

open UnitOfWork (holding)

variable {l₀ l : Ledger} {u : UnitOfWork} {bad : Failure LedgerError → Prop}

/-! ## Parts of operations -/

theorem attempts_publish {event : Event} {good : Unit → Ledger → UnitOfWork → Prop}
    (h : good () { l with events := l.events ++ [event] } u) :
    (ask (.publish event)).Attempts l₀ good bad l u := ⟨_, _, _, rfl, h⟩

theorem attempts_checkBalance {sender receiver : AccountNumber} {amount : Decimal}
    {good : Unit → Ledger → UnitOfWork → Prop} (h : Staged l₀ l u)
    (hg : ∀ payer payee balances, Parties l₀.tables sender receiver payer payee →
      newBalances payer payee amount = .ok balances → good () l u)
    (hl : ∀ e, l₀.tables.Lacks sender e ∨ l₀.tables.Lacks receiver e → bad (.refused e))
    (hb : ∀ e payer payee, Parties l₀.tables sender receiver payer payee →
      newBalances payer payee amount = .error e → bad e) :
    (checkBalance sender receiver amount).Attempts l₀ good bad l u := by
  refine attempts_bind (attempts_findAccount h (fun payer h₁ => ?_) fun e he => hl e (Or.inl he))
  refine attempts_bind (attempts_findAccount h (fun payee h₂ => ?_) fun e he => hl e (Or.inr he))
  refine attempts_bind (attempts_findLimit h (fun limit h₃ => ?_) fun e he => hl e (Or.inl he))
  refine attempts_bind (attempts_findLimit h (fun limit' h₄ => ?_) fun e he => hl e (Or.inr he))
  have hp : Parties l₀.tables sender receiver (payer, limit) (payee, limit') := ⟨h₁, h₃, h₂, h₄⟩
  exact attempts_bind (attempts_compute h (fun balances hn => hg _ _ balances hp hn)
    fun e he => hb e _ _ hp he)

/-- Takes both rows, in whatever order. -/
theorem attempts_lockParties {sender receiver : AccountNumber} {keys : List RowKey}
    {good : (Account × BalanceLimit) × (Account × BalanceLimit) → Ledger → UnitOfWork → Prop}
    (h : Staged l₀ l (holding keys))
    (hg : ∀ payer payee keys' l', Parties l₀.tables sender receiver payer payee →
      (∀ k ∈ keys, k ∈ keys') → RowKey.account sender ∈ keys' → RowKey.account receiver ∈ keys' →
        Staged l₀ l' (holding keys') → good (payer, payee) l' (holding keys'))
    (hb : ∀ e, l₀.tables.Lacks sender e ∨ l₀.tables.Lacks receiver e → bad (.refused e)) :
    (lockParties sender receiver).Attempts l₀ good bad l (holding keys) := by
  unfold lockParties
  split
  · refine attempts_bind (attempts_lockAccount h (fun payer limit l₁ h₁ h₂ hs₁ => ?_)
      fun e he => hb e (Or.inl he))
    refine attempts_bind (attempts_lockAccount hs₁ (fun payee limit' l₂ h₃ h₄ hs₂ => ?_)
      fun e he => hb e (Or.inr he))
    exact hg _ _ _ l₂ ⟨h₁, h₂, h₃, h₄⟩
      (fun k hk => List.mem_insert_of_mem (List.mem_insert_of_mem hk))
      (List.mem_insert_of_mem List.mem_insert_self) List.mem_insert_self hs₂
  · refine attempts_bind (attempts_lockAccount h (fun payee limit' l₁ h₃ h₄ hs₁ => ?_)
      fun e he => hb e (Or.inr he))
    refine attempts_bind (attempts_lockAccount hs₁ (fun payer limit l₂ h₁ h₂ hs₂ => ?_)
      fun e he => hb e (Or.inl he))
    exact hg _ _ _ l₂ ⟨h₁, h₂, h₃, h₄⟩
      (fun k hk => List.mem_insert_of_mem (List.mem_insert_of_mem hk))
      List.mem_insert_self (List.mem_insert_of_mem List.mem_insert_self) hs₂

/-- Nothing that is armed gets in the way of reading parties that are there. -/
theorem ends_checkBalance {sender receiver : AccountNumber} {amount : Decimal} {post : Ending Unit}
    {payer payee : Account × BalanceLimit} (hp : Parties l.tables sender receiver payer payee)
    (hf : (compute (newBalances payer payee amount) >>= fun _ => pure ()).Ends post l u) :
    (checkBalance sender receiver amount).Ends post l u := by
  refine ends_bind (ends_bind ⟨_, _, _, rfl, ?_⟩)
  rw [hp.payer_row]
  refine ends_bind (ends_bind ⟨_, _, _, rfl, ?_⟩)
  rw [hp.payee_row]
  refine ends_bind (ends_bind ⟨_, _, _, rfl, ?_⟩)
  rw [hp.payer_limit]
  refine ends_bind (ends_bind ⟨_, _, _, rfl, ?_⟩)
  rw [hp.payee_limit]
  exact hf

theorem ends_lockParties {α : Type} {sender receiver : AccountNumber} {keys : List RowKey}
    {post : Ending α} {f : (Account × BalanceLimit) × (Account × BalanceLimit) → Program α}
    {payer payee : Account × BalanceLimit} (h : Staged l₀ l (holding keys))
    (hp : Parties l₀.tables sender receiver payer payee)
    (hf : ∀ l' keys', Staged l₀ l' (holding keys') →
      (f (payer, payee)).Ends post l' (holding keys')) :
    (lockParties sender receiver >>= f).Ends post l (holding keys) := by
  refine ends_bind ?_
  unfold lockParties
  split
  · refine ends_lockAccount h hp.payer_row hp.payer_limit fun l₁ h₁ => ?_
    exact ends_lockAccount h₁ hp.payee_row hp.payee_limit fun l₂ h₂ => hf l₂ _ h₂
  · refine ends_lockAccount h hp.payee_row hp.payee_limit fun l₁ h₁ => ?_
    exact ends_lockAccount h₁ hp.payer_row hp.payer_limit fun l₂ h₂ => hf l₂ _ h₂

/-- Stages both postings and both balances. -/
theorem attempts_book {j : Journal} {payer payee : Account} {balances : Decimal × Decimal}
    {debitTime creditTime : Timestamp} {good : Unit → Ledger → UnitOfWork → Prop}
    (h : Staged l₀ l u) (hs : u.OwnsAccount j.sender) (hr : u.OwnsAccount j.receiver)
    (hu : u.accounts = .empty) (hp : u.postings = []) (hne : j.sender ≠ j.receiver)
    (hpayer : l₀.tables.account? j.sender = some payer)
    (hpayee : l₀.tables.account? j.receiver = some payee)
    (hg : ∀ l' debit credit, Legs l₀.store.sequences l'.store.sequences j debit credit →
      l'.store.sequences.journal = l.store.sequences.journal →
      let u' := { u with
        accounts := (Table.empty.put j.sender { payer with balance := balances.1 }).put j.receiver
          { payee with balance := balances.2 }
        postings := [debit, credit] }
      Staged l₀ l' u' → good () l' u') :
    (book j balances debitTime creditTime).Attempts l₀ good bad l u := by
  obtain ⟨locks, accounts, newAccounts, limits, newLimits, journals, newJournals, postings⟩ := u
  dsimp only at hu hp hg
  subst hu hp
  have hle := h.sequences.2.2
  refine attempts_bind (attempts_insertPosting h ?_)
  intro l₁ hj₁ hp₁ debit u₁ h₁
  refine attempts_bind (attempts_insertPosting h₁ ?_)
  intro l₂ hj₂ hp₂ credit u₂ h₂
  refine attempts_bind (attempts_setBalance h₂ hs rfl hpayer fun h₃ => ?_)
  refine attempts_setBalance h₃ hr (Table.get?_put_of_ne _ _ (Ne.symm hne)) hpayee fun h₄ => ?_
  refine hg l₂ debit credit ⟨⟨rfl, rfl, rfl, rfl, rfl, rfl⟩, ?_, ?_, Nat.le_refl _⟩
    (hj₂.trans hj₁) h₄
  · show l₀.store.sequences.posting < l₁.store.sequences.posting; omega
  · show l₁.store.sequences.posting < l₂.store.sequences.posting; omega

/-- Stages the last change of a journal, commits and publishes. -/
theorem attempts_conclude {j : Journal} {event : Event}
    {good : Journal → Ledger → UnitOfWork → Prop} (h : Staged l₀ l u)
    (hu : u.OwnsJournal j.transfer)
    (hc : { u with journals := u.journals.put j.transfer j }.conflict? l₀.tables = none)
    (hg : ∀ l', l'.store.sequences = l.store.sequences → Settled l₀ l' →
      l'.tables = { u with journals := u.journals.put j.transfer j }.applyTo l₀.tables →
      l'.events = l₀.events ++ [event] → good j l' .empty) :
    (conclude j event).Attempts l₀ good bad l u := by
  refine attempts_bind (attempts_updateJournal h hu fun h₁ => ?_)
  refine attempts_bind (attempts_commit h₁ hc fun l₂ hs₂ hc₂ => ?_)
  refine attempts_bind (attempts_publish ?_)
  exact hg _ hs₂ ⟨hc₂.held, hc₂.sequences, hc₂.armed⟩ hc₂.tables (by rw [← hc₂.events])

/-! ## Operations -/

theorem propose_attempts {rules : Rules} {request : TransferRequest} {chance : Chance}
    (h : l.store.held = []) :
    (propose rules request chance).Attempts l
      (fun j l' u => u = .empty ∧ Proposes rules.eligible request chance l j l')
      (RequestRefused rules.eligible request chance l.tables) l .empty := by
  have h₀ := Staged.refl h
  refine attempts_bind (attempts_check h₀ (fun _ hv => ?_) fun e he => Or.inl ⟨e, he, rfl⟩)
  refine attempts_bind (attempts_checkBalance h₀ (fun payer payee balances hp hb => ?_)
    (fun e he => Or.inr (Or.inl ⟨e, he, rfl⟩))
    fun e payer payee hp he => Or.inr (Or.inr (Or.inl ⟨hv, payer, payee, hp, he⟩)))
  refine attempts_bind (attempts_insertJournal h₀ rfl ?_ fun ht =>
    Or.inr (Or.inr (Or.inr ⟨ht, rfl⟩)))
  intro l₁ id hn hid hle j u₁ h₁
  refine attempts_bind (attempts_commit h₁ ?_ fun l₂ hs₂ hc => ?_)
  · refine UnitOfWork.conflict?_eq_none _ rfl rfl fun transfer ht => ?_
    rcases List.mem_singleton.1 ht with rfl
    exact hn
  · refine attempts_bind (attempts_publish ⟨rfl,
      ⟨⟨hc.held, hc.sequences, hc.armed⟩, hv, rfl, hn, hid, ?_⟩, ⟨payer, payee, balances, hp, hb⟩,
      ?_, ?_⟩)
    · show id ≤ l₂.store.sequences.journal
      rw [hs₂]; exact hle
    · exact hc.tables.trans (UnitOfWork.applyTo_newJournal _ j)
    · show l₂.events ++ _ = _
      rw [hc.events]

theorem close_attempts {transfer : TransferId} {reason : String} {action : Action}
    {canceller : Canceller} {now : Timestamp} (h : l.store.held = [])
    (hk : ∀ j, l.tables.journal? transfer = some j → j.transfer = transfer) :
    (close transfer reason action canceller now).Attempts l
      (fun j' l' u => u = .empty ∧ ∃ j, j' = j.cancelled reason now ∧
        Closes transfer reason canceller now l j l')
      (PendingRefused transfer action l.tables) l .empty := by
  refine attempts_bind (attempts_lockPending (.refl h) (fun j l₁ hj hst h₁ => ?_) ?_)
  · refine attempts_conclude h₁ (Or.inr ?_) (UnitOfWork.conflict?_eq_none _ rfl rfl nofun)
      fun l₂ _ hset ht hev => ⟨rfl, j, rfl, hset, hj, hst, ?_, hev⟩
    · rw [show (j.cancelled reason now).transfer = transfer from hk j hj]
      exact List.mem_singleton_self _
    · exact ht.trans (UnitOfWork.applyTo_journal _ _ (j.cancelled reason now))
  · rintro e (⟨hn, rfl⟩ | ⟨j, hj, hst, rfl⟩)
    · exact Or.inl ⟨hn, rfl⟩
    · exact Or.inr ⟨j, hj, hst, rfl⟩

theorem accept_attempts {transfer : TransferId} {clock : Clock} (h : l.store.held = [])
    (hk : ∀ j, l.tables.journal? transfer = some j → j.transfer = transfer)
    (hne : ∀ j, l.tables.journal? transfer = some j → j.sender ≠ j.receiver) :
    (accept transfer clock).Attempts l
      (fun j' l' u => u = .empty ∧ ∃ j,
        (j' = j.completed (clock 0) ∧ Completes transfer (clock 0) l j l') ∨
        ∃ side, (∃ payer payee number room, Parties l.tables j.sender j.receiver payer payee ∧
            newBalances payer payee j.amount =
              .error (.refused (.limitExceeded side number room))) ∧
          j' = j.cancelled (systemReason side) (clock 0) ∧
          Closes transfer (systemReason side) .system (clock 0) l j l')
      (AcceptRefused transfer l.tables) l .empty := by
  refine attempts_bind (attempts_lockPending (.refl h) (fun j l₁ hj hst h₁ => ?_) ?_)
  · have ht : j.transfer = transfer := hk j hj
    refine attempts_bind (attempts_lockParties h₁ ?_ fun e he =>
      Or.inr ⟨j, hj, hst, Or.inl ⟨e, he, rfl⟩⟩)
    intro payer payee keys l₂ hp hkeys hs hr h₂
    have howned : RowKey.journal j.transfer ∈ keys :=
      hkeys _ (by rw [ht]; exact List.mem_singleton_self _)
    dsimp only
    split
    · rename_i balances hb
      refine attempts_bind (attempts_book h₂ (Or.inr hs) (Or.inr hr) rfl rfl (hne j hj)
        hp.payer_row hp.payee_row ?_)
      intro l₃ debit credit hlegs _ u₃ h₃
      refine attempts_conclude h₃ (Or.inr howned) (UnitOfWork.conflict?_eq_none _ rfl rfl nofun)
        fun l₄ hs₄ hset ht₄ hev => ⟨rfl, j, Or.inl ⟨rfl, hset, hj, hst, ?_, hev⟩⟩
      refine ⟨_, ⟨hp, hb, hs₄ ▸ hlegs⟩, ht₄.trans ?_⟩
      exact UnitOfWork.applyTo_legs _ (j := j.completed (clock 0)) _ _ _ _ _ (hne j hj)
    · rename_i side number room hb
      refine attempts_conclude h₂ (Or.inr howned) (UnitOfWork.conflict?_eq_none _ rfl rfl nofun)
        fun l₃ _ hset ht₃ hev => ⟨rfl, j, Or.inr ⟨side, ⟨payer, payee, number, room, hp, hb⟩, rfl,
          hset, hj, hst, ?_, hev⟩⟩
      exact ht₃.trans (UnitOfWork.applyTo_journal _ _ (j.cancelled _ _))
    · rename_i failure _ hb
      exact attempts_fail h₂ (Or.inr ⟨j, hj, hst, Or.inr ⟨payer, payee, hp, hb⟩⟩)
  · rintro e (⟨hn, rfl⟩ | ⟨j, hj, hst, rfl⟩)
    · exact Or.inl (Or.inl ⟨hn, rfl⟩)
    · exact Or.inl (Or.inr ⟨j, hj, hst, rfl⟩)

theorem transferNow_attempts {rules : Rules} {request : TransferRequest} {chance : Chance}
    (h : l.store.held = []) :
    (transferNow rules request chance).Attempts l
      (fun j' l' u => u = .empty ∧ ∃ j, j' = j.completed (chance.clock 3) ∧
        Transfers rules.eligible request chance l j l')
      (RequestRefused rules.eligible request chance l.tables) l .empty := by
  have h₀ := Staged.refl h
  refine attempts_bind (attempts_check h₀ (fun _ hv => ?_) fun e he => Or.inl ⟨e, he, rfl⟩)
  have hne := (TransferRequest.check_eq_ok_iff.1 hv).2.1
  refine attempts_bind (attempts_lockParties h₀ ?_ fun e he =>
    Or.inr (Or.inl ⟨e, he, rfl⟩))
  intro payer payee keys l₁ hp _ hs hr h₁
  refine attempts_bind (attempts_compute h₁ (fun balances hb => ?_) fun e he =>
    Or.inr (Or.inr (Or.inl ⟨hv, payer, payee, hp, he⟩)))
  refine attempts_bind (attempts_insertJournal h₁ rfl ?_ fun ht =>
    Or.inr (Or.inr (Or.inr ⟨ht, rfl⟩)))
  intro l₂ id hn hid hle j u₂ h₂
  refine attempts_bind (attempts_book h₂ (Or.inr hs) (Or.inr hr) rfl rfl hne
    hp.payer_row hp.payee_row ?_)
  intro l₃ debit credit hlegs hj₃ u₃ h₃
  refine attempts_conclude h₃ (Or.inl (List.mem_singleton_self _)) ?_ ?_
  · refine UnitOfWork.conflict?_eq_none _ rfl rfl fun transfer ht => ?_
    rcases List.mem_singleton.1 ht with rfl
    exact hn
  · refine fun l₄ hs₄ hset ht₄ hev => ⟨rfl, j, rfl, ⟨hset, hv, rfl, hn, hid, ?_⟩, ?_, hev⟩
    · rw [hs₄, hj₃]; exact hle
    · refine ⟨_, ⟨hp, hb, hs₄ ▸ hlegs⟩, ht₄.trans ?_⟩
      have hput : u₃.journals.put j.transfer (j.completed (chance.clock 3)) = _ :=
        Table.put_put _ _ _ _
      show UnitOfWork.applyTo { u₃ with journals := u₃.journals.put j.transfer _ } _ = _
      rw [hput]
      exact UnitOfWork.applyTo_newLegs _ (j := j.completed (chance.clock 3)) _ _ _ _ _ hne

end Program
end CreditCircle

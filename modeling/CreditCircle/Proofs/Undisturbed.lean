/-
  Programs that nothing gets in the way of: nobody holds a row and no failure is armed.

  * `Ledger.Calm`, `Ledger.calm`: such ledgers.
  * `Ledger.provided`: goes on with a value; a failure leaves the ledger as it is.
  * `Program.alone`: what the rest of an operation comes to.
  * `alone_lockAccount`, …, `alone_conclude`: one equation for each call and for each part of an
    operation.
-/
import CreditCircle.Proofs.Dealings
import CreditCircle.Proofs.Verdict

namespace CreditCircle

/-! ## Calm ledgers -/

/-- Nobody holds a row and no failure is armed. -/
structure Ledger.Calm (l : Ledger) : Prop where
  held : l.store.held = []
  armed : l.store.armed = []

/-- The calm ledger with the given rows, counters and events. -/
def Ledger.calm (t : Tables) (s : Sequences) (events : List Event) : Ledger :=
  ⟨⟨t, [], s, []⟩, events⟩

theorem Ledger.Calm.eq {l : Ledger} (h : l.Calm) :
    l = .calm l.tables l.store.sequences l.events := by
  obtain ⟨⟨tables, held, sequences, armed⟩, events⟩ := l
  obtain ⟨hh, ha⟩ := h
  dsimp only at hh ha
  rw [hh, ha]
  rfl

/-- Goes on with a value, provided there is one.  A failure leaves the ledger as it is. -/
def Ledger.provided {α β : Type} (l : Ledger) (found : Except (Failure LedgerError) β)
    (next : β → Except (Failure LedgerError) α × Ledger) :
    Except (Failure LedgerError) α × Ledger :=
  match found with
  | .ok b => next b
  | .error e => (.error e, l)

theorem Ledger.provided_of_error {α β : Type} {l : Ledger}
    {found : Except (Failure LedgerError) β} {e : Failure LedgerError} (h : found = .error e)
    (next : β → Except (Failure LedgerError) α × Ledger) :
    l.provided found next = (.error e, l) := by
  rw [h]; rfl

theorem Ledger.provided_congr {α β : Type} {l : Ledger} {found : Except (Failure LedgerError) β}
    {next next' : β → Except (Failure LedgerError) α × Ledger}
    (h : ∀ b, found = .ok b → next b = next' b) :
    l.provided found next = l.provided found next' := by
  cases found with
  | ok b => exact h b rfl
  | error e => rfl

theorem Ledger.provided_bind {α β γ : Type} (l : Ledger) (found : Except (Failure LedgerError) β)
    (f : β → Except (Failure LedgerError) γ)
    (next : γ → Except (Failure LedgerError) α × Ledger) :
    l.provided (found >>= f) next = l.provided found fun b => l.provided (f b) next := by
  cases found with
  | ok b => rfl
  | error e => rfl
namespace Program

variable {α β : Type} {u v : UnitOfWork} {t t' : Tables} {s s' : Sequences} {es es' : List Event}
  {keys : List RowKey}

open UnitOfWork (holding)

/-! ## Calls -/

/-- What the rest of an operation comes to whose unit of work `u` is the only one that is open,
    while no failure is armed. -/
def alone (p : Program α) (u : UnitOfWork) (t : Tables) (s : Sequences) (es : List Event) :
    Except (Failure LedgerError) α × Ledger :=
  let (worker, l) := Worker.advance p u ⟨⟨t, u.locks, s, []⟩, es⟩
  (worker.outcome, l)

theorem run_calm (p : Program α) : (Ledger.calm t s es).run p = p.alone .empty t s es := rfl

theorem release_locks (keys : List RowKey) :
    (⟨t, keys, s, []⟩ : Store).release keys = ⟨t, [], s, []⟩ := by
  simp [Store.release]

theorem alone_done (a : α) : (done a).alone u t s es = (.ok a, .calm t s es) := by
  simp [alone, Worker.advance, Worker.settle, Worker.outcome, release_locks, Ledger.calm]

theorem alone_fail (e : Failure LedgerError) :
    (fail e : Program α).alone u t s es = (.error e, .calm t s es) := by
  simp [alone, Worker.advance, Worker.settle, Worker.outcome, release_locks, Ledger.calm]

theorem alone_ask {c : Call} {f : c.Reply → Program α} {reply : c.Reply}
    (hc : c.perform ⟨⟨t, u.locks, s, []⟩, es⟩ u =
      some (.ok reply, ⟨⟨t', v.locks, s', []⟩, es'⟩, v)) :
    (ask c >>= f).alone u t s es = (f reply).alone v t' s' es' := by
  show (call c fun r => _).alone u t s es = _
  simp only [alone, Worker.advance, hc]
  rfl

theorem alone_ask_refused {c : Call} {f : c.Reply → Program α} {e : LedgerError}
    (hc : c.perform ⟨⟨t, u.locks, s, []⟩, es⟩ u =
      some (.error e, ⟨⟨t, u.locks, s, []⟩, es⟩, u)) :
    (ask c >>= f).alone u t s es = (.error (.refused e), .calm t s es) := by
  have hfail : (fail (.refused e) : Program α).alone u t s es = _ := alone_fail _
  refine Eq.trans ?_ hfail
  show (call c fun r => _).alone u t s es = _
  simp only [alone, Worker.advance, hc]
  rfl

theorem alone_require (e : LedgerError) (found : Option β) (f : β → Program α) :
    (require e found >>= f).alone u t s es =
      (Ledger.calm t s es).provided (Content.need e found) fun b => (f b).alone u t s es := by
  cases found with
  | some b => rfl
  | none => exact alone_fail _

theorem alone_check (r : Except LedgerError β) (f : β → Program α) :
    (check r >>= f).alone u t s es =
      (Ledger.calm t s es).provided (r.mapError .refused) fun b => (f b).alone u t s es := by
  cases r with
  | ok b => rfl
  | error e => exact alone_fail _

theorem alone_compute (r : Except (Failure LedgerError) β) (f : β → Program α) :
    (compute r >>= f).alone u t s es =
      (Ledger.calm t s es).provided r fun b => (f b).alone u t s es := by
  cases r with
  | ok b => rfl
  | error e => exact alone_fail e

/-! ### Reads -/

theorem alone_findAccount (number : AccountNumber) (f : Account → Program α) :
    (findAccount number >>= f).alone u t s es =
      (Ledger.calm t s es).provided (Content.need (.accountNotFound (.number number))
        (t.account? number)) fun a => (f a).alone u t s es := by
  unfold findAccount
  rw [bind_assoc, alone_ask (v := u) rfl, alone_require]
  rfl

theorem alone_findLimit (number : AccountNumber) (f : BalanceLimit → Program α) :
    (findLimit number >>= f).alone u t s es =
      (Ledger.calm t s es).provided (Content.need (.accountNotFound (.limitOf number))
        (t.limit? number)) fun limit => (f limit).alone u t s es := by
  unfold findLimit
  rw [bind_assoc, alone_ask (v := u) rfl, alone_require]
  rfl

theorem lock_alone (key : RowKey) :
    UnitOfWork.lock ⟨t, keys, s, []⟩ (holding keys) key =
      some (⟨t, keys.insert key, s, []⟩, holding (keys.insert key)) := by
  unfold UnitOfWork.lock
  by_cases hk : key ∈ keys
  · rw [if_pos (show key ∈ (holding keys).locks from hk), List.insert_of_mem hk]
  · rw [if_neg (show key ∉ (holding keys).locks from hk), if_neg (show key ∉ keys from hk),
      List.insert_of_not_mem hk]
    rfl

/-- Takes an account and reads its limits. -/
theorem alone_lockAccount (number : AccountNumber) (f : Account × BalanceLimit → Program α) :
    (lockAccount number >>= f).alone (holding keys) t s es =
      (Ledger.calm t s es).provided (t.content.row number) fun row =>
        (f row).alone (holding (keys.insert (.account number))) t s es := by
  have hc : (Call.lockAccount number).perform ⟨⟨t, keys, s, []⟩, es⟩ (holding keys) =
      some (.ok (t.account? number), ⟨⟨t, keys.insert (.account number), s, []⟩, es⟩,
        holding (keys.insert (.account number))) := by
    have hr : UnitOfWork.lockAccount ⟨t, keys, s, []⟩ (holding keys) number =
        UnitOfWork.lock ⟨t, keys, s, []⟩ (holding keys) (.account number) :=
      if_neg List.not_mem_nil
    simp only [Call.perform, Call.ofLock, hr, lock_alone, Option.map_some]
    simp [UnitOfWork.account?, holding, UnitOfWork.empty]
  unfold lockAccount Content.row
  rw [bind_assoc, alone_ask (u := holding keys) (v := holding (keys.insert (.account number))) hc,
    bind_assoc, alone_require, Ledger.provided_bind]
  congr 1
  funext a
  rw [bind_assoc, alone_ask (v := holding (keys.insert (.account number))) rfl, bind_assoc,
    alone_require, Ledger.provided_bind]
  rfl

/-- The rows held after both parties have been taken. -/
def heldBy (keys : List RowKey) (sender receiver : AccountNumber) : List RowKey :=
  if sender ≤ receiver then (keys.insert (.account sender)).insert (.account receiver)
  else (keys.insert (.account receiver)).insert (.account sender)

theorem mem_heldBy_iff {keys : List RowKey} {sender receiver : AccountNumber} {key : RowKey} :
    key ∈ heldBy keys sender receiver ↔
      key = .account sender ∨ key = .account receiver ∨ key ∈ keys := by
  unfold heldBy
  split
  · simp only [List.mem_insert_iff]; tauto
  · simp only [List.mem_insert_iff]

theorem owns_heldBy (keys : List RowKey) (sender receiver : AccountNumber) :
    (holding (heldBy keys sender receiver)).OwnsAccount sender ∧
      (holding (heldBy keys sender receiver)).OwnsAccount receiver := by
  refine ⟨Or.inr ?_, Or.inr ?_⟩
  · exact mem_heldBy_iff.2 (Or.inl rfl)
  · exact mem_heldBy_iff.2 (Or.inr (Or.inl rfl))

theorem alone_lockParties (sender receiver : AccountNumber)
    (f : (Account × BalanceLimit) × (Account × BalanceLimit) → Program α) :
    (lockParties sender receiver >>= f).alone (holding keys) t s es =
      (Ledger.calm t s es).provided (t.content.parties sender receiver) fun rows =>
        (f rows).alone (holding (heldBy keys sender receiver)) t s es := by
  unfold lockParties Content.parties heldBy
  split
  · rw [bind_assoc, alone_lockAccount, Ledger.provided_bind]
    congr 1
    funext payer
    rw [bind_assoc, alone_lockAccount, Ledger.provided_bind]
    rfl
  · rw [bind_assoc, alone_lockAccount, Ledger.provided_bind]
    congr 1
    funext payee
    rw [bind_assoc, alone_lockAccount, Ledger.provided_bind]
    rfl

/-! ### Writes -/

theorem alone_insertAccount (number : AccountNumber) (entity : EntityId) (now : Timestamp)
    (f : Account → Program α) :
    (ask (.insertAccount number entity now) >>= f).alone .empty t s es =
      (Ledger.calm t s es).provided (t.admits number entity) fun _ =>
        (f (.opened ⟨s.account + 1⟩ number entity now)).alone { UnitOfWork.empty with
          accounts := Table.empty.put number (.opened ⟨s.account + 1⟩ number entity now)
          newAccounts := [number] } t { s with account := s.account + 1 } es := by
  unfold Tables.admits
  split
  · rename_i hn
    have hn' : t.accounts.has number = true := hn
    refine alone_ask_refused ?_
    simp only [Call.perform, UnitOfWork.insertAccount]
    rw [guarded_eq rfl, if_pos (Or.inr hn')]
    rfl
  · rename_i hn
    have hn' : ¬ (UnitOfWork.empty.accounts.has number = true ∨ t.accounts.has number = true) :=
      not_or.2 ⟨Bool.false_ne_true, hn⟩
    split
    · rename_i he
      have he' : t.entityAccounts.has entity = true := he
      refine alone_ask_refused ?_
      simp only [Call.perform, UnitOfWork.insertAccount]
      rw [guarded_eq rfl, if_neg hn', if_pos (Or.inl he')]
      rfl
    · rename_i he
      have he' : ¬ (t.entityAccounts.has entity = true ∨
          UnitOfWork.empty.accounts.values.any (fun a => a.entity = entity) = true) :=
        not_or.2 ⟨he, Bool.false_ne_true⟩
      refine alone_ask ?_
      simp only [Call.perform, UnitOfWork.insertAccount]
      rw [guarded_eq rfl, if_neg hn', if_neg he']
      rfl

theorem alone_insertLimit {limit : BalanceLimit} (hu : u.limits = .empty)
    (hn : t.limit? limit.account = none) (f : Unit → Program α) :
    (ask (.insertLimit limit) >>= f).alone u t s es =
      (f ()).alone { u with
        limits := Table.empty.put limit.account limit
        newLimits := u.newLimits ++ [limit.account] } t s es := by
  refine alone_ask ?_
  simp only [Call.perform, UnitOfWork.insertLimit]
  rw [guarded_eq rfl, if_neg, hu]
  · rfl
  · rw [hu]
    refine not_or.2 ⟨Bool.false_ne_true, ?_⟩
    rw [show t.limits.has limit.account = false from Table.has_eq_false hn]
    exact Bool.false_ne_true

theorem alone_insertPosting (account : AccountNumber) (journal : JournalId) (amount : Decimal)
    (now : Timestamp) (f : Posting → Program α) :
    (ask (.insertPosting account journal amount now) >>= f).alone u t s es =
      (f ⟨⟨s.posting + 1⟩, account, journal, amount, now⟩).alone
        { u with postings := u.postings ++ [⟨⟨s.posting + 1⟩, account, journal, amount, now⟩] } t
        { s with posting := s.posting + 1 } es := by
  refine alone_ask ?_
  simp only [Call.perform, UnitOfWork.insertPosting]
  rw [guarded_eq rfl]
  rfl

theorem alone_setBalance {number : AccountNumber} {balance : Decimal} {a : Account}
    (hu : u.OwnsAccount number) (hn : u.accounts.get? number = none)
    (ha : t.account? number = some a) (f : Unit → Program α) :
    (ask (.setBalance number balance) >>= f).alone u t s es =
      (f ()).alone { u with accounts := u.accounts.put number { a with balance } } t s es := by
  refine alone_ask ?_
  have hr : u.account? ⟨t, u.locks, s, []⟩ number = some a := by
    rw [UnitOfWork.account?, hn]; exact ha
  simp only [Call.perform, UnitOfWork.setBalance]
  rw [guarded_eq rfl, if_pos hu, hr]
  rfl

theorem alone_insertJournal {draft : JournalDraft} (hu : u.journals = .empty)
    (f : Journal → Program α) :
    (ask (.insertJournal draft) >>= f).alone u t s es =
      (Ledger.calm t s es).provided (t.claim draft.transfer) fun _ =>
        (f (draft.toJournal ⟨s.journal + 1⟩)).alone { u with
          journals := Table.empty.put draft.transfer (draft.toJournal ⟨s.journal + 1⟩)
          newJournals := u.newJournals ++ [draft.transfer] } t
          { s with journal := s.journal + 1 } es := by
  have htaken : (u.journals.has draft.transfer = true ∨ t.journals.has draft.transfer = true) ↔
      (t.journal? draft.transfer).isSome = true := by
    rw [hu]
    exact ⟨fun h => h.resolve_left Bool.false_ne_true, Or.inr⟩
  unfold Tables.claim
  split
  · rename_i hx
    refine alone_ask_refused ?_
    simp only [Call.perform, UnitOfWork.insertJournal]
    rw [guarded_eq rfl, if_pos (htaken.2 hx)]
    rfl
  · rename_i hx
    refine alone_ask ?_
    simp only [Call.perform, UnitOfWork.insertJournal]
    rw [guarded_eq rfl, if_neg (mt htaken.1 hx), hu]
    rfl

theorem alone_updateJournal {j : Journal} (hu : u.OwnsJournal j.transfer) (f : Unit → Program α) :
    (ask (.updateJournal j) >>= f).alone u t s es =
      (f ()).alone { u with journals := u.journals.put j.transfer j } t s es := by
  refine alone_ask ?_
  simp only [Call.perform, UnitOfWork.updateJournal]
  rw [guarded_eq rfl, if_pos hu]
  rfl

theorem alone_updateLimit {limit : BalanceLimit} (hu : u.OwnsAccount limit.account)
    (f : Unit → Program α) :
    (ask (.updateLimit limit) >>= f).alone u t s es =
      (f ()).alone { u with limits := u.limits.put limit.account limit } t s es := by
  refine alone_ask ?_
  simp only [Call.perform, UnitOfWork.updateLimit]
  rw [if_pos hu]
  rfl

/-! ### The end -/

theorem alone_commit (hu : u.conflict? t = none) (f : Unit → Program α) :
    (ask .commit >>= f).alone u t s es = (f ()).alone .empty (u.applyTo t) s es := by
  refine alone_ask ?_
  simp only [Call.perform, UnitOfWork.commit]
  rw [if_neg List.not_mem_nil, hu]
  show Call.ofAnswer _ (_, Store.release ⟨u.applyTo t, u.locks, s, []⟩ u.locks, _) = _
  rw [release_locks]
  rfl

theorem alone_publish (event : Event) (f : Unit → Program α) :
    (ask (.publish event) >>= f).alone u t s es = (f ()).alone u t s (es ++ [event]) :=
  alone_ask rfl

/-! ## Parts of operations -/

theorem alone_checkBalance (sender receiver : AccountNumber) (amount : Decimal)
    (f : Unit → Program α) :
    (checkBalance sender receiver amount >>= f).alone u t s es =
      (Ledger.calm t s es).provided (t.content.glance sender receiver) fun rows =>
        (Ledger.calm t s es).provided (newBalances rows.1 rows.2 amount) fun _ =>
          (f ()).alone u t s es := by
  unfold checkBalance Content.glance
  simp only [bind_assoc, alone_findAccount, alone_findLimit, alone_compute, Ledger.provided_bind]
  rfl

/-- Takes a transfer that is still pending. -/
theorem alone_lockPending (x : TransferId) (action : Action) (f : Journal → Program α) :
    (lockPending x action >>= f).alone (holding keys) t s es =
      (Ledger.calm t s es).provided (t.pending x action) fun j =>
        (f j).alone (holding (keys.insert (.journal x))) t s es := by
  have hc : (Call.lockJournal x).perform ⟨⟨t, keys, s, []⟩, es⟩ (holding keys) =
      some (.ok (t.journal? x), ⟨⟨t, keys.insert (.journal x), s, []⟩, es⟩,
        holding (keys.insert (.journal x))) := by
    have hr : UnitOfWork.lockJournal ⟨t, keys, s, []⟩ (holding keys) x =
        UnitOfWork.lock ⟨t, keys, s, []⟩ (holding keys) (.journal x) := if_neg Bool.false_ne_true
    simp only [Call.perform, Call.ofLock, hr, lock_alone, Option.map_some]
    simp [UnitOfWork.journal?, holding, UnitOfWork.empty]
  unfold lockPending Tables.pending
  rw [bind_assoc, alone_ask (u := holding keys) (v := holding (keys.insert (.journal x))) hc,
    bind_assoc, alone_require, Ledger.provided_bind]
  congr 1
  funext j
  cases hj : j.status.isTerminal with
  | false => rfl
  | true => exact alone_fail _

theorem alone_book {j : Journal} {payer payee : Account} (hs : u.OwnsAccount j.sender)
    (hr : u.OwnsAccount j.receiver) (hu : u.accounts = .empty) (hp : u.postings = [])
    (hne : j.sender ≠ j.receiver) (hpayer : t.account? j.sender = some payer)
    (hpayee : t.account? j.receiver = some payee) (balances : Decimal × Decimal)
    (debitTime creditTime : Timestamp) (f : Unit → Program α) :
    (book j balances debitTime creditTime >>= f).alone u t s es =
      (f ()).alone { u with
        accounts := (Table.empty.put j.sender { payer with balance := balances.1 }).put j.receiver
          { payee with balance := balances.2 }
        postings := [j.debit s debitTime, j.credit s creditTime] } t
        { s with posting := s.posting + 2 } es := by
  obtain ⟨locks, accounts, newAccounts, limits, newLimits, journals, newJournals, postings⟩ := u
  dsimp only at hu hp
  subst hu hp
  unfold book
  simp only [bind_assoc]
  rw [alone_insertPosting, alone_insertPosting, alone_setBalance (a := payer),
    alone_setBalance (a := payee)]
  · rfl
  · exact hr
  · exact Table.get?_put_of_ne _ _ (Ne.symm hne)
  · exact hpayee
  · exact hs
  · rfl
  · exact hpayer

theorem alone_conclude {j : Journal} {event : Event} (hu : u.OwnsJournal j.transfer)
    (hc : { u with journals := u.journals.put j.transfer j }.conflict? t = none)
    (ht : { u with journals := u.journals.put j.transfer j }.applyTo t = t') :
    (conclude j event).alone u t s es = (.ok j, .calm t' s (es ++ [event])) := by
  unfold conclude
  rw [alone_updateJournal hu, alone_commit hc, alone_publish, ht]
  exact alone_done j

end Program
end CreditCircle

/-
  An operation among others.

  Between two calls of an operation others may change everything but the rows that it has
  locked.  What it has read is therefore still true when it commits, and if it fails, it fails
  for a reason that held when it took its last lock.

  * `Tables.Persists`: the locked rows are as they were.
  * `Footing`, `Footing.Holds`: what an operation can rely on between two calls.
  * `Fulfils`: what its commit has to do.
  * `Program.Deals`: relying on its footing alone, a program does what it is meant to do.
  * `deals_lockAccount`, …: the rules by which this is shown, one for each part of an operation.
-/
import CreditCircle.Proofs.Content
import CreditCircle.Proofs.Visits

namespace CreditCircle

/-! ## Footing -/

/-- Rows under `keys` are in `t'` as they were in `t`. -/
structure Tables.Persists (t : Tables) (keys : List RowKey) (t' : Tables) : Prop where
  account : ∀ n, RowKey.account n ∈ keys → t'.account? n = t.account? n
  limit : ∀ n, RowKey.account n ∈ keys → t'.limit? n = t.limit? n
  journal : ∀ x j, RowKey.journal x ∈ keys → t.journal? x = some j → t'.journal? x = some j

namespace Tables.Persists

variable {t t' t'' : Tables} {keys keys' : List RowKey}

theorem refl (t : Tables) (keys : List RowKey) : t.Persists keys t :=
  ⟨fun _ _ => rfl, fun _ _ => rfl, fun _ _ _ h => h⟩

theorem nil (t t' : Tables) : t.Persists [] t' :=
  ⟨nofun, nofun, fun _ _ hx => absurd hx List.not_mem_nil⟩

theorem trans (h : t.Persists keys t') (h' : t'.Persists keys' t'') (hk : ∀ k ∈ keys, k ∈ keys') :
    t.Persists keys t'' :=
  ⟨fun n hn => (h'.account n (hk _ hn)).trans (h.account n hn),
    fun n hn => (h'.limit n (hk _ hn)).trans (h.limit n hn),
    fun x j hx hj => h'.journal x j (hk _ hx) (h.journal x j hx hj)⟩

theorem parties (h : t.Persists keys t') {sender receiver : AccountNumber}
    {payer payee : Account × BalanceLimit} (hp : Parties t sender receiver payer payee)
    (hs : RowKey.account sender ∈ keys) (hr : RowKey.account receiver ∈ keys) :
    Parties t' sender receiver payer payee :=
  ⟨(h.account _ hs).trans hp.payer_row, (h.limit _ hs).trans hp.payer_limit,
    (h.account _ hr).trans hp.payee_row, (h.limit _ hr).trans hp.payee_limit⟩

theorem hasRow (h : t.Persists keys t') {n : AccountNumber} {row : Account × BalanceLimit}
    (hr : t.HasRow n row) (hn : RowKey.account n ∈ keys) : t'.HasRow n row :=
  ⟨(h.account n hn).trans hr.1, (h.limit n hn).trans hr.2⟩

end Tables.Persists

/-- What an operation remembers of its surroundings. -/
structure Footing where
  /-- The tables when it took its last lock. -/
  tables : Tables
  /-- The key that its new journal has been given. -/
  key : Option JournalId

/-- The footing holds on `l`: nothing is armed, the rows that are locked under `keys` are as they
    were, nobody else has made the transfer `drawn`, and nobody uses the key of the new journal. -/
structure Footing.Holds (g : Footing) (drawn : Option TransferId) (keys : List RowKey)
    (l : Ledger) : Prop where
  armed : l.store.armed = []
  keyed : l.tables.Keyed l.store.sequences
  rows : g.tables.Persists keys l.tables
  fresh : ∀ x, drawn = some x → l.tables.journal? x = none
  given : ∀ k, g.key = some k → k.value ≤ l.store.sequences.journal
  unused : ∀ k, g.key = some k → ∀ x j, l.tables.journal? x = some j → j.id ≠ k

theorem Footing.Holds.trans {g : Footing} {drawn : Option TransferId} {keys keys' : List RowKey}
    {l l' : Ledger} (h : g.Holds drawn keys l) (h' : Footing.Holds ⟨l.tables, g.key⟩ drawn keys' l')
    (hk : ∀ k ∈ keys, k ∈ keys') : g.Holds drawn keys l' :=
  ⟨h'.armed, h'.keyed, h.rows.trans h'.rows hk, h'.fresh, h'.given, h'.unused⟩

/-- The footing after a call that was made on `l`. -/
def Footing.after (g : Footing) (l : Ledger) : Call → Footing
  | .lockAccount _ | .lockJournal _ => { g with tables := l.tables }
  | .insertJournal _ => { g with key := some ⟨l.store.sequences.journal + 1⟩ }
  | _ => g

/-! ## Purposes -/

/-- What an operation is meant to come to. -/
structure Purpose (α : Type) where
  effect : Content → Except (Failure LedgerError) (α × Content)
  /-- A result without the keys of rows. -/
  unkeyed : α → α
  /-- The transfer that is going to be made. -/
  drawn : Option TransferId

/-- The purpose of an operation that works on locked rows. -/
def Operation.purpose (op : Operation) (h : op.Locking) : Purpose op.Result :=
  ⟨fun b => op.effect b h, op.unkeyed, op.drawn⟩

variable {α β : Type}

/-- A commit on `l` that leaves `t'` has the effect that leads to the result `a`, and touches
    nothing but the rows locked under `keys` and the new journal with the key `key`. -/
structure Fulfils (v : Purpose α) (a : α) (key : Option JournalId) (keys : List RowKey)
    (l : Ledger) (t' : Tables) : Prop where
  effect : v.effect l.tables.content = .ok (v.unkeyed a, t'.content)
  keyed : t'.Keyed l.store.sequences
  account : ∀ n, RowKey.account n ∉ keys →
    t'.account? n = l.tables.account? n ∧ t'.limit? n = l.tables.limit? n
  journal : ∀ x, t'.journal? x = l.tables.journal? x ∨
    (RowKey.journal x ∈ keys ∧ l.tables.journal? x ≠ none) ∨ v.drawn = some x
  ids : ∀ x j, t'.journal? x = some j →
    (∃ y k, l.tables.journal? y = some k ∧ k.id = j.id) ∨ key = some j.id

namespace Program

/-- Nothing is left to do but to publish and to give the result. -/
def Sealed (a : α) : Program α → Prop
  | done b => b = a
  | call (.publish _) next => Sealed a (next (.ok ()))
  | _ => False

/-- Whatever others do, as long as the footing holds at every call, the program commits once and
    then does what it is meant to do; or it fails without a commit, as it should have failed when
    it took its last lock. -/
def Deals (v : Purpose α) : Program α → Footing → UnitOfWork → Prop
  | done _, _, _ => False
  | fail e, g, _ => v.effect g.tables.content = .error e
  | call c next, g, u => ∀ l r l' u', g.Holds v.drawn u.locks l → c.perform l u = some (r, l', u') →
      if c.commits then r.isOk = true ∧ ∃ a, Sealed a (next r) ∧
        Fulfils v a g.key u.locks l l'.tables
      else Deals v (next r) (g.after l c) u' ∧
        ∀ k, (g.after l c).key = some k → k.value ≤ l'.store.sequences.journal

theorem bind_assoc {γ : Type} (f : γ → Program β) (q : β → Program α) :
    ∀ p : Program γ, p >>= f >>= q = p >>= fun c => f c >>= q
  | done _ => rfl
  | fail _ => rfl
  | call c next => congrArg (call c) (funext fun r => bind_assoc f q (next r))

/-! ## Rules -/

open UnitOfWork (holding)

section
variable {v : Purpose α} {g : Footing} {u : UnitOfWork} {keys : List RowKey}

/-- A call that is always answered. -/
theorem deals_ask {c : Call} {f : c.Reply → Program α} (hc : c.commits = false)
    (h : ∀ l r l' u', g.Holds v.drawn u.locks l → c.perform l u = some (r, l', u') →
      ∃ reply, r = .ok reply ∧ (f reply).Deals v (g.after l c) u' ∧
        ∀ k, (g.after l c).key = some k → k.value ≤ l'.store.sequences.journal) :
    (ask c >>= f).Deals v g u := by
  intro l r l' u' hl hperform
  obtain ⟨reply, rfl, hf, hk⟩ := h l r l' u' hl hperform
  rw [if_neg (by simp [hc])]
  exact ⟨hf, hk⟩

theorem deals_require {e : LedgerError} {found : Option β} {f : β → Program α}
    (hn : found = none → v.effect g.tables.content = .error (.refused e))
    (hf : ∀ b, found = some b → (f b).Deals v g u) : (require e found >>= f).Deals v g u := by
  cases found with
  | none => exact hn rfl
  | some b => exact hf b rfl

theorem deals_check {r : Except LedgerError β} {f : β → Program α}
    (he : ∀ e, r = .error e → v.effect g.tables.content = .error (.refused e))
    (hf : ∀ b, r = .ok b → (f b).Deals v g u) : (check r >>= f).Deals v g u := by
  cases r with
  | error e => exact he e rfl
  | ok b => exact hf b rfl

theorem deals_compute {r : Except (Failure LedgerError) β} {f : β → Program α}
    (he : ∀ e, r = .error e → v.effect g.tables.content = .error e)
    (hf : ∀ b, r = .ok b → (f b).Deals v g u) : (compute r >>= f).Deals v g u := by
  cases r with
  | error e => exact he e rfl
  | ok b => exact hf b rfl

/-! ### Locks -/

theorem eq_of_lock_holding {l : Ledger} {key : RowKey} {s : Store}
    (h : UnitOfWork.lock l.store (holding keys) key = some (s, u)) :
    s.tables = l.tables ∧ s.sequences = l.store.sequences ∧ u = holding (keys.insert key) := by
  unfold UnitOfWork.lock at h
  by_cases hk : key ∈ keys
  · rw [if_pos (show key ∈ (holding keys).locks from hk)] at h
    cases h
    exact ⟨rfl, rfl, by rw [List.insert_of_mem hk]⟩
  · rw [if_neg (show key ∉ (holding keys).locks from hk)] at h
    split at h
    · cases h
    · cases h
      exact ⟨rfl, rfl, by rw [List.insert_of_not_mem hk]; rfl⟩

theorem deals_askAccount {number : AccountNumber} {f : Option Account → Program α}
    (h : ∀ l, g.Holds v.drawn keys l →
      (f (l.tables.account? number)).Deals v ⟨l.tables, g.key⟩
        (holding (keys.insert (.account number)))) :
    (ask (.lockAccount number) >>= f).Deals v g (holding keys) := by
  refine deals_ask rfl fun l r l' u' hl hperform => ?_
  have hlock : UnitOfWork.lockAccount l.store (holding keys) number =
      UnitOfWork.lock l.store (holding keys) (.account number) := if_neg List.not_mem_nil
  simp only [Call.perform, Call.ofLock, hlock] at hperform
  obtain ⟨⟨s, u⟩, hs, hr⟩ := Option.map_eq_some_iff.1 hperform
  obtain ⟨ht, hseq, rfl⟩ := eq_of_lock_holding hs
  cases hr
  refine ⟨l.tables.account? number, ?_, h l hl, fun k hk => hseq ▸ hl.given k hk⟩
  exact congrArg (fun t : Tables => Except.ok (t.account? number)) ht

theorem deals_askJournal {transfer : TransferId} {f : Option Journal → Program α}
    (h : ∀ l, g.Holds v.drawn keys l →
      (f (l.tables.journal? transfer)).Deals v ⟨l.tables, g.key⟩
        (holding (keys.insert (.journal transfer)))) :
    (ask (.lockJournal transfer) >>= f).Deals v g (holding keys) := by
  refine deals_ask rfl fun l r l' u' hl hperform => ?_
  have hlock : UnitOfWork.lockJournal l.store (holding keys) transfer =
      UnitOfWork.lock l.store (holding keys) (.journal transfer) := if_neg Bool.false_ne_true
  simp only [Call.perform, Call.ofLock, hlock] at hperform
  obtain ⟨⟨s, u⟩, hs, hr⟩ := Option.map_eq_some_iff.1 hperform
  obtain ⟨ht, hseq, rfl⟩ := eq_of_lock_holding hs
  cases hr
  refine ⟨l.tables.journal? transfer, ?_, h l hl, fun k hk => hseq ▸ hl.given k hk⟩
  exact congrArg (fun t : Tables => Except.ok (t.journal? transfer)) ht

/-- The limits of a locked account are those that it had when it was locked. -/
theorem deals_readLimit {number : AccountNumber} {f : Option BalanceLimit → Program α}
    (hn : RowKey.account number ∈ keys)
    (h : (f (g.tables.limit? number)).Deals v g (holding keys)) :
    (ask (.readLimit number) >>= f).Deals v g (holding keys) := by
  refine deals_ask rfl fun l r l' u' hl hperform => ?_
  cases hperform
  exact ⟨g.tables.limit? number, congrArg _ (hl.rows.limit number hn), h, hl.given⟩

theorem deals_lockAccount {number : AccountNumber} {f : Account × BalanceLimit → Program α}
    (hbad : ∀ l e, g.Holds v.drawn keys l → l.tables.content.row number = .error e →
      v.effect l.tables.content = .error e)
    (hgood : ∀ l row, g.Holds v.drawn keys l → l.tables.HasRow number row →
      (f row).Deals v ⟨l.tables, g.key⟩ (holding (keys.insert (.account number)))) :
    (lockAccount number >>= f).Deals v g (holding keys) := by
  unfold lockAccount
  rw [bind_assoc]
  refine deals_askAccount fun l hl => ?_
  rw [bind_assoc]
  refine deals_require (fun hn => hbad l _ hl ?_) fun a ha => ?_
  · show (Content.need _ (l.tables.account? number) >>= _) = _
    rw [hn]; rfl
  rw [bind_assoc]
  refine deals_readLimit List.mem_insert_self ?_
  rw [bind_assoc]
  refine deals_require (fun hn => hbad l _ hl ?_) fun limit hlimit => ?_
  · show (Content.need _ (l.tables.account? number) >>= fun _ =>
      Content.need _ (l.tables.limit? number) >>= _) = _
    rw [ha, show l.tables.limit? number = none from hn]; rfl
  · exact hgood l (a, limit) hl ⟨ha, hlimit⟩

/-- Takes two accounts, one after the other. -/
theorem deals_lockBoth {m n : AccountNumber}
    {f : Account × BalanceLimit → Account × BalanceLimit → Program α}
    (hbad : ∀ l e, g.Holds v.drawn keys l →
      (do let a ← l.tables.content.row m; let b ← l.tables.content.row n; pure (a, b)) = .error e →
        v.effect l.tables.content = .error e)
    (hgood : ∀ l keys' a b, g.Holds v.drawn keys l → l.tables.HasRow m a →
      l.tables.HasRow n b → (∀ k ∈ keys, k ∈ keys') → RowKey.account m ∈ keys' →
        RowKey.account n ∈ keys' → (f a b).Deals v ⟨l.tables, g.key⟩ (holding keys')) :
    (lockAccount m >>= fun a => lockAccount n >>= f a).Deals v g (holding keys) := by
  refine deals_lockAccount (fun l e hl he => hbad l e hl (by rw [he]; rfl)) fun l₁ a h₁ ha => ?_
  have hsub : ∀ k ∈ keys, k ∈ keys.insert (.account m) := fun k hk => List.mem_insert_of_mem hk
  -- What the first lock protects is still there when the second one is taken.
  have hlater : ∀ {l}, Footing.Holds ⟨l₁.tables, g.key⟩ v.drawn
      (keys.insert (.account m)) l →
        g.Holds v.drawn keys l ∧ l.tables.HasRow m a := fun hl =>
    ⟨h₁.trans hl hsub, hl.rows.hasRow ha List.mem_insert_self⟩
  refine deals_lockAccount (fun l e hl he => ?_) fun l b hl hb => ?_
  · obtain ⟨hg, ha⟩ := hlater hl
    exact hbad l e hg (by rw [ha.content_row, he]; rfl)
  · obtain ⟨hg, ha⟩ := hlater hl
    exact hgood l _ a b hg ha hb (fun k hk => List.mem_insert_of_mem (hsub k hk))
      (List.mem_insert_of_mem List.mem_insert_self) List.mem_insert_self

/-- Takes both parties of a transfer, whichever number is lower. -/
theorem deals_lockParties {sender receiver : AccountNumber}
    {f : (Account × BalanceLimit) × (Account × BalanceLimit) → Program α}
    (hbad : ∀ l e, g.Holds v.drawn keys l →
      l.tables.content.parties sender receiver = .error e → v.effect l.tables.content = .error e)
    (hgood : ∀ l keys' payer payee, g.Holds v.drawn keys l →
      Parties l.tables sender receiver payer payee → (∀ k ∈ keys, k ∈ keys') →
        RowKey.account sender ∈ keys' → RowKey.account receiver ∈ keys' →
          (f (payer, payee)).Deals v ⟨l.tables, g.key⟩ (holding keys')) :
    (lockParties sender receiver >>= f).Deals v g (holding keys) := by
  unfold lockParties
  split
  · rename_i hle
    simp only [bind_assoc]
    refine deals_lockBoth (fun l e hl he => hbad l e hl ?_) fun l keys' payer payee hl hs hr =>
      hgood l keys' payer payee hl ⟨hs.1, hs.2, hr.1, hr.2⟩
    rw [Content.parties, if_pos hle]
    exact he
  · rename_i hle
    simp only [bind_assoc]
    refine deals_lockBoth (fun l e hl he => hbad l e hl ?_)
      fun l keys' payee payer hl hr hs hk hr' hs' =>
        hgood l keys' payer payee hl ⟨hs.1, hs.2, hr.1, hr.2⟩ hk hs' hr'
    rw [Content.parties, if_neg hle]
    revert he
    cases l.tables.content.row receiver with
    | error e' => exact fun he => he
    | ok payee =>
      cases l.tables.content.row sender with
      | error e' => exact fun he => he
      | ok payer => exact nofun

theorem deals_lockPending {transfer : TransferId} {action : Action} {f : Journal → Program α}
    (hbad : ∀ l e, g.Holds v.drawn keys l →
      l.tables.content.pending transfer action = .error e → v.effect l.tables.content = .error e)
    (hgood : ∀ l j, g.Holds v.drawn keys l → l.tables.journal? transfer = some j →
      j.status = .initiated →
        (f j).Deals v ⟨l.tables, g.key⟩ (holding (keys.insert (.journal transfer)))) :
    (lockPending transfer action >>= f).Deals v g (holding keys) := by
  unfold lockPending
  rw [bind_assoc]
  refine deals_askJournal fun l hl => ?_
  rw [bind_assoc]
  refine deals_require (fun hn => hbad l _ hl ?_) fun j hj => ?_
  · exact l.tables.content_pending_of_none action hn
  · by_cases hst : j.status = .initiated
    · rw [if_neg (by simp [hst, Status.isTerminal])]
      exact hgood l j hl hj hst
    · rw [if_pos (by simp [hst, Status.isTerminal])]
      exact hbad l _ hl (l.tables.content_pending_of_ended action hj hst)

/-! ### Writes -/

theorem guarded_eq {s : Store} {point : FailPoint} {answer : UnitOfWork.Answer β}
    (h : s.armed = []) : UnitOfWork.guarded point s u answer = answer :=
  if_neg (by rw [h]; exact List.not_mem_nil)

theorem deals_updateLimit {limit : BalanceLimit} {f : Unit → Program α}
    (hu : RowKey.account limit.account ∈ u.locks)
    (h : (f ()).Deals v g { u with limits := u.limits.put limit.account limit }) :
    (ask (.updateLimit limit) >>= f).Deals v g u := by
  refine deals_ask rfl fun l r l' u' hl hperform => ?_
  have howns : u.OwnsAccount limit.account := Or.inr hu
  simp only [Call.perform, UnitOfWork.updateLimit, Call.ofAnswer, if_pos howns] at hperform
  cases hperform
  exact ⟨(), rfl, h, hl.given⟩

/-- The new journal gets a key of its own. -/
theorem deals_insertJournal {draft : JournalDraft} {f : Journal → Program α}
    (hd : v.drawn = some draft.transfer)
    (h : ∀ id, (f (draft.toJournal id)).Deals v { g with key := some id }
      { holding keys with
        journals := Table.empty.put draft.transfer (draft.toJournal id)
        newJournals := [draft.transfer] }) :
    (ask (.insertJournal draft) >>= f).Deals v g (holding keys) := by
  refine deals_ask rfl fun l r l' u' hl hperform => ?_
  simp only [Call.perform, UnitOfWork.insertJournal, guarded_eq hl.armed, Call.ofAnswer] at hperform
  have hfree : l.store.tables.journals.has draft.transfer = false :=
    Table.has_eq_false (hl.fresh _ hd)
  rw [if_neg] at hperform
  · cases hperform
    refine ⟨_, rfl, h _, ?_⟩
    intro k hk
    cases hk
    exact Nat.le_refl _
  · rintro (hm | hm)
    · cases hm
    · rw [hfree] at hm
      cases hm

theorem deals_insertPosting {account : AccountNumber} {journal : JournalId} {amount : Decimal}
    {now : Timestamp} {f : Posting → Program α}
    (h : ∀ id, (f ⟨id, account, journal, amount, now⟩).Deals v g
      { u with postings := u.postings ++ [⟨id, account, journal, amount, now⟩] }) :
    (ask (.insertPosting account journal amount now) >>= f).Deals v g u := by
  refine deals_ask rfl fun l r l' u' hl hperform => ?_
  simp only [Call.perform, UnitOfWork.insertPosting, guarded_eq hl.armed, Call.ofAnswer] at hperform
  cases hperform
  exact ⟨_, rfl, h _, hl.given⟩

/-- The account whose balance is set is the one that was locked. -/
theorem deals_setBalance {number : AccountNumber} {balance : Decimal} {a : Account}
    {f : Unit → Program α} (hu : RowKey.account number ∈ u.locks)
    (hn : u.accounts.get? number = none) (ha : g.tables.account? number = some a)
    (h : (f ()).Deals v g { u with accounts := u.accounts.put number { a with balance } }) :
    (ask (.setBalance number balance) >>= f).Deals v g u := by
  refine deals_ask rfl fun l r l' u' hl hperform => ?_
  have howns : u.OwnsAccount number := Or.inr hu
  have hread : u.account? l.store number = some a := by
    rw [UnitOfWork.account?, hn]
    exact (hl.rows.account number hu).trans ha
  simp only [Call.perform, UnitOfWork.setBalance, guarded_eq hl.armed, Call.ofAnswer] at hperform
  rw [if_pos howns, hread] at hperform
  cases hperform
  exact ⟨(), rfl, h, hl.given⟩

theorem deals_updateJournal {j : Journal} {f : Unit → Program α}
    (hu : u.OwnsJournal j.transfer)
    (h : (f ()).Deals v g { u with journals := u.journals.put j.transfer j }) :
    (ask (.updateJournal j) >>= f).Deals v g u := by
  refine deals_ask rfl fun l r l' u' hl hperform => ?_
  simp only [Call.perform, UnitOfWork.updateJournal, guarded_eq hl.armed, Call.ofAnswer] at hperform
  rw [if_pos hu] at hperform
  cases hperform
  exact ⟨(), rfl, h, hl.given⟩

/-! ### The commit -/

theorem deals_commit {f : Unit → Program α} {a : α} (hf : (f ()).Sealed a)
    (h : ∀ l, g.Holds v.drawn u.locks l → u.conflict? l.tables = none ∧
      Fulfils v a g.key u.locks l (u.applyTo l.tables)) :
    (ask .commit >>= f).Deals v g u := by
  intro l r l' u' hl hperform
  obtain ⟨hsound, hfulfils⟩ := h l hl
  simp only [Call.perform, UnitOfWork.commit, Call.ofAnswer] at hperform
  rw [if_neg (by rw [hl.armed]; exact List.not_mem_nil),
    show u.conflict? l.store.tables = none from hsound] at hperform
  cases hperform
  exact ⟨rfl, a, hf, hfulfils⟩

theorem deals_conclude {v : Purpose Journal} {j : Journal} {event : Event}
    (hu : u.OwnsJournal j.transfer)
    (h : ∀ l, g.Holds v.drawn u.locks l →
      { u with journals := u.journals.put j.transfer j }.conflict? l.tables = none ∧
        Fulfils v j g.key u.locks l
          ({ u with journals := u.journals.put j.transfer j }.applyTo l.tables)) :
    (conclude j event).Deals v g u :=
  deals_updateJournal hu (deals_commit rfl h)

theorem deals_book {j : Journal} {payer payee : Account} {balances : Decimal × Decimal}
    {debitTime creditTime : Timestamp} {f : Unit → Program α}
    (hs : RowKey.account j.sender ∈ u.locks) (hr : RowKey.account j.receiver ∈ u.locks)
    (hu : u.accounts = .empty) (hp : u.postings = []) (hne : j.sender ≠ j.receiver)
    (hpayer : g.tables.account? j.sender = some payer)
    (hpayee : g.tables.account? j.receiver = some payee)
    (h : ∀ debit credit, j.HasLegs debit credit → debit.createdAt = debitTime →
      credit.createdAt = creditTime → (f ()).Deals v g { u with
        accounts := (Table.empty.put j.sender { payer with balance := balances.1 }).put j.receiver
          { payee with balance := balances.2 }
        postings := [debit, credit] }) :
    (book j balances debitTime creditTime >>= f).Deals v g u := by
  obtain ⟨locks, accounts, newAccounts, limits, newLimits, journals, newJournals, postings⟩ := u
  dsimp only at hu hp h
  subst hu hp
  unfold book
  simp only [bind_assoc]
  refine deals_insertPosting fun id => deals_insertPosting fun id' => ?_
  refine deals_setBalance hs rfl hpayer ?_
  refine deals_setBalance hr (Table.get?_put_of_ne _ _ (Ne.symm hne)) hpayee ?_
  exact h _ _ ⟨rfl, rfl, rfl, rfl, rfl, rfl⟩ rfl rfl

end
end Program

end CreditCircle

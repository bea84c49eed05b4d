/-
  Operations do not depend on the order of rows.

  * `Program.Sparing`: a program that never adds two rows of a kind in one unit of work;
    `program_sparing` says that no operation does.
  * `Program.MayEnd`, `Ledger.MayRun`: how a program may end if, before every call, the rows of
    all tables may change places.
  * `MayRun.run`: a sparing program comes to the same, whatever places they take.
-/
import CreditCircle.Proofs.History
import CreditCircle.Proofs.RowOrder

namespace CreditCircle

/-! ## Rows that are added -/

/-- The write by which a call adds a row that has to be new. -/
def Call.adds? : Call → Option FailPoint
  | .insertAccount .. => some .insertAccount
  | .insertLimit _ => some .insertBalanceLimit
  | .insertJournal _ => some .insertJournal
  | _ => none

/-- What a unit of work has added after a call. -/
def Call.added (c : Call) (kinds : List FailPoint) : List FailPoint :=
  if c.ends then [] else c.adds?.toList ++ kinds

namespace UnitOfWork

/-- New rows are staged of these kinds only, and no two of one kind. -/
structure Adds (u : UnitOfWork) (kinds : List FailPoint) : Prop extends u.Sparing where
  accounts : FailPoint.insertAccount ∉ kinds → u.newAccounts = []
  limits : FailPoint.insertBalanceLimit ∉ kinds → u.newLimits = []
  journals : FailPoint.insertJournal ∉ kinds → u.newJournals = []

variable {u v : UnitOfWork} {kinds : List FailPoint}

theorem adds_empty (kinds : List FailPoint) : empty.Adds kinds where
  newAccounts := Nat.zero_le _
  newLimits := Nat.zero_le _
  newJournals := Nat.zero_le _
  accounts _ := rfl
  limits _ := rfl
  journals _ := rfl

theorem Adds.mono {kinds' : List FailPoint} (h : u.Adds kinds) (hk : kinds ⊆ kinds') :
    u.Adds kinds' :=
  ⟨h.toSparing, fun hn => h.accounts (mt (@hk _) hn), fun hn => h.limits (mt (@hk _) hn),
    fun hn => h.journals (mt (@hk _) hn)⟩

/-- Only new rows count. -/
theorem Adds.congr (h : u.Adds kinds) (ha : v.newAccounts = u.newAccounts)
    (hl : v.newLimits = u.newLimits) (hj : v.newJournals = u.newJournals) : v.Adds kinds := by
  refine ⟨⟨?_, ?_, ?_⟩, ?_, ?_, ?_⟩
  · rw [ha]; exact h.newAccounts
  · rw [hl]; exact h.newLimits
  · rw [hj]; exact h.newJournals
  · rw [ha]; exact h.accounts
  · rw [hl]; exact h.limits
  · rw [hj]; exact h.journals

/-! ### What a write adds -/

section
variable {s : Store} (h : u.Adds kinds)
include h

theorem Adds.guarded {α : Type} {answer : Answer α} (point : FailPoint)
    (ha : answer.2.2.Adds kinds) : (UnitOfWork.guarded point s u answer).2.2.Adds kinds := by
  unfold UnitOfWork.guarded
  split
  · exact h
  · exact ha

theorem Adds.cons (kind : FailPoint) : u.Adds (kind :: kinds) := h.mono (List.subset_cons_self ..)

theorem Adds.insertAccount (hk : .insertAccount ∉ kinds) (n : AccountNumber) (entity : EntityId)
    (now : Timestamp) : (u.insertAccount s n entity now).2.2.Adds (.insertAccount :: kinds) := by
  have hu := h.cons .insertAccount
  refine hu.guarded _ ?_
  split
  · exact hu
  split
  · exact hu
  · exact { hu with
      newAccounts := by rw [h.accounts hk]; exact Nat.le_refl 1
      accounts := fun hn => absurd List.mem_cons_self hn }

theorem Adds.insertLimit (hk : .insertBalanceLimit ∉ kinds) (limit : BalanceLimit) :
    (u.insertLimit s limit).2.2.Adds (.insertBalanceLimit :: kinds) := by
  have hu := h.cons .insertBalanceLimit
  refine hu.guarded _ ?_
  split
  · exact hu
  · exact { hu with
      newLimits := by rw [h.limits hk]; exact Nat.le_refl 1
      limits := fun hn => absurd List.mem_cons_self hn }

theorem Adds.insertJournal (hk : .insertJournal ∉ kinds) (draft : JournalDraft) :
    (u.insertJournal s draft).2.2.Adds (.insertJournal :: kinds) := by
  have hu := h.cons .insertJournal
  refine hu.guarded _ ?_
  split
  · exact hu
  · exact { hu with
      newJournals := by rw [h.journals hk]; exact Nat.le_refl 1
      journals := fun hn => absurd List.mem_cons_self hn }

theorem Adds.updateLimit (limit : BalanceLimit) : (u.updateLimit s limit).2.2.Adds kinds := by
  unfold UnitOfWork.updateLimit
  split
  · exact h.congr rfl rfl rfl
  · exact h

theorem Adds.updateJournal (j : Journal) : (u.updateJournal s j).2.2.Adds kinds := by
  refine h.guarded _ ?_
  split
  · exact h.congr rfl rfl rfl
  · exact h

theorem Adds.setBalance (n : AccountNumber) (balance : Decimal) :
    (u.setBalance s n balance).2.2.Adds kinds := by
  refine h.guarded _ ?_
  split
  · split
    · exact h
    · exact h.congr rfl rfl rfl
  · exact h

end

theorem adds_commit (s : Store) (u : UnitOfWork) (kinds : List FailPoint) :
    (u.commit s).2.2.Adds kinds := by
  unfold UnitOfWork.commit
  split
  · exact adds_empty _
  · split
    · exact adds_empty _
    · exact adds_empty _

end UnitOfWork

namespace Call

open UnitOfWork

variable {l l' : Ledger} {u u' : UnitOfWork} {kinds : List FailPoint}

theorem adds_lock {s : Store} {key : RowKey} {found : Store × UnitOfWork} (h : u.Adds kinds)
    (hf : lock s u key = some found) : found.2.Adds kinds := by
  unfold UnitOfWork.lock at hf
  split at hf
  · cases hf; exact h
  · split at hf
    · cases hf
    · cases hf; exact h.congr rfl rfl rfl

theorem adds_ofLock {α : Type} {locked : Option (Store × UnitOfWork)}
    {read : Store → UnitOfWork → α} {r : Except LedgerError α}
    (h : ∀ found, locked = some found → found.2.Adds kinds)
    (hp : ofLock l locked read = some (r, l', u')) : u'.Adds kinds := by
  cases locked with
  | none => cases hp
  | some found => cases hp; exact h found rfl

/-- Whatever a call adds, it adds one row, unless there already is one of that kind. -/
theorem perform_adds {c : Call} {r : Except LedgerError c.Reply} (h : u.Adds kinds)
    (hc : ∀ kind, c.adds? = some kind → kind ∉ kinds)
    (hp : c.perform l u = some (r, l', u')) : u'.Adds (c.added kinds) := by
  cases c with
  | findAccount _ | findLimit _ | readLimit _ | publish _ => cases hp; exact h
  | lockAccount n =>
    have hlock : ofLock l (UnitOfWork.lockAccount l.store u n) (fun s u => u.account? s n) =
        some (r, l', u') := hp
    refine adds_ofLock (fun found hf => ?_) hlock
    rcases u.lockAccount_eq_or l.store n with heq | heq
    · rw [heq] at hf; cases hf; exact h
    · exact adds_lock h (heq.symm.trans hf)
  | lockJournal x =>
    have hlock : ofLock l (UnitOfWork.lockJournal l.store u x) (fun s u => u.journal? s x) =
        some (r, l', u') := hp
    refine adds_ofLock (fun found hf => ?_) hlock
    rcases u.lockJournal_eq_or l.store x with heq | heq
    · rw [heq] at hf; cases hf; exact h
    · exact adds_lock h (heq.symm.trans hf)
  | insertAccount n entity now => cases hp; exact h.insertAccount (hc _ rfl) n entity now
  | insertLimit limit => cases hp; exact h.insertLimit (hc _ rfl) limit
  | insertJournal draft => cases hp; exact h.insertJournal (hc _ rfl) draft
  | updateLimit limit => cases hp; exact h.updateLimit limit
  | updateJournal j => cases hp; exact h.updateJournal j
  | insertPosting n id amount now => cases hp; exact h.guarded _ (h.congr rfl rfl rfl)
  | setBalance n balance => cases hp; exact h.setBalance n balance
  | commit => cases hp; exact adds_commit _ _ _
  | rollback => cases hp; exact adds_empty _

end Call

/-! ## Sparing programs -/

namespace Program

variable {β γ : Type}

/-- If the open unit of work has added rows of these kinds, no call adds a second one. -/
def Sparing (post : β → List FailPoint → Prop) : Program β → List FailPoint → Prop
  | done a, kinds => post a kinds
  | fail _, _ => True
  | call c next, kinds => (∀ kind, c.adds? = some kind → kind ∉ kinds) ∧
      ∀ r, Sparing post (next r) (c.added kinds)

variable {post : γ → List FailPoint → Prop} {kinds : List FailPoint}

theorem sparing_bind {f : β → Program γ} :
    ∀ {p : Program β} {kinds : List FailPoint},
      p.Sparing (fun a kinds => (f a).Sparing post kinds) kinds → (p >>= f).Sparing post kinds
  | done _, _, h => h
  | fail _, _, _ => trivial
  | call _ _, _, h => ⟨h.1, fun r => sparing_bind (h.2 r)⟩

theorem sparing_recover {f : Failure LedgerError → Program γ} (hf : ∀ e, (f e).Sparing post []) :
    ∀ {p : Program γ} {kinds : List FailPoint},
      p.Sparing post kinds → (p.recover f).Sparing post kinds
  | done _, _, h => h
  | fail e, _, _ => ⟨nofun, fun _ => hf e⟩
  | call _ _, _, h => ⟨h.1, fun r => sparing_recover hf (h.2 r)⟩

theorem sparing_ask {c : Call} {post : c.Reply → List FailPoint → Prop}
    (hc : ∀ kind, c.adds? = some kind → kind ∉ kinds) (h : ∀ reply, post reply (c.added kinds)) :
    (ask c).Sparing post kinds :=
  ⟨hc, fun r => by
    cases r with
    | ok reply => exact h reply
    | error e => trivial⟩

theorem sparing_require {e : LedgerError} {found : Option γ} (h : ∀ a, post a kinds) :
    (require e found).Sparing post kinds := by
  cases found with
  | some a => exact h a
  | none => trivial

theorem sparing_check {r : Except LedgerError γ} (h : ∀ a, post a kinds) :
    (check r).Sparing post kinds := by
  cases r with
  | ok a => exact h a
  | error e => trivial

theorem sparing_compute {r : Except (Failure LedgerError) γ} (h : ∀ a, post a kinds) :
    (compute r).Sparing post kinds := by
  cases r with
  | ok a => exact h a
  | error e => trivial

/-! ### Parts of operations -/

theorem sparing_lockAccount {number : AccountNumber}
    {post : Account × BalanceLimit → List FailPoint → Prop} (h : ∀ row, post row kinds) :
    (lockAccount number).Sparing post kinds := by
  refine sparing_bind (sparing_ask nofun fun _ => sparing_bind (sparing_require fun a => ?_))
  exact sparing_bind (sparing_ask nofun fun _ => sparing_bind (sparing_require fun limit =>
    h (a, limit)))

theorem sparing_lockPending {transfer : TransferId} {action : Action}
    {post : Journal → List FailPoint → Prop} (h : ∀ j, post j kinds) :
    (lockPending transfer action).Sparing post kinds := by
  refine sparing_bind (sparing_ask nofun fun _ => sparing_bind (sparing_require fun j => ?_))
  split
  · trivial
  · exact h j

theorem sparing_lockParties {sender receiver : AccountNumber}
    {post : (Account × BalanceLimit) × (Account × BalanceLimit) → List FailPoint → Prop}
    (h : ∀ rows, post rows kinds) : (lockParties sender receiver).Sparing post kinds := by
  unfold lockParties
  split
  · refine sparing_bind (sparing_lockAccount fun payer => ?_)
    exact sparing_bind (sparing_lockAccount fun payee => h (payer, payee))
  · refine sparing_bind (sparing_lockAccount fun payee => ?_)
    exact sparing_bind (sparing_lockAccount fun payer => h (payer, payee))

theorem sparing_book {j : Journal} {balances : Decimal × Decimal}
    {debitTime creditTime : Timestamp} {post : Unit → List FailPoint → Prop} (h : post () kinds) :
    (book j balances debitTime creditTime).Sparing post kinds := by
  refine sparing_bind (sparing_ask nofun fun _ => sparing_bind (sparing_ask nofun fun _ => ?_))
  exact sparing_bind (sparing_ask nofun fun _ => sparing_ask nofun fun _ => h)

theorem sparing_conclude {j : Journal} {event : Event} :
    (conclude j event).Sparing (fun _ _ => True) kinds := by
  refine sparing_bind (sparing_ask nofun fun _ => sparing_bind (sparing_ask nofun fun _ => ?_))
  exact sparing_bind (sparing_ask nofun fun _ => trivial)

theorem sparing_find {c : Call} (hc : c.adds? = none) (he : c.ends = false) {e : LedgerError}
    {found : c.Reply → Option γ} (h : ∀ a, post a kinds) :
    (ask c >>= fun reply => require e (found reply)).Sparing post kinds := by
  refine sparing_bind (sparing_ask ?_ fun _ => sparing_require fun a => ?_)
  · rw [hc]; exact nofun
  · rw [Call.added, he, hc]; exact h a

theorem sparing_checkBalance {sender receiver : AccountNumber} {amount : Decimal}
    {post : Unit → List FailPoint → Prop} (h : post () kinds) :
    (checkBalance sender receiver amount).Sparing post kinds := by
  refine sparing_bind (sparing_find rfl rfl fun _ => sparing_bind (sparing_find rfl rfl fun _ => ?_))
  refine sparing_bind (sparing_find rfl rfl fun _ => sparing_bind (sparing_find rfl rfl fun _ => ?_))
  exact sparing_bind (sparing_compute fun _ => h)

theorem sparing_insertAccount (limits : DefaultLimits) (number : AccountNumber)
    (entity : EntityId) (opened limited : Timestamp) :
    (insertAccount limits number entity opened limited).Sparing (fun _ _ => True) [] := by
  refine sparing_bind (sparing_ask (fun _ _ => List.not_mem_nil) fun _ => ?_)
  refine sparing_bind (sparing_ask ?_ fun _ => sparing_bind (sparing_ask nofun fun _ => trivial))
  rintro kind ⟨⟩
  show FailPoint.insertBalanceLimit ∉ [FailPoint.insertAccount]
  decide

theorem sparing_tryNumbers (limits : DefaultLimits) (entity : EntityId) (chance : Chance) :
    ∀ left attempt,
      (tryNumbers limits entity chance left attempt).Sparing (fun _ _ => True) [] := by
  intro left
  induction left with
  | zero => exact fun attempt => sparing_insertAccount ..
  | succ left ih =>
    refine fun attempt => sparing_recover (fun e => ?_) (sparing_insertAccount ..)
    split
    · exact ih (attempt + 1)
    · trivial

end Program

/-- No operation adds two rows of a kind in one unit of work. -/
theorem Operation.program_sparing (limits : DefaultLimits) (op : Operation) :
    (op.program limits).Sparing (fun _ _ => True) [] := by
  open Program in
  have hclose : ∀ {transfer reason action canceller now},
      (close transfer reason action canceller now).Sparing (fun _ _ => True) [] :=
    sparing_bind (sparing_lockPending fun _ => sparing_conclude)
  have hnew : ∀ kind : FailPoint, kind ∉ ([] : List FailPoint) := fun _ => List.not_mem_nil
  cases op with
  | openAccount entity chance => exact sparing_tryNumbers limits entity chance _ _
  | updateLimits number maxPos maxNeg now =>
    show (Program.updateLimits number maxPos maxNeg now).Sparing _ _
    unfold Program.updateLimits
    split
    · exact sparing_bind trivial
    refine sparing_bind (sparing_lockAccount fun row => ?_)
    dsimp only
    split
    · exact sparing_bind trivial
    refine sparing_bind (sparing_ask nofun fun _ => ?_)
    exact sparing_bind (sparing_ask nofun fun _ => trivial)
  | propose eligible request chance =>
    refine sparing_bind (sparing_check fun _ => sparing_bind (sparing_checkBalance ?_))
    refine sparing_bind (sparing_ask (fun _ _ => hnew _) fun _ => ?_)
    refine sparing_bind (sparing_ask nofun fun _ => ?_)
    exact sparing_bind (sparing_ask nofun fun _ => trivial)
  | accept transfer clock =>
    refine sparing_bind (sparing_lockPending fun j => ?_)
    refine sparing_bind (sparing_lockParties fun rows => ?_)
    dsimp only
    split
    · exact sparing_bind (sparing_book sparing_conclude)
    · exact sparing_conclude
    · trivial
  | reject transfer reason now => exact hclose
  | cancel transfer reason now => exact hclose
  | transferNow eligible request chance =>
    refine sparing_bind (sparing_check fun _ => sparing_bind (sparing_lockParties fun _ => ?_))
    refine sparing_bind (sparing_compute fun _ => ?_)
    refine sparing_bind (sparing_ask (fun _ _ => hnew _) fun _ => ?_)
    exact sparing_bind (sparing_book sparing_conclude)

/-! ## Runs in any order -/

namespace Program

variable {α : Type}

/-- How a program may end that goes on with the unit of work `u`: before every call, the rows of
    all tables may change places. -/
inductive MayEnd : Program α → Ledger → UnitOfWork → Except (Failure LedgerError) α → Ledger → Prop
  | done {a : α} {l : Ledger} {u : UnitOfWork} :
      MayEnd (done a) l u (.ok a) { l with store := l.store.release u.locks }
  | fail {e : Failure LedgerError} {l : Ledger} {u : UnitOfWork} :
      MayEnd (fail e) l u (.error e) { l with store := l.store.release u.locks }
  | call {c : Call} {next : Except LedgerError c.Reply → Program α} {l m l₁ l' : Ledger}
      {u v u₁ : UnitOfWork} {reply : Except LedgerError c.Reply}
      {result : Except (Failure LedgerError) α} (hl : l.Same m) (hu : u.Same v)
      (hc : c.perform m v = some (reply, l₁, u₁)) (h : MayEnd (next reply) l₁ u₁ result l') :
      MayEnd (call c next) l u result l'
  /-- It waits for a row that somebody else holds. -/
  | wait {c : Call} {next : Except LedgerError c.Reply → Program α} {l m : Ledger}
      {u v : UnitOfWork} (hl : l.Same m) (hu : u.Same v) (hc : c.perform m v = none) :
      MayEnd (call c next) l u (.error .blocked) m

end Program

/-- How an operation may end, the rows changing places at will. -/
def Ledger.MayRun {α : Type} (l : Ledger) (p : Program α) (result : Except (Failure LedgerError) α)
    (l' : Ledger) : Prop :=
  p.MayEnd l .empty result l'

open Program

/-- A sparing program ends as it would if no row moved. -/
theorem Program.MayEnd.advance {α : Type} {post : α → List FailPoint → Prop} {p : Program α}
    {l l' : Ledger} {u : UnitOfWork} {result : Except (Failure LedgerError) α}
    (h : p.MayEnd l u result l') {m : Ledger} {v : UnitOfWork} (hl : l.Same m) (hu : u.Same v)
    {kinds : List FailPoint} (hp : p.Sparing post kinds) (hv : v.Adds kinds) :
    (Worker.advance p v m).1.outcome = result ∧ l'.Same (Worker.advance p v m).2 := by
  induction h generalizing m v kinds with
  | done => exact ⟨rfl, ⟨hl.store.release hu.locks, hl.events⟩⟩
  | fail => exact ⟨rfl, ⟨hl.store.release hu.locks, hl.events⟩⟩
  | @call c next _ m₁ l₁ _ _ v₁ u₁ reply _ hl₁ hu₁ hc _ ih =>
    have hsame := Call.perform_same (hl₁.symm.trans hl) (hu₁.symm.trans hu) c
      fun _ => hv.toSparing
    rw [hc] at hsame
    cases hm : c.perform m v with
    | none => rw [hm] at hsame; cases hsame
    | some outcome =>
      obtain ⟨reply', m', v'⟩ := outcome
      rw [hm] at hsame
      obtain ⟨⟨hreply, hledger, hunit⟩⟩ := hsame
      dsimp only at hreply hledger hunit
      subst hreply
      have := ih hledger hunit (hp.2 reply) (Call.perform_adds hv hp.1 hm)
      simpa only [Worker.advance, hm] using this
  | @wait c next _ m₁ _ v₁ hl₁ hu₁ hc =>
    have hsame := Call.perform_same (hl₁.symm.trans hl) (hu₁.symm.trans hu) c
      fun _ => hv.toSparing
    rw [hc] at hsame
    cases hm : c.perform m v with
    | none =>
      simp only [Worker.advance, hm]
      exact ⟨rfl, hl₁.symm.trans hl⟩
    | some outcome => rw [hm] at hsame; cases hsame

namespace Ledger

variable {α : Type} {l l' m : Ledger} {result : Except (Failure LedgerError) α}

/-- One way to run is with every row in its place. -/
theorem mayRun_run (l : Ledger) (p : Program α) : l.MayRun p (l.run p).1 (l.run p).2 := by
  have hadvance : ∀ (p : Program α) (u : UnitOfWork) (l : Ledger),
      p.MayEnd l u (Worker.advance p u l).1.outcome (Worker.advance p u l).2 := by
    intro p
    induction p with
    | done a => exact fun u l => .done
    | fail e => exact fun u l => .fail
    | call c next ih =>
      intro u l
      cases hc : c.perform l u with
      | none =>
        simp only [Worker.advance, hc]
        exact .wait (.refl l) (.refl u) hc
      | some outcome =>
        simp only [Worker.advance, hc]
        exact .call (.refl l) (.refl u) hc (ih _ _ _)
  exact hadvance p .empty l

/-- An operation comes to the same on the same ledger, whatever places the rows take. -/
theorem MayRun.run {limits : DefaultLimits} {op : Operation}
    {result : Except (Failure LedgerError) op.Result}
    (h : l.MayRun (op.program limits) result l') (hl : l.Same m) :
    (m.run (op.program limits)).1 = result ∧ l'.Same (m.run (op.program limits)).2 :=
  h.advance hl (.refl _) (op.program_sparing limits) (UnitOfWork.adds_empty _)

end Ledger
end CreditCircle

/-
  What the tables say, apart from the keys that the store has given to rows.

  * `Content`, `Tables.content`: accounts, limits, transfers and what is booked.
  * `Content.accept`, …, `Operation.effect`: what an operation that works on locked rows makes of
    the content, computed at once.
  * `Tables.Keyed`: journals have keys of their own, and only completed ones are booked.
  * `content_withLimit`, `content_withJournal`, `content_booked`: what a commit makes of the
    content.
-/
import CreditCircle.Proofs.DoubleEntry
import Mathlib.Logic.Function.Basic

namespace CreditCircle

/-! ## Content -/

/-- A journal without its key. -/
def Journal.unkeyed (j : Journal) : Journal := { j with id := ⟨0⟩ }

/-- A posting without its keys. -/
def Posting.unkeyed (p : Posting) : Posting := { p with id := ⟨0⟩, journal := ⟨0⟩ }

/-- What the books say. -/
structure Content where
  account : AccountNumber → Option Account
  limit : AccountNumber → Option BalanceLimit
  journal : TransferId → Option Journal
  /-- The postings of each transfer. -/
  legs : TransferId → List Posting
  /-- All postings in the order in which they were booked. -/
  booked : List Posting

/-- What the tables say. -/
def Tables.content (t : Tables) : Content where
  account := t.account?
  limit := t.limit?
  journal x := (t.journal? x).map Journal.unkeyed
  legs x := ((t.journal? x).elim [] fun j => t.postingsOfJournal j.id).map Posting.unkeyed
  booked := t.allPostings.map Posting.unkeyed

namespace Content

variable (b : Content)

/-! ### Changes -/

/-- Other limits for an account. -/
def relimit (limit : BalanceLimit) : Content :=
  { b with limit := Function.update b.limit limit.account (some limit) }

/-- A new or another journal for a transfer. -/
def record (j : Journal) : Content :=
  { b with journal := Function.update b.journal j.transfer (some j) }

/-- The transfer `j` is booked, which leaves its parties as they are given. -/
def book (j : Journal) (payer payee : Account) (debitTime creditTime : Timestamp) : Content :=
  let legs := [⟨⟨0⟩, j.sender, ⟨0⟩, -j.amount, debitTime⟩,
    ⟨⟨0⟩, j.receiver, ⟨0⟩, j.amount, creditTime⟩]
  { b with
    account := Function.update (Function.update b.account j.sender (some payer)) j.receiver
      (some payee)
    legs := Function.update b.legs j.transfer legs
    booked := b.booked ++ legs }

/-! ### Reading -/

/-- A value that has to be there. -/
def need {α : Type} (e : LedgerError) : Option α → Except (Failure LedgerError) α
  | some a => .ok a
  | none => .error (.refused e)

/-- An account and its limits. -/
def row (number : AccountNumber) : Except (Failure LedgerError) (Account × BalanceLimit) := do
  let account ← need (.accountNotFound (.number number)) (b.account number)
  let limit ← need (.accountNotFound (.limitOf number)) (b.limit number)
  return (account, limit)

/-- Both parties of a transfer; the lower number is looked up first. -/
def parties (sender receiver : AccountNumber) :
    Except (Failure LedgerError) ((Account × BalanceLimit) × (Account × BalanceLimit)) := do
  if sender ≤ receiver then
    let payer ← b.row sender
    let payee ← b.row receiver
    return (payer, payee)
  else
    let payee ← b.row receiver
    let payer ← b.row sender
    return (payer, payee)

/-- A transfer that is still pending. -/
def pending (transfer : TransferId) (action : Action) : Except (Failure LedgerError) Journal := do
  let journal ← need (.transferNotFound (.transfer transfer)) (b.journal transfer)
  if journal.status.isTerminal then
    throw (.refused (.invalidStateTransition transfer journal.status action))
  return journal

/-! ### Operations -/

/-- The limits of an account are replaced. -/
def updateLimits (number : AccountNumber) (maxPos maxNeg : Decimal) (now : Timestamp) :
    Except (Failure LedgerError) (BalanceLimit × Content) := do
  if maxPos < 0 ∨ maxNeg < 0 then throw (.refused (.invalidLimit number .negative))
  let (account, limit) ← b.row number
  let limit := { limit with maxPos, maxNeg, updatedAt := now }
  if limit.IsExceededBy account.balance then
    throw (.refused (.invalidLimit number (.excludesBalance account.balance)))
  return (limit, b.relimit limit)

/-- A pending transfer ends unbooked. -/
def close (transfer : TransferId) (reason : String) (action : Action) (now : Timestamp) :
    Except (Failure LedgerError) (Journal × Content) := do
  let journal ← b.pending transfer action
  return (journal.cancelled reason now, b.record (journal.cancelled reason now))

/-- A pending transfer is booked, or ends unbooked if a limit is in the way. -/
def accept (transfer : TransferId) (clock : Clock) :
    Except (Failure LedgerError) (Journal × Content) := do
  let journal ← b.pending transfer .accept
  let (payer, payee) ← b.parties journal.sender journal.receiver
  match Program.newBalances payer payee journal.amount with
  | .ok balances =>
    let booked := b.book journal { payer.1 with balance := balances.1 }
      { payee.1 with balance := balances.2 } (clock 1) (clock 2)
    return (journal.completed (clock 0), booked.record (journal.completed (clock 0)))
  | .error (.refused (.limitExceeded side _ _)) =>
    let journal := journal.cancelled (Program.systemReason side) (clock 0)
    return (journal, b.record journal)
  | .error failure => throw failure

/-- A new transfer is booked at once. -/
def transferNow (eligible : AccountNumber → Bool) (request : TransferRequest) (chance : Chance) :
    Except (Failure LedgerError) (Journal × Content) := do
  (request.check eligible).mapError .refused
  let (payer, payee) ← b.parties request.sender request.receiver
  let balances ← Program.newBalances payer payee request.amount
  if (b.journal chance.transfer).isSome then
    throw (.refused (.duplicateKey (.transfer chance.transfer)))
  let journal := (request.draft chance.transfer (chance.clock 0)).toJournal ⟨0⟩
  let booked := b.book journal { payer.1 with balance := balances.1 }
    { payee.1 with balance := balances.2 } (chance.clock 1) (chance.clock 2)
  return (journal.completed (chance.clock 3), booked.record (journal.completed (chance.clock 3)))

end Content

namespace Operation

/-- The operations that read and change only rows that they have locked. -/
def Locking : Operation → Prop
  | openAccount .. | propose .. => False
  | updateLimits .. | accept .. | reject .. | cancel .. | transferNow .. => True

/-- The transfer that an operation is about to make. -/
def drawn : Operation → Option TransferId
  | propose _ _ chance | transferNow _ _ chance => some chance.transfer
  | _ => none

/-- A result without the keys of rows. -/
def unkeyed : (op : Operation) → op.Result → op.Result
  | openAccount .., a => { a with id := ⟨0⟩ }
  | updateLimits .., limit => limit
  | propose .., j | accept .., j | reject .., j | cancel .., j | transferNow .., j => j.unkeyed

/-- What an operation that works on locked rows comes to, as far as keys do not matter. -/
def effect (b : Content) : (op : Operation) → op.Locking →
    Except (Failure LedgerError) (op.Result × Content)
  | updateLimits number maxPos maxNeg now, _ => b.updateLimits number maxPos maxNeg now
  | accept transfer clock, _ => b.accept transfer clock
  | reject transfer reason now, _ => b.close transfer reason .reject now
  | cancel transfer reason now, _ => b.close transfer reason .cancel now
  | transferNow eligible request chance, _ => b.transferNow eligible request chance

end Operation

/-! ## Reading the content -/

namespace Tables

/-- The account of a number and its limits. -/
def HasRow (t : Tables) (n : AccountNumber) (row : Account × BalanceLimit) : Prop :=
  t.account? n = some row.1 ∧ t.limit? n = some row.2

variable (t : Tables)

variable {t} in
theorem HasRow.content_row {n : AccountNumber} {row : Account × BalanceLimit}
    (h : t.HasRow n row) : t.content.row n = .ok row := by
  show (Content.need _ (t.account? n) >>= fun a => Content.need _ (t.limit? n) >>= fun limit =>
    pure (a, limit)) = _
  rw [h.1, h.2]
  rfl

theorem content_parties {sender receiver : AccountNumber} {payer payee : Account × BalanceLimit}
    (h : Parties t sender receiver payer payee) :
    t.content.parties sender receiver = .ok (payer, payee) := by
  have hs : t.HasRow sender payer := ⟨h.payer_row, h.payer_limit⟩
  have hr : t.HasRow receiver payee := ⟨h.payee_row, h.payee_limit⟩
  unfold Content.parties
  rw [hs.content_row, hr.content_row]
  split
  · rfl
  · rfl

/-- What is booked on an account adds up to the same in all tables with the same content. -/
theorem total?_bookedOn (n : AccountNumber) :
    Posting.total? (t.bookedOn n) =
      Posting.total? (t.content.booked.filter fun p => p.account = n) := by
  show _ = Posting.total? ((t.allPostings.map Posting.unkeyed).filter _)
  rw [List.filter_map, Posting.total?, Posting.total?, List.map_map]
  rfl

variable {x : TransferId} {j : Journal} (action : Action)

theorem content_pending_of_none (h : t.journal? x = none) : t.content.pending x action =
    .error (.refused (.transferNotFound (.transfer x))) := by
  show (Content.need _ ((t.journal? x).map _) >>= _) = _
  rw [h]
  rfl

theorem content_pending_of_ended (h : t.journal? x = some j) (hs : j.status ≠ .initiated) :
    t.content.pending x action =
      .error (.refused (.invalidStateTransition x j.status action)) := by
  show (Content.need _ ((t.journal? x).map _) >>= _) = _
  rw [h]
  exact if_pos (show j.status.isTerminal = true by simp [hs, Status.isTerminal])

theorem content_pending_of_pending (h : t.journal? x = some j) (hs : j.status = .initiated) :
    t.content.pending x action = .ok j.unkeyed := by
  show (Content.need _ ((t.journal? x).map _) >>= _) = _
  rw [h]
  exact if_neg (show ¬ j.status.isTerminal = true by simp [hs, Status.isTerminal])

end Tables

/-! ## Keys -/

/-- Rows stand under their own keys, journals have distinct ones that have been given out, and
    what is booked belongs to a completed transfer. -/
structure Tables.Keyed (t : Tables) (s : Sequences) : Prop extends t.WellFormed, t.Indexed s where
  completed : t.OnlyCompleted

namespace Tables.Keyed

variable {t : Tables} {s : Sequences} (h : t.Keyed s)
include h

theorem mono {s' : Sequences} (hs : s ≤ s') : t.Keyed s' :=
  ⟨h.toWellFormed, h.toIndexed.mono hs, h.completed⟩

theorem withLimit (limit : BalanceLimit) : (t.withLimit limit).Keyed s :=
  ⟨h.toWellFormed.withLimit limit, ⟨h.id_le, h.id_inj, h.sender, h.receiver⟩, h.completed⟩

theorem withJournal {j : Journal} (hj : t.Awaits s j) (hv : j.Valid) : (t.withJournal j).Keyed s :=
  ⟨h.toWellFormed.withJournal hv, h.toIndexed.withJournal hj, h.completed.withJournal hj⟩

/-- Both legs and the completed journal come together. -/
theorem booked {j : Journal} {payer payee : Account} {p q : Posting} (hj : t.Awaits s j)
    (hv : j.Valid) (hs : payer.number = j.sender) (hr : payee.number = j.receiver)
    (hl : j.HasLegs p q) (now : Timestamp) :
    ((t.withLegs j payer payee p q).withJournal (j.completed now)).Keyed s := by
  have hj' : t.Awaits s (j.completed now) :=
    ⟨hj.id_le, hj.own, hj.sender, hj.receiver, hj.pending⟩
  have hi := (h.toIndexed.withJournal hj').withLegs j payer payee p q
  have hw := (h.toWellFormed.withLegs hs hr p q).withJournal
    (j := j.completed now) ⟨hv.amount, hv.parties, hv.initiator⟩
  exact ⟨hw, ⟨hi.id_le, hi.id_inj, hi.sender, hi.receiver⟩,
    h.completed.booked hj payer payee hl now⟩

end Tables.Keyed

theorem Ledger.Reachable.keyed {limits : DefaultLimits} {l : Ledger} (h : l.Reachable limits) :
    l.tables.Keyed l.store.sequences :=
  ⟨h.atRest.wellFormed, h.doubleEntry.toIndexed, h.doubleEntry.completed⟩

/-! ## The content after a commit -/

namespace Tables

variable {t : Tables}

theorem content_withLimit (limit : BalanceLimit) :
    (t.withLimit limit).content = t.content.relimit limit := by
  have hl : (t.withLimit limit).limit? =
      Function.update t.limit? limit.account (some limit) := by
    funext n
    rw [limit?_withLimit, Function.update_apply]
  simp only [content, Content.relimit, hl]
  rfl

/-- The journals after one of them has been written. -/
theorem content_journal {t' : Tables} {j : Journal}
    (ht : ∀ x, t'.journal? x = if x = j.transfer then some j else t.journal? x) :
    t'.content.journal = Function.update t.content.journal j.transfer (some j.unkeyed) := by
  funext x
  rw [Function.update_apply]
  show (t'.journal? x).map _ = _
  rw [ht]
  split
  · rfl
  · rfl

/-- A journal that keeps its key keeps its postings. -/
theorem content_withJournal {j k : Journal} (hk : t.journal? j.transfer = some k)
    (hid : k.id = j.id) : (t.withJournal j).content = t.content.record j.unkeyed := by
  have hlegs : (t.withJournal j).content.legs = t.content.legs := by
    funext x
    show (((t.withJournal j).journal? x).elim [] fun j => t.postingsOfJournal j.id).map _ =
      ((t.journal? x).elim [] fun j => t.postingsOfJournal j.id).map _
    rw [journal?_withJournal]
    split
    · rename_i hx
      rw [hx, hk, Option.elim_some, Option.elim_some, hid]
    · rfl
  have hjournal : (t.withJournal j).content.journal = _ :=
    content_journal (journal?_withJournal t j)
  show Content.mk _ _ (t.withJournal j).content.journal (t.withJournal j).content.legs _ = _
  rw [hlegs, hjournal]
  rfl

section
variable {s s' : Sequences} {j : Journal} {p q : Posting} (payer payee : Account) (now : Timestamp)

theorem account_booked (t : Tables) (j : Journal) (p q : Posting) :
    ((t.withLegs j payer payee p q).withJournal (j.completed now)).content.account =
      Function.update (Function.update t.account? j.sender (some payer)) j.receiver
        (some payee) := by
  funext n
  rw [Function.update_apply, Function.update_apply]
  exact account?_withLegs t j payer payee p q n

/-- The legs of the other transfers are where they were. -/
theorem legs_booked (h : t.Keyed s) (hj : t.Awaits s' j) (hl : j.HasLegs p q) :
    ((t.withLegs j payer payee p q).withJournal (j.completed now)).content.legs =
      Function.update t.content.legs j.transfer [p.unkeyed, q.unkeyed] := by
  have hp := postings_withLegs payer payee (h.completed.postings_eq_none hj) hl
  funext x
  rw [Function.update_apply]
  show ((((t.withLegs j payer payee p q).withJournal (j.completed now)).journal? x).elim []
    fun j => ((t.withLegs ..).postings.get? j.id).getD []).map _ = _
  rw [hp, journal?_withJournal]
  by_cases hx : x = j.transfer
  · rw [if_pos (show x = (j.completed now).transfer from hx), if_pos hx]
    show (((t.postings.put j.id [p, q]).get? j.id).getD []).map _ = _
    rw [Table.get?_put_self]
    rfl
  · rw [if_neg (show ¬ x = (j.completed now).transfer from hx), if_neg hx]
    show ((t.journal? x).elim [] _).map _ = ((t.journal? x).elim [] _).map _
    cases hk : t.journal? x with
    | none => rfl
    | some k =>
      have hne : k.id ≠ j.id := fun he => hx (hj.own x k hk he)
      rw [Option.elim_some, Option.elim_some, Table.get?_put_of_ne _ _ hne]
      rfl

/-- A transfer is booked and completed. -/
theorem content_booked (h : t.Keyed s) (hj : t.Awaits s' j) (hl : j.HasLegs p q) :
    ((t.withLegs j payer payee p q).withJournal (j.completed now)).content =
      (t.content.book j.unkeyed payer payee p.createdAt q.createdAt).record
        (j.unkeyed.completed now) := by
  have haccount := account_booked payer payee now t j p q
  have hlegs := legs_booked payer payee now h hj hl
  have hjournal : ((t.withLegs j payer payee p q).withJournal (j.completed now)).content.journal =
      _ := content_journal (t := t) (journal?_withJournal _ (j.completed now))
  have hbooked : (t.withLegs j payer payee p q).content.booked =
      t.content.booked ++ [p.unkeyed, q.unkeyed] := by
    show (t.withLegs j payer payee p q).allPostings.map _ = _
    rw [allPostings_withLegs payer payee (h.completed.postings_eq_none hj) hl, List.map_append]
    rfl
  have hunkeyed : [p.unkeyed, q.unkeyed] = [⟨⟨0⟩, j.sender, ⟨0⟩, -j.amount, p.createdAt⟩,
      ⟨⟨0⟩, j.receiver, ⟨0⟩, j.amount, q.createdAt⟩] := by
    simp only [Posting.unkeyed, hl.debit_account, hl.debit_amount, hl.credit_account,
      hl.credit_amount]
  obtain ⟨t', ht'⟩ : ∃ t', t' = (t.withLegs j payer payee p q).withJournal (j.completed now) :=
    ⟨_, rfl⟩
  rw [← ht'] at haccount hlegs hjournal ⊢
  have hlimit : t'.content.limit = t.content.limit := by rw [ht']; rfl
  have hall : t'.content.booked = (t.withLegs j payer payee p q).content.booked := by rw [ht']; rfl
  show Content.mk t'.content.account t'.content.limit t'.content.journal t'.content.legs
    t'.content.booked = _
  rw [haccount, hlimit, hjournal, hlegs, hall, hbooked, hunkeyed]
  rfl

end

end Tables
end CreditCircle

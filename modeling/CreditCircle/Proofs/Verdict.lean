/-
  What operations ask for before they write, read off the committed tables.

  * `Content.glance`, `Content.parties`: both parties of a transfer, looked up without locks and
    with them.
  * `Tables.granted`, `pending`, `admits`, `drawn`: what has to be so for a new transfer, for the
    end of a transfer, and for a new account; otherwise how that is reported.
  * `Tables.booked`: the tables with both legs of a transfer.
-/
import CreditCircle.Proofs.Content

namespace CreditCircle

/-! ## What operations ask for -/

/-- Both parties as they are found without locks: first the accounts, then the limits. -/
def Content.glance (b : Content) (sender receiver : AccountNumber) :
    Except (Failure LedgerError) ((Account × BalanceLimit) × (Account × BalanceLimit)) := do
  let payer ← need (.accountNotFound (.number sender)) (b.account sender)
  let payee ← need (.accountNotFound (.number receiver)) (b.account receiver)
  let senderLimit ← need (.accountNotFound (.limitOf sender)) (b.limit sender)
  let receiverLimit ← need (.accountNotFound (.limitOf receiver)) (b.limit receiver)
  return ((payer, senderLimit), (payee, receiverLimit))

theorem bind_eq_ok_iff {ε α β : Type} {x : Except ε α} {f : α → Except ε β} {b : β} :
    x >>= f = .ok b ↔ ∃ a, x = .ok a ∧ f a = .ok b := by
  cases x <;> simp [bind, Except.bind]

theorem mapError_eq_ok_iff {ε ε' α : Type} {x : Except ε α} {f : ε → ε'} {a : α} :
    x.mapError f = .ok a ↔ x = .ok a := by
  cases x <;> simp [Except.mapError]

theorem Content.need_eq_ok_iff {α : Type} {e : LedgerError} {found : Option α} {a : α} :
    need e found = .ok a ↔ found = some a := by
  cases found <;> simp [need]

namespace Tables

variable {t : Tables} {sender receiver : AccountNumber}
  {rows : (Account × BalanceLimit) × (Account × BalanceLimit)}

theorem content_row_eq_ok_iff {n : AccountNumber} {row : Account × BalanceLimit} :
    t.content.row n = .ok row ↔ t.HasRow n row := by
  refine ⟨fun h => ?_, HasRow.content_row⟩
  simp only [Content.row, bind_eq_ok_iff, Content.need_eq_ok_iff] at h
  obtain ⟨a, ha, limit, hl, h⟩ := h
  cases h
  exact ⟨ha, hl⟩

theorem content_parties_eq_ok_iff : t.content.parties sender receiver = .ok rows ↔
    Parties t sender receiver rows.1 rows.2 := by
  refine ⟨fun h => ?_, t.content_parties⟩
  unfold Content.parties at h
  split at h
  · simp only [bind_eq_ok_iff, content_row_eq_ok_iff] at h
    obtain ⟨payer, hs, payee, hr, h⟩ := h
    cases h
    exact ⟨hs.1, hs.2, hr.1, hr.2⟩
  · simp only [bind_eq_ok_iff, content_row_eq_ok_iff] at h
    obtain ⟨payee, hr, payer, hs, h⟩ := h
    cases h
    exact ⟨hs.1, hs.2, hr.1, hr.2⟩

theorem content_glance_eq_ok_iff : t.content.glance sender receiver = .ok rows ↔
    Parties t sender receiver rows.1 rows.2 := by
  simp only [Content.glance, bind_eq_ok_iff, Content.need_eq_ok_iff]
  constructor
  · rintro ⟨payer, h₁, payee, h₂, limit, h₃, limit', h₄, h⟩
    cases h
    exact ⟨h₁, h₃, h₂, h₄⟩
  · rintro ⟨h₁, h₃, h₂, h₄⟩
    exact ⟨_, h₁, _, h₂, _, h₃, _, h₄, rfl⟩

variable (t)

/-- The identifier of a new transfer is not taken. -/
def claim (x : TransferId) : Except (Failure LedgerError) Unit :=
  if (t.journal? x).isSome then .error (.refused (.duplicateKey (.transfer x))) else .ok ()

theorem claim_eq_ok_iff {t : Tables} {x : TransferId} :
    t.claim x = .ok () ↔ t.journal? x = none := by
  unfold claim
  cases t.journal? x <;> simp

/-- A transfer that is still pending. -/
def pending (x : TransferId) (action : Action) : Except (Failure LedgerError) Journal := do
  let journal ← Content.need (.transferNotFound (.transfer x)) (t.journal? x)
  if journal.status.isTerminal then
    throw (.refused (.invalidStateTransition x journal.status action))
  return journal

theorem pending_eq_ok_iff {t : Tables} {x : TransferId} {action : Action} {j : Journal} :
    t.pending x action = .ok j ↔ t.journal? x = some j ∧ j.status = .initiated := by
  unfold pending
  cases hx : t.journal? x with
  | none =>
    constructor
    · intro h; cases h
    · rintro ⟨h, -⟩; cases h
  | some k =>
    show (if k.status.isTerminal then _ else _) = _ ↔ _
    by_cases hk : k.status = .initiated
    · rw [if_neg (by simp [hk, Status.isTerminal])]
      constructor
      · rintro ⟨⟩; exact ⟨rfl, hk⟩
      · rintro ⟨⟨⟩, -⟩; rfl
    · rw [if_pos (by simp [hk, Status.isTerminal])]
      constructor
      · intro h; cases h
      · rintro ⟨⟨⟩, hi⟩; exact absurd hi hk

/-- The rows of both parties, once they have been looked up as `rows` says, and their balances
    after the transfer that is asked for. -/
def granted (eligible : AccountNumber → Bool) (request : TransferRequest) (x : TransferId)
    (rows : Except (Failure LedgerError) ((Account × BalanceLimit) × (Account × BalanceLimit))) :
    Except (Failure LedgerError)
      (((Account × BalanceLimit) × (Account × BalanceLimit)) × (Decimal × Decimal)) := do
  (request.check eligible).mapError .refused
  let rows ← rows
  let balances ← Program.newBalances rows.1 rows.2 request.amount
  t.claim x
  return (rows, balances)

/-- A member that has no account may get one with this number. -/
def admits (t : Tables) (number : AccountNumber) (entity : EntityId) :
    Except (Failure LedgerError) Unit :=
  if (t.account? number).isSome then .error (.refused (.duplicateKey (.number number)))
  else if (t.entityAccounts.get? entity).isSome then
    .error (.refused (.duplicateKey (.entity entity)))
  else .ok ()

theorem admits_eq_ok_iff {t : Tables} {number : AccountNumber} {entity : EntityId} :
    t.admits number entity = .ok () ↔
      t.account? number = none ∧ t.entityAccounts.get? entity = none := by
  unfold admits
  cases t.account? number with
  | some a => simp
  | none => cases t.entityAccounts.get? entity <;> simp

theorem admits_refused {t : Tables} {number : AccountNumber} {entity : EntityId}
    {f : Failure LedgerError} (h : t.admits number entity = .error f) : ∃ e, f = .refused e := by
  unfold admits at h
  split at h
  · exact ⟨_, by cases h; rfl⟩
  · split at h
    · exact ⟨_, by cases h; rfl⟩
    · cases h

/-- The attempt at which a number has been drawn that nobody has. -/
def drawn (t : Tables) (entity : EntityId) (chance : Chance) :
    (left attempt : Nat) → Except (Failure LedgerError) Nat
  | 0, attempt => do
    t.admits (.generate (chance.numbers attempt)) entity
    return attempt
  | left + 1, attempt =>
    match t.admits (.generate (chance.numbers attempt)) entity with
    | .ok () => .ok attempt
    | .error e =>
      if e = .refused (.duplicateKey (.number (.generate (chance.numbers attempt)))) then
        t.drawn entity chance left (attempt + 1)
      else .error e

theorem drawn_of_new {t : Tables} {entity : EntityId} {chance : Chance} {attempt : Nat}
    (hn : t.account? (.generate (chance.numbers attempt)) = none)
    (he : t.entityAccounts.get? entity = none) (left : Nat) :
    t.drawn entity chance left attempt = .ok attempt := by
  have hadmits := admits_eq_ok_iff.2 ⟨hn, he⟩
  cases left with
  | zero => unfold drawn; rw [hadmits]; rfl
  | succ left => unfold drawn; rw [hadmits]

end Tables

/-! ## What is booked -/

namespace Journal

variable (j : Journal) (s : Sequences) (now : Timestamp)

/-- The posting that takes the amount from the sender. -/
def debit : Posting := ⟨⟨s.posting + 1⟩, j.sender, j.id, -j.amount, now⟩

/-- The posting that gives the amount to the receiver. -/
def credit : Posting := ⟨⟨s.posting + 2⟩, j.receiver, j.id, j.amount, now⟩

end Journal

/-- The tables with both legs of `j`, whose parties had these rows and have these balances now. -/
def Tables.booked (t : Tables) (s : Sequences) (j : Journal)
    (rows : (Account × BalanceLimit) × (Account × BalanceLimit)) (balances : Decimal × Decimal)
    (debitTime creditTime : Timestamp) : Tables :=
  t.withLegs j { rows.1.1 with balance := balances.1 } { rows.2.1 with balance := balances.2 }
    (j.debit s debitTime) (j.credit s creditTime)

end CreditCircle

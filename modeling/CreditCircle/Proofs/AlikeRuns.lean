/-
  Operations on ledgers that say the same.

  * `Concur`, `RunsAlike`: two computations, or two runs, that succeed with related results or
    both fail; `RunsAlike.provided` carries one over to the other.
  * `SameVerdict`: limit checks that come to the same, up to the account that a failure names.
  * `TransferRequest.Alike`, `Tables.SameTransfer`: requests and transfers that stand for each
    other.
  * `Ledger.Alike.openAccount`, …, `transferNow`: an operation runs alike on two such ledgers,
    provided that what it draws is not taken.
-/
import CreditCircle.Proofs.Alike
import CreditCircle.Proofs.FastPath
import CreditCircle.Proofs.Lifecycle

namespace CreditCircle

/-! ## Computations that concur -/

/-- Both give a result, and the results are related; or neither does. -/
inductive Concur {ε ε' α β : Type} (R : α → β → Prop) : Except ε α → Except ε' β → Prop
  | ok {a : α} {b : β} (h : R a b) : Concur R (.ok a) (.ok b)
  | error (e : ε) (f : ε') : Concur R (.error e) (.error f)

namespace Concur

variable {ε ε' α β γ δ : Type} {R : α → β → Prop} {S : γ → δ → Prop} {x : Except ε α}
  {y : Except ε' β}

theorem bind {f : α → Except ε γ} {g : β → Except ε' δ} (h : Concur R x y)
    (hf : ∀ a b, R a b → Concur S (f a) (g b)) : Concur S (x >>= f) (y >>= g) := by
  cases h with
  | ok h => exact hf _ _ h
  | error e f => exact .error e f

theorem mapError {φ φ' : Type} (h : Concur R x y) (f : ε → φ) (g : ε' → φ') :
    Concur R (x.mapError f) (y.mapError g) := by
  cases h with
  | ok h => exact .ok h
  | error e e' => exact .error (f e) (g e')

/-- Checks that pass under the same conditions. -/
theorem of_ok_iff {x : Except ε Unit} {y : Except ε' Unit} (h : x = .ok () ↔ y = .ok ()) :
    Concur (fun _ _ => True) x y := by
  cases x with
  | ok _ => rw [h.1 rfl]; exact .ok trivial
  | error e =>
    cases y with
    | ok _ => exact absurd (h.2 rfl) nofun
    | error f => exact .error e f

end Concur

/-- Both runs succeed, with related results on related ledgers; or both fail. -/
inductive RunsAlike {α β : Type} (R : α → Ledger → β → Ledger → Prop) :
    Except (Failure LedgerError) α × Ledger → Except (Failure LedgerError) β × Ledger → Prop
  | ok {a : α} {b : β} {l m : Ledger} (h : R a l b m) : RunsAlike R (.ok a, l) (.ok b, m)
  | error (e f : Failure LedgerError) (l m : Ledger) : RunsAlike R (.error e, l) (.error f, m)

theorem RunsAlike.provided {α β γ δ : Type} {R : α → Ledger → β → Ledger → Prop}
    {S : γ → δ → Prop} {l m : Ledger} {x : Except (Failure LedgerError) γ}
    {y : Except (Failure LedgerError) δ} {f : γ → Except (Failure LedgerError) α × Ledger}
    {g : δ → Except (Failure LedgerError) β × Ledger} (h : Concur S x y)
    (hf : ∀ c d, x = .ok c → y = .ok d → S c d → RunsAlike R (f c) (g d)) :
    RunsAlike R (l.provided x f) (m.provided y g) := by
  cases h with
  | ok h => exact hf _ _ rfl rfl h
  | error e e' => exact .error e e' l m

/-! ## Limit checks -/

/-- Two checks come to the same, but for the accounts that their failures name. -/
inductive SameVerdict {α : Type} :
    Except (Failure LedgerError) α → Except (Failure LedgerError) α → Prop
  | ok (a : α) : SameVerdict (.ok a) (.ok a)
  | exceeded (side : Side) (m n : AccountNumber) (room : Decimal) :
      SameVerdict (.error (.refused (.limitExceeded side m room)))
        (.error (.refused (.limitExceeded side n room)))
  | overflowed (leg : Leg) (m n : AccountNumber) :
      SameVerdict (.error (.refused (.arithmeticOverflow leg m)))
        (.error (.refused (.arithmeticOverflow leg n)))
  | crashed (overflow : Decimal.Overflow) :
      SameVerdict (.error (.crashed overflow)) (.error (.crashed overflow))

namespace SameVerdict

variable {α β : Type} {x y : Except (Failure LedgerError) α}

theorem bind {f g : α → Except (Failure LedgerError) β} (h : SameVerdict x y)
    (hf : ∀ a, SameVerdict (f a) (g a)) : SameVerdict (x >>= f) (y >>= g) := by
  cases h with
  | ok a => exact hf a
  | exceeded side m n room => exact .exceeded side m n room
  | overflowed leg m n => exact .overflowed leg m n
  | crashed overflow => exact .crashed overflow

theorem concur (h : SameVerdict x y) : Concur Eq x y := by
  cases h with
  | ok a => exact .ok rfl
  | exceeded | overflowed | crashed => exact .error _ _

/-- What is exceeded, and by how much, does not depend on whose account it is. -/
theorem headroom (room : Except Decimal.Overflow Decimal) (side : Side) (m n : AccountNumber) :
    SameVerdict (α := α)
      (BalanceLimit.orCrash room >>= fun room => .error (.refused (.limitExceeded side m room)))
      (BalanceLimit.orCrash room >>= fun room =>
        .error (.refused (.limitExceeded side n room))) := by
  cases room with
  | ok room => exact .exceeded side m n room
  | error overflow => exact .crashed overflow

end SameVerdict

variable {ρ ρ' : AccountNumber → AccountNumber → Prop}

namespace RowsAlike

variable {row row' : Account × BalanceLimit} (h : RowsAlike row row') (amount : Decimal)
include h

theorem isExceededBy_iff (balance : Decimal) :
    row.2.IsExceededBy balance ↔ row'.2.IsExceededBy balance := by
  unfold BalanceLimit.IsExceededBy BalanceLimit.floor
  rw [h.maxPos, h.maxNeg]

theorem checkDebit : SameVerdict (row.2.checkDebit row.1 amount) (row'.2.checkDebit row'.1 amount) := by
  unfold BalanceLimit.checkDebit BalanceLimit.negativeHeadroom
  rw [h.balance, h.maxNeg]
  cases row'.1.balance.sub? amount with
  | none => exact .overflowed _ _ _
  | some balance =>
    simp only [h.isExceededBy_iff]
    split
    · exact .headroom _ _ _ _
    · exact .ok _

theorem checkCredit :
    SameVerdict (row.2.checkCredit row.1 amount) (row'.2.checkCredit row'.1 amount) := by
  unfold BalanceLimit.checkCredit BalanceLimit.positiveHeadroom
  rw [h.balance, h.maxPos]
  cases row'.1.balance.add? amount with
  | none => exact .overflowed _ _ _
  | some balance =>
    simp only [h.isExceededBy_iff]
    split
    · exact .headroom _ _ _ _
    · exact .ok _

end RowsAlike

/-- The rows of both parties are alike. -/
structure PartiesAlike (rows rows' : (Account × BalanceLimit) × (Account × BalanceLimit)) :
    Prop where
  payer : RowsAlike rows.1 rows'.1
  payee : RowsAlike rows.2 rows'.2

theorem PartiesAlike.newBalances
    {rows rows' : (Account × BalanceLimit) × (Account × BalanceLimit)}
    (h : PartiesAlike rows rows') (amount : Decimal) :
    SameVerdict (Program.newBalances rows.1 rows.2 amount)
      (Program.newBalances rows'.1 rows'.2 amount) :=
  (h.payer.checkDebit amount).bind fun _ => (h.payee.checkCredit amount).bind fun _ => .ok _

/-! ## Requests and transfers -/

/-- Two requests ask for the same. -/
structure TransferRequest.Alike (ρ : AccountNumber → AccountNumber → Prop)
    (r r' : TransferRequest) : Prop where
  sender : ρ r.sender r'.sender
  receiver : ρ r.receiver r'.receiver
  initiator : ρ r.initiator r'.initiator
  amount : r.amount = r'.amount
  description : r.description = r'.description
  senderParty : r.senderParty = r'.senderParty
  receiverParty : r.receiverParty = r'.receiverParty

namespace TransferRequest.Alike

variable {r r' : TransferRequest} (h : r.Alike ρ r')
include h

theorem withDescription (description : String) :
    Alike ρ { r with description } { r' with description } :=
  { h with description := rfl }

theorem check (hρ : Relator.BiUnique ρ) :
    Concur (fun _ _ => True) (r.check fun _ => true) (r'.check fun _ => true) := by
  have hparties : r.sender = r.receiver ↔ r'.sender = r'.receiver :=
    Relator.rel_eq hρ h.sender h.receiver
  have hsender : r.initiator = r.sender ↔ r'.initiator = r'.sender :=
    Relator.rel_eq hρ h.initiator h.sender
  have hreceiver : r.initiator = r.receiver ↔ r'.initiator = r'.receiver :=
    Relator.rel_eq hρ h.initiator h.receiver
  refine .of_ok_iff ?_
  rw [check_eq_ok_iff, check_eq_ok_iff, h.amount, Ne, hparties, hsender, hreceiver]

theorem journal (x x' : TransferId) (now now' : Timestamp) (id : JournalId) :
    ((r.draft x now).toJournal id).Alike ρ ((r'.draft x' now').toJournal id) where
  id := rfl
  initiator := h.initiator
  sender := h.sender
  receiver := h.receiver
  senderParty := h.senderParty
  receiverParty := h.receiverParty
  amount := h.amount
  description := h.description
  status := rfl
  reason := rfl
  completedAt := rfl

end TransferRequest.Alike

/-- Two transfers whose journals have the same key. -/
def Tables.SameTransfer (t t' : Tables) (x x' : TransferId) : Prop :=
  ∃ j k, t.journal? x = some j ∧ t'.journal? x' = some k ∧ j.id = k.id

namespace Tables

variable {t t' : Tables}

/-- What has become of them still has that key. -/
theorem SameTransfer.follows {u u' : Tables} {x x' : TransferId} (h : t.SameTransfer t' x x')
    (ht : t.Follows u) (ht' : t'.Follows u') : u.SameTransfer u' x x' := by
  obtain ⟨j, k, hj, hk, hid⟩ := h
  obtain ⟨j', hj', hf, -⟩ := ht x j hj
  obtain ⟨k', hk', hf', -⟩ := ht' x' k hk
  exact ⟨j', k', hj', hk', hf.trans (hid.trans hf'.symm)⟩

theorem granted_concur (hρ : Relator.BiUnique ρ) {r r' : TransferRequest} (hr : r.Alike ρ r')
    {x x' : TransferId} (hx : t.journal? x = none) (hx' : t'.journal? x' = none)
    {rows rows' : Except (Failure LedgerError) ((Account × BalanceLimit) × (Account × BalanceLimit))}
    (hrows : Concur PartiesAlike rows rows') :
    Concur (fun found found' => PartiesAlike found.1 found'.1 ∧ found.2 = found'.2)
      (t.granted (fun _ => true) r x rows) (t'.granted (fun _ => true) r' x' rows') := by
  refine ((hr.check hρ).mapError _ _).bind fun _ _ _ => hrows.bind fun rows rows' halike => ?_
  have hsums := (halike.newBalances r.amount).concur
  rw [hr.amount] at hsums ⊢
  refine hsums.bind fun balances balances' heq => ?_
  rw [claim_eq_ok_iff.2 hx, claim_eq_ok_iff.2 hx']
  exact .ok ⟨halike, heq⟩

namespace Alike

variable (h : t.Alike ρ t')
include h

theorem journal (hf : t.JournalsFound) (hf' : t'.JournalsFound) {x x' : TransferId}
    (hx : t.SameTransfer t' x x') :
    ∃ j k, t.journal? x = some j ∧ t'.journal? x' = some k ∧ j.Alike ρ k := by
  obtain ⟨j, k, hj, hk, hid⟩ := hx
  have hrel := h.journals j.id
  rw [hf.journalById? hj, hid, hf'.journalById? hk] at hrel
  cases hrel with
  | some halike => exact ⟨j, k, hj, hk, halike⟩

theorem pending (hf : t.JournalsFound) (hf' : t'.JournalsFound) {x x' : TransferId}
    (hx : t.SameTransfer t' x x') (action : Action) :
    Concur (Journal.Alike ρ) (t.pending x action) (t'.pending x' action) := by
  obtain ⟨j, k, hj, hk, halike⟩ := h.journal hf hf' hx
  by_cases hs : j.status = .initiated
  · rw [pending_eq_ok_iff.2 ⟨hj, hs⟩, pending_eq_ok_iff.2 ⟨hk, halike.status ▸ hs⟩]
    exact .ok halike
  · cases hp : t.pending x action with
    | ok j' =>
      obtain ⟨hj', hs'⟩ := pending_eq_ok_iff.1 hp
      rw [hj] at hj'; cases hj'
      exact absurd hs' hs
    | error e =>
      cases hp' : t'.pending x' action with
      | ok k' =>
        obtain ⟨hk', hs'⟩ := pending_eq_ok_iff.1 hp'
        rw [hk] at hk'; cases hk'
        exact absurd (halike.status.trans hs') hs
      | error f => exact .error e f

theorem parties {m n m' n' : AccountNumber} (hs : ρ m m') (hr : ρ n n') :
    ∃ rows rows', Parties t m n rows.1 rows.2 ∧ Parties t' m' n' rows'.1 rows'.2 ∧
      PartiesAlike rows rows' := by
  obtain ⟨payer, payer', hp, hp', hpayer⟩ := h.rows m m' hs
  obtain ⟨payee, payee', hq, hq', hpayee⟩ := h.rows n n' hr
  exact ⟨(payer, payee), (payer', payee'), ⟨hp.1, hp.2, hq.1, hq.2⟩, ⟨hp'.1, hp'.2, hq'.1, hq'.2⟩,
    ⟨hpayer, hpayee⟩⟩

/-- Without locks, the parties are found here and there. -/
theorem glance {m n m' n' : AccountNumber} (hs : ρ m m') (hr : ρ n n') :
    Concur PartiesAlike (t.content.glance m n) (t'.content.glance m' n') := by
  obtain ⟨rows, rows', hp, hp', halike⟩ := h.parties hs hr
  rw [content_glance_eq_ok_iff.2 hp, content_glance_eq_ok_iff.2 hp']
  exact .ok halike

/-- With locks they are found as well, whichever is taken first. -/
theorem lockParties {m n m' n' : AccountNumber} (hs : ρ m m') (hr : ρ n n') :
    Concur PartiesAlike (t.content.parties m n) (t'.content.parties m' n') := by
  obtain ⟨rows, rows', hp, hp', halike⟩ := h.parties hs hr
  rw [content_parties_eq_ok_iff.2 hp, content_parties_eq_ok_iff.2 hp']
  exact .ok halike

theorem updateLimits {m n : AccountNumber} (hmn : ρ m n) (hm : ∀ limit, t.limit? m = some limit →
    limit.account = m) (hn : ∀ limit, t'.limit? n = some limit → limit.account = n)
    (maxPos maxNeg : Decimal) (now now' : Timestamp) :
    Concur (fun found found' => ρ found.1.account found'.1.account ∧
        found.1.maxPos = found'.1.maxPos ∧ found.1.maxNeg = found'.1.maxNeg)
      (t.content.updateLimits m maxPos maxNeg now)
      (t'.content.updateLimits n maxPos maxNeg now') := by
  obtain ⟨row, row', hrow, hrow', halike⟩ := h.rows m n hmn
  have hnew : RowsAlike (row.1, { row.2 with maxPos, maxNeg, updatedAt := now })
      (row'.1, { row'.2 with maxPos, maxNeg, updatedAt := now' }) := ⟨halike.balance, rfl, rfl⟩
  have haccount : ρ row.2.account row'.2.account := by
    rw [hm _ hrow.2, hn _ hrow'.2]; exact hmn
  have hx := hnew.isExceededBy_iff row.1.balance
  unfold Content.updateLimits
  rw [hrow.content_row, hrow'.content_row]
  split
  · exact .error _ _
  · show Concur _ (if _ then _ else _) (if _ then _ else _)
    by_cases hexceeds : BalanceLimit.IsExceededBy { row.2 with maxPos, maxNeg, updatedAt := now }
      row.1.balance
    · rw [if_pos hexceeds, if_pos (halike.balance ▸ hx.1 hexceeds)]
      exact .error _ _
    · rw [if_neg hexceeds, if_neg (halike.balance ▸ mt hx.2 hexceeds)]
      exact .ok ⟨haccount, rfl, rfl⟩

end Alike
end Tables

/-! ## Runs -/

/-- What the tables of every ledger that can come about are like. -/
structure Tables.Regular (t : Tables) (s : Sequences) : Prop extends t.Keyed s where
  found : t.JournalsFound
  owned : ∀ n, (t.limit? n).isSome → (t.account? n).isSome

namespace Tables.Regular

variable {t : Tables} {s : Sequences} (h : t.Regular s)
include h

/-- Nothing is booked under a key that has not been given out. -/
theorem postings_of_new : t.postings.get? ⟨s.journal + 1⟩ = none := by
  cases hps : t.postings.get? ⟨s.journal + 1⟩ with
  | none => rfl
  | some ps =>
    obtain ⟨x, j, hj, hid, -⟩ := h.completed _ ps hps
    have := h.id_le x j hj
    rw [hid] at this
    exact absurd this (Nat.not_succ_le_self _)

theorem postings_of_pending {x : TransferId} {j : Journal} (hj : t.journal? x = some j)
    (hs : j.status = .initiated) : t.postings.get? j.id = none :=
  h.completed.postings_eq_none (h.toIndexed.awaits h.toWellFormed hj hs rfl rfl rfl rfl)

end Tables.Regular

namespace Ledger

/-- Alike journals have been recorded on ledgers that say the same. -/
structure Recorded (ρ : AccountNumber → AccountNumber → Prop) (j : Journal) (l : Ledger)
    (k : Journal) (m : Ledger) : Prop where
  ledger : l.Alike ρ m
  transfer : l.tables.SameTransfer m.tables j.transfer k.transfer

section
variable {t t' : Tables} {s : Sequences} {es es' : List Event} {e e' : Event} {j k : Journal}
  (h : t.Alike ρ t') (hf : t.JournalsFound) (hf' : t'.JournalsFound) (hj : j.Alike ρ k)
  (hes : List.Forall₂ (Event.Alike ρ) es es') (he : e.Alike ρ e')
include h hf hf' hj hes he

theorem Recorded.withNewJournal (hx : t.journal? j.transfer = none)
    (hx' : t'.journal? k.transfer = none) :
    Recorded ρ j (.calm (t.withNewJournal j) s (es ++ [e])) k
      (.calm (t'.withNewJournal k) s (es' ++ [e'])) := by
  refine ⟨⟨h.withNewJournal hf hf' hj hx hx', List.rel_append hes (.cons he .nil), rfl⟩,
    j, k, ?_, ?_, hj.id⟩
  · exact (Tables.journal?_withNewJournal ..).trans (if_pos rfl)
  · exact (Tables.journal?_withNewJournal ..).trans (if_pos rfl)

theorem Recorded.withJournal (hold : ∃ old, t.journal? j.transfer = some old ∧ old.id = j.id)
    (hold' : ∃ old, t'.journal? k.transfer = some old ∧ old.id = k.id) :
    Recorded ρ j (.calm (t.withJournal j) s (es ++ [e])) k
      (.calm (t'.withJournal k) s (es' ++ [e'])) := by
  refine ⟨⟨h.withJournal hf hf' hj hold hold', List.rel_append hes (.cons he .nil), rfl⟩,
    j, k, ?_, ?_, hj.id⟩
  · exact (Tables.journal?_withJournal ..).trans (if_pos rfl)
  · exact (Tables.journal?_withJournal ..).trans (if_pos rfl)

end

/-- Two ledgers that can come about, with nothing armed, and that say the same. -/
structure Twins (limits : DefaultLimits) (ρ : AccountNumber → AccountNumber → Prop)
    (l l' : Ledger) : Prop extends l.Alike ρ l' where
  left : l.Reachable limits
  right : l'.Reachable limits
  unarmed : l.store.armed = []
  unarmed' : l'.store.armed = []
  biUnique : Relator.BiUnique ρ

theorem Reachable.regular {limits : DefaultLimits} {l : Ledger} (h : l.Reachable limits) :
    l.tables.Regular l.store.sequences :=
  ⟨h.keyed, h.journalsFound, h.withinLimits.isSome_account⟩

namespace Twins

variable {limits : DefaultLimits} {l l' : Ledger} (h : Twins limits ρ l l')
include h

/-- Both ledgers are calm, and they have counted as far. -/
theorem exists_calm : ∃ t t' s es es', l = .calm t s es ∧ l' = .calm t' s es' ∧ t.Regular s ∧
    t'.Regular s ∧ t.Alike ρ t' ∧ List.Forall₂ (Event.Alike ρ) es es' := by
  obtain ⟨⟨htables, hevents, hsequences⟩, hleft, hright, ha, ha', -⟩ := h
  obtain ⟨t, s, es, rfl⟩ := hleft.eq_calm ha
  obtain ⟨t', s', es', rfl⟩ := hright.eq_calm ha'
  obtain rfl : s = s' := hsequences
  exact ⟨t, t', s, es, es', rfl, rfl, hleft.regular, hright.regular, htables, hevents⟩

theorem openAccount {entity entity' : EntityId} {chance chance' : Chance}
    (hn : l.tables.account? (.generate (chance.numbers 0)) = none)
    (he : l.tables.entityAccounts.get? entity = none)
    (hn' : l'.tables.account? (.generate (chance'.numbers 0)) = none)
    (he' : l'.tables.entityAccounts.get? entity' = none) :
    RunsAlike (fun a m b m' => ∀ ρ' : AccountNumber → AccountNumber → Prop,
        (∀ x y, ρ' x y ↔ ρ x y ∨ x = a.number ∧ y = b.number) → m.Alike ρ' m')
      (l.run (Program.openAccount limits entity chance))
      (l'.run (Program.openAccount limits entity' chance')) := by
  obtain ⟨t, t', s, es, es', rfl, rfl, ht, ht', halike, hes⟩ := h.exists_calm
  replace hn : t.account? _ = none := hn
  replace hn' : t'.account? _ = none := hn'
  rw [Program.run_openAccount limits ht.owned, Program.run_openAccount limits ht'.owned,
    Tables.drawn_of_new hn he, Tables.drawn_of_new hn' he']
  refine .ok fun ρ' hρ' => ⟨?_, ?_, rfl⟩
  · exact halike.withAccount hn hn' rfl rfl ⟨rfl, rfl, rfl⟩ (fun x y hxy => (hρ' x y).2 (.inl hxy))
      fun x y => (hρ' x y).1
  · exact hes.imp fun _ _ he => he.mono fun x y hxy => (hρ' x y).2 (.inl hxy)

theorem updateLimits {m n : AccountNumber} (hmn : ρ m n) (maxPos maxNeg : Decimal)
    (now now' : Timestamp) :
    RunsAlike (fun _ m _ m' => m.Alike ρ m') (l.run (Program.updateLimits m maxPos maxNeg now))
      (l'.run (Program.updateLimits n maxPos maxNeg now')) := by
  obtain ⟨t, t', s, es, es', rfl, rfl, ht, ht', halike, hes⟩ := h.exists_calm
  rw [Program.run_updateLimits (ht.limit m), Program.run_updateLimits (ht'.limit n)]
  refine .provided (halike.updateLimits hmn (ht.limit m) (ht'.limit n) maxPos maxNeg now now') ?_
  rintro found found' - - ⟨haccount, hpos, hneg⟩
  exact .ok ⟨halike.withLimit h.biUnique haccount hpos hneg, hes, rfl⟩

theorem propose {request request' : TransferRequest} (hr : request.Alike ρ request')
    {chance chance' : Chance} (hx : l.tables.journal? chance.transfer = none)
    (hx' : l'.tables.journal? chance'.transfer = none) :
    RunsAlike (Recorded ρ) (l.run (Program.propose (.open limits) request chance))
      (l'.run (Program.propose (.open limits) request' chance')) := by
  obtain ⟨t, t', s, es, es', rfl, rfl, ht, ht', halike, hes⟩ := h.exists_calm
  have hj := hr.journal chance.transfer chance'.transfer (chance.clock 0) (chance'.clock 0)
    ⟨s.journal + 1⟩
  rw [Program.run_propose _ _ _ rfl, Program.run_propose _ _ _ rfl]
  refine .provided (Tables.granted_concur h.biUnique hr hx hx'
    (halike.glance hr.sender hr.receiver)) fun _ _ _ _ _ => .ok ?_
  exact .withNewJournal halike ht.found ht'.found hj hes (.proposed hj) hx hx'

theorem close {x x' : TransferId} (hx : l.tables.SameTransfer l'.tables x x') (reason : String)
    (action : Action) (canceller : Canceller) (now now' : Timestamp) :
    RunsAlike (Recorded ρ) (l.run (Program.close x reason action canceller now))
      (l'.run (Program.close x' reason action canceller now')) := by
  obtain ⟨t, t', s, es, es', rfl, rfl, ht, ht', halike, hes⟩ := h.exists_calm
  rw [Program.run_close (ht.journal x), Program.run_close (ht'.journal x')]
  refine .provided (halike.pending ht.found ht'.found hx action) fun j k hj hk hjk => .ok ?_
  have hj := ht.toWellFormed.found (Tables.pending_eq_ok_iff.1 hj).1
  have hk := ht'.toWellFormed.found (Tables.pending_eq_ok_iff.1 hk).1
  have hclosed := hjk.cancelled reason now now'
  exact .withJournal halike ht.found ht'.found hclosed hes (.cancelled hclosed canceller)
    ⟨j, hj, rfl⟩ ⟨k, hk, rfl⟩

theorem accept {x x' : TransferId} (hx : l.tables.SameTransfer l'.tables x x')
    (clock clock' : Clock) :
    RunsAlike (Recorded ρ) (l.run (Program.accept x clock)) (l'.run (Program.accept x' clock')) := by
  obtain ⟨t, t', s, es, es', rfl, rfl, ht, ht', halike, hes⟩ := h.exists_calm
  rw [Program.run_accept (ht.journal x) fun j hj => (ht.valid x j hj).parties,
    Program.run_accept (ht'.journal x') fun k hk => (ht'.valid x' k hk).parties]
  refine .provided (halike.pending ht.found ht'.found hx .accept) fun j k hj hk hjk => ?_
  refine .provided (halike.lockParties hjk.sender hjk.receiver) fun rows rows' _ _ hrows => ?_
  obtain ⟨hj, hpending⟩ := Tables.pending_eq_ok_iff.1 hj
  obtain ⟨hk, hpending'⟩ := Tables.pending_eq_ok_iff.1 hk
  have hn := ht.postings_of_pending hj hpending
  have hn' := ht'.postings_of_pending hk hpending'
  replace hj := ht.toWellFormed.found hj
  replace hk := ht'.toWellFormed.found hk
  have hverdict := hrows.newBalances j.amount
  rw [← hjk.amount]
  -- Both ledgers book the transfer, or cancel it because of the same side, or fail.
  revert hverdict
  generalize Program.newBalances rows.1 rows.2 j.amount = verdict
  generalize Program.newBalances rows'.1 rows'.2 j.amount = verdict'
  intro hverdict
  cases hverdict with
  | ok balances =>
    have hdone := hjk.completed (clock 0) (clock' 0)
    have hbooked := halike.booked h.biUnique hjk hn hn' s rows rows' balances (clock 1) (clock' 1)
      (clock 2) (clock' 2)
    exact .ok (.withJournal hbooked ht.found ht'.found hdone hes (.accepted hdone)
      ⟨j, hj, rfl⟩ ⟨k, hk, rfl⟩)
  | exceeded side m n room =>
    have hclosed := hjk.cancelled (Program.systemReason side) (clock 0) (clock' 0)
    exact .ok (.withJournal halike ht.found ht'.found hclosed hes (.cancelled hclosed .system)
      ⟨j, hj, rfl⟩ ⟨k, hk, rfl⟩)
  | overflowed leg m n => exact .error _ _ _ _
  | crashed overflow => exact .error _ _ _ _

theorem transferNow {request request' : TransferRequest} (hr : request.Alike ρ request')
    {chance chance' : Chance} (hx : l.tables.journal? chance.transfer = none)
    (hx' : l'.tables.journal? chance'.transfer = none) :
    RunsAlike (Recorded ρ) (l.run (Program.transferNow (.open limits) request chance))
      (l'.run (Program.transferNow (.open limits) request' chance')) := by
  obtain ⟨t, t', s, es, es', rfl, rfl, ht, ht', halike, hes⟩ := h.exists_calm
  have hj := hr.journal chance.transfer chance'.transfer (chance.clock 0) (chance'.clock 0)
    ⟨s.journal + 1⟩
  have hdone := hj.completed (chance.clock 3) (chance'.clock 3)
  rw [Program.run_transferNow _ _ _ rfl, Program.run_transferNow _ _ _ rfl]
  refine .provided (Tables.granted_concur h.biUnique hr hx hx'
    (halike.lockParties hr.sender hr.receiver)) ?_
  rintro ⟨rows, balances⟩ ⟨rows', balances'⟩ - - ⟨-, rfl⟩
  have hbooked := halike.booked h.biUnique hj ht.postings_of_new ht'.postings_of_new s rows rows'
    balances (chance.clock 1) (chance'.clock 1) (chance.clock 2) (chance'.clock 2)
  exact .ok (.withNewJournal hbooked ht.found ht'.found hdone hes (.accepted hdone) hx hx')

end Twins
end Ledger
end CreditCircle

/-
  Ledgers that differ only in what has been drawn at random or read off the clock.

  * `Tables.JournalsFound`: a journal is found under its own key and nowhere else.
  * `Journal.Alike`, `Posting.Alike`, `Event.Alike`: records that say the same about accounts that
    stand for each other; transfers are known by the keys of their journals, and times do not count.
  * `Tables.Alike`, `Ledger.Alike`: books that say the same.
  * `Tables.Alike.withAccount`, …, `booked`: what a commit makes of them says the same again.
-/
import CreditCircle.Proofs.Undisturbed
import Mathlib.Logic.Relator

namespace CreditCircle

/-! ## Journals by key -/

/-- The index of journals leads from the key of each journal to its transfer, and nowhere else. -/
def Tables.JournalsFound (t : Tables) : Prop :=
  ∀ id x, t.journalIds.get? id = some x ↔ ∃ j, t.journal? x = some j ∧ j.id = id

namespace Tables

variable {t : Tables} {j : Journal}

theorem JournalsFound.empty : Tables.empty.JournalsFound :=
  fun _ _ => ⟨nofun, fun ⟨_, h, _⟩ => by cases h⟩

theorem JournalsFound.withNewJournal (h : t.JournalsFound) (hj : t.journal? j.transfer = none)
    (hid : ∀ x k, t.journal? x = some k → k.id ≠ j.id) : (t.withNewJournal j).JournalsFound := by
  intro id x
  rw [journal?_withNewJournal]
  show (t.journalIds.put j.id j.transfer).get? id = some x ↔ _
  rw [Table.get?_put]
  by_cases hx : x = j.transfer
  · rw [if_pos hx, hx]
    by_cases he : id = j.id
    · simp [he]
    · have hne : ¬ ∃ k, t.journal? j.transfer = some k ∧ k.id = id := by simp [hj]
      rw [if_neg he, h, iff_false_left hne]
      rintro ⟨k, ⟨⟩, rfl⟩
      exact he rfl
  · rw [if_neg hx]
    by_cases he : id = j.id
    · rw [if_pos he, Option.some_inj, iff_false_left (fun h => hx h.symm)]
      rintro ⟨k, hk, hkid⟩
      exact hid x k hk (hkid.trans he)
    · rw [if_neg he]; exact h id x

theorem JournalsFound.withJournal (h : t.JournalsFound) {old : Journal}
    (hold : t.journal? j.transfer = some old) (hid : old.id = j.id) :
    (t.withJournal j).JournalsFound := by
  intro id x
  rw [journal?_withJournal]
  refine (h id x).trans ?_
  by_cases hx : x = j.transfer
  · rw [if_pos hx, hx, hold]
    simp [hid]
  · rw [if_neg hx]

/-! ### Look-ups -/

theorem JournalsFound.journalById? (h : t.JournalsFound) {x : TransferId}
    (hj : t.journal? x = some j) : t.journalById? j.id = some j := by
  rw [Tables.journalById?, (h j.id x).2 ⟨j, hj, rfl⟩]
  exact hj

theorem journalById?_withNewJournal (h : t.JournalsFound) (hj : t.journal? j.transfer = none)
    (id : JournalId) : (t.withNewJournal j).journalById? id =
      if id = j.id then some j else t.journalById? id := by
  show ((t.journalIds.put j.id j.transfer).get? id).bind (t.withNewJournal j).journal? = _
  rw [Table.get?_put]
  split
  · rw [Option.bind_some, journal?_withNewJournal, if_pos rfl]
  · cases hx : t.journalIds.get? id with
    | none => rw [Tables.journalById?, hx]; rfl
    | some x =>
      obtain ⟨k, hk, -⟩ := (h id x).1 hx
      have hne : x ≠ j.transfer := by
        rintro rfl
        rw [hj] at hk; cases hk
      rw [Tables.journalById?, hx, Option.bind_some, Option.bind_some, journal?_withNewJournal,
        if_neg hne]

theorem journalById?_withJournal (h : t.JournalsFound) {old : Journal}
    (hold : t.journal? j.transfer = some old) (hid : old.id = j.id) (id : JournalId) :
    (t.withJournal j).journalById? id = if id = j.id then some j else t.journalById? id := by
  show (t.journalIds.get? id).bind (t.withJournal j).journal? = _
  split
  · rename_i he
    rw [he, ← hid, (h old.id j.transfer).2 ⟨old, hold, rfl⟩, Option.bind_some,
      journal?_withJournal, if_pos rfl]
  · rename_i he
    cases hx : t.journalIds.get? id with
    | none => rw [Tables.journalById?, hx]; rfl
    | some x =>
      obtain ⟨k, hk, hkid⟩ := (h id x).1 hx
      have hne : x ≠ j.transfer := by
        rintro rfl
        rw [hold] at hk
        cases hk
        exact he (hkid.symm.trans hid)
      rw [Tables.journalById?, hx, Option.bind_some, Option.bind_some, journal?_withJournal,
        if_neg hne]

end Tables

theorem Change.journalsFound {limits : DefaultLimits} {l l' : Ledger} {op : Operation}
    (h : Change limits l l' op) (hw : l.tables.WellFormed)
    (hi : l.tables.Indexed l.store.sequences) (hf : l.tables.JournalsFound) :
    l'.tables.JournalsFound := by
  have hnew : ∀ {j : Journal}, l.store.sequences.journal < j.id.value →
      ∀ x k, l.tables.journal? x = some k → k.id ≠ j.id := by
    intro j hj x k hk he
    have := hi.id_le x k hk
    rw [he] at this
    omega
  have hown : ∀ {x : TransferId} {j k : Journal}, l.tables.journal? x = some j →
      k.transfer = j.transfer → l.tables.journal? k.transfer = some j := by
    intro x j k hj ht
    rw [ht, hw.journal x j hj]
    exact hj
  cases h with
  | opens h =>
    obtain ⟨now, -, ht⟩ := h.tables
    rw [ht]; exact hf
  | relimits h => rw [h.tables]; exact hf
  | proposes h => rw [h.tables]; exact hf.withNewJournal h.new (hnew h.id_new)
  | @completes x clock j h =>
    obtain ⟨t, ⟨-, -, -⟩, ht⟩ := h.tables
    rw [ht]
    exact Tables.JournalsFound.withJournal (t := l.tables.withLegs ..) hf
      (hown (k := j.completed _) h.found rfl) rfl
  | @closes _ x reason canceller now j hop h =>
    rw [h.tables]
    exact hf.withJournal (hown (k := j.cancelled _ _) h.found rfl) rfl
  | @transfers _ request chance j h =>
    obtain ⟨t, ⟨-, -, -⟩, ht⟩ := h.tables
    rw [ht]
    exact Tables.JournalsFound.withNewJournal (t := l.tables.withLegs ..) (j := j.completed _) hf
      h.new (hnew h.id_new)

theorem Ledger.Reachable.journalsFound {limits : DefaultLimits} {l : Ledger}
    (h : l.Reachable limits) : l.tables.JournalsFound := by
  refine h.induct (P := fun l => l.tables.JournalsFound) .empty fun l step hr hl => ?_
  rcases hr.atRest.next_cases limits step with ⟨op, v, -, -, hc⟩ | ⟨ht, -, -, hs⟩
  · exact hc.journalsFound hr.atRest.wellFormed hr.doubleEntry.toIndexed hl
  · rw [ht]; exact hl

/-! ## Records -/

variable {ρ ρ' : AccountNumber → AccountNumber → Prop}

/-- Two journals say the same, where `ρ` says which accounts stand for each other. -/
structure Journal.Alike (ρ : AccountNumber → AccountNumber → Prop) (j k : Journal) : Prop where
  id : j.id = k.id
  initiator : ρ j.initiator k.initiator
  sender : ρ j.sender k.sender
  receiver : ρ j.receiver k.receiver
  senderParty : j.senderParty = k.senderParty
  receiverParty : j.receiverParty = k.receiverParty
  amount : j.amount = k.amount
  description : j.description = k.description
  status : j.status = k.status
  reason : j.reason = k.reason
  completedAt : j.completedAt.isSome = k.completedAt.isSome

/-- Two postings say the same. -/
structure Posting.Alike (ρ : AccountNumber → AccountNumber → Prop) (p q : Posting) : Prop where
  id : p.id = q.id
  account : ρ p.account q.account
  journal : p.journal = q.journal
  amount : p.amount = q.amount

/-- Two events are of one kind, and their journals say the same. -/
inductive Event.Alike (ρ : AccountNumber → AccountNumber → Prop) : Event → Event → Prop
  | proposed {j k : Journal} (h : j.Alike ρ k) : Alike ρ (.proposed j) (.proposed k)
  | accepted {j k : Journal} (h : j.Alike ρ k) : Alike ρ (.accepted j) (.accepted k)
  | cancelled {j k : Journal} (h : j.Alike ρ k) (canceller : Canceller) :
      Alike ρ (.cancelled j canceller) (.cancelled k canceller)

/-- Two accounts have the same balance and the same limits. -/
structure RowsAlike (row row' : Account × BalanceLimit) : Prop where
  balance : row.1.balance = row'.1.balance
  maxPos : row.2.maxPos = row'.2.maxPos
  maxNeg : row.2.maxNeg = row'.2.maxNeg

namespace Journal.Alike

variable {j k : Journal} (h : j.Alike ρ k)
include h

theorem mono (hρ : ∀ m n, ρ m n → ρ' m n) : j.Alike ρ' k :=
  { h with
    initiator := hρ _ _ h.initiator
    sender := hρ _ _ h.sender
    receiver := hρ _ _ h.receiver }

theorem completed (now now' : Timestamp) : (j.completed now).Alike ρ (k.completed now') :=
  { h with status := rfl, completedAt := rfl }

theorem cancelled (reason : String) (now now' : Timestamp) :
    (j.cancelled reason now).Alike ρ (k.cancelled reason now') :=
  { h with status := rfl, reason := rfl }

theorem debit (s : Sequences) (now now' : Timestamp) :
    (j.debit s now).Alike ρ (k.debit s now') :=
  ⟨rfl, h.sender, h.id, congrArg Neg.neg h.amount⟩

theorem credit (s : Sequences) (now now' : Timestamp) :
    (j.credit s now).Alike ρ (k.credit s now') :=
  ⟨rfl, h.receiver, h.id, h.amount⟩

end Journal.Alike

theorem Posting.Alike.mono {p q : Posting} (h : p.Alike ρ q) (hρ : ∀ m n, ρ m n → ρ' m n) :
    p.Alike ρ' q :=
  { h with account := hρ _ _ h.account }

theorem Event.Alike.mono {e f : Event} (h : e.Alike ρ f) (hρ : ∀ m n, ρ m n → ρ' m n) :
    e.Alike ρ' f := by
  cases h with
  | proposed h => exact .proposed (h.mono hρ)
  | accepted h => exact .accepted (h.mono hρ)
  | cancelled h canceller => exact .cancelled (h.mono hρ) canceller

theorem optionRel_imp {α β : Type} {R S : α → β → Prop} (h : ∀ a b, R a b → S a b) {x : Option α}
    {y : Option β} (hxy : Option.Rel R x y) : Option.Rel S x y := by
  cases hxy with
  | none => exact .none
  | some hab => exact .some (h _ _ hab)

theorem optionRel_cases {α β : Type} {R : α → β → Prop} {x : Option α} {y : Option β}
    (hxy : Option.Rel R x y) :
    (x = none ∧ y = none) ∨ ∃ a b, x = some a ∧ y = some b ∧ R a b := by
  cases hxy with
  | none => exact .inl ⟨rfl, rfl⟩
  | some hab => exact .inr ⟨_, _, rfl, rfl, hab⟩

/-! ## Tables -/

/-- Accounts that stand for each other have alike rows, and under each key there are alike journals
    and postings, or none. -/
structure Tables.Alike (ρ : AccountNumber → AccountNumber → Prop) (t t' : Tables) : Prop where
  rows : ∀ m n, ρ m n → ∃ row row', t.HasRow m row ∧ t'.HasRow n row' ∧ RowsAlike row row'
  journals : ∀ id, Option.Rel (Journal.Alike ρ) (t.journalById? id) (t'.journalById? id)
  postings : ∀ id, List.Forall₂ (Posting.Alike ρ) (t.postingsOfJournal id)
    (t'.postingsOfJournal id)

namespace Tables.Alike

variable {t t' : Tables} (h : t.Alike ρ t')
include h

theorem withAccount {a b : Account} {limit limit' : BalanceLimit}
    (ha : t.account? a.number = none) (hb : t'.account? b.number = none)
    (hl : limit.account = a.number) (hl' : limit'.account = b.number)
    (hrow : RowsAlike (a, limit) (b, limit')) (hmono : ∀ m n, ρ m n → ρ' m n)
    (hρ : ∀ m n, ρ' m n → ρ m n ∨ m = a.number ∧ n = b.number) :
    (t.withAccount a limit).Alike ρ' (t'.withAccount b limit') := by
  refine ⟨fun m n hmn => ?_, fun id => ?_, fun id => ?_⟩
  · rcases hρ m n hmn with hmn | ⟨rfl, rfl⟩
    · obtain ⟨row, row', hm, hn, halike⟩ := h.rows m n hmn
      have hma : m ≠ a.number := by rintro rfl; rw [hm.1] at ha; cases ha
      have hnb : n ≠ b.number := by rintro rfl; rw [hn.1] at hb; cases hb
      refine ⟨row, row', ?_, ?_, halike⟩
      · rw [HasRow, account?_withAccount, limit?_withAccount, hl, if_neg hma, if_neg hma]
        exact hm
      · rw [HasRow, account?_withAccount, limit?_withAccount, hl', if_neg hnb, if_neg hnb]
        exact hn
    · refine ⟨_, _, ?_, ?_, hrow⟩
      · rw [HasRow, account?_withAccount, limit?_withAccount, hl, if_pos rfl, if_pos rfl]
        exact ⟨rfl, rfl⟩
      · rw [HasRow, account?_withAccount, limit?_withAccount, hl', if_pos rfl, if_pos rfl]
        exact ⟨rfl, rfl⟩
  · exact optionRel_imp (fun _ _ hj => hj.mono hmono) (h.journals id)
  · exact (h.postings id).imp fun _ _ hp => hp.mono hmono

variable (hρ : Relator.BiUnique ρ)

include hρ in
theorem withLimit {limit limit' : BalanceLimit} (hl : ρ limit.account limit'.account)
    (hpos : limit.maxPos = limit'.maxPos) (hneg : limit.maxNeg = limit'.maxNeg) :
    (t.withLimit limit).Alike ρ (t'.withLimit limit') := by
  refine ⟨fun m n hmn => ?_, h.journals, h.postings⟩
  obtain ⟨row, row', hm, hn, halike⟩ := h.rows m n hmn
  have heq : m = limit.account ↔ n = limit'.account := Relator.rel_eq hρ hmn hl
  by_cases hml : m = limit.account
  · refine ⟨(row.1, limit), (row'.1, limit'), ⟨hm.1, ?_⟩, ⟨hn.1, ?_⟩, ⟨halike.balance, hpos, hneg⟩⟩
    · rw [limit?_withLimit, if_pos hml]
    · rw [limit?_withLimit, if_pos (heq.1 hml)]
  · refine ⟨row, row', ⟨hm.1, ?_⟩, ⟨hn.1, ?_⟩, halike⟩
    · rw [limit?_withLimit, if_neg hml]; exact hm.2
    · rw [limit?_withLimit, if_neg (mt heq.2 hml)]; exact hn.2

section
variable {j k : Journal} (hf : t.JournalsFound) (hf' : t'.JournalsFound) (hj : j.Alike ρ k)
include hf hf' hj

theorem withNewJournal (hn : t.journal? j.transfer = none) (hn' : t'.journal? k.transfer = none) :
    (t.withNewJournal j).Alike ρ (t'.withNewJournal k) := by
  refine ⟨h.rows, fun id => ?_, h.postings⟩
  rw [journalById?_withNewJournal hf hn, journalById?_withNewJournal hf' hn', ← hj.id]
  split
  · exact .some hj
  · exact h.journals id

theorem withJournal (hold : ∃ old, t.journal? j.transfer = some old ∧ old.id = j.id)
    (hold' : ∃ old, t'.journal? k.transfer = some old ∧ old.id = k.id) :
    (t.withJournal j).Alike ρ (t'.withJournal k) := by
  obtain ⟨old, hold, hid⟩ := hold
  obtain ⟨old', hold', hid'⟩ := hold'
  refine ⟨h.rows, fun id => ?_, h.postings⟩
  rw [journalById?_withJournal hf hold hid, journalById?_withJournal hf' hold' hid', ← hj.id]
  split
  · exact .some hj
  · exact h.journals id

end

/-- The legs of a transfer are booked. -/
theorem booked (hρ : Relator.BiUnique ρ) {j k : Journal} (hj : j.Alike ρ k)
    (hn : t.postings.get? j.id = none) (hn' : t'.postings.get? k.id = none) (s : Sequences)
    (rows rows' : (Account × BalanceLimit) × (Account × BalanceLimit))
    (balances : Decimal × Decimal) (debitTime debitTime' creditTime creditTime' : Timestamp) :
    (t.booked s j rows balances debitTime creditTime).Alike ρ
      (t'.booked s k rows' balances debitTime' creditTime') := by
  have hlegs : j.HasLegs (j.debit s debitTime) (j.credit s creditTime) :=
    ⟨rfl, rfl, rfl, rfl, rfl, rfl⟩
  have hlegs' : k.HasLegs (k.debit s debitTime') (k.credit s creditTime') :=
    ⟨rfl, rfl, rfl, rfl, rfl, rfl⟩
  unfold Tables.booked
  refine ⟨fun m n hmn => ?_, h.journals, fun id => ?_⟩
  · obtain ⟨row, row', hm, hn, halike⟩ := h.rows m n hmn
    have hreceiver : m = j.receiver ↔ n = k.receiver := Relator.rel_eq hρ hmn hj.receiver
    have hsender : m = j.sender ↔ n = k.sender := Relator.rel_eq hρ hmn hj.sender
    simp only [HasRow, account?_withLegs, limit?_withLegs, ← hreceiver, ← hsender]
    -- The limits stay, and a party gets its new balance.
    split
    · exact ⟨(_, row.2), (_, row'.2), ⟨rfl, hm.2⟩, ⟨rfl, hn.2⟩, ⟨rfl, halike.maxPos, halike.maxNeg⟩⟩
    · split
      · exact ⟨(_, row.2), (_, row'.2), ⟨rfl, hm.2⟩, ⟨rfl, hn.2⟩,
          ⟨rfl, halike.maxPos, halike.maxNeg⟩⟩
      · exact ⟨row, row', hm, hn, halike⟩
  · rw [postingsOfJournal, postingsOfJournal, postings_withLegs _ _ hn hlegs,
      postings_withLegs _ _ hn' hlegs', Table.get?_put, Table.get?_put, ← hj.id]
    split
    · exact .cons (hj.debit s _ _) (.cons (hj.credit s _ _) .nil)
    · exact h.postings id

end Tables.Alike

/-! ## Ledgers -/

/-- Two ledgers say the same, and have counted as far. -/
structure Ledger.Alike (ρ : AccountNumber → AccountNumber → Prop) (l l' : Ledger) : Prop where
  tables : l.tables.Alike ρ l'.tables
  events : List.Forall₂ (Event.Alike ρ) l.events l'.events
  sequences : l.store.sequences = l'.store.sequences

end CreditCircle

/-
  Double entry.

  * `Tables.Indexed`: journals have keys of their own, and the accounts of their parties exist.
  * `Tables.Awaits`: the journals that may be written.
  * `Tables.Numbered`: postings are numbered in the order in which they were booked.
  * `Tables.DoubleEntry`: completed transfers, and only they, are booked with two legs, and
    balances add up what is booked.
  * `Change.doubleEntry`: no operation disturbs this.
-/
import CreditCircle.Ledger.Lookup
import CreditCircle.Proofs.Limits
import Mathlib.Data.List.Nodup

namespace CreditCircle

/-! ## Journals and their keys -/

/-- Journals have distinct keys that have been given out, and the accounts of their parties
    exist. -/
structure Tables.Indexed (t : Tables) (s : Sequences) : Prop where
  id_le : ∀ x j, t.journal? x = some j → j.id.value ≤ s.journal
  id_inj : ∀ x y j k, t.journal? x = some j → t.journal? y = some k → j.id = k.id → x = y
  sender : ∀ x j, t.journal? x = some j → ∃ a, t.account? j.sender = some a
  receiver : ∀ x j, t.journal? x = some j → ∃ a, t.account? j.receiver = some a

/-- The journal `j` may be written: nobody else has its key, the accounts of its parties exist,
    and no completed journal is lost. -/
structure Tables.Awaits (t : Tables) (s : Sequences) (j : Journal) : Prop where
  id_le : j.id.value ≤ s.journal
  own : ∀ x k, t.journal? x = some k → k.id = j.id → x = j.transfer
  sender : ∃ a, t.account? j.sender = some a
  receiver : ∃ a, t.account? j.receiver = some a
  pending : ∀ k, t.journal? j.transfer = some k → k.status ≠ .completed

namespace Tables.Indexed

variable {t : Tables} {s : Sequences} (h : t.Indexed s)
include h

theorem mono {s' : Sequences} (hs : s ≤ s') : t.Indexed s' :=
  ⟨fun x j hj => (h.id_le x j hj).trans hs.2.1, h.id_inj, h.sender, h.receiver⟩

theorem withAccount (a : Account) (limit : BalanceLimit) : (t.withAccount a limit).Indexed s :=
  ⟨h.id_le, h.id_inj, fun x j hj => exists_account_withAccount _ _ _ (h.sender x j hj),
    fun x j hj => exists_account_withAccount _ _ _ (h.receiver x j hj)⟩

theorem withLegs (j : Journal) (payer payee : Account) (p q : Posting) :
    (t.withLegs j payer payee p q).Indexed s :=
  ⟨h.id_le, h.id_inj, fun x k hk => exists_account_withLegs _ _ _ _ _ _ (h.sender x k hk),
    fun x k hk => exists_account_withLegs _ _ _ _ _ _ (h.receiver x k hk)⟩

theorem withJournal {j : Journal} (hj : t.Awaits s j) : (t.withJournal j).Indexed s := by
  refine ⟨?_, ?_, ?_, ?_⟩
  · intro x k hk
    rw [journal?_withJournal] at hk
    split at hk
    · cases hk; exact hj.id_le
    · exact h.id_le x k hk
  · intro x y k m hk hm hid
    rw [journal?_withJournal] at hk hm
    split at hk <;> split at hm
    · rw [‹x = _›, ‹y = _›]
    · cases hk; rw [‹x = _›, hj.own y m hm hid.symm]
    · cases hm; rw [‹y = _›, hj.own x k hk hid]
    · exact h.id_inj x y k m hk hm hid
  · intro x k hk
    rw [journal?_withJournal] at hk
    split at hk
    · cases hk; exact hj.sender
    · exact h.sender x k hk
  · intro x k hk
    rw [journal?_withJournal] at hk
    split at hk
    · cases hk; exact hj.receiver
    · exact h.receiver x k hk

/-- The new state of a journal that is found may be written while it is pending. -/
theorem awaits {x : TransferId} {j j' : Journal} (hw : t.WellFormed) (hj : t.journal? x = some j)
    (hp : j.status = .initiated) (hid : j'.id = j.id) (ht : j'.transfer = j.transfer)
    (hs : j'.sender = j.sender) (hr : j'.receiver = j.receiver) : t.Awaits s j' := by
  have hx := hw.journal x j hj
  refine ⟨hid ▸ h.id_le x j hj, ?_, hs ▸ h.sender x j hj, hr ▸ h.receiver x j hj, ?_⟩
  · intro y k hk he
    rw [ht, hx]; exact h.id_inj y x k j hk hj (he.trans hid)
  · intro k hk
    rw [ht, hx, hj] at hk
    cases hk; rw [hp]; exact nofun

end Tables.Indexed

/-- A new journal may be written. -/
theorem Grants.awaits {eligible : AccountNumber → Bool} {request : TransferRequest}
    {chance : Chance} {l l' : Ledger} {j : Journal} {payer payee : Account × BalanceLimit}
    (h : Grants eligible request chance l j l') (hi : l.tables.Indexed l.store.sequences)
    (hp : Parties l.tables j.sender j.receiver payer payee) :
    l.tables.Awaits l'.store.sequences j := by
  refine ⟨h.id_le, ?_, ⟨_, hp.payer_row⟩, ⟨_, hp.payee_row⟩, ?_⟩
  · intro x k hk he
    have := hi.id_le x k hk
    rw [he] at this
    exact absurd this (Nat.not_le.2 h.id_new)
  · intro k hk
    rw [h.new] at hk; cases hk

/-! ## Postings and their keys -/

/-- Postings are numbered in the order in which they were booked. -/
structure Tables.Numbered (t : Tables) (s : Sequences) : Prop where
  ascending : t.allPostings.Pairwise fun p q => p.id.value < q.id.value
  counted : ∀ p ∈ t.allPostings, p.id.value ≤ s.posting

namespace Tables.Numbered

variable {t : Tables} {s s' : Sequences} (h : t.Numbered s)
include h

theorem mono (hs : s ≤ s') : t.Numbered s' :=
  ⟨h.ascending, fun p hp => (h.counted p hp).trans hs.2.2⟩

theorem withLegs {j : Journal} {p q : Posting} (payer payee : Account)
    (hn : t.postings.get? j.id = none) (legs : Legs s s' j p q) :
    (t.withLegs j payer payee p q).Numbered s' := by
  have hnew := legs.new
  have hord := legs.ordered
  have hcount := legs.counted
  have hall := allPostings_withLegs payer payee hn legs.toHasLegs
  constructor
  · rw [hall]
    refine List.pairwise_append.2 ⟨h.ascending, by simpa using hord, ?_⟩
    intro x hx y hy
    have := h.counted x hx
    rcases List.mem_pair.1 hy with rfl | rfl <;> omega
  · rw [hall]
    intro x hx
    rcases List.mem_append.1 hx with hx | hx
    · have := h.counted x hx
      omega
    · rcases List.mem_pair.1 hx with rfl | rfl <;> omega

end Tables.Numbered

/-! ## Postings and balances -/

/-- The sum of some postings, added one after the other as the ledger adds. -/
def Posting.total? (ps : List Posting) : Option Decimal :=
  (ps.map fun p => p.amount).foldlM Decimal.add? 0

/-- One more posting. -/
theorem Posting.total?_concat (ps : List Posting) (p : Posting) :
    total? (ps ++ [p]) = (total? ps).bind fun b => b.add? p.amount := by
  unfold total?
  rw [List.map_append, List.foldlM_append]
  refine congrArg _ (funext fun b => ?_)
  rw [List.map_singleton, List.foldlM_cons]
  exact Option.bind_fun_some _

/-- What is booked belongs to a completed transfer. -/
def Tables.OnlyCompleted (t : Tables) : Prop :=
  ∀ id ps, t.postings.get? id = some ps →
    ∃ x j, t.journal? x = some j ∧ j.id = id ∧ j.status = .completed

namespace Tables.OnlyCompleted

variable {t : Tables} {s : Sequences} {j : Journal} (h : t.OnlyCompleted) (hj : t.Awaits s j)
include h hj

/-- A transfer whose journal is still to be written is not booked. -/
theorem postings_eq_none : t.postings.get? j.id = none := by
  cases hps : t.postings.get? j.id with
  | none => rfl
  | some ps =>
    obtain ⟨x, k, hk, hid, hc⟩ := h j.id ps hps
    have hx := hj.own x k hk hid
    exact absurd hc (hj.pending k (hx ▸ hk))

theorem withJournal : (t.withJournal j).OnlyCompleted := by
  intro id ps hps
  obtain ⟨x, k, hk, hid, hc⟩ := h id ps hps
  refine ⟨x, k, ?_, hid, hc⟩
  rw [journal?_withJournal, if_neg]
  · exact hk
  · rintro rfl; exact hj.pending k hk hc

/-- Both legs and the completed journal come together. -/
theorem booked {p q : Posting} (payer payee : Account) (hl : j.HasLegs p q) (now : Timestamp) :
    ((t.withLegs j payer payee p q).withJournal (j.completed now)).OnlyCompleted := by
  intro id ps hps
  have hj' : t.Awaits s (j.completed now) :=
    ⟨hj.id_le, hj.own, hj.sender, hj.receiver, hj.pending⟩
  have hps' : (t.withLegs j payer payee p q).postings.get? id = some ps := hps
  rw [postings_withLegs payer payee (h.postings_eq_none hj) hl, Table.get?_put] at hps'
  split at hps'
  · exact ⟨j.transfer, j.completed now, by simp [Journal.completed], Eq.symm ‹_›, rfl⟩
  · exact h.withJournal hj' id ps hps'

end Tables.OnlyCompleted

/-- Completed transfers have their two legs, nothing else is booked, and every balance is the sum
    of the postings of its account. -/
structure Tables.DoubleEntry (t : Tables) (s : Sequences) : Prop
    extends t.Indexed s, t.Numbered s where
  legs : ∀ x j, t.journal? x = some j → j.status = .completed →
    ∃ p q, t.postings.get? j.id = some [p, q] ∧ j.HasLegs p q
  completed : ∀ id ps, t.postings.get? id = some ps →
    ∃ x j, t.journal? x = some j ∧ j.id = id ∧ j.status = .completed
  balance : ∀ n a, t.account? n = some a → Posting.total? (t.bookedOn n) = some a.balance

namespace Tables.DoubleEntry

variable {t : Tables} {s : Sequences} (h : t.DoubleEntry s)
include h

/-- A posting is a leg of a completed transfer. -/
theorem exists_legs {p : Posting} (hp : p ∈ t.allPostings) : ∃ x j q r, t.journal? x = some j ∧
    j.status = .completed ∧ t.postings.get? j.id = some [q, r] ∧ j.HasLegs q r ∧
      (p = q ∨ p = r) := by
  obtain ⟨id, ps, hps, hp⟩ := (mem_allPostings_iff t p).1 hp
  obtain ⟨x, j, hj, rfl, hc⟩ := h.completed id ps hps
  obtain ⟨q, r, hqr, hl⟩ := h.legs x j hj hc
  rw [hqr] at hps
  cases hps
  exact ⟨x, j, q, r, hj, hc, hqr, hl, by simpa using hp⟩

theorem exists_account {p : Posting} (hp : p ∈ t.allPostings) :
    ∃ a, t.account? p.account = some a := by
  obtain ⟨x, j, q, r, hj, -, -, hl, rfl | rfl⟩ := h.exists_legs hp
  · rw [hl.debit_account]; exact h.sender x j hj
  · rw [hl.credit_account]; exact h.receiver x j hj

/-- There are no postings of an account before it is opened. -/
theorem bookedOn_eq_nil {n : AccountNumber} (hn : t.account? n = none) : t.bookedOn n = [] := by
  refine List.filter_eq_nil_iff.2 fun p hp hpn => ?_
  obtain ⟨a, ha⟩ := h.exists_account hp
  rw [of_decide_eq_true hpn, hn] at ha
  cases ha

theorem postings_eq_none {s' : Sequences} {j : Journal} (hj : t.Awaits s' j) :
    t.postings.get? j.id = none := OnlyCompleted.postings_eq_none h.completed hj

/-! ### What keeps double entry -/

theorem mono {s' : Sequences} (hs : s ≤ s') : t.DoubleEntry s' :=
  ⟨h.toIndexed.mono hs, h.toNumbered.mono hs, h.legs, h.completed, h.balance⟩

theorem withLimit (limit : BalanceLimit) : (t.withLimit limit).DoubleEntry s :=
  ⟨⟨h.id_le, h.id_inj, h.sender, h.receiver⟩, ⟨h.ascending, h.counted⟩, h.legs, h.completed,
    h.balance⟩

theorem withAccount {a : Account} (ha : t.account? a.number = none) (hb : a.balance = 0)
    (limit : BalanceLimit) : (t.withAccount a limit).DoubleEntry s := by
  refine ⟨h.toIndexed.withAccount a limit, ⟨h.ascending, h.counted⟩, h.legs, h.completed,
    fun n b hn => ?_⟩
  rw [account?_withAccount] at hn
  split at hn
  · rename_i heq
    cases hn
    show Posting.total? (t.bookedOn n) = _
    rw [heq, h.bookedOn_eq_nil ha, hb]; rfl
  · exact h.balance n b hn

/-- The journal of a transfer that is not booked may be written. -/
theorem withJournal {j : Journal} (hj : t.Awaits s j) (hs : j.status ≠ .completed) :
    (t.withJournal j).DoubleEntry s := by
  refine ⟨h.toIndexed.withJournal hj, ⟨h.ascending, h.counted⟩, fun x k hk hc => ?_,
    OnlyCompleted.withJournal h.completed hj, h.balance⟩
  rw [journal?_withJournal] at hk
  split at hk
  · cases hk; exact absurd hc hs
  · exact h.legs x k hk hc

end Tables.DoubleEntry

theorem Tables.DoubleEntry.empty : Tables.empty.DoubleEntry {} where
  id_le _ _ hj := by cases hj
  id_inj _ _ _ _ hj := by cases hj
  sender _ _ hj := by cases hj
  receiver _ _ hj := by cases hj
  legs _ _ hj := by cases hj
  completed _ _ hps := by cases hps
  ascending := .nil
  counted _ hp := by cases hp
  balance _ _ ha := by cases ha

/-- The further index of new journals has no part in double entry. -/
theorem Tables.DoubleEntry.newJournal {t : Tables} {s : Sequences} {j : Journal}
    (h : (t.withJournal j).DoubleEntry s) : (t.withNewJournal j).DoubleEntry s :=
  ⟨⟨h.id_le, h.id_inj, h.sender, h.receiver⟩, ⟨h.ascending, h.counted⟩, h.legs, h.completed,
    h.balance⟩

/-! ## Booking -/

namespace Books

variable {l l' : Ledger} {j : Journal} {t : Tables} (h : Books l l' j t)
  (hd : l.tables.DoubleEntry l.store.sequences) (hj : l.tables.Awaits l'.store.sequences j)
  (hv : j.Valid)
include h hd hj hv

/-- What booking means for one account: nothing, or one more posting that is added to the balance
    and leaves it inside the limits.  For the sender that is so because taking away an amount
    that is not zero means adding the negated one. -/
theorem account_cases {n : AccountNumber} {a : Account} (ha : t.account? n = some a) :
    (l.tables.account? n = some a ∧ t.bookedOn n = l.tables.bookedOn n) ∨
      ∃ old limit p, l.tables.account? n = some old ∧ l.tables.limit? n = some limit ∧
        t.bookedOn n = l.tables.bookedOn n ++ [p] ∧ (p.amount = j.amount ∨ p.amount = -j.amount) ∧
        old.balance.add? p.amount = some a.balance ∧ ¬ limit.IsExceededBy a.balance := by
  obtain ⟨parties, allowed, legs⟩ := h
  obtain ⟨⟨hsub, hpayer⟩, hadd, hpayee⟩ := Program.newBalances_eq_ok_iff.1 allowed
  have hpos := (checkAmount_eq_ok_iff.1 hv.amount).1
  rw [Decimal.sub?_eq_add?_neg (coeff_ne_zero_of_pos hpos), ← legs.debit_amount] at hsub
  rw [← legs.credit_amount] at hadd
  unfold Tables.bookedOn
  rw [Tables.allPostings_withLegs _ _ (hd.postings_eq_none hj) legs.toHasLegs,
    List.filter_append, List.filter_cons, List.filter_cons, List.filter_nil, legs.debit_account,
    legs.credit_account]
  rw [Tables.account?_withLegs] at ha
  split at ha
  · rename_i hr
    cases ha
    subst hr
    rw [if_neg (by simpa using hv.parties), if_pos (by simp)]
    exact Or.inr ⟨_, _, _, parties.payee_row, parties.payee_limit, rfl,
      Or.inl legs.credit_amount, hadd, hpayee⟩
  · rename_i hr
    split at ha
    · rename_i hs
      cases ha
      subst hs
      rw [if_pos (by simp), if_neg (by simpa using Ne.symm hr)]
      exact Or.inr ⟨_, _, _, parties.payer_row, parties.payer_limit, rfl,
        Or.inr legs.debit_amount, hsub, hpayer⟩
    · rename_i hs
      rw [if_neg (by simpa using Ne.symm hs), if_neg (by simpa using Ne.symm hr), List.append_nil]
      exact Or.inl ⟨ha, rfl⟩

/-- Each new balance is the old one with the leg of its account added. -/
theorem balance {n : AccountNumber} {a : Account} (ha : t.account? n = some a) :
    Posting.total? (t.bookedOn n) = some a.balance := by
  rcases h.account_cases hd hj hv ha with ⟨ha, hb⟩ | ⟨old, limit, p, hold, -, hb, -, hadd, -⟩
  · rw [hb]; exact hd.balance n a ha
  · rw [hb, Posting.total?_concat, hd.balance n old hold]; exact hadd

/-- The transfer and its legs come together. -/
theorem doubleEntry (hs : l.store.sequences ≤ l'.store.sequences) (now : Timestamp) :
    (t.withJournal (j.completed now)).DoubleEntry l'.store.sequences := by
  have hb := fun n a => h.balance hd hj hv (n := n) (a := a)
  obtain ⟨parties, allowed, legs⟩ := h
  have hn := hd.postings_eq_none hj
  have hpost := fun a b => Tables.postings_withLegs a b hn legs.toHasLegs
  have hj' : l.tables.Awaits l'.store.sequences (j.completed now) :=
    ⟨hj.id_le, hj.own, hj.sender, hj.receiver, hj.pending⟩
  have hi := ((hd.toIndexed.mono hs).withJournal hj').withLegs
  have hnum := fun a b => hd.toNumbered.withLegs a b hn legs
  refine ⟨hi _ _ _ _ _, ⟨(hnum _ _).ascending, (hnum _ _).counted⟩, fun x k hk hc => ?_,
    Tables.OnlyCompleted.booked hd.completed hj _ _ legs.toHasLegs now, hb⟩
  show ∃ p q, (l.tables.withLegs ..).postings.get? k.id = _ ∧ _
  rw [hpost]
  rw [Tables.journal?_withJournal] at hk
  split at hk
  · cases hk
    obtain ⟨h₁, h₂, h₃, h₄, h₅, h₆⟩ := legs.toHasLegs
    exact ⟨_, _, Table.get?_put_self _ _ _, h₁, h₂, h₃, h₄, h₅, h₆⟩
  · rename_i hx
    obtain ⟨p, q, hpq, hl⟩ := hd.legs x k hk hc
    have hne : k.id ≠ j.id := fun he => hx (hj.own x k hk he)
    exact ⟨p, q, (Table.get?_put_of_ne _ _ hne).trans hpq, hl⟩

end Books

theorem Change.doubleEntry {limits : DefaultLimits} {l l' : Ledger} {op : Operation}
    (h : Change limits l l' op) (hw : l.tables.WellFormed)
    (hd : l.tables.DoubleEntry l.store.sequences) : l'.tables.DoubleEntry l'.store.sequences := by
  have hs := h.settled.sequences
  have hi := hd.toIndexed.mono hs
  cases h with
  | opens h =>
    obtain ⟨now, -, ht⟩ := h.tables
    rw [ht]; exact (hd.mono hs).withAccount h.number_new h.balance _
  | relimits h => rw [h.tables]; exact (hd.mono hs).withLimit _
  | proposes h =>
    obtain ⟨payer, payee, balances, hp, -⟩ := h.allowed
    have hj := h.toGrants.awaits hd.toIndexed hp
    rw [h.tables]
    refine ((hd.mono hs).withJournal hj ?_).newJournal
    rw [h.draft]; exact nofun
  | completes h =>
    obtain ⟨t, hb, ht⟩ := h.tables
    rw [ht]
    exact hb.doubleEntry hd (hi.awaits hw h.found h.pending rfl rfl rfl rfl)
      (hw.valid _ _ h.found) hs _
  | closes hop h =>
    rw [h.tables]
    exact (hd.mono hs).withJournal (hi.awaits hw h.found h.pending rfl rfl rfl rfl) nofun
  | transfers h =>
    obtain ⟨t, hb, ht⟩ := h.tables
    obtain ⟨payer, payee, hp⟩ := hb.parties
    rw [ht]
    exact (hb.doubleEntry hd (h.toGrants.awaits hd.toIndexed hp) h.journal_valid hs _).newJournal

/-! ## Listings -/

section
variable {α β κ ε : Type}

/-- Lists without repetitions that differ in a key make up a list without repetitions. -/
theorem nodup_flatten_map {xs : List α} {f : α → List β} (key : α → κ) (keyOf : β → κ)
    (hx : (xs.map key).Nodup) (hf : ∀ a ∈ xs, (f a).Nodup)
    (hk : ∀ a ∈ xs, ∀ b ∈ f a, keyOf b = key a) : (xs.map f).flatten.Nodup := by
  refine List.nodup_flatten.2 ⟨fun ys hys => ?_, ?_⟩
  · obtain ⟨a, ha, rfl⟩ := List.mem_map.1 hys
    exact hf a ha
  · rw [List.pairwise_map]
    have hx' := List.pairwise_map.1 hx
    refine hx'.imp_of_mem fun {a b} ha hb hne => ?_
    intro c hca hcb
    exact hne ((hk a ha c hca).symm.trans (hk b hb c hcb))

theorem mapM_eq_ok {f : α → Except ε β} {g : α → β} :
    ∀ {xs : List α}, (∀ a ∈ xs, f a = .ok (g a)) → xs.mapM f = .ok (xs.map g)
  | [], _ => rfl
  | a :: xs, h => by
    rw [List.mapM_cons, h a List.mem_cons_self,
      mapM_eq_ok fun b hb => h b (List.mem_cons_of_mem a hb)]
    rfl

end

namespace Tables.DoubleEntry

variable {t : Tables} {s : Sequences} (h : t.DoubleEntry s)
include h

theorem nodup_allPostings : t.allPostings.Nodup := by
  refine List.Pairwise.imp ?_ h.ascending
  rintro p q hlt rfl
  exact Nat.lt_irrefl _ hlt

/-- Postings stand in the order of their keys. -/
theorem postingsOfAccount_eq (n : AccountNumber) :
    t.postingsOfAccount n = t.bookedOn n :=
  List.mergeSort_of_pairwise ((h.ascending.filter _).imp fun hlt =>
    decide_eq_true (Nat.le_of_lt hlt))

theorem mem_postingsOfAccount_iff (n : AccountNumber) (p : Posting) :
    p ∈ t.postingsOfAccount n ↔ p ∈ t.allPostings ∧ p.account = n := by
  rw [h.postingsOfAccount_eq, bookedOn, List.mem_filter, decide_eq_true_iff]

theorem mem_postingsOfJournal_iff (id : JournalId) (p : Posting) :
    p ∈ t.postingsOfJournal id ↔ p ∈ t.allPostings ∧ p.journal = id := by
  constructor
  · intro hp
    cases hps : t.postings.get? id with
    | none => rw [postingsOfJournal, hps] at hp; cases hp
    | some ps =>
      rw [postingsOfJournal, hps] at hp
      obtain ⟨x, j, hj, rfl, hc⟩ := h.completed id ps hps
      obtain ⟨q, r, hqr, hl⟩ := h.legs x j hj hc
      rw [hqr] at hps
      cases hps
      refine ⟨(mem_allPostings_iff t p).2 ⟨_, _, hqr, hp⟩, ?_⟩
      rcases List.mem_pair.1 hp with rfl | rfl
      · exact hl.debit_journal
      · exact hl.credit_journal
  · rintro ⟨hp, rfl⟩
    obtain ⟨x, j, q, r, hj, hc, hqr, hl, hp⟩ := h.exists_legs hp
    have hid : p.journal = j.id := by
      rcases hp with rfl | rfl
      · exact hl.debit_journal
      · exact hl.credit_journal
    rw [postingsOfJournal, hid, hqr]
    exact List.mem_pair.2 hp

/-- Only completed transfers are booked. -/
theorem postingsOfJournal_eq_nil {x : TransferId} {j : Journal} (hj : t.journal? x = some j)
    (hs : j.status ≠ .completed) : t.postingsOfJournal j.id = [] := by
  cases hps : t.postings.get? j.id with
  | none => rw [postingsOfJournal, hps]; rfl
  | some ps =>
    obtain ⟨y, k, hk, hid, hc⟩ := h.completed j.id ps hps
    obtain rfl := h.id_inj y x k j hk hj hid
    rw [hj] at hk
    cases hk; exact absurd hc hs

variable (hw : t.WellFormed)
include hw

theorem nodup_byAccount :
    (t.accounts.values.map fun a => t.postingsOfAccount a.number).flatten.Nodup := by
  refine nodup_flatten_map Account.number Posting.account (Table.nodup_map_values hw.account) ?_ ?_
  · intro a _
    rw [h.postingsOfAccount_eq]
    exact h.nodup_allPostings.filter _
  · exact fun a _ p hp => ((h.mem_postingsOfAccount_iff _ p).1 hp).2

/-- No two journals have one key. -/
theorem nodup_ids : (t.journals.values.map Journal.id).Nodup := by
  have hj := Table.nodup_map_values hw.journal
  refine (List.Nodup.of_map _ hj).map_on fun j hj k hk hid => ?_
  obtain ⟨x, hx⟩ := (Table.mem_values_iff _ _).1 hj
  obtain ⟨y, hy⟩ := (Table.mem_values_iff _ _).1 hk
  obtain rfl := h.id_inj x y j k hx hy hid
  exact Option.some.inj (hx.symm.trans hy)

theorem nodup_byJournal :
    (t.journals.values.map fun j => t.postingsOfJournal j.id).flatten.Nodup := by
  refine nodup_flatten_map Journal.id Posting.journal (h.nodup_ids hw) ?_ ?_
  · intro j _
    unfold postingsOfJournal
    cases hps : t.postings.get? j.id with
    | none => exact List.nodup_nil
    | some ps =>
      exact (List.nodup_flatten.1 h.nodup_allPostings).1 ps
        ((Table.mem_values_iff _ _).2 ⟨_, hps⟩)
  · exact fun j _ p hp => ((h.mem_postingsOfJournal_iff _ p).1 hp).2

/-- Both listings contain all postings. -/
theorem perm_listings :
    (t.accounts.values.map fun a => t.postingsOfAccount a.number).flatten.Perm
      (t.journals.values.map fun j => t.postingsOfJournal j.id).flatten := by
  refine (List.perm_ext_iff_of_nodup (h.nodup_byAccount hw) (h.nodup_byJournal hw)).2 fun p => ?_
  rw [← List.flatMap_def, ← List.flatMap_def, List.mem_flatMap, List.mem_flatMap]
  constructor
  · rintro ⟨a, -, hp⟩
    have hp := ((h.mem_postingsOfAccount_iff _ p).1 hp).1
    obtain ⟨id, ps, hps, hm⟩ := (mem_allPostings_iff t p).1 hp
    obtain ⟨x, j, hj, rfl, -⟩ := h.completed id ps hps
    refine ⟨j, (Table.mem_values_iff _ _).2 ⟨x, hj⟩, ?_⟩
    rw [postingsOfJournal, hps]; exact hm
  · rintro ⟨j, -, hp⟩
    have hp := ((h.mem_postingsOfJournal_iff _ p).1 hp).1
    obtain ⟨a, ha⟩ := h.exists_account hp
    refine ⟨a, (Table.mem_values_iff _ _).2 ⟨_, ha⟩, ?_⟩
    exact (h.mem_postingsOfAccount_iff _ p).2 ⟨hp, (hw.account _ a ha).symm⟩

end Tables.DoubleEntry

/-! ## Reachable ledgers -/

namespace Ledger

variable {limits : DefaultLimits} {l : Ledger}

theorem postingsOfAccount_eq_ok {n : AccountNumber} {a : Account}
    (h : l.tables.account? n = some a) :
    l.postingsOfAccount n = .ok (l.tables.postingsOfAccount n) := by
  rw [postingsOfAccount, accountByNumber, h]; rfl

theorem postingsOfTransfer_eq_ok {x : TransferId} {j : Journal}
    (h : l.tables.journal? x = some j) :
    l.postingsOfTransfer x = .ok (l.tables.postingsOfJournal j.id) := by
  rw [postingsOfTransfer, journalOf, h]; rfl

theorem Reachable.doubleEntry (h : l.Reachable limits) :
    l.tables.DoubleEntry l.store.sequences := by
  refine h.induct (P := fun l => l.tables.DoubleEntry l.store.sequences) .empty
    fun l step hr hl => ?_
  rcases hr.atRest.next_cases limits step with ⟨op, v, -, -, hc⟩ | ⟨ht, -, -, hs⟩
  · exact hc.doubleEntry hr.atRest.wellFormed hl
  · rw [ht]; exact hl.mono hs

/-- Completed transfers have two postings, the amount negated for the sender and as it is for the
    receiver; the others have none, and there are no further postings.  The postings of all
    accounts are those of all transfers, each listed once.  The balance of an account is the sum
    of its postings in the order of their keys. -/
theorem Reachable.double_entry (h : l.Reachable limits) :
    (∀ j ∈ l.tables.journals.values, j.status = .completed →
      ∃ p q, l.postingsOfTransfer j.transfer = .ok [p, q] ∧ j.HasLegs p q) ∧
    (∀ j ∈ l.tables.journals.values, j.status ≠ .completed →
      l.postingsOfTransfer j.transfer = .ok []) ∧
    (∀ p ∈ l.tables.allPostings, ∃ j ∈ l.tables.journals.values,
      j.id = p.journal ∧ j.status = .completed) ∧
    (∃ byAccount byTransfer,
      l.tables.accounts.values.mapM (fun a => l.postingsOfAccount a.number) = .ok byAccount ∧
      l.tables.journals.values.mapM (fun j => l.postingsOfTransfer j.transfer) = .ok byTransfer ∧
      byAccount.flatten.Perm byTransfer.flatten ∧ byAccount.flatten.Nodup) ∧
    ∀ a ∈ l.tables.accounts.values, ∃ ps, l.postingsOfAccount a.number = .ok ps ∧
      ps.Pairwise (fun p q => p.id.value < q.id.value) ∧ Posting.total? ps = some a.balance := by
  have hw := h.atRest.wellFormed
  have hd := h.doubleEntry
  have hacc : ∀ a ∈ l.tables.accounts.values, l.tables.account? a.number = some a := by
    intro a ha
    obtain ⟨n, ha⟩ := (Table.mem_values_iff _ _).1 ha
    rw [hw.account n a ha]; exact ha
  have hjou : ∀ j ∈ l.tables.journals.values, l.tables.journal? j.transfer = some j := by
    intro j hj
    obtain ⟨x, hj⟩ := (Table.mem_values_iff _ _).1 hj
    rw [hw.journal x j hj]; exact hj
  refine ⟨?_, ?_, ?_, ?_, ?_⟩
  · intro j hj hc
    obtain ⟨p, q, hpq, hl⟩ := hd.legs _ j (hjou j hj) hc
    refine ⟨p, q, ?_, hl⟩
    rw [postingsOfTransfer_eq_ok (hjou j hj), Tables.postingsOfJournal, hpq]; rfl
  · intro j hj hc
    rw [postingsOfTransfer_eq_ok (hjou j hj), hd.postingsOfJournal_eq_nil (hjou j hj) hc]
  · intro p hp
    obtain ⟨id, ps, hps, hm⟩ := (Tables.mem_allPostings_iff _ p).1 hp
    obtain ⟨x, j, hj, hid, hc⟩ := hd.completed id ps hps
    have hp : p ∈ l.tables.postingsOfJournal id := by
      rw [Tables.postingsOfJournal, hps]; exact hm
    refine ⟨j, (Table.mem_values_iff _ _).2 ⟨x, hj⟩, ?_, hc⟩
    rw [hid, ((hd.mem_postingsOfJournal_iff id p).1 hp).2]
  · exact ⟨_, _, mapM_eq_ok fun a ha => postingsOfAccount_eq_ok (hacc a ha),
      mapM_eq_ok fun j hj => postingsOfTransfer_eq_ok (hjou j hj), hd.perm_listings hw,
      hd.nodup_byAccount hw⟩
  · intro a ha
    refine ⟨_, postingsOfAccount_eq_ok (hacc a ha), ?_, ?_⟩
    · rw [hd.postingsOfAccount_eq]
      exact hd.ascending.filter _
    · rw [hd.postingsOfAccount_eq]
      exact hd.balance _ a (hacc a ha)

/-- After the short history, one transfer has two postings and the other one has none. -/
theorem Reachable.double_entry_short :
    short.tables.journals.values.map (fun j => j.status) = [.completed, .initiated] ∧
    (∀ j ∈ short.tables.journals.values, j.status = .completed →
      ∃ p q, short.postingsOfTransfer j.transfer = .ok [p, q] ∧ j.HasLegs p q) ∧
    (∀ j ∈ short.tables.journals.values, j.status ≠ .completed →
      short.postingsOfTransfer j.transfer = .ok []) := by
  obtain ⟨h₁, h₂, -⟩ := double_entry (⟨shortHistory, rfl⟩ : short.Reachable .standard)
  exact ⟨by decide, h₁, h₂⟩

end Ledger
end CreditCircle

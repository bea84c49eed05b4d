/-
  Operations on locked rows, among others.

  * `Footing.Holds.fulfils_relimit`, `fulfils_cancelled`, `fulfils_booked`: what the commits do.
  * `deals_relimit`, `deals_cancel`, `deals_complete`, `deals_completeNew`: how operations end.
  * `accept_deals`, …, `Operation.program_deals`: whatever others do meanwhile, an operation that
    works on locked rows does what it is meant to do.
-/
import CreditCircle.Proofs.Dealings

namespace CreditCircle

open UnitOfWork (holding)

/-! ## Commits -/

/-- In view of `b`, the operation is meant to book `j` with these balances. -/
def Purpose.Books (v : Purpose Journal) (b : Content) (j : Journal)
    (payer payee : Account × BalanceLimit) (balances : Decimal × Decimal)
    (debitTime creditTime now : Timestamp) : Prop :=
  v.effect b = .ok (v.unkeyed (j.completed now),
    (b.book j.unkeyed { payer.1 with balance := balances.1 }
      { payee.1 with balance := balances.2 } debitTime creditTime).record
        (j.unkeyed.completed now))

/-- In view of `b`, the operation is meant to end `j` unbooked. -/
def Purpose.Cancels (v : Purpose Journal) (b : Content) (j : Journal) (reason : String)
    (now : Timestamp) : Prop :=
  v.effect b = .ok (v.unkeyed (j.cancelled reason now),
    b.record (j.unkeyed.cancelled reason now))

/-- A journal is written that is locked, or is new and has been given `key`. -/
theorem journal_written (drawn : Option TransferId) (key : Option JournalId) {keys : List RowKey}
    {t t' : Tables} {j : Journal}
    (ht : ∀ x, t'.journal? x = if x = j.transfer then some j else t.journal? x)
    (hj : (RowKey.journal j.transfer ∈ keys ∧ ∃ k, t.journal? j.transfer = some k ∧ k.id = j.id) ∨
      drawn = some j.transfer ∧ key = some j.id) :
    (∀ x, t'.journal? x = t.journal? x ∨ (RowKey.journal x ∈ keys ∧ t.journal? x ≠ none) ∨
      drawn = some x) ∧
    ∀ x k, t'.journal? x = some k → (∃ y k', t.journal? y = some k' ∧ k'.id = k.id) ∨
      key = some k.id := by
  refine ⟨fun x => ?_, fun x k hk => ?_⟩
  · rw [ht]
    split
    · rename_i hx
      subst hx
      rcases hj with ⟨hlock, k, hk, -⟩ | ⟨hnew, -⟩
      · exact Or.inr (Or.inl ⟨hlock, by rw [hk]; exact nofun⟩)
      · exact Or.inr (Or.inr hnew)
    · exact Or.inl rfl
  · rw [ht] at hk
    split at hk
    · cases hk
      rcases hj with ⟨-, k, hk, hid⟩ | ⟨-, hkey⟩
      · exact Or.inl ⟨_, k, hk, hid⟩
      · exact Or.inr hkey
    · exact Or.inl ⟨x, k, hk, rfl⟩

namespace Footing.Holds

variable {g : Footing} {keys : List RowKey} {l : Ledger}

/-- The limits of a locked account are replaced. -/
theorem fulfils_relimit {v : Purpose BalanceLimit} {limit : BalanceLimit}
    (h : g.Holds v.drawn keys l) (hlock : RowKey.account limit.account ∈ keys)
    (he : v.effect l.tables.content = .ok (v.unkeyed limit, l.tables.content.relimit limit)) :
    Fulfils v limit g.key keys l (l.tables.withLimit limit) := by
  refine ⟨?_, h.keyed.withLimit limit, fun n hn => ⟨rfl, ?_⟩, fun _ => Or.inl rfl,
    fun x j hj => Or.inl ⟨x, j, hj, rfl⟩⟩
  · rw [he, Tables.content_withLimit]
  · rw [Tables.limit?_withLimit, if_neg]
    rintro rfl
    exact hn hlock

variable {j : Journal} {v : Purpose Journal}

/-- A pending transfer whose journal is locked ends unbooked. -/
theorem fulfils_cancelled {reason : String} {now : Timestamp} (h : g.Holds v.drawn keys l)
    (hj : l.tables.journal? j.transfer = some j) (hp : j.status = .initiated)
    (hx : RowKey.journal j.transfer ∈ keys)
    (he : v.Cancels l.tables.content j reason now) :
    Fulfils v (j.cancelled reason now) g.key keys l
      (l.tables.withJournal (j.cancelled reason now)) := by
  have haw : l.tables.Awaits l.store.sequences (j.cancelled reason now) :=
    h.keyed.toIndexed.awaits h.keyed.toWellFormed hj hp rfl rfl rfl rfl
  obtain ⟨ha, hne, hi⟩ := h.keyed.valid _ j hj
  obtain ⟨hjournal, hids⟩ := journal_written v.drawn g.key
    (Tables.journal?_withJournal l.tables (j.cancelled reason now)) (Or.inl ⟨hx, j, hj, rfl⟩)
  refine ⟨?_, h.keyed.withJournal haw ⟨ha, hne, hi⟩, fun _ _ => ⟨rfl, rfl⟩, hjournal, hids⟩
  have hcontent : (l.tables.withJournal (j.cancelled reason now)).content = _ :=
    Tables.content_withJournal hj rfl
  rw [he, hcontent]
  rfl

/-- A transfer is booked whose parties are locked, and whose journal is locked as well or new. -/
theorem fulfils_booked {payer payee : Account × BalanceLimit} {balances : Decimal × Decimal}
    {debit credit : Posting} {now : Timestamp} (h : g.Holds v.drawn keys l)
    (haw : l.tables.Awaits l.store.sequences j) (hv : j.Valid)
    (hp : Parties l.tables j.sender j.receiver payer payee)
    (hs : RowKey.account j.sender ∈ keys) (hr : RowKey.account j.receiver ∈ keys)
    (hl : j.HasLegs debit credit)
    (hj : (RowKey.journal j.transfer ∈ keys ∧
      ∃ k, l.tables.journal? j.transfer = some k ∧ k.id = j.id) ∨
        v.drawn = some j.transfer ∧ g.key = some j.id)
    (he : v.Books l.tables.content j payer payee balances debit.createdAt credit.createdAt now) :
    Fulfils v (j.completed now) g.key keys l
      ((l.tables.withLegs j { payer.1 with balance := balances.1 }
        { payee.1 with balance := balances.2 } debit credit).withJournal (j.completed now)) := by
  have hn : { payer.1 with balance := balances.1 }.number = j.sender :=
    h.keyed.account _ payer.1 hp.payer_row
  have hn' : { payee.1 with balance := balances.2 }.number = j.receiver :=
    h.keyed.account _ payee.1 hp.payee_row
  obtain ⟨hjournal, hids⟩ := journal_written v.drawn g.key (t := l.tables)
    (Tables.journal?_withJournal _ (j.completed now)) hj
  refine ⟨?_, h.keyed.booked haw hv hn hn' hl now, fun n hlock => ⟨?_, rfl⟩, hjournal, hids⟩
  · rw [he, Tables.content_booked _ _ _ h.keyed haw hl]
  · rw [Tables.account?_withJournal, Tables.account?_withLegs, if_neg, if_neg]
    · rintro rfl; exact hlock hs
    · rintro rfl; exact hlock hr

end Footing.Holds

/-- The further index of new journals makes no difference. -/
theorem Fulfils.newJournal {v : Purpose Journal} {a j : Journal} {key : Option JournalId}
    {keys : List RowKey} {l : Ledger} {t : Tables}
    (h : Fulfils v a key keys l (t.withJournal j)) :
    Fulfils v a key keys l (t.withNewJournal j) := by
  obtain ⟨he, ⟨⟨hw₁, hw₂, hw₃, hw₄⟩, ⟨hi₁, hi₂, hi₃, hi₄⟩, hc⟩, ha, hj, hid⟩ := h
  exact ⟨he, ⟨⟨hw₁, hw₂, hw₃, hw₄⟩, ⟨hi₁, hi₂, hi₃, hi₄⟩, hc⟩, ha, hj, hid⟩

theorem Fulfils.congr {α : Type} {v : Purpose α} {a : α} {key : Option JournalId}
    {keys : List RowKey} {l : Ledger} {t t' : Tables} (ht : t = t')
    (h : Fulfils v a key keys l t') : Fulfils v a key keys l t := ht ▸ h

/-! ## Operations -/

namespace Program

section
variable {g : Footing} {keys : List RowKey}

theorem deals_relimit {v : Purpose BalanceLimit} {limit : BalanceLimit}
    (hlock : RowKey.account limit.account ∈ keys)
    (he : ∀ l, g.Holds v.drawn keys l →
      v.effect l.tables.content = .ok (v.unkeyed limit, l.tables.content.relimit limit)) :
    Deals v (do ask (.updateLimit limit); ask .commit; return limit) g (holding keys) := by
  refine deals_updateLimit hlock (deals_commit rfl fun l hl => ⟨?_, ?_⟩)
  · exact UnitOfWork.conflict?_eq_none _ rfl rfl nofun
  · exact .congr (UnitOfWork.applyTo_limit l.tables keys limit) (hl.fulfils_relimit hlock (he l hl))

variable {v : Purpose Journal}

/-- Ends a locked transfer unbooked. -/
theorem deals_cancel {j : Journal} {reason : String} {now : Timestamp} {event : Event}
    (hlock : RowKey.journal j.transfer ∈ keys) (hj : g.tables.journal? j.transfer = some j)
    (hst : j.status = .initiated)
    (he : ∀ l, g.Holds v.drawn keys l → v.Cancels l.tables.content j reason now) :
    (conclude (j.cancelled reason now) event).Deals v g (holding keys) := by
  refine deals_conclude (Or.inr hlock) fun l hl => ⟨?_, ?_⟩
  · exact UnitOfWork.conflict?_eq_none _ rfl rfl nofun
  · exact .congr (UnitOfWork.applyTo_journal l.tables keys (j.cancelled reason now))
      (hl.fulfils_cancelled (hl.rows.journal _ j hlock hj) hst hlock (he l hl))

section
variable {j : Journal} {payer payee : Account × BalanceLimit} {balances : Decimal × Decimal}
  {debitTime creditTime now : Timestamp} {event : Event}

/-- Books a locked transfer. -/
theorem deals_complete (hlock : RowKey.journal j.transfer ∈ keys)
    (hj : g.tables.journal? j.transfer = some j) (hst : j.status = .initiated) (hv : j.Valid)
    (hp : Parties g.tables j.sender j.receiver payer payee)
    (hs : RowKey.account j.sender ∈ keys) (hr : RowKey.account j.receiver ∈ keys)
    (he : ∀ l, g.Holds v.drawn keys l →
      v.Books l.tables.content j payer payee balances debitTime creditTime now) :
    (book j balances debitTime creditTime >>= fun _ => conclude (j.completed now) event).Deals v g
      (holding keys) := by
  refine deals_book hs hr rfl rfl hv.parties hp.payer_row hp.payee_row
    fun debit credit hlegs hdebit hcredit => ?_
  refine deals_conclude (Or.inr hlock) fun l hl => ⟨?_, ?_⟩
  · exact UnitOfWork.conflict?_eq_none _ rfl rfl nofun
  have hj' := hl.rows.journal j.transfer j hlock hj
  have haw : l.tables.Awaits l.store.sequences j :=
    hl.keyed.toIndexed.awaits hl.keyed.toWellFormed hj' hst rfl rfl rfl rfl
  refine .congr (UnitOfWork.applyTo_legs l.tables (j := j.completed now) _ _ debit credit keys
    hv.parties) (hl.fulfils_booked haw hv (hl.rows.parties hp hs hr) hs hr hlegs
      (Or.inl ⟨hlock, j, hj', rfl⟩) ?_)
  rw [hdebit, hcredit]
  exact he l hl

/-- Books a transfer whose journal is new. -/
theorem deals_completeNew (hdrawn : v.drawn = some j.transfer) (hkey : g.key = some j.id)
    (hv : j.Valid) (hp : Parties g.tables j.sender j.receiver payer payee)
    (hs : RowKey.account j.sender ∈ keys) (hr : RowKey.account j.receiver ∈ keys)
    (he : ∀ l, g.Holds v.drawn keys l →
      v.Books l.tables.content j payer payee balances debitTime creditTime now) :
    (book j balances debitTime creditTime >>= fun _ => conclude (j.completed now) event).Deals v g
      { holding keys with
        journals := Table.empty.put j.transfer j
        newJournals := [j.transfer] } := by
  refine deals_book hs hr rfl rfl hv.parties hp.payer_row hp.payee_row
    fun debit credit hlegs hdebit hcredit => ?_
  refine deals_conclude (Or.inl (List.mem_singleton_self _)) fun l hl => ⟨?_, ?_⟩
  · refine UnitOfWork.conflict?_eq_none _ rfl rfl fun x hx => ?_
    cases List.mem_singleton.1 hx
    exact hl.fresh _ hdrawn
  have hp' := hl.rows.parties hp hs hr
  -- Nobody else has used the key that the journal was given.
  have haw : l.tables.Awaits l.store.sequences j :=
    ⟨hl.given j.id hkey, fun x k hk hid => absurd hid (hl.unused j.id hkey x k hk),
      ⟨_, hp'.payer_row⟩, ⟨_, hp'.payee_row⟩,
      fun k hk => nomatch (hl.fresh _ hdrawn).symm.trans hk⟩
  have happly := UnitOfWork.applyTo_newLegs l.tables (j := j.completed now)
    { payer.1 with balance := balances.1 } { payee.1 with balance := balances.2 } debit credit keys
    hv.parties
  rw [← Table.put_put Table.empty (j.completed now).transfer j] at happly
  refine .congr happly (.newJournal (hl.fulfils_booked haw hv hp' hs hr hlegs
    (Or.inr ⟨hdrawn, hkey⟩) ?_))
  rw [hdebit, hcredit]
  exact he l hl

end
end

variable (t : Tables)

theorem close_deals {transfer : TransferId} {reason : String} {action : Action}
    {canceller : Canceller} {now : Timestamp} :
    (close transfer reason action canceller now).Deals
      ⟨fun b => b.close transfer reason action now, Journal.unkeyed, none⟩ ⟨t, none⟩
        (holding []) := by
  refine deals_lockPending (fun l e _ he => ?_) fun l₁ j h₁ hj hst => ?_
  · simp only [Content.close, he]
    rfl
  obtain rfl : j.transfer = transfer := h₁.keyed.journal transfer j hj
  have hlock : RowKey.journal j.transfer ∈ List.insert (RowKey.journal j.transfer) [] :=
    List.mem_insert_self
  refine deals_cancel hlock hj hst fun l hl => ?_
  have hj' := hl.rows.journal _ j hlock hj
  show l.tables.content.close j.transfer reason action now = _
  rw [Content.close, l.tables.content_pending_of_pending action hj' hst]
  rfl

/-- What acceptance comes to once the journal and both parties are known. -/
theorem content_accept_eq {b : Content} {transfer : TransferId} {clock : Clock} {j : Journal}
    {payer payee : Account × BalanceLimit} (hj : b.pending transfer .accept = .ok j)
    (hp : b.parties j.sender j.receiver = .ok (payer, payee)) :
    b.accept transfer clock = match newBalances payer payee j.amount with
      | .ok balances => .ok (j.completed (clock 0), (b.book j { payer.1 with balance := balances.1 }
          { payee.1 with balance := balances.2 } (clock 1) (clock 2)).record
            (j.completed (clock 0)))
      | .error (.refused (.limitExceeded side _ _)) =>
        .ok (j.cancelled (systemReason side) (clock 0),
          b.record (j.cancelled (systemReason side) (clock 0)))
      | .error failure => .error failure := by
  rw [Content.accept, hj]
  show (b.parties j.sender j.receiver >>= _) = _
  rw [hp]
  rfl

theorem accept_deals {transfer : TransferId} {clock : Clock} :
    (accept transfer clock).Deals
      ⟨fun b => b.accept transfer clock, Journal.unkeyed, none⟩ ⟨t, none⟩ (holding []) := by
  refine deals_lockPending (fun l e _ he => ?_) fun l₁ j h₁ hj hst => ?_
  · simp only [Content.accept, he]
    rfl
  obtain rfl : j.transfer = transfer := h₁.keyed.journal transfer j hj
  have hlock : RowKey.journal j.transfer ∈ List.insert (RowKey.journal j.transfer) [] :=
    List.mem_insert_self
  have hvalid : j.Valid := h₁.keyed.valid _ j hj
  refine deals_lockParties (fun l e hl he => ?_) fun l₂ keys payer payee h₂ hp hkeys hs hr => ?_
  · have hj' := hl.rows.journal _ j hlock hj
    simp only [Content.accept, l.tables.content_pending_of_pending .accept hj' hst]
    show (l.tables.content.parties j.sender j.receiver >>= _) = _
    rw [he]
    rfl
  have hj₂ := h₂.rows.journal _ j hlock hj
  have hlock₂ := hkeys _ hlock
  -- From now on everything that matters is locked.
  have heffect : ∀ {t : Tables}, l₂.tables.Persists keys t →
      t.content.accept j.transfer clock = _ := fun {t} hrows =>
    content_accept_eq
      (t.content_pending_of_pending .accept (hrows.journal _ j hlock₂ hj₂) hst)
      (t.content_parties (hrows.parties hp hs hr))
  dsimp only
  cases hb : newBalances payer payee j.amount with
  | ok balances =>
    have hb' : newBalances payer payee j.unkeyed.amount = .ok balances := hb
    refine deals_complete hlock₂ hj₂ hst hvalid hp hs hr fun l hl => ?_
    show l.tables.content.accept j.transfer clock = _
    rw [heffect hl.rows, hb']
    rfl
  | error failure =>
    have hb' : newBalances payer payee j.unkeyed.amount = .error failure := hb
    split
    · cases ‹Except.error failure = .ok _›
    · rename_i side limit balance heq
      cases heq
      refine deals_cancel hlock₂ hj₂ hst fun l hl => ?_
      show l.tables.content.accept j.transfer clock = _
      rw [heffect hl.rows, hb']
      rfl
    · rename_i failure' hother heq
      cases heq
      show l₂.tables.content.accept j.transfer clock = _
      rw [heffect (.refl _ _), hb']
      split
      · cases ‹Except.error failure = .ok _›
      · rename_i heq
        cases heq
        exact absurd rfl (hother _ _ _)
      · rename_i heq
        cases heq
        rfl

/-- What other limits come to once the row is known. -/
theorem content_updateLimits_eq {b : Content} {number : AccountNumber} {maxPos maxNeg : Decimal}
    {now : Timestamp} {row : Account × BalanceLimit} (hn : ¬ (maxPos < 0 ∨ maxNeg < 0))
    (hrow : b.row number = .ok row) : b.updateLimits number maxPos maxNeg now =
      if { row.2 with maxPos, maxNeg, updatedAt := now }.IsExceededBy row.1.balance then
        .error (.refused (.invalidLimit number (.excludesBalance row.1.balance)))
      else .ok ({ row.2 with maxPos, maxNeg, updatedAt := now },
        b.relimit { row.2 with maxPos, maxNeg, updatedAt := now }) := by
  rw [Content.updateLimits, if_neg hn, hrow]
  show (if _ then _ else _) = _
  by_cases hex : { row.2 with maxPos, maxNeg, updatedAt := now }.IsExceededBy row.1.balance
  · rw [if_pos hex, if_pos hex]
    rfl
  · rw [if_neg hex, if_neg hex]
    rfl

theorem updateLimits_deals {number : AccountNumber} {maxPos maxNeg : Decimal} {now : Timestamp} :
    (updateLimits number maxPos maxNeg now).Deals
      ⟨fun b => b.updateLimits number maxPos maxNeg now, id, none⟩ ⟨t, none⟩ (holding []) := by
  unfold updateLimits
  split
  · rename_i hneg
    show Content.updateLimits _ _ _ _ _ = _
    rw [Content.updateLimits, if_pos hneg]
    rfl
  rename_i hneg
  refine deals_lockAccount (fun l e _ he => ?_) fun l₁ row h₁ hrow => ?_
  · show Content.updateLimits _ _ _ _ _ = _
    rw [Content.updateLimits, if_neg hneg, he]
    rfl
  have hlock : RowKey.account number ∈ List.insert (RowKey.account number) [] :=
    List.mem_insert_self
  have heffect : ∀ {t : Tables}, t.HasRow number row →
      t.content.updateLimits number maxPos maxNeg now = _ := fun hrow =>
    content_updateLimits_eq hneg hrow.content_row
  dsimp only
  split
  · rename_i hex
    show l₁.tables.content.updateLimits number maxPos maxNeg now = _
    rw [heffect hrow, if_pos hex]
  rename_i hex
  have hnumber : row.2.account = number := h₁.keyed.limit number row.2 hrow.2
  refine deals_relimit (hnumber ▸ hlock) fun l hl => ?_
  show l.tables.content.updateLimits number maxPos maxNeg now = _
  rw [heffect (hl.rows.hasRow hrow hlock), if_neg hex]
  rfl

/-- What a transfer comes to that is booked at once, once both parties are known. -/
theorem content_transferNow_eq {b : Content} {eligible : AccountNumber → Bool}
    {request : TransferRequest} {chance : Chance} {payer payee : Account × BalanceLimit}
    (hc : request.check eligible = .ok ())
    (hp : b.parties request.sender request.receiver = .ok (payer, payee)) :
    b.transferNow eligible request chance =
      newBalances payer payee request.amount >>= fun balances => do
        if (b.journal chance.transfer).isSome then
          throw (.refused (.duplicateKey (.transfer chance.transfer)))
        let j := (request.draft chance.transfer (chance.clock 0)).toJournal ⟨0⟩
        return (j.completed (chance.clock 3), (b.book j { payer.1 with balance := balances.1 }
          { payee.1 with balance := balances.2 } (chance.clock 1) (chance.clock 2)).record
            (j.completed (chance.clock 3))) := by
  rw [Content.transferNow, hc, hp]
  rfl

theorem transferNow_deals (rules : Rules) {request : TransferRequest} {chance : Chance} :
    (transferNow rules request chance).Deals
      ⟨fun b => b.transferNow rules.eligible request chance, Journal.unkeyed, some chance.transfer⟩
      ⟨t, none⟩ (holding []) := by
  refine deals_check (fun e he => ?_) fun _ hc => ?_
  · show Content.transferNow _ _ _ _ = _
    rw [Content.transferNow, he]
    rfl
  refine deals_lockParties (fun l e _ he => ?_)
    fun l₁ keys payer payee h₁ hp _ hs hr => ?_
  · show Content.transferNow _ _ _ _ = _
    rw [Content.transferNow, hc, he]
    rfl
  have heffect : ∀ {t : Tables}, l₁.tables.Persists keys t →
      t.content.transferNow rules.eligible request chance = _ := fun {t} hrows =>
    content_transferNow_eq hc (t.content_parties (hrows.parties hp hs hr))
  dsimp only
  refine deals_compute (fun e he => ?_) fun balances hb => ?_
  · show l₁.tables.content.transferNow rules.eligible request chance = _
    rw [heffect (.refl _ _), he]
    rfl
  refine deals_insertJournal rfl fun id => ?_
  obtain ⟨hpos, hne, hi, -, -⟩ := TransferRequest.check_eq_ok_iff.1 hc
  let j := (request.draft chance.transfer (chance.clock 0)).toJournal id
  have hvalid : j.Valid := ⟨hpos, hne, hi⟩
  refine deals_completeNew (j := j) rfl rfl hvalid hp hs hr fun l hl => ?_
  have hfree : (l.tables.content.journal chance.transfer).isSome = false := by
    show ((l.tables.journal? j.transfer).map _).isSome = false
    rw [show l.tables.journal? j.transfer = none from hl.fresh _ rfl]
    rfl
  show l.tables.content.transferNow rules.eligible request chance = _
  rw [heffect hl.rows, hb]
  exact if_neg (by simp [hfree])

end Program

/-- Whatever others do meanwhile, an operation that works on locked rows does what it is meant to
    do. -/
theorem Operation.program_deals (limits : DefaultLimits) (op : Operation) (h : op.Locking)
    (t : Tables) : (op.program limits).Deals (op.purpose h) ⟨t, none⟩ .empty := by
  cases op with
  | openAccount entity chance => exact h.elim
  | updateLimits number maxPos maxNeg now => exact Program.updateLimits_deals t
  | propose eligible request chance => exact h.elim
  | accept transfer clock => exact Program.accept_deals t
  | reject transfer reason now => exact Program.close_deals t
  | cancel transfer reason now => exact Program.close_deals t
  | transferNow eligible request chance =>
    exact Program.transferNow_deals t ⟨limits, eligible⟩

end CreditCircle

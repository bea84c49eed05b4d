/-
  What an acceptance touches.

  * `Tables.Records`: the journal of one transfer is replaced, and limits and indexes are kept.
  * `Tables.Moves`: two balances are replaced, and two postings are added.
  * `Journal.SettledAs`: the check that decides, and what it means for accounts and postings.
  * `Reachable.accept_settles`: an acceptance that succeeds does this and nothing else;
    `Reachable.accept_settles_short` goes through its three outcomes.
-/
import CreditCircle.Proofs.Acceptance

namespace CreditCircle

/-! ## Effects -/

namespace Tables

/-- From `t` to `t'`, `k` becomes the journal of its transfer.  Balances and postings apart,
    nothing else changes. -/
structure Records (k : Journal) (t t' : Tables) : Prop where
  journal : t'.journal? k.transfer = some k
  journals : ∀ x, x ≠ k.transfer → t'.journal? x = t.journal? x
  limits : t'.limits = t.limits
  accountIds : t'.accountIds = t.accountIds
  entityAccounts : t'.entityAccounts = t.entityAccounts
  journalIds : t'.journalIds = t.journalIds

/-- From `t` to `t'`, the parties of `j` get the balances `b` and `c`, and the legs of `j` are
    booked after all other postings.  No other account or posting changes. -/
structure Moves (j : Journal) (payer payee : Account) (b c : Decimal) (t t' : Tables) : Prop where
  payer : t'.account? j.sender = some { payer with balance := b }
  payee : t'.account? j.receiver = some { payee with balance := c }
  others : ∀ n, n ≠ j.sender → n ≠ j.receiver → t'.account? n = t.account? n
  legs : ∃ debit credit, j.HasLegs debit credit ∧
    t'.allPostings = t.allPostings ++ [debit, credit] ∧
    t'.postingsOfJournal j.id = [debit, credit]
  unbooked : t.postingsOfJournal j.id = []
  earlier : ∀ id, id ≠ j.id → t'.postingsOfJournal id = t.postingsOfJournal id

variable (t : Tables)

theorem records_withJournal (k : Journal) : Records k t (t.withJournal k) where
  journal := by rw [journal?_withJournal, if_pos rfl]
  journals x hx := by rw [journal?_withJournal, if_neg hx]
  limits := rfl
  accountIds := rfl
  entityAccounts := rfl
  journalIds := rfl

theorem Records.of_withLegs {t t' : Tables} {j k : Journal} {payer payee : Account}
    {debit credit : Posting} (h : Records k (t.withLegs j payer payee debit credit) t') :
    Records k t t' :=
  ⟨h.journal, h.journals, h.limits, h.accountIds, h.entityAccounts, h.journalIds⟩

theorem moves_withLegs {t : Tables} {j : Journal} {debit credit : Posting} (payer payee : Account)
    (b c : Decimal) (hne : j.sender ≠ j.receiver) (hn : t.postings.get? j.id = none)
    (hl : j.HasLegs debit credit) : Moves j payer payee b c t
      (t.withLegs j { payer with balance := b } { payee with balance := c } debit credit) where
  payer := by rw [account?_withLegs, if_neg hne, if_pos rfl]
  payee := by rw [account?_withLegs, if_pos rfl]
  others n hs hr := by rw [account?_withLegs, if_neg hr, if_neg hs]
  legs := by
    refine ⟨debit, credit, hl, allPostings_withLegs _ _ hn hl, ?_⟩
    rw [postingsOfJournal, postings_withLegs _ _ hn hl, Table.get?_put_self]
    rfl
  unbooked := by rw [postingsOfJournal, hn]; rfl
  earlier id hid := by
    rw [postingsOfJournal, postings_withLegs _ _ hn hl, Table.get?_put_of_ne _ _ hid]
    rfl

theorem Moves.withJournal {t t' : Tables} {j : Journal} {payer payee : Account} {b c : Decimal}
    (h : Moves j payer payee b c t t') (k : Journal) :
    Moves j payer payee b c t (t'.withJournal k) :=
  ⟨h.payer, h.payee, h.others, h.legs, h.unbooked, h.earlier⟩

end Tables

/-- How the pending transfer `j` is settled at `now` in going from `t` to `t'`: it is booked if both
    checks allow it, and otherwise cancelled, and the reason names the first check that does not. -/
inductive Journal.SettledAs (payer payee : Account × BalanceLimit) (j : Journal) (now : Timestamp)
    (t t' : Tables) : Journal → Prop
  | booked {b c : Decimal} (debit : payer.2.checkDebit payer.1 j.amount = .ok b)
      (credit : payee.2.checkCredit payee.1 j.amount = .ok c)
      (moves : t.Moves j payer.1 payee.1 b c t') :
      SettledAs payer payee j now t t' (j.completed now)
  | noDebit (fails : ∀ b, payer.2.checkDebit payer.1 j.amount ≠ .ok b)
      (accounts : t'.accounts = t.accounts) (postings : t'.postings = t.postings) :
      SettledAs payer payee j now t t'
        (j.cancelled "cancelled by system: exceeds credit limit" now)
  | noCredit {b : Decimal} (debit : payer.2.checkDebit payer.1 j.amount = .ok b)
      (fails : ∀ c, payee.2.checkCredit payee.1 j.amount ≠ .ok c)
      (accounts : t'.accounts = t.accounts) (postings : t'.postings = t.postings) :
      SettledAs payer payee j now t t'
        (j.cancelled "cancelled by system: exceeds maximum positive balance" now)

theorem Journal.SettledAs.completed_iff {payer payee : Account × BalanceLimit} {j k : Journal}
    {now : Timestamp} {t t' : Tables} (h : j.SettledAs payer payee now t t' k) :
    k.status = .completed ↔ (∃ b, payer.2.checkDebit payer.1 j.amount = .ok b) ∧
      ∃ c, payee.2.checkCredit payee.1 j.amount = .ok c := by
  cases h with
  | booked debit credit _ => exact ⟨fun _ => ⟨⟨_, debit⟩, _, credit⟩, fun _ => rfl⟩
  | noDebit fails _ _ => exact ⟨nofun, fun ⟨⟨b, hb⟩, _⟩ => absurd hb (fails b)⟩
  | noCredit _ fails _ _ => exact ⟨nofun, fun ⟨_, c, hc⟩ => absurd hc (fails c)⟩

/-! ## Acceptances -/

namespace BalanceLimit

variable {limit : BalanceLimit} {account : Account} {amount b : Decimal}

theorem checkDebit_ne_ok (hb : account.balance.sub? amount = some b) (hx : limit.IsExceededBy b)
    (c : Decimal) : limit.checkDebit account amount ≠ .ok c := by
  intro h
  obtain ⟨hc, hin⟩ := checkDebit_eq_ok_iff.1 h
  cases hb.symm.trans hc
  exact hin hx

theorem checkCredit_ne_ok (hb : account.balance.add? amount = some b) (hx : limit.IsExceededBy b)
    (c : Decimal) : limit.checkCredit account amount ≠ .ok c := by
  intro h
  obtain ⟨hc, hin⟩ := checkCredit_eq_ok_iff.1 h
  cases hb.symm.trans hc
  exact hin hx

end BalanceLimit

namespace Ledger

variable {limits : DefaultLimits} {l : Ledger}

/-- On every ledger that can come about, with nothing armed, an acceptance that succeeds books a
    pending transfer if both limit checks allow it now and cancels it otherwise.  It replaces that
    journal, and with the booking two balances; it adds the two legs; and it touches nothing
    else. -/
theorem Reachable.accept_settles (h : l.Reachable limits) (ha : l.store.armed = [])
    {x : TransferId} {j k : Journal} (hj : l.tables.journal? x = some j)
    (hp : j.status = .initiated) (clock : Clock)
    (hk : (l.run (Operation.program limits (.accept x clock))).1 = .ok k) :
    let l' := (l.run (Operation.program limits (.accept x clock))).2
    ∃ payer payee, Parties l.tables j.sender j.receiver payer payee ∧
      (k.status = .completed ↔ (∃ b, payer.2.checkDebit payer.1 j.amount = .ok b) ∧
        ∃ c, payee.2.checkCredit payee.1 j.amount = .ok c) ∧
      j.SettledAs payer payee (clock 0) l.tables l'.tables k ∧
      k.transfer = x ∧ l.tables.Records k l'.tables := by
  intro l'
  obtain ⟨payer, payee, hparties⟩ := h.parties hj
  have hl := h.withinLimits
  have hd := h.doubleEntry
  obtain ⟨t, s, es, rfl⟩ := h.eq_calm ha
  change t.journal? x = some j at hj
  have hw : t.WellFormed := h.atRest.wellFormed
  have hx := hw.journal x j hj
  have hne := (hw.valid x j hj).parties
  have hn : t.postings.get? j.id = none :=
    hd.postings_eq_none (hd.toIndexed.awaits hw hj hp rfl rfl rfl rfl)
  have hjudged := hl.judged hparties (hw.valid x j hj).amount
  have hrows : t.content.parties j.sender j.receiver = .ok (payer, payee) :=
    t.content_parties hparties
  have hrun : (calm t s es).run (Operation.program limits (.accept x clock)) = _ :=
    Program.run_accept (hw.journal x) (fun j hj => (hw.valid x j hj).parties) clock
  simp only [Tables.pending_eq_ok_iff.2 ⟨hj, hp⟩, provided, hrows] at hrun
  suffices hsettled : j.SettledAs payer payee (clock 0) t l'.tables k ∧ k.transfer = j.transfer ∧
      t.Records k l'.tables from
    ⟨payer, payee, hparties, hsettled.1.completed_iff, hsettled.1, hsettled.2.1.trans hx,
      hsettled.2.2⟩
  generalize Program.newBalances payer payee j.amount = outcome at hjudged hrun
  rw [hrun] at hk
  rw [show l' = _ from congrArg Prod.snd hrun]
  cases hjudged with
  | allowed hb hin hc hin' =>
    cases hk
    refine ⟨.booked (BalanceLimit.checkDebit_eq_ok_iff.2 ⟨hb, hin⟩)
      (BalanceLimit.checkCredit_eq_ok_iff.2 ⟨hc, hin'⟩) (Tables.Moves.withJournal ?_ _), rfl,
      (Tables.records_withJournal _ _).of_withLegs⟩
    exact Tables.moves_withLegs _ _ _ _ hne hn ⟨rfl, rfl, rfl, rfl, rfl, rfl⟩
  | tooLow hb hx' hroom =>
    cases hk
    exact ⟨.noDebit (BalanceLimit.checkDebit_ne_ok hb hx') rfl rfl, rfl,
      t.records_withJournal _⟩
  | tooHigh hb hin hc hx' hroom =>
    cases hk
    exact ⟨.noCredit (BalanceLimit.checkDebit_eq_ok_iff.2 ⟨hb, hin⟩)
      (BalanceLimit.checkCredit_ne_ok hc hx') rfl rfl, rfl, t.records_withJournal _⟩
  | debitOverflows hb => cases hk
  | creditOverflows hb hin hc => cases hk

/-- The short history, and then one member's limits are set to these. -/
def limited (number : AccountNumber) (maxPos maxNeg : Decimal) : Ledger :=
  short.next .standard (.operate (.updateLimits number maxPos maxNeg (.ofMillis 5000)))

theorem reachable_limited (number : AccountNumber) (maxPos maxNeg : Decimal) :
    (limited number maxPos maxNeg).Reachable .standard :=
  Reachable.next ⟨shortHistory, rfl⟩ _

/-- After the short history, the second member's offer to pay 7 back is booked, although its number
    is the higher one.  If the second member may owe no more than 1 by then it is cancelled because
    of the sender, and if the first member may have no more than 1 because of the receiver. -/
theorem Reachable.accept_settles_short :
    let accepted := fun l : Ledger =>
      l.run (Operation.program .standard (.accept ⟨.ofNat 4⟩ fun _ => .ofMillis 6000))
    let poor := limited (.generate 20) (.ofNat 500) (.ofNat 1)
    let full := limited (.generate 10) (.ofNat 1) (.ofNat 500)
    (∃ j k payer payee b c, short.tables.journal? ⟨.ofNat 4⟩ = some j ∧
      (accepted short).1 = .ok k ∧ ¬ j.sender ≤ j.receiver ∧
      Parties short.tables j.sender j.receiver payer payee ∧
      payer.2.checkDebit payer.1 j.amount = .ok b ∧
      payee.2.checkCredit payee.1 j.amount = .ok c ∧ k = j.completed (.ofMillis 6000) ∧
      short.tables.Moves j payer.1 payee.1 b c (accepted short).2.tables ∧
      short.tables.Records k (accepted short).2.tables) ∧
    (∃ j k payer payee, poor.tables.journal? ⟨.ofNat 4⟩ = some j ∧ (accepted poor).1 = .ok k ∧
      Parties poor.tables j.sender j.receiver payer payee ∧
      (∀ b, payer.2.checkDebit payer.1 j.amount ≠ .ok b) ∧
      k = j.cancelled "cancelled by system: exceeds credit limit" (.ofMillis 6000) ∧
      (accepted poor).2.tables.accounts = poor.tables.accounts ∧
      (accepted poor).2.tables.postings = poor.tables.postings ∧
      poor.tables.Records k (accepted poor).2.tables) ∧
    ∃ j k payer payee, full.tables.journal? ⟨.ofNat 4⟩ = some j ∧ (accepted full).1 = .ok k ∧
      Parties full.tables j.sender j.receiver payer payee ∧
      (∃ b, payer.2.checkDebit payer.1 j.amount = .ok b) ∧
      (∀ c, payee.2.checkCredit payee.1 j.amount ≠ .ok c) ∧
      k = j.cancelled "cancelled by system: exceeds maximum positive balance" (.ofMillis 6000) ∧
      (accepted full).2.tables.accounts = full.tables.accounts ∧
      (accepted full).2.tables.postings = full.tables.postings ∧
      full.tables.Records k (accepted full).2.tables := by
  intro accepted poor full
  refine ⟨?booked, ?noDebit, ?noCredit⟩
  case booked =>
    have hpending : (short.tables.journal? ⟨.ofNat 4⟩).map
        (fun j => (decide (j.sender ≤ j.receiver), j.status)) = some (false, .initiated) := by
      decide
    have hrun : (accepted short).1.toOption.map Journal.status = some .completed := by decide
    obtain ⟨j, hj, hp⟩ := Option.map_eq_some_iff.1 hpending
    obtain ⟨k, hk, hstatus⟩ := exists_ok_of_toOption_map hrun
    rw [Prod.mk.injEq, decide_eq_false_iff_not] at hp
    obtain ⟨payer, payee, hparties, -, hsettled, -, hrecords⟩ :=
      accept_settles (⟨shortHistory, rfl⟩ : short.Reachable .standard) rfl hj hp.2
        (fun _ => .ofMillis 6000) hk
    cases hsettled with
    | booked debit credit moves =>
      exact ⟨j, _, payer, payee, _, _, hj, hk, hp.1, hparties, debit, credit, rfl, moves, hrecords⟩
    | noDebit _ _ _ | noCredit _ _ _ _ => cases hstatus
  case noDebit =>
    have hpending : (poor.tables.journal? ⟨.ofNat 4⟩).map Journal.status = some .initiated := by
      decide
    have hrun : (accepted poor).1.toOption.map (fun k => (k.status, k.reason)) =
        some (.cancelled, some "cancelled by system: exceeds credit limit") := by decide
    obtain ⟨j, hj, hp⟩ := Option.map_eq_some_iff.1 hpending
    obtain ⟨k, hk, hends⟩ := exists_ok_of_toOption_map hrun
    obtain ⟨hstatus, hreason⟩ := Prod.mk.inj hends
    obtain ⟨payer, payee, hparties, -, hsettled, -, hrecords⟩ :=
      accept_settles (reachable_limited ..) rfl hj hp (fun _ => .ofMillis 6000) hk
    cases hsettled with
    | noDebit fails accounts postings =>
      exact ⟨j, _, payer, payee, hj, hk, hparties, fails, rfl, accounts, postings, hrecords⟩
    | booked _ _ _ => cases hstatus
    | noCredit _ _ _ _ => simp [Journal.cancelled] at hreason
  case noCredit =>
    have hpending : (full.tables.journal? ⟨.ofNat 4⟩).map Journal.status = some .initiated := by
      decide
    have hrun : (accepted full).1.toOption.map (fun k => (k.status, k.reason)) =
        some (.cancelled, some "cancelled by system: exceeds maximum positive balance") := by decide
    obtain ⟨j, hj, hp⟩ := Option.map_eq_some_iff.1 hpending
    obtain ⟨k, hk, hends⟩ := exists_ok_of_toOption_map hrun
    obtain ⟨hstatus, hreason⟩ := Prod.mk.inj hends
    obtain ⟨payer, payee, hparties, -, hsettled, -, hrecords⟩ :=
      accept_settles (reachable_limited ..) rfl hj hp (fun _ => .ofMillis 6000) hk
    cases hsettled with
    | noCredit debit fails accounts postings =>
      exact ⟨j, _, payer, payee, hj, hk, hparties, ⟨_, debit⟩, fails, rfl, accounts, postings,
        hrecords⟩
    | booked _ _ _ => cases hstatus
    | noDebit _ _ _ => simp [Journal.cancelled] at hreason

end Ledger
end CreditCircle

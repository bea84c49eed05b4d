/-
  A transfer that is booked at once comes to the same as a proposal that is accepted.

  * `Journal.undrawn`, `Posting.undated`, `Tables.BookAlike`: tables that differ only in what has
    been drawn, or read off the clock, for one transfer.
  * `Tables.RefuseAlike`: refusals that say the same.
  * `granted_cases`: both ways of looking up the parties lead to the same verdict.
  * `Reachable.transferNow_eq_propose_accept`: the two ways agree on every request.
-/
import CreditCircle.Proofs.ExactRun
import CreditCircle.Proofs.Failures

namespace CreditCircle

/-! ## Agreement -/

/-- A journal without the identifier that was drawn for it and without its times; whether it has
    been completed stays. -/
def Journal.undrawn (j : Journal) : Journal :=
  { j with
    transfer := ⟨.ofNat 0⟩
    createdAt := .ofMillis 0
    updatedAt := .ofMillis 0
    completedAt := j.completedAt.map fun _ => .ofMillis 0 }

/-- A posting without its time. -/
def Posting.undated (p : Posting) : Posting := { p with createdAt := .ofMillis 0 }

/-- The tables `a` and `b` come from `t` by booking one transfer, as `j` there and as `k` here.
    They differ only in what was drawn and read off the clock for it. -/
structure Tables.BookAlike (t a b : Tables) (j k : Journal) : Prop where
  journal : j.undrawn = k.undrawn
  new : t.journal? j.transfer = none ∧ t.journal? k.transfer = none
  journals : a.journals = t.journals.put j.transfer j ∧ b.journals = t.journals.put k.transfer k
  journalIds : a.journalIds = t.journalIds.put j.id j.transfer ∧
    b.journalIds = t.journalIds.put k.id k.transfer
  postings : ∃ legs legs', legs.map Posting.undated = legs'.map Posting.undated ∧
    t.postings.get? j.id = none ∧ a.postings = t.postings.put j.id legs ∧
    b.postings = t.postings.put k.id legs'
  accounts : a.accounts = b.accounts
  accountIds : a.accountIds = b.accountIds
  entityAccounts : a.entityAccounts = b.entityAccounts
  limits : a.limits = b.limits

/-- Two refusals of a request say the same: they are equal, or each names the identifier that was
    drawn for it, or neither account is there and each names one of the two. -/
def Tables.RefuseAlike (t : Tables) (request : TransferRequest) (x y : TransferId)
    (e f : LedgerError) : Prop :=
  e = f ∨
    (e = .duplicateKey (.transfer x) ∧ f = .duplicateKey (.transfer y)) ∨
    (t.account? request.sender = none ∧ t.account? request.receiver = none ∧
      ∃ m n, (m = request.sender ∨ m = request.receiver) ∧
        (n = request.sender ∨ n = request.receiver) ∧
        e = .accountNotFound (.number m) ∧ f = .accountNotFound (.number n))

/-! ## Looking up the parties -/

namespace Tables

variable {t : Tables}

theorem content_row_of_none {n : AccountNumber} (h : t.account? n = none) :
    t.content.row n = .error (.refused (.accountNotFound (.number n))) := by
  show (Content.need _ (t.account? n) >>= _) = _
  rw [h]; rfl

/-- An account that is there has limits. -/
theorem WithinLimits.content_row_of_some (h : t.WithinLimits) {n : AccountNumber} {a : Account}
    (ha : t.account? n = some a) : ∃ limit, t.limit? n = some limit ∧
      t.content.row n = .ok (a, limit) := by
  obtain ⟨limit, hl, -⟩ := h.inside n a ha
  exact ⟨limit, hl, content_row_eq_ok_iff.2 ⟨ha, hl⟩⟩

/-- With and without locks, the same parties are found, or the same one is missed, unless both
    are missing. -/
theorem WithinLimits.parties_cases (h : t.WithinLimits) (sender receiver : AccountNumber) :
    (∃ rows, t.content.parties sender receiver = .ok rows ∧
        t.content.glance sender receiver = .ok rows) ∨
      (∃ e, t.content.parties sender receiver = .error e ∧
        t.content.glance sender receiver = .error e) ∨
      (t.account? sender = none ∧ t.account? receiver = none ∧ ∃ m,
        (m = sender ∨ m = receiver) ∧
        t.content.parties sender receiver = .error (.refused (.accountNotFound (.number m))) ∧
        t.content.glance sender receiver =
          .error (.refused (.accountNotFound (.number sender)))) := by
  have hglance : t.content.glance sender receiver =
      (Content.need _ (t.account? sender) >>= fun payer =>
        Content.need _ (t.account? receiver) >>= fun payee => _) := rfl
  unfold Content.parties
  cases hs : t.account? sender with
  | none =>
    rw [hs] at hglance
    have hrow := content_row_of_none hs
    cases hr : t.account? receiver with
    | none =>
      have hrow' := content_row_of_none hr
      refine Or.inr (Or.inr ⟨rfl, rfl, ?_⟩)
      split
      · exact ⟨sender, Or.inl rfl, by rw [hrow]; rfl, hglance⟩
      · exact ⟨receiver, Or.inr rfl, by rw [hrow']; rfl, hglance⟩
    | some payee =>
      obtain ⟨limit', hl', hrow'⟩ := h.content_row_of_some hr
      refine Or.inr (Or.inl ⟨_, ?_, hglance⟩)
      rw [hrow, hrow']
      split <;> rfl
  | some payer =>
    obtain ⟨limit, hl, hrow⟩ := h.content_row_of_some hs
    rw [hs] at hglance
    cases hr : t.account? receiver with
    | none =>
      have hrow' := content_row_of_none hr
      rw [hr] at hglance
      refine Or.inr (Or.inl ⟨_, ?_, hglance⟩)
      rw [hrow, hrow']
      split <;> rfl
    | some payee =>
      obtain ⟨limit', hl', hrow'⟩ := h.content_row_of_some hr
      have hp : Parties t sender receiver (payer, limit) (payee, limit') := ⟨hs, hl, hr, hl'⟩
      refine Or.inl ⟨((payer, limit), (payee, limit')), ?_, ?_⟩
      · exact content_parties_eq_ok_iff.2 hp
      · exact content_glance_eq_ok_iff.2 hp

theorem granted_eq_ok_iff {eligible : AccountNumber → Bool} {request : TransferRequest}
    {x : TransferId}
    {rows : Except (Failure LedgerError) ((Account × BalanceLimit) × (Account × BalanceLimit))}
    {found : ((Account × BalanceLimit) × (Account × BalanceLimit)) × (Decimal × Decimal)} :
    t.granted eligible request x rows = .ok found ↔
      request.check eligible = .ok () ∧ rows = .ok found.1 ∧
        Program.newBalances found.1.1 found.1.2 request.amount = .ok found.2 ∧
        t.journal? x = none := by
  simp only [granted, bind_eq_ok_iff, mapError_eq_ok_iff]
  constructor
  · rintro ⟨_, hv, rows', hrows, balances, hb, _, hc, h⟩
    cases h
    exact ⟨hv, hrows, hb, claim_eq_ok_iff.1 hc⟩
  · rintro ⟨hv, hrows, hb, hc⟩
    exact ⟨(), hv, _, hrows, _, hb, (), claim_eq_ok_iff.2 hc, rfl⟩

/-- Both ways come to the same verdict on a request, provided that the identifiers drawn are both
    taken or both free. -/
theorem WithinLimits.granted_cases (h : t.WithinLimits) (eligible : AccountNumber → Bool)
    (request : TransferRequest) {x y : TransferId}
    (hdrawn : (t.journal? x).isSome = (t.journal? y).isSome) :
    let now := t.granted eligible request x (t.content.parties request.sender request.receiver)
    let later := t.granted eligible request y (t.content.glance request.sender request.receiver)
    (∃ found, now = .ok found ∧ later = .ok found) ∨
      ∃ e f, now = .error e ∧ later = .error f ∧
        ∀ e' f', e = .refused e' → f = .refused f' → t.RefuseAlike request x y e' f' := by
  intro now later
  have hsame : ∀ {e : Failure LedgerError} {e' f'}, e = .refused e' → e = .refused f' →
      t.RefuseAlike request x y e' f' := by
    rintro _ _ _ rfl hf
    cases hf
    exact Or.inl rfl
  cases hv : request.check eligible with
  | error e =>
    have hnow : now = .error (.refused e) := by simp only [now, granted, hv]; rfl
    have hlater : later = .error (.refused e) := by simp only [later, granted, hv]; rfl
    exact Or.inr ⟨_, _, hnow, hlater, fun _ _ => hsame⟩
  | ok _ =>
    rcases h.parties_cases request.sender request.receiver with
      ⟨rows, hp, hg⟩ | ⟨e, hp, hg⟩ | ⟨hs, hr, m, hm, hp, hg⟩
    · have hnow : now = (Program.newBalances rows.1 rows.2 request.amount >>= fun balances =>
          t.claim x >>= fun _ => pure (rows, balances)) := by simp only [now, granted, hv, hp]; rfl
      have hlater : later = (Program.newBalances rows.1 rows.2 request.amount >>= fun balances =>
          t.claim y >>= fun _ => pure (rows, balances)) := by
        simp only [later, granted, hv, hg]; rfl
      rw [hnow, hlater]
      cases Program.newBalances rows.1 rows.2 request.amount with
      | error e => exact Or.inr ⟨e, e, rfl, rfl, fun _ _ => hsame⟩
      | ok balances =>
        unfold claim
        rw [← hdrawn]
        split
        · refine Or.inr ⟨_, _, rfl, rfl, ?_⟩
          rintro _ _ ⟨⟩ ⟨⟩
          exact Or.inr (Or.inl ⟨rfl, rfl⟩)
        · exact Or.inl ⟨_, rfl, rfl⟩
    · have hnow : now = .error e := by simp only [now, granted, hv, hp]; rfl
      have hlater : later = .error e := by simp only [later, granted, hv, hg]; rfl
      exact Or.inr ⟨_, _, hnow, hlater, fun _ _ => hsame⟩
    · have hnow : now = .error (.refused (.accountNotFound (.number m))) := by
        simp only [now, granted, hv, hp]; rfl
      have hlater : later = .error (.refused (.accountNotFound (.number request.sender))) := by
        simp only [later, granted, hv, hg]; rfl
      refine Or.inr ⟨_, _, hnow, hlater, ?_⟩
      rintro _ _ ⟨⟩ ⟨⟩
      exact Or.inr (Or.inr ⟨hs, hr, m, _, hm, Or.inl rfl, rfl, rfl⟩)

/-- Nothing is booked yet under the next key of a journal. -/
theorem Keyed.postings_next {s : Sequences} (h : t.Keyed s) :
    t.postings.get? ⟨s.journal + 1⟩ = none := by
  cases hp : t.postings.get? ⟨s.journal + 1⟩ with
  | none => rfl
  | some legs =>
    obtain ⟨x, j, hj, hid, -⟩ := h.completed _ _ hp
    have hle := h.id_le x j hj
    rw [hid] at hle
    exact absurd hle (Nat.not_succ_le_self _)

end Tables

/-! ## The two ways -/

/-- What both ways make of the tables. -/
theorem Tables.Keyed.bookAlike {t : Tables} {s : Sequences} (h : t.Keyed s)
    {request : TransferRequest} {chance chance' : Chance} {j k : Journal} {clock : Clock}
    (hj : j = (request.draft chance.transfer (chance.clock 0)).toJournal ⟨s.journal + 1⟩)
    (hk : k = (request.draft chance'.transfer (chance'.clock 0)).toJournal ⟨s.journal + 1⟩)
    (hnew : t.journal? j.transfer = none) (hnew' : t.journal? k.transfer = none)
    (rows : (Account × BalanceLimit) × (Account × BalanceLimit)) (balances : Decimal × Decimal) :
    t.BookAlike
      ((t.booked s j rows balances (chance.clock 1) (chance.clock 2)).withNewJournal
        (j.completed (chance.clock 3)))
      (((t.withNewJournal k).booked { s with journal := s.journal + 1 } k rows balances (clock 1)
        (clock 2)).withJournal (k.completed (clock 0)))
      (j.completed (chance.clock 3)) (k.completed (clock 0)) := by
  have hnone := h.postings_next
  have hid : j.id = ⟨s.journal + 1⟩ := by rw [hj]; rfl
  have hid' : k.id = ⟨s.journal + 1⟩ := by rw [hk]; rfl
  have hlegs : ∀ (j : Journal) (s : Sequences) (now now' : Timestamp),
      j.HasLegs (j.debit s now) (j.credit s now') := fun _ _ _ _ => ⟨rfl, rfl, rfl, rfl, rfl, rfl⟩
  refine ⟨?_, ⟨hnew, hnew'⟩, ⟨rfl, ?_⟩, ⟨rfl, rfl⟩, ?_, ?_, rfl, rfl, rfl⟩
  · rw [hj, hk]; rfl
  · exact Table.put_put ..
  · refine ⟨_, _, ?_, ?_, Tables.postings_withLegs _ _ ?_ (hlegs ..),
      Tables.postings_withLegs _ _ ?_ (hlegs ..)⟩
    · rw [hj, hk]; rfl
    · show t.postings.get? j.id = none
      rw [hid]; exact hnone
    · rw [hid]; exact hnone
    · show t.postings.get? k.id = none
      rw [hid']; exact hnone
  · rw [hj, hk]; rfl

/-- When a proposal is granted, its acceptance books it, and that comes to what booking it at once
    would have come to. -/
theorem Tables.Keyed.run_granted {t : Tables} {s : Sequences} (h : t.Keyed s) (es : List Event)
    (rules : Rules) {request : TransferRequest} {chance chance' : Chance}
    {found : ((Account × BalanceLimit) × (Account × BalanceLimit)) × (Decimal × Decimal)}
    (hnow : t.granted rules.eligible request chance.transfer
      (t.content.parties request.sender request.receiver) = .ok found)
    (hlater : t.granted rules.eligible request chance'.transfer
      (t.content.glance request.sender request.receiver) = .ok found) (clock : Clock) :
    let quick := (Ledger.calm t s es).run (Program.transferNow rules request chance)
    let proposal := (Ledger.calm t s es).run (Program.propose rules request chance')
    let acceptance := proposal.2.run (Program.accept chance'.transfer clock)
    ∃ j p k, quick.1 = .ok j ∧ proposal.1 = .ok p ∧ acceptance.1 = .ok k ∧
      k.status = .completed ∧ t.BookAlike quick.2.tables acceptance.2.tables j k ∧
      quick.2.store.sequences = acceptance.2.store.sequences := by
  obtain ⟨hv, hparties, hb, hfree⟩ := Tables.granted_eq_ok_iff.1 hnow
  obtain ⟨-, -, -, hfree'⟩ := Tables.granted_eq_ok_iff.1 hlater
  obtain ⟨j, hj⟩ : ∃ j, j = (request.draft chance.transfer (chance.clock 0)).toJournal
    ⟨s.journal + 1⟩ := ⟨_, rfl⟩
  obtain ⟨k, hk⟩ : ∃ k, k = (request.draft chance'.transfer (chance'.clock 0)).toJournal
    ⟨s.journal + 1⟩ := ⟨_, rfl⟩
  have hquick : (Ledger.calm t s es).run (Program.transferNow rules request chance) = _ :=
    Program.run_transferNow rules request chance hj
  have hproposal : (Ledger.calm t s es).run (Program.propose rules request chance') = _ :=
    Program.run_propose rules request chance' hk
  simp only [hnow, hlater, Ledger.provided] at hquick hproposal
  have htransfer : k.transfer = chance'.transfer := by rw [hk]; rfl
  have hpending : (t.withNewJournal k).pending chance'.transfer .accept = .ok k := by
    refine Tables.pending_eq_ok_iff.2 ⟨?_, by rw [hk]; rfl⟩
    rw [Tables.journal?_withNewJournal, if_pos htransfer.symm]
  have hrows : (t.withNewJournal k).content.parties k.sender k.receiver = .ok found.1 := by
    rw [hk]
    exact hparties
  have hb' : Program.newBalances found.1.1 found.1.2 k.amount = .ok found.2 := by rw [hk]; exact hb
  have hw : (t.withNewJournal k).WellFormed := by
    obtain ⟨hamount, hne, hinitiator, -⟩ := TransferRequest.check_eq_ok_iff.1 hv
    refine h.toWellFormed.withNewJournal ?_
    rw [hk]
    exact ⟨hamount, hne, hinitiator⟩
  have haccept : (Ledger.calm (t.withNewJournal k) { s with journal := s.journal + 1 }
      (es ++ [.proposed k])).run (Program.accept chance'.transfer clock) = _ :=
    Program.run_accept (hw.journal _) (fun j hj => (hw.valid _ j hj).parties) clock
  simp only [hpending, Ledger.provided, hrows, hb'] at haccept
  dsimp only
  rw [hquick, hproposal, haccept]
  refine ⟨_, _, _, rfl, rfl, rfl, rfl, ?_, rfl⟩
  refine h.bookAlike hj hk ?_ ?_ found.1 found.2
  · rw [hj]; exact hfree
  · rw [hk]; exact hfree'

namespace Ledger

variable {limits : DefaultLimits} {l : Ledger}

/-- On every ledger that can come about, with nothing armed, a request is booked at once if and
    only if it can be proposed.  Then the acceptance of the proposal is booked as well, and both
    ways lead to the same tables, apart from the identifiers drawn for the transfer and the times.
    Otherwise both ways are refused for the same reason and change nothing.  The identifiers that
    the two ways draw have to be both free or both taken. -/
theorem Reachable.transferNow_eq_propose_accept (h : l.Reachable limits)
    (ha : l.store.armed = []) (eligible : AccountNumber → Bool) (request : TransferRequest)
    (chance chance' : Chance) (clock : Clock)
    (hdrawn : (l.tables.journal? chance.transfer).isSome =
      (l.tables.journal? chance'.transfer).isSome) :
    let quick := l.run (Operation.program limits (.transferNow eligible request chance))
    let proposal := l.run (Operation.program limits (.propose eligible request chance'))
    let acceptance := proposal.2.run (Operation.program limits (.accept chance'.transfer clock))
    ((∃ j, quick.1 = .ok j) ↔ ∃ p, proposal.1 = .ok p) ∧
      (∀ p, proposal.1 = .ok p → ∃ j k, quick.1 = .ok j ∧ acceptance.1 = .ok k ∧
        k.status = .completed ∧ l.tables.BookAlike quick.2.tables acceptance.2.tables j k ∧
        quick.2.store.sequences = acceptance.2.store.sequences) ∧
      ∀ f, proposal.1 = .error f → ∃ e e', quick.1 = .error (.refused e) ∧ f = .refused e' ∧
        l.tables.RefuseAlike request chance.transfer chance'.transfer e e' ∧
        quick.2 = l ∧ proposal.2 = l := by
  have hkeyed := h.keyed
  have hcases := h.withinLimits.granted_cases eligible request hdrawn
  have hrefused : ∀ (op : Operation) f, (l.run (op.program limits)).1 = .error f →
      ∃ e, f = .refused e := fun _ _ hf => h.run_refused hf
  obtain ⟨t, s, es, rfl⟩ := h.eq_calm ha
  intro quick proposal acceptance
  rcases hcases with ⟨found, hnow, hlater⟩ | ⟨e, f, hnow, hlater, halike⟩
  · obtain ⟨j, p, k, hj, hp, hk, hcompleted, hbook, hsequences⟩ :=
      Tables.Keyed.run_granted (t := t) (s := s) hkeyed es ⟨limits, eligible⟩ hnow hlater clock
    refine ⟨⟨fun _ => ⟨p, hp⟩, fun _ => ⟨j, hj⟩⟩, fun _ _ =>
      ⟨j, k, hj, hk, hcompleted, hbook, hsequences⟩, fun f hf => ?_⟩
    cases hp.symm.trans hf
  · have hquick : quick = (.error e, calm t s es) := by
      refine (Program.run_transferNow ⟨limits, eligible⟩ request chance rfl).trans ?_
      exact provided_of_error hnow _
    have hproposal : proposal = (.error f, calm t s es) := by
      refine (Program.run_propose ⟨limits, eligible⟩ request chance' rfl).trans ?_
      exact provided_of_error hlater _
    obtain ⟨e, rfl⟩ := hrefused _ _ (congrArg Prod.fst hquick)
    obtain ⟨f, rfl⟩ := hrefused _ _ (congrArg Prod.fst hproposal)
    rw [hquick, hproposal]
    refine ⟨⟨?_, ?_⟩, ?_, ?_⟩
    · rintro ⟨j, ⟨⟩⟩
    · rintro ⟨p, ⟨⟩⟩
    · rintro p ⟨⟩
    · rintro _ ⟨⟩
      exact ⟨e, f, rfl, rfl, halike e f rfl rfl, rfl, rfl⟩

/-- After the short history, the first member can pay 3 more in both ways. -/
theorem Reachable.transferNow_eq_propose_accept_short :
    let request := TransferRequest.send (.generate 10) (.generate 20) (.ofNat 3)
    let quick := short.run
      (Operation.program .standard (.transferNow (fun _ => true) request (.nth 5)))
    let proposal := short.run
      (Operation.program .standard (.propose (fun _ => true) request (.nth 6)))
    let acceptance := proposal.2.run
      (Operation.program .standard (.accept ⟨.ofNat 6⟩ fun _ => .ofMillis 7))
    short.store.armed = [] ∧ (short.tables.journal? ⟨.ofNat 5⟩).isSome = false ∧
      (short.tables.journal? ⟨.ofNat 6⟩).isSome = false ∧
      ∃ j k, quick.1 = .ok j ∧ acceptance.1 = .ok k ∧ k.status = .completed ∧
        short.tables.BookAlike quick.2.tables acceptance.2.tables j k := by
  intro request quick proposal acceptance
  have hfree : (short.tables.journal? ⟨.ofNat 5⟩).isSome = false := by decide
  have hfree' : (short.tables.journal? ⟨.ofNat 6⟩).isSome = false := by decide
  obtain ⟨hiff, hgranted, -⟩ := transferNow_eq_propose_accept
    (⟨shortHistory, rfl⟩ : short.Reachable .standard) rfl (fun _ => true) request (.nth 5) (.nth 6)
    (fun _ => .ofMillis 7) (hfree.trans hfree'.symm)
  have hok : proposal.1.isOk = true := by decide
  cases hp : proposal.1 with
  | error f =>
    rw [hp] at hok
    cases hok
  | ok p =>
    obtain ⟨j, k, hj, hk, hcompleted, hbook, -⟩ := hgranted p hp
    exact ⟨rfl, hfree, hfree', j, k, hj, hk, hcompleted, hbook⟩

end Ledger
end CreditCircle

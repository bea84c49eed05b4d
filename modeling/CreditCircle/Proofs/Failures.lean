/-
  Operations that fail.

  * `Reachable.failure_leaves_no_trace`: a failed operation changes only counters and what is
    armed.
  * `Reachable.run_refused`: an operation that fails has been refused.
  * `Operation.Moves`, `Overflows`, `AtRest.run_overflows`: a new balance out of range is what the
    operation reports.
-/
import CreditCircle.Proofs.Headroom

namespace CreditCircle

/-! ## No trace -/

/-- Only counters and what is armed differ. -/
theorem Staged.eq_of_held {l l' : Ledger} (hs : Staged l l' .empty) (h : l.store.held = []) :
    l' = { l with
      store := { l.store with sequences := l'.store.sequences, armed := l'.store.armed } } := by
  obtain ⟨⟨tables, held, sequences, armed⟩, events⟩ := l'
  have ht : tables = l.store.tables := hs.tables
  have he : events = l.events := hs.events
  have hh : held = [] := hs.held_eq_nil
  rw [ht, he, hh, ← h]

namespace Ledger

/-- The ledger with just these failures armed. -/
def withArmed (l : Ledger) (points : List FailPoint) : Ledger :=
  { l with store := { l.store with armed := points } }

variable {limits : DefaultLimits} {l l' : Ledger}

theorem AtRest.withArmed (h : l.AtRest) (points : List FailPoint) : (l.withArmed points).AtRest :=
  ⟨h.held, h.wellFormed⟩

/-- Whatever is armed, an operation that fails leaves all rows and indexes, the events and the
    locks as they were; keys may have been given out, and armed failures have been used up. -/
theorem Reachable.failure_leaves_no_trace (h : l.Reachable limits) {armed : List FailPoint}
    {op : Operation} {e : Failure LedgerError}
    (hrun : (l.withArmed armed).run (op.program limits) = (.error e, l')) :
    l' = { l with
        store := { l.store with sequences := l'.store.sequences, armed := l'.store.armed } } ∧
      l.store.sequences ≤ l'.store.sequences ∧ ∀ point ∈ l'.store.armed, point ∈ armed := by
  have hr := h.atRest.withArmed armed
  rcases hr.run_cases limits op with ⟨⟨v, hv⟩, -⟩ | ⟨-, hs⟩
  · rw [hrun] at hv; cases hv
  · rw [hrun] at hs
    exact ⟨hs.eq_of_held hr.held, hs.sequences, hs.armed⟩

/-- An acceptance that fails when it sets the first balance has given out the keys of two
    postings. -/
theorem Reachable.failure_leaves_no_trace_short :
    let op := Operation.accept ⟨.ofNat 4⟩ fun _ => .ofMillis 0
    let run := (short.withArmed [.setBalance]).run (op.program .standard)
    run.1 = .error (.refused (.storage (.injected .setBalance))) ∧
      run.2.tables = short.tables ∧ run.2.events = short.events ∧
      short.store.sequences.posting = 2 ∧ run.2.store.sequences.posting = 4 ∧
      run.2.store.armed = [] := by
  intro op run
  have hrun : run.1 = .error (.refused (.storage (.injected .setBalance))) := by decide
  obtain ⟨h, -, -⟩ := failure_leaves_no_trace (⟨shortHistory, rfl⟩ : short.Reachable .standard)
    (Prod.ext hrun rfl : run = (_, run.2))
  exact ⟨hrun, (congrArg Ledger.tables h).trans rfl, (congrArg Ledger.events h).trans rfl,
    by decide, by decide, by decide⟩

end Ledger

/-! ## Refusals -/

theorem Operation.Refused.eq_refused {t : Tables} (hl : t.WithinLimits) (hw : t.WellFormed)
    {op : Operation} {f : Failure LedgerError} (h : op.Refused t f) : ∃ e, f = .refused e := by
  -- The one failure that might be something else is that of the new balances.
  have hb : ∀ {sender receiver payer payee amount}, Parties t sender receiver payer payee →
      checkAmount amount = .ok () → Program.newBalances payer payee amount = .error f →
        ∃ e, f = .refused e := by
    intro sender receiver payer payee amount hp ha hf
    have hj := hl.judged hp ha
    rw [hf] at hj
    cases hj <;> exact ⟨_, rfl⟩
  have hpending : ∀ {x : TransferId} {action : Action}, PendingRefused x action t f →
      ∃ e, f = .refused e := by
    rintro x action (⟨-, h⟩ | ⟨j, -, -, h⟩)
    · exact ⟨_, h⟩
    · exact ⟨_, h⟩
  have hrequest : ∀ {eligible request chance}, RequestRefused eligible request chance t f →
      ∃ e, f = .refused e := by
    rintro eligible request chance (⟨e, -, h⟩ | ⟨e, -, h⟩ | ⟨hv, payer, payee, hp, h⟩ | ⟨-, h⟩)
    · exact ⟨_, h⟩
    · exact ⟨_, h⟩
    · exact hb hp (TransferRequest.check_eq_ok_iff.1 hv).1 h
    · exact ⟨_, h⟩
  cases op with
  | openAccount entity chance =>
    obtain ⟨attempt, key, -, -, h⟩ := h
    exact ⟨_, h⟩
  | updateLimits number maxPos maxNeg now =>
    rcases h with ⟨-, h⟩ | ⟨e, -, h⟩ | ⟨a, old, -, -, -, h⟩
    · exact ⟨_, h⟩
    · exact ⟨_, h⟩
    · exact ⟨_, h⟩
  | propose eligible request chance => exact hrequest h
  | accept transfer clock =>
    rcases h with h | ⟨j, hj, -, ⟨e, -, h⟩ | ⟨payer, payee, hp, h⟩⟩
    · exact hpending h
    · exact ⟨_, h⟩
    · exact hb hp (hw.valid transfer j hj).amount h
  | reject transfer reason now => exact hpending h
  | cancel transfer reason now => exact hpending h
  | transferNow eligible request chance => exact hrequest h

/-- No operation is stopped by an overflow, and alone none waits. -/
theorem Ledger.Reachable.run_refused {limits : DefaultLimits} {l : Ledger}
    (h : l.Reachable limits) {op : Operation} {f : Failure LedgerError}
    (hf : (l.run (op.program limits)).1 = .error f) : ∃ e, f = .refused e := by
  rcases h.atRest.run_cases limits op with ⟨⟨v, hv⟩, -⟩ | ⟨⟨f', hf', hwhy⟩, -⟩
  · rw [hv] at hf; cases hf
  · rw [hf'] at hf
    cases hf
    rcases hwhy with ⟨point, -, h⟩ | hr
    · exact ⟨_, h⟩
    · exact hr.eq_refused h.withinLimits h.atRest.wellFormed

/-! ## Overflows -/

/-- On `t`, the operation comes to moving `amount` from `sender` to `receiver`. -/
inductive Operation.Moves (t : Tables) :
    Operation → AccountNumber → AccountNumber → Decimal → Prop
  | propose {eligible : AccountNumber → Bool} {request : TransferRequest} {chance : Chance}
      (h : request.check eligible = .ok ()) : Moves t (.propose eligible request chance)
        request.sender request.receiver request.amount
  | transferNow {eligible : AccountNumber → Bool} {request : TransferRequest} {chance : Chance}
      (h : request.check eligible = .ok ()) : Moves t (.transferNow eligible request chance)
        request.sender request.receiver request.amount
  | accept {transfer : TransferId} {clock : Clock} {j : Journal}
      (h : t.journal? transfer = some j) (hp : j.status = .initiated) :
      Moves t (.accept transfer clock) j.sender j.receiver j.amount

/-- What a balance check would make of the balances of the two parties is out of range, at the
    sender or, if the sender can pay, at the receiver. -/
inductive Overflows (payer payee : Account × BalanceLimit) (amount : Decimal) :
    Leg → AccountNumber → Prop
  | debit (h : payer.1.balance.sub? amount = none) : Overflows payer payee amount .debit
      payer.1.number
  | credit {debited : Decimal} (h : payer.2.checkDebit payer.1 amount = .ok debited)
      (hc : payee.1.balance.add? amount = none) : Overflows payer payee amount .credit
        payee.1.number

theorem Overflows.newBalances_eq {payer payee : Account × BalanceLimit} {amount : Decimal}
    {leg : Leg} {number : AccountNumber} (h : Overflows payer payee amount leg number) :
    Program.newBalances payer payee amount =
      .error (.refused (.arithmeticOverflow leg number)) := by
  unfold Program.newBalances
  cases h with
  | debit h => rw [BalanceLimit.checkDebit, h]; rfl
  | credit h hc => rw [h, BalanceLimit.checkCredit, hc]; rfl

/-- An overflow is what the operation reports, whatever is armed. -/
theorem Ledger.AtRest.run_overflows {limits : DefaultLimits} {l : Ledger} (h : l.AtRest)
    {op : Operation} {sender receiver number : AccountNumber} {amount : Decimal}
    {payer payee : Account × BalanceLimit} {leg : Leg}
    (hm : op.Moves l.tables sender receiver amount)
    (hp : Parties l.tables sender receiver payer payee)
    (ho : Overflows payer payee amount leg number) :
    (l.run (op.program limits)).1 = .error (.refused (.arithmeticOverflow leg number)) := by
  have hb := ho.newBalances_eq
  have key : ∀ {α : Type} {p : Program α},
      p.Ends (fun r _ _ => r = .error (.refused (.arithmeticOverflow leg number))) l .empty →
        (l.run p).1 = .error (.refused (.arithmeticOverflow leg number)) := by
    intro α p hends
    obtain ⟨r, l', u, hr, hrun⟩ := run_of_ends hends
    rw [hrun]; exact hr
  have h₀ := Staged.refl h.held
  cases hm with
  | @propose eligible request chance hv =>
    refine key (Program.ends_bind ?_)
    rw [hv]
    refine Program.ends_bind (Program.ends_checkBalance hp ?_)
    rw [hb]
    rfl
  | @transferNow eligible request chance hv =>
    refine key (Program.ends_bind ?_)
    rw [hv]
    refine Program.ends_lockParties h₀ hp fun l' keys h' => Program.ends_bind ?_
    rw [hb]
    rfl
  | @accept transfer clock j hj hst =>
    refine key (Program.ends_lockPending_of_pending h₀ hj hst fun l₁ h₁ => ?_)
    refine Program.ends_lockParties h₁ hp fun l' keys h' => ?_
    dsimp only
    rw [hb]
    rfl

end CreditCircle

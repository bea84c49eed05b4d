/-
  What an acceptance comes to.

  * `Journal.EndsAs`: a pending transfer is booked, or cancelled because of the first leg whose new
    balance lies outside its limits.
  * `Overflows.beyond`: a new balance that cannot be computed is larger than any decimal.
  * `Reachable.accept_resolves`: an acceptance resolves the transfer, unless a new balance
    overflows.
-/
import CreditCircle.Proofs.ExactRun
import CreditCircle.Proofs.Replays

namespace CreditCircle

open Decimal

/-- How the pending transfer `j` ends when it is accepted now. -/
inductive Journal.EndsAs (payer payee : Account × BalanceLimit) (j : Journal) (now : Timestamp) :
    Journal → Prop
  | booked {b c : Decimal} (hb : payer.1.balance.sub? j.amount = some b)
      (hin : ¬ payer.2.IsExceededBy b) (hc : payee.1.balance.add? j.amount = some c)
      (hin' : ¬ payee.2.IsExceededBy c) : EndsAs payer payee j now (j.completed now)
  | tooLow {b : Decimal} (hb : payer.1.balance.sub? j.amount = some b)
      (hx : payer.2.IsExceededBy b) :
      EndsAs payer payee j now (j.cancelled (Program.systemReason .sender) now)
  | tooHigh {b c : Decimal} (hb : payer.1.balance.sub? j.amount = some b)
      (hin : ¬ payer.2.IsExceededBy b) (hc : payee.1.balance.add? j.amount = some c)
      (hx : payee.2.IsExceededBy c) :
      EndsAs payer payee j now (j.cancelled (Program.systemReason .receiver) now)

/-- If a new balance overflows, then no decimal is as large as what it would have to be. -/
theorem Overflows.beyond {payer payee : Account × BalanceLimit} {amount : Decimal} {leg : Leg}
    {number : AccountNumber} (h : Overflows payer payee amount leg number) (d : Decimal) :
    |d.toRat| < |payer.1.balance.toRat - amount.toRat| ∨
      |d.toRat| < |payee.1.balance.toRat + amount.toRat| := by
  cases h with
  | debit h =>
    refine Or.inl (lt_of_not_ge fun hle => ?_)
    obtain ⟨c, hc⟩ := sub?_eq_some_of_le hle
    rw [h] at hc
    cases hc
  | credit _ h =>
    refine Or.inr (lt_of_not_ge fun hle => ?_)
    obtain ⟨c, hc, -⟩ := add?_eq_some_of_le hle
    rw [h] at hc
    cases hc

namespace Ledger

variable {limits : DefaultLimits} {l : Ledger}

/-- The parties of every transfer have accounts, and those have limits. -/
theorem Reachable.parties (h : l.Reachable limits) {x : TransferId} {j : Journal}
    (hj : l.tables.journal? x = some j) :
    ∃ payer payee, Parties l.tables j.sender j.receiver payer payee := by
  obtain ⟨payer, hs⟩ := h.keyed.sender x j hj
  obtain ⟨payee, hr⟩ := h.keyed.receiver x j hj
  obtain ⟨limit, hsl, -⟩ := h.withinLimits.inside _ _ hs
  obtain ⟨limit', hrl, -⟩ := h.withinLimits.inside _ _ hr
  exact ⟨(payer, limit), (payee, limit'), hs, hsl, hr, hrl⟩

/-- On every ledger that can come about, with nothing armed, the acceptance of a pending transfer
    succeeds and commits it as booked, or as cancelled by the ledger if a leg would break its
    limits; unless a new balance would be larger than any decimal.  Then that is reported, and the
    transfer stays pending. -/
theorem Reachable.accept_resolves (h : l.Reachable limits) (ha : l.store.armed = [])
    {x : TransferId} {j : Journal} (hj : l.tables.journal? x = some j) (hp : j.status = .initiated)
    (clock : Clock) :
    let run := l.run (Operation.program limits (.accept x clock))
    ∃ payer payee, Parties l.tables j.sender j.receiver payer payee ∧
      ((∃ k, run.1 = .ok k ∧ j.EndsAs payer payee (clock 0) k ∧
          run.2.tables.journal? x = some k ∧ (k.status = .completed ∨ k.status = .cancelled)) ∨
        ∃ leg number, Overflows payer payee j.amount leg number ∧
          (∀ d : Decimal, |d.toRat| < |payer.1.balance.toRat - j.amount.toRat| ∨
            |d.toRat| < |payee.1.balance.toRat + j.amount.toRat|) ∧
          run = (.error (.refused (.arithmeticOverflow leg number)), l)) := by
  intro run
  obtain ⟨payer, payee, hparties⟩ := h.parties hj
  have hl := h.withinLimits
  obtain ⟨t, s, es, rfl⟩ := h.eq_calm ha
  change t.journal? x = some j at hj
  have hw : t.WellFormed := h.atRest.wellFormed
  have hx := hw.journal x j hj
  have hjudged := hl.judged hparties (hw.valid x j hj).amount
  have hrows : t.content.parties j.sender j.receiver = .ok (payer, payee) :=
    t.content_parties hparties
  have hrun : run = _ := Program.run_accept (hw.journal x)
    (fun j hj => (hw.valid x j hj).parties) clock
  simp only [Tables.pending_eq_ok_iff.2 ⟨hj, hp⟩, provided, hrows] at hrun
  have hfound : ∀ (t' : Tables) (k : Journal), k.transfer = j.transfer →
      (t'.withJournal k).journal? x = some k := by
    intro t' k hk
    rw [Tables.journal?_withJournal, if_pos (hk.trans hx).symm]
  refine ⟨payer, payee, hparties, ?_⟩
  generalize Program.newBalances payer payee j.amount = outcome at hjudged hrun
  cases hjudged with
  | allowed hb hin hc hin' =>
    refine Or.inl ⟨_, congrArg Prod.fst hrun, .booked hb hin hc hin', ?_, Or.inl rfl⟩
    rw [hrun]
    exact hfound _ _ rfl
  | tooLow hb hx' hroom =>
    refine Or.inl ⟨_, congrArg Prod.fst hrun, .tooLow hb hx', ?_, Or.inr rfl⟩
    rw [hrun]
    exact hfound _ _ rfl
  | tooHigh hb hin hc hx' hroom =>
    refine Or.inl ⟨_, congrArg Prod.fst hrun, .tooHigh hb hin hc hx', ?_, Or.inr rfl⟩
    rw [hrun]
    exact hfound _ _ rfl
  | debitOverflows hb =>
    have ho : Overflows payer payee j.amount .debit payer.1.number := .debit hb
    exact Or.inr ⟨_, _, ho, ho.beyond, hrun⟩
  | creditOverflows hb hin hc =>
    have ho : Overflows payer payee j.amount .credit payee.1.number :=
      .credit (BalanceLimit.checkDebit_eq_ok_iff.2 ⟨hb, hin⟩) hc
    exact Or.inr ⟨_, _, ho, ho.beyond, hrun⟩

/-- After the short history, the second member's offer to pay 7 back can be accepted. -/
theorem Reachable.accept_resolves_short :
    let run := short.run (Operation.program .standard (.accept ⟨.ofNat 4⟩ fun _ => .ofMillis 0))
    short.store.armed = [] ∧ ∃ j k payer payee, short.tables.journal? ⟨.ofNat 4⟩ = some j ∧
      j.status = .initiated ∧ run.1 = .ok k ∧ j.EndsAs payer payee (.ofMillis 0) k ∧
      run.2.tables.journal? ⟨.ofNat 4⟩ = some k ∧ k.status = .completed := by
  intro run
  have hj : (short.tables.journal? ⟨.ofNat 4⟩).isSome = true := by decide
  obtain ⟨j, hj⟩ := Option.isSome_iff_exists.1 hj
  have hp : (short.tables.journal? ⟨.ofNat 4⟩).map Journal.status = some .initiated := by decide
  have hstatus : (run.2.tables.journal? ⟨.ofNat 4⟩).map Journal.status = some .completed := by
    decide
  rw [hj, Option.map_some, Option.some_inj] at hp
  obtain ⟨payer, payee, -, ⟨k, hk, hends, hfound, -⟩ | ⟨leg, number, -, -, hrun⟩⟩ :=
    accept_resolves (⟨shortHistory, rfl⟩ : short.Reachable .standard) rfl hj hp
      (fun _ => .ofMillis 0)
  · rw [hfound, Option.map_some, Option.some_inj] at hstatus
    exact ⟨rfl, j, k, payer, payee, hj, hp, hk, hends, hfound, hstatus⟩
  · rw [show run = _ from hrun, hj, Option.map_some, hp] at hstatus
    cases hstatus

/-- A member offers to pay `7 * 10 ^ 28` and pays that much at once before the offer is
    accepted. -/
def overdrawnHistory : List Step :=
  let request := TransferRequest.send (.generate 10) (.generate 20) (.ofNat (7 * 10 ^ 28))
  [.operate (.openAccount ⟨.ofNat 1⟩ (.nth 1)), .operate (.openAccount ⟨.ofNat 2⟩ (.nth 2)),
    .operate (.propose (fun _ => true) request (.nth 3)),
    .operate (.transferNow (fun _ => true) request (.nth 4))]

/-- An acceptance may be refused although the transfer is pending and nothing is armed. -/
theorem accept_may_overflow : ¬ ∀ (limits : DefaultLimits) (l : Ledger), l.Reachable limits →
    l.store.armed = [] → ∀ x j clock, l.tables.journal? x = some j → j.status = .initiated →
      ∃ k, (l.run (Operation.program limits (.accept x clock))).1 = .ok k := by
  intro h
  have hj : ((empty.after .widest overdrawnHistory).tables.journal? ⟨.ofNat 3⟩).map
      Journal.status = some .initiated := by decide
  have hrun : ((empty.after .widest overdrawnHistory).run (Operation.program .widest
      (.accept ⟨.ofNat 3⟩ fun _ => .ofMillis 0))).1 =
        .error (.refused (.arithmeticOverflow .debit (.generate 10))) := by decide
  rw [Option.map_eq_some_iff] at hj
  obtain ⟨j, hj, hp⟩ := hj
  obtain ⟨k, hk⟩ := h .widest _ ⟨overdrawnHistory, rfl⟩ rfl _ j (fun _ => .ofMillis 0) hj hp
  rw [hrun] at hk
  cases hk

end Ledger
end CreditCircle

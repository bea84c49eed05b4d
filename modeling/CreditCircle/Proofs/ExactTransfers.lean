/-
  What a completed transfer moves.

  * `Reachable.balances`: what valid amounts do not change holds of all balances.
  * `Reachable.inCents`: so they are whole cents, whatever the limits are.
  * `Tables.Shifts`: how far the balance of an account has moved.
  * `Program.MayBook`: the operations that book a transfer.
  * `Reachable.completed_shifts`: both balances move by the amount, unless the new balance is not
    a decimal; then it is rounded.
-/
import CreditCircle.Proofs.Conservation
import CreditCircle.Proofs.Replays

namespace CreditCircle

open Decimal

/-! ## What all balances are -/

/-- Something that a balance still is when a valid amount has been added or taken away. -/
structure Lasting (P : Decimal → Prop) : Prop where
  zero : P 0
  add : ∀ {b amount c : Decimal}, P b → checkAmount amount = .ok () → b.add? amount = some c → P c
  sub : ∀ {b amount c : Decimal}, P b → checkAmount amount = .ok () → b.sub? amount = some c → P c

/-- All balances are whole cents. -/
def Tables.InCents (t : Tables) : Prop := ∀ n a, t.account? n = some a → a.balance.IsCents

section
variable {P : Decimal → Prop} {limits : DefaultLimits} {l l' : Ledger}

theorem Books.balances (hP : Lasting P) {j : Journal} {t : Tables} (h : Books l l' j t)
    (hv : j.Valid) (hb : ∀ n a, l.tables.account? n = some a → P a.balance) :
    ∀ n a, t.account? n = some a → P a.balance := by
  obtain ⟨parties, allowed, -⟩ := h
  obtain ⟨⟨hsub, -⟩, hadd, -⟩ := Program.newBalances_eq_ok_iff.1 allowed
  intro n a ha
  rw [Tables.account?_withLegs] at ha
  split at ha
  · cases ha
    exact hP.add (hb _ _ parties.payee_row) hv.amount hadd
  · split at ha
    · cases ha
      exact hP.sub (hb _ _ parties.payer_row) hv.amount hsub
    · exact hb n a ha

theorem Change.balances (hP : Lasting P) {op : Operation} (h : Change limits l l' op)
    (hw : l.tables.WellFormed) (hb : ∀ n a, l.tables.account? n = some a → P a.balance) :
    ∀ n a, l'.tables.account? n = some a → P a.balance := by
  cases h with
  | opens h =>
    obtain ⟨now, -, ht⟩ := h.tables
    rw [ht]
    intro n a ha
    rw [Tables.account?_withAccount] at ha
    split at ha
    · cases ha
      exact h.balance ▸ hP.zero
    · exact hb n a ha
  | relimits h => rw [h.tables]; exact hb
  | proposes h => rw [h.tables]; exact hb
  | completes h =>
    obtain ⟨t, hbooks, ht⟩ := h.tables
    rw [ht]; exact hbooks.balances hP (hw.valid _ _ h.found) hb
  | closes hop h => rw [h.tables]; exact hb
  | transfers h =>
    obtain ⟨t, hbooks, ht⟩ := h.tables
    rw [ht]; exact hbooks.balances hP h.journal_valid hb

/-- Accounts begin with nothing, and valid amounts are all that balances change by. -/
theorem Ledger.Reachable.balances (hP : Lasting P) (h : l.Reachable limits) :
    ∀ n a, l.tables.account? n = some a → P a.balance := by
  refine h.induct (P := fun l => ∀ n a, l.tables.account? n = some a → P a.balance)
    (fun _ _ ha => by cases ha) fun l step hr hb => ?_
  rcases hr.atRest.next_cases limits step with ⟨op, v, -, -, hchange⟩ | ⟨ht, -⟩
  · exact hchange.balances hP hr.atRest.wellFormed hb
  · rw [ht]; exact hb

/-- Sums of whole cents are whole cents, even those that are rounded. -/
theorem lasting_isCents : Lasting IsCents where
  zero := ⟨0, by rw [toRat_zero]; norm_num⟩
  add hb ha hc := (nearest_add? hc).cents (hb.exists_add (isCents_of_checkAmount ha))
  sub hb ha hc := (nearest_sub? hc).cents (hb.exists_sub (isCents_of_checkAmount ha))

theorem Ledger.Reachable.inCents (h : l.Reachable limits) : l.tables.InCents :=
  h.balances lasting_isCents

end

/-! ## Balances that move -/

/-- From `t` to `t'` the balance of an account moves by `amount`: exactly that if the new balance
    is a decimal at all, as it is while it is less than `2 ^ 96` cents, and otherwise not more than
    one half off. -/
def Tables.Shifts (t t' : Tables) (n : AccountNumber) (amount : ℚ) : Prop :=
  ∃ a a', t.account? n = some a ∧ t'.account? n = some a' ∧
    (a'.balance.toRat = a.balance.toRat + amount ↔
      ∃ d : Decimal, d.toRat = a.balance.toRat + amount) ∧
    (|a.balance.toRat + amount| * 100 < 2 ^ 96 →
      a'.balance.toRat = a.balance.toRat + amount) ∧
    |a'.balance.toRat - (a.balance.toRat + amount)| ≤ 1 / 2

/-- A balance that is rounded to the nearest decimal moves in this way. -/
theorem Tables.Shifts.of_nearest {t t' : Tables} {n : AccountNumber} {amount : ℚ} {a a' : Account}
    (ha : t.account? n = some a) (ha' : t'.account? n = some a')
    (h : a'.balance.Nearest (a.balance.toRat + amount))
    (hc : ∃ k : ℤ, a.balance.toRat + amount = k / 100) : t.Shifts t' n amount := by
  refine ⟨a, a', ha, ha', ⟨fun he => ⟨_, he⟩, fun ⟨d, hd⟩ => h.exact d hd⟩, fun hlt => ?_, h.close⟩
  obtain ⟨d, hd⟩ := exists_decimal_of_cents hc hlt
  exact h.exact d hd

/-- Both balances move by the amount of the transfer. -/
theorem Books.shifts {l l' : Ledger} {j : Journal} {t : Tables} (h : Books l l' j t)
    (hv : j.Valid) (hc : l.tables.InCents) :
    l.tables.Shifts t j.sender (-j.amount.toRat) ∧ l.tables.Shifts t j.receiver j.amount.toRat := by
  obtain ⟨parties, allowed, -⟩ := h
  obtain ⟨⟨hsub, -⟩, hadd, -⟩ := Program.newBalances_eq_ok_iff.1 allowed
  constructor
  · refine .of_nearest parties.payer_row
      ((Tables.account?_withLegs ..).trans ((if_neg hv.parties).trans (if_pos rfl))) ?_ ?_
    · rw [← sub_eq_add_neg]
      exact nearest_sub? hsub
    · rw [← sub_eq_add_neg]
      exact (hc _ _ parties.payer_row).exists_sub hv.isCents
  · refine .of_nearest parties.payee_row ((Tables.account?_withLegs ..).trans (if_pos rfl))
      (nearest_add? hadd) ((hc _ _ parties.payee_row).exists_add hv.isCents)

/-- The operations that book a transfer, or may do so. -/
inductive Program.MayBook (limits : DefaultLimits) : Program Journal → Prop
  | accept (x : TransferId) (clock : Clock) : MayBook limits (.accept x clock)
  | transferNow (eligible : AccountNumber → Bool) (request : TransferRequest) (chance : Chance) :
      MayBook limits (.transferNow ⟨limits, eligible⟩ request chance)

namespace Ledger

variable {limits : DefaultLimits} {l : Ledger}

/-- A completed journal that an operation gives back has been booked. -/
theorem AtRest.books_of_completed (h : l.AtRest) {p : Program Journal} (hp : p.MayBook limits)
    {k : Journal} (hk : (l.run p).1 = .ok k) (hc : k.status = .completed) :
    ∃ j t now, Books l (l.run p).2 j t ∧ j.Valid ∧ k = j.completed now ∧
      ∀ n, (l.run p).2.tables.account? n = t.account? n := by
  cases hp with
  | accept x clock =>
    have haccept : (Program.accept x clock).Attempts l _ _ l .empty :=
      Program.accept_attempts h.held (h.wellFormed.journal x)
        fun j hj => (h.wellFormed.valid x j hj).parties
    rcases Program.run_of_attempts haccept with
      ⟨k', l', hrun, j, ⟨rfl, hcompletes⟩ | ⟨side, -, rfl, -⟩⟩ | ⟨e, l', hrun, -⟩
    · rw [hrun] at hk ⊢
      cases hk
      obtain ⟨t, hbooks, ht⟩ := hcompletes.tables
      refine ⟨j, t, _, hbooks, h.wellFormed.valid _ _ hcompletes.found, rfl,
        fun n => ?_⟩
      show l'.tables.account? n = _
      rw [ht]; rfl
    · rw [hrun] at hk
      cases hk
      cases hc
    · rw [hrun] at hk
      cases hk
  | transferNow eligible request chance =>
    rcases Program.run_of_attempts (@Program.transferNow_attempts l ⟨limits, eligible⟩ request
      chance h.held) with ⟨k', l', hrun, j, rfl, htransfers⟩ | ⟨e, l', hrun, -⟩
    · rw [hrun] at hk ⊢
      cases hk
      obtain ⟨t, hbooks, ht⟩ := htransfers.tables
      refine ⟨j, t, _, hbooks, htransfers.journal_valid, rfl, fun n => ?_⟩
      show l'.tables.account? n = _
      rw [ht]; rfl
    · rw [hrun] at hk
      cases hk

/-- Whenever an acceptance or an immediate transfer gives back a completed journal, the balance of
    the sender has gone down and that of the receiver has gone up by its amount.  Each new balance
    is exact if it is a decimal at all, and rounded otherwise. -/
theorem Reachable.completed_shifts (h : l.Reachable limits) {p : Program Journal}
    (hp : p.MayBook limits) {k : Journal} (hk : (l.run p).1 = .ok k) (hc : k.status = .completed) :
    l.tables.Shifts (l.run p).2.tables k.sender (-k.amount.toRat) ∧
      l.tables.Shifts (l.run p).2.tables k.receiver k.amount.toRat := by
  obtain ⟨j, t, now, hbooks, hv, rfl, hrows⟩ := h.atRest.books_of_completed hp hk hc
  obtain ⟨hsender, hreceiver⟩ := hbooks.shifts hv h.inCents
  simp only [Tables.Shifts, hrows]
  exact ⟨hsender, hreceiver⟩

/-- After the short history, the second member's offer to pay 7 back is booked: the second member
    goes from 5 down to -2. -/
theorem Reachable.completed_shifts_short :
    let run := short.run (Program.accept ⟨.ofNat 4⟩ fun _ => .ofMillis 0)
    ∃ k, run.1 = .ok k ∧ k.status = .completed ∧ k.sender = .generate 20 ∧ k.amount = .ofNat 7 ∧
      short.tables.Shifts run.2.tables k.sender (-k.amount.toRat) ∧
      short.tables.Shifts run.2.tables k.receiver k.amount.toRat ∧
      (run.2.tables.account? (.generate 20)).map (fun a => a.balance.signed) = some (-2) := by
  intro run
  have hrun : run.1.toOption.map (fun k => (k.status, k.sender, k.amount)) =
      some (.completed, .generate 20, .ofNat 7) := by decide
  obtain ⟨k, hk, hfields⟩ := exists_ok_of_toOption_map hrun
  rw [Prod.mk.injEq, Prod.mk.injEq] at hfields
  obtain ⟨hc, hs, hamount⟩ := hfields
  obtain ⟨hsender, hreceiver⟩ := completed_shifts
    (⟨shortHistory, rfl⟩ : short.Reachable .standard) (.accept _ _) hk hc
  exact ⟨k, hk, hc, hs, hamount, hsender, hreceiver, by decide⟩

/-- A member owes `10 ^ 28`, which leaves no place for cents. -/
def indebtedHistory : List Step :=
  [.operate (.openAccount ⟨.ofNat 1⟩ (.nth 1)), .operate (.openAccount ⟨.ofNat 2⟩ (.nth 2)),
    .operate (.transferNow (fun _ => true)
      (.send (.generate 10) (.generate 20) (.ofNat (10 ^ 28))) (.nth 3))]

/-- A completed transfer may be rounded away. -/
theorem cent_may_vanish : ¬ ∀ (limits : DefaultLimits) (l : Ledger), l.Reachable limits →
    ∀ p : Program Journal, p.MayBook limits → ∀ k, (l.run p).1 = .ok k → k.status = .completed →
      ∃ a a', l.tables.account? k.sender = some a ∧
        (l.run p).2.tables.account? k.sender = some a' ∧
        a'.balance.toRat = a.balance.toRat - k.amount.toRat := by
  intro h
  let l := empty.after .widest indebtedHistory
  let cent : Decimal := ⟨false, 1, 2, by decide, by decide⟩
  let p := Program.transferNow ⟨.widest, fun _ => true⟩
    (.send (.generate 10) (.generate 20) cent) (.nth 4)
  have hrun : (l.run p).1.toOption.map (fun k => (k.status, k.sender, k.amount)) =
      some (.completed, .generate 10, cent) := by decide
  have hsame : ((l.run p).2.tables.account? (.generate 10)).map Account.balance =
      (l.tables.account? (.generate 10)).map Account.balance := by decide
  obtain ⟨k, hk, hfields⟩ := exists_ok_of_toOption_map hrun
  rw [Prod.mk.injEq, Prod.mk.injEq] at hfields
  obtain ⟨hc, hs, hamount⟩ := hfields
  obtain ⟨a, a', ha, ha', he⟩ := h .widest l ⟨indebtedHistory, rfl⟩ p (.transferNow _ _ _) k hk hc
  rw [hs] at ha ha'
  rw [ha, ha', Option.map_some, Option.map_some, Option.some_inj] at hsame
  have hcent : cent.toRat = 1 / 100 := by norm_num [toRat_eq, cent, signed]
  rw [hsame, hamount, hcent] at he
  linarith

end Ledger
end CreditCircle

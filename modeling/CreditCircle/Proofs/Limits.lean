/-
  Limits.

  * `newBalances_eq_ok_iff`: the new balances of a transfer are sums inside the limits.
  * `Tables.WithinLimits`: every account has limits, and its balance lies inside them.
  * `Ledger.Reachable.withinLimits`: that is so on every ledger that can come about.
-/
import CreditCircle.Ledger.Lookup
import CreditCircle.Proofs.DecimalValue
import CreditCircle.Proofs.History

namespace CreditCircle

/-! ## Checks -/

namespace BalanceLimit

variable {limit : BalanceLimit} {account : Account} {amount balance : Decimal}

theorem not_isExceededBy_iff :
    ¬ limit.IsExceededBy balance ↔
      -|limit.maxNeg.toRat| ≤ balance.toRat ∧ balance.toRat ≤ limit.maxPos.toRat := by
  unfold IsExceededBy floor
  rw [not_or, ← Decimal.toRat_lt_toRat, ← Decimal.toRat_lt_toRat, not_lt, not_lt,
    Decimal.toRat_neg, Decimal.toRat_abs]

/-- Nothing is always allowed. -/
theorem not_isExceededBy_zero (h : ¬ limit.maxPos < 0) : ¬ limit.IsExceededBy 0 := by
  rw [← Decimal.toRat_lt_toRat, not_lt, Decimal.toRat_zero] at h
  refine not_isExceededBy_iff.2 ⟨?_, ?_⟩
  · rw [Decimal.toRat_zero, neg_nonpos]; exact abs_nonneg _
  · rw [Decimal.toRat_zero]; exact h

/-- What both checks do with the new balance: it is given back as it is, or there is a failure. -/
theorem checked_eq_ok_iff {sum : Option Decimal} {overflow : Failure LedgerError}
    {room : Except Decimal.Overflow Decimal} {exceeded : Decimal → Failure LedgerError} :
    (match sum with
      | none => .error overflow
      | some b =>
        if limit.IsExceededBy b then orCrash room >>= fun r => .error (exceeded r) else .ok b) =
      Except.ok balance ↔ sum = some balance ∧ ¬ limit.IsExceededBy balance := by
  cases sum with
  | none => exact ⟨nofun, nofun⟩
  | some b =>
    dsimp only
    split
    · rename_i hx
      refine ⟨fun h => ?_, fun ⟨h, hn⟩ => absurd hx (Option.some.inj h ▸ hn)⟩
      cases room <;> cases h
    · rename_i hx
      refine ⟨fun h => ?_, fun ⟨h, _⟩ => by rw [Option.some.inj h]⟩
      cases h; exact ⟨rfl, hx⟩

theorem checkDebit_eq_ok_iff : limit.checkDebit account amount = .ok balance ↔
    account.balance.sub? amount = some balance ∧ ¬ limit.IsExceededBy balance :=
  checked_eq_ok_iff

theorem checkCredit_eq_ok_iff : limit.checkCredit account amount = .ok balance ↔
    account.balance.add? amount = some balance ∧ ¬ limit.IsExceededBy balance :=
  checked_eq_ok_iff

end BalanceLimit

/-- The new balances are the sums as they were computed, each inside the limits of its account. -/
theorem Program.newBalances_eq_ok_iff {payer payee : Account × BalanceLimit} {amount : Decimal}
    {balances : Decimal × Decimal} : newBalances payer payee amount = .ok balances ↔
      (payer.1.balance.sub? amount = some balances.1 ∧ ¬ payer.2.IsExceededBy balances.1) ∧
        payee.1.balance.add? amount = some balances.2 ∧ ¬ payee.2.IsExceededBy balances.2 := by
  rw [← BalanceLimit.checkDebit_eq_ok_iff, ← BalanceLimit.checkCredit_eq_ok_iff]
  unfold newBalances
  cases payer.2.checkDebit payer.1 amount with
  | error e => exact ⟨nofun, nofun⟩
  | ok debited =>
    cases payee.2.checkCredit payee.1 amount with
    | error e => exact ⟨nofun, nofun⟩
    | ok credited =>
      constructor
      · intro h; cases h; exact ⟨rfl, rfl⟩
      · rintro ⟨h, h'⟩; cases h; cases h'; rfl

/-! ## Balances inside limits -/

/-- Accounts and limits belong together, no bound is negative, and every balance lies inside. -/
structure Tables.WithinLimits (t : Tables) : Prop where
  nonneg : ∀ n limit, t.limit? n = some limit → ¬ limit.maxPos < 0 ∧ ¬ limit.maxNeg < 0
  owned : ∀ n limit, t.limit? n = some limit → ∃ a, t.account? n = some a
  inside : ∀ n a, t.account? n = some a →
    ∃ limit, t.limit? n = some limit ∧ ¬ limit.IsExceededBy a.balance

theorem Tables.WithinLimits.empty : Tables.empty.WithinLimits where
  nonneg _ _ hl := by cases hl
  owned _ _ hl := by cases hl
  inside _ _ ha := by cases ha

namespace Tables.WithinLimits

variable {t : Tables} (h : t.WithinLimits)
include h

theorem row_inside {n : AccountNumber} {a : Account} {limit : BalanceLimit}
    (ha : t.account? n = some a) (hl : t.limit? n = some limit) :
    ¬ limit.IsExceededBy a.balance ∧ ¬ limit.maxPos < 0 ∧ ¬ limit.maxNeg < 0 := by
  obtain ⟨limit', hl', hx⟩ := h.inside n a ha
  rw [hl] at hl'
  cases hl'
  exact ⟨hx, h.nonneg n limit hl⟩

theorem isSome_account (n : AccountNumber) (hl : (t.limit? n).isSome) : (t.account? n).isSome := by
  obtain ⟨limit, hlimit⟩ := Option.isSome_iff_exists.1 hl
  obtain ⟨a, ha⟩ := h.owned n limit hlimit
  rw [ha]; rfl

theorem withAccount {a : Account} {limit : BalanceLimit} (hl : limit.account = a.number)
    (hb : a.balance = 0) (hn : ¬ limit.maxPos < 0 ∧ ¬ limit.maxNeg < 0) :
    (t.withAccount a limit).WithinLimits := by
  refine ⟨?_, ?_, ?_⟩
  · intro n lim hlim
    rw [limit?_withAccount] at hlim
    split at hlim
    · cases hlim; exact hn
    · exact h.nonneg n lim hlim
  · intro n lim hlim
    rw [limit?_withAccount, hl] at hlim
    rw [account?_withAccount]
    split at hlim
    · exact ⟨a, if_pos ‹_›⟩
    · rw [if_neg ‹_›]; exact h.owned n lim hlim
  · intro n b hb'
    rw [account?_withAccount] at hb'
    rw [limit?_withAccount, hl]
    split at hb'
    · cases hb'
      exact ⟨limit, if_pos ‹_›, hb ▸ BalanceLimit.not_isExceededBy_zero hn.1⟩
    · rw [if_neg ‹_›]; exact h.inside n b hb'

/-- Other limits have to include the balance. -/
theorem withLimit {limit : BalanceLimit} (hn : ¬ limit.maxPos < 0 ∧ ¬ limit.maxNeg < 0)
    (hb : ∃ a, t.account? limit.account = some a ∧ ¬ limit.IsExceededBy a.balance) :
    (t.withLimit limit).WithinLimits := by
  obtain ⟨a, ha, hx⟩ := hb
  refine ⟨?_, ?_, ?_⟩
  · intro n lim hlim
    rw [limit?_withLimit] at hlim
    split at hlim
    · cases hlim; exact hn
    · exact h.nonneg n lim hlim
  · intro n lim hlim
    rw [limit?_withLimit] at hlim
    split at hlim
    · rename_i heq
      exact ⟨a, heq ▸ ha⟩
    · exact h.owned n lim hlim
  · intro n b hb
    rw [limit?_withLimit]
    split
    · rename_i heq
      rw [account?_withLimit, heq, ha] at hb
      cases hb; exact ⟨limit, rfl, hx⟩
    · exact h.inside n b hb

theorem withJournal (j : Journal) : (t.withJournal j).WithinLimits :=
  ⟨h.nonneg, h.owned, h.inside⟩

theorem withNewJournal (j : Journal) : (t.withNewJournal j).WithinLimits :=
  ⟨h.nonneg, h.owned, h.inside⟩

end Tables.WithinLimits

/-- Both new balances were checked against the limits that are in force. -/
theorem Books.withinLimits {l l' : Ledger} {j : Journal} {t : Tables} (h : Books l l' j t)
    (hl : l.tables.WithinLimits) : t.WithinLimits := by
  obtain ⟨parties, allowed, -⟩ := h
  obtain ⟨⟨-, hpayer⟩, -, hpayee⟩ := Program.newBalances_eq_ok_iff.1 allowed
  refine ⟨hl.nonneg, ?_, ?_⟩
  · intro n limit hn
    exact Tables.exists_account_withLegs _ _ _ _ _ _ (hl.owned n limit hn)
  · intro n a hn
    rw [Tables.account?_withLegs] at hn
    rw [Tables.limit?_withLegs]
    split at hn
    · rename_i heq
      cases hn; exact ⟨_, heq ▸ parties.payee_limit, hpayee⟩
    · split at hn
      · rename_i heq
        cases hn; exact ⟨_, heq ▸ parties.payer_limit, hpayer⟩
      · exact hl.inside n a hn

theorem Change.withinLimits {limits : DefaultLimits} {l l' : Ledger} {op : Operation}
    (h : Change limits l l' op) (hw : l.tables.WellFormed) (hl : l.tables.WithinLimits) :
    l'.tables.WithinLimits := by
  cases h with
  | opens h =>
    obtain ⟨now, -, ht⟩ := h.tables
    rw [ht]
    exact hl.withAccount rfl h.balance ⟨limits.maxPos_nonneg, limits.maxNeg_nonneg⟩
  | relimits h =>
    obtain ⟨old, hold, rfl⟩ := h.old
    rw [h.tables]
    refine hl.withLimit (not_or.1 h.nonneg) ?_
    rw [show old.account = _ from hw.limit _ _ hold]
    exact h.account
  | proposes h => rw [h.tables]; exact hl.withNewJournal _
  | completes h =>
    obtain ⟨t, hb, ht⟩ := h.tables
    rw [ht]; exact (hb.withinLimits hl).withJournal _
  | closes hop h => rw [h.tables]; exact hl.withJournal _
  | transfers h =>
    obtain ⟨t, hb, ht⟩ := h.tables
    rw [ht]; exact (hb.withinLimits hl).withNewJournal _

namespace Ledger.Reachable

variable {limits : DefaultLimits} {l : Ledger}

theorem withinLimits (h : l.Reachable limits) : l.tables.WithinLimits := by
  refine h.induct (P := fun l => l.tables.WithinLimits) .empty fun l step hr hl => ?_
  rcases hr.atRest.next_cases limits step with ⟨op, v, -, -, hc⟩ | ⟨ht, -⟩
  · exact hc.withinLimits hr.atRest.wellFormed hl
  · rw [ht]; exact hl

/-- Every account has one row of limits, with bounds that are not negative, and its balance lies
    between them; and every row of limits belongs to an account. -/
theorem balance_inside_limits (h : l.Reachable limits) :
    (∀ a ∈ l.tables.accounts.values, ∃ limit,
      l.tables.limits.values.filter (fun limit => limit.account = a.number) = [limit] ∧
        l.limitFor a.number = .ok limit ∧ 0 ≤ limit.maxPos.toRat ∧ 0 ≤ limit.maxNeg.toRat ∧
        -|limit.maxNeg.toRat| ≤ a.balance.toRat ∧ a.balance.toRat ≤ limit.maxPos.toRat) ∧
      ∀ limit ∈ l.tables.limits.values, ∃ a ∈ l.tables.accounts.values,
        a.number = limit.account := by
  have hw := h.atRest.wellFormed
  have hl := h.withinLimits
  constructor
  · intro a ha
    obtain ⟨n, ha⟩ := (Table.mem_values_iff _ _).1 ha
    obtain ⟨limit, hlim, hx⟩ := hl.inside n a ha
    obtain ⟨hp, hn⟩ := hl.nonneg n limit hlim
    rw [← Decimal.toRat_lt_toRat, not_lt, Decimal.toRat_zero] at hp hn
    rw [hw.account n a ha]
    refine ⟨limit, ?_, ?_, hp, hn, BalanceLimit.not_isExceededBy_iff.1 hx⟩
    · rw [Table.filter_values hw.limit, show l.tables.limits.get? n = _ from hlim]; rfl
    · rw [limitFor, hlim]; rfl
  · intro limit hm
    obtain ⟨n, hlim⟩ := (Table.mem_values_iff _ _).1 hm
    obtain ⟨a, ha⟩ := hl.owned n limit hlim
    refine ⟨a, (Table.mem_values_iff _ _).2 ⟨n, ha⟩, ?_⟩
    rw [hw.account n a ha, hw.limit n limit hlim]

/-- After the short history, the first member owes 5 and the second one has 5. -/
theorem balance_inside_limits_short :
    Ledger.short.tables.accounts.values.map (fun a => a.balance.signed) = [-5, 5] ∧
      ∀ a ∈ Ledger.short.tables.accounts.values, ∃ limit,
        Ledger.short.limitFor a.number = .ok limit ∧
          -|limit.maxNeg.toRat| ≤ a.balance.toRat ∧ a.balance.toRat ≤ limit.maxPos.toRat := by
  refine ⟨by decide, fun a ha => ?_⟩
  obtain ⟨limit, -, hlim, -, -, hx⟩ :=
    (balance_inside_limits (⟨shortHistory, rfl⟩ : Ledger.short.Reachable .standard)).1 a ha
  exact ⟨limit, hlim, hx⟩

end Ledger.Reachable
end CreditCircle

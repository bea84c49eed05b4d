/-
  Conservation.

  Sums of decimals may be rounded, so credit could get lost; it does not as long as no limit is
  above `10 ^ 26`.

  * `Step.bounds`, `Ledger.boundsInForce`: the bounds that come into force in a history.
  * `Tables.Exact`: balances are whole cents and the exact sums of what is booked.
  * `sum_balances`: the balances of all accounts add up to zero.
-/
import CreditCircle.Proofs.DoubleEntry
import CreditCircle.Proofs.Exactness

namespace CreditCircle

/-! ## Bounds in force -/

/-- The bounds that a step on `l` brings into force. -/
def Step.bounds (l : Ledger) : Step → List Decimal
  | .operate (.updateLimits number maxPos maxNeg now) =>
    match (l.run (Program.updateLimits number maxPos maxNeg now)).1 with
    | .ok _ => [maxPos, maxNeg]
    | .error _ => []
  | _ => []

/-- The bounds that some steps bring into force. -/
def Ledger.boundsInForce (limits : DefaultLimits) : Ledger → List Step → List Decimal
  | _, [] => []
  | l, step :: steps => step.bounds l ++ boundsInForce limits (l.next limits step) steps

theorem Ledger.boundsInForce_append (limits : DefaultLimits) :
    ∀ (l : Ledger) (steps steps' : List Step), l.boundsInForce limits (steps ++ steps') =
      l.boundsInForce limits steps ++ (l.after limits steps).boundsInForce limits steps'
  | _, [], _ => rfl
  | l, step :: steps, steps' => by
    rw [List.cons_append, boundsInForce, boundsInForce_append limits _ steps steps', boundsInForce,
      List.append_assoc]
    rfl

/-! ## Exact balances -/

/-- No bound is above `10 ^ 26`, and all balances are whole cents and exact sums. -/
structure Tables.Exact (t : Tables) : Prop where
  small : ∀ n limit, t.limit? n = some limit →
    limit.maxPos.toRat ≤ 10 ^ 26 ∧ limit.maxNeg.toRat ≤ 10 ^ 26
  cents : ∀ n a, t.account? n = some a → a.balance.IsCents
  sum : ∀ n a, t.account? n = some a →
    a.balance.toRat = ((t.bookedOn n).map fun p => p.amount.toRat).sum

theorem Tables.Exact.empty : Tables.empty.Exact where
  small _ _ hl := by cases hl
  cents _ _ ha := by cases ha
  sum _ _ ha := by cases ha

/-- A balance inside limits is no larger than they are. -/
theorem BalanceLimit.abs_le_of_not_isExceededBy {limit : BalanceLimit} {balance : Decimal} {b : ℚ}
    (hx : ¬ limit.IsExceededBy balance) (hn : ¬ limit.maxNeg < 0)
    (hs : limit.maxPos.toRat ≤ b ∧ limit.maxNeg.toRat ≤ b) : |balance.toRat| ≤ b := by
  obtain ⟨hlow, hhigh⟩ := not_isExceededBy_iff.1 hx
  rw [← Decimal.toRat_lt_toRat, not_lt, Decimal.toRat_zero] at hn
  rw [abs_of_nonneg hn] at hlow
  refine abs_le.2 ⟨?_, hhigh.trans hs.1⟩
  exact (neg_le_neg hs.2).trans hlow

theorem Journal.Valid.isCents {j : Journal} (h : j.Valid) : j.amount.IsCents :=
  isCents_of_checkAmount h.amount

/-- A sum that the limits allow was not rounded. -/
theorem Books.exact {l l' : Ledger} {j : Journal} {t : Tables} (h : Books l l' j t)
    (hd : l.tables.DoubleEntry l.store.sequences) (hj : l.tables.Awaits l'.store.sequences j)
    (hv : j.Valid) (hl : l.tables.WithinLimits) (he : l.tables.Exact) : t.Exact := by
  have hsmall : ∀ n limit, t.limit? n = some limit →
      limit.maxPos.toRat ≤ 10 ^ 26 ∧ limit.maxNeg.toRat ≤ 10 ^ 26 := by
    obtain ⟨-, -, -⟩ := h
    exact he.small
  have hkey : ∀ n a, t.account? n = some a → a.balance.IsCents ∧
      a.balance.toRat = ((t.bookedOn n).map fun p => p.amount.toRat).sum := by
    intro n a ha
    rcases h.account_cases hd hj hv ha with
      ⟨ha, hb⟩ | ⟨old, limit, p, hold, hlim, hb, hp, hadd, hx⟩
    · rw [hb]; exact ⟨he.cents n a ha, he.sum n a ha⟩
    · have hpc : p.amount.IsCents := by
        rcases hp with hp | hp <;> rw [hp]
        · exact hv.isCents
        · exact hv.isCents.neg
      have hle := BalanceLimit.abs_le_of_not_isExceededBy hx (hl.nonneg n limit hlim).2
        (he.small n limit hlim)
      have hnear := Decimal.nearest_add? hadd
      have hcents := (he.cents n old hold).exists_add hpc
      have hsum := hnear.eq_of_le hcents hle
      refine ⟨hnear.cents hcents, ?_⟩
      rw [hb, hsum, he.sum n old hold, List.map_append, List.sum_append, List.map_singleton,
        List.sum_singleton]
  exact ⟨hsmall, fun n a ha => (hkey n a ha).1, fun n a ha => (hkey n a ha).2⟩

theorem Tables.Exact.withAccount {t : Tables} (h : t.Exact) {a : Account} {limit : BalanceLimit}
    (hb : a.balance = 0) (hn : t.bookedOn a.number = [])
    (hs : limit.maxPos.toRat ≤ 10 ^ 26 ∧ limit.maxNeg.toRat ≤ 10 ^ 26) :
    (t.withAccount a limit).Exact := by
  refine ⟨?_, ?_, ?_⟩
  · intro n lim hlim
    rw [limit?_withAccount] at hlim
    split at hlim
    · cases hlim; exact hs
    · exact h.small n lim hlim
  · intro n b hb'
    rw [account?_withAccount] at hb'
    split at hb'
    · cases hb'; exact ⟨0, by rw [hb, Decimal.toRat_zero]; norm_num⟩
    · exact h.cents n b hb'
  · intro n b hb'
    rw [account?_withAccount] at hb'
    show _ = ((t.bookedOn n).map _).sum
    split at hb'
    · rename_i heq
      cases hb'; rw [heq, hn, hb, Decimal.toRat_zero]; rfl
    · exact h.sum n b hb'

theorem Tables.Exact.withLimit {t : Tables} (h : t.Exact) {limit : BalanceLimit}
    (hs : limit.maxPos.toRat ≤ 10 ^ 26 ∧ limit.maxNeg.toRat ≤ 10 ^ 26) :
    (t.withLimit limit).Exact := by
  refine ⟨fun n lim hlim => ?_, h.cents, h.sum⟩
  rw [limit?_withLimit] at hlim
  split at hlim
  · cases hlim; exact hs
  · exact h.small n lim hlim

theorem Step.bounds_of_ok {l : Ledger} {number : AccountNumber} {maxPos maxNeg : Decimal}
    {now : Timestamp} {limit : BalanceLimit}
    (h : (l.run (Program.updateLimits number maxPos maxNeg now)).1 = .ok limit) :
    bounds l (.operate (.updateLimits number maxPos maxNeg now)) = [maxPos, maxNeg] := by
  simp only [bounds, h]

namespace Ledger

variable {limits : DefaultLimits} {l : Ledger}

/-- A step that brings no larger bound into force keeps balances exact. -/
theorem Reachable.next_exact (h : l.Reachable limits) (he : l.tables.Exact)
    (hlim : limits.maxPos.toRat ≤ 10 ^ 26 ∧ limits.maxNeg.toRat ≤ 10 ^ 26) {step : Step}
    (hb : ∀ b ∈ step.bounds l, b.toRat ≤ 10 ^ 26) : (l.next limits step).tables.Exact := by
  have hw := h.atRest.wellFormed
  have hd := h.doubleEntry
  have hl := h.withinLimits
  rcases h.atRest.next_cases limits step with ⟨op, v, rfl, hok, hc⟩ | ⟨ht, -⟩
  · have hi := hd.toIndexed.mono hc.settled.sequences
    cases hc with
    | opens h =>
      obtain ⟨now, -, ht⟩ := h.tables
      rw [ht]; exact he.withAccount h.balance (hd.bookedOn_eq_nil h.number_new) hlim
    | relimits h =>
      rw [Step.bounds_of_ok hok] at hb
      obtain ⟨old, -, hlimit⟩ := h.old
      rw [h.tables]
      refine he.withLimit ?_
      rw [hlimit]
      exact ⟨hb _ List.mem_cons_self, hb _ (List.mem_cons_of_mem _ List.mem_cons_self)⟩
    | proposes h => rw [h.tables]; exact ⟨he.small, he.cents, he.sum⟩
    | completes h =>
      obtain ⟨t, hbook, ht⟩ := h.tables
      have he' := hbook.exact hd (hi.awaits hw h.found h.pending rfl rfl rfl rfl)
        (hw.valid _ _ h.found) hl he
      rw [ht]; exact ⟨he'.small, he'.cents, he'.sum⟩
    | closes hop h => rw [h.tables]; exact ⟨he.small, he.cents, he.sum⟩
    | transfers h =>
      obtain ⟨t, hbook, ht⟩ := h.tables
      obtain ⟨payer, payee, hp⟩ := hbook.parties
      have he' := hbook.exact hd (h.toGrants.awaits hd.toIndexed hp) h.journal_valid hl he
      rw [ht]; exact ⟨he'.small, he'.cents, he'.sum⟩
  · rw [ht]; exact he

theorem Reachable.after_exact (h : l.Reachable limits) (he : l.tables.Exact)
    (hlim : limits.maxPos.toRat ≤ 10 ^ 26 ∧ limits.maxNeg.toRat ≤ 10 ^ 26) {steps : List Step}
    (hb : ∀ b ∈ l.boundsInForce limits steps, b.toRat ≤ 10 ^ 26) :
    (l.after limits steps).tables.Exact := by
  induction steps generalizing l with
  | nil => exact he
  | cons step steps ih =>
    have hstep := h.next_exact he hlim fun b hm => hb b (List.mem_append_left _ hm)
    exact ih (h.next step) hstep fun b hm => hb b (List.mem_append_right _ hm)

end Ledger

/-! ## The sum of all balances -/

theorem sum_map_flatten {α β : Type} (xs : List α) (f : α → List β) (g : β → ℚ) :
    ((xs.map f).flatten.map g).sum = (xs.map fun a => ((f a).map g).sum).sum := by
  rw [List.map_flatten, List.sum_flatten, List.map_map, List.map_map]
  rfl

/-- The two postings of a transfer add up to zero. -/
theorem Tables.DoubleEntry.sum_postingsOfJournal {t : Tables} {s : Sequences}
    (h : t.DoubleEntry s) {x : TransferId} {j : Journal} (hj : t.journal? x = some j) :
    ((t.postingsOfJournal j.id).map fun p => p.amount.toRat).sum = 0 := by
  by_cases hc : j.status = .completed
  · obtain ⟨p, q, hpq, hl⟩ := h.legs x j hj hc
    rw [postingsOfJournal, hpq, Option.getD_some, List.map_cons, List.map_singleton, List.sum_cons,
      List.sum_singleton, hl.debit_amount, hl.credit_amount, Decimal.toRat_neg, neg_add_cancel]
  · rw [h.postingsOfJournal_eq_nil hj hc]; rfl

/-- What is added up account by account can be added up transfer by transfer. -/
theorem Tables.DoubleEntry.sum_balances {t : Tables} {s : Sequences} (h : t.DoubleEntry s)
    (hw : t.WellFormed) (he : t.Exact) :
    (t.accounts.values.map fun a => a.balance.toRat).sum = 0 := by
  calc (t.accounts.values.map fun a => a.balance.toRat).sum
      = (t.accounts.values.map fun a =>
          ((t.postingsOfAccount a.number).map fun p => p.amount.toRat).sum).sum := by
        refine congrArg _ (List.map_congr_left fun a ha => ?_)
        obtain ⟨n, ha⟩ := (Table.mem_values_iff _ _).1 ha
        rw [h.postingsOfAccount_eq, hw.account n a ha]
        exact he.sum n a ha
    _ = (t.journals.values.map fun j =>
          ((t.postingsOfJournal j.id).map fun p => p.amount.toRat).sum).sum := by
        rw [← sum_map_flatten, ← sum_map_flatten]
        exact ((h.perm_listings hw).map _).sum_eq
    _ = 0 := by
        refine List.sum_eq_zero fun b hb => ?_
        obtain ⟨j, hj, rfl⟩ := List.mem_map.1 hb
        obtain ⟨x, hj⟩ := (Table.mem_values_iff _ _).1 hj
        exact h.sum_postingsOfJournal hj

namespace Ledger

/-- If no bound that comes into force in a history is above `10 ^ 26`, then at every moment of it
    the balances of all accounts add up to exactly zero, and each of them is exactly the sum of
    the postings of its account. -/
theorem balances_conserved (limits : DefaultLimits) (steps : List Step)
    (h : ∀ b ∈ limits.maxPos :: limits.maxNeg :: empty.boundsInForce limits steps,
      b.toRat ≤ 10 ^ 26) {before : List Step} (hp : before <+: steps) :
    ((empty.after limits before).tables.accounts.values.map fun a => a.balance.toRat).sum = 0 ∧
      ∀ a ∈ (empty.after limits before).tables.accounts.values, ∃ ps,
        (empty.after limits before).postingsOfAccount a.number = .ok ps ∧
          a.balance.toRat = (ps.map fun p => p.amount.toRat).sum := by
  obtain ⟨rest, rfl⟩ := hp
  rw [boundsInForce_append, List.forall_mem_cons, List.forall_mem_cons] at h
  obtain ⟨hpos, hneg, hb⟩ := h
  have hr : (empty.after limits before).Reachable limits := ⟨before, rfl⟩
  have he := Reachable.empty.after_exact .empty ⟨hpos, hneg⟩
    fun b hm => hb b (List.mem_append_left _ hm)
  have hd := hr.doubleEntry
  have hw := hr.atRest.wellFormed
  refine ⟨hd.sum_balances hw he, fun a ha => ?_⟩
  obtain ⟨n, ha⟩ := (Table.mem_values_iff _ _).1 ha
  have hn := hw.account n a ha
  refine ⟨_, postingsOfAccount_eq_ok (hn ▸ ha), ?_⟩
  rw [hd.postingsOfAccount_eq, hn]
  exact he.sum n a ha

/-- The limits of the first member are raised to 1000 after the short history. -/
theorem balances_conserved_short :
    let raise := Step.operate
      (.updateLimits (.generate 10) (.ofNat 1000) (.ofNat 1000) (.ofMillis 5000))
    empty.boundsInForce .standard (shortHistory ++ [raise]) = [.ofNat 1000, .ofNat 1000] ∧
      (short.tables.accounts.values.map fun a => a.balance.signed) = [-5, 5] ∧
      (short.tables.accounts.values.map fun a => a.balance.toRat).sum = 0 := by
  intro raise
  have hb : empty.boundsInForce .standard (shortHistory ++ [raise]) =
      [.ofNat 1000, .ofNat 1000] := by decide
  refine ⟨hb, by decide, ?_⟩
  refine (balances_conserved .standard (shortHistory ++ [raise]) ?_ (List.prefix_append _ _)).1
  rw [hb]
  intro b hm
  have hcases : b = .ofNat 500 ∨ b = .ofNat 1000 := by
    simpa [DefaultLimits.standard] using hm
  rcases hcases with rfl | rfl <;> norm_num [Decimal.toRat_eq, Decimal.ofNat, Decimal.signed]

end Ledger
end CreditCircle

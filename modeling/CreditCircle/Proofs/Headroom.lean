/-
  Headroom.

  The room that a refusal names is a sum that stops the program if it overflows.  It does not:
  the balance lies inside its limits, and the amount that did not fit is larger than the room.

  * `positiveHeadroom_eq_ok`, `negativeHeadroom_eq_ok`: room that is not larger than a decimal.
  * `lt_of_add?_exceeds`, `lt_of_sub?_exceeds`: an amount that does not fit is larger than the room.
  * `Checked`, `Judged`: what one limit check comes to, and both checks of a transfer.
-/
import CreditCircle.Proofs.Exactness
import CreditCircle.Proofs.Limits

namespace CreditCircle

open Decimal

namespace BalanceLimit

variable {limit : BalanceLimit} {balance amount sum : Decimal}

/-! ## Headroom that can be computed -/

/-- The room above a balance can be computed if it is not larger than some decimal. -/
theorem positiveHeadroom_eq_ok (hin : ¬ limit.IsExceededBy balance)
    (hroom : balance < 0 → limit.maxPos.toRat - balance.toRat ≤ amount.toRat)
    (hmax : ¬ limit.maxPos < 0) : ∃ room, limit.positiveHeadroom balance = .ok room := by
  obtain ⟨-, hhigh⟩ := not_isExceededBy_iff.1 hin
  rw [← toRat_lt_toRat, not_lt, toRat_zero] at hmax
  unfold positiveHeadroom
  by_cases hb : 0 ≤ balance
  · have hb' := zero_le_iff.1 hb
    obtain ⟨c, hc⟩ := sub?_eq_some_of_le (a := limit.maxPos) (b := balance) (m := limit.maxPos) (by
      rw [abs_of_nonneg (sub_nonneg.2 hhigh), abs_of_nonneg hmax]
      exact sub_le_self _ hb')
    exact ⟨c.max 0, by simp only [if_pos hb, Decimal.sub, hc]; rfl⟩
  · have hb' := not_le.1 (mt zero_le_iff.2 hb)
    have hle := hroom (toRat_lt_toRat.1 (by rwa [toRat_zero]))
    obtain ⟨c, hc, -⟩ := add?_eq_some_of_le (a := balance.abs) (b := limit.maxPos) (m := amount) (by
      rw [toRat_abs, abs_of_neg hb', abs_of_nonneg (by linarith), abs_of_nonneg (by linarith)]
      linarith)
    exact ⟨c.max 0, by simp only [if_neg hb, Decimal.add, hc]; rfl⟩

/-- The room below a balance can be computed if it is not larger than some decimal. -/
theorem negativeHeadroom_eq_ok (hin : ¬ limit.IsExceededBy balance)
    (hroom : 0 ≤ balance → balance.toRat + |limit.maxNeg.toRat| ≤ amount.toRat) :
    ∃ room, limit.negativeHeadroom balance = .ok room := by
  obtain ⟨hlow, -⟩ := not_isExceededBy_iff.1 hin
  have hneg := abs_nonneg limit.maxNeg.toRat
  unfold negativeHeadroom
  by_cases hb : 0 ≤ balance
  · have hb' := zero_le_iff.1 hb
    have hle := hroom hb
    obtain ⟨c, hc, -⟩ := add?_eq_some_of_le (a := balance) (b := limit.maxNeg.abs) (m := amount) (by
      rw [toRat_abs, abs_of_nonneg (add_nonneg hb' hneg)]
      exact hle.trans (le_abs_self _))
    exact ⟨c.max 0, by simp only [if_pos hb, Decimal.add, hc]; rfl⟩
  · have hb' := not_le.1 (mt zero_le_iff.2 hb)
    obtain ⟨c, hc⟩ := sub?_eq_some_of_le (a := limit.maxNeg.abs) (b := balance.abs)
      (m := limit.maxNeg) (by
        rw [toRat_abs, toRat_abs, abs_of_neg hb', sub_neg_eq_add, abs_of_nonneg (by linarith)]
        linarith)
    exact ⟨c.max 0, by simp only [if_neg hb, Decimal.sub, hc]; rfl⟩

/-! ## Sums outside the limits -/

/-- A sum inside the limits is not rounded to something outside them. -/
theorem not_isExceededBy_of_nearest {v : ℚ} (hsum : sum.Nearest v)
    (hlow : -|limit.maxNeg.toRat| ≤ v) (hhigh : v ≤ limit.maxPos.toRat) :
    ¬ limit.IsExceededBy sum := by
  have hfloor : limit.floor.toRat = -|limit.maxNeg.toRat| := by
    rw [floor, toRat_neg, toRat_abs]
  refine not_isExceededBy_iff.2 ⟨?_, hsum.below _ hhigh⟩
  rw [← hfloor] at hlow ⊢
  exact hsum.above _ hlow

/-- If the new balance is too high, so is the sum before it was rounded. -/
theorem lt_of_add?_exceeds (hin : ¬ limit.IsExceededBy balance) (hpos : 0 < amount)
    (hsum : balance.add? amount = some sum) (hx : limit.IsExceededBy sum) :
    limit.maxPos.toRat - balance.toRat < amount.toRat := by
  obtain ⟨hlow, -⟩ := not_isExceededBy_iff.1 hin
  rw [← toRat_lt_toRat, toRat_zero] at hpos
  by_contra hle
  exact not_isExceededBy_of_nearest (nearest_add? hsum) (by linarith) (by linarith) hx

/-- If the new balance is too low, so is the difference before it was rounded. -/
theorem lt_of_sub?_exceeds (hin : ¬ limit.IsExceededBy balance) (hpos : 0 < amount)
    (hsum : balance.sub? amount = some sum) (hx : limit.IsExceededBy sum) :
    balance.toRat + |limit.maxNeg.toRat| < amount.toRat := by
  obtain ⟨-, hhigh⟩ := not_isExceededBy_iff.1 hin
  rw [← toRat_lt_toRat, toRat_zero] at hpos
  by_contra hle
  exact not_isExceededBy_of_nearest (nearest_sub? hsum) (by linarith) (by linarith) hx

/-! ## Checks -/

variable {account : Account}

/-- What a limit check makes of a new balance: it is given back, or it overflows, or it lies
    outside the limits and the room that there was is named. -/
inductive Checked (limit : BalanceLimit) (sum : Option Decimal) (overflow : LedgerError)
    (exceeded : Decimal → LedgerError) (headroom : Except Overflow Decimal) :
    Except (Failure LedgerError) Decimal → Prop
  | allowed {b : Decimal} (h : sum = some b) (hin : ¬ limit.IsExceededBy b) :
      Checked limit sum overflow exceeded headroom (.ok b)
  | overflows (h : sum = none) :
      Checked limit sum overflow exceeded headroom (.error (.refused overflow))
  | exceeds {b room : Decimal} (h : sum = some b) (hx : limit.IsExceededBy b)
      (hroom : headroom = .ok room) :
      Checked limit sum overflow exceeded headroom (.error (.refused (exceeded room)))

theorem checked_checkDebit (hin : ¬ limit.IsExceededBy account.balance) (hpos : 0 < amount) :
    limit.Checked (account.balance.sub? amount) (.arithmeticOverflow .debit account.number)
      (.limitExceeded .sender account.number) (limit.negativeHeadroom account.balance)
      (limit.checkDebit account amount) := by
  unfold checkDebit
  cases hsum : account.balance.sub? amount with
  | none => exact .overflows rfl
  | some b =>
    dsimp only
    split
    · rename_i hx
      obtain ⟨room, hroom⟩ := negativeHeadroom_eq_ok hin
        fun _ => (lt_of_sub?_exceeds hin hpos hsum hx).le
      rw [hroom]
      exact .exceeds rfl hx rfl
    · exact .allowed rfl ‹_›

theorem checked_checkCredit (hin : ¬ limit.IsExceededBy account.balance)
    (hmax : ¬ limit.maxPos < 0) (hpos : 0 < amount) :
    limit.Checked (account.balance.add? amount) (.arithmeticOverflow .credit account.number)
      (.limitExceeded .receiver account.number) (limit.positiveHeadroom account.balance)
      (limit.checkCredit account amount) := by
  unfold checkCredit
  cases hsum : account.balance.add? amount with
  | none => exact .overflows rfl
  | some b =>
    dsimp only
    split
    · rename_i hx
      obtain ⟨room, hroom⟩ := positiveHeadroom_eq_ok hin
        (fun _ => (lt_of_add?_exceeds hin hpos hsum hx).le) hmax
      rw [hroom]
      exact .exceeds rfl hx rfl
    · exact .allowed rfl ‹_›

end BalanceLimit

/-! ## Both checks of a transfer -/

/-- What the two limit checks of a transfer come to: the first leg that fails decides. -/
inductive Judged (payer payee : Account × BalanceLimit) (amount : Decimal) :
    Except (Failure LedgerError) (Decimal × Decimal) → Prop
  | allowed {b c : Decimal} (hb : payer.1.balance.sub? amount = some b)
      (hin : ¬ payer.2.IsExceededBy b) (hc : payee.1.balance.add? amount = some c)
      (hin' : ¬ payee.2.IsExceededBy c) : Judged payer payee amount (.ok (b, c))
  | tooLow {b room : Decimal} (hb : payer.1.balance.sub? amount = some b)
      (hx : payer.2.IsExceededBy b) (hroom : payer.2.negativeHeadroom payer.1.balance = .ok room) :
      Judged payer payee amount
        (.error (.refused (.limitExceeded .sender payer.1.number room)))
  | tooHigh {b c room : Decimal} (hb : payer.1.balance.sub? amount = some b)
      (hin : ¬ payer.2.IsExceededBy b) (hc : payee.1.balance.add? amount = some c)
      (hx : payee.2.IsExceededBy c) (hroom : payee.2.positiveHeadroom payee.1.balance = .ok room) :
      Judged payer payee amount
        (.error (.refused (.limitExceeded .receiver payee.1.number room)))
  | debitOverflows (hb : payer.1.balance.sub? amount = none) : Judged payer payee amount
      (.error (.refused (.arithmeticOverflow .debit payer.1.number)))
  | creditOverflows {b : Decimal} (hb : payer.1.balance.sub? amount = some b)
      (hin : ¬ payer.2.IsExceededBy b) (hc : payee.1.balance.add? amount = none) :
      Judged payer payee amount (.error (.refused (.arithmeticOverflow .credit payee.1.number)))

/-- Within limits, computing new balances never stops the program. -/
theorem Tables.WithinLimits.judged {t : Tables} (hl : t.WithinLimits)
    {sender receiver : AccountNumber} {payer payee : Account × BalanceLimit} {amount : Decimal}
    (hp : Parties t sender receiver payer payee) (ha : checkAmount amount = .ok ()) :
    Judged payer payee amount (Program.newBalances payer payee amount) := by
  have hpos := (checkAmount_eq_ok_iff.1 ha).1
  obtain ⟨hpayer, -⟩ := hl.row_inside hp.payer_row hp.payer_limit
  obtain ⟨hpayee, hmax, -⟩ := hl.row_inside hp.payee_row hp.payee_limit
  have hdebit := BalanceLimit.checked_checkDebit hpayer hpos
  have hcredit := BalanceLimit.checked_checkCredit hpayee hmax hpos
  unfold Program.newBalances
  generalize payer.2.checkDebit payer.1 amount = debit at hdebit
  generalize payee.2.checkCredit payee.1 amount = credit at hcredit
  cases hdebit with
  | allowed hb hin =>
    cases hcredit with
    | allowed hc hin' => exact .allowed hb hin hc hin'
    | overflows hc => exact .creditOverflows hb hin hc
    | exceeds hc hx hroom => exact .tooHigh hb hin hc hx hroom
  | overflows hb => exact .debitOverflows hb
  | exceeds hb hx hroom => exact .tooLow hb hx hroom

end CreditCircle

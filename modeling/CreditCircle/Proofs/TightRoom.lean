/-
  Room that is neither too large nor too small.

  For whole cents up to `10 ^ 26`, a leg of a transfer is allowed if and only if the amount is not
  above the headroom, and a refusal names and shows just that headroom.

  * `IsMoney`: whole cents of such a magnitude.
  * `Leg.Tight`: what a tight leg is; `checks_tight` says that both legs are.
-/
import CreditCircle.Proofs.CentsText
import CreditCircle.Proofs.Transferable

namespace CreditCircle

namespace Decimal

/-- Whole cents of a magnitude of at most `10 ^ 26`, in whatever scale. -/
def IsMoney (d : Decimal) : Prop := d.IsCents ∧ |d.toRat| ≤ 10 ^ 26

end Decimal

open Decimal

/-! ## Legs -/

/-- A leg of a transfer is judged by exactly this room: no smaller amount is refused, no larger one
    is allowed, the new balance is exact, and a refusal says how much room there is. -/
structure Leg.Tight (side : Side) (room amount : Decimal) (after : ℚ)
    (answer : Except (Failure LedgerError) Decimal) : Prop where
  allowed_iff : (∃ balance, answer = .ok balance) ↔ amount ≤ room
  balance_eq : ∀ balance, answer = .ok balance → balance.toRat = after
  refusal : ∀ side' number m, answer = .error (.refused (.limitExceeded side' number m)) →
    side' = side ∧ m = room ∧ ∃ text shown,
      (LedgerError.limitExceeded side' number m).message =
        side.message ++ "; the maximum amount that can be transferred is " ++ text ∧
      ofString? text = some shown ∧ shown.toRat = room.toRat

namespace BalanceLimit

variable {limit : BalanceLimit} {account : Account} {amount : Decimal}

/-- A check is tight if the amount is not above the room just when the sum lies inside the limits,
    and is not rounded then. -/
theorem Checked.tight {sum : Option Decimal} {leg : Leg} {side : Side} {number : AccountNumber}
    {headroom : Except Overflow Decimal} {answer : Except (Failure LedgerError) Decimal}
    {room : Decimal} {after : ℚ}
    (h : limit.Checked sum (.arithmeticOverflow leg number) (.limitExceeded side number) headroom
      answer)
    (hroom : headroom = .ok room) (hcents : room.IsCents)
    (hexact : ∀ b, sum = some b → ¬ limit.IsExceededBy b →
      b.toRat = after ∧ amount.toRat ≤ room.toRat)
    (hinside : amount.toRat ≤ room.toRat → ∃ b, sum = some b ∧ ¬ limit.IsExceededBy b) :
    Leg.Tight side room amount after answer := by
  cases h with
  | allowed hsum hin =>
    obtain ⟨heq, hle⟩ := hexact _ hsum hin
    refine ⟨⟨fun _ => toRat_le_toRat.1 hle, fun _ => ⟨_, rfl⟩⟩, ?_, nofun⟩
    rintro _ ⟨⟩
    exact heq
  | overflows hsum =>
    refine ⟨⟨nofun, fun hle => ?_⟩, nofun, nofun⟩
    obtain ⟨b, hb, -⟩ := hinside (toRat_le_toRat.2 hle)
    cases hsum.symm.trans hb
  | exceeds hsum hx hroom' =>
    cases hroom.symm.trans hroom'
    refine ⟨⟨nofun, fun hle => ?_⟩, nofun, ?_⟩
    · obtain ⟨b, hb, hin⟩ := hinside (toRat_le_toRat.2 hle)
      cases hsum.symm.trans hb
      exact absurd hx hin
    · rintro _ _ _ ⟨⟩
      obtain ⟨shown, hread, hvalue⟩ := exists_ofString?_cents hcents
      exact ⟨rfl, rfl, room.cents, shown, rfl, hread, hvalue⟩

section
variable (hin : ¬ limit.IsExceededBy account.balance) (hb : account.balance.IsMoney)
  (hp : limit.maxPos.IsMoney) (hn : limit.maxNeg.IsMoney) (hn0 : ¬ limit.maxNeg < 0)
  (ha : checkAmount amount = .ok ())
include hin hb hp hn hn0 ha

theorem debit_tight : ∃ room, limit.negativeHeadroom account.balance = .ok room ∧
    Leg.Tight .sender room amount (account.balance.toRat - amount.toRat)
      (limit.checkDebit account amount) := by
  obtain ⟨hpos, hplaces⟩ := checkAmount_eq_ok_iff.1 ha
  have hpos' := toRat_lt_toRat.2 hpos
  obtain ⟨hlow, hhigh⟩ := not_isExceededBy_iff.1 hin
  have habs : |limit.maxNeg.toRat| = limit.maxNeg.toRat :=
    abs_of_nonneg (by rwa [← toRat_lt_toRat, not_lt, toRat_zero] at hn0)
  rw [toRat_zero] at hpos'
  rw [habs] at hlow
  have hsmall : |account.balance.toRat + limit.maxNeg.toRat| * 100 < 2 ^ 96 := by
    have := abs_add_le account.balance.toRat limit.maxNeg.toRat
    linarith [hb.2, hn.2]
  have hcents := hb.1.exists_add hn.1
  obtain ⟨d, hd⟩ := exists_decimal_of_cents hcents hsmall
  obtain ⟨room, hroom⟩ := negativeHeadroom_eq_ok hin
    (show 0 ≤ account.balance → _ ≤ d.toRat from fun _ => by rw [habs, hd])
  have hnear := nearest_negativeHeadroom hin hroom
  rw [habs] at hnear
  have hrat := hnear.exact d hd
  have hmod : limit.Moderate := ⟨(abs_le.1 hp.2).2, (abs_le.1 hn.2).2⟩
  refine ⟨room, hroom, (checked_checkDebit hin hpos).tight hroom (hnear.cents hcents)
    (fun b hsum hinside => ?_) (fun hle => ?_)⟩
  · have heq := hmod.eq_of_nearest hn0 (nearest_sub? hsum)
      (hb.1.exists_sub (isCents_of_neededPlaces hplaces)) hinside
    obtain ⟨hlow', -⟩ := not_isExceededBy_iff.1 hinside
    rw [habs] at hlow'
    exact ⟨heq, by linarith⟩
  · exact limit.sub?_of_inside account.balance amount (by linarith) (by linarith)

theorem credit_tight (hp0 : ¬ limit.maxPos < 0) :
    ∃ room, limit.positiveHeadroom account.balance = .ok room ∧
      Leg.Tight .receiver room amount (account.balance.toRat + amount.toRat)
        (limit.checkCredit account amount) := by
  obtain ⟨hpos, hplaces⟩ := checkAmount_eq_ok_iff.1 ha
  have hpos' := toRat_lt_toRat.2 hpos
  obtain ⟨hlow, hhigh⟩ := not_isExceededBy_iff.1 hin
  rw [toRat_zero] at hpos'
  have hsmall : |limit.maxPos.toRat - account.balance.toRat| * 100 < 2 ^ 96 := by
    have := abs_sub limit.maxPos.toRat account.balance.toRat
    linarith [hb.2, hp.2]
  have hcents := hp.1.exists_sub hb.1
  obtain ⟨d, hd⟩ := exists_decimal_of_cents hcents hsmall
  obtain ⟨room, hroom⟩ := positiveHeadroom_eq_ok hin
    (show account.balance < 0 → _ ≤ d.toRat from fun _ => hd.ge) hp0
  have hnear := nearest_positiveHeadroom hin hroom
  have hrat := hnear.exact d hd
  have hmod : limit.Moderate := ⟨(abs_le.1 hp.2).2, (abs_le.1 hn.2).2⟩
  refine ⟨room, hroom, (checked_checkCredit hin hp0 hpos).tight hroom (hnear.cents hcents)
    (fun b hsum hinside => ?_) (fun hle => ?_)⟩
  · have heq := hmod.eq_of_nearest hn0 (nearest_add? hsum)
      (hb.1.exists_add (isCents_of_neededPlaces hplaces)) hinside
    obtain ⟨-, hhigh'⟩ := not_isExceededBy_iff.1 hinside
    exact ⟨heq, by linarith⟩
  · exact limit.add?_of_inside account.balance amount (by linarith) (by linarith)

/-- Inside its limits, an account whose balance and bounds are whole cents of any sensible size can
    send and receive exactly its headroom. -/
theorem checks_tight (hp0 : ¬ limit.maxPos < 0) :
    ∃ out into, limit.negativeHeadroom account.balance = .ok out ∧
      limit.positiveHeadroom account.balance = .ok into ∧
      Leg.Tight .sender out amount (account.balance.toRat - amount.toRat)
        (limit.checkDebit account amount) ∧
      Leg.Tight .receiver into amount (account.balance.toRat + amount.toRat)
        (limit.checkCredit account amount) := by
  obtain ⟨out, hout, hdebit⟩ := debit_tight hin hb hp hn hn0 ha
  obtain ⟨into, hinto, hcredit⟩ := credit_tight hin hb hp hn hn0 ha hp0
  exact ⟨out, into, hout, hinto, hdebit, hcredit⟩

end

/-- With a debt of 5 and limits of 500 to either side, 495.00 is what can still be sent. -/
theorem checks_tight_indebted :
    let account : Account := ⟨⟨1⟩, .generate 10, ⟨.ofNat 1⟩, ⟨true, 500, 2, by decide, by decide⟩,
      .ofMillis 1000⟩
    let limit : BalanceLimit := ⟨.generate 10, .ofNat 500, .ofNat 500, .ofMillis 1000⟩
    let out : Decimal := ⟨false, 49500, 2, by decide, by decide⟩
    (∃ balance, limit.checkDebit account (.ofNat 495) = .ok balance) ∧
      limit.checkDebit account (.ofNat 496) =
        .error (.refused (.limitExceeded .sender (.generate 10) out)) ∧
      ∃ text shown, (LedgerError.limitExceeded .sender (.generate 10) out).message =
        Side.sender.message ++ "; the maximum amount that can be transferred is " ++ text ∧
        ofString? text = some shown ∧ shown.toRat = 495 := by
  intro account limit out
  have hbounds : limit.maxPos.IsMoney :=
    ⟨isCents_of_neededPlaces (by decide), by norm_num [limit, toRat_eq, Decimal.ofNat, signed]⟩
  have hbalance : account.balance.IsMoney :=
    ⟨isCents_of_neededPlaces (by decide), by norm_num [account, toRat_eq, signed]⟩
  have hout : limit.negativeHeadroom account.balance = .ok out := by decide
  have hrefused : limit.checkDebit account (.ofNat 496) =
    .error (.refused (.limitExceeded .sender (.generate 10) out)) := by decide
  obtain ⟨_, _, hroom, -, hallowed, -⟩ := @checks_tight limit account (.ofNat 495)
    (by decide) hbalance hbounds hbounds (by decide) (by decide) (by decide)
  obtain ⟨_, _, hroom', -, hrefusal, -⟩ := @checks_tight limit account (.ofNat 496)
    (by decide) hbalance hbounds hbounds (by decide) (by decide) (by decide)
  cases hout.symm.trans hroom
  cases hout.symm.trans hroom'
  obtain ⟨-, -, text, shown, hmessage, hread, hvalue⟩ := hrefusal.refusal _ _ _ hrefused
  refine ⟨hallowed.allowed_iff.2 (by decide), hrefused, text, shown, hmessage, hread, ?_⟩
  rw [hvalue]
  norm_num [out, toRat_eq, signed]

end BalanceLimit
end CreditCircle

/-
  Reading back money.

  Two places are shown of a decimal, whatever its scale is.  Zeros may be put behind its places,
  more of them than there is room for, and places may be cut off.

  * `exists_scan_zeros`: zeros behind the places of a number are read or dropped, and do not change
    it.
  * `exists_ofString?_cents`: whole cents are read back from the two places in which they are shown.
  * `cents_ne`: they are not shown as a zero with a sign unless they are one.
  * `not_isNegativeZero_of_add?`, `not_isNegativeZero_of_sub?`: no sum with an amount is one.
-/
import CreditCircle.Proofs.DecimalText
import CreditCircle.Proofs.Exactness

namespace CreditCircle.Decimal

open Text

/-! ## Zeros behind a number -/

/-- More places of the same number. -/
theorem toRat_eq_of_zeros {a b : Decimal} (zeros : ℕ) (hn : b.negative = a.negative)
    (hc : b.coeff = a.coeff * 10 ^ zeros) (hs : b.scale = a.scale + zeros) :
    b.toRat = a.toRat := by
  rw [toRat_eq, toRat_eq, signed, signed, hn, hc, hs, pow_add]
  split <;> push_cast <;> field_simp

theorem toRat_unsignZero (d : Decimal) : d.unsignZero.toRat = d.toRat := by
  rw [toRat_eq, toRat_eq, signed_unsignZero]
  rfl

theorem toRat_toDecimal {p : Prefix} {d : Decimal} (hc : p.coeff = d.coeff)
    (hs : p.scale = d.scale) : (p.toDecimal d.negative).toRat = d.toRat := by
  obtain ⟨negative, coeff, scale, _, _⟩ := d
  obtain ⟨coeff', scale', _, _, _, _⟩ := p
  cases hc
  cases hs
  exact toRat_unsignZero _

/-- One more zero behind the point. -/
theorem toRat_push_zero {p : Prefix} (hp : p.point) (negative : Bool) (hlt hscale) :
    ((p.push 0 hlt hscale).toDecimal negative).toRat = (p.toDecimal negative).toRat := by
  rw [Prefix.toDecimal, Prefix.toDecimal, toRat_unsignZero, toRat_unsignZero]
  refine toRat_eq_of_zeros 1 rfl ?_ (if_pos hp)
  rw [pow_one]
  exact Nat.mul_comm _ _

/-- Zeros behind the places of a number do not change it.  Those that have no room are dropped. -/
theorem exists_scan_zeros (negative : Bool) (zeros : ℕ) :
    ∀ {p : Prefix}, p.digit → (zeros ≠ 0 → p.point) →
      ∃ d, scan negative p (List.replicate zeros '0') = some d ∧
        d.toRat = (p.toDecimal negative).toRat := by
  induction zeros with
  | zero => exact fun hd _ => ⟨_, scan_nil negative hd, rfl⟩
  | succ zeros ih =>
    intro p hd hp
    have hp := hp zeros.succ_ne_zero
    have hzero : Digit.toChar 0 = '0' := rfl
    by_cases hroom : 10 * p.coeff + (0 : Digit).val < 2 ^ 96 ∧ p.scale + 1 ≤ 28
    · obtain ⟨d, hscan, hvalue⟩ := ih (p := p.push 0 hroom.1 fun _ => hroom.2) rfl fun _ => hp
      refine ⟨d, ?_, hvalue.trans (toRat_push_zero hp negative _ _)⟩
      rw [List.replicate_succ, ← hzero, scan_toChar negative hroom.1 fun _ => hroom.2, hzero]
      exact hscan
    · have hrest : (List.replicate zeros '0').all isDropped = true := by
        rw [List.all_replicate]
        simp [isDropped, show Digit.ofChar? '0' = some 0 by decide]
      refine ⟨_, ?_, rfl⟩
      rw [List.replicate_succ]
      unfold scan
      rw [show Digit.ofChar? '0' = some 0 by decide]
      dsimp only
      rw [if_pos hp, dif_neg hroom, if_pos hrest]
      rfl

/-- A number is read back from its text with zeros put behind it. -/
theorem exists_parse_showScaled (d : Decimal) (zeros : ℕ) :
    ∃ shown, parse (showScaled d.negative (d.coeff * 10 ^ zeros) (d.scale + zeros)) = some shown ∧
      shown.toRat = d.toRat := by
  obtain ⟨p, hc, hs, hd, hp, hscan⟩ := exists_scan_showScaled d.negative d zeros
  obtain ⟨shown, hzeros, hvalue⟩ := exists_scan_zeros d.negative zeros hd hp
  exact ⟨shown, parse_of_plain ((parsePlain_showScaled _ _ _).trans (hscan.trans hzeros)),
    hvalue.trans (toRat_toDecimal hc hs)⟩

/-! ## Two places -/

/-- Whole cents with two places. -/
theorem IsCents.exists_cut {d : Decimal} (h : d.IsCents) (hs : 2 ≤ d.scale) :
    ∃ cut : Decimal, cut.negative = d.negative ∧ cut.coeff = d.coeff / 10 ^ (d.scale - 2) ∧
      cut.scale = 2 ∧ cut.toRat = d.toRat := by
  have hlt : d.coeff / 10 ^ (d.scale - 2) < 2 ^ 96 := (Nat.div_le_self _ _).trans_lt d.coeff_lt
  let cut : Decimal := ⟨d.negative, d.coeff / 10 ^ (d.scale - 2), 2, hlt, by decide⟩
  have hvalue : d.toRat = cut.toRat := toRat_eq_of_zeros (d.scale - 2) rfl
    (Nat.div_mul_cancel h.pow_dvd).symm (Nat.add_sub_cancel' hs).symm
  exact ⟨cut, rfl, rfl, rfl, hvalue.symm⟩

/-- Whole cents are shown as they are. -/
theorem exists_ofString?_cents {d : Decimal} (h : d.IsCents) :
    ∃ shown, ofString? d.cents = some shown ∧ shown.toRat = d.toRat := by
  rw [ofString?, cents, String.toList_ofList, toFixed, cutCoeff]
  split
  · rename_i hs
    have hread := d.exists_parse_showScaled (2 - d.scale)
    rwa [Nat.add_sub_cancel' hs] at hread
  · rename_i hs
    obtain ⟨cut, hn, hc, hscale, hvalue⟩ := h.exists_cut (by omega)
    have hread := cut.exists_parse_showScaled 0
    rwa [pow_zero, Nat.mul_one, Nat.add_zero, hn, hc, hscale, hvalue] at hread

/-- For the places of the largest decimal there is no room. -/
example :
    let d : Decimal := .ofNat (2 ^ 96 - 1)
    d.cents = "79228162514264337593543950335.00" ∧ ofString? d.cents = some d := by
  decide

/-- Only a negative number has a sign. -/
theorem head?_showScaled {negative : Bool} {coeff scale : ℕ}
    (h : (showScaled negative coeff scale).head? = some '-') : negative = true := by
  cases negative with
  | true => rfl
  | false =>
    obtain ⟨first, ds, hds⟩ := List.exists_cons_of_ne_nil (digits_ne_nil (coeff / 10 ^ scale))
    simp only [showScaled, showNat, hds, Bool.false_eq_true, if_false, List.nil_append,
      List.map_cons, List.cons_append, List.head?_cons, Option.some.injEq] at h
    exact absurd h first.toChar_ne.1

/-- Whole cents are shown as a zero with a sign only if they are that. -/
theorem cents_ne {d : Decimal} (h : d.IsCents) (hz : ¬ d.IsNegativeZero) : d.cents ≠ "-0.00" := by
  intro htext
  obtain ⟨shown, hread, hvalue⟩ := exists_ofString?_cents h
  have hzero : ofString? "-0.00" = some ⟨false, 0, 2, by decide, by decide⟩ := by decide
  rw [htext, hzero, Option.some.injEq] at hread
  have hsign : d.negative = true := by
    have hlist : d.toFixed 2 = "-0.00".toList := by
      rw [← htext, cents, String.toList_ofList]
    exact head?_showScaled (congrArg List.head? hlist)
  refine hz ⟨hsign, ?_⟩
  rw [← hread, toRat_of_coeff_eq_zero rfl] at hvalue
  have habs := abs_toRat d
  rw [← hvalue, abs_zero, eq_comm, div_eq_zero_iff] at habs
  exact_mod_cast habs.resolve_right (by positivity)

/-! ## Zeros with a sign -/

/-- A sum that is not zero is not rounded to zero, and zero gets no sign. -/
theorem not_isNegativeZero_of_ofScaled? {n : ℤ} {scale : ℕ} {h : scale ≤ 28} {c : Decimal}
    (hc : ofScaled? n scale h = some c) : ¬ c.IsNegativeZero := by
  rintro ⟨hneg, hzero⟩
  obtain ⟨k, -, hsign, -, hcoeff, hbig⟩ := fit_eq_some hc
  rw [Nat.zero_add] at hcoeff hbig
  have hn : n < 0 := of_decide_eq_true (hsign.symm.trans hneg)
  rcases Nat.eq_zero_or_pos k with rfl | hk
  · rw [pow_zero, roundHalfEven_one] at hcoeff
    omega
  · -- A place is only given up by a number that is large.
    have hlarge := div_ten_lt_roundHalfEven (hbig hk)
    rw [show k - 1 + 1 = k by omega, ← hcoeff] at hlarge
    omega

variable {a b c : Decimal}

theorem not_isNegativeZero_of_add? (hb : b.coeff ≠ 0) (h : a.add? b = some c) :
    ¬ c.IsNegativeZero := by
  unfold add? at h
  split_ifs at h
  · cases h
    exact fun hz => hb hz.2
  · exact not_isNegativeZero_of_ofScaled? h

theorem not_isNegativeZero_of_sub? (hb : b.coeff ≠ 0) (h : a.sub? b = some c) :
    ¬ c.IsNegativeZero := by
  have hb' : (-b).coeff ≠ 0 := hb
  rw [sub?_eq_add?_neg hb] at h
  exact not_isNegativeZero_of_add? hb' h

end CreditCircle.Decimal

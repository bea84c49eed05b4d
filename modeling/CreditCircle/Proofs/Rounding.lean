/-
  Bounds of rounded sums.

  A sum that is too long for 96 bits is rounded.  A sum whose magnitude is at most that of some
  decimal is rounded to something of which that is true as well, and does not overflow.

  * `fit_le`: rounding the coefficient of a sum.
  * `add?_eq_some_of_le`, `sub?_eq_some_of_le`: sums and differences that do not overflow.
-/
import CreditCircle.Proofs.DecimalValue

namespace CreditCircle.Decimal

/-! ## Coefficients -/

theorem roundHalfEven_le {n d m : ℕ} (hd : 0 < d) (h : n ≤ m * d) : roundHalfEven n d ≤ m := by
  have hq : n / d ≤ m := Nat.div_le_of_le_mul (by rwa [Nat.mul_comm] at h)
  rcases Nat.lt_or_eq_of_le hq with hlt | heq
  · exact (roundHalfEven_bounds n d).2.trans hlt
  · -- Then nothing is dropped.
    have hm : d * m + n % d = n := heq ▸ Nat.div_add_mod n d
    have hd' : d ∣ n := by
      refine Nat.dvd_of_mod_eq_zero ?_
      rw [Nat.mul_comm] at h
      omega
    rw [roundHalfEven_of_dvd hd hd', heq]

/-- Rounding stops at the places of `b` at the latest, if the sum is not above `b`. -/
theorem fit_le {negative : Bool} {n : ℕ} {b : Decimal} :
    ∀ {places dropped : ℕ} {h : places ≤ 28},
      n * 10 ^ b.scale ≤ b.coeff * 10 ^ (dropped + places) → dropped = 0 ∨ b.scale ≤ places →
      ∃ c, fit negative n dropped places h = some c ∧
        c.coeff * 10 ^ b.scale ≤ b.coeff * 10 ^ c.scale
  | places, dropped, h, hb, hp => by
    -- What is kept at this scale is not above `b`.
    have hle : roundHalfEven n (10 ^ dropped) * 10 ^ b.scale ≤ b.coeff * 10 ^ places := by
      rcases hp with rfl | hp
      · rw [pow_zero, roundHalfEven_one]
        rwa [Nat.zero_add] at hb
      · have hs : 10 ^ places = 10 ^ (places - b.scale) * 10 ^ b.scale := by
          rw [← pow_add, Nat.sub_add_cancel hp]
        have hn : n ≤ b.coeff * 10 ^ (places - b.scale) * 10 ^ dropped := by
          refine Nat.le_of_mul_le_mul_right (c := 10 ^ b.scale) ?_ (by positivity)
          calc n * 10 ^ b.scale ≤ b.coeff * 10 ^ (dropped + places) := hb
            _ = b.coeff * 10 ^ (places - b.scale) * 10 ^ dropped * 10 ^ b.scale := by
              rw [pow_add, hs]; ring
        calc roundHalfEven n (10 ^ dropped) * 10 ^ b.scale
            ≤ b.coeff * 10 ^ (places - b.scale) * 10 ^ b.scale :=
              Nat.mul_le_mul_right _ (roundHalfEven_le (by positivity) hn)
          _ = b.coeff * 10 ^ places := by rw [hs]; ring
    -- With no more places than `b` it fits.
    have hfit : places ≤ b.scale → roundHalfEven n (10 ^ dropped) < 2 ^ 96 := by
      intro hps
      refine lt_of_le_of_lt (Nat.le_of_mul_le_mul_right (c := 10 ^ b.scale) ?_ (by positivity))
        b.coeff_lt
      exact hle.trans (Nat.mul_le_mul_left _ (Nat.pow_le_pow_right (by norm_num) hps))
    cases places with
    | zero =>
      unfold fit
      rw [dif_pos (hfit (Nat.zero_le _))]
      exact ⟨_, rfl, hle⟩
    | succ places =>
      unfold fit
      by_cases hq : roundHalfEven n (10 ^ dropped) < 2 ^ 96
      · rw [dif_pos hq]
        exact ⟨_, rfl, hle⟩
      · rw [dif_neg hq]
        refine fit_le ?_ (Or.inr ?_)
        · rwa [show dropped + 1 + places = dropped + (places + 1) by omega]
        · exact Nat.le_of_lt_succ (lt_of_not_ge fun hps => hq (hfit hps))

/-! ## Values -/

theorem abs_toRat (d : Decimal) : |d.toRat| = (d.coeff : ℚ) / 10 ^ d.scale := by
  rw [toRat_eq, abs_div, abs_of_pos (a := (10 : ℚ) ^ d.scale) (by positivity), ← Int.cast_abs,
    abs_signed, Int.cast_natCast]

theorem toRat_nonneg {d : Decimal} (h : d.negative = false) : 0 ≤ d.toRat := by
  rw [toRat_eq, signed, h]
  simp only [Bool.false_eq_true, ↓reduceIte]
  positivity

theorem toRat_nonpos {d : Decimal} (h : d.negative = true) : d.toRat ≤ 0 := by
  have := toRat_nonneg (d := -d) (by show (!d.negative) = false; rw [h]; rfl)
  rwa [toRat_neg, neg_nonneg] at this

/-- A number whose magnitude is at most that of `b` is rounded to one with the same property, and
    on the same side of zero. -/
theorem ofScaled?_le {n : ℤ} {scale : ℕ} {h : scale ≤ 28} {b : Decimal}
    (hb : |(n : ℚ) / 10 ^ scale| ≤ |b.toRat|) :
    ∃ c, ofScaled? n scale h = some c ∧ |c.toRat| ≤ |b.toRat| ∧ c.negative = decide (n < 0) := by
  have hnat : n.natAbs * 10 ^ b.scale ≤ b.coeff * 10 ^ scale := by
    rw [abs_toRat, abs_div, abs_of_pos (a := (10 : ℚ) ^ scale) (by positivity), ← Int.cast_abs,
      Int.abs_eq_natAbs, div_le_div_iff₀ (by positivity) (by positivity)] at hb
    exact_mod_cast hb
  obtain ⟨c, hc, hle⟩ := @fit_le (decide (n < 0)) n.natAbs b scale 0 h
    (by rwa [Nat.zero_add]) (Or.inl rfl)
  obtain ⟨-, -, hneg, -, -, -⟩ := fit_eq_some hc
  refine ⟨c, hc, ?_, hneg⟩
  rw [abs_toRat, abs_toRat, div_le_div_iff₀ (by positivity) (by positivity)]
  exact_mod_cast hle

theorem toRat_aligned (a b : Decimal) :
    ((a.signedAt (commonScale a b) + b.signedAt (commonScale a b) : ℤ) : ℚ) /
      10 ^ commonScale a b = a.toRat + b.toRat := by
  have hsa : a.scale ≤ commonScale a b := Nat.le_max_left _ _
  have hsb : b.scale ≤ commonScale a b := Nat.le_max_right _ _
  rw [Int.cast_add, add_div, toRat_signedAt hsa, toRat_signedAt hsb]

/-! ## Sums and differences -/

/-- A sum whose magnitude is at most that of `m` does not overflow, and is not rounded to
    something larger. -/
theorem add?_eq_some_of_le {a b m : Decimal} (h : |a.toRat + b.toRat| ≤ |m.toRat|) :
    ∃ c, a.add? b = some c ∧ |c.toRat| ≤ |m.toRat| := by
  unfold add?
  split_ifs with h1 h2
  · rw [toRat_of_coeff_eq_zero h1, zero_add] at h; exact ⟨b, rfl, h⟩
  · rw [toRat_of_coeff_eq_zero h2, add_zero] at h; exact ⟨a, rfl, h⟩
  · rw [← toRat_aligned] at h
    obtain ⟨c, hc, hle, -⟩ := ofScaled?_le h
    exact ⟨c, hc, hle⟩

/-- A difference whose magnitude is at most that of `m` does not overflow. -/
theorem sub?_eq_some_of_le {a b m : Decimal} (h : |a.toRat - b.toRat| ≤ |m.toRat|) :
    ∃ c, a.sub? b = some c := by
  by_cases hb : b.coeff = 0
  · unfold sub?
    split_ifs
    · exact ⟨_, rfl⟩
    · exact ⟨_, rfl⟩
  · rw [sub?_eq_add?_neg hb]
    obtain ⟨c, hc, -⟩ := add?_eq_some_of_le (a := a) (b := -b) (m := m)
      (by rwa [toRat_neg, ← sub_eq_add_neg])
    exact ⟨c, hc⟩

end CreditCircle.Decimal

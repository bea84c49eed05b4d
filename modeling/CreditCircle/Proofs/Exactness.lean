/-
  What rounding does to a sum.

  A sum that some decimal stands for is not rounded.  Any other sum is moved by at most one half,
  and never past a decimal.

  * `Nearest`: what is known of a decimal that is the rounded form of an exact value.
  * `nearest_ofScaled?`, `nearest_add?`, `nearest_sub?`: rounded sums and differences.
  * `exists_decimal_of_cents`, `Nearest.eq_of_le`: sums of whole cents are exact, unless they have
    more than 26 digits before the point.
-/
import CreditCircle.Proofs.Rounding

namespace CreditCircle.Decimal

/-! ## Coefficients -/

/-- Rounding moves a quotient by at most one half. -/
theorem two_mul_roundHalfEven {n d : ℕ} (hd : 0 < d) :
    2 * n ≤ 2 * (roundHalfEven n d * d) + d ∧ 2 * (roundHalfEven n d * d) ≤ 2 * n + d := by
  have hn : d * (n / d) + n % d = n := Nat.div_add_mod n d
  have hq : (n / d + 1) * d = d * (n / d) + d := by ring
  have hq' : n / d * d = d * (n / d) := Nat.mul_comm _ _
  have hr : n % d < d := Nat.mod_lt n hd
  unfold roundHalfEven
  dsimp only
  split_ifs <;> (first | rw [hq] | rw [hq']) <;> constructor <;> omega

theorem le_roundHalfEven {n d m : ℕ} (hd : 0 < d) (h : m * d ≤ n) : m ≤ roundHalfEven n d :=
  ((Nat.le_div_iff_mul_le hd).2 h).trans (roundHalfEven_bounds n d).1

/-- When the last place but `k` had no room, what is left after one more place is large. -/
theorem div_ten_lt_roundHalfEven {n k : ℕ} (h : 2 ^ 96 ≤ roundHalfEven n (10 ^ k)) :
    2 ^ 96 / 10 + 1 ≤ roundHalfEven n (10 ^ (k + 1)) := by
  have hlow := (two_mul_roundHalfEven (n := n) (d := 10 ^ k) (by positivity)).2
  have hhigh := (two_mul_roundHalfEven (n := n) (d := 10 ^ (k + 1)) (by positivity)).1
  have hbig : 2 ^ 96 * 10 ^ k ≤ roundHalfEven n (10 ^ k) * 10 ^ k := Nat.mul_le_mul_right _ h
  by_contra hlt
  have hsmall : roundHalfEven n (10 ^ (k + 1)) * 10 ^ (k + 1) ≤ 2 ^ 96 / 10 * 10 ^ (k + 1) :=
    Nat.mul_le_mul_right _ (by omega)
  have hpos : 0 < 10 ^ k := by positivity
  rw [pow_succ] at hhigh hsmall
  generalize 10 ^ k = d at *
  -- `2 ^ 96` ends in 6, so a tenth of it is rounded up.
  omega

/-! ## Values -/

/-- A rounded sum differs from the sum in its magnitude only. -/
theorem toRat_sub_eq {n : ℤ} {scale : ℕ} {c : Decimal} (hneg : c.negative = decide (n < 0)) :
    |c.toRat - (n : ℚ) / 10 ^ scale| =
      |(c.coeff : ℚ) / 10 ^ c.scale - (n.natAbs : ℚ) / 10 ^ scale| := by
  rcases lt_or_ge n 0 with hn | hn
  · have hs : c.signed = -(c.coeff : ℤ) := by rw [signed, hneg, decide_eq_true hn, if_pos rfl]
    have hn' : (n.natAbs : ℚ) = -(n : ℚ) := by
      rw [← Int.cast_natCast, Int.ofNat_natAbs_of_nonpos hn.le]; push_cast; rfl
    rw [toRat_eq, hs, hn', ← abs_neg]
    congr 1
    push_cast
    ring
  · have hs : c.signed = (c.coeff : ℤ) := by
      rw [signed, hneg, decide_eq_false (not_lt.2 hn), if_neg Bool.false_ne_true]
    have hn' : (n.natAbs : ℚ) = (n : ℚ) := by
      rw [← Int.cast_natCast, Int.natAbs_of_nonneg hn]
    rw [toRat_eq, hs, hn', Int.cast_natCast]

section
variable {n : ℤ} {scale : ℕ} {h : scale ≤ 28} {c d : Decimal}

theorem abs_ofScaled?_sub_le (hc : ofScaled? n scale h = some c) :
    |c.toRat - (n : ℚ) / 10 ^ scale| ≤ 1 / 2 := by
  obtain ⟨k, hk, hneg, hscale, hcoeff, -⟩ := fit_eq_some hc
  rw [Nat.zero_add] at hcoeff
  obtain ⟨hlow, hhigh⟩ := two_mul_roundHalfEven (n := n.natAbs) (d := 10 ^ k) (by positivity)
  rw [← hcoeff] at hlow hhigh
  have hlow' : 2 * (n.natAbs : ℚ) ≤ 2 * (c.coeff * 10 ^ k) + 10 ^ k := by exact_mod_cast hlow
  have hhigh' : 2 * ((c.coeff : ℚ) * 10 ^ k) ≤ 2 * n.natAbs + 10 ^ k := by exact_mod_cast hhigh
  have hpow : (10 : ℚ) ^ k ≤ 10 ^ scale := pow_le_pow_right₀ (by norm_num) hk
  have hpos : (0 : ℚ) < 10 ^ scale := by positivity
  have hc' : (c.coeff : ℚ) / 10 ^ c.scale = c.coeff * 10 ^ k / 10 ^ scale := by
    rw [hscale, ← pow_sub_mul_pow (10 : ℚ) hk]
    field_simp
  rw [toRat_sub_eq hneg, hc', ← sub_div, abs_div, abs_of_pos hpos, div_le_iff₀ hpos, abs_le]
  constructor <;> linarith

/-- A sum that some decimal stands for is not rounded. -/
theorem toRat_ofScaled?_of_decimal (hc : ofScaled? n scale h = some c)
    (hd : d.toRat = (n : ℚ) / 10 ^ scale) : c.toRat = (n : ℚ) / 10 ^ scale := by
  obtain ⟨k, hk, hneg, hscale, hcoeff, hbig⟩ := fit_eq_some hc
  rw [Nat.zero_add] at hcoeff hbig
  have hn : d.coeff * 10 ^ scale = n.natAbs * 10 ^ d.scale := by
    have habs : |d.toRat| = |(n : ℚ) / 10 ^ scale| := congrArg (fun q : ℚ => |q|) hd
    rw [abs_toRat, abs_div, abs_of_pos (a := (10 : ℚ) ^ scale) (by positivity), ← Int.cast_abs,
      Int.abs_eq_natAbs, div_eq_div_iff (by positivity) (by positivity)] at habs
    exact_mod_cast habs
  -- With more places than are kept, `d` would not have fitted either.
  have hdk : k = 0 ∨ d.scale ≤ scale - k := by
    by_contra hlt
    obtain ⟨hk0, hlt⟩ := not_or.1 hlt
    have hle : n.natAbs ≤ d.coeff * 10 ^ (k - 1) := by
      refine Nat.le_of_mul_le_mul_right (c := 10 ^ d.scale) ?_ (by positivity)
      rw [← hn, Nat.mul_assoc, ← pow_add]
      exact Nat.mul_le_mul_left _ (Nat.pow_le_pow_right (by norm_num) (by omega))
    have := hbig (by omega)
    exact absurd (roundHalfEven_le (by positivity) hle) (by have := d.coeff_lt; omega)
  refine toRat_of_dvd hk hneg hscale hcoeff ?_
  rcases hdk with rfl | hdk
  · exact one_dvd _
  · refine ⟨d.coeff * 10 ^ (scale - k - d.scale), ?_⟩
    refine Nat.eq_of_mul_eq_mul_right (show 0 < 10 ^ d.scale by positivity) ?_
    rw [← hn, show scale = k + (scale - k - d.scale) + d.scale by omega, pow_add, pow_add,
      show k + (scale - k - d.scale) + d.scale - k - d.scale = scale - k - d.scale by omega]
    ring

/-- A sum that is at least `d` in magnitude is rounded to something that is as well. -/
theorem le_abs_ofScaled? (hc : ofScaled? n scale h = some c)
    (hd : |d.toRat| ≤ |(n : ℚ) / 10 ^ scale|) : |d.toRat| ≤ |c.toRat| := by
  obtain ⟨k, hk, -, hscale, hcoeff, hbig⟩ := fit_eq_some hc
  rw [Nat.zero_add] at hcoeff hbig
  have hn : d.coeff * 10 ^ scale ≤ n.natAbs * 10 ^ d.scale := by
    rw [abs_toRat, abs_div, abs_of_pos (a := (10 : ℚ) ^ scale) (by positivity), ← Int.cast_abs,
      Int.abs_eq_natAbs, div_le_div_iff₀ (by positivity) (by positivity)] at hd
    exact_mod_cast hd
  suffices d.coeff * 10 ^ c.scale ≤ c.coeff * 10 ^ d.scale by
    rw [abs_toRat, abs_toRat, div_le_div_iff₀ (by positivity) (by positivity)]
    exact_mod_cast this
  rcases Nat.lt_or_ge c.scale d.scale with hlt | hge
  · -- Then a place has been given up because `c` is too large for it, and `d` is not.
    rcases Nat.eq_zero_or_pos k with rfl | hk0
    · rw [hcoeff, pow_zero, roundHalfEven_one, hscale]
      exact hn
    have hlarge := div_ten_lt_roundHalfEven (hbig hk0)
    rw [show k - 1 + 1 = k by omega, ← hcoeff] at hlarge
    have hd' := d.coeff_lt
    calc d.coeff * 10 ^ c.scale ≤ c.coeff * 10 * 10 ^ c.scale :=
          Nat.mul_le_mul_right _ (by omega)
      _ = c.coeff * 10 ^ (c.scale + 1) := by rw [pow_succ]; ring
      _ ≤ c.coeff * 10 ^ d.scale :=
          Nat.mul_le_mul_left _ (Nat.pow_le_pow_right (by norm_num) hlt)
  · -- Otherwise `d` has no place that is given up.
    have hs : 10 ^ c.scale = 10 ^ (c.scale - d.scale) * 10 ^ d.scale := by
      rw [← pow_add, Nat.sub_add_cancel hge]
    rw [hs, ← Nat.mul_assoc]
    refine Nat.mul_le_mul_right _ ?_
    rw [hcoeff]
    refine le_roundHalfEven (by positivity) (Nat.le_of_mul_le_mul_right ?_
      (show 0 < 10 ^ d.scale by positivity))
    calc d.coeff * 10 ^ (c.scale - d.scale) * 10 ^ k * 10 ^ d.scale = d.coeff * 10 ^ scale := by
          rw [show scale = c.scale - d.scale + k + d.scale by omega, pow_add, pow_add]; ring
      _ ≤ n.natAbs * 10 ^ d.scale := hn

/-- A sum of whole cents that keeps at least two places is exact. -/
theorem toRat_ofScaled?_of_two_le {n : ℤ} {scale : ℕ} {h : scale ≤ 28} {c : Decimal}
    (hc : ofScaled? n scale h = some c) (hn : ∃ k : ℤ, (n : ℚ) / 10 ^ scale = k / 100)
    (h2 : 2 ≤ c.scale) : c.toRat = (n : ℚ) / 10 ^ scale := by
  obtain ⟨k, hk, hneg, hscale, hcoeff, -⟩ := fit_eq_some hc
  rw [Nat.zero_add] at hcoeff
  -- Only zeros were given up.
  obtain ⟨m, hm⟩ := hn
  have hz : n = m * 10 ^ (scale - k - 2) * 10 ^ k := by
    have hp : (10 : ℚ) ^ scale = 100 * 10 ^ (scale - k - 2) * 10 ^ k := by
      rw [show (100 : ℚ) = 10 ^ 2 by norm_num, ← pow_add, ← pow_add]; congr 1; omega
    have : (n : ℚ) = m * 10 ^ (scale - k - 2) * 10 ^ k := by
      rw [div_eq_div_iff (by positivity) (by norm_num), hp] at hm
      linarith
    exact_mod_cast this
  refine toRat_of_dvd hk hneg hscale hcoeff ?_
  have : ((10 ^ k : ℕ) : ℤ) ∣ n := ⟨m * 10 ^ (scale - k - 2), by rw [hz]; push_cast; ring⟩
  exact Int.natCast_dvd.1 this

/-- Whole cents stay whole cents, with all their places or with at most two. -/
theorem IsCents.ofScaled? (hc : Decimal.ofScaled? n scale h = some c)
    (hn : ∃ k : ℤ, (n : ℚ) / 10 ^ scale = k / 100) : c.IsCents := by
  by_cases h2 : 2 ≤ c.scale
  · obtain ⟨k, hk⟩ := hn
    exact ⟨k, (toRat_ofScaled?_of_two_le hc ⟨k, hk⟩ h2).trans hk⟩
  · exact isCents_of_neededPlaces ((placesOf_le c.coeff c.scale).trans (by omega))

end

/-- `c` is what the value `v` has been rounded to. -/
structure Nearest (c : Decimal) (v : ℚ) : Prop where
  /-- A value that some decimal stands for is kept. -/
  exact : ∀ d : Decimal, d.toRat = v → c.toRat = v
  /-- No value is moved by more than one half. -/
  close : |c.toRat - v| ≤ 1 / 2
  /-- No value is moved past a decimal. -/
  above : ∀ d : Decimal, d.toRat ≤ v → d.toRat ≤ c.toRat
  below : ∀ d : Decimal, v ≤ d.toRat → c.toRat ≤ d.toRat
  cents : (∃ k : ℤ, v = k / 100) → c.IsCents

theorem nearest_self (c : Decimal) : c.Nearest c.toRat where
  exact _ _ := rfl
  close := by rw [sub_self, abs_zero]; norm_num
  above _ h := h
  below _ h := h
  cents h := h

/-- Rounding keeps the sign and does not move a magnitude past that of a decimal. -/
theorem Nearest.of_abs {c : Decimal} {v : ℚ} (exact : ∀ d : Decimal, d.toRat = v → c.toRat = v)
    (close : |c.toRat - v| ≤ 1 / 2) (cents : (∃ k : ℤ, v = k / 100) → c.IsCents)
    (hpos : 0 ≤ v → 0 ≤ c.toRat) (hneg : v ≤ 0 → c.toRat ≤ 0)
    (hle : ∀ d : Decimal, |v| ≤ |d.toRat| → |c.toRat| ≤ |d.toRat|)
    (hge : ∀ d : Decimal, |d.toRat| ≤ |v| → |d.toRat| ≤ |c.toRat|) : c.Nearest v := by
  refine ⟨exact, close, fun d hd => ?_, fun d hd => ?_, cents⟩
  · rcases le_total 0 v with hv | hv
    · rcases le_total 0 d.toRat with hd' | hd'
      · have := hge d (by rwa [abs_of_nonneg hd', abs_of_nonneg hv])
        rwa [abs_of_nonneg hd', abs_of_nonneg (hpos hv)] at this
      · exact hd'.trans (hpos hv)
    · have := hle d (by rw [abs_of_nonpos hv, abs_of_nonpos (hd.trans hv)]; exact neg_le_neg hd)
      rw [abs_of_nonpos (hneg hv), abs_of_nonpos (hd.trans hv)] at this
      exact neg_le_neg_iff.1 this
  · rcases le_total v 0 with hv | hv
    · rcases le_total d.toRat 0 with hd' | hd'
      · have := hge d (by rw [abs_of_nonpos hd', abs_of_nonpos hv]; exact neg_le_neg hd)
        rw [abs_of_nonpos hd', abs_of_nonpos (hneg hv)] at this
        exact neg_le_neg_iff.1 this
      · exact (hneg hv).trans hd'
    · have := hle d (by rwa [abs_of_nonneg hv, abs_of_nonneg (hv.trans hd)])
      rwa [abs_of_nonneg (hpos hv), abs_of_nonneg (hv.trans hd)] at this

theorem nearest_ofScaled? {n : ℤ} {scale : ℕ} {h : scale ≤ 28} {c : Decimal}
    (hc : ofScaled? n scale h = some c) : c.Nearest ((n : ℚ) / 10 ^ scale) := by
  have hpow : (0 : ℚ) < 10 ^ scale := by positivity
  have hle : ∀ d : Decimal, |(n : ℚ) / 10 ^ scale| ≤ |d.toRat| → |c.toRat| ≤ |d.toRat| := by
    intro d hd
    obtain ⟨c', hc', hle, -⟩ := ofScaled?_le (h := h) hd
    rw [hc] at hc'
    cases hc'
    exact hle
  obtain ⟨-, -, hsign, -⟩ := fit_eq_some hc
  refine .of_abs (fun d hd => toRat_ofScaled?_of_decimal hc hd) (abs_ofScaled?_sub_le hc)
    (IsCents.ofScaled? hc) (fun hv => ?_) (fun hv => ?_) hle (fun d => le_abs_ofScaled? hc)
  · rw [le_div_iff₀ hpow, zero_mul] at hv
    exact toRat_nonneg (hsign.trans (decide_eq_false (not_lt.2 (by exact_mod_cast hv))))
  · rw [div_le_iff₀ hpow, zero_mul] at hv
    rcases lt_or_eq_of_le (show n ≤ 0 by exact_mod_cast hv) with hn | rfl
    · exact toRat_nonpos (hsign.trans (decide_eq_true hn))
    · have := hle 0 (by simp)
      rw [toRat_zero, abs_zero] at this
      exact (le_abs_self _).trans this

/-! ## Sums and differences -/

theorem nearest_add? {a b c : Decimal} (hc : a.add? b = some c) :
    c.Nearest (a.toRat + b.toRat) := by
  unfold add? at hc
  split_ifs at hc with h1 h2
  · cases hc
    rw [toRat_of_coeff_eq_zero h1, zero_add]
    exact nearest_self b
  · cases hc
    rw [toRat_of_coeff_eq_zero h2, add_zero]
    exact nearest_self a
  · rw [← toRat_aligned]
    exact nearest_ofScaled? hc

theorem nearest_sub? {a b c : Decimal} (hc : a.sub? b = some c) :
    c.Nearest (a.toRat - b.toRat) := by
  by_cases hb : b.coeff = 0
  · have hc' : c.toRat = a.toRat := by
      unfold sub? at hc
      split_ifs at hc with ha
      · cases hc
        rw [toRat_of_coeff_eq_zero ha, toRat_of_coeff_eq_zero hb]
      · cases hc
        rfl
    rw [toRat_of_coeff_eq_zero hb, sub_zero, ← hc']
    exact nearest_self c
  · rw [sub?_eq_add?_neg hb] at hc
    have := nearest_add? hc
    rwa [toRat_neg, ← sub_eq_add_neg] at this

theorem nearest_add {a b c : Decimal} (hc : a.add b = .ok c) : c.Nearest (a.toRat + b.toRat) := by
  unfold add at hc
  split at hc
  · cases hc
    exact nearest_add? ‹_›
  · cases hc

theorem nearest_sub {a b c : Decimal} (hc : a.sub b = .ok c) : c.Nearest (a.toRat - b.toRat) := by
  unfold sub at hc
  split at hc
  · cases hc
    exact nearest_sub? ‹_›
  · cases hc

/-- A value that is not negative is rounded to one that is not. -/
theorem Nearest.max_zero {c : Decimal} {v : ℚ} (h : c.Nearest v) (hv : 0 ≤ v) :
    (c.max 0).Nearest v := by
  have hc : ¬ c < 0 := by
    rw [← toRat_lt_toRat, not_lt]
    exact h.above 0 (by rwa [toRat_zero])
  rw [max, if_neg hc]
  exact h

/-! ## Whole cents -/

section
variable {a b : Decimal} (ha : a.IsCents) (hb : b.IsCents)
include ha hb

theorem IsCents.exists_add : ∃ k : ℤ, a.toRat + b.toRat = k / 100 := by
  obtain ⟨k, hk⟩ := ha
  obtain ⟨m, hm⟩ := hb
  exact ⟨k + m, by rw [hk, hm]; push_cast; ring⟩

theorem IsCents.exists_sub : ∃ k : ℤ, a.toRat - b.toRat = k / 100 := by
  obtain ⟨k, hk⟩ := ha
  obtain ⟨m, hm⟩ := hb
  exact ⟨k - m, by rw [hk, hm]; push_cast; ring⟩

end

/-- Whole cents that fit 96 bits are a decimal. -/
theorem exists_decimal_of_cents {v : ℚ} (hv : ∃ k : ℤ, v = k / 100) (hlt : |v| * 100 < 2 ^ 96) :
    ∃ d : Decimal, d.toRat = v := by
  obtain ⟨k, rfl⟩ := hv
  have hk : k.natAbs < 2 ^ 96 := by
    rw [abs_div, abs_of_pos (a := (100 : ℚ)) (by norm_num), div_mul_cancel₀ _ (by norm_num),
      ← Int.cast_abs, Int.abs_eq_natAbs] at hlt
    exact_mod_cast hlt
  have hs := signed_mul_of_coeff (n := k) (c := ⟨decide (k < 0), k.natAbs, 2, hk, by norm_num⟩)
    (m := 1) rfl (mul_one _)
  refine ⟨⟨decide (k < 0), k.natAbs, 2, hk, by norm_num⟩, ?_⟩
  rw [Nat.cast_one, mul_one] at hs
  rw [toRat_eq, hs]
  norm_num

/-- A sum of whole cents is exact, unless it is far above any sensible balance. -/
theorem Nearest.eq_of_le {c : Decimal} {v : ℚ} (h : c.Nearest v) (hv : ∃ k : ℤ, v = k / 100)
    (hc : |c.toRat| ≤ 10 ^ 26) : c.toRat = v := by
  have hlt : |v| * 100 < 2 ^ 96 := by
    have hclose := abs_sub_abs_le_abs_sub v c.toRat
    rw [abs_sub_comm] at hclose
    have := h.close
    linarith
  obtain ⟨d, hd⟩ := exists_decimal_of_cents hv hlt
  exact h.exact d hd

end CreditCircle.Decimal

/-
  Decimals as rational numbers.

  * `toRat_lt_toRat`, `toRat_le_toRat`: the order of decimals is that of their values.
  * `sub?_eq_add?_neg`: a difference is the sum with the negated number.
  * `fit_eq_some`, `toRat_of_dvd`: how a sum is rounded, and when nothing is lost.
  * `neededPlaces_le_iff`: the places that a number needs, by its value.
  * `checkAmount_eq_ok_iff`, `checkAmount_by_value`: amounts are positive and whole cents, however
    they are written.
-/
import Mathlib.Algebra.Order.Field.Rat
import Mathlib.Tactic.FieldSimp
import Mathlib.Tactic.Linarith
import Mathlib.Tactic.NormNum
import Mathlib.Tactic.Positivity
import Mathlib.Tactic.Ring
import CreditCircle.TransferRequest

namespace CreditCircle

namespace Decimal

/-! ## Values and their order -/

theorem toRat_eq (d : Decimal) : d.toRat = (d.signed : ℚ) / 10 ^ d.scale := by
  unfold toRat
  rw [Rat.mkRat_eq_div]
  push_cast
  rfl

theorem toRat_lt_toRat {a b : Decimal} : a.toRat < b.toRat ↔ a < b := by
  rw [toRat_eq, toRat_eq, div_lt_div_iff₀ (by positivity) (by positivity), lt_def]
  exact_mod_cast Iff.rfl

theorem toRat_le_toRat {a b : Decimal} : a.toRat ≤ b.toRat ↔ a ≤ b := by
  rw [← not_lt, toRat_lt_toRat]
  exact Iff.rfl

theorem toRat_of_coeff_eq_zero {d : Decimal} (h : d.coeff = 0) : d.toRat = 0 := by
  have : d.signed = 0 := Int.natAbs_eq_zero.1 ((natAbs_signed d).trans h)
  rw [toRat_eq, this, Int.cast_zero, zero_div]

@[simp] theorem toRat_zero : (0 : Decimal).toRat = 0 := toRat_of_coeff_eq_zero rfl

theorem zero_le_iff {d : Decimal} : 0 ≤ d ↔ 0 ≤ d.toRat := by
  rw [← toRat_le_toRat, toRat_zero]

@[simp] theorem toRat_neg (d : Decimal) : (-d).toRat = -d.toRat := by
  rw [toRat_eq, toRat_eq, signed_neg, show (-d).scale = d.scale from rfl]
  push_cast
  ring

theorem abs_signed (d : Decimal) : |d.signed| = (d.coeff : ℤ) := by
  rw [Int.abs_eq_natAbs, natAbs_signed]

@[simp] theorem toRat_abs (d : Decimal) : d.abs.toRat = |d.toRat| := by
  rw [toRat_eq, toRat_eq, abs_div, abs_of_pos (a := (10 : ℚ) ^ d.scale) (by positivity),
    ← Int.cast_abs, abs_signed]
  rfl

/-! ## Differences -/

/-- A difference is the sum with the negated number, in digits and scale too. -/
theorem sub?_eq_add?_neg {a b : Decimal} (hb : b.coeff ≠ 0) : a.sub? b = a.add? (-b) := by
  have hb' : (-b).coeff ≠ 0 := hb
  have hs : (-b).signedAt (commonScale a b) = -b.signedAt (commonScale a b) := by
    unfold signedAt
    rw [signed_neg, neg_mul]; rfl
  unfold sub? add?
  by_cases ha : a.coeff = 0
  · rw [if_pos ha, if_pos ha, if_neg hb]
  · rw [if_neg ha, if_neg ha, if_neg hb, if_neg hb']
    show ofScaled? (a.signedAt _ - b.signedAt _) _ _ =
      ofScaled? (a.signedAt (commonScale a b) + (-b).signedAt (commonScale a b)) _ _
    rw [hs, sub_eq_add_neg]; rfl

/-! ## Rounding -/

theorem roundHalfEven_bounds (n d : ℕ) :
    n / d ≤ roundHalfEven n d ∧ roundHalfEven n d ≤ n / d + 1 := by
  unfold roundHalfEven
  dsimp only
  split_ifs <;> omega

theorem roundHalfEven_of_dvd {n d : ℕ} (hd : 0 < d) (h : d ∣ n) : roundHalfEven n d = n / d := by
  unfold roundHalfEven
  dsimp only
  rw [Nat.mod_eq_zero_of_dvd h, if_pos (by omega)]

/-- A sum is rounded to the most places that 96 bits have room for. -/
theorem fit_eq_some {negative : Bool} {n : ℕ} :
    ∀ {places dropped : ℕ} {h : places ≤ 28} {c : Decimal},
      fit negative n dropped places h = some c →
      ∃ k ≤ places, c.negative = negative ∧ c.scale = places - k ∧
        c.coeff = roundHalfEven n (10 ^ (dropped + k)) ∧
        (0 < k → 2 ^ 96 ≤ roundHalfEven n (10 ^ (dropped + k - 1)))
  | 0, dropped, h, c, hc => by
    unfold fit at hc
    split at hc
    · cases hc; exact ⟨0, le_rfl, rfl, rfl, rfl, by simp⟩
    · cases hc
  | places + 1, dropped, h, c, hc => by
    unfold fit at hc
    split at hc
    · cases hc; exact ⟨0, by omega, rfl, rfl, rfl, by simp⟩
    · rename_i hq
      obtain ⟨k, hk, hneg, hscale, hcoeff, hbig⟩ := fit_eq_some hc
      have hdk : dropped + 1 + k = dropped + (k + 1) := by omega
      refine ⟨k + 1, by omega, hneg, by omega, by rw [hcoeff, hdk], fun _ => ?_⟩
      by_cases hk0 : k = 0
      · subst hk0; simpa using hq
      · have := hbig (by omega)
        rwa [hdk] at this

theorem signed_mul_of_coeff {n : ℤ} {c : Decimal} {m : ℕ} (hneg : c.negative = decide (n < 0))
    (h : c.coeff * m = n.natAbs) : c.signed * m = n := by
  have hm : (c.coeff : ℤ) * m = |n| := by rw [Int.abs_eq_natAbs]; exact_mod_cast h
  unfold signed
  rw [hneg]
  by_cases hn : n < 0
  · rw [decide_eq_true hn, if_pos rfl, neg_mul, hm, abs_of_neg hn, neg_neg]
  · rw [decide_eq_false hn, if_neg Bool.false_ne_true, hm, abs_of_nonneg (not_lt.1 hn)]

/-- A rounded sum that gave up no digit has the value of the sum. -/
theorem toRat_of_dvd {n : ℤ} {scale k : ℕ} {c : Decimal} (hk : k ≤ scale)
    (hneg : c.negative = decide (n < 0)) (hscale : c.scale = scale - k)
    (hcoeff : c.coeff = roundHalfEven n.natAbs (10 ^ k)) (hd : 10 ^ k ∣ n.natAbs) :
    c.toRat = (n : ℚ) / 10 ^ scale := by
  have hq : c.coeff * 10 ^ k = n.natAbs := by
    rw [hcoeff, roundHalfEven_of_dvd (by positivity) hd, Nat.div_mul_cancel hd]
  have hs : (c.signed : ℚ) * 10 ^ k = n := by exact_mod_cast signed_mul_of_coeff hneg hq
  rw [toRat_eq, hscale, ← hs, ← pow_sub_mul_pow (10 : ℚ) hk]
  field_simp

theorem toRat_signedAt {d : Decimal} {scale : ℕ} (h : d.scale ≤ scale) :
    (d.signedAt scale : ℚ) / 10 ^ scale = d.toRat := by
  rw [toRat_eq, signedAt]
  push_cast
  rw [← pow_sub_mul_pow (10 : ℚ) h]
  field_simp

/-! ## Amounts -/

/-- The value is a whole number of cents. -/
def IsCents (d : Decimal) : Prop := ∃ k : ℤ, d.toRat = k / 100

theorem IsCents.neg {d : Decimal} (h : d.IsCents) : (-d).IsCents := by
  obtain ⟨k, hk⟩ := h
  exact ⟨-k, by rw [toRat_neg, hk]; push_cast; ring⟩

theorem placesOf_le : ∀ coeff scale : ℕ, placesOf coeff scale ≤ scale
  | _, 0 => le_rfl
  | coeff, scale + 1 => by
    unfold placesOf
    split
    · exact (placesOf_le (coeff / 10) scale).trans (Nat.le_succ _)
    · exact le_rfl

/-- The zeros that are dropped are all that stand at the end. -/
theorem placesOf_le_iff {k : ℕ} :
    ∀ {scale coeff : ℕ}, placesOf coeff scale ≤ k ↔ 10 ^ (scale - k) ∣ coeff
  | 0, coeff => by simp [placesOf]
  | scale + 1, coeff => by
    by_cases hk : scale + 1 ≤ k
    · rw [Nat.sub_eq_zero_of_le hk, pow_zero]
      exact ⟨fun _ => one_dvd _, fun _ => (placesOf_le coeff (scale + 1)).trans hk⟩
    rw [show scale + 1 - k = scale - k + 1 by omega, pow_succ']
    unfold placesOf
    split
    · rename_i h
      rw [placesOf_le_iff, Nat.dvd_div_iff_mul_dvd (Nat.dvd_of_mod_eq_zero h)]
    · rename_i h
      refine ⟨fun hle => absurd hle hk, fun hd => ?_⟩
      exact absurd (Nat.mod_eq_zero_of_dvd (dvd_of_mul_right_dvd hd)) h

/-- What is divisible is so by the value. -/
theorem pow_dvd_coeff_iff {d : Decimal} {k : ℕ} :
    10 ^ (d.scale - k) ∣ d.coeff ↔ ∃ m : ℤ, d.toRat = m / 10 ^ k := by
  rw [← natAbs_signed, ← Int.natCast_dvd, toRat_eq]
  constructor
  · rintro ⟨m, hm⟩
    have hpow : (10 : ℚ) ^ d.scale * 10 ^ (k - d.scale) = 10 ^ (d.scale - k) * 10 ^ k := by
      rw [← pow_add, ← pow_add]
      congr 1
      omega
    refine ⟨m * 10 ^ (k - d.scale), ?_⟩
    rw [div_eq_div_iff (by positivity) (by positivity), hm]
    push_cast
    rw [mul_right_comm, ← hpow]
    ring
  · rintro ⟨m, hm⟩
    rcases Nat.le_total d.scale k with hk | hk
    · rw [Nat.sub_eq_zero_of_le hk, pow_zero]
      exact one_dvd _
    · have hpow : (10 : ℚ) ^ d.scale = 10 ^ (d.scale - k) * 10 ^ k := by
        rw [← pow_add, Nat.sub_add_cancel hk]
      rw [hpow] at hm
      field_simp at hm
      exact ⟨m, by exact_mod_cast hm⟩

/-- The places that a number needs are the fewest with which it can be written. -/
theorem neededPlaces_le_iff {d : Decimal} {k : ℕ} :
    d.neededPlaces ≤ k ↔ ∃ m : ℤ, d.toRat = m / 10 ^ k :=
  placesOf_le_iff.trans pow_dvd_coeff_iff

/-- Whole cents are the numbers that need at most two places. -/
theorem neededPlaces_le_two_iff {d : Decimal} : d.neededPlaces ≤ 2 ↔ d.IsCents := by
  rw [neededPlaces_le_iff, IsCents, show (10 : ℚ) ^ 2 = 100 by norm_num]

theorem isCents_of_neededPlaces {d : Decimal} (h : d.neededPlaces ≤ 2) : d.IsCents :=
  neededPlaces_le_two_iff.1 h

/-- Only zeros stand behind whole cents. -/
theorem IsCents.pow_dvd {d : Decimal} (h : d.IsCents) : 10 ^ (d.scale - 2) ∣ d.coeff :=
  placesOf_le_iff.1 (neededPlaces_le_two_iff.2 h)

end Decimal

open Decimal

/-- An amount passes if it is positive and needs at most two places. -/
theorem checkAmount_eq_ok_iff {amount : Decimal} :
    checkAmount amount = .ok () ↔ 0 < amount ∧ amount.neededPlaces ≤ 2 := by
  have hpos : ¬ amount ≤ 0 ↔ 0 < amount := by
    rw [← toRat_le_toRat, ← toRat_lt_toRat, not_le]
  unfold checkAmount amountPlaces
  split_ifs with h1 h2
  · exact ⟨nofun, fun h => absurd h1 (hpos.2 h.1)⟩
  · exact ⟨nofun, fun h => absurd h.2 (by omega)⟩
  · exact ⟨fun _ => ⟨hpos.1 h1, by omega⟩, fun _ => rfl⟩

theorem isCents_of_checkAmount {amount : Decimal} (h : checkAmount amount = .ok ()) :
    amount.IsCents :=
  isCents_of_neededPlaces (checkAmount_eq_ok_iff.1 h).2

section
variable {a b : Decimal}

theorem checkAmount_of_not_pos (h : a.toRat ≤ 0) :
    checkAmount a = .error (.invalidAmount a .notPositive) := by
  rw [← toRat_zero, toRat_le_toRat] at h
  exact if_pos h

/-- What is finer than a cent is refused as such only if it is positive. -/
theorem checkAmount_of_not_isCents (h : 0 < a.toRat) (hc : ¬ a.IsCents) :
    checkAmount a = .error (.invalidAmount a .tooManyPlaces) := by
  rw [← not_le, ← toRat_zero, toRat_le_toRat] at h
  rw [← neededPlaces_le_two_iff, not_le] at hc
  exact (if_neg h).trans (if_pos hc)

theorem checkAmount_eq_ok_iff_isCents : checkAmount a = .ok () ↔ 0 < a.toRat ∧ a.IsCents := by
  rw [checkAmount_eq_ok_iff, ← toRat_lt_toRat, toRat_zero, neededPlaces_le_two_iff]

/-- Whether an amount passes is a matter of its value: it has to be positive and a whole number of
    hundredths.  So decimals of the same value pass together or are refused for the same fault,
    whatever zeros they have at the end and whatever the sign of a zero is. -/
theorem checkAmount_by_value :
    (∀ a : Decimal, checkAmount a = .ok () ↔ 0 < a.toRat ∧ ∃ k : ℤ, 100 * a.toRat = k) ∧
    ∀ a b : Decimal, a.toRat = b.toRat →
      (checkAmount a = .ok () ∧ checkAmount b = .ok ()) ∨
        ∃ fault, checkAmount a = .error (.invalidAmount a fault) ∧
          checkAmount b = .error (.invalidAmount b fault) := by
  constructor
  · intro a
    rw [checkAmount_eq_ok_iff_isCents]
    refine and_congr_right fun _ => exists_congr fun k => ?_
    rw [eq_div_iff (by norm_num), mul_comm]
  · intro a b hvalue
    have hcents : a.IsCents ↔ b.IsCents := by rw [IsCents, IsCents, hvalue]
    by_cases hpos : 0 < a.toRat
    · by_cases hc : a.IsCents
      · exact .inl ⟨checkAmount_eq_ok_iff_isCents.2 ⟨hpos, hc⟩,
          checkAmount_eq_ok_iff_isCents.2 ⟨hvalue ▸ hpos, hcents.1 hc⟩⟩
      · exact .inr ⟨_, checkAmount_of_not_isCents hpos hc,
          checkAmount_of_not_isCents (hvalue ▸ hpos) (mt hcents.2 hc)⟩
    · exact .inr ⟨_, checkAmount_of_not_pos (not_lt.1 hpos),
        checkAmount_of_not_pos (hvalue ▸ not_lt.1 hpos)⟩

/-- A cent passes with as many zeros at the end as there is room for, just as without them; one zero
    less in the coefficient, and it is too fine. -/
theorem checkAmount_by_value_zeros :
    checkAmount ⟨false, 10 ^ 26, 28, by decide, by decide⟩ = .ok () ∧
      checkAmount ⟨false, 1, 2, by decide, by decide⟩ = .ok () ∧
      checkAmount ⟨false, 10 ^ 25, 28, by decide, by decide⟩ =
        .error (.invalidAmount ⟨false, 10 ^ 25, 28, by decide, by decide⟩ .tooManyPlaces) := by
  have hsame : (⟨false, 10 ^ 26, 28, by decide, by decide⟩ : Decimal).toRat =
      (⟨false, 1, 2, by decide, by decide⟩ : Decimal).toRat := by
    norm_num [toRat_eq, signed]
  have hcent : checkAmount ⟨false, 1, 2, by decide, by decide⟩ = .ok () :=
    (checkAmount_by_value.1 _).2 ⟨by norm_num [toRat_eq, signed], 1, by norm_num [toRat_eq, signed]⟩
  refine ⟨?_, hcent, by decide⟩
  rcases checkAmount_by_value.2 _ _ hsame with h | ⟨fault, -, h⟩
  · exact h.1
  · cases hcent.symm.trans h

end

theorem coeff_ne_zero_of_pos {d : Decimal} (h : 0 < d) : d.coeff ≠ 0 := by
  intro hc
  rw [← toRat_lt_toRat, toRat_of_coeff_eq_zero hc, toRat_zero] at h
  exact lt_irrefl _ h

end CreditCircle

/-
  Runs of digits.

  * `length_digits_le`, `head?_digits`: how many digits a number has, and with which it begins.
  * `exists_showPadded`: what is written with a least width are digits of the number.
  * `NoDigit`: a text in which no digit goes on; `takeWhile_digits`: in front of it, a run of digits
    is found as it is.
-/
import CreditCircle.Proofs.CheckDigits
import CreditCircle.Timestamp.Text
import Mathlib.Data.Nat.Log

namespace CreditCircle.Text

/-! ## Digits of a number -/

theorem exists_digits_eq {n : Nat} (hn : n ≠ 0) :
    ∃ k, 10 ^ k ≤ n ∧ n < 10 ^ (k + 1) ∧ digits n = digitsFixed (k + 1) n := by
  have hle : 10 ^ Nat.log 10 n ≤ n := Nat.pow_log_le_self 10 hn
  have hlt : n < 10 ^ (Nat.log 10 n + 1) := Nat.lt_pow_succ_log_self (by decide) n
  exact ⟨Nat.log 10 n, hle, hlt, digits_eq_digitsFixed hle hlt⟩

theorem length_digits_le {n width : Nat} (hw : 0 < width) (h : n < 10 ^ width) :
    (digits n).length ≤ width := by
  by_cases hn : n = 0
  · subst hn
    exact hw
  · obtain ⟨k, hk, -, hdigits⟩ := exists_digits_eq hn
    rw [hdigits, length_digitsFixed]
    exact (Nat.pow_lt_pow_iff_right (by decide)).1 (hk.trans_lt h)

/-- Only zero begins with a zero. -/
theorem head?_digits {n : Nat} (h : (digits n).head? = some 0) : digits n = [0] := by
  by_cases hn : n = 0
  · subst hn
    rfl
  · obtain ⟨k, hle, hlt, hdigits⟩ := exists_digits_eq hn
    have hfirst : n / 10 ^ k % 10 = 0 := by
      rw [hdigits] at h
      exact congrArg Fin.val (Option.some.inj h)
    have hpos : 0 < n / 10 ^ k := Nat.div_pos hle (Nat.pow_pos (by decide))
    have hten : n / 10 ^ k < 10 := Nat.div_lt_of_lt_mul (by rwa [← pow_succ])
    omega

theorem natOfDigits_zeros (zeros : Nat) (ds : List Digit) :
    natOfDigits (List.replicate zeros 0 ++ ds) = natOfDigits ds := by
  induction zeros with
  | zero => rfl
  | succ zeros ih =>
    rw [List.replicate_succ, List.cons_append, natOfDigits_cons, ih]
    exact (congrArg (· + _) (Nat.zero_mul _)).trans (Nat.zero_add _)

/-- What is written with a least width are digits of the number. -/
theorem exists_showPadded (n : Nat) {width : Nat} (hw : 0 < width) :
    ∃ ds, Timestamp.showPadded width n = ds.map Digit.toChar ∧ natOfDigits ds = n ∧ ds ≠ [] ∧
      (n < 10 ^ width → ds.length = width) := by
  refine ⟨List.replicate (width - (digits n).length) 0 ++ digits n, ?_, ?_, ?_, fun h => ?_⟩
  · rw [Timestamp.showPadded, showNat, List.length_map, List.map_append, List.map_replicate]
    rfl
  · rw [natOfDigits_zeros, natOfDigits_digits]
  · exact List.append_ne_nil_of_right_ne_nil _ (digits_ne_nil n)
  · have hle := length_digits_le hw h
    rw [List.length_append, List.length_replicate]
    omega

/-! ## Where digits end -/

/-- The text does not begin with a digit. -/
def NoDigit (cs : List Char) : Prop := ∀ c ∈ cs.head?, Digit.ofChar? c = none

theorem noDigit_cons {c : Char} (h : Digit.ofChar? c = none) (cs : List Char) : NoDigit (c :: cs) :=
  fun x hx => by cases hx; exact h

theorem takeWhile_digits (ds : List Digit) {rest : List Char} (h : NoDigit rest) :
    (ds.map Digit.toChar ++ rest).takeWhile (fun c => (Digit.ofChar? c).isSome) =
      ds.map Digit.toChar := by
  induction ds with
  | nil =>
    cases rest with
    | nil => rfl
    | cons c rest => rw [List.map_nil, List.nil_append, List.takeWhile_cons, h c rfl]; rfl
  | cons d ds ih =>
    rw [List.map_cons, List.cons_append, List.takeWhile_cons, Digit.ofChar?_toChar, ih]
    rfl

end CreditCircle.Text

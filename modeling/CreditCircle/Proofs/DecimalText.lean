/-
  Reading back the text of a decimal.

  * `natOfDigits_digitsFixed`: the digits of a fraction are those that were cut off.
  * `scan_digits`: a row of digits is read at once, before the point or behind it.
  * `exists_scan_showScaled`: so all digits of a decimal are read, up to zeros behind them.
  * `ofString?_text`: a decimal is read as it is, unless it is a negative zero.
-/
import CreditCircle.Decimal.Reading
import CreditCircle.Text.Blank
import Mathlib.Tactic.Ring

namespace CreditCircle

open Text

namespace Text

/-! ## Digits -/

theorem natOfDigits_digitsFixed (width n : Nat) :
    natOfDigits (digitsFixed width n) = n % 10 ^ width := by
  induction width with
  | zero => simp [digitsFixed, Nat.mod_one]
  | succ width ih =>
    rw [digitsFixed, natOfDigits_cons, length_digitsFixed, ih, Nat.mod_pow_succ]
    ring

theorem digitsFixed_zeros (width n : Nat) :
    digitsFixed width (n * 10 ^ width) = List.replicate width 0 := by
  induction width generalizing n with
  | zero => rfl
  | succ width ih =>
    have hn : n * 10 ^ (width + 1) = n * 10 * 10 ^ width := by rw [pow_succ]; ring
    rw [digitsFixed, hn, ih, List.replicate_succ, List.cons.injEq]
    refine ⟨Fin.ext ?_, rfl⟩
    show n * 10 * 10 ^ width / 10 ^ width % 10 = 0
    rw [Nat.mul_div_cancel _ (Nat.pow_pos (by decide)), Nat.mul_mod_left]

/-- Zeros behind a number are the last of its digits. -/
theorem digitsFixed_mul_pow (width zeros n : Nat) :
    digitsFixed (width + zeros) (n * 10 ^ zeros) =
      digitsFixed width n ++ List.replicate zeros 0 := by
  induction width with
  | zero => rw [Nat.zero_add, digitsFixed_zeros]; rfl
  | succ width ih =>
    rw [Nat.add_right_comm, digitsFixed, digitsFixed, List.cons_append, ih]
    congr 2
    rw [pow_add, Nat.mul_div_mul_right _ _ (Nat.pow_pos (by decide))]

theorem Digit.toChar_ne (d : Digit) : d.toChar ≠ '-' ∧ d.toChar ≠ '+' := by
  revert d; decide

theorem Digit.isBlank_toChar (d : Digit) : isBlank d.toChar = false := by
  revert d; decide

end Text

namespace Decimal

/-! ## Rows of digits -/

namespace Prefix

/-- One more digit. -/
def push (p : Prefix) (d : Digit) (hlt : 10 * p.coeff + d.val < 2 ^ 96)
    (hscale : p.point → p.scale + 1 ≤ 28) : Prefix where
  coeff := 10 * p.coeff + d.val
  scale := if p.point then p.scale + 1 else p.scale
  point := p.point
  digit := true
  coeff_lt := hlt
  scale_le := by
    split
    · exact hscale ‹_›
    · exact p.scale_le

/-- After digits, the coefficient has grown by them, and behind the point so has the scale. -/
structure Extends (p : Prefix) (ds : List Digit) (q : Prefix) : Prop where
  coeff : q.coeff = p.coeff * 10 ^ ds.length + natOfDigits ds
  scale : q.scale = if p.point then p.scale + ds.length else p.scale
  point : q.point = p.point
  digit : p.digit ∨ ds ≠ [] → q.digit

end Prefix

theorem scan_toChar (negative : Bool) {p : Prefix} {d : Digit} (hlt : 10 * p.coeff + d.val < 2 ^ 96)
    (hscale : p.point → p.scale + 1 ≤ 28) (cs : List Char) :
    scan negative p (d.toChar :: cs) = scan negative (p.push d hlt hscale) cs := by
  obtain ⟨coeff, scale, point, digit, hcoeff, hle⟩ := p
  conv_lhs => unfold scan
  rw [Digit.ofChar?_toChar]
  cases point with
  | true => exact dif_pos ⟨hlt, hscale rfl⟩
  | false => exact dif_pos hlt

theorem scan_digits (negative : Bool) (rest : List Char) (ds : List Digit) :
    ∀ p : Prefix, p.coeff * 10 ^ ds.length + natOfDigits ds < 2 ^ 96 →
      (p.point → p.scale + ds.length ≤ 28) →
        ∃ q, p.Extends ds q ∧
          scan negative p (ds.map Digit.toChar ++ rest) = scan negative q rest := by
  induction ds with
  | nil =>
    intro p _ _
    exact ⟨p, ⟨by simp, by simp, rfl, by simp⟩, rfl⟩
  | cons d ds ih =>
    intro p hlt hscale
    have hsum : p.coeff * 10 ^ (d :: ds).length + natOfDigits (d :: ds) =
        (10 * p.coeff + d.val) * 10 ^ ds.length + natOfDigits ds := by
      rw [natOfDigits_cons, List.length_cons, pow_succ]
      ring
    have hle : 10 * p.coeff + d.val ≤ (10 * p.coeff + d.val) * 10 ^ ds.length :=
      Nat.le_mul_of_pos_right _ (Nat.pow_pos (by decide))
    rw [hsum] at hlt
    simp only [List.length_cons] at hscale
    have hroom : p.point → p.scale + 1 ≤ 28 := fun hp => by have := hscale hp; omega
    have hrest : p.point → (if p.point then p.scale + 1 else p.scale) + ds.length ≤ 28 := by
      intro hp
      have := hscale hp
      rw [if_pos hp]
      omega
    rw [List.map_cons, List.cons_append, scan_toChar negative (by omega) hroom]
    obtain ⟨q, hq, hscan⟩ := ih (p.push d (by omega) hroom) hlt hrest
    refine ⟨q, ⟨hq.coeff.trans hsum.symm, ?_, hq.point, fun _ => hq.digit (Or.inl rfl)⟩, hscan⟩
    rw [hq.scale, List.length_cons]
    unfold Prefix.push
    dsimp only
    split <;> omega

/-- A zero with a sign, which is read without it. -/
def IsNegativeZero (d : Decimal) : Prop := d.negative ∧ d.coeff = 0

instance (d : Decimal) : Decidable d.IsNegativeZero :=
  inferInstanceAs (Decidable (d.negative ∧ d.coeff = 0))

theorem unsignZero_eq_self {d : Decimal} (h : ¬ d.IsNegativeZero) : d.unsignZero = d := by
  obtain ⟨negative, coeff, scale, _, _⟩ := d
  have hsign : (negative && coeff != 0) = negative := by
    by_cases hz : coeff = 0
    · cases negative with
      | true => exact absurd ⟨rfl, hz⟩ h
      | false => rfl
    · simp [hz]
  simp [unsignZero, hsign]

theorem unsignZero_unsignZero (d : Decimal) : d.unsignZero.unsignZero = d.unsignZero := by
  refine unsignZero_eq_self fun ⟨hsign, hzero⟩ => ?_
  have hcoeff : d.coeff = 0 := hzero
  simp [unsignZero, hcoeff] at hsign

theorem toDecimal_eq {p : Prefix} {d : Decimal} (hc : p.coeff = d.coeff) (hs : p.scale = d.scale) :
    p.toDecimal d.negative = d.unsignZero := by
  obtain ⟨negative, coeff, scale, _, _⟩ := d
  obtain ⟨coeff', scale', _, _, _, _⟩ := p
  cases hc
  cases hs
  rfl

theorem scan_nil (negative : Bool) {p : Prefix} (h : p.digit) :
    scan negative p [] = some (p.toDecimal negative) := by
  unfold scan
  rw [if_pos h]

theorem scan_point (negative : Bool) {p : Prefix} (h : p.point = false) (cs : List Char) :
    scan negative p ('.' :: cs) = scan negative { p with point := true } cs := by
  conv_lhs => unfold scan
  rw [show Digit.ofChar? '.' = none by decide]
  exact if_pos ⟨rfl, h⟩

/-- Behind its sign, a decimal is read digit by digit; what is left are the zeros that have been
    put behind its last place. -/
theorem exists_scan_showScaled (negative : Bool) (d : Decimal) (zeros : Nat) :
    ∃ p : Prefix, p.coeff = d.coeff ∧ p.scale = d.scale ∧ p.digit ∧ (zeros ≠ 0 → p.point) ∧
      scan negative .start (showScaled false (d.coeff * 10 ^ zeros) (d.scale + zeros)) =
        scan negative p (List.replicate zeros '0') := by
  have hcoeff := d.coeff_lt
  have hscale := d.scale_le
  have hle : d.coeff / 10 ^ d.scale ≤ d.coeff := Nat.div_le_self _ _
  have hwhole : d.coeff * 10 ^ zeros / 10 ^ (d.scale + zeros) = d.coeff / 10 ^ d.scale := by
    rw [pow_add, Nat.mul_div_mul_right _ _ (Nat.pow_pos (by decide))]
  unfold showScaled showNat
  rw [if_neg (by simp), List.nil_append, hwhole, digitsFixed_mul_pow, List.map_append]
  obtain ⟨q, hq, hscan⟩ := scan_digits negative
    (if d.scale + zeros = 0 then [] else '.' :: ((digitsFixed d.scale d.coeff).map Digit.toChar ++
      (List.replicate zeros 0).map Digit.toChar))
    (digits (d.coeff / 10 ^ d.scale)) .start (by simp [Prefix.start]; omega) nofun
  have hqc : q.coeff = d.coeff / 10 ^ d.scale := by simp [hq.coeff, Prefix.start]
  have hqs : q.scale = 0 := hq.scale
  have hqd : q.digit = true := hq.digit (Or.inr (digits_ne_nil _))
  rw [hscan]
  split
  · -- A whole number has no point.
    obtain ⟨hs, rfl⟩ : d.scale = 0 ∧ zeros = 0 := by omega
    exact ⟨q, by rw [hqc, hs]; simp, by rw [hqs, hs], hqd, fun h => absurd rfl h, rfl⟩
  · have hsplit : q.coeff * 10 ^ d.scale + d.coeff % 10 ^ d.scale = d.coeff := by
      rw [hqc, Nat.mul_comm]
      exact Nat.div_add_mod _ _
    rw [scan_point _ hq.point]
    obtain ⟨q', hq', hscan'⟩ := scan_digits negative ((List.replicate zeros 0).map Digit.toChar)
      (digitsFixed d.scale d.coeff) { q with point := true }
      (by rw [length_digitsFixed, natOfDigits_digitsFixed]; dsimp only; omega)
      (fun _ => by rw [length_digitsFixed]; dsimp only; omega)
    refine ⟨q', ?_, ?_, hq'.digit (Or.inl hqd), fun _ => hq'.point, ?_⟩
    · rw [hq'.coeff, length_digitsFixed, natOfDigits_digitsFixed]
      exact hsplit
    · rw [hq'.scale, if_pos rfl, length_digitsFixed]
      dsimp only
      rw [hqs, Nat.zero_add]
    · rw [hscan', List.map_replicate]
      rfl

/-- A text without a sign begins with a digit. -/
theorem parsePlain_showScaled (negative : Bool) (coeff scale : Nat) :
    parsePlain (showScaled negative coeff scale) =
      scan negative .start (showScaled false coeff scale) := by
  cases negative with
  | true => rfl
  | false =>
    obtain ⟨first, ds, hds⟩ := List.exists_cons_of_ne_nil (digits_ne_nil (coeff / 10 ^ scale))
    obtain ⟨hminus, hplus⟩ := first.toChar_ne
    simp only [showScaled, showNat, hds, Bool.false_eq_true, if_false, List.nil_append,
      List.map_cons, List.cons_append]
    unfold parsePlain
    split
    · rename_i heq; exact absurd (List.cons.inj heq).1 hminus
    · rename_i heq; exact absurd (List.cons.inj heq).1 hplus
    · rfl

theorem parse_of_plain {cs : List Char} {d : Decimal} (h : parsePlain cs = some d) :
    parse cs = some d := by
  rw [parse, h]
  rfl

theorem parse_toText (d : Decimal) : parse d.toText = some d.unsignZero := by
  obtain ⟨p, hc, hs, hd, -, hscan⟩ := exists_scan_showScaled d.negative d 0
  rw [pow_zero, Nat.mul_one, Nat.add_zero] at hscan
  refine parse_of_plain ((parsePlain_showScaled _ _ _).trans (hscan.trans ?_))
  exact (scan_nil _ hd).trans (congrArg some (toDecimal_eq hc hs))

/-- A decimal is read as it is written, but a zero loses its sign. -/
theorem ofString?_text_unsigned (d : Decimal) : ofString? d.text = some d.unsignZero := by
  rw [ofString?, text, String.toList_ofList]
  exact parse_toText d

/-- A decimal is read as it is written, unless it is a negative zero. -/
theorem ofString?_text {d : Decimal} (h : ¬ d.IsNegativeZero) : ofString? d.text = some d := by
  rw [ofString?_text_unsigned, unsignZero_eq_self h]

/-! ## No blanks -/

theorem isBlank_of_mem_showScaled {negative : Bool} {coeff scale : Nat} {c : Char}
    (hc : c ∈ showScaled negative coeff scale) : isBlank c = false := by
  have hdigit : ∀ {ds : List Digit}, c ∈ ds.map Digit.toChar → isBlank c = false := by
    intro ds hc
    obtain ⟨d, -, rfl⟩ := List.mem_map.1 hc
    exact d.isBlank_toChar
  simp only [showScaled, showNat, List.mem_append] at hc
  rcases hc with (hc | hc) | hc
  · split at hc
    · rw [List.mem_singleton.1 hc]; decide
    · cases hc
  · exact hdigit hc
  · split at hc
    · cases hc
    · rcases List.mem_cons.1 hc with rfl | hc
      · decide
      · exact hdigit hc

/-- Numbers are written without blanks. -/
theorem strip_showScaled (negative : Bool) (coeff scale : Nat) :
    strip (String.ofList (showScaled negative coeff scale)) =
      String.ofList (showScaled negative coeff scale) := by
  have htrim : trim (showScaled negative coeff scale) = showScaled negative coeff scale :=
    trimEnds_eq_self (fun c hc => isBlank_of_mem_showScaled (List.mem_of_mem_head? hc))
      fun c hc => isBlank_of_mem_showScaled (List.mem_of_mem_getLast? hc)
  rw [strip, String.toList_ofList, htrim]

theorem strip_text (d : Decimal) : strip d.text = d.text := strip_showScaled ..

theorem strip_cents (d : Decimal) : strip d.cents = d.cents := strip_showScaled ..

theorem toText_ne_nil (d : Decimal) : d.toText ≠ [] := by
  have hdigits : showNat (d.coeff / 10 ^ d.scale) ≠ [] := by
    simpa [showNat] using digits_ne_nil _
  simp [toText, showScaled, hdigits]

theorem text_ne_empty (d : Decimal) : d.text ≠ "" := by
  intro h
  refine d.toText_ne_nil ?_
  rw [← String.toList_ofList (l := d.toText)]
  exact congrArg String.toList h

end Decimal
end CreditCircle

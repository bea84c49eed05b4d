/-
  Check digits.

  * `weigh_append`, `isValid_replace_iff`: what a part of a number adds to its sum, and when another
    part may stand in its place.
  * `sum_nines`: nines whose sum fills 32 bits.
  * `parse?_digits`: digits are read as the number that they write.
  * `digits_eq_digitsFixed`: digits of a given width, unless they begin with zeros, are the digits
    of the number.
  * `checkDigit_unique_generate_parses`: a payload has exactly one check digit, as long as its sum
    fits, and generated numbers are read back as they are.
-/
import CreditCircle.LedgerError
import CreditCircle.Proofs.DecimalText
import Mathlib.Data.Nat.Bits

namespace CreditCircle

open Text

/-! ## Sums -/

namespace Luhn

/-- The digits further left count as if the number ended with them, and whether the first of them is
    doubled depends on how many stand to their right. -/
theorem weigh_append (doubled : Bool) (right left : List Digit) :
    weigh doubled (right ++ left) =
      weigh doubled right + weigh (doubled ^^ right.length.bodd) left := by
  induction right generalizing doubled with
  | nil => cases doubled <;> exact (Nat.zero_add _).symm
  | cons d right ih =>
    have hturn : (doubled ^^ (d :: right).length.bodd) = (!doubled ^^ right.length.bodd) := by
      rw [List.length_cons, Nat.bodd_succ]
      cases doubled <;> cases right.length.bodd <;> rfl
    rw [hturn, List.cons_append]
    cases doubled with
    | true => rw [weigh, weigh, ih, Nat.add_assoc]; rfl
    | false => rw [weigh, weigh, ih, Nat.add_assoc]; rfl

/-- In the place of a part of a valid number another part of the same length is valid if and only if
    both count the same. -/
theorem isValid_replace_iff {before part after : List Digit}
    (hmax : (before ++ part ++ after).length ≤ safeLength)
    (hv : isValid (before ++ part ++ after) = true) (other : List Digit)
    (hlen : part.length = other.length) : isValid (before ++ other ++ after) = true ↔
      weigh after.length.bodd other.reverse % 10 = weigh after.length.bodd part.reverse % 10 := by
  have hsum : ∀ zs : List Digit, weigh false (before ++ zs ++ after).reverse =
      weigh false after.reverse + (weigh after.length.bodd zs.reverse +
        weigh (after.length.bodd ^^ zs.length.bodd) before.reverse) := by
    intro zs
    rw [List.reverse_append, List.reverse_append, weigh_append, weigh_append, List.length_reverse,
      List.length_reverse, Bool.false_xor]
  have hfits : ∀ zs : List Digit, zs.length = part.length →
      weigh false (before ++ zs ++ after).reverse < 2 ^ 32 := by
    intro zs hzs
    refine weigh_lt ?_ false
    simp only [List.length_reverse, List.length_append, hzs] at hmax ⊢
    exact hmax
  rw [isValid_iff_of_lt (hfits part rfl)] at hv
  rw [isValid_iff_of_lt (hfits other hlen.symm)]
  rw [hsum, ← hlen]
  rw [hsum] at hv
  omega

/-- A nine counts nine, doubled or not. -/
theorem weigh_nines (doubled : Bool) (n : Nat) :
    weigh doubled (List.replicate n (9 : Digit)) = 9 * n := by
  induction n generalizing doubled with
  | zero => cases doubled <;> rfl
  | succ n ih =>
    rw [List.replicate_succ, Nat.mul_succ, Nat.add_comm]
    cases doubled with
    | true => rw [weigh, ih]; rfl
    | false => rw [weigh, ih]; rfl

/-- The sum over nines that fill 32 bits up to four, and over one more digit. -/
theorem sum_nines {n : Nat} (hn : 9 * n + 4 = 2 ^ 32) :
    sum true (List.replicate n (9 : Digit)).reverse = 4294967292 ∧
      ∀ d : Digit, sum false (List.replicate n (9 : Digit) ++ [d]).reverse =
        UInt32.ofNat d.val + 4294967292 := by
  have hnines : sum true (List.replicate n (9 : Digit)).reverse = 4294967292 := by
    rw [← UInt32.toNat_inj, List.reverse_replicate, toNat_sum, weigh_nines,
      show 9 * n = 4294967292 by omega]
    rfl
  refine ⟨hnines, fun d => ?_⟩
  rw [List.reverse_append, List.reverse_singleton, List.singleton_append, sum, hnines]

end Luhn

/-! ## Texts of digits -/

namespace Text

theorem Digit.isDigit_toChar (d : Digit) : d.toChar.isDigit = true := by
  revert d; decide

theorem Digit.exists_toChar_eq {c : Char} (h : c.isDigit = true) : ∃ d : Digit, d.toChar = c := by
  have hrange : 48 ≤ c.toNat ∧ c.toNat ≤ 57 := by
    simp only [Char.isDigit, ge_iff_le, Bool.and_eq_true, decide_eq_true_eq,
      UInt32.le_iff_toNat_le] at h
    exact h
  exact ⟨_, Digit.toChar_of_ofChar? (dif_pos hrange)⟩

theorem Digit.toChar_injective : Function.Injective Digit.toChar := by
  intro d e h
  have hread := Digit.ofChar?_toChar d
  rw [h, Digit.ofChar?_toChar] at hread
  exact (Option.some.inj hread).symm

theorem digits?_map_toChar (ds : List Digit) : digits? (ds.map Digit.toChar) = some ds := by
  induction ds with
  | nil => rfl
  | cons d ds ih =>
    rw [digits?, List.map_cons, List.mapM_cons, Digit.ofChar?_toChar]
    show (digits? (ds.map Digit.toChar) >>= fun ds => pure (d :: ds)) = _
    rw [ih]
    rfl

/-- There are no blanks around digits. -/
theorem trim_map_toChar (ds : List Digit) : trim (ds.map Digit.toChar) = ds.map Digit.toChar := by
  have hclear : ∀ c ∈ ds.map Digit.toChar, isBlank c = false := by
    intro c hc
    obtain ⟨d, -, rfl⟩ := List.mem_map.1 hc
    exact d.isBlank_toChar
  exact trimEnds_eq_self (fun c hc => hclear c (List.mem_of_mem_head? hc))
    fun c hc => hclear c (List.mem_of_mem_getLast? hc)

/-! ### Digits of a given width -/

/-- The last digit of a number stands behind those of its tenth part. -/
theorem digitsFixed_succ (width n : Nat) : digitsFixed (width + 1) n =
    digitsFixed width (n / 10) ++ [⟨n % 10, Nat.mod_lt _ (by decide)⟩] := by
  induction width with
  | zero => simp [digitsFixed]
  | succ width ih =>
    rw [digitsFixed, ih, digitsFixed, List.cons_append, List.cons.injEq]
    refine ⟨Fin.ext ?_, rfl⟩
    show n / 10 ^ (width + 1) % 10 = n / 10 / 10 ^ width % 10
    rw [Nat.div_div_eq_div_mul, pow_succ']

theorem digitsLoop_eq_digitsFixed {width : Nat} : ∀ {fuel n : Nat} (acc : List Digit), n < fuel →
    10 ^ width ≤ n → n < 10 ^ (width + 1) →
      digitsLoop fuel n acc = digitsFixed (width + 1) n ++ acc := by
  induction width with
  | zero =>
    intro fuel n acc hf _ hlt
    obtain ⟨fuel, rfl⟩ : ∃ f, fuel = f + 1 := ⟨fuel - 1, by omega⟩
    rw [digitsLoop, if_pos (by simpa using hlt)]
    simp [digitsFixed]
  | succ width ih =>
    intro fuel n acc hf hle hlt
    obtain ⟨fuel, rfl⟩ : ∃ f, fuel = f + 1 := ⟨fuel - 1, by omega⟩
    have hpos : 0 < 10 ^ width := Nat.pow_pos (by decide)
    rw [pow_succ] at hle hlt
    rw [digitsLoop, if_neg (by omega), ih _ (by omega) (by omega) (by omega),
      digitsFixed_succ (width + 1), List.append_assoc]
    rfl

/-- Digits that do not begin with a zero are all digits of the number. -/
theorem digits_eq_digitsFixed {width n : Nat} (hle : 10 ^ width ≤ n) (hlt : n < 10 ^ (width + 1)) :
    digits n = digitsFixed (width + 1) n := by
  rw [digits, digitsLoop_eq_digitsFixed [] (Nat.lt_succ_self n) hle hlt, List.append_nil]

end Text

/-! ## Account numbers -/

namespace AccountNumber

theorem parse?_digits (ds : List Digit) : parse? (ds.map Digit.toChar) = ofDigits? ds := by
  rw [parse?, trim_map_toChar, digits?_map_toChar]
  rfl

/-- The text of a number is read as that number. -/
theorem parse?_toText (n : AccountNumber) : parse? n.toText = some n := by
  rw [toText, parse?_digits]
  exact dif_pos ⟨n.twelve_le, n.le_nineteen, n.valid⟩

theorem parse_toString (n : AccountNumber) : parse (toString n) = .ok n := by
  have hread : parse? (toString n).toList = some n := by
    show parse? (String.ofList n.toText).toList = _
    rw [String.toList_ofList, parse?_toText]
  rw [parse, hread]

/-- The payload of a draw is written with 15 digits, of which the first is not zero. -/
theorem payload_eq_digits (draw : Nat) :
    payload draw = Text.digits (10 ^ 14 + draw % (9 * 10 ^ 14)) := by
  have hmod : draw % (9 * 10 ^ 14) < 9 * 10 ^ 14 := Nat.mod_lt _ (by decide)
  have hlt : 10 ^ 14 + draw % (9 * 10 ^ 14) < 10 ^ (14 + 1) := by omega
  exact (digits_eq_digitsFixed (Nat.le_add_right _ _) hlt).symm

theorem head?_payload (draw : Nat) : (payload draw).head? ≠ some 0 := by
  have hmod : draw % (9 * 10 ^ 14) < 9 * 10 ^ 14 := Nat.mod_lt _ (by decide)
  show some (⟨(10 ^ 14 + draw % (9 * 10 ^ 14)) / 10 ^ 14 % 10, _⟩ : Digit) ≠ some 0
  rw [Ne, Option.some_inj, Fin.ext_iff]
  show ¬ (10 ^ 14 + draw % (9 * 10 ^ 14)) / 10 ^ 14 % 10 = 0
  omega

/-- A payload whose sum 32 bits hold, whichever digit follows it, has exactly one check digit, and
    every payload of at most 477218587 digits is one.  What is generated, whatever is drawn, are 16
    digits without a zero in front: those of the payload that the draw stands for, and its check
    digit.  They are read as the number that they are the text of. -/
theorem checkDigit_unique_generate_parses :
    (∀ payload : List Digit, Luhn.weigh true payload.reverse + 9 < 2 ^ 32 → ∀ d : Digit,
      (Luhn.sum false (payload ++ [d]).reverse).toNat = Luhn.weigh false (payload ++ [d]).reverse ∧
      (Luhn.isValid (payload ++ [d]) = true ↔ d = Luhn.checkDigit payload)) ∧
    (∀ payload : List Digit, payload.length ≤ 477218587 →
      Luhn.weigh true payload.reverse + 9 < 2 ^ 32) ∧
    ∀ draw : Nat,
      (generate draw).toText.length = 16 ∧ (∀ c ∈ (generate draw).toText, c.isDigit = true) ∧
      (generate draw).toText.head? ≠ some '0' ∧
      (∃ payload, payload = Text.digits (10 ^ 14 + draw % (9 * 10 ^ 14)) ∧
        (generate draw).digits = payload ++ [Luhn.checkDigit payload]) ∧
      parse (toString (generate draw)) = .ok (generate draw) := by
  refine ⟨fun payload h d => ⟨Luhn.toNat_sum_of_lt ?_, Luhn.isValid_concat_iff h d⟩,
    fun payload h => Luhn.weigh_add_nine_lt (Nat.lt_succ_of_le h),
    fun draw => ⟨?_, ?_, ?_, ?_, parse_toString _⟩⟩
  · have hd := d.isLt
    rw [Luhn.weigh_reverse_concat]
    omega
  · simp [toText, generate, payload, payloadLength]
  · intro c hc
    obtain ⟨d, -, rfl⟩ := List.mem_map.1 hc
    exact d.isDigit_toChar
  · have hhead : (generate draw).toText.head? = (payload draw).head?.map Digit.toChar := rfl
    rw [hhead, Ne, Option.map_eq_some_iff]
    rintro ⟨d, hd, hzero⟩
    obtain rfl : d = 0 := Digit.toChar_injective hzero
    exact head?_payload draw hd
  · exact ⟨payload draw, payload_eq_digits draw, rfl⟩

/-- The textbook payload 7992739871 is completed by 3, and by nothing else. -/
theorem checkDigit_unique_textbook :
    let payload : List Digit := [7, 9, 9, 2, 7, 3, 9, 8, 7, 1]
    payload.length ≤ 477218587 ∧ Luhn.weigh true payload.reverse + 9 < 2 ^ 32 ∧
      ∀ d : Digit, Luhn.isValid (payload ++ [d]) = true ↔ d = 3 := by
  intro payload
  have hlen : payload.length ≤ 477218587 := by decide
  have hfits := checkDigit_unique_generate_parses.2.1 payload hlen
  have hcheck : Luhn.checkDigit payload = 3 := by decide
  exact ⟨hlen, hfits, fun d => hcheck ▸ (checkDigit_unique_generate_parses.1 payload hfits d).2⟩

/-- A payload of one digit more may have a sum that 32 bits do not hold.  After 477218588 nines the
    check digit is 8, and with it the sum is too large; where overflow is not checked, 4 passes for
    the check digit instead. -/
theorem check_digit_may_overflow :
    let payload := List.replicate 477218588 (9 : Digit)
    Luhn.checkDigit payload = 8 ∧ 2 ^ 32 ≤ Luhn.weigh false (payload ++ [8]).reverse ∧
      Luhn.isValid (payload ++ [8]) = false ∧ Luhn.isValid (payload ++ [4]) = true := by
  -- The length stays a name here: a list of that many digits cannot be evaluated.
  obtain ⟨n, hn⟩ : ∃ n, n = 477218588 := ⟨_, rfl⟩
  rw [← hn]
  obtain ⟨hnines, hconcat⟩ := Luhn.sum_nines (n := n) (by omega)
  refine ⟨?_, ?_, ?_, ?_⟩
  · rw [Luhn.checkDigit, Fin.ext_iff]
    show ((10 - Luhn.sum true (List.replicate n (9 : Digit)).reverse % 10) % 10).toNat = 8
    rw [hnines]
    rfl
  · rw [Luhn.weigh_reverse_concat, List.reverse_replicate, Luhn.weigh_nines, hn]
    decide
  · rw [Luhn.isValid, hconcat]
    rfl
  · rw [Luhn.isValid, hconcat]
    rfl

end AccountNumber
end CreditCircle

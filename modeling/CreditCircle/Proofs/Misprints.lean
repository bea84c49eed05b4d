/-
  Misprinted account numbers.

  * `weigh_single_iff`, `weigh_pair_iff`: what one digit, and two neighbours in either order, add to
    the sum.
  * `parse_mistyped`: a number with one other digit is refused.
  * `parse_swapped_iff`: so is a number with two neighbours exchanged, unless they are 0 and 9;
    `swap_may_pass` is a number where they are.
-/
import CreditCircle.Json.Records
import CreditCircle.Proofs.CheckDigits

namespace CreditCircle

open Text

namespace Luhn

/-- In one place no two digits count the same. -/
theorem weigh_single_iff : ∀ (doubled : Bool) (d e : Digit),
    weigh doubled [d] % 10 = weigh doubled [e] % 10 ↔ d = e := by
  decide

/-- Two neighbours count the same in either order if they are equal, or if they are 0 and 9: nine
    counts nine also when it is doubled. -/
theorem weigh_pair_iff : ∀ (doubled : Bool) (d e : Digit),
    weigh doubled [d, e] % 10 = weigh doubled [e, d] % 10 ↔
      d = e ∨ d = 0 ∧ e = 9 ∨ d = 9 ∧ e = 0 := by
  decide

end Luhn

namespace AccountNumber

/-! ## Reading digits -/

/-- Digits whose checksum does not hold are refused wherever a number is read. -/
theorem parse_of_invalid {ds : List Digit} (h : Luhn.isValid ds = false) :
    let s := String.ofList (ds.map Digit.toChar)
    parse s = .error (.invalidAccountNumber s) ∧
      (decode (Json.string s) : Option AccountNumber) = none := by
  intro s
  have hread : parse? s.toList = none := by
    rw [String.toList_ofList, parse?_digits]
    exact dif_neg fun hd => Bool.false_ne_true (h.symm.trans hd.2.2)
  exact ⟨by rw [parse, hread], hread⟩

theorem parse_of_valid {ds : List Digit} (hmin : 12 ≤ ds.length) (hmax : ds.length ≤ 19)
    (h : Luhn.isValid ds = true) :
    parse (String.ofList (ds.map Digit.toChar)) = .ok ⟨ds, hmin, hmax, h⟩ :=
  parse_toString ⟨ds, hmin, hmax, h⟩

/-- Parts of the text of a number are the texts of parts of its digits. -/
theorem exists_parts {n : AccountNumber} {before part after : List Char}
    (h : n.toText = before ++ part ++ after) : ∃ xs zs ys : List Digit,
      n.digits = xs ++ zs ++ ys ∧ xs.map Digit.toChar = before ∧ zs.map Digit.toChar = part ∧
        ys.map Digit.toChar = after := by
  obtain ⟨front, ys, hds, hfront, hys⟩ := List.map_eq_append_iff.1 h
  obtain ⟨xs, zs, rfl, hxs, hzs⟩ := List.map_eq_append_iff.1 hfront
  exact ⟨xs, zs, ys, hds, hxs, hzs, hys⟩

/-- An account number is short enough for 32 bits to hold its sum, whatever is put in the place of a
    part of it. -/
theorem isValid_replace_iff {n : AccountNumber} {before part after : List Digit}
    (h : n.digits = before ++ part ++ after) (other : List Digit)
    (hlen : part.length = other.length) : Luhn.isValid (before ++ other ++ after) = true ↔
      Luhn.weigh after.length.bodd other.reverse % 10 =
        Luhn.weigh after.length.bodd part.reverse % 10 := by
  have hmax : (before ++ part ++ after).length ≤ Luhn.safeLength :=
    h ▸ n.le_nineteen.trans (by decide)
  exact Luhn.isValid_replace_iff hmax (h ▸ n.valid) other hlen

/-! ## One digit -/

/-- A number in which one digit, wherever it stands, is replaced by another one is refused, and the
    refusal shows what was read. -/
theorem parse_mistyped (n : AccountNumber) {before after : List Char} {a c : Char}
    (hn : n.toText = before ++ a :: after) (hc : c.isDigit = true) (hne : c ≠ a) :
    let s := String.ofList (before ++ c :: after)
    parse s = .error (.invalidAccountNumber s) ∧
      (decode (Json.string s) : Option AccountNumber) = none := by
  rw [show before ++ a :: after = before ++ [a] ++ after by simp] at hn
  obtain ⟨xs, zs, ys, hds, rfl, hzs, rfl⟩ := exists_parts hn
  obtain ⟨d, rfl, rfl⟩ := List.map_eq_singleton_iff.1 hzs
  obtain ⟨e, rfl⟩ := Digit.exists_toChar_eq hc
  have hde : e ≠ d := fun h => hne (congrArg Digit.toChar h)
  have hiff : Luhn.isValid (xs ++ [e] ++ ys) = true ↔ e = d :=
    (isValid_replace_iff hds [e] rfl).trans (Luhn.weigh_single_iff ys.length.bodd e d)
  have htext : xs.map Digit.toChar ++ e.toChar :: ys.map Digit.toChar =
      (xs ++ [e] ++ ys).map Digit.toChar := by simp
  rw [htext]
  exact parse_of_invalid (Bool.eq_false_iff.2 (mt hiff.1 hde))

/-- A generated number whose ninth and tenth digits are 0 and 9: 4111111109111115. -/
def ninety : AccountNumber := generate 311111110911111

/-- A 9 that is read as a 6 does not lead to another account. -/
theorem parse_mistyped_ninety :
    ninety.toText = "411111110".toList ++ '9' :: "111115".toList ∧ '6'.isDigit = true ∧
      '6' ≠ '9' ∧ parse "4111111106111115" = .error (.invalidAccountNumber "4111111106111115") := by
  have hn : ninety.toText = "411111110".toList ++ '9' :: "111115".toList := by decide
  have hrefused := parse_mistyped ninety (c := '6') hn (by decide) (by decide)
  exact ⟨hn, by decide, by decide, hrefused.1⟩

/-! ## Two neighbours -/

/-- A number in which two neighbours, wherever they stand, are exchanged is refused, unless they are
    0 and 9.  Then it is read as another number. -/
theorem parse_swapped_iff (n : AccountNumber) {before after : List Char} {a b : Char}
    (hn : n.toText = before ++ a :: b :: after) (hab : a ≠ b) :
    let s := String.ofList (before ++ b :: a :: after)
    (parse s = .error (.invalidAccountNumber s) ↔ ¬ (a = '0' ∧ b = '9' ∨ a = '9' ∧ b = '0')) ∧
      (a = '0' ∧ b = '9' ∨ a = '9' ∧ b = '0' → ∃ m, m ≠ n ∧ parse s = .ok m ∧ toString m = s) := by
  rw [show before ++ a :: b :: after = before ++ [a, b] ++ after by simp] at hn
  obtain ⟨xs, zs, ys, hds, rfl, hzs, rfl⟩ := exists_parts hn
  obtain ⟨d, rest, rfl, rfl, hrest⟩ := List.map_eq_cons_iff.1 hzs
  obtain ⟨e, rfl, rfl⟩ := List.map_eq_singleton_iff.1 hrest
  have hde : d ≠ e := fun h => hab (congrArg Digit.toChar h)
  have hiff : Luhn.isValid (xs ++ [e, d] ++ ys) = true ↔ d = 0 ∧ e = 9 ∨ d = 9 ∧ e = 0 :=
    (isValid_replace_iff hds [e, d] rfl).trans
      ((Luhn.weigh_pair_iff ys.length.bodd d e).trans (or_iff_right hde))
  have htext : xs.map Digit.toChar ++ e.toChar :: d.toChar :: ys.map Digit.toChar =
      (xs ++ [e, d] ++ ys).map Digit.toChar := by simp
  have hzero : ∀ d : Digit, d.toChar = '0' ↔ d = 0 := by decide
  have hnine : ∀ d : Digit, d.toChar = '9' ↔ d = 9 := by decide
  rw [htext, hzero, hzero, hnine, hnine, ← hiff]
  have hlen : (xs ++ [e, d] ++ ys).length = n.digits.length := by simp [hds]
  have hmin : 12 ≤ (xs ++ [e, d] ++ ys).length := hlen ▸ n.twelve_le
  have hmax : (xs ++ [e, d] ++ ys).length ≤ 19 := hlen ▸ n.le_nineteen
  refine ⟨⟨fun hrefused hv => ?_, fun hv => ?_⟩, fun hv => ?_⟩
  · cases (parse_of_valid hmin hmax hv).symm.trans hrefused
  · exact (parse_of_invalid (Bool.eq_false_iff.2 hv)).1
  · refine ⟨_, fun hsame => hde ?_, parse_of_valid hmin hmax hv, rfl⟩
    have hswapped : xs ++ [e, d] ++ ys = xs ++ [d, e] ++ ys :=
      (congrArg AccountNumber.digits hsame).trans hds
    simp only [List.append_assoc, List.append_cancel_left_eq, List.cons_append,
      List.cons.injEq] at hswapped
    exact hswapped.2.1

/-- When 0 and 9 in the middle of a number change places, another member's number may come out. -/
theorem parse_swapped_iff_ninety :
    ninety.toText = "41111111".toList ++ '0' :: '9' :: "111115".toList ∧ '0' ≠ '9' ∧
      ∃ m, m ≠ ninety ∧ parse "4111111190111115" = .ok m ∧ toString m = "4111111190111115" := by
  have hn : ninety.toText = "41111111".toList ++ '0' :: '9' :: "111115".toList := by decide
  have hne : '0' ≠ '9' := by decide
  exact ⟨hn, hne, (parse_swapped_iff ninety hn hne).2 (Or.inl ⟨rfl, rfl⟩)⟩

/-- An exchange of two neighbours may pass unnoticed. -/
theorem swap_may_pass : ¬ ∀ (n : AccountNumber) (before after : List Char) (a b : Char),
    n.toText = before ++ a :: b :: after → a ≠ b →
      parse (String.ofList (before ++ b :: a :: after)) =
        .error (.invalidAccountNumber (String.ofList (before ++ b :: a :: after))) := by
  intro h
  have hrefused := h ninety "41111111".toList "111115".toList '0' '9' (by decide) (by decide)
  let swapped : List Digit := [4, 1, 1, 1, 1, 1, 1, 1, 9, 0, 1, 1, 1, 1, 1, 5]
  have hread : parse (String.ofList (swapped.map Digit.toChar)) = .ok ⟨swapped, _, _, _⟩ :=
    parse_of_valid (by decide) (by decide) (by decide)
  cases hread.symm.trans hrefused

end AccountNumber
end CreditCircle

/-
  Decimal digits of natural numbers.

  * `Digit`: a number below ten, with its character.
  * `natOfDigits`: the number that a row of digits writes, most significant first.
  * `digits`: the digits of a number without leading zeros ("0" for zero);
    `natOfDigits_digits` says that they read back.
-/
import CreditCircle.Power

namespace CreditCircle.Text

/-- A decimal digit. -/
abbrev Digit := Fin 10

namespace Digit

/-- The ASCII character of a digit. -/
def toChar (d : Digit) : Char := Char.ofNat (48 + d.val)

/-- The digit of an ASCII character. -/
def ofChar? (c : Char) : Option Digit :=
  if h : 48 ≤ c.toNat ∧ c.toNat ≤ 57 then some ⟨c.toNat - 48, by omega⟩ else none

theorem ofChar?_toChar (d : Digit) : ofChar? d.toChar = some d := by
  revert d; decide

theorem toChar_of_ofChar? {c : Char} {d : Digit} (h : ofChar? c = some d) : d.toChar = c := by
  unfold ofChar? at h
  split at h
  · rename_i hc
    obtain rfl := Option.some.inj h
    simp only [toChar, Nat.add_sub_cancel' hc.1]
    exact Char.ofNat_toNat c
  · simp at h

end Digit

/-- The number that a row of digits writes, most significant digit first. -/
def natOfDigits (ds : List Digit) : Nat := ds.foldl (fun n d => 10 * n + d.val) 0

/-- The digits of `n` in front of `acc`, with `fuel` steps at most. -/
def digitsLoop : (fuel : Nat) → (n : Nat) → (acc : List Digit) → List Digit
  | 0, _, acc => acc
  | fuel + 1, n, acc =>
    let d : Digit := ⟨n % 10, Nat.mod_lt _ (by decide)⟩
    if n < 10 then d :: acc else digitsLoop fuel (n / 10) (d :: acc)

/-- The decimal digits of a number, most significant first, without leading zeros. -/
def digits (n : Nat) : List Digit := digitsLoop (n + 1) n []

/-- The last `width` digits of a number, with leading zeros. -/
def digitsFixed : (width : Nat) → (n : Nat) → List Digit
  | 0, _ => []
  | width + 1, n => ⟨n / 10 ^ width % 10, Nat.mod_lt _ (by decide)⟩ :: digitsFixed width n

/-- The decimal text of a number. -/
def showNat (n : Nat) : List Char := (digits n).map Digit.toChar

/-- The digits of a text that holds nothing else. -/
def digits? (cs : List Char) : Option (List Digit) := cs.mapM Digit.ofChar?

/-! ## Laws -/

theorem foldl_digits (ds : List Digit) (a : Nat) :
    ds.foldl (fun n d => 10 * n + d.val) a = a * 10 ^ ds.length + natOfDigits ds := by
  induction ds generalizing a with
  | nil => simp [natOfDigits]
  | cons d ds ih =>
    simp only [List.foldl_cons, List.length_cons, natOfDigits]
    rw [ih, ih (10 * 0 + d.val)]
    rw [Nat.pow_succ]
    simp only [Nat.mul_zero, Nat.zero_add, Nat.add_mul]
    ac_rfl

@[simp] theorem natOfDigits_nil : natOfDigits [] = 0 := rfl

theorem natOfDigits_cons (d : Digit) (ds : List Digit) :
    natOfDigits (d :: ds) = d.val * 10 ^ ds.length + natOfDigits ds := by
  conv => lhs; unfold natOfDigits
  rw [List.foldl_cons, foldl_digits]
  simp

theorem natOfDigits_digitsLoop (fuel n : Nat) (acc : List Digit) (h : n < fuel) :
    natOfDigits (digitsLoop fuel n acc) = n * 10 ^ acc.length + natOfDigits acc := by
  induction fuel generalizing n acc with
  | zero => omega
  | succ fuel ih =>
    simp only [digitsLoop]
    split
    · rename_i hn
      simp [natOfDigits_cons, Nat.mod_eq_of_lt hn]
    · rename_i hn
      rw [ih _ _ (by omega), natOfDigits_cons, List.length_cons, Nat.pow_succ]
      have := Nat.div_add_mod n 10
      calc n / 10 * (10 ^ acc.length * 10) + (n % 10 * 10 ^ acc.length + natOfDigits acc)
          = (10 * (n / 10) + n % 10) * 10 ^ acc.length + natOfDigits acc := by
            rw [Nat.add_mul, Nat.add_assoc]; congr 1; ac_rfl
        _ = n * 10 ^ acc.length + natOfDigits acc := by rw [this]

/-- The digits of a number read back. -/
@[simp] theorem natOfDigits_digits (n : Nat) : natOfDigits (digits n) = n := by
  simp [digits, natOfDigits_digitsLoop]

theorem digitsLoop_ne_nil (fuel n : Nat) (acc : List Digit) (h : n < fuel) :
    digitsLoop fuel n acc ≠ [] := by
  induction fuel generalizing n acc with
  | zero => omega
  | succ fuel ih =>
    simp only [digitsLoop]
    split
    · simp
    · exact ih _ _ (by omega)

/-- A number has at least one digit. -/
theorem digits_ne_nil (n : Nat) : digits n ≠ [] := digitsLoop_ne_nil _ _ _ (by omega)

@[simp] theorem length_digitsFixed (width n : Nat) : (digitsFixed width n).length = width := by
  induction width with
  | zero => rfl
  | succ w ih => simp [digitsFixed, ih]

end CreditCircle.Text

/-
  The Luhn checksum.

  Counted from the right, every second digit is doubled, a double above nine losing nine, and
  the sum has to be a multiple of ten.

  * `weigh`: the sum, the digits given from right to left; `weigh_le` bounds it.
  * `sum`: the sum as it is kept, in 32 bits; `toNat_sum_of_lt` says when it is the same.
  * `checkDigit`: the digit that completes a payload; `isValid_append_checkDigit` says that
    the result is valid.
-/
import CreditCircle.Text.Digits

namespace CreditCircle.Luhn

open Text

/-- What a digit counts when it is doubled. -/
def double (d : Digit) : Nat := if 9 < 2 * d.val then 2 * d.val - 9 else 2 * d.val

/-- The sum over digits from right to left, doubling the first one or the second one and then
    every other. -/
def weigh : (doubled : Bool) → List Digit → Nat
  | _, [] => 0
  | true, d :: ds => double d + weigh false ds
  | false, d :: ds => d.val + weigh true ds

/-- The same sum in 32 bits.  What does not fit is lost, unless overflow is checked; then there is
    no sum. -/
def sum : (doubled : Bool) → List Digit → UInt32
  | _, [] => 0
  | true, d :: ds => UInt32.ofNat (double d) + sum false ds
  | false, d :: ds => UInt32.ofNat d.val + sum true ds

/-- Whether the checksum of a number holds, its last digit being the check digit. -/
def isValid (ds : List Digit) : Bool := sum false ds.reverse % 10 == 0

/-- The check digit of a payload that does not carry one yet. -/
def checkDigit (payload : List Digit) : Digit :=
  ⟨((10 - sum true payload.reverse % 10) % 10).toNat, Nat.mod_lt _ (by decide)⟩

/-! ## Sums that fit -/

theorem double_le (d : Digit) : double d ≤ 9 := by
  have hd := d.isLt
  unfold double
  split <;> omega

/-- Every digit counts nine at most. -/
theorem weigh_le (doubled : Bool) (ds : List Digit) : weigh doubled ds ≤ 9 * ds.length := by
  induction ds generalizing doubled with
  | nil => cases doubled <;> exact Nat.le_refl 0
  | cons d ds ih =>
    have hrest := ih (!doubled)
    rw [List.length_cons, Nat.mul_succ, Nat.add_comm]
    cases doubled with
    | true => exact Nat.add_le_add (double_le d) hrest
    | false => exact Nat.add_le_add (Nat.le_of_lt_succ d.isLt) hrest

/-- The most digits whose sum 32 bits hold, whatever the digits are. -/
def safeLength : Nat := (2 ^ 32 - 1) / 9

theorem weigh_lt {ds : List Digit} (h : ds.length ≤ safeLength) (doubled : Bool) :
    weigh doubled ds < 2 ^ 32 := by
  have hle := weigh_le doubled ds
  unfold safeLength at h
  omega

theorem toNat_sum (doubled : Bool) (ds : List Digit) :
    (sum doubled ds).toNat = weigh doubled ds % 2 ^ 32 := by
  induction ds generalizing doubled with
  | nil => cases doubled <;> rfl
  | cons d ds ih =>
    cases doubled with
    | true => rw [sum, weigh, UInt32.toNat_add, ih, UInt32.toNat_ofNat', ← Nat.add_mod]
    | false => rw [sum, weigh, UInt32.toNat_add, ih, UInt32.toNat_ofNat', ← Nat.add_mod]

/-- Nothing is lost of a sum that fits. -/
theorem toNat_sum_of_lt {doubled : Bool} {ds : List Digit} (h : weigh doubled ds < 2 ^ 32) :
    (sum doubled ds).toNat = weigh doubled ds := by
  rw [toNat_sum, Nat.mod_eq_of_lt h]

theorem isValid_iff_of_lt {ds : List Digit} (h : weigh false ds.reverse < 2 ^ 32) :
    isValid ds = true ↔ weigh false ds.reverse % 10 = 0 := by
  rw [isValid, beq_iff_eq, ← UInt32.toNat_inj, UInt32.toNat_mod, toNat_sum_of_lt h]
  rfl

theorem val_checkDigit (payload : List Digit) (h : weigh true payload.reverse < 2 ^ 32) :
    (checkDigit payload).val = (10 - weigh true payload.reverse % 10) % 10 := by
  have hmod : (sum true payload.reverse % 10).toNat = weigh true payload.reverse % 10 := by
    rw [UInt32.toNat_mod, toNat_sum_of_lt h]
    rfl
  have hle : sum true payload.reverse % 10 ≤ 10 := by
    rw [UInt32.le_iff_toNat_le, hmod]
    exact Nat.le_of_lt (Nat.mod_lt _ (by decide))
  show ((10 - sum true payload.reverse % 10) % 10).toNat = _
  rw [UInt32.toNat_mod, UInt32.toNat_sub_of_le _ _ hle, hmod]
  rfl

/-- What a payload and one more digit count. -/
theorem weigh_reverse_concat (payload : List Digit) (d : Digit) :
    weigh false (payload ++ [d]).reverse = d.val + weigh true payload.reverse := by
  rw [List.reverse_append, List.reverse_singleton, List.singleton_append, weigh]

/-- Exactly one digit completes a payload, if 32 bits hold the sum with any digit. -/
theorem isValid_concat_iff {payload : List Digit} (h : weigh true payload.reverse + 9 < 2 ^ 32)
    (d : Digit) : isValid (payload ++ [d]) = true ↔ d = checkDigit payload := by
  have hd := d.isLt
  have hsum := weigh_reverse_concat payload d
  rw [isValid_iff_of_lt (by omega), hsum, Fin.ext_iff, val_checkDigit payload (by omega)]
  omega

/-- The sum of a payload that is shorter than the longest safe number leaves room for one more
    digit. -/
theorem weigh_add_nine_lt {payload : List Digit} (h : payload.length < safeLength) :
    weigh true payload.reverse + 9 < 2 ^ 32 := by
  have hle := weigh_le true payload.reverse
  rw [List.length_reverse] at hle
  unfold safeLength at h
  omega

/-- A payload followed by its check digit is valid. -/
theorem isValid_append_checkDigit {payload : List Digit} (h : payload.length < safeLength) :
    isValid (payload ++ [checkDigit payload]) = true :=
  (isValid_concat_iff (weigh_add_nine_lt h) _).2 rfl

end CreditCircle.Luhn

/-
  Identifiers of 128 bits.

  * `Identifier`: a number below `2 ^ 128`, written as 32 hexadecimal digits in groups of
    8, 4, 4, 4 and 12.
  * `EntityId`, `TransferId`: the identifiers of an account's owner and of a transfer.
-/
import CreditCircle.Text.Digits

namespace CreditCircle

/-- A number of 128 bits. -/
structure Identifier where
  value : Nat
  value_lt : value < 2 ^ 128 := by decide
  deriving DecidableEq

namespace Identifier

/-- The identifier whose value is `n` modulo `2 ^ 128`. -/
def ofNat (n : Nat) : Identifier := ⟨n % 2 ^ 128, Nat.mod_lt _ (by decide)⟩

/-! ## Text -/

/-- The hexadecimal character of a number below 16. -/
def hexChar (n : Nat) : Char := if n < 10 then Char.ofNat (48 + n) else Char.ofNat (87 + n)

/-- The number of a hexadecimal character of either case. -/
def hexValue? (c : Char) : Option Nat :=
  let n := c.toNat
  if 48 ≤ n ∧ n ≤ 57 then some (n - 48)
  else if 65 ≤ n ∧ n ≤ 70 then some (n - 55)
  else if 97 ≤ n ∧ n ≤ 102 then some (n - 87)
  else none

/-- The last `width` hexadecimal digits of a number. -/
def hexFixed : (width : Nat) → (n : Nat) → List Char
  | 0, _ => []
  | width + 1, n => hexChar (n / 16 ^ width % 16) :: hexFixed width n

/-- The number that hexadecimal digits write. -/
def hexNat? (cs : List Char) : Option Nat :=
  (cs.mapM hexValue?).map (·.foldl (fun n d => 16 * n + d) 0)

/-- The usual form with hyphens. -/
def toText (i : Identifier) : List Char :=
  let n := i.value
  hexFixed 8 (n / 16 ^ 24) ++ '-' :: (hexFixed 4 (n / 16 ^ 20) ++ '-' ::
    (hexFixed 4 (n / 16 ^ 16) ++ '-' :: (hexFixed 4 (n / 16 ^ 12) ++ '-' :: hexFixed 12 n)))

instance : ToString Identifier := ⟨fun i => String.ofList i.toText⟩

/-- The digits of the form with hyphens. -/
def unhyphenate? (cs : List Char) : Option (List Char) :=
  if cs.length = 36 ∧ [8, 13, 18, 23].all (fun i => cs[i]? = some '-') then
    some (cs.take 8 ++ (cs.drop 9).take 4 ++ (cs.drop 14).take 4 ++ (cs.drop 19).take 4 ++
      cs.drop 24)
  else none

/-- The digits of an identifier's text: 32 digits, or the form with hyphens, which may stand in
    braces or behind `urn:uuid:` in any case. -/
def hexDigits? (cs : List Char) : Option (List Char) :=
  if cs.length = 32 then some cs
  else if cs.length = 36 then unhyphenate? cs
  else if cs.length = 38 ∧ cs.head? = some '\x7b' ∧ cs.getLast? = some '\x7d' then
    unhyphenate? (cs.drop 1).dropLast
  else if cs.length = 45 ∧ (cs.take 9).map Char.toLower = "urn:uuid:".toList then unhyphenate? (cs.drop 9)
  else none

/-- Reads an identifier. -/
def parse? (cs : List Char) : Option Identifier := do
  return ofNat (← hexNat? (← hexDigits? cs))

end Identifier

/-! ## What is identified -/

/-- The identifier of the member that owns an account. -/
structure EntityId where
  id : Identifier
  deriving DecidableEq

/-- The identifier of a transfer, drawn when it is proposed. -/
structure TransferId where
  id : Identifier
  deriving DecidableEq

instance : ToString EntityId := ⟨fun e => toString e.id⟩
instance : ToString TransferId := ⟨fun t => toString t.id⟩

end CreditCircle

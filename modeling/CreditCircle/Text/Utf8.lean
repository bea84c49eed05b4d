/-
  UTF-8.

  * `encode`: the bytes of a text.
  * `decode`: the text of some bytes, or the index at which they stop being
    UTF-8: the first byte of the first malformed sequence.
-/
import CreditCircle.Power

namespace CreditCircle.Text.Utf8

/-- The bytes of one character. -/
def encodeChar (c : Char) : List UInt8 :=
  let n := c.toNat
  let tail (k : Nat) : UInt8 := UInt8.ofNat (0x80 + n / 64 ^ k % 64)
  if n < 0x80 then [UInt8.ofNat n]
  else if n < 0x800 then [UInt8.ofNat (0xC0 + n / 64), tail 0]
  else if n < 0x10000 then [UInt8.ofNat (0xE0 + n / 64 ^ 2), tail 1, tail 0]
  else [UInt8.ofNat (0xF0 + n / 64 ^ 3), tail 2, tail 1, tail 0]

/-- The bytes of a text. -/
def encode (cs : List Char) : List UInt8 := cs.flatMap encodeChar

/-- The six bits of a continuation byte. -/
def tailBits? (b : UInt8) : Option Nat :=
  if 0x80 ≤ b.toNat ∧ b.toNat < 0xC0 then some (b.toNat - 0x80) else none

/-- A code point of at least `low`, so that no character has two forms, and not a surrogate. -/
def scalar? (low n : Nat) : Option Char :=
  if h : n.isValidChar then
    if low ≤ n then some (Char.ofNatAux n h) else none
  else none

/-- The first character of some bytes and the number of bytes that it takes. -/
def first? : List UInt8 → Option (Char × Nat)
  | [] => none
  | b :: rest =>
    let n := b.toNat
    if n < 0x80 then (scalar? 0 n).map (·, 1)
    else if n < 0xC0 then none
    else if n < 0xE0 then
      match rest with
      | b₁ :: _ => do
        let x ← tailBits? b₁
        return (← scalar? 0x80 ((n - 0xC0) * 64 + x), 2)
      | _ => none
    else if n < 0xF0 then
      match rest with
      | b₁ :: b₂ :: _ => do
        let x ← tailBits? b₁
        let y ← tailBits? b₂
        return (← scalar? 0x800 (((n - 0xE0) * 64 + x) * 64 + y), 3)
      | _ => none
    else if n < 0xF8 then
      match rest with
      | b₁ :: b₂ :: b₃ :: _ => do
        let x ← tailBits? b₁
        let y ← tailBits? b₂
        let z ← tailBits? b₃
        return (← scalar? 0x10000 ((((n - 0xF0) * 64 + x) * 64 + y) * 64 + z), 4)
      | _ => none
    else none

/-- Decodes from byte index `index` on; `fuel` bounds the number of characters. -/
def decodeLoop : (fuel : Nat) → (index : Nat) → List UInt8 → Except Nat (List Char)
  | _, _, [] => .ok []
  | 0, index, _ :: _ => .error index
  | fuel + 1, index, b :: bs =>
    match first? (b :: bs) with
    | none => .error index
    | some (c, k) => (decodeLoop fuel (index + k) ((b :: bs).drop k)).map (c :: ·)

/-- The text of some bytes, or the index of the first malformed sequence. -/
def decode (bs : List UInt8) : Except Nat (List Char) := decodeLoop bs.length 0 bs

end CreditCircle.Text.Utf8

/-
  Decoding what was encoded.

  * `first?_encodeChar`: the first character of some bytes is the one that was encoded.
  * `decode_encode`: a text is decoded as it is.
  * `trimBytes_encode`: bytes of a text without blanks at its ends have none there either.
-/
import CreditCircle.Text.Blank
import CreditCircle.Text.Utf8

namespace CreditCircle.Text

namespace Utf8

/-! ## One character -/

theorem toNat_ofNat {n : Nat} (h : n < 256) : (UInt8.ofNat n).toNat = n :=
  UInt8.toNat_ofNat_of_lt' h

theorem toNat_lt (c : Char) : c.toNat < 0x110000 := by
  have hv : c.toNat.isValidChar := c.valid
  unfold Nat.isValidChar at hv
  omega

theorem tailBits?_tail (n : Nat) : tailBits? (UInt8.ofNat (0x80 + n % 64)) = some (n % 64) := by
  have hn : n % 64 < 64 := Nat.mod_lt _ (by decide)
  rw [tailBits?, toNat_ofNat (by omega), if_pos (by omega), Nat.add_sub_cancel_left]

theorem scalar?_toNat {c : Char} {low : Nat} (h : low ≤ c.toNat) :
    scalar? low c.toNat = some c := by
  have hv : c.toNat.isValidChar := c.valid
  rw [scalar?, dif_pos hv, if_pos h]
  exact congrArg some (Char.ext rfl)

variable (rest : List UInt8)

theorem first?_one {x : Nat} (hx : x < 0x80) :
    first? (UInt8.ofNat x :: rest) = (scalar? 0 x).map (·, 1) := by
  simp only [first?, toNat_ofNat (by omega : x < 256), if_pos hx]

theorem first?_two {x : Nat} (hx : x < 0x20) (y : Nat) :
    first? (UInt8.ofNat (0xC0 + x) :: UInt8.ofNat (0x80 + y % 64) :: rest) =
      (scalar? 0x80 (x * 64 + y % 64)).map (·, 2) := by
  have hb := toNat_ofNat (by omega : 0xC0 + x < 256)
  simp only [first?, hb, tailBits?_tail, if_neg (by omega : ¬ 0xC0 + x < 0x80),
    if_neg (by omega : ¬ 0xC0 + x < 0xC0), if_pos (by omega : 0xC0 + x < 0xE0),
    Nat.add_sub_cancel_left, Option.bind_eq_bind, Option.bind_some]
  exact Option.map_eq_bind.symm

theorem first?_three {x : Nat} (hx : x < 0x10) (y z : Nat) :
    first? (UInt8.ofNat (0xE0 + x) :: UInt8.ofNat (0x80 + y % 64) ::
      UInt8.ofNat (0x80 + z % 64) :: rest) =
      (scalar? 0x800 ((x * 64 + y % 64) * 64 + z % 64)).map (·, 3) := by
  have hb := toNat_ofNat (by omega : 0xE0 + x < 256)
  simp only [first?, hb, tailBits?_tail, if_neg (by omega : ¬ 0xE0 + x < 0x80),
    if_neg (by omega : ¬ 0xE0 + x < 0xC0), if_neg (by omega : ¬ 0xE0 + x < 0xE0),
    if_pos (by omega : 0xE0 + x < 0xF0), Nat.add_sub_cancel_left, Option.bind_eq_bind,
    Option.bind_some]
  exact Option.map_eq_bind.symm

theorem first?_four {x : Nat} (hx : x < 8) (y z w : Nat) :
    first? (UInt8.ofNat (0xF0 + x) :: UInt8.ofNat (0x80 + y % 64) ::
      UInt8.ofNat (0x80 + z % 64) :: UInt8.ofNat (0x80 + w % 64) :: rest) =
      (scalar? 0x10000 (((x * 64 + y % 64) * 64 + z % 64) * 64 + w % 64)).map (·, 4) := by
  have hb := toNat_ofNat (by omega : 0xF0 + x < 256)
  simp only [first?, hb, tailBits?_tail, if_neg (by omega : ¬ 0xF0 + x < 0x80),
    if_neg (by omega : ¬ 0xF0 + x < 0xC0), if_neg (by omega : ¬ 0xF0 + x < 0xE0),
    if_neg (by omega : ¬ 0xF0 + x < 0xF0), if_pos (by omega : 0xF0 + x < 0xF8),
    Nat.add_sub_cancel_left, Option.bind_eq_bind, Option.bind_some]
  exact Option.map_eq_bind.symm

/-- What is read first is the character that was written first. -/
theorem first?_encodeChar (c : Char) :
    first? (encodeChar c ++ rest) = some (c, (encodeChar c).length) := by
  have hlt := toNat_lt c
  have hscalar : ∀ {low m k : Nat}, low ≤ c.toNat → m = c.toNat →
      (scalar? low m).map (·, k) = some (c, k) := by
    rintro low m k hlow rfl
    rw [scalar?_toNat hlow]
    rfl
  unfold encodeChar
  dsimp only
  split
  · exact (first?_one rest ‹_›).trans (hscalar (Nat.zero_le _) rfl)
  split
  · exact (first?_two rest (by omega) _).trans (hscalar (by omega) (by omega))
  split
  · exact (first?_three rest (by omega) _ _).trans (hscalar (by omega) (by omega))
  · exact (first?_four rest (by omega) _ _ _).trans (hscalar (by omega) (by omega))

theorem length_encodeChar_pos (c : Char) : 0 < (encodeChar c).length := by
  unfold encodeChar
  dsimp only
  split
  · exact Nat.succ_pos _
  split
  · exact Nat.succ_pos _
  split <;> exact Nat.succ_pos _

/-! ## Texts -/

theorem encode_cons (c : Char) (cs : List Char) :
    encode (c :: cs) = encodeChar c ++ encode cs := List.flatMap_cons

theorem decodeLoop_encode (cs : List Char) :
    ∀ {fuel index : Nat}, cs.length ≤ fuel → decodeLoop fuel index (encode cs) = .ok cs := by
  induction cs with
  | nil => intro fuel index _; cases fuel <;> rfl
  | cons c cs ih =>
    intro fuel index hfuel
    obtain ⟨fuel, rfl⟩ := Nat.exists_eq_add_of_lt (Nat.lt_of_lt_of_le (Nat.succ_pos _) hfuel)
    have hfirst := first?_encodeChar (encode cs) c
    have hdrop : (encodeChar c ++ encode cs).drop (encodeChar c).length = encode cs :=
      List.drop_left
    have hlength : cs.length ≤ 0 + fuel := by simp at hfuel; omega
    rw [encode_cons]
    cases hbytes : encodeChar c ++ encode cs with
    | nil => rw [hbytes] at hfirst; cases hfirst
    | cons b bs =>
      rw [hbytes] at hfirst hdrop
      unfold decodeLoop
      rw [hfirst]
      dsimp only
      rw [hdrop, ih hlength]
      rfl

theorem length_le_encode (cs : List Char) : cs.length ≤ (encode cs).length := by
  induction cs with
  | nil => exact Nat.le_refl _
  | cons c cs ih =>
    have := length_encodeChar_pos c
    rw [encode, List.flatMap_cons, List.length_append, List.length_cons]
    unfold encode at ih
    omega

/-- A text that was encoded is decoded as it is. -/
@[simp] theorem decode_encode (cs : List Char) : decode (encode cs) = .ok cs :=
  decodeLoop_encode cs (length_le_encode cs)

/-! ## Small bytes -/

theorem toNat_tail (n : Nat) : 0x80 ≤ (UInt8.ofNat (0x80 + n % 64)).toNat := by
  have hn : n % 64 < 64 := Nat.mod_lt _ (by decide)
  rw [toNat_ofNat (by omega)]
  omega

/-- A byte below 128 stands for itself. -/
theorem toNat_of_mem_encodeChar {c : Char} {b : UInt8} (hb : b ∈ encodeChar c)
    (h : b.toNat < 0x80) : c.toNat = b.toNat := by
  have hlt := toNat_lt c
  have htail : ∀ n, b ≠ UInt8.ofNat (0x80 + n % 64) := by
    rintro n rfl
    exact absurd h (Nat.not_lt.2 (toNat_tail n))
  have hlead : ∀ n, 0x80 ≤ n → n < 256 → b ≠ UInt8.ofNat n := by
    rintro n hn hn' rfl
    rw [toNat_ofNat hn'] at h
    omega
  unfold encodeChar at hb
  dsimp only at hb
  split at hb
  · rw [List.mem_singleton.1 hb, toNat_ofNat (by omega)]
  split at hb
  · have hb₁ := hlead (0xC0 + c.toNat / 64) (by omega) (by omega)
    simp only [List.mem_cons, List.not_mem_nil, htail, hb₁, or_self] at hb
  split at hb
  · have hb₁ := hlead (0xE0 + c.toNat / 64 ^ 2) (by omega) (by omega)
    simp only [List.mem_cons, List.not_mem_nil, htail, hb₁, or_self] at hb
  · have hb₁ := hlead (0xF0 + c.toNat / 64 ^ 3) (by omega) (by omega)
    simp only [List.mem_cons, List.not_mem_nil, htail, hb₁, or_self] at hb

/-- The first byte of a text belongs to its first character. -/
theorem mem_head?_encode {cs : List Char} {b : UInt8} (hb : b ∈ (encode cs).head?) :
    ∃ c ∈ cs.head?, b ∈ encodeChar c := by
  cases cs with
  | nil => cases hb
  | cons c cs =>
    have hne : encodeChar c ≠ [] := List.ne_nil_of_length_pos (length_encodeChar_pos c)
    rw [encode, List.flatMap_cons, List.head?_append,
      Option.or_of_isSome (List.isSome_head?.2 hne)] at hb
    exact ⟨c, rfl, List.mem_of_mem_head? hb⟩

/-- The last byte of a text belongs to its last character. -/
theorem mem_getLast?_encode {cs : List Char} {b : UInt8} (hb : b ∈ (encode cs).getLast?) :
    ∃ c ∈ cs.getLast?, b ∈ encodeChar c := by
  rcases List.eq_nil_or_concat cs with rfl | ⟨cs, c, rfl⟩
  · cases hb
  · have hne : encodeChar c ≠ [] := List.ne_nil_of_length_pos (length_encodeChar_pos c)
    rw [encode, List.concat_eq_append, List.flatMap_append, List.flatMap_singleton,
      List.getLast?_append, Option.or_of_isSome (by simpa using hne)] at hb
    exact ⟨c, by simp, List.mem_of_getLast? hb⟩

end Utf8

/-! ## Blanks -/

theorem toNat_lt_of_isAsciiBlank {b : UInt8} (h : isAsciiBlank b) : b.toNat < 0x80 := by
  simp only [isAsciiBlank, Bool.or_eq_true, beq_iff_eq] at h
  rcases h with (((rfl | rfl) | rfl) | rfl) | rfl <;> decide

/-- A byte that counts as blank belongs to a character that does. -/
theorem isBlank_of_mem_encodeChar {c : Char} {b : UInt8} (hb : b ∈ Utf8.encodeChar c)
    (h : isAsciiBlank b) : isBlank c := by
  have hc := Utf8.toNat_of_mem_encodeChar hb (toNat_lt_of_isAsciiBlank h)
  simp only [isAsciiBlank, Bool.or_eq_true, beq_iff_eq] at h
  unfold isBlank
  rw [hc]
  rcases h with (((rfl | rfl) | rfl) | rfl) | rfl <;> decide

/-- What has no blanks at its ends is not shortened as bytes either. -/
theorem trimBytes_encode {cs : List Char} (h : trim cs = cs) :
    trimBytes (Utf8.encode cs) = Utf8.encode cs := by
  have hblank : ∀ {c : Char} {b : UInt8}, b ∈ Utf8.encodeChar c → isBlank c = false →
      isAsciiBlank b = false := by
    intro c b hb hc
    rw [Bool.eq_false_iff] at hc ⊢
    exact fun hblank => hc (isBlank_of_mem_encodeChar hb hblank)
  refine trimEnds_eq_self (fun b hb => ?_) fun b hb => ?_
  · obtain ⟨c, hc, hb⟩ := Utf8.mem_head?_encode hb
    rw [← h] at hc
    exact hblank hb (head?_trimEnds c hc)
  · obtain ⟨c, hc, hb⟩ := Utf8.mem_getLast?_encode hb
    rw [← h] at hc
    exact hblank hb (getLast?_trimEnds c hc)

end CreditCircle.Text

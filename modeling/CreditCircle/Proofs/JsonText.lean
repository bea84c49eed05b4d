/-
  Reading back JSON.

  * `readString_escape`, `readText_writeText`: a text is read as it is written.
  * `Number.Proper`, `readNumber_write`: so is a number that is one.
  * `Json.Proper`: the values that have a text; `Json.Ends`: what may follow a value.
  * `read_write`: a value is read as it is written.
-/
import CreditCircle.Json.Reader
import CreditCircle.Json.Writer
import CreditCircle.Proofs.DigitRuns
import CreditCircle.Proofs.IdentifierText
import Mathlib.Tactic.IntervalCases

namespace CreditCircle.Json

open Text

variable {rest : List Char}

/-! ## Texts -/

/-- A character is read as it is escaped. -/
theorem readString_escape (c : Char) (tail : List Char) :
    readString (escape c ++ tail) = do
      let (ns, rest) ← readString tail
      return (c.toNat :: ns, rest) := by
  unfold escape
  split
  · rename_i h; subst h; rfl
  split
  · rename_i h; subst h; rfl
  split
  · rename_i h; rw [h]; rfl
  split
  · rename_i h; rw [h]; rfl
  split
  · rename_i h; rw [h]; rfl
  split
  · rename_i h; rw [h]; rfl
  split
  · rename_i h; rw [h]; rfl
  split
  · rename_i hsmall
    have hread := Identifier.hexNat?_hexFixed 4 c.toNat
    rw [Nat.mod_eq_of_lt (by omega)] at hread
    simp only [Identifier.hexFixed] at hread ⊢
    simp only [List.cons_append, List.nil_append, readString, hread]
    rfl
  · rename_i hquote hslash _ _ _ _ _ hlarge
    rw [List.singleton_append, readString.eq_def]
    split
    · rename_i heq; cases heq
    · rename_i heq; exact absurd (List.cons.inj heq).1 hquote
    · rename_i heq; exact absurd (List.cons.inj heq).1 hslash
    · rename_i heq; exact absurd (List.cons.inj heq).1 hslash
    · rename_i heq
      cases heq
      rw [if_neg hlarge]

/-- No character is half of a surrogate pair. -/
theorem not_surrogate (c : Char) : isHigh c.toNat = false ∧ isLow c.toNat = false := by
  have hvalid : c.toNat < 0xD800 ∨ 0xDFFF < c.toNat ∧ c.toNat < 0x110000 := c.valid
  simp only [isHigh, isLow, Bool.and_eq_false_iff, decide_eq_false_iff_not]
  omega

theorem joinPairs_toNat (cs : List Char) : joinPairs (cs.map Char.toNat) = some cs := by
  induction cs with
  | nil => rfl
  | cons c cs ih =>
    obtain ⟨hhigh, hlow⟩ := not_surrogate c
    cases cs with
    | nil =>
      rw [List.map_cons, List.map_nil, joinPairs, hhigh, hlow, Char.ofNat_toNat]
      rfl
    | cons d cs =>
      rw [List.map_cons, List.map_cons, joinPairs, hhigh, hlow, Char.ofNat_toNat,
        ← List.map_cons, ih]
      rfl

theorem readString_flatMap (cs rest : List Char) :
    readString (cs.flatMap escape ++ '"' :: rest) = some (cs.map Char.toNat, rest) := by
  induction cs with
  | nil => rfl
  | cons c cs ih =>
    rw [List.flatMap_cons, List.append_assoc, readString_escape, ih]
    rfl

/-- A text is read as it is written. -/
theorem readText_writeText (s : String) (rest : List Char) :
    ∃ cs, writeText (some s) ++ rest = '"' :: cs ∧ readText cs = some (some s, rest) := by
  refine ⟨s.toList.flatMap escape ++ '"' :: rest, ?_, ?_⟩
  · simp [writeText, quoted]
  · rw [readText, readString_flatMap, Option.bind_eq_bind, Option.bind_some]
    dsimp only
    rw [joinPairs_toNat, Option.map_some, String.ofList_toList]
    rfl

/-! ## Numbers -/

theorem readDigits_digits (ds : List Digit) (hrest : NoDigit rest) :
    readDigits (ds.map Digit.toChar ++ rest) = (ds, rest) := by
  induction ds with
  | nil =>
    cases rest with
    | nil => rfl
    | cons c rest => rw [List.map_nil, List.nil_append, readDigits, hrest c rfl]
  | cons d ds ih =>
    rw [List.map_cons, List.cons_append, readDigits, Digit.ofChar?_toChar]
    dsimp only
    rw [ih]

theorem readDigits₁_digits {ds : List Digit} (hne : ds ≠ []) (hrest : NoDigit rest) :
    readDigits₁ (ds.map Digit.toChar ++ rest) = some (ds, rest) := by
  unfold readDigits₁
  rw [readDigits_digits ds hrest]
  cases ds with
  | nil => exact absurd rfl hne
  | cons d ds => rfl

/-- The number has a text: digits, not beginning with a zero that is not the only one, and digits of
    an exponent, if there is one. -/
structure Number.Proper (n : Number) : Prop where
  whole : n.whole ≠ []
  zero : n.whole.head? = some 0 → n.whole.length = 1
  exponent : ∀ e ∈ n.exponent, e.2 ≠ []

/-- What may follow a value: nothing, or what separates or ends the values around it. -/
def Ends (cs : List Char) : Prop := ∀ c ∈ cs.head?, c = ',' ∨ c = ']' ∨ c = '\x7d'

theorem Ends.noDigit (h : Ends rest) : NoDigit rest := by
  intro c hc
  rcases h c hc with rfl | rfl | rfl <;> decide

variable {n : Number}

theorem readSigned_digits (negative : Bool) {ds : List Digit} (hne : ds ≠ [])
    (hrest : NoDigit rest) :
    readSigned ((if negative then ['-'] else []) ++ writeDigits ds ++ rest) =
      some (some (negative, ds), rest) := by
  have hread := readDigits₁_digits hne hrest
  obtain ⟨d, ds, rfl⟩ := List.exists_cons_of_ne_nil hne
  obtain ⟨hminus, hplus⟩ := d.toChar_ne
  cases negative with
  | true =>
    show (readDigits₁ (writeDigits (d :: ds) ++ rest)).map _ = _
    rw [writeDigits, hread]
    rfl
  | false =>
    unfold readSigned
    split
    rename_i hsign
    split at hsign
    · rename_i heq; exact absurd (List.cons.inj heq).1 hminus
    · rename_i heq; exact absurd (List.cons.inj heq).1 hplus
    · cases hsign
      show (readDigits₁ (writeDigits (d :: ds) ++ rest)).map _ = _
      rw [writeDigits, hread]
      rfl

theorem readExponent_write (h : n.Proper) (hrest : Ends rest) :
    readExponent (n.writeExponent ++ rest) = some (n.exponent, rest) := by
  unfold Number.writeExponent
  split
  · rename_i he
    rw [he, List.nil_append]
    unfold readExponent
    split
    · exact absurd (hrest 'e' rfl) (by decide)
    · exact absurd (hrest 'E' rfl) (by decide)
    · rfl
  · rename_i negative ds he
    have hne : ds ≠ [] := h.exponent (negative, ds) he
    rw [he]
    exact readSigned_digits negative hne hrest.noDigit

theorem noDigit_writeExponent (hrest : Ends rest) :
    NoDigit (n.writeExponent ++ rest) ∧ (n.writeExponent ++ rest).head? ≠ some '.' := by
  unfold Number.writeExponent
  split
  · exact ⟨hrest.noDigit, fun h => absurd (hrest '.' h) (by decide)⟩
  · exact ⟨noDigit_cons (by decide) _, by simp⟩

theorem readFraction_write {tail : List Char} (htail : NoDigit tail)
    (hpoint : tail.head? ≠ some '.') :
    readFraction (n.writeFraction ++ tail) = some (n.fraction, tail) := by
  unfold Number.writeFraction
  split
  · rename_i hf
    rw [hf, List.nil_append]
    unfold readFraction
    split
    · exact absurd rfl hpoint
    · rfl
  · rename_i hf
    exact readDigits₁_digits hf htail

theorem noDigit_writeFraction {tail : List Char} (htail : NoDigit tail) :
    NoDigit (n.writeFraction ++ tail) := by
  unfold Number.writeFraction
  split
  · exact htail
  · exact noDigit_cons (by decide) _

theorem readWhole_write (h : n.Proper) {tail : List Char} (htail : NoDigit tail) :
    readWhole (writeDigits n.whole ++ tail) = some (n.whole, tail) := by
  have hkept : ¬ (n.whole.head? = some 0 ∧ n.whole.length ≠ 1) := fun hz => hz.2 (h.zero hz.1)
  rw [readWhole, writeDigits, readDigits₁_digits h.whole htail, Option.bind_eq_bind,
    Option.bind_some]
  exact if_neg hkept

theorem readNumber_of_sign (negative : Bool) {cs : List Char} {d : Digit}
    (hcs : cs.head? = some d.toChar) :
    readNumber ((if negative then ['-'] else []) ++ cs) = do
      let (whole, cs) ← readWhole cs
      let (fraction, cs) ← readFraction cs
      let (exponent, cs) ← readExponent cs
      return (⟨negative, whole, fraction, exponent⟩, cs) := by
  cases negative with
  | true => rfl
  | false =>
    obtain ⟨cs, rfl⟩ := List.head?_eq_some_iff.1 hcs
    unfold readNumber
    split
    rename_i hsign
    split at hsign
    · rename_i heq; exact absurd (List.cons.inj heq).1 d.toChar_ne.1
    · cases hsign
      rfl

/-- A number is read as it is written. -/
theorem readNumber_write (h : n.Proper) (hrest : Ends rest) :
    readNumber (n.write ++ rest) = some (n, rest) := by
  obtain ⟨hexponent, hpoint⟩ := noDigit_writeExponent (n := n) hrest
  have hfraction := noDigit_writeFraction (n := n) hexponent
  obtain ⟨d, ds, hwhole⟩ := List.exists_cons_of_ne_nil h.whole
  have htext : n.write ++ rest = (if n.negative then ['-'] else []) ++
      (writeDigits n.whole ++ (n.writeFraction ++ (n.writeExponent ++ rest))) := by
    simp only [Number.write, List.append_assoc]
  have hhead : (writeDigits n.whole ++
      (n.writeFraction ++ (n.writeExponent ++ rest))).head? = some d.toChar := by
    rw [hwhole]
    rfl
  rw [htext, readNumber_of_sign _ hhead, readWhole_write h hfraction, Option.bind_eq_bind,
    Option.bind_some]
  dsimp only
  rw [readFraction_write hexponent hpoint, Option.bind_some]
  dsimp only
  rw [readExponent_write h hrest]
  rfl

/-! ## Values -/

/-- The value has a text: its texts are strings, and its numbers are proper ones. -/
inductive Proper : Json → Prop
  | null : Proper null
  | bool (b : Bool) : Proper (bool b)
  | number {n : Number} (h : n.Proper) : Proper (number n)
  | string (s : String) : Proper (string s)
  | array {items : List Json} (h : ∀ item ∈ items, Proper item) : Proper (array items)
  | object {members : List (JsonText × Json)} (hk : ∀ m ∈ members, m.1.isSome)
      (hv : ∀ m ∈ members, Proper m.2) : Proper (object members)

theorem skipGaps_cons {c : Char} (h : isGap c = false) (cs : List Char) :
    skipGaps (c :: cs) = c :: cs :=
  List.dropWhile_cons_of_neg (by rw [h]; decide)

theorem not_gap_toChar (d : Digit) : isGap d.toChar = false ∧ d.toChar ≠ ']' := by
  revert d
  decide

theorem exists_write {j : Json} (h : j.Proper) :
    ∃ c cs, j.write = c :: cs ∧ isGap c = false ∧ c ≠ ']' := by
  cases h with
  | null => exact ⟨_, _, rfl, by decide, by decide⟩
  | bool b => cases b <;> exact ⟨_, _, rfl, by decide, by decide⟩
  | @number n h =>
    obtain ⟨d, ds, hwhole⟩ := List.exists_cons_of_ne_nil h.whole
    obtain ⟨hgap, hbracket⟩ := not_gap_toChar d
    unfold write Number.write
    rw [hwhole]
    cases n.negative with
    | true => exact ⟨_, _, rfl, by decide, by decide⟩
    | false => exact ⟨_, _, rfl, hgap, hbracket⟩
  | string s => exact ⟨_, _, rfl, by decide, by decide⟩
  | @array items h => cases items <;> exact ⟨_, _, rfl, by decide, by decide⟩
  | @object members hk hv => cases members <;> exact ⟨_, _, rfl, by decide, by decide⟩

/-- With enough fuel, the value is read from its text, whatever stands behind it. -/
def Reads (j : Json) : Prop :=
  ∀ fuel rest, 2 * j.write.length ≤ fuel → Ends rest →
    readValue fuel (j.write ++ rest) = some (j, rest)

theorem ends_writeItems (items : List Json) (rest : List Char) :
    Ends (writeItems items ++ rest) := by
  cases items with
  | nil => intro c hc; cases hc; exact .inr (.inl rfl)
  | cons item items => intro c hc; cases hc; exact .inl rfl

theorem ends_writeMembers (members : List (JsonText × Json)) (rest : List Char) :
    Ends (writeMembers members ++ rest) := by
  cases members with
  | nil => intro c hc; cases hc; exact .inr (.inr rfl)
  | cons m members => intro c hc; cases hc; exact .inl rfl

theorem readItems_write (rest : List Char) (items : List Json) :
    ∀ (item : Json) (fuel : Nat), (∀ i ∈ item :: items, Reads i) →
      2 * (item.write ++ writeItems items).length ≤ fuel →
        readItems fuel (item.write ++ (writeItems items ++ rest)) = some (item :: items, rest) := by
  induction items with
  | nil =>
    intro item fuel h hfuel
    simp only [List.length_append, writeItems, List.length_singleton] at hfuel
    obtain ⟨fuel, rfl⟩ : ∃ f, fuel = f + 1 := ⟨fuel - 1, by omega⟩
    rw [readItems, h item (.head _) fuel _ (by omega) (ends_writeItems _ _)]
    rfl
  | cons next items ih =>
    intro item fuel h hfuel
    simp only [List.length_append, List.length_cons, writeItems, List.cons_append] at hfuel
    obtain ⟨fuel, rfl⟩ : ∃ f, fuel = f + 1 := ⟨fuel - 1, by omega⟩
    have hrest := ih next fuel (fun i hi => h i (.tail _ hi)) (by
      rw [List.length_append]; omega)
    rw [readItems, h item (.head _) fuel _ (by omega) (ends_writeItems _ _)]
    show (readItems fuel (next.write ++ writeItems items ++ rest) >>= _) = _
    rw [List.append_assoc, hrest]
    rfl

/-- The parts of a member are read one after the other. -/
theorem exists_writeMember {value : Json} (h : Reads value) (key : String) (fuel : Nat)
    {tail : List Char} (hfuel : 2 * (writeMember (some key, value)).length ≤ fuel + 1)
    (htail : Ends tail) :
    ∃ cs, writeMember (some key, value) ++ tail = '"' :: cs ∧
      readText cs = some (some key, ':' :: (value.write ++ tail)) ∧
      readValue fuel (value.write ++ tail) = some (value, tail) := by
  simp only [writeMember, List.length_append, List.length_cons] at hfuel
  obtain ⟨cs, hcs, hkey⟩ := readText_writeText key (':' :: (value.write ++ tail))
  refine ⟨cs, ?_, hkey, h fuel tail (by omega) htail⟩
  rw [writeMember, List.append_assoc, List.cons_append, hcs]

theorem readMembers_write (rest : List Char) (members : List (JsonText × Json)) :
    ∀ (key : String) (value : Json) (fuel : Nat),
      (∀ m ∈ (some key, value) :: members, m.1.isSome ∧ Reads m.2) →
      2 * (writeMember (some key, value) ++ writeMembers members).length ≤ fuel →
        readMembers fuel (writeMember (some key, value) ++ (writeMembers members ++ rest)) =
          some ((some key, value) :: members, rest) := by
  induction members with
  | nil =>
    intro key value fuel h hfuel
    have hreads : Reads value := (h _ (.head _)).2
    simp only [List.length_append, List.length_singleton, writeMembers] at hfuel
    obtain ⟨fuel, rfl⟩ : ∃ f, fuel = f + 1 := ⟨fuel - 1, by omega⟩
    obtain ⟨cs, hcs, hkey, hvalue⟩ := exists_writeMember hreads key fuel (by omega)
      (ends_writeMembers [] rest)
    rw [hcs, readMembers]
    show (readText cs >>= _) = _
    rw [hkey]
    show (readValue fuel (value.write ++ (writeMembers [] ++ rest)) >>= _) = _
    rw [hvalue]
    rfl
  | cons next members ih =>
    intro key value fuel h hfuel
    obtain ⟨key', value'⟩ := next
    obtain ⟨name, rfl⟩ := Option.isSome_iff_exists.1 (h (key', value') (.tail _ (.head _))).1
    have hreads : Reads value := (h _ (.head _)).2
    simp only [List.length_append, List.length_cons, writeMembers, List.cons_append] at hfuel
    obtain ⟨fuel, rfl⟩ : ∃ f, fuel = f + 1 := ⟨fuel - 1, by omega⟩
    obtain ⟨cs, hcs, hkey, hvalue⟩ := exists_writeMember hreads key fuel (by omega)
      (ends_writeMembers ((some name, value') :: members) rest)
    have hrest := ih name value' fuel (fun m hm => h m (.tail _ hm)) (by
      rw [List.length_append]; omega)
    rw [hcs, readMembers]
    show (readText cs >>= _) = _
    rw [hkey]
    show (readValue fuel
      (value.write ++ (writeMembers ((some name, value') :: members) ++ rest)) >>= _) = _
    rw [hvalue]
    show (readMembers fuel
      (writeMember (some name, value') ++ writeMembers members ++ rest) >>= _) = _
    rw [List.append_assoc, hrest]
    rfl

/-! ## The whole -/

theorem readValue_number (fuel : Nat) {c : Char} (cs : List Char)
    (hc : c = '-' ∨ ∃ d : Digit, c = d.toChar) :
    readValue (fuel + 1) (c :: cs) =
      (readNumber (c :: cs)).map fun p => (.number p.1, p.2) := by
  rcases hc with rfl | ⟨d, rfl⟩
  · rfl
  · obtain ⟨d, hd⟩ := d
    interval_cases d <;> rfl

theorem readValue_array (fuel : Nat) {c : Char} {cs : List Char} (hgap : isGap c = false)
    (hc : c ≠ ']') :
    readValue (fuel + 1) ('[' :: c :: cs) =
      (readItems fuel (c :: cs)).map fun p => (.array p.1, p.2) := by
  rw [readValue, skipGaps_cons (by decide)]
  simp only [skipGaps_cons hgap]
  split
  · rename_i heq; exact absurd (List.cons.inj heq).1 hc
  · rfl

theorem reads_of_succ {j : Json} (hj : j.Proper)
    (h : ∀ fuel rest, 2 * j.write.length ≤ fuel + 1 → Ends rest →
      readValue (fuel + 1) (j.write ++ rest) = some (j, rest)) : Reads j := by
  intro fuel rest hfuel hrest
  obtain ⟨c, cs, hwrite, -, -⟩ := exists_write hj
  have hpos : 0 < j.write.length := by rw [hwrite]; exact Nat.succ_pos _
  obtain ⟨fuel, rfl⟩ : ∃ f, fuel = f + 1 := ⟨fuel - 1, by omega⟩
  exact h fuel rest hfuel hrest

theorem reads_of_proper {j : Json} (h : j.Proper) : Reads j := by
  induction h with
  | null => exact reads_of_succ Proper.null fun fuel rest _ _ => rfl
  | bool b =>
    refine reads_of_succ (Proper.bool b) fun fuel rest _ _ => ?_
    cases b with
    | false => rfl
    | true => rfl
  | @number n h =>
    refine reads_of_succ (Proper.number h) fun fuel rest _ hrest => ?_
    obtain ⟨d, ds, hwhole⟩ := List.exists_cons_of_ne_nil h.whole
    obtain ⟨c, cs, hwrite, hc⟩ :
        ∃ c cs, n.write ++ rest = c :: cs ∧ (c = '-' ∨ ∃ d : Digit, c = d.toChar) := by
      unfold Number.write
      rw [hwhole]
      cases n.negative with
      | true => exact ⟨_, _, rfl, .inl rfl⟩
      | false => exact ⟨_, _, rfl, .inr ⟨d, rfl⟩⟩
    rw [write, hwrite, readValue_number _ _ hc, ← hwrite, readNumber_write h hrest]
    rfl
  | string s =>
    refine reads_of_succ (Proper.string s) fun fuel rest _ _ => ?_
    obtain ⟨cs, hcs, hread⟩ := readText_writeText s rest
    rw [Json.string, write, hcs, readValue]
    show (readText cs).map _ = _
    rw [hread]
    rfl
  | @array items h ih =>
    refine reads_of_succ (Proper.array h) fun fuel rest hfuel _ => ?_
    cases items with
    | nil => rfl
    | cons item items =>
      obtain ⟨c, cs, hwrite, hgap, hbracket⟩ := exists_write (h item (.head _))
      simp only [write, List.cons_append, List.length_cons] at hfuel
      have hitems := readItems_write rest items item fuel ih (by omega)
      rw [write, List.cons_append, List.cons_append, List.append_assoc]
      rw [hwrite, List.cons_append, readValue_array fuel hgap hbracket, ← List.cons_append,
        ← hwrite, hitems]
      rfl
  | @object members hk hv ih =>
    refine reads_of_succ (Proper.object hk hv) fun fuel rest hfuel _ => ?_
    cases members with
    | nil => rfl
    | cons m members =>
      obtain ⟨key, value⟩ := m
      obtain ⟨name, rfl⟩ := Option.isSome_iff_exists.1 (hk (key, value) (.head _))
      simp only [write, List.cons_append, List.length_cons] at hfuel
      have hmembers := readMembers_write rest members name value fuel
        (fun m hm => ⟨hk m hm, ih m hm⟩) (by omega)
      obtain ⟨cs, hcs, -⟩ := readText_writeText name
        (':' :: (value.write ++ (writeMembers members ++ rest)))
      have htext :
          writeMember (some name, value) ++ (writeMembers members ++ rest) = '"' :: cs := by
        rw [writeMember, List.append_assoc, List.cons_append, hcs]
      rw [write, List.cons_append, List.cons_append, List.append_assoc, htext]
      show (readMembers fuel ('"' :: cs)).map _ = _
      rw [← htext, hmembers]
      rfl

/-- A value is read as it is written. -/
theorem read_write {j : Json} (h : j.Proper) : read j.write = some j := by
  have hread := reads_of_proper h (2 * j.write.length + 2) [] (Nat.le_add_right _ _) nofun
  rw [List.append_nil] at hread
  rw [read, hread]
  rfl

theorem ofString?_render {j : Json} (h : j.Proper) : ofString? j.render = some j := by
  rw [ofString?, render, String.toList_ofList, read_write h]

end CreditCircle.Json

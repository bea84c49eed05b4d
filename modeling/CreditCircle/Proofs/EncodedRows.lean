/-
  The rows of UTF-8 texts.

  * `IsText`: bytes that encode a text; they still do without the blanks at their ends.
  * `Reading.Texts`, `isText_of_mem_records`: characters are read as wholes, so that the fields of
    a text are texts.
  * `eq_of_mark`: a text that begins with a mark begins with its character.
  * `headerNames_eq`, `rowTexts_eq`: rows of such fields can be read.
-/
import CreditCircle.Proofs.CsvReading
import CreditCircle.Proofs.ScriptRows
import CreditCircle.Proofs.Utf8RoundTrip

namespace CreditCircle

namespace Text

namespace Utf8

/-! ## Characters -/

theorem encode_append (cs cs' : List Char) : encode (cs ++ cs') = encode cs ++ encode cs' :=
  List.flatMap_append

theorem encode_singleton (c : Char) : encode [c] = encodeChar c := List.flatMap_singleton ..

/-- A byte below 128 is a character of its own. -/
theorem encodeChar_of_small {c : Char} {b : UInt8} (hb : b ∈ encodeChar c) (h : b.toNat < 0x80) :
    encodeChar c = [b] := by
  have hc := toNat_of_mem_encodeChar hb h
  unfold encodeChar
  dsimp only
  rw [if_pos (by omega), hc, UInt8.ofNat_toNat]

/-- A text that begins with a mark begins with the character of the mark. -/
theorem eq_of_mark {cs : List Char} {rest : List UInt8} (hrest : 0xEF ∉ rest.head?)
    (h : Csv.byteOrderMark <+: encode cs ++ rest) : ∃ cs', cs = '\uFEFF' :: cs' := by
  obtain ⟨after, hafter⟩ := h
  cases cs with
  | nil =>
    have hrest' : rest = Csv.byteOrderMark ++ after := hafter.symm
    exact absurd (by rw [hrest']; rfl) hrest
  | cons c cs =>
    have hfirst := first?_encodeChar (encode cs ++ rest) c
    have hmark := first?_encodeChar after '\uFEFF'
    rw [show encodeChar '\uFEFF' = Csv.byteOrderMark from by decide, hafter, encode_cons,
      List.append_assoc, hfirst, Option.some.injEq, Prod.mk.injEq] at hmark
    exact ⟨cs, by rw [hmark.1]⟩

end Utf8

/-! ## Texts as bytes -/

/-- The bytes are those of a text. -/
def IsText (bs : List UInt8) : Prop := ∃ cs, bs = Utf8.encode cs

theorem isText_nil : IsText [] := ⟨[], rfl⟩

theorem IsText.append {bs bs' : List UInt8} (h : IsText bs) (h' : IsText bs') :
    IsText (bs ++ bs') := by
  obtain ⟨cs, rfl⟩ := h
  obtain ⟨cs', rfl⟩ := h'
  exact ⟨cs ++ cs', (Utf8.encode_append cs cs').symm⟩

theorem isText_dropWhile (cs : List Char) :
    IsText ((Utf8.encode cs).dropWhile isAsciiBlank) := by
  induction cs with
  | nil => exact isText_nil
  | cons c cs ih =>
    rw [Utf8.encode_cons]
    cases hc : Utf8.encodeChar c with
    | nil => exact absurd (Utf8.length_encodeChar_pos c) (by rw [hc]; exact Nat.lt_irrefl 0)
    | cons b bs =>
      by_cases hb : isAsciiBlank b
      · have hmem : b ∈ Utf8.encodeChar c := by rw [hc]; exact List.mem_cons_self
        have hone := Utf8.encodeChar_of_small hmem (toNat_lt_of_isAsciiBlank hb)
        rw [← hc, hone, List.singleton_append, List.dropWhile_cons_of_pos hb]
        exact ih
      · rw [List.cons_append, List.dropWhile_cons_of_neg hb, ← List.cons_append, ← hc]
        exact ⟨c :: cs, rfl⟩

theorem isText_reverse_dropWhile (cs : List Char) :
    IsText ((Utf8.encode cs).reverse.dropWhile isAsciiBlank).reverse := by
  induction cs using List.reverseRecOn with
  | nil => exact isText_nil
  | append_singleton cs c ih =>
    rw [Utf8.encode_append, Utf8.encode_singleton, List.reverse_append]
    cases hc : (Utf8.encodeChar c).reverse with
    | nil =>
      rw [List.reverse_eq_nil_iff] at hc
      exact absurd (Utf8.length_encodeChar_pos c) (by rw [hc]; exact Nat.lt_irrefl 0)
    | cons b bs =>
      by_cases hb : isAsciiBlank b
      · have hmem : b ∈ Utf8.encodeChar c := by
          rw [← List.mem_reverse, hc]
          exact List.mem_cons_self
        have hone := Utf8.encodeChar_of_small hmem (toNat_lt_of_isAsciiBlank hb)
        rw [← hc, hone, List.reverse_singleton, List.singleton_append,
          List.dropWhile_cons_of_pos hb]
        exact ih
      · rw [List.cons_append, List.dropWhile_cons_of_neg hb, ← List.cons_append, ← hc,
          ← List.reverse_append, List.reverse_reverse]
        exact ⟨cs ++ [c], by rw [Utf8.encode_append, Utf8.encode_singleton]⟩

/-- Without the blanks at its ends, a text is a text. -/
theorem IsText.trimBytes {bs : List UInt8} (h : IsText bs) : IsText (trimBytes bs) := by
  obtain ⟨cs, rfl⟩ := h
  obtain ⟨cs', hcs'⟩ := isText_dropWhile cs
  unfold Text.trimBytes trimEnds
  rw [hcs']
  exact isText_reverse_dropWhile cs'

end Text

/-! ## Fields -/

namespace Csv

open Text

namespace Reading

variable {r r' : Reading} {b : UInt8}

/-- What has been read are texts. -/
structure Texts (r : Reading) : Prop where
  field : IsText r.field.reverse
  fields : ∀ field ∈ r.fields, IsText field
  rows : ∀ row ∈ r.rows, ∀ field ∈ row.fields, IsText field

theorem Texts.endRecord (h : r.Texts) (next : State) : (r.endRecord next).Texts := by
  refine ⟨isText_nil, nofun, ?_⟩
  simp only [Reading.endRecord, List.forall_mem_cons, List.mem_reverse]
  exact ⟨⟨h.field, h.fields⟩, h.rows⟩

/-- A byte belongs to the field, or it is a character of its own and what has been read are still
    texts. -/
theorem Moves.texts (hm : r.Moves b r') :
    (r'.field = b :: r.field ∧ r'.fields = r.fields ∧ r'.rows = r.rows) ∨
      b.toNat < 0x80 ∧ (r.Texts → r'.Texts) := by
  have hsmall : isTerminator b = true → b.toNat < 0x80 := by
    intro hb
    simp only [isTerminator, Bool.or_eq_true, beq_iff_eq] at hb
    rcases hb with rfl | rfl <;> decide
  cases hm with
  | skip hs hb => exact .inr ⟨hsmall hb, fun h => ⟨h.field, h.fields, h.rows⟩⟩
  | keep | quoted => exact .inl ⟨rfl, rfl, rfl⟩
  | openQuote hs hb | closeQuote hs hb =>
    subst hb
    exact .inr ⟨by decide, fun h => ⟨h.field, h.fields, h.rows⟩⟩
  | comma hs hb =>
    subst hb
    exact .inr ⟨by decide, fun h =>
      ⟨isText_nil, List.forall_mem_cons.2 ⟨h.field, h.fields⟩, h.rows⟩⟩
  | record hs hb hn =>
    refine .inr ⟨hsmall hb, fun h => Texts.endRecord ?_ _⟩
    exact ⟨h.field, h.fields, h.rows⟩

/-- Large bytes belong to the field. -/
theorem feed_large {bs : List UInt8} (h : ∀ b ∈ bs, 0x80 ≤ b.toNat) : ∀ r : Reading,
    (r.feed bs).field = bs.reverse ++ r.field ∧ (r.feed bs).fields = r.fields ∧
      (r.feed bs).rows = r.rows := by
  induction bs with
  | nil => exact fun r => ⟨rfl, rfl, rfl⟩
  | cons b bs ih =>
    intro r
    rw [List.forall_mem_cons] at h
    obtain ⟨hfield, hfields, hrows⟩ := ih h.2 (r.step b)
    rcases (step_moves r b).texts with ⟨hfield', hfields', hrows'⟩ | ⟨hb, -⟩
    · rw [feed_cons, hfield, hfields, hrows, hfield', hfields', hrows', List.reverse_cons,
        List.append_assoc]
      exact ⟨rfl, rfl, rfl⟩
    · exact absurd h.1 (Nat.not_le.2 hb)

theorem Texts.feed_encodeChar (h : r.Texts) (c : Char) : (r.feed (Utf8.encodeChar c)).Texts := by
  have hkeep : ∀ {r' : Reading}, r'.field = (Utf8.encodeChar c).reverse ++ r.field →
      r'.fields = r.fields → r'.rows = r.rows → r'.Texts := by
    intro r' hfield hfields hrows
    refine ⟨?_, hfields ▸ h.fields, hrows ▸ h.rows⟩
    rw [hfield, List.reverse_append, List.reverse_reverse]
    exact h.field.append ⟨[c], (Utf8.encode_singleton c).symm⟩
  by_cases hsmall : ∃ b ∈ Utf8.encodeChar c, b.toNat < 0x80
  · obtain ⟨b, hb, hsmall⟩ := hsmall
    have hone := Utf8.encodeChar_of_small hb hsmall
    rw [hone] at hkeep ⊢
    rcases (step_moves r b).texts with ⟨hfield, hfields, hrows⟩ | ⟨-, htexts⟩
    · exact hkeep hfield hfields hrows
    · exact htexts h
  · have hlarge : ∀ b ∈ Utf8.encodeChar c, 0x80 ≤ b.toNat :=
      fun b hb => Nat.not_lt.1 fun hb' => hsmall ⟨b, hb, hb'⟩
    obtain ⟨hfield, hfields, hrows⟩ := feed_large hlarge r
    exact hkeep hfield hfields hrows

theorem Texts.feed_encode (cs : List Char) : ∀ {r : Reading}, r.Texts →
    (r.feed (Utf8.encode cs)).Texts := by
  induction cs with
  | nil => exact id
  | cons c cs ih =>
    intro r h
    rw [Utf8.encode_cons, feed_append]
    exact ih (h.feed_encodeChar c)

theorem Texts.finish (h : r.Texts) : r.finish.Texts := by
  unfold Reading.finish
  split
  · exact h
  · exact h
  · exact h.endRecord _

end Reading

/-- The fields of a text are texts. -/
theorem isText_of_mem_records {cs : List Char} {row : Row} (hrow : row ∈ records (Utf8.encode cs)) :
    ∀ field ∈ row.fields, IsText field := by
  have hstart : (start (Utf8.encode cs)).1.Texts ∧ IsText (start (Utf8.encode cs)).2 := by
    cases hmark : byteOrderMark.isPrefixOf (Utf8.encode cs) with
    | true =>
      rw [List.isPrefixOf_iff_prefix, ← List.append_nil (Utf8.encode cs)] at hmark
      obtain ⟨cs', rfl⟩ := Utf8.eq_of_mark (by decide) hmark
      rw [show Utf8.encode ('\uFEFF' :: cs') = byteOrderMark ++ Utf8.encode cs' from
        Utf8.encode_cons _ _, start_marked]
      exact ⟨⟨isText_nil, nofun, nofun⟩, cs', rfl⟩
    | false =>
      rw [start_unmarked hmark]
      exact ⟨⟨isText_nil, nofun, nofun⟩, cs, rfl⟩
  obtain ⟨htexts, cs', hcs'⟩ := hstart
  rw [records_eq, List.mem_reverse, read, hcs'] at hrow
  exact (htexts.feed_encode cs').finish.rows row hrow

end Csv

/-! ## Rows -/

namespace Script

open Text

/-- The text of a field. -/
def fieldText (field : List UInt8) : String :=
  match Utf8.decode field with
  | .ok cs => String.ofList (trim cs)
  | .error _ => ""

theorem fieldText_encode (cs : List Char) :
    fieldText (Utf8.encode cs) = String.ofList (trim cs) := by
  rw [fieldText, Utf8.decode_encode]

theorem textsFrom_eq (position : Csv.Position) {fields : List (List UInt8)} : ∀ {index : Nat},
    (∀ field ∈ fields, IsText field) →
      textsFrom position index fields = .ok (fields.map fieldText) := by
  induction fields with
  | nil => exact fun _ => rfl
  | cons field fields ih =>
    intro index h
    rw [List.forall_mem_cons] at h
    obtain ⟨⟨cs, rfl⟩, hrest⟩ := h
    refine textsFrom_cons_eq_ok_iff.2 ⟨cs, _, Utf8.decode_encode cs, ih hrest, ?_⟩
    rw [List.map_cons, fieldText_encode]

theorem headerNames_eq {row : Csv.Row} (h : ∀ field ∈ row.fields, IsText field) :
    headerNames row = .ok (row.fields.map fieldText) := textsFrom_eq _ h

theorem rowTexts_eq {row : Csv.Row} (h : ∀ field ∈ row.fields, IsText field) :
    rowTexts row = .ok (row.fields.map fun field => fieldText (trimBytes field)) := by
  rw [rowTexts, textsFrom_eq, List.map_map]
  · rfl
  · intro field hfield
    obtain ⟨field, hmem, rfl⟩ := List.mem_map.1 hfield
    exact (h field hmem).trimBytes

end Script
end CreditCircle

/-
  Reading a text in parts.

  * `Reading.Behind`: reading goes on behind whole records as at the start of a text.
  * `map_fields_records_append`: the records of two texts, one behind the other.
  * `EndsRecord`: a part of a text that ends with the end of a record.
  * `Reading.At.line`, `Reading.At.lineBreak`: a line without quotes is a record.
-/
import CreditCircle.Proofs.CsvReading

namespace CreditCircle.Csv

namespace Reading

/-! ## Behind whole records -/

/-- The second reading has begun behind some records and is otherwise the same, positions aside. -/
structure Behind (base : List (List (List UInt8))) (r r' : Reading) : Prop where
  state : r'.state = r.state ∨ Between r'.state ∧ Between r.state
  field : r'.field = r.field
  fields : r'.fields = r.fields
  rows : r'.rows.map Row.fields = r.rows.map Row.fields ++ base

theorem Tidy.behind {r : Reading} (h : r.Tidy) (hs : Between r.state) :
    Behind (r.rows.map Row.fields) {} r :=
  ⟨.inr ⟨hs, .inl rfl⟩, h.field (hs.imp_right .inl), h.fields hs, rfl⟩

namespace Behind

variable {base : List (List (List UInt8))} {r r' : Reading} (h : Behind base r r') (b : UInt8)
include h

theorem count : Behind base (r.count b) (r'.count b) := ⟨h.state, h.field, h.fields, h.rows⟩

theorem endRecord (next : State) : Behind base (r.endRecord next) (r'.endRecord next) := by
  refine ⟨.inl rfl, rfl, rfl, ?_⟩
  simp only [Reading.endRecord, h.field, h.fields, h.rows, List.map_cons, List.cons_append]

theorem plain : Behind base (r.plain b) (r'.plain b) := by
  unfold Reading.plain
  split
  · refine ⟨.inl rfl, rfl, ?_, h.rows⟩
    simp only [endField, h.field, h.fields]
  split
  · exact h.endRecord _
  split
  · exact h.endRecord _
  · exact ⟨.inl rfl, congrArg (b :: ·) h.field, h.fields, h.rows⟩

theorem first : Behind base (r.first b) (r'.first b) := by
  unfold Reading.first
  split
  · exact ⟨.inl rfl, h.field, h.fields, h.rows⟩
  · exact h.plain b

theorem between : Behind base (r.between b) (r'.between b) := by
  unfold Reading.between
  split
  · exact ⟨.inl rfl, h.field, h.fields, h.rows⟩
  · exact h.first b

/-- What a byte does depends on the state only as far as the two are the same. -/
theorem step : Behind base (r.step b) (r'.step b) := by
  have hc := h.count b
  have hfield : b :: (r'.count b).field = b :: (r.count b).field := congrArg (b :: ·) hc.field
  unfold Reading.step
  dsimp only
  rcases hc.state with hs | ⟨hs', hs⟩
  · rw [hs]
    cases hst : (r.count b).state with
    | recordStart => exact hc.between b
    | afterReturn => exact hc.between b
    | fieldStart => exact hc.first b
    | inField => exact hc.plain b
    | inQuotes =>
      dsimp only
      split
      · exact ⟨.inl rfl, hc.field, hc.fields, hc.rows⟩
      · exact ⟨.inl rfl, hfield, hc.fields, hc.rows⟩
    | afterQuote =>
      dsimp only
      split
      · exact ⟨.inl rfl, hfield, hc.fields, hc.rows⟩
      · exact hc.plain b
  · rcases hs with hs | hs <;> rcases hs' with hs' | hs' <;> rw [hs, hs'] <;> exact hc.between b

omit b in
theorem feed (bs : List UInt8) : Behind base (r.feed bs) (r'.feed bs) := by
  induction bs generalizing r r' with
  | nil => exact h
  | cons b bs ih => exact ih (h.step b)

omit b in
theorem finish : r'.finish.rows.map Row.fields = r.finish.rows.map Row.fields ++ base := by
  unfold Reading.finish
  rcases h.state with hs | ⟨hs', hs⟩
  · rw [hs]
    cases r.state with
    | recordStart | afterReturn => exact h.rows
    | _ => exact (h.endRecord _).rows
  · rcases hs with hs | hs <;> rcases hs' with hs' | hs' <;> rw [hs, hs'] <;> exact h.rows

end Behind

end Reading

open Reading (Between Ended Open)

/-- The records of some bytes that stand behind others. -/
def recordsBehind (bs : List UInt8) : List (List (List UInt8)) :=
  ((({} : Reading).feed bs).finish.rows.map Row.fields).reverse

/-- Behind whole records, the records of the rest follow. -/
theorem map_fields_records_append {bs : List UInt8} (hs : Between (read bs).state)
    (h : ∃ b ∈ bs, b ∉ byteOrderMark) (bs' : List UInt8) :
    (records (bs ++ bs')).map Row.fields = (records bs).map Row.fields ++ recordsBehind bs' := by
  have hbehind := ((read_tidy bs).behind hs).feed bs'
  rw [records_eq, records_eq, read_append h, Reading.finish_of_between hs, List.map_reverse,
    hbehind.finish, List.reverse_append, List.map_reverse]
  rfl

/-- A part of a text that is empty or ends with the end of a record. -/
def EndsRecord (before bs : List UInt8) : Prop :=
  bs = [] ∨ ∃ bs' b, bs = bs' ++ [b] ∧ isTerminator b = true ∧
    (read (before ++ bs')).state ≠ .inQuotes

theorem EndsRecord.between {before bs : List UInt8} (h : EndsRecord before bs)
    (hs : Between (read before).state) (hmark : ∃ b ∈ before, b ∉ byteOrderMark) :
    Between (read (before ++ bs)).state := by
  obtain rfl | ⟨bs', b, rfl, hb, hquotes⟩ := h
  · rwa [List.append_nil]
  · obtain ⟨b', hb', hmark'⟩ := hmark
    rw [← List.append_assoc, read_append ⟨b', List.mem_append_left bs' hb', hmark'⟩]
    exact (Reading.step_moves _ b).between hquotes hb

/-! ## Header lines -/

/-- How a line may end. -/
def lineBreaks : List (List UInt8) :=
  [[lineFeed], [carriageReturn, lineFeed], [carriageReturn]]

namespace Reading.At

variable {r : Reading} {state : State} {field : List UInt8} {fields : List (List UInt8)}
  {rows : List (List (List UInt8))}

/-- The fields of a line without quotes, behind the fields that have been read before. -/
theorem line (h : r.At state [] fields rows) (hs : Open state) {record : List (List UInt8)}
    (hne : record ≠ []) (hplain : ∀ field ∈ record, ∀ b ∈ field, IsPlain b)
    (hblank : state = .fieldStart ∨ record ≠ [[]]) :
    ∃ state' last before, (r.feed ([Csv.comma].intercalate record)).At state' last before rows ∧
      Ended state' ∧ (last.reverse :: before).reverse = fields.reverse ++ record := by
  induction record generalizing r state fields with
  | nil => exact absurd rfl hne
  | cons field record ih =>
    rw [List.forall_mem_cons] at hplain
    obtain ⟨state', hfield, hcomma, hend⟩ := h.written hs field
    rw [writeField_of_plain hplain.1] at hfield
    cases record with
    | nil =>
      have hnonempty : state = .fieldStart ∨ field ≠ [] := by simpa using hblank
      rw [List.intercalate_singleton]
      exact ⟨state', field.reverse, fields, hfield, hend hnonempty, by simp⟩
    | cons next record =>
      rw [List.intercalate_cons_cons, List.append_assoc, feed_append, List.singleton_append,
        feed_cons]
      obtain ⟨state', last, before, hrest, hended, heq⟩ := ih (hfield.comma hcomma)
        (Or.inr (Or.inr rfl)) (List.cons_ne_nil _ _) hplain.2 (Or.inl rfl)
      exact ⟨state', last, before, hrest, hended, heq.trans (by simp)⟩

/-- The end of a line ends the record. -/
theorem lineBreak (h : r.At state field fields rows) (hs : Ended state) {lineBreak : List UInt8}
    (hb : lineBreak ∈ lineBreaks) : Between (r.feed lineBreak).state ∧
      (r.feed lineBreak).rows.map Row.fields = (field.reverse :: fields).reverse :: rows := by
  obtain ⟨rfl, rfl, rfl, rfl⟩ := h
  simp only [lineBreaks, List.mem_cons, List.not_mem_nil, or_false] at hb
  rcases hs with hs | hs | hs <;> rcases hb with rfl | rfl | rfl <;>
  simp [Between, feed, step, count, hs, first, plain, between, isTerminator, Reading.endRecord,
    quote, Csv.comma, Csv.lineFeed, carriageReturn]

end Reading.At

end CreditCircle.Csv

/-
  Reading back a table that was written.

  * `Reading.At`: how far a record has been read, positions aside; one lemma for each kind of
    byte says what it adds.
  * `Reading.At.written`, `Reading.At.record`: a field and a record as they are written.
  * `records_writeRows`, `records_marked`: the records of a written table are its rows.
-/
import CreditCircle.Csv.Writer

namespace CreditCircle.Csv

/-! ## Bytes -/

/-- A byte that can stand in a field without quotes. -/
def IsPlain (b : UInt8) : Prop := b ≠ comma ∧ b ≠ quote ∧ b ≠ lineFeed ∧ b ≠ carriageReturn

theorem isPlain_iff (b : UInt8) : IsPlain b ↔ forcesQuotes b = false := by
  simp [IsPlain, forcesQuotes, isTerminator, and_assoc]

/-- The bytes of a field as it is written. -/
def writeField (field : List UInt8) : List UInt8 := (fieldPieces field).flatten

theorem writeField_of_plain {field : List UInt8} (h : ∀ b ∈ field, IsPlain b) :
    writeField field = field := by
  have hany : field.any forcesQuotes = false := by
    simpa [List.any_eq_false, isPlain_iff] using h
  unfold writeField fieldPieces
  rw [hany]
  induction field with
  | nil => rfl
  | cons b field ih => simp_all

theorem writeField_of_not_plain {field : List UInt8} (h : ¬ ∀ b ∈ field, IsPlain b) :
    writeField field = quote :: (field.flatMap quotedPiece ++ [quote]) := by
  have hany : field.any forcesQuotes = true := by
    simpa [List.any_eq_true, isPlain_iff] using h
  simp [writeField, fieldPieces, hany, List.flatMap_def]

theorem writeRecord_singleton (field : List UInt8) :
    writeRecord [field] = writeField field ++ [lineFeed] := by
  simp [writeRecord, recordPieces, writeField]

theorem writeRecord_cons_cons (field next : List UInt8) (fields : List (List UInt8)) :
    writeRecord (field :: next :: fields) =
      writeField field ++ comma :: writeRecord (next :: fields) := by
  simp [writeRecord, recordPieces, writeField]

namespace Reading

/-! ## How far a record has been read -/

/-- The reader is in a state, has read a part of a field, has read the fields before it and the
    rows before those.  Fields are listed from the last one on, and so are rows. -/
structure At (r : Reading) (state : State) (field : List UInt8) (fields : List (List UInt8))
    (rows : List (List (List UInt8))) : Prop where
  state : r.state = state
  field : r.field = field
  fields : r.fields = fields
  rows : r.rows.map Row.fields = rows

/-- A field can begin here. -/
def Open (state : State) : Prop :=
  state = .recordStart ∨ state = .afterReturn ∨ state = .fieldStart

/-- A record can end here. -/
def Ended (state : State) : Prop :=
  state = .fieldStart ∨ state = .inField ∨ state = .afterQuote

variable {r : Reading} {state : State} {b : UInt8} {field : List UInt8}
  {fields : List (List UInt8)} {rows : List (List (List UInt8))}

@[simp] theorem feed_nil (r : Reading) : r.feed [] = r := rfl

theorem feed_cons (r : Reading) (b : UInt8) (bs : List UInt8) :
    r.feed (b :: bs) = (r.step b).feed bs := rfl

theorem feed_append (r : Reading) (bs bs' : List UInt8) :
    r.feed (bs ++ bs') = (r.feed bs).feed bs' := List.foldl_append

namespace At

/-! ## Bytes of each kind -/

section
variable (h : r.At state field fields rows)
include h

theorem begin (hs : Open state) (hf : field = []) (hb : IsPlain b) :
    (r.step b).At .inField [b] fields rows := by
  obtain ⟨rfl, rfl, rfl, rfl⟩ := h
  obtain ⟨hc, hq, hl, hr⟩ := hb
  rcases hs with hs | hs | hs <;>
  constructor <;>
  simp [step, count, hs, between, isTerminator, first, plain, keep, hc, hq, hl, hr, hf]

theorem openQuote (hs : Open state) : (r.step quote).At .inQuotes field fields rows := by
  obtain ⟨rfl, rfl, rfl, rfl⟩ := h
  rcases hs with hs | hs | hs <;>
  constructor <;>
  simp [step, count, hs, between, isTerminator, first, quote, lineFeed, carriageReturn]

theorem comma (hs : Open state ∨ Ended state) :
    (r.step comma).At .fieldStart [] (field.reverse :: fields) rows := by
  obtain ⟨rfl, rfl, rfl, rfl⟩ := h
  rcases hs with (hs | hs | hs) | (hs | hs | hs) <;>
  constructor <;>
  simp [step, count, hs, between, isTerminator, first, plain, endField, quote, Csv.comma, lineFeed,
    carriageReturn]

theorem lineFeed (hs : Ended state) :
    (r.step lineFeed).At .recordStart [] [] ((field.reverse :: fields).reverse :: rows) := by
  obtain ⟨rfl, rfl, rfl, rfl⟩ := h
  rcases hs with hs | hs | hs <;>
  constructor <;>
  simp [step, count, hs, first, plain, endRecord, quote, Csv.comma, Csv.lineFeed]

end

theorem keep (h : r.At .inField field fields rows) (hb : IsPlain b) :
    (r.step b).At .inField (b :: field) fields rows := by
  obtain ⟨hs, rfl, rfl, rfl⟩ := h
  obtain ⟨hc, hq, hl, hr⟩ := hb
  constructor <;> simp [step, count, hs, plain, Reading.keep, hc, hl, hr]

theorem closeQuote (h : r.At .inQuotes field fields rows) :
    (r.step quote).At .afterQuote field fields rows := by
  obtain ⟨hs, rfl, rfl, rfl⟩ := h
  constructor <;> simp [step, count, hs]

/-- A byte between quotes, a quote among them being written twice. -/
theorem quoted (h : r.At .inQuotes field fields rows) (b : UInt8) :
    (r.feed (quotedPiece b)).At .inQuotes (b :: field) fields rows := by
  obtain ⟨hs, rfl, rfl, rfl⟩ := h
  by_cases hb : b = quote
  · subst hb
    constructor <;> simp [quotedPiece, feed, step, count, hs]
  · constructor <;> simp [quotedPiece, feed, step, count, hs, hb]

/-! ## Fields -/

theorem plains (h : r.At .inField field fields rows) {bs : List UInt8} (hbs : ∀ b ∈ bs, IsPlain b) :
    (r.feed bs).At .inField (bs.reverse ++ field) fields rows := by
  induction bs generalizing r field with
  | nil => exact h
  | cons b bs ih =>
    rw [feed_cons, List.reverse_cons, List.append_assoc]
    exact ih (h.keep (hbs b List.mem_cons_self)) fun b' hb' => hbs b' (List.mem_cons_of_mem b hb')

theorem quoteds (h : r.At .inQuotes field fields rows) (bs : List UInt8) :
    (r.feed (bs.flatMap quotedPiece)).At .inQuotes (bs.reverse ++ field) fields rows := by
  induction bs generalizing r field with
  | nil => exact h
  | cons b bs ih =>
    rw [List.flatMap_cons, feed_append, List.reverse_cons, List.append_assoc]
    exact ih (h.quoted b)

/-- A written field is read as it is.  An empty one leaves no trace, so that a record of nothing
    else would be taken for an empty line. -/
theorem written (h : r.At state [] fields rows) (hs : Open state) (field : List UInt8) :
    ∃ state', (r.feed (writeField field)).At state' field.reverse fields rows ∧
      (Open state' ∨ Ended state') ∧ (state = .fieldStart ∨ field ≠ [] → Ended state') := by
  by_cases hplain : ∀ b ∈ field, IsPlain b
  · rw [writeField_of_plain hplain]
    cases field with
    | nil =>
      refine ⟨state, h, Or.inl hs, ?_⟩
      rintro (rfl | hne)
      · exact Or.inl rfl
      · exact absurd rfl hne
    | cons b bs =>
      have hb := h.begin hs rfl (hplain b List.mem_cons_self)
      have hbs := hb.plains fun b' hb' => hplain b' (List.mem_cons_of_mem b hb')
      rw [← List.reverse_cons] at hbs
      have hend : Ended .inField := Or.inr (Or.inl rfl)
      exact ⟨.inField, hbs, Or.inr hend, fun _ => hend⟩
  · rw [writeField_of_not_plain hplain, feed_cons, feed_append]
    have hbs := (h.openQuote hs).quoteds field
    rw [List.append_nil] at hbs
    have hend : Ended .afterQuote := Or.inr (Or.inr rfl)
    exact ⟨.afterQuote, hbs.closeQuote, Or.inr hend, fun _ => hend⟩

/-! ## Records and tables -/

/-- A written record is read as it is, behind the fields that have been read before. -/
theorem record (h : r.At state [] fields rows) (hs : Open state) {record : List (List UInt8)}
    (hne : record ≠ []) (hblank : state = .fieldStart ∨ record ≠ [[]]) :
    (r.feed (writeRecord record)).At .recordStart [] [] ((fields.reverse ++ record) :: rows) := by
  induction record generalizing r state fields with
  | nil => exact absurd rfl hne
  | cons field record ih =>
    obtain ⟨state', hfield, hcomma, hend⟩ := h.written hs field
    cases record with
    | nil =>
      have hnonempty : state = .fieldStart ∨ field ≠ [] := by simpa using hblank
      rw [writeRecord_singleton, feed_append, feed_cons]
      have hrow := hfield.lineFeed (hend hnonempty)
      simpa using hrow
    | cons next record =>
      rw [writeRecord_cons_cons, feed_append, feed_cons]
      have hrest := ih (hfield.comma hcomma) (Or.inr (Or.inr rfl)) (List.cons_ne_nil _ _)
        (Or.inl rfl)
      simpa using hrest

end At

/-- A record that can be written: a record of one empty field looks like an empty line. -/
def Visible (record : List (List UInt8)) : Prop := record ≠ [] ∧ record ≠ [[]]

theorem visible_of_two_le {record : List (List UInt8)} (h : 2 ≤ record.length) :
    Visible record := by
  constructor <;> (rintro rfl; simp at h)

theorem At.table (h : r.At .recordStart [] [] rows) {records : List (List (List UInt8))}
    (hv : ∀ record ∈ records, Visible record) :
    (r.feed (records.flatMap writeRecord)).At .recordStart [] [] (records.reverse ++ rows) := by
  induction records generalizing r rows with
  | nil => exact h
  | cons record records ih =>
    obtain ⟨hne, hblank⟩ := hv record List.mem_cons_self
    rw [List.flatMap_cons, feed_append, List.reverse_cons, List.append_assoc]
    exact ih (h.record (Or.inl rfl) hne (Or.inr hblank)) fun other ho =>
      hv other (List.mem_cons_of_mem record ho)

theorem At.finish_rows (h : r.At .recordStart [] [] rows) :
    r.finish.rows.reverse.map Row.fields = rows.reverse := by
  rw [List.map_reverse, finish, h.state, h.rows]

end Reading

open Reading (Visible)

variable {rows : List (List (List UInt8))}

/-- The records of a written table are its rows, unless its first bytes could be taken for a
    mark. -/
theorem records_writeRows (hv : ∀ row ∈ rows, Visible row)
    (hmark : byteOrderMark.isPrefixOf (rows.flatMap writeRecord) = false) :
    (records (rows.flatMap writeRecord)).map Row.fields = rows := by
  have h : Reading.At {} .recordStart [] [] [] := ⟨rfl, rfl, rfl, rfl⟩
  simpa [records, start, hmark] using (h.table hv).finish_rows

/-- The records of a table that is written behind a mark are its rows. -/
theorem records_marked (hv : ∀ row ∈ rows, Visible row) :
    (records (byteOrderMark ++ rows.flatMap writeRecord)).map Row.fields = rows := by
  have h : Reading.At { byte := byteOrderMark.length } .recordStart [] [] [] := ⟨rfl, rfl, rfl, rfl⟩
  have hmark : byteOrderMark.isPrefixOf (byteOrderMark ++ rows.flatMap writeRecord) = true := by
    simp
  simpa [records, start, hmark, byteOrderMark] using (h.table hv).finish_rows

end CreditCircle.Csv

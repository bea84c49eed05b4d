/-
  What the reader of tables does with a byte.

  * `Between`: between records nothing has been read of the next one (`Tidy`).
  * `Reading.Moves`, `step_moves`: everything that one more byte can do.
  * `read`: what has been read behind a text; `read_append`: what is read behind two texts.
-/
import CreditCircle.Proofs.CsvRoundTrip
import Mathlib.Data.List.Infix

namespace CreditCircle.Csv

namespace Reading

/-- Nothing of a record has been read. -/
def Between (state : State) : Prop := state = .recordStart ∨ state = .afterReturn

instance (state : State) : Decidable (Between state) := inferInstanceAs (Decidable (_ ∨ _))

/-! ## One byte -/

/-- Everything that a byte can do to a reading. -/
inductive Moves (r : Reading) (b : UInt8) : Reading → Prop
  /-- It ends an empty line, or a line whose carriage return has ended a record. -/
  | skip (hs : Between r.state) (hb : isTerminator b = true) :
      Moves r b { r.count b with state := .recordStart }
  /-- It belongs to a field outside quotes. -/
  | keep (hs : r.state ≠ .inQuotes) (hb : isTerminator b = false) :
      Moves r b { r.count b with state := .inField, field := b :: r.field }
  /-- It belongs to a field between quotes. -/
  | quoted (hs : r.state = .inQuotes ∨ r.state = .afterQuote ∧ b = quote) :
      Moves r b { r.count b with state := .inQuotes, field := b :: r.field }
  /-- It opens the quotes of a field. -/
  | openQuote (hs : Open r.state) (hb : b = quote) : Moves r b { r.count b with state := .inQuotes }
  /-- It closes them, unless another quote follows. -/
  | closeQuote (hs : r.state = .inQuotes) (hb : b = quote) :
      Moves r b { r.count b with state := .afterQuote }
  /-- It ends a field. -/
  | comma (hs : r.state ≠ .inQuotes) (hb : b = Csv.comma) : Moves r b (r.count b).endField
  /-- It ends a record. -/
  | record {next : State} (hs : Ended r.state) (hb : isTerminator b = true) (hn : Between next) :
      Moves r b ((r.count b).endRecord next)

variable {r r' : Reading} {b : UInt8}

theorem plain_moves (hs : r.state ≠ .inQuotes) (hb : isTerminator b = true → Ended r.state) :
    r.Moves b ((r.count b).plain b) := by
  unfold plain
  split
  · exact .comma hs ‹_›
  split
  · rename_i hlf
    have ht : isTerminator b = true := by rw [hlf]; rfl
    exact .record (hb ht) ht (.inl rfl)
  split
  · rename_i hcr
    have ht : isTerminator b = true := by rw [hcr]; rfl
    exact .record (hb ht) ht (.inr rfl)
  · refine .keep hs ?_
    simp_all [isTerminator]

theorem first_moves (hs : Open r.state) (hb : isTerminator b = true → Ended r.state) :
    r.Moves b ((r.count b).first b) := by
  unfold first
  split
  · exact .openQuote hs ‹_›
  · refine plain_moves (fun hq => ?_) hb
    rw [hq] at hs
    rcases hs with hs | hs | hs <;> cases hs

theorem between_moves (hs : Between r.state) : r.Moves b ((r.count b).between b) := by
  unfold between
  split
  · exact .skip hs ‹_›
  · exact first_moves (hs.imp_right .inl) fun ht => absurd ht ‹_›

/-- A byte does one of these things. -/
theorem step_moves (r : Reading) (b : UInt8) : r.Moves b (r.step b) := by
  unfold step
  dsimp only [count]
  split
  next hs => exact between_moves (.inl hs)
  next hs => exact between_moves (.inr hs)
  next hs => exact first_moves (.inr (.inr hs)) fun _ => .inl hs
  next hs => exact plain_moves (by rw [hs]; exact nofun) fun _ => .inr (.inl hs)
  next hs =>
    split
    · exact .closeQuote hs ‹_›
    · rw [hs]
      exact .quoted (.inl hs)
  next hs =>
    split
    · exact .quoted (.inr ⟨hs, ‹_›⟩)
    · exact plain_moves (by rw [hs]; exact nofun) fun _ => .inr (.inr hs)

/-! ## Between records -/

/-- Where a field can begin nothing has been read of it, and between records nothing of a record. -/
structure Tidy (r : Reading) : Prop where
  field : Open r.state → r.field = []
  fields : Between r.state → r.fields = []

theorem tidy_of_not_open (h : ¬ Open r.state) : r.Tidy :=
  ⟨fun ho => absurd ho h, fun hb => absurd (hb.imp_right .inl) h⟩

theorem Moves.tidy (hm : r.Moves b r') (h : r.Tidy) : r'.Tidy := by
  cases hm with
  | skip hs hb => exact ⟨fun _ => h.field (hs.imp_right .inl), fun _ => h.fields hs⟩
  | keep | quoted | openQuote | closeQuote => exact tidy_of_not_open (by simp [Open])
  | comma hs hb => exact ⟨fun _ => rfl, fun hb => by simp [Between, endField] at hb⟩
  | record hs hb hn => exact ⟨fun _ => rfl, fun _ => rfl⟩

/-- Outside quotes, nothing of a record has been read behind the end of a line. -/
theorem Moves.between (hm : r.Moves b r') (hs : r.state ≠ .inQuotes) (hb : isTerminator b = true) :
    Between r'.state := by
  have hquote : b ≠ quote := fun h => by rw [h] at hb; cases hb
  cases hm with
  | skip => exact .inl rfl
  | keep _ hb' => rw [hb] at hb'; cases hb'
  | quoted hs' =>
    rcases hs' with hs' | hs'
    · exact absurd hs' hs
    · exact absurd hs'.2 hquote
  | openQuote _ hb' => exact absurd hb' hquote
  | closeQuote _ hb' => exact absurd hb' hquote
  | comma _ hb' => rw [hb'] at hb; cases hb
  | record _ _ hn => exact hn

theorem finish_of_between (h : Between r.state) : r.finish = r := by
  unfold finish
  rcases h with h | h <;> rw [h]

theorem Tidy.feed (h : r.Tidy) (bs : List UInt8) : (r.feed bs).Tidy := by
  induction bs generalizing r with
  | nil => exact h
  | cons b bs ih => exact ih ((step_moves r b).tidy h)

/-! ## Records -/

theorem endRecord_fields_ne_nil (h : ∀ row ∈ r.rows, row.fields ≠ []) (next : State) :
    ∀ row ∈ (r.endRecord next).rows, row.fields ≠ [] :=
  List.forall_mem_cons.2 ⟨by simp, h⟩

theorem Moves.fields_ne_nil (hm : r.Moves b r') (h : ∀ row ∈ r.rows, row.fields ≠ []) :
    ∀ row ∈ r'.rows, row.fields ≠ [] := by
  cases hm with
  | skip | keep | quoted | openQuote | closeQuote | comma => exact h
  | @record next => exact endRecord_fields_ne_nil h next

theorem feed_fields_ne_nil (bs : List UInt8) : ∀ {r : Reading},
    (∀ row ∈ r.rows, row.fields ≠ []) → ∀ row ∈ (r.feed bs).rows, row.fields ≠ [] := by
  induction bs with
  | nil => exact id
  | cons b bs ih => exact fun h => ih ((step_moves _ b).fields_ne_nil h)

theorem finish_fields_ne_nil (h : ∀ row ∈ r.rows, row.fields ≠ []) :
    ∀ row ∈ r.finish.rows, row.fields ≠ [] := by
  unfold finish
  split
  · exact h
  · exact h
  · exact endRecord_fields_ne_nil h _

end Reading

/-! ## Texts -/

open Reading (Between Tidy)

/-- What has been read behind a text. -/
def read (bs : List UInt8) : Reading := (start bs).1.feed (start bs).2

theorem records_eq (bs : List UInt8) : records bs = (read bs).finish.rows.reverse := rfl

theorem start_marked (bs : List UInt8) :
    start (byteOrderMark ++ bs) = ({ byte := byteOrderMark.length }, bs) := by
  simp [start, byteOrderMark]

theorem start_unmarked {bs : List UInt8} (h : byteOrderMark.isPrefixOf bs = false) :
    start bs = ({}, bs) := by
  simp [start, h]

theorem start_tidy (bs : List UInt8) : (start bs).1.Tidy := by
  unfold start
  split <;> exact ⟨fun _ => rfl, fun _ => rfl⟩

/-- A record has a field at least. -/
theorem fields_ne_nil_of_mem_records {bs : List UInt8} {row : Row} (h : row ∈ records bs) :
    row.fields ≠ [] := by
  have hstart : ∀ row ∈ (start bs).1.rows, row.fields ≠ [] := by
    unfold start
    split <;> exact nofun
  rw [records_eq, List.mem_reverse] at h
  exact Reading.finish_fields_ne_nil (Reading.feed_fields_ne_nil _ hstart) row h

theorem read_tidy (bs : List UInt8) : (read bs).Tidy := (start_tidy bs).feed _

/-- Bytes that do not all stand in a mark show whether the text starts with one. -/
theorem isPrefixOf_append {bs : List UInt8} (h : ∃ b ∈ bs, b ∉ byteOrderMark) (bs' : List UInt8) :
    byteOrderMark.isPrefixOf (bs ++ bs') = byteOrderMark.isPrefixOf bs := by
  rw [Bool.eq_iff_iff, List.isPrefixOf_iff_prefix, List.isPrefixOf_iff_prefix]
  refine ⟨fun hmark => ?_, fun hmark => hmark.trans (List.prefix_append bs bs')⟩
  rcases List.prefix_or_prefix_of_prefix hmark (List.prefix_append bs bs') with hmark | hpart
  · exact hmark
  · obtain ⟨b, hb, hb'⟩ := h
    exact absurd (hpart.subset hb) hb'

theorem start_append {bs : List UInt8} (h : ∃ b ∈ bs, b ∉ byteOrderMark) (bs' : List UInt8) :
    start (bs ++ bs') = ((start bs).1, (start bs).2 ++ bs') := by
  cases hmark : byteOrderMark.isPrefixOf bs with
  | true =>
    obtain ⟨rest, rfl⟩ := List.isPrefixOf_iff_prefix.1 hmark
    rw [List.append_assoc, start_marked, start_marked]
  | false =>
    rw [start_unmarked hmark, start_unmarked ((isPrefixOf_append h bs').trans hmark)]

theorem read_append {bs : List UInt8} (h : ∃ b ∈ bs, b ∉ byteOrderMark) (bs' : List UInt8) :
    read (bs ++ bs') = (read bs).feed bs' := by
  rw [read, start_append h]
  exact Reading.feed_append _ _ _

end CreditCircle.Csv

/-
  The lines on which rows start.

  A line ends with a line feed, a carriage return or both.  Rows are counted from the header on,
  which is not the same as counting lines.

  * `lineEnds_eq`: a line end ends a record, ends an empty line or stands between quotes.
  * `rowStarts`: where records begin; `records_take`, `lineAt_rowStarts`: what stands before.
  * `mem_skipped_iff_line`: a row that is skipped is reported with its line less the empty lines
    and the line ends between quotes before it.
-/
import CreditCircle.Proofs.CsvReading
import CreditCircle.Proofs.ScriptRuns

namespace CreditCircle.Csv

open Reading (Between Ended)

/-! ## Lines -/

/-- Whether a byte ends a line.  A line feed behind a carriage return belongs to the end of the line
    before. -/
def endsLine (afterReturn : Bool) (b : UInt8) : Bool :=
  b == carriageReturn || b == lineFeed && !afterReturn

/-- The number of lines that end in some bytes, which may stand behind a carriage return. -/
def lineEndsFrom (afterReturn : Bool) : List UInt8 → ℕ
  | [] => 0
  | b :: bs => (endsLine afterReturn b).toNat + lineEndsFrom (b == carriageReturn) bs

/-- The number of lines that end in a text. -/
def lineEnds (bs : List UInt8) : ℕ := lineEndsFrom false bs

/-- The line, counted from 1, on which the byte at an offset stands. -/
def lineAt (bs : List UInt8) (offset : ℕ) : ℕ := 1 + lineEnds (bs.take offset)

namespace Reading

/-- The number of lines that end in some bytes where the reader is in a state of some kind. -/
def lineEndsIn (p : State → Bool) : Reading → (afterReturn : Bool) → List UInt8 → ℕ
  | _, _, [] => 0
  | r, afterReturn, b :: bs =>
    (endsLine afterReturn b && p r.state).toNat +
      (r.step b).lineEndsIn p (b == carriageReturn) bs

/-- Between records. -/
def isBetween (state : State) : Bool := decide (Between state)

/-- Between quotes. -/
def isQuoted (state : State) : Bool := state == .inQuotes

end Reading

open Reading (isBetween isQuoted)

/-- The number of empty lines that end in a text. -/
def emptyLines (bs : List UInt8) : ℕ := (start bs).1.lineEndsIn isBetween false (start bs).2

/-- The number of lines of a text that end between quotes. -/
def quotedLineEnds (bs : List UInt8) : ℕ := (start bs).1.lineEndsIn isQuoted false (start bs).2

namespace Reading

variable {r r' : Reading} {b : UInt8} {afterReturn : Bool}

theorem endsLine_of_not_isTerminator (hb : isTerminator b = false) :
    endsLine afterReturn b = false := by
  simp_all [isTerminator, endsLine]

theorem endsLine_of_isTerminator (hb : isTerminator b = true) : endsLine false b = true := by
  simp_all [isTerminator, endsLine, or_comm]

/-- Behind a carriage return, the reader is between records or between quotes. -/
def Settled (r : Reading) (afterReturn : Bool) : Prop :=
  afterReturn = true → Between r.state ∨ r.state = .inQuotes

theorem settled_of_not_isTerminator (hb : isTerminator b = false) :
    r.Settled (b == carriageReturn) := by
  intro h
  rw [isTerminator, h, Bool.or_true] at hb
  cases hb

/-- A carriage return between records stays there, one between quotes as well, and any other ends a
    record. -/
theorem Moves.settled (hm : r.Moves b r') : r'.Settled (b == carriageReturn) := by
  cases hm with
  | skip hs hb => exact fun _ => .inl (.inl rfl)
  | keep hs hb => exact settled_of_not_isTerminator hb
  | quoted hs => exact fun _ => .inr rfl
  | openQuote hs hb => exact settled_of_not_isTerminator (by rw [hb]; rfl)
  | closeQuote hs hb => exact settled_of_not_isTerminator (by rw [hb]; rfl)
  | comma hs hb => exact settled_of_not_isTerminator (by rw [hb]; rfl)
  | record hs hb hn => exact fun _ => .inl hn

theorem kinds_of_ended {state : State} (h : Ended state) :
    isBetween state = false ∧ isQuoted state = false := by
  rcases h with rfl | rfl | rfl <;> decide

theorem kinds_of_between {state : State} (h : Between state) :
    isBetween state = true ∧ isQuoted state = false := by
  rcases h with rfl | rfl <;> decide

/-- The end of a line ends an empty line, stands between quotes, or ends a record. -/
theorem Moves.lineEnd (hm : r.Moves b r') (hr : r.Settled afterReturn) :
    r.rows.length + (endsLine afterReturn b).toNat = r'.rows.length +
      ((endsLine afterReturn b && isBetween r.state).toNat +
        (endsLine afterReturn b && isQuoted r.state).toNat) := by
  have hplain : isTerminator b = false → r'.rows = r.rows → r.rows.length +
      (endsLine afterReturn b).toNat = r'.rows.length +
        ((endsLine afterReturn b && isBetween r.state).toNat +
          (endsLine afterReturn b && isQuoted r.state).toNat) := by
    intro hb hrows
    rw [endsLine_of_not_isTerminator hb, hrows]
    rfl
  cases hm with
  | skip hs hb => simp [kinds_of_between hs, count]
  | keep hs hb => exact hplain hb rfl
  | quoted hs =>
    rcases hs with hs | ⟨-, rfl⟩
    · simp [hs, isBetween, isQuoted, Between, count]
    · exact hplain rfl rfl
  | openQuote hs hb => exact hplain (by rw [hb]; rfl) rfl
  | closeQuote hs hb => exact hplain (by rw [hb]; rfl) rfl
  | comma hs hb => exact hplain (by rw [hb]; rfl) rfl
  | record hs hb hn =>
    -- A line feed that belongs to a carriage return is not read inside a record.
    have hreturn : afterReturn = false := by
      cases afterReturn with
      | false => rfl
      | true =>
        rcases hr rfl with h | h
        · rcases hs with hs | hs | hs <;> rw [hs] at h <;> rcases h with h | h <;> cases h
        · rcases hs with hs | hs | hs <;> rw [hs] at h <;> cases h
    simp [hreturn, kinds_of_ended hs, endsLine_of_isTerminator hb, endRecord, count]

/-- So do all ends of lines. -/
theorem lineEndsFrom_eq (bs : List UInt8) : ∀ {r : Reading} {afterReturn : Bool},
    r.Settled afterReturn → r.rows.length + lineEndsFrom afterReturn bs = (r.feed bs).rows.length +
      (r.lineEndsIn isBetween afterReturn bs + r.lineEndsIn isQuoted afterReturn bs) := by
  induction bs with
  | nil => intro r afterReturn _; rfl
  | cons b bs ih =>
    intro r afterReturn hr
    have hfirst := (step_moves r b).lineEnd hr
    have hrest := ih (step_moves r b).settled
    rw [feed_cons, lineEndsFrom, lineEndsIn, lineEndsIn]
    omega

end Reading

/-- Every line end of a text ends a record, ends an empty line or stands between quotes. -/
theorem lineEnds_eq (bs : List UInt8) :
    lineEnds bs = (read bs).rows.length + emptyLines bs + quotedLineEnds bs := by
  have hstart : lineEnds bs = lineEndsFrom false (start bs).2 ∧ (start bs).1.rows = [] := by
    cases hmark : byteOrderMark.isPrefixOf bs with
    | true =>
      obtain ⟨rest, rfl⟩ := List.isPrefixOf_iff_prefix.1 hmark
      rw [start_marked]
      exact ⟨by simp [lineEnds, lineEndsFrom, byteOrderMark, endsLine, carriageReturn, lineFeed],
        rfl⟩
    | false =>
      rw [start_unmarked hmark]
      exact ⟨rfl, rfl⟩
  have hsettled : (start bs).1.Settled false := fun h => absurd h Bool.false_ne_true
  have h := Reading.lineEndsFrom_eq (start bs).2 hsettled
  rw [hstart.2, List.length_nil, Nat.zero_add] at h
  rw [hstart.1, h, Nat.add_assoc]
  rfl

/-! ## Where records begin -/

namespace Reading

/-- The offsets of the bytes with which records begin. -/
def rowStarts : Reading → List UInt8 → List ℕ
  | _, [] => []
  | r, b :: bs =>
    if isBetween r.state && !isTerminator b then r.byte :: (r.step b).rowStarts bs
    else (r.step b).rowStarts bs

/-- The number of records that have been begun. -/
def begun (r : Reading) : ℕ := r.rows.length + (!isBetween r.state).toNat

variable {r r' : Reading} {b : UInt8}

theorem Moves.byte (hm : r.Moves b r') : r'.byte = r.byte + 1 := by
  cases hm <;> rfl

theorem Moves.exists_rows (hm : r.Moves b r') : ∃ rows, r'.rows = rows ++ r.rows := by
  cases hm with
  | skip | keep | quoted | openQuote | closeQuote | comma => exact ⟨[], rfl⟩
  | record => exact ⟨[_], rfl⟩

theorem isBetween_of_open_quote {state : State} (h : state = .inQuotes ∨ state = .afterQuote) :
    isBetween state = false := by
  rcases h with rfl | rfl <;> decide

/-- A record begins with a byte between records that ends no line. -/
theorem Moves.begun (hm : r.Moves b r') :
    r'.begun = r.begun + (isBetween r.state && !isTerminator b).toNat := by
  have hbegins : isTerminator b = false → r'.rows = r.rows → isBetween r'.state = false →
      r'.begun = r.begun + (isBetween r.state && !isTerminator b).toNat := by
    intro hb hrows hs
    unfold Reading.begun
    rw [hb, hrows, hs]
    cases isBetween r.state <;> rfl
  cases hm with
  | skip hs hb =>
    unfold Reading.begun
    rw [hb, (kinds_of_between hs).1]
    rfl
  | keep hs hb => exact hbegins hb rfl rfl
  | quoted hs =>
    unfold Reading.begun
    rw [isBetween_of_open_quote (hs.imp_right And.left)]
    rfl
  | openQuote hs hb => exact hbegins (by rw [hb]; rfl) rfl rfl
  | closeQuote hs hb => exact hbegins (by rw [hb]; rfl) rfl rfl
  | comma hs hb => exact hbegins (by rw [hb]; rfl) rfl rfl
  | record hs hb hn =>
    simp [Reading.begun, kinds_of_ended hs, kinds_of_between hn, endRecord, count]

theorem feed_exists_rows (bs : List UInt8) : ∀ r : Reading, ∃ rows,
    (r.feed bs).rows = rows ++ r.rows := by
  induction bs with
  | nil => exact fun r => ⟨[], rfl⟩
  | cons b bs ih =>
    intro r
    obtain ⟨rows, hrows⟩ := ih (r.step b)
    obtain ⟨first, hfirst⟩ := (step_moves r b).exists_rows
    exact ⟨rows ++ first, by rw [feed_cons, hrows, hfirst, List.append_assoc]⟩

/-- A record that has been begun ends with the text. -/
theorem finish_rows (r : Reading) :
    ∃ rows, r.finish.rows = rows ++ r.rows ∧ r.finish.rows.length = r.begun := by
  unfold finish
  split
  next hs => exact ⟨[], rfl, by simp [Reading.begun, kinds_of_between (.inl hs)]⟩
  next hs => exact ⟨[], rfl, by simp [Reading.begun, kinds_of_between (.inr hs)]⟩
  next hs hs' =>
    have hbetween : isBetween r.state = false := by simp_all [isBetween, Between]
    exact ⟨[_], rfl, by simp [Reading.begun, hbetween, endRecord]⟩

theorem begun_feed (bs : List UInt8) : ∀ r : Reading,
    (r.feed bs).begun = r.begun + (r.rowStarts bs).length := by
  induction bs with
  | nil => exact fun r => rfl
  | cons b bs ih =>
    intro r
    rw [feed_cons, ih, (step_moves r b).begun, rowStarts]
    split <;> simp_all [Nat.add_assoc, Nat.add_comm 1]

/-- Where a record begins the records before it have been read, and nothing of it. -/
theorem of_mem_rowStarts (bs : List UInt8) : ∀ {r : Reading} {k offset : ℕ},
    (r.rowStarts bs)[k]? = some offset → ∃ n, offset = r.byte + n ∧
      Between (r.feed (bs.take n)).state ∧ (r.feed (bs.take n)).rows.length = r.begun + k := by
  induction bs with
  | nil => intro r k offset h; cases h
  | cons b bs ih =>
    intro r k offset h
    -- Behind the first byte, bytes and records are counted on from what has been read.
    have hrest : ∀ {k'}, ((r.step b).rowStarts bs)[k']? = some offset →
        r.begun + k = (r.step b).begun + k' → ∃ n, offset = r.byte + n ∧
          Between (r.feed ((b :: bs).take n)).state ∧
            (r.feed ((b :: bs).take n)).rows.length = r.begun + k := by
      intro k' hk' hbegun
      obtain ⟨n, hoffset, hs, hrows⟩ := ih hk'
      rw [(step_moves r b).byte] at hoffset
      refine ⟨n + 1, by omega, ?_⟩
      rw [List.take_succ_cons, feed_cons]
      exact ⟨hs, hrows.trans hbegun.symm⟩
    have hbegun := (step_moves r b).begun
    rw [rowStarts] at h
    split at h
    next hfirst =>
      have hs : Between r.state := by simp_all [isBetween]
      rw [hfirst] at hbegun
      cases k with
      | zero =>
        cases h
        exact ⟨0, rfl, hs, by simp [Reading.begun, kinds_of_between hs]⟩
      | succ k =>
        refine hrest h ?_
        rw [hbegun]
        simp
        omega
    next hfirst =>
      refine hrest h ?_
      rw [hbegun]
      simp [hfirst]

end Reading

/-- The offsets of the bytes with which the records of a text begin. -/
def rowStarts (bs : List UInt8) : List ℕ := (start bs).1.rowStarts (start bs).2

theorem length_records (bs : List UInt8) : (records bs).length = (rowStarts bs).length := by
  have hbegun : (start bs).1.begun = 0 := by unfold start; split <;> rfl
  obtain ⟨-, -, hlength⟩ := (read bs).finish_rows
  rw [records_eq, List.length_reverse, hlength, read, Reading.begun_feed, hbegun, Nat.zero_add]
  rfl

/-- Behind the mark, a part of a text is read like the whole. -/
theorem start_take (bs : List UInt8) (n : ℕ) :
    start (bs.take ((start bs).1.byte + n)) = ((start bs).1, (start bs).2.take n) := by
  cases hmark : byteOrderMark.isPrefixOf bs with
  | true =>
    obtain ⟨rest, rfl⟩ := List.isPrefixOf_iff_prefix.1 hmark
    rw [start_marked, List.take_length_add_append, start_marked]
  | false =>
    have hpart : byteOrderMark.isPrefixOf (bs.take n) = false := by
      rw [Bool.eq_false_iff, Ne, List.isPrefixOf_iff_prefix] at hmark ⊢
      exact fun h => hmark (h.trans (List.take_prefix n bs))
    rw [start_unmarked hmark, Nat.zero_add, start_unmarked hpart]

section
variable {bs : List UInt8} {k offset : ℕ}

/-- Where a record begins the records before it have been read, and nothing of it. -/
theorem read_take (h : (rowStarts bs)[k]? = some offset) :
    Between (read (bs.take offset)).state ∧ (read (bs.take offset)).rows.length = k ∧
      ∃ rest, read bs = (read (bs.take offset)).feed rest := by
  have hbegun : (start bs).1.begun = 0 := by unfold start; split <;> rfl
  obtain ⟨n, rfl, hs, hrows⟩ := Reading.of_mem_rowStarts _ h
  rw [hbegun, Nat.zero_add] at hrows
  unfold read
  rw [start_take]
  refine ⟨hs, hrows, (start bs).2.drop n, ?_⟩
  rw [← Reading.feed_append, List.take_append_drop]

/-- The text before a record holds the records before it. -/
theorem records_take (h : (rowStarts bs)[k]? = some offset) :
    records (bs.take offset) = (records bs).take k := by
  obtain ⟨hs, hlength, rest, hread⟩ := read_take h
  obtain ⟨later, hlater⟩ := Reading.feed_exists_rows rest (read (bs.take offset))
  obtain ⟨last, hlast, -⟩ := (read bs).finish_rows
  rw [records_eq, records_eq, hlast, hread, hlater, Reading.finish_of_between hs,
    ← List.append_assoc, List.reverse_append, ← hlength, ← List.length_reverse, List.take_left]

/-- A record starts on the line behind the records, the empty lines and the line ends between
    quotes before it. -/
theorem lineAt_rowStarts (h : (rowStarts bs)[k]? = some offset) :
    lineAt bs offset = k + 1 + emptyLines (bs.take offset) + quotedLineEnds (bs.take offset) := by
  rw [lineAt, lineEnds_eq, (read_take h).2.1]
  omega

end

end CreditCircle.Csv

namespace CreditCircle.Script.Replay

open Csv (rowStarts lineAt emptyLines quotedLineEnds)

variable {columns : List (Option Column)} {script : List UInt8} {k offset : ℕ}

/-- The columns of a script are those of its header. -/
theorem columnsOf_take (rows : List Csv.Row) (n : ℕ) :
    columnsOf (rows.take (n + 1)) = columnsOf rows := by
  cases rows <;> rfl

/-- Before a row, the rows before it have been carried out. -/
theorem process_take (hcolumns : columnsOf (Csv.records script) = .ok columns)
    (h : (rowStarts script)[k + 1]? = some offset) (r : Replay) (rules : Rules)
    (chances : Nat → Chance) :
    r.process rules chances (script.take offset) =
      applyRows rules columns chances 0 {} r ((Csv.records script).tail.take k) := by
  unfold process
  dsimp only
  rw [Csv.records_take h, columnsOf_take, hcolumns]
  cases Csv.records script with
  | nil => rw [List.take_nil, List.tail_nil, List.take_nil]
  | cons header rows => rfl

/-- The rows that are reported are those that are refused where the script before them has led.  The
    line that is reported with one is the line on which it starts, less the empty lines and the line
    ends between quotes before it. -/
theorem mem_skipped_iff_line {rules : Rules} {chances : Nat → Chance} {r r' : Replay}
    {summary : Summary} (h : r.process rules chances script = (.ok summary, r')) (x : Skipped) :
    x ∈ summary.skipped ↔ ∃ columns k row offset,
      columnsOf (Csv.records script) = .ok columns ∧
      (Csv.records script)[k + 1]? = some row ∧ (rowStarts script)[k + 1]? = some offset ∧
      (applyRow rules columns (r.process rules chances (script.take offset)).2 (chances k) row).1 =
        .error (.refused x.error) ∧
      lineAt script offset = x.line + emptyLines (script.take offset) +
        quotedLineEnds (script.take offset) := by
  unfold process at h
  dsimp only at h
  cases hcolumns : columnsOf (Csv.records script) with
  | error e => rw [hcolumns] at h; cases h
  | ok columns =>
    rw [hcolumns] at h
    rw [mem_skipped_iff rules columns chances _ 0 h]
    constructor
    · rintro ⟨k, row, hrow, hline, hrefused⟩
      rw [List.getElem?_tail] at hrow
      have hlt : k + 1 < (rowStarts script).length := by
        rw [← Csv.length_records]
        exact (List.getElem?_eq_some_iff.1 hrow).1
      have hoffset := List.getElem?_eq_getElem hlt
      refine ⟨columns, k, row, _, rfl, hrow, hoffset, ?_, ?_⟩
      · rw [Nat.zero_add] at hrefused
        rw [process_take hcolumns hoffset]
        exact hrefused
      · rw [Csv.lineAt_rowStarts hoffset, hline]
        omega
    · rintro ⟨columns', k, row, offset, hcolumns', hrow, hoffset, hrefused, hline⟩
      cases hcolumns'
      rw [process_take hcolumns hoffset] at hrefused
      rw [Csv.lineAt_rowStarts hoffset] at hline
      refine ⟨k, row, by rwa [List.getElem?_tail], by omega, ?_⟩
      rw [Nat.zero_add]
      exact hrefused

/-- A script with an empty line, and with a row that takes up two lines. -/
def spreadScript : List UInt8 :=
  Text.Utf8.encode "op,ref,note\n\nfoo,a,\"x\ny\"\nfoo,b,\n".toList

/-- Its rows are reported with lines 2 and 3, but they start on lines 3 and 5. -/
theorem line_of_skipped_row_may_differ :
    let rules : Rules := ⟨.standard, fun _ => true⟩
    ((start .empty).process rules .nth spreadScript).1 =
        .ok ⟨0, [⟨2, .record (.unknownOperation "foo")⟩, ⟨3, .record (.unknownOperation "foo")⟩]⟩ ∧
      (rowStarts spreadScript).map (lineAt spreadScript) = [1, 3, 5] := by
  decide

/-- The second is reported with its line less two, for the empty line and the line end between
    quotes before it. -/
theorem mem_skipped_iff_line_spread :
    let rules : Rules := ⟨.standard, fun _ => true⟩
    ∃ summary r', (start .empty).process rules .nth spreadScript = (.ok summary, r') ∧
      ⟨3, .record (.unknownOperation "foo")⟩ ∈ summary.skipped ∧
      ∃ offset ∈ rowStarts spreadScript, lineAt spreadScript offset =
        3 + emptyLines (spreadScript.take offset) + quotedLineEnds (spreadScript.take offset) := by
  intro rules
  have hrun : ((start .empty).process rules .nth spreadScript).1 =
      .ok ⟨0, [⟨2, .record (.unknownOperation "foo")⟩, ⟨3, .record (.unknownOperation "foo")⟩]⟩ :=
    by decide
  have hmem : (⟨3, .record (.unknownOperation "foo")⟩ : Skipped) ∈
      [⟨2, .record (.unknownOperation "foo")⟩, ⟨3, .record (.unknownOperation "foo")⟩] := by decide
  refine ⟨_, _, Prod.ext hrun rfl, hmem, ?_⟩
  obtain ⟨-, k, -, offset, -, -, hoffset, -, hline⟩ :=
    (mem_skipped_iff_line (Prod.ext hrun rfl) _).1 hmem
  exact ⟨offset, List.mem_of_getElem? hoffset, hline⟩

end CreditCircle.Script.Replay

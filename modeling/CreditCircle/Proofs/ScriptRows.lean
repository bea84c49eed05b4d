/-
  The rows of a script and what they say.

  * `textsFrom_cons_eq_ok_iff`, `fill_cons_eq_ok_iff`: what it takes to read one more field.
  * `textsFrom_congr`, `fill_congr`: positions only matter for what is reported.
  * `commandOf_congr`, `columnsOf_congr`: a row, or a header, with the same fields says the same.
  * `two_le_length_of_commandOf`, `two_le_length_of_columnsOf`: both have two fields at least.
-/
import CreditCircle.Proofs.Verdict
import CreditCircle.Script.Replay
import Mathlib.Data.List.Perm.Subperm

namespace CreditCircle.Script

open Text

/-! ## Texts and fields -/

section
variable {position position' : Csv.Position} {index : Nat} {field : List UInt8}
  {fields : List (List UInt8)} {texts : List String}

theorem textsFrom_cons_eq_ok_iff : textsFrom position index (field :: fields) = .ok texts ↔
    ∃ cs rest, Utf8.decode field = .ok cs ∧ textsFrom position (index + 1) fields = .ok rest ∧
      texts = String.ofList (trim cs) :: rest := by
  conv_lhs => unfold textsFrom
  cases Utf8.decode field with
  | error i => simp
  | ok cs =>
    cases textsFrom position (index + 1) fields with
    | error e => simp [Except.map]
    | ok rest => simp [Except.map, eq_comm]

theorem textsFrom_congr (h : textsFrom position index fields = .ok texts) :
    textsFrom position' index fields = .ok texts := by
  induction fields generalizing index texts with
  | nil => exact h
  | cons field fields ih =>
    obtain ⟨cs, rest, hd, ht, rfl⟩ := textsFrom_cons_eq_ok_iff.1 h
    exact textsFrom_cons_eq_ok_iff.2 ⟨cs, rest, hd, ih ht, rfl⟩

theorem length_of_textsFrom (h : textsFrom position index fields = .ok texts) :
    texts.length = fields.length := by
  induction fields generalizing index texts with
  | nil => cases h; rfl
  | cons field fields ih =>
    obtain ⟨cs, rest, -, ht, rfl⟩ := textsFrom_cons_eq_ok_iff.1 h
    rw [List.length_cons, List.length_cons, ih ht]

end

section
variable {position position' : Csv.Position} {columns : List (Option Column)} {done : List Column}
  {r record : Record} {c : Column} {texts : List String}

/-- A known column takes a field, unless the row has ended and it needs none. -/
theorem fill_cons_eq_ok_iff : fill position done r (some c :: columns) texts = .ok record ↔
    c ∉ done ∧
      ((texts = [] ∧ c.isRequired = false ∧ fill position (c :: done) r columns [] = .ok record) ∨
        ∃ text rest, texts = text :: rest ∧
          fill position (c :: done) (if text = "" ∧ !c.isRequired then r else r.set text c) columns
            rest = .ok record) := by
  conv_lhs => unfold fill
  by_cases hc : c ∈ done
  · simp [hc]
  · rw [if_neg hc]
    cases texts with
    | nil => cases hr : c.isRequired <;> simp [hc]
    | cons text rest => simp [hc]

theorem fill_congr (h : fill position done r columns texts = .ok record) :
    fill position' done r columns texts = .ok record := by
  induction columns generalizing done r texts with
  | nil => exact h
  | cons column columns ih =>
    cases column with
    | none =>
      cases texts with
      | nil => cases h
      | cons _ texts => exact ih h
    | some c =>
      obtain ⟨hc, ⟨rfl, hr, hrest⟩ | ⟨text, rest, rfl, hrest⟩⟩ := fill_cons_eq_ok_iff.1 h
      · exact fill_cons_eq_ok_iff.2 ⟨hc, Or.inl ⟨rfl, hr, ih hrest⟩⟩
      · exact fill_cons_eq_ok_iff.2 ⟨hc, Or.inr ⟨text, rest, rfl, ih hrest⟩⟩

/-- Every column that needs a field takes one. -/
theorem countP_le_of_fill (h : fill position done r columns texts = .ok record) :
    columns.countP (·.all Column.isRequired) ≤ texts.length := by
  induction columns generalizing done r texts with
  | nil => simp
  | cons column columns ih =>
    cases column with
    | none =>
      cases texts with
      | nil => cases h
      | cons text texts =>
        have := ih h
        rw [List.countP_cons, List.length_cons]
        split <;> omega
    | some c =>
      obtain ⟨-, ⟨rfl, hr, hrest⟩ | ⟨text, rest, rfl, hrest⟩⟩ := fill_cons_eq_ok_iff.1 h
      · rw [List.countP_cons_of_neg (by simp [hr])]
        exact ih hrest
      · have := ih hrest
        rw [List.countP_cons, List.length_cons]
        split <;> omega

end

/-! ## Rows and headers -/

theorem Column.ofName?_name (c : Column) : ofName? c.name = some c := by
  cases c <;> decide

namespace Replay

variable {columns : List (Option Column)} {row row' : Csv.Row} {command : Command}

theorem commandOf_eq_ok_iff : commandOf columns row = .ok command ↔
    ∃ texts record, rowTexts row = .ok texts ∧ fill row.position [] {} columns texts = .ok record ∧
      Command.ofRecord record = .ok command := by
  simp only [commandOf, readRow, bind_eq_ok_iff, mapError_eq_ok_iff]
  constructor
  · rintro ⟨record, ⟨texts, ht, hf⟩, hc⟩
    exact ⟨texts, record, ht, hf, hc⟩
  · rintro ⟨texts, record, ht, hf, hc⟩
    exact ⟨record, ⟨texts, ht, hf⟩, hc⟩

/-- A row with the same fields says the same. -/
theorem commandOf_congr (hf : row'.fields = row.fields) (h : commandOf columns row = .ok command) :
    commandOf columns row' = .ok command := by
  obtain ⟨texts, record, ht, hr, hc⟩ := commandOf_eq_ok_iff.1 h
  refine commandOf_eq_ok_iff.2 ⟨texts, record, ?_, fill_congr hr, hc⟩
  unfold rowTexts at ht ⊢
  rw [hf]
  exact textsFrom_congr ht

theorem columnsOf_cons_eq_ok_iff {header : Csv.Row} {rows : List Csv.Row} :
    columnsOf (header :: rows) = .ok columns ↔
      ∃ names, headerNames header = .ok names ∧ (∀ c ∈ requiredColumns, c.name ∈ names) ∧
        columns = names.map Column.ofName? := by
  simp only [columnsOf, bind_eq_ok_iff, mapError_eq_ok_iff]
  refine exists_congr fun names => and_congr_right fun _ => ?_
  cases hmissing : requiredColumns.find? fun c => c.name ∉ names with
  | none =>
    have hall : ∀ c ∈ requiredColumns, c.name ∈ names := by simpa using hmissing
    exact ⟨fun h => ⟨hall, by cases h; rfl⟩, fun h => by rw [h.2]; rfl⟩
  | some c =>
    have hc := List.find?_some hmissing
    have hmem := List.mem_of_find?_eq_some hmissing
    exact ⟨nofun, fun h => absurd (h.1 c hmem) (by simpa using hc)⟩

/-- A script without a header lacks the columns that it has to have. -/
theorem columnsOf_nil : columnsOf [] = .error (.missingColumn .op) := rfl

theorem columnsOf_congr {header header' : Csv.Row} {rows rows' : List Csv.Row}
    (hf : header'.fields = header.fields) (h : columnsOf (header :: rows) = .ok columns) :
    columnsOf (header' :: rows') = .ok columns := by
  obtain ⟨names, hn, hall, hcolumns⟩ := columnsOf_cons_eq_ok_iff.1 h
  refine columnsOf_cons_eq_ok_iff.2 ⟨names, ?_, hall, hcolumns⟩
  unfold headerNames at hn ⊢
  rw [hf]
  exact textsFrom_congr hn

/-- Under a header, the rows are carried out. -/
theorem process_eq_applyRows {script : List UInt8} {header : Csv.Row} {rows : List Csv.Row}
    (hscript : Csv.records script = header :: rows)
    (hcolumns : columnsOf (header :: rows) = .ok columns) (r : Replay) (rules : Rules)
    (chances : Nat → Chance) :
    r.process rules chances script = applyRows rules columns chances 0 {} r rows := by
  unfold process
  rw [hscript]
  dsimp only
  rw [hcolumns, List.tail_cons]

/-- A row that says anything has fields for both columns that every script has. -/
theorem two_le_length_of_commandOf {rows : List Csv.Row} (hcolumns : columnsOf rows = .ok columns)
    (h : commandOf columns row = .ok command) : 2 ≤ row.fields.length := by
  obtain ⟨texts, record, ht, hfill, -⟩ := commandOf_eq_ok_iff.1 h
  have hlength : texts.length = row.fields.length := by
    simpa using length_of_textsFrom ht
  have hrequired : ∀ c ∈ requiredColumns, some c ∈ columns := by
    cases rows with
    | nil => exact absurd hcolumns (by simp [columnsOf_nil])
    | cons header rows =>
      obtain ⟨names, -, hall, rfl⟩ := columnsOf_cons_eq_ok_iff.1 hcolumns
      intro c hc
      exact List.mem_map.2 ⟨c.name, hall c hc, Column.ofName?_name c⟩
  have hsub : (requiredColumns.map some).Subperm columns := by
    refine List.subperm_of_subset (by decide) fun column hmem => ?_
    obtain ⟨c, hc, rfl⟩ := List.mem_map.1 hmem
    exact hrequired c hc
  calc 2 = (requiredColumns.map some).countP (·.all Column.isRequired) := rfl
    _ ≤ columns.countP (·.all Column.isRequired) := hsub.countP_le _
    _ ≤ texts.length := countP_le_of_fill hfill
    _ = row.fields.length := hlength

theorem two_le_length_of_columnsOf {header : Csv.Row} {rows : List Csv.Row}
    (h : columnsOf (header :: rows) = .ok columns) : 2 ≤ header.fields.length := by
  obtain ⟨names, hn, hall, -⟩ := columnsOf_cons_eq_ok_iff.1 h
  have hsub : (requiredColumns.map Column.name).Subperm names := by
    refine List.subperm_of_subset (by decide) fun name hmem => ?_
    obtain ⟨c, hc, rfl⟩ := List.mem_map.1 hmem
    exact hall c hc
  have hlength : names.length = header.fields.length := length_of_textsFrom hn
  calc 2 = (requiredColumns.map Column.name).length := rfl
    _ ≤ names.length := hsub.length_le
    _ = header.fields.length := hlength

end Replay
end CreditCircle.Script

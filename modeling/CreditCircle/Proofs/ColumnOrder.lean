/-
  The order of the columns.

  * `Record.place`, `foldl_place_perm`: fields are put under their columns in any order.
  * `TableColumn`, `tableRows`: a table by columns; `exists_table`: scripts whose rows all have as
    many fields are tables.
  * `Rearranged`: columns in another order, with other columns that are not known.
  * `process_rearranged`: a script with rearranged columns comes to the same.
-/
import CreditCircle.Proofs.EncodedRows
import CreditCircle.Proofs.ScriptRuns
import Mathlib.Data.List.FinRange

namespace CreditCircle.Script

open Text

/-! ## Records -/

/-- The record with a text under a column; an empty one is left out where no field is needed. -/
def Record.place (r : Record) (cell : Column × String) : Record :=
  if cell.2 = "" ∧ !cell.1.isRequired then r else r.set cell.2 cell.1

namespace Record

theorem set_comm {c c' : Column} (h : c ≠ c') (r : Record) (s s' : String) :
    (r.set s c).set s' c' = (r.set s' c').set s c := by
  cases c <;> cases c' <;> first | rfl | exact absurd rfl h

theorem place_comm {x y : Column × String} (h : x.1 ≠ y.1) (r : Record) :
    (r.place x).place y = (r.place y).place x := by
  unfold place
  split <;> split <;> first | rfl | exact set_comm h r _ _

/-- Texts under different columns are put there in any order. -/
theorem foldl_place_perm {cells cells' : List (Column × String)} (h : cells.Perm cells')
    (hd : (cells.map Prod.fst).Nodup) (r : Record) :
    cells.foldl place r = cells'.foldl place r := by
  refine h.foldl_eq' (fun x hx y hy r => ?_) r
  by_cases hxy : x = y
  · rw [hxy]
  · exact place_comm (fun hcolumn => hxy (List.inj_on_of_nodup_map hd hx hy hcolumn)) r

end Record

theorem Column.ofName?_eq_some_iff {s : String} {c : Column} : ofName? s = some c ↔ s = c.name := by
  constructor
  · intro h
    have hc := List.find?_some h
    exact (of_decide_eq_true hc).symm
  · rintro rfl
    exact ofName?_name c

/-! ## Tables by columns -/

/-- A column of a table with `n` rows below the header. -/
structure TableColumn (n : ℕ) where
  title : List UInt8
  cells : Fin n → List UInt8

namespace TableColumn

variable {n : ℕ}

/-- The name of a column. -/
def name (c : TableColumn n) : String := fieldText c.title

/-- The known column of that name. -/
def known (c : TableColumn n) : Option Column := Column.ofName? c.name

/-- The text in a row. -/
def text (c : TableColumn n) (i : Fin n) : String := fieldText (trimBytes (c.cells i))

end TableColumn

section
variable {n : ℕ} {columns columns' : List (TableColumn n)}

/-- The rows of a table, the header first. -/
def tableRows (columns : List (TableColumn n)) : List (List (List UInt8)) :=
  if columns.isEmpty then []
  else columns.map TableColumn.title :: (List.finRange n).map fun i => columns.map (·.cells i)

theorem tableRows_of_ne_nil (h : columns ≠ []) : tableRows columns =
    columns.map TableColumn.title :: (List.finRange n).map fun i => columns.map (·.cells i) := by
  rw [tableRows, if_neg (by simpa using h)]

/-- Rows that all have as many fields are the rows of a table. -/
theorem exists_tableRows {rows : List (List (List UInt8))} (hne : ∀ row ∈ rows, row ≠ [])
    (hl : ∀ row ∈ rows, ∀ row' ∈ rows, row.length = row'.length) :
    ∃ n, ∃ columns : List (TableColumn n), rows = tableRows columns := by
  cases rows with
  | nil => exact ⟨0, [], rfl⟩
  | cons header rows =>
    have hheader : header ≠ [] := hne header List.mem_cons_self
    let column (j : Fin header.length) : TableColumn rows.length :=
      ⟨header.get j, fun i => (rows.get i).getD j []⟩
    refine ⟨rows.length, (List.finRange header.length).map column, ?_⟩
    have hcells : ∀ i, ((List.finRange header.length).map column).map (·.cells i) = rows.get i := by
      intro i
      have hlength : header.length = (rows.get i).length :=
        hl header List.mem_cons_self _ (List.mem_cons_of_mem header (List.get_mem rows i))
      refine List.ext_getElem (by simp [hlength]) fun j hj hj' => ?_
      simp only [List.getElem_map, column, List.getElem_finRange, List.getD_eq_getElem?_getD]
      exact congrArg (Option.getD · []) (List.getElem?_eq_getElem hj')
    have hne' : (List.finRange header.length).map column ≠ [] := by
      simpa using hheader
    rw [tableRows_of_ne_nil hne', List.map_map]
    simp only [hcells]
    exact congrArg₂ _ (List.map_get_finRange header).symm (List.map_get_finRange rows).symm

/-- So is a script whose rows all have as many fields. -/
theorem exists_table {bs : List UInt8} (hl : ∀ row ∈ Csv.records bs, ∀ row' ∈ Csv.records bs,
    row.fields.length = row'.fields.length) :
    ∃ n, ∃ columns : List (TableColumn n), (Csv.records bs).map Csv.Row.fields =
      tableRows columns := by
  refine exists_tableRows (fun fields hfields => ?_) fun fields hfields fields' hfields' => ?_
  · obtain ⟨row, hrow, rfl⟩ := List.mem_map.1 hfields
    exact Csv.fields_ne_nil_of_mem_records hrow
  · obtain ⟨row, hrow, rfl⟩ := List.mem_map.1 hfields
    obtain ⟨row', hrow', rfl⟩ := List.mem_map.1 hfields'
    exact hl row hrow row' hrow'

/-- The known columns of a table. -/
def knownColumns (columns : List (TableColumn n)) : List Column :=
  columns.filterMap TableColumn.known

theorem tail_tableRows {c : Column} (h : c ∈ knownColumns columns) :
    (tableRows columns).tail = (List.finRange n).map fun i => columns.map (·.cells i) := by
  have hne : columns ≠ [] := by
    rintro rfl
    cases h
  rw [tableRows_of_ne_nil hne, List.tail_cons]

/-- What a row has in the known columns. -/
def knownCells (columns : List (TableColumn n)) (i : Fin n) : List (Column × String) :=
  columns.filterMap fun column => column.known.map fun c => (c, column.text i)

/-- The columns of a table are put in another order, and columns that are not known are put in or
    taken out. -/
inductive Rearranged : List (TableColumn n) → List (TableColumn n) → Prop
  | perm {xs ys : List (TableColumn n)} (h : xs.Perm ys) : Rearranged xs ys
  | insert {x : TableColumn n} {xs : List (TableColumn n)} (h : x.known = none) :
      Rearranged xs (x :: xs)
  | delete {x : TableColumn n} {xs : List (TableColumn n)} (h : x.known = none) :
      Rearranged (x :: xs) xs
  | trans {xs ys zs : List (TableColumn n)} (h : Rearranged xs ys) (h' : Rearranged ys zs) :
      Rearranged xs zs

theorem Rearranged.filterMap {α : Type} (h : Rearranged columns columns')
    {f : TableColumn n → Option α} (hf : ∀ column, column.known = none → f column = none) :
    (columns.filterMap f).Perm (columns'.filterMap f) := by
  induction h with
  | perm h => exact h.filterMap f
  | insert h => rw [List.filterMap_cons_none (hf _ h)]
  | delete h => rw [List.filterMap_cons_none (hf _ h)]
  | trans _ _ ih ih' => exact ih.trans ih'

theorem Rearranged.knownColumns (h : Rearranged columns columns') :
    (knownColumns columns).Perm (knownColumns columns') := h.filterMap fun _ => id

theorem Rearranged.knownCells (h : Rearranged columns columns') (i : Fin n) :
    (knownCells columns i).Perm (knownCells columns' i) :=
  h.filterMap fun column hc => by rw [hc]; rfl

theorem map_fst_knownCells (columns : List (TableColumn n)) (i : Fin n) :
    (knownCells columns i).map Prod.fst = knownColumns columns := by
  unfold knownCells knownColumns
  rw [List.map_filterMap]
  refine congrArg (List.filterMap · columns) (funext fun column => ?_)
  cases column.known <;> rfl

theorem name_mem_iff {c : Column} :
    c.name ∈ columns.map TableColumn.name ↔ c ∈ knownColumns columns := by
  simp only [knownColumns, List.mem_map, List.mem_filterMap, TableColumn.known,
    Column.ofName?_eq_some_iff]

/-- Known columns are different if their names are. -/
theorem nodup_knownColumns (h : (columns.map TableColumn.name).Nodup) :
    (knownColumns columns).Nodup := by
  have hmap : knownColumns columns = (columns.map TableColumn.name).filterMap Column.ofName? := by
    rw [List.filterMap_map]
    rfl
  rw [hmap]
  refine h.filterMap fun s s' c hs hs' => ?_
  rw [Column.ofName?_eq_some_iff.1 hs, Column.ofName?_eq_some_iff.1 hs']

/-- A row has one field in each column. -/
theorem fill_table (position : Csv.Position) (i : Fin n) :
    ∀ {columns : List (TableColumn n)} (done : List Column) (r : Record),
      (knownColumns columns).Nodup → (∀ c ∈ knownColumns columns, c ∉ done) →
      fill position done r (columns.map TableColumn.known) (columns.map (·.text i)) =
        .ok ((knownCells columns i).foldl Record.place r) := by
  intro columns
  induction columns with
  | nil => exact fun _ _ _ _ => rfl
  | cons column columns ih =>
    intro done r hd hdone
    cases hk : column.known with
    | none =>
      rw [knownColumns, List.filterMap_cons_none hk] at hd hdone
      rw [knownCells, List.filterMap_cons_none (by rw [hk]; rfl), List.map_cons, List.map_cons, hk]
      exact ih done r hd hdone
    | some c =>
      rw [knownColumns, List.filterMap_cons_some hk] at hd hdone
      rw [List.nodup_cons] at hd
      rw [List.forall_mem_cons] at hdone
      rw [knownCells, List.filterMap_cons_some (by rw [hk]; rfl), List.map_cons, List.map_cons, hk]
      refine fill_cons_eq_ok_iff.2 ⟨hdone.1, .inr ⟨_, _, rfl, ?_⟩⟩
      refine ih (c :: done) _ hd.2 fun c' hc' => ?_
      rw [List.mem_cons, not_or]
      exact ⟨fun heq => hd.1 (heq ▸ hc'), hdone.2 c' hc'⟩

end

namespace Replay

section
variable {n : ℕ} {columns columns' : List (TableColumn n)}

/-- The header of a table says its columns, if the required ones are there. -/
theorem columnsOf_table {rows : List Csv.Row}
    (ht : ∀ row ∈ rows, ∀ field ∈ row.fields, IsText field)
    (h : rows.map Csv.Row.fields = tableRows columns) : columnsOf rows =
      match requiredColumns.find? fun c => c.name ∉ columns.map TableColumn.name with
      | some c => .error (.missingColumn c)
      | none => .ok (columns.map TableColumn.known) := by
  cases rows with
  | nil =>
    cases columns with
    | nil => rfl
    | cons column columns => cases h
  | cons header rows =>
    cases columns with
    | nil => cases h
    | cons column columns =>
      rw [tableRows_of_ne_nil (List.cons_ne_nil _ _), List.map_cons, List.cons.injEq] at h
      have hnames : headerNames header = .ok ((column :: columns).map TableColumn.name) := by
        rw [headerNames_eq (ht header List.mem_cons_self), h.1, List.map_map]
        rfl
      have hcolumns : (column :: columns).map TableColumn.known =
          ((column :: columns).map TableColumn.name).map Column.ofName? := by
        rw [List.map_map]
        rfl
      unfold columnsOf
      dsimp only
      rw [hnames, hcolumns]
      rfl

/-- The command of a row of a table. -/
theorem commandOf_table {row : Csv.Row} {i : Fin n} (ht : ∀ field ∈ row.fields, IsText field)
    (h : row.fields = columns.map (·.cells i)) (hd : (knownColumns columns).Nodup) :
    commandOf (columns.map TableColumn.known) row =
      (Command.ofRecord ((knownCells columns i).foldl Record.place {})).mapError .record := by
  have htexts : rowTexts row = .ok (columns.map (·.text i)) := by
    rw [rowTexts_eq ht, h, List.map_map]
    rfl
  have hfill := fill_table row.position i [] {} hd fun _ _ => List.not_mem_nil
  have hrecord : readRow (columns.map TableColumn.known) row =
      .ok ((knownCells columns i).foldl Record.place {}) := by
    unfold readRow
    rw [htexts]
    exact hfill
  unfold commandOf
  rw [hrecord]
  rfl

end

/-! ## Rows that say the same -/

variable {rules : Rules} {columns columns' : List (Option Column)} {chances : Nat → Chance}

/-- Rows come to the same if they say the same, each under its own columns. -/
theorem applyRows_of_commandOf {rows rows' : List Csv.Row} (h : List.Forall₂
      (fun row row' => commandOf columns row = commandOf columns' row') rows rows') :
    ∀ (index : Nat) (r : Replay), applyRows rules columns chances index {} r rows =
      applyRows rules columns' chances index {} r rows' := by
  induction h with
  | nil => exact fun _ _ => rfl
  | cons hrow _ ih =>
    intro index r
    rw [applyRows_cons, applyRows_cons, applyRow, applyRow, hrow]
    simp only [ih]

theorem forall₂_of_map_eq_map {α β ι : Type} {R : α → α → Prop} {f : α → β} {g g' : ι → β} :
    ∀ {is : List ι} {xs ys : List α}, xs.map f = is.map g → ys.map f = is.map g' →
      (∀ x ∈ xs, ∀ y ∈ ys, ∀ i, f x = g i → f y = g' i → R x y) → List.Forall₂ R xs ys := by
  intro is
  induction is with
  | nil =>
    intro xs ys hx hy _
    obtain rfl : xs = [] := by simpa using hx
    obtain rfl : ys = [] := by simpa using hy
    exact .nil
  | cons i is ih =>
    intro xs ys hx hy hR
    cases xs with
    | nil => cases hx
    | cons x xs =>
      cases ys with
      | nil => cases hy
      | cons y ys =>
        rw [List.map_cons, List.map_cons, List.cons.injEq] at hx hy
        refine .cons (hR x List.mem_cons_self y List.mem_cons_self i hx.1 hy.1)
          (ih hx.2 hy.2 fun x' hx' y' hy' => ?_)
        exact hR x' (List.mem_cons_of_mem x hx') y' (List.mem_cons_of_mem y hy')

/-- A script comes to the same whatever the order of its columns and whichever unknown columns it
    has, if no column is named twice. -/
theorem process_rearranged {n : ℕ} {columns columns' : List (TableColumn n)}
    {script script' : List Char}
    (h : (Csv.records (Utf8.encode script)).map Csv.Row.fields = tableRows columns)
    (h' : (Csv.records (Utf8.encode script')).map Csv.Row.fields = tableRows columns')
    (hd : (columns.map TableColumn.name).Nodup) (hr : Rearranged columns columns') (r : Replay)
    (rules : Rules) (chances : Nat → Chance) :
    r.process rules chances (Utf8.encode script) =
      r.process rules chances (Utf8.encode script') := by
  have ht : ∀ {script}, ∀ row ∈ Csv.records (Utf8.encode script), ∀ field ∈ row.fields,
      IsText field := fun row hrow => Csv.isText_of_mem_records hrow
  -- Both headers lack the same required column, or none.
  have hmissing : (requiredColumns.find? fun c => c.name ∉ columns.map TableColumn.name) =
      requiredColumns.find? fun c => c.name ∉ columns'.map TableColumn.name := by
    refine congrArg (List.find? · requiredColumns) (funext fun c => ?_)
    refine decide_eq_decide.2 (not_congr ?_)
    rw [name_mem_iff, name_mem_iff, hr.knownColumns.mem_iff]
  have hknown := nodup_knownColumns hd
  have hknown' := hr.knownColumns.nodup_iff.1 hknown
  unfold process
  dsimp only
  rw [columnsOf_table ht h, columnsOf_table ht h', hmissing]
  cases hfind : requiredColumns.find? fun c => c.name ∉ columns'.map TableColumn.name with
  | some c => rfl
  | none =>
    have hop' : Column.op ∈ knownColumns columns' := by
      have hop := List.find?_eq_none.1 hfind .op (by decide)
      exact name_mem_iff.1 (by simpa using hop)
    have hop : Column.op ∈ knownColumns columns := hr.knownColumns.mem_iff.2 hop'
    have hrows := congrArg List.tail h
    have hrows' := congrArg List.tail h'
    rw [← List.map_tail, tail_tableRows hop] at hrows
    rw [← List.map_tail, tail_tableRows hop'] at hrows'
    -- Below them, the rows of both say the same one by one.
    refine applyRows_of_commandOf ?_ 0 r
    refine forall₂_of_map_eq_map hrows hrows' fun row hrow row' hrow' i hfields hfields' => ?_
    rw [commandOf_table (ht row (List.mem_of_mem_tail hrow)) hfields hknown,
      commandOf_table (ht row' (List.mem_of_mem_tail hrow')) hfields' hknown']
    have hrecord := Record.foldl_place_perm (hr.knownCells i)
      (by rw [map_fst_knownCells]; exact hknown) {}
    rw [hrecord]

/-- A column of a table with one row. -/
def oneRow (title text : String) : TableColumn 1 :=
  ⟨Utf8.encode title.toList, fun _ => Utf8.encode text.toList⟩

/-- An account is opened, with the columns the other way round and another one between them. -/
theorem process_rearranged_short :
    let rules : Rules := ⟨.standard, fun _ => true⟩
    let script := "op, ref \nopen,a\n".toList
    let script' := "colour, ref ,op\nred,a,\"open\"\n".toList
    ((start .empty).process rules .nth (Utf8.encode script)).1 = .ok ⟨1, []⟩ ∧
      (start .empty).process rules .nth (Utf8.encode script) =
        (start .empty).process rules .nth (Utf8.encode script') := by
  intro rules script script'
  have hcolour : (oneRow "colour" "red").known = none := by decide
  have hr : Rearranged [oneRow "op" "open", oneRow " ref " "a"]
      [oneRow "colour" "red", oneRow " ref " "a", oneRow "op" "open"] :=
    .trans (.perm (List.Perm.swap _ _ _)) (.insert hcolour)
  have htable : (Csv.records (Utf8.encode script)).map Csv.Row.fields =
      tableRows [oneRow "op" "open", oneRow " ref " "a"] := by decide
  have htable' : (Csv.records (Utf8.encode script')).map Csv.Row.fields =
      tableRows [oneRow "colour" "red", oneRow " ref " "a", oneRow "op" "open"] := by decide
  exact ⟨by decide, process_rearranged htable htable' (by decide) hr (start .empty) rules .nth⟩

end Replay

end CreditCircle.Script

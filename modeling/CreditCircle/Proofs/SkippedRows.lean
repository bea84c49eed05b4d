/-
  Rows that are skipped.

  * `Course`: which rows of a script are carried out, which are skipped, and where that leads.
  * `Ready.exists_course`, `Course.applyRows_eq`: every script has one, and it is what is reported.
  * `Course.again`: the rows that were carried out lead there by themselves.
  * `Ready.skipped_rows_no_effect`: a failure changes nothing, so a script without the rows that
    were skipped comes to the same.
-/
import CreditCircle.Proofs.CommandFailures
import CreditCircle.Proofs.CsvRoundTrip
import CreditCircle.Proofs.ScriptRows

namespace CreditCircle.Script.Replay

/-! ## The course of a script -/

/-- How rows were carried out, the first of which has the number `index`: the rows that were kept,
    with their numbers, and those that were skipped. -/
inductive Course (rules : Rules) (columns : List (Option Column)) (chances : Nat → Chance) :
    Nat → Replay → List Csv.Row → List (Csv.Row × Nat) → List Skipped → Replay → Prop
  | done {index : Nat} {r : Replay} : Course rules columns chances index r [] [] [] r
  | keep {index : Nat} {r r' r'' : Replay} {row : Csv.Row} {rows : List Csv.Row}
      {kept : List (Csv.Row × Nat)} {lost : List Skipped}
      (hrow : applyRow rules columns r (chances index) row = (.ok (), r'))
      (h : Course rules columns chances (index + 1) r' rows kept lost r'') :
      Course rules columns chances index r (row :: rows) ((row, index) :: kept) lost r''
  | skip {index : Nat} {r r' : Replay} {row : Csv.Row} {rows : List Csv.Row}
      {kept : List (Csv.Row × Nat)} {lost : List Skipped} {e : ReplayError}
      (hrow : applyRow rules columns r (chances index) row = (.error (.refused e), r))
      (h : Course rules columns chances (index + 1) r rows kept lost r') :
      Course rules columns chances index r (row :: rows) kept (⟨index + 2, e⟩ :: lost) r'

theorem Ready.exists_course {limits : DefaultLimits} (eligible : AccountNumber → Bool)
    (columns : List (Option Column)) (chances : Nat → Chance) (rows : List Csv.Row) :
    ∀ (index : Nat) {r : Replay}, r.Ready limits →
      ∃ kept lost r', Course ⟨limits, eligible⟩ columns chances index r rows kept lost r' := by
  induction rows with
  | nil => exact fun _ r _ => ⟨[], [], r, .done⟩
  | cons row rows ih =>
    intro index r h
    rcases applyRow_atomic h eligible columns (chances index) row with ⟨_, r', hrow, hr⟩ | ⟨e, hrow⟩
    · obtain ⟨kept, lost, r'', hc⟩ := ih (index + 1) hr
      exact ⟨_, _, _, hc.keep hrow⟩
    · obtain ⟨kept, lost, r', hc⟩ := ih (index + 1) h
      exact ⟨_, _, _, hc.skip hrow⟩

variable {rules : Rules} {columns : List (Option Column)} {chances : Nat → Chance} {index : Nat}
  {r r' : Replay} {rows : List Csv.Row} {kept : List (Csv.Row × Nat)} {lost : List Skipped}

namespace Course

theorem applyRows_eq (h : Course rules columns chances index r rows kept lost r')
    (summary : Summary) : applyRows rules columns chances index summary r rows =
      (.ok ⟨summary.applied + kept.length, summary.skipped.reverse ++ lost⟩, r') := by
  induction h generalizing summary with
  | done => simp [applyRows]
  | keep hrow _ ih =>
    unfold applyRows
    rw [hrow]
    dsimp only
    rw [ih, List.length_cons, Nat.add_right_comm, Nat.add_assoc]
  | skip hrow _ ih =>
    unfold applyRows
    rw [hrow]
    dsimp only
    rw [ih, List.reverse_cons, List.append_assoc, List.singleton_append]

theorem length_eq (h : Course rules columns chances index r rows kept lost r') :
    kept.length + lost.length = rows.length := by
  induction h with
  | done => rfl
  | keep _ _ ih => rw [List.length_cons, List.length_cons, ← ih]; omega
  | skip _ _ ih => rw [List.length_cons, List.length_cons, ← ih]; omega

theorem line_le (h : Course rules columns chances index r rows kept lost r') :
    ∀ skipped ∈ lost, index + 2 ≤ skipped.line := by
  induction h with
  | done => simp
  | keep _ _ ih =>
    intro s hs
    have := ih s hs
    omega
  | skip _ _ ih =>
    intro s hs
    rcases List.mem_cons.1 hs with rfl | hs
    · exact Nat.le_refl _
    · have := ih s hs
      omega

/-- The rows that were kept are those that are not reported. -/
theorem kept_eq (h : Course rules columns chances index r rows kept lost r') :
    kept = (rows.zipIdx index).filter fun row => row.2 + 2 ∉ lost.map Skipped.line := by
  induction h with
  | done => rfl
  | @keep index _ _ _ row _ _ lost _ h ih =>
    have hline : index + 2 ∉ lost.map Skipped.line := by
      intro hmem
      obtain ⟨s, hs, hline⟩ := List.mem_map.1 hmem
      have := h.line_le s hs
      omega
    rw [List.zipIdx_cons, List.filter_cons_of_pos (by simpa using hline), ← ih]
  | @skip index _ _ row rows _ lost e _ _ ih =>
    rw [List.zipIdx_cons, List.filter_cons_of_neg (by simp), ih]
    refine List.filter_congr fun row hrow => ?_
    -- The rows behind the one that is skipped have greater numbers.
    have hindex : index + 1 ≤ row.2 := List.le_snd_of_mem_zipIdx hrow
    have hne : row.2 ≠ index := by omega
    simp [hne]

theorem commandOf_eq_ok (h : Course rules columns chances index r rows kept lost r') :
    ∀ row ∈ kept, ∃ command, commandOf columns row.1 = .ok command := by
  induction h with
  | done => simp
  | @keep index r r' r'' row rows kept lost hrow h ih =>
    intro other hother
    rcases List.mem_cons.1 hother with rfl | hother
    · cases hc : commandOf columns row with
      | ok command => exact ⟨command, rfl⟩
      | error e =>
        rw [applyRow, hc] at hrow
        cases hrow
    · exact ih other hother
  | skip _ _ ih => exact ih

end Course

/-- A row with the same fields is carried out in the same way. -/
theorem applyRow_congr {chance : Chance} {row row' : Csv.Row} (hf : row'.fields = row.fields)
    (h : applyRow rules columns r chance row = (.ok (), r')) :
    applyRow rules columns r chance row' = (.ok (), r') := by
  unfold applyRow at h ⊢
  cases hc : commandOf columns row with
  | ok command => rw [commandOf_congr hf hc, ← h, hc]
  | error e =>
    rw [hc] at h
    cases h

/-- The rows that were kept lead to the same replay by themselves, if each draws what it drew. -/
theorem Course.again (h : Course rules columns chances index r rows kept lost r')
    {rows' : List Csv.Row} {chances' : Nat → Chance} {index' : Nat}
    (hrows : rows'.map Csv.Row.fields = kept.map fun row => row.1.fields)
    (hdraws : ∀ k row, kept[k]? = some row → chances' (index' + k) = chances row.2)
    (summary : Summary) : applyRows rules columns chances' index' summary r rows' =
      (.ok ⟨summary.applied + kept.length, summary.skipped.reverse⟩, r') := by
  induction h generalizing rows' index' summary with
  | done =>
    obtain rfl : rows' = [] := by simpa using hrows
    simp [applyRows]
  | @keep index r r' r'' row rows kept lost hrow h ih =>
    cases rows' with
    | nil => simp at hrows
    | cons row' rows' =>
      rw [List.map_cons, List.map_cons, List.cons.injEq] at hrows
      have hchance : chances' index' = chances index := hdraws 0 _ rfl
      have hrest : ∀ k row, kept[k]? = some row → chances' (index' + 1 + k) = chances row.2 := by
        intro k other hk
        rw [Nat.add_assoc, Nat.add_comm 1 k]
        exact hdraws (k + 1) other hk
      unfold applyRows
      rw [hchance, applyRow_congr hrows.1 hrow]
      dsimp only
      rw [ih hrows.2 hrest, List.length_cons, Nat.add_right_comm, Nat.add_assoc]
  | skip _ _ ih => exact ih hrows hdraws summary

/-! ## Scripts without the rows that were skipped -/

/-- The rows that were not skipped, with their numbers. -/
def Summary.carriedOut (summary : Summary) (rows : List Csv.Row) : List (Csv.Row × Nat) :=
  rows.zipIdx.filter fun row => row.2 + 2 ∉ summary.skipped.map Skipped.line

/-- `script'` is `script` without the rows that were skipped, and each row draws there what it drew
    here. -/
structure Shortens (summary : Summary) (script : List UInt8) (chances : Nat → Chance)
    (script' : List UInt8) (chances' : Nat → Chance) : Prop where
  header : (Csv.records script').head?.map Csv.Row.fields =
    (Csv.records script).head?.map Csv.Row.fields
  rows : (Csv.records script').tail.map Csv.Row.fields =
    (summary.carriedOut (Csv.records script).tail).map fun row => row.1.fields
  draws : ∀ k row, (summary.carriedOut (Csv.records script).tail)[k]? = some row →
    chances' k = chances row.2

/-- There is such a script, if header and rows have fields for both columns that it has to have. -/
theorem exists_shortens {script : List UInt8} {header : Csv.Row} {rows : List Csv.Row}
    (hscript : Csv.records script = header :: rows) {summary : Summary}
    (hheader : 2 ≤ header.fields.length)
    (hrows : ∀ row ∈ summary.carriedOut rows, 2 ≤ row.1.fields.length) :
    ∃ script' chances', Shortens summary script chances script' chances' := by
  let table := header.fields :: (summary.carriedOut rows).map fun row => row.1.fields
  have hv : ∀ record ∈ table, Csv.Reading.Visible record := by
    intro record hrecord
    refine Csv.Reading.visible_of_two_le ?_
    rcases List.mem_cons.1 hrecord with rfl | hrecord
    · exact hheader
    · obtain ⟨row, hrow, rfl⟩ := List.mem_map.1 hrecord
      exact hrows row hrow
  have hrecords := Csv.records_marked hv
  refine ⟨Csv.byteOrderMark ++ table.flatMap Csv.writeRecord,
    fun k => chances (((summary.carriedOut rows)[k]?.map Prod.snd).getD 0), ?_, ?_, ?_⟩
  · rw [← List.head?_map, hrecords, hscript]
    rfl
  · rw [List.map_tail, hrecords, hscript]
    rfl
  · intro k row hk
    rw [hscript, List.tail_cons] at hk
    rw [hk]
    rfl

/-- Whatever is refused leaves aliases, labels and ledger as they were.  So a script is carried out
    to its end, and without the rows that it skips it comes to the same replay with nothing left to
    skip. -/
theorem Ready.skipped_rows_no_effect {limits : DefaultLimits} (h : r.Ready limits)
    (eligible : AccountNumber → Bool) :
    (∀ chance command f, (r.apply ⟨limits, eligible⟩ chance command).1 = .error f →
      (r.apply ⟨limits, eligible⟩ chance command).2 = r) ∧
    ∀ chances script columns, columnsOf (Csv.records script) = .ok columns →
      ∃ summary r', r.process ⟨limits, eligible⟩ chances script = (.ok summary, r') ∧
        summary.applied = (summary.carriedOut (Csv.records script).tail).length ∧
        summary.applied + summary.skipped.length = (Csv.records script).tail.length ∧
        (∃ script' chances', Shortens summary script chances script' chances') ∧
        ∀ script' chances', Shortens summary script chances script' chances' →
          r.process ⟨limits, eligible⟩ chances' script' = (.ok ⟨summary.applied, []⟩, r') := by
  refine ⟨fun chance command f hf => ?_, fun chances script columns hcolumns => ?_⟩
  · rcases apply_atomic h eligible chance command with ⟨a, r', hok, -⟩ | ⟨e, hrefused⟩
    · rw [hok] at hf; cases hf
    · rw [hrefused]
  cases hscript : Csv.records script with
  | nil => rw [hscript, columnsOf_nil] at hcolumns; cases hcolumns
  | cons header rows =>
    rw [hscript] at hcolumns
    obtain ⟨kept, lost, r', hc⟩ := h.exists_course eligible columns chances rows 0
    have hkept : Summary.carriedOut ⟨0 + kept.length, lost⟩ rows = kept := hc.kept_eq.symm
    have hprocess : r.process ⟨limits, eligible⟩ chances script =
        (.ok ⟨0 + kept.length, lost⟩, r') :=
      (process_eq_applyRows hscript hcolumns ..).trans (hc.applyRows_eq {})
    refine ⟨⟨0 + kept.length, lost⟩, r', hprocess, ?_, ?_, ?_, ?_⟩
    · rw [List.tail_cons, hkept, Nat.zero_add]
    · rw [List.tail_cons, Nat.zero_add]
      exact hc.length_eq
    · refine exists_shortens hscript (two_le_length_of_columnsOf hcolumns) fun row hrow => ?_
      rw [hkept] at hrow
      obtain ⟨command, hcommand⟩ := hc.commandOf_eq_ok row hrow
      exact two_le_length_of_commandOf hcolumns hcommand
    · rintro script' chances' ⟨hheader, hrows, hdraws⟩
      rw [hscript, List.tail_cons, hkept] at hrows hdraws
      rw [hscript] at hheader
      cases hscript' : Csv.records script' with
      | nil => rw [hscript'] at hheader; cases hheader
      | cons header' rows' =>
        rw [hscript'] at hheader hrows
        rw [process_eq_applyRows hscript' (columnsOf_congr (Option.some.inj hheader) hcolumns)]
        refine hc.again hrows (fun k row hk => ?_) {}
        rw [Nat.zero_add]
        exact hdraws k row hk

/-- A script that opens one account twice and then another one. -/
def openTwice : List UInt8 := Text.Utf8.encode "op,ref\nopen,a\nopen,a\nopen,b\n".toList

/-- A script that opens both accounts once. -/
def openOnce : List UInt8 := Text.Utf8.encode "op,ref\nopen,a\nopen,b\n".toList

/-- The row that opens an account again is skipped, and might as well not be there. -/
theorem Ready.skipped_rows_no_effect_twice :
    let rules : Rules := ⟨.standard, fun _ => true⟩
    ∃ r', (start .empty).process rules .nth openTwice =
        (.ok ⟨2, [⟨3, .duplicateEntity "a"⟩]⟩, r') ∧
      (start .empty).process rules (fun k => .nth (2 * k)) openOnce = (.ok ⟨2, []⟩, r') := by
  intro rules
  have hready : (start .empty).Ready .standard := Ready.start_empty
  obtain ⟨summary, r', hrun, -, -, -, hshort⟩ :=
    (hready.skipped_rows_no_effect fun _ => true).2 .nth openTwice [some .op, some .ref] (by decide)
  have hresult : ((start .empty).process rules .nth openTwice).1 =
      .ok ⟨2, [⟨3, .duplicateEntity "a"⟩]⟩ := by decide
  have hsummary : summary = ⟨2, [⟨3, .duplicateEntity "a"⟩]⟩ :=
    Except.ok.inj ((congrArg Prod.fst hrun).symm.trans hresult)
  subst hsummary
  have hkept : (Summary.carriedOut ⟨2, [⟨3, .duplicateEntity "a"⟩]⟩
    (Csv.records openTwice).tail).map Prod.snd = [0, 2] := by decide
  refine ⟨r', hrun, hshort openOnce _ ⟨by decide, by decide, fun k row hk => ?_⟩⟩
  have hindex : [0, 2][k]? = some row.2 := by rw [← hkept, List.getElem?_map, hk]; rfl
  rw [show row.2 = 2 * k by grind]

end CreditCircle.Script.Replay

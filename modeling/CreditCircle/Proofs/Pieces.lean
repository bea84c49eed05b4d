/-
  Scripts in pieces.

  * `HeaderLine`: a line of plain names, read as one record (`HeaderLine.read`).
  * `Agree`, `applyRows_congr`: rows with the same fields come to the same, wherever they stand.
  * `process_pieces`: a script comes to the same as its two parts, the second behind the header
    again.
-/
import CreditCircle.Proofs.CsvParts
import CreditCircle.Proofs.EncodedRows
import CreditCircle.Proofs.Replays
import CreditCircle.Proofs.ScriptRuns
import CreditCircle.Script.Report

namespace CreditCircle.Script

open Text

/-- The characters that divide lines and fields, and the mark. -/
def specialChars : List Char := [',', '"', '\n', '\r', '\uFEFF']

/-- A name without such characters. -/
def IsPlainName (name : String) : Prop := ∀ c ∈ name.toList, c ∉ specialChars

instance (name : String) : Decidable (IsPlainName name) :=
  List.decidableBAll (· ∉ specialChars) name.toList

/-- A header line: plain names, those of the required columns among them, and the end of the line.
    A mark may stand in front. -/
inductive HeaderLine : List UInt8 → Prop
  | mk {mark lineBreak : List UInt8} {names : List String} (hm : mark ∈ [[], Csv.byteOrderMark])
      (hp : ∀ name ∈ names, IsPlainName name)
      (hn : ∀ c ∈ Replay.requiredColumns, c.name ∈ names.map strip)
      (hb : lineBreak ∈ Csv.lineBreaks) :
      HeaderLine (mark ++ ([Csv.comma].intercalate (fieldBytes names) ++ lineBreak))

theorem IsPlainName.isPlain {name : String} (h : IsPlainName name) :
    ∀ b ∈ Utf8.encode name.toList, Csv.IsPlain b := by
  intro b hb
  obtain ⟨c, hc, hb⟩ := List.mem_flatMap.1 hb
  have hne : ∀ c' ∈ specialChars, ∀ b' : UInt8, b'.toNat < 0x80 →
      c'.toNat = b'.toNat → b ≠ b' := by
    rintro c' hc' b' hsmall heq rfl
    have hcode := Utf8.toNat_of_mem_encodeChar hb hsmall
    have : c = c' := Char.toNat_inj.1 (hcode.trans heq.symm)
    exact h c hc (this ▸ hc')
  exact ⟨hne ',' (by decide) _ (by decide) rfl, hne '"' (by decide) _ (by decide) rfl,
    hne '\n' (by decide) _ (by decide) rfl, hne '\r' (by decide) _ (by decide) rfl⟩

/-- Plain names, if there are two at least, do not start with a mark. -/
theorem isPrefixOf_names {names : List String} (hp : ∀ name ∈ names, IsPlainName name)
    (htwo : 2 ≤ (fieldBytes names).length) (rest : List UInt8) :
    Csv.byteOrderMark.isPrefixOf ([Csv.comma].intercalate (fieldBytes names) ++ rest) = false := by
  match names, hp, htwo with
  | name :: next :: names, hp, _ =>
    unfold fieldBytes
    rw [List.map_cons, List.map_cons, List.intercalate_cons_cons, List.append_assoc,
      List.append_assoc]
    rw [Bool.eq_false_iff, Ne, List.isPrefixOf_iff_prefix]
    intro hmark
    obtain ⟨cs, hcs⟩ := Utf8.eq_of_mark (fun hcomma => by cases hcomma) hmark
    exact hp name List.mem_cons_self '\uFEFF' (by rw [hcs]; exact List.mem_cons_self) (by decide)

/-- Names say the columns, if those of the required ones are there. -/
theorem columnsOf_of_names {names : List String} {header : Csv.Row}
    (hn : ∀ c ∈ Replay.requiredColumns, c.name ∈ names.map strip) (rows : List Csv.Row)
    (hf : header.fields = fieldBytes names) :
    Replay.columnsOf (header :: rows) = .ok ((names.map strip).map Column.ofName?) := by
  refine Replay.columnsOf_cons_eq_ok_iff.2 ⟨names.map strip, ?_, hn, rfl⟩
  have htexts : ∀ field ∈ header.fields, IsText field := by
    rw [hf]
    intro field hfield
    obtain ⟨name, -, rfl⟩ := List.mem_map.1 hfield
    exact ⟨name.toList, rfl⟩
  rw [headerNames_eq htexts, hf, fieldBytes, List.map_map]
  exact congrArg Except.ok (List.map_congr_left fun name _ => fieldText_encode name.toList)

/-- A header line is one record, which says the columns. -/
theorem HeaderLine.read {header : List UInt8} (h : HeaderLine header) :
    Csv.Reading.Between (Csv.read header).state ∧ (∃ b ∈ header, b ∉ Csv.byteOrderMark) ∧
      ∃ fields columns, (Csv.records header).map Csv.Row.fields = [fields] ∧
        ∀ row rows, row.fields = fields → Replay.columnsOf (row :: rows) = .ok columns := by
  obtain @⟨mark, lineBreak, names, hm, hp, hn, hb⟩ := h
  have hcolumns : ∀ row rows, row.fields = fieldBytes names →
      Replay.columnsOf (row :: rows) = .ok ((names.map strip).map Column.ofName?) :=
    fun _ rows => columnsOf_of_names hn rows
  have htwo : 2 ≤ (fieldBytes names).length :=
    Replay.two_le_length_of_columnsOf (hcolumns ⟨{}, fieldBytes names⟩ [] rfl)
  have hvisible := Csv.Reading.visible_of_two_le htwo
  have hplain : ∀ field ∈ fieldBytes names, ∀ b ∈ field, Csv.IsPlain b := by
    intro field hfield
    obtain ⟨name, hname, rfl⟩ := List.mem_map.1 hfield
    exact (hp name hname).isPlain
  have hstart : Csv.start (mark ++ ([Csv.comma].intercalate (fieldBytes names) ++ lineBreak)) =
      ({ byte := mark.length }, [Csv.comma].intercalate (fieldBytes names) ++ lineBreak) := by
    obtain rfl | rfl : mark = [] ∨ mark = Csv.byteOrderMark := by simpa using hm
    · exact Csv.start_unmarked (isPrefixOf_names hp htwo lineBreak)
    · exact Csv.start_marked _
  have hat : Csv.Reading.At { byte := mark.length } .recordStart [] [] [] := ⟨rfl, rfl, rfl, rfl⟩
  obtain ⟨state, last, before, hline, hended, hfields⟩ :=
    hat.line (.inl rfl) hvisible.1 hplain (.inr hvisible.2)
  obtain ⟨hbetween, hrows⟩ := hline.lineBreak hended hb
  rw [← Csv.Reading.feed_append] at hbetween hrows
  unfold Csv.records Csv.read
  rw [hstart]
  dsimp only
  refine ⟨hbetween, ?_, fieldBytes names, _, ?_, hcolumns⟩
  · have hend : ∀ lineBreak ∈ Csv.lineBreaks, ∃ b ∈ lineBreak, b ∉ Csv.byteOrderMark := by decide
    obtain ⟨b, hmem, hmark⟩ := hend lineBreak hb
    exact ⟨b, List.mem_append_right _ (List.mem_append_right _ hmem), hmark⟩
  · rw [Csv.Reading.finish_of_between hbetween, List.map_reverse, hrows, hfields]
    rfl

namespace Replay

/-! ## Rows with the same fields -/

/-- How many rows were carried out, and how many were skipped. -/
def Summary.counts (s : Summary) : ℕ × ℕ := (s.applied, s.skipped.length)

theorem Summary.counts_append (s s' : Summary) : (s.append s').counts = s.counts + s'.counts := by
  simp [counts, append]

/-- Two executions of some rows lead to the same replay, and have carried out and skipped as many,
    or have been stopped by the same failure. -/
structure Agree (o o' : Outcome Summary) : Prop where
  replay : o.2 = o'.2
  counts : o.1.map Summary.counts = o'.1.map Summary.counts

theorem Agree.refl (o : Outcome Summary) : Agree o o := ⟨rfl, rfl⟩

theorem Agree.trans {o o' o'' : Outcome Summary} (h : Agree o o') (h' : Agree o' o'') :
    Agree o o'' :=
  ⟨h.replay.trans h'.replay, h.counts.trans h'.counts⟩

theorem map_counts_append (s : Summary) (o : Except (Failure ReplayError) Summary) :
    (o.map s.append).map Summary.counts = (o.map Summary.counts).map (s.counts + ·) := by
  cases o with
  | error f => rfl
  | ok s' => exact congrArg Except.ok (s.counts_append s')

theorem Agree.followed {o o' : Outcome Summary} {next next' : Replay → Outcome Summary}
    (h : Agree o o') (hn : ∀ r, Agree (next r) (next' r)) :
    Agree (followed o next) (followed o' next') := by
  obtain ⟨result, r⟩ := o
  obtain ⟨result', r'⟩ := o'
  obtain ⟨rfl, hcounts⟩ := h
  cases result with
  | error f =>
    cases result' with
    | error f' => exact ⟨rfl, hcounts⟩
    | ok s' => cases hcounts
  | ok s =>
    cases result' with
    | error f' => cases hcounts
    | ok s' =>
      have hs : s.counts = s'.counts := Except.ok.inj hcounts
      refine ⟨(hn r).replay, ?_⟩
      show Except.map _ (Except.map _ _) = Except.map _ (Except.map _ _)
      rw [map_counts_append, map_counts_append, hs, (hn r).counts]

section
variable {rules : Rules} {columns : List (Option Column)} {chances chances' : Nat → Chance}

/-- A row with the same fields comes to the same, unless it says nothing. -/
theorem applyRow_of_fields {row row' : Csv.Row} (hf : row.fields = row'.fields) (r : Replay)
    (chance : Chance) :
    applyRow rules columns r chance row = applyRow rules columns r chance row' ∨
      ∃ e e', applyRow rules columns r chance row = (.error (.refused e), r) ∧
        applyRow rules columns r chance row' = (.error (.refused e'), r) := by
  unfold applyRow
  cases h : commandOf columns row with
  | ok command =>
    rw [commandOf_congr hf.symm h]
    exact .inl rfl
  | error e =>
    cases h' : commandOf columns row' with
    | ok command =>
      rw [commandOf_congr hf h'] at h
      cases h
    | error e' => exact .inr ⟨e, e', rfl, rfl⟩

/-- It does not matter where a row stands. -/
theorem rowSummary_agree (result : Except (Failure ReplayError) Unit) (r : Replay)
    (index index' : ℕ) : Agree (rowSummary index result, r) (rowSummary index' result, r) := by
  match result with
  | .ok () => exact ⟨rfl, rfl⟩
  | .error (.refused e) => exact ⟨rfl, rfl⟩
  | .error (.crashed _) => exact ⟨rfl, rfl⟩
  | .error .blocked => exact ⟨rfl, rfl⟩

/-- Rows with the same fields come to the same, if they draw the same. -/
theorem applyRows_congr : ∀ {rows rows' : List Csv.Row} (index index' : ℕ),
    rows.map Csv.Row.fields = rows'.map Csv.Row.fields →
    (∀ k < rows.length, chances (index + k) = chances' (index' + k)) → ∀ r,
      Agree (applyRows rules columns chances index {} r rows)
        (applyRows rules columns chances' index' {} r rows') := by
  intro rows
  induction rows with
  | nil =>
    intro rows' index index' hf _ r
    obtain rfl : rows' = [] := by simpa using hf.symm
    exact ⟨rfl, rfl⟩
  | cons row rows ih =>
    intro rows' index index' hf hchances r
    cases rows' with
    | nil => cases hf
    | cons row' rows' =>
      rw [List.map_cons, List.map_cons, List.cons.injEq] at hf
      have hfirst : chances index = chances' index' := hchances 0 (Nat.zero_lt_succ _)
      have hnext : ∀ r, Agree (applyRows rules columns chances (index + 1) {} r rows)
          (applyRows rules columns chances' (index' + 1) {} r rows') := by
        refine ih (index + 1) (index' + 1) hf.2 fun k hk => ?_
        rw [Nat.add_assoc, Nat.add_assoc, Nat.add_comm 1]
        exact hchances (k + 1) (Nat.succ_lt_succ hk)
      rw [applyRows_cons, applyRows_cons, hfirst]
      refine Agree.followed ?_ hnext
      rcases applyRow_of_fields hf.1 r (chances' index') with heq | ⟨e, e', hrow, hrow'⟩
      · rw [heq]
        exact rowSummary_agree _ _ _ _
      · rw [hrow, hrow']
        exact ⟨rfl, rfl⟩

end

/-! ## Pieces -/

section
variable {limits : DefaultLimits} (eligible : AccountNumber → Bool) (columns : List (Option Column))
  (chances : Nat → Chance)

theorem rowSummary_ne_refused (index : ℕ) (result : Except (Failure ReplayError) Unit)
    (e : ReplayError) : rowSummary index result ≠ .error (.refused e) := by
  match result with
  | .ok () | .error (.refused _) | .error (.crashed _) | .error .blocked => exact nofun

theorem followed_ne_refused {o : Outcome Summary} {next : Replay → Outcome Summary}
    {e : ReplayError} (h : o.1 ≠ .error (.refused e)) (hn : ∀ r, (next r).1 ≠ .error (.refused e)) :
    (followed o next).1 ≠ .error (.refused e) := by
  obtain ⟨f | s, r⟩ := o
  · exact h
  · intro hmap
    have hmap : (next r).1.map s.append = .error (.refused e) := hmap
    cases hr : (next r).1 with
    | error f =>
      rw [hr] at hmap
      cases hmap
      exact hn r hr
    | ok s' =>
      rw [hr] at hmap
      cases hmap

/-- A row that is refused is skipped. -/
theorem applyRows_ne_refused (rules : Rules) (e : ReplayError) (rows : List Csv.Row) :
    ∀ (index : Nat) (r : Replay),
      (applyRows rules columns chances index {} r rows).1 ≠ .error (.refused e) := by
  induction rows with
  | nil => exact fun _ _ h => by cases h
  | cons row rows ih =>
    intro index r
    rw [applyRows_cons]
    exact followed_ne_refused (rowSummary_ne_refused index _ e) (ih (index + 1))

/-- Nothing stops the rows of a script. -/
theorem exists_applyRows (rows : List Csv.Row) {r : Replay} (h : r.ledger.Reachable limits) :
    ∃ s r', applyRows ⟨limits, eligible⟩ columns chances 0 {} r rows = (.ok s, r') ∧
      r'.ledger.Reachable limits := by
  have horderly := applyRows_orderly eligible columns chances rows 0 {} h
  have hne := applyRows_ne_refused columns chances ⟨limits, eligible⟩
  cases ho : applyRows ⟨limits, eligible⟩ columns chances 0 {} r rows with
  | mk result r' =>
    rw [ho] at horderly
    cases result with
    | ok s => exact ⟨s, r', rfl, horderly.ledger⟩
    | error f =>
      obtain ⟨e, rfl⟩ := horderly.refused f rfl
      exact absurd (congrArg Prod.fst ho) (hne e rows 0 r)

end

/-- A script with a known header is carried out row by row. -/
theorem process_eq_of_fields {columns : List (Option Column)} {script : List UInt8}
    {header : List (List UInt8)} {rows : List (List (List UInt8))}
    (hcolumns : ∀ row rows, row.fields = header → columnsOf (row :: rows) = .ok columns)
    (h : (Csv.records script).map Csv.Row.fields = header :: rows) (r : Replay) (rules : Rules)
    (chances : Nat → Chance) : r.process rules chances script =
      applyRows rules columns chances 0 {} r (Csv.records script).tail := by
  cases hscript : Csv.records script with
  | nil => rw [hscript] at h; cases h
  | cons row rows =>
    rw [hscript, List.map_cons, List.cons.injEq] at h
    exact process_eq_applyRows hscript (hcolumns row rows h.1) r rules chances

/-- A script comes to the same as its two parts, the second one behind the header again, if the
    first part ends with the end of a record: the same replay, and as many rows that were carried
    out and that were skipped as in the two parts together.  The rows of the second part draw what
    they draw in the whole script. -/
theorem process_pieces {header before : List UInt8} (hh : HeaderLine header)
    (hb : Csv.EndsRecord header before) (after : List UInt8) (r : Replay) (rules : Rules)
    (chances : Nat → Chance) :
    let rest := fun k => chances ((Csv.records (header ++ before)).tail.length + k)
    Agree (r.process rules chances (header ++ before ++ after))
        (followed (r.process rules chances (header ++ before)) fun r =>
          r.process rules rest (header ++ after)) ∧
      (r.ledger.Reachable rules.limits → ∃ s₁ r₁ s₂ r₂ s,
        r.process rules chances (header ++ before) = (.ok s₁, r₁) ∧
        r₁.process rules rest (header ++ after) = (.ok s₂, r₂) ∧
        r.process rules chances (header ++ before ++ after) = (.ok s, r₂) ∧
        s.applied = s₁.applied + s₂.applied ∧
        s.skipped.length = s₁.skipped.length + s₂.skipped.length) := by
  intro rest
  obtain ⟨hbetween, hmark, fields, columns, hheader, hcolumns⟩ := hh.read
  have hmark' : ∃ b ∈ header ++ before, b ∉ Csv.byteOrderMark := by
    obtain ⟨b, hb, hb'⟩ := hmark
    exact ⟨b, List.mem_append_left before hb, hb'⟩
  -- The records of each script are the header and the records behind it.
  have hfirst := Csv.map_fields_records_append hbetween hmark before
  have hsecond := Csv.map_fields_records_append hbetween hmark after
  have hwhole := Csv.map_fields_records_append (hb.between hbetween hmark) hmark' after
  rw [hheader, List.singleton_append] at hfirst hsecond
  rw [hfirst, List.cons_append] at hwhole
  have hrun₁ := process_eq_of_fields hcolumns hfirst
  have hrun₂ := process_eq_of_fields hcolumns hsecond
  have hrun := process_eq_of_fields hcolumns hwhole
  have hagree : Agree (r.process rules chances (header ++ before ++ after))
      (followed (r.process rules chances (header ++ before)) fun r =>
        r.process rules rest (header ++ after)) := by
    have hfields : (Csv.records (header ++ before ++ after)).tail.map Csv.Row.fields =
        ((Csv.records (header ++ before)).tail ++
          (Csv.records (header ++ after)).tail).map Csv.Row.fields := by
      rw [List.map_append, List.map_tail, List.map_tail, List.map_tail, hwhole, hfirst, hsecond]
      rfl
    simp only [hrun, hrun₁, hrun₂]
    refine (applyRows_congr 0 0 hfields (fun _ _ => rfl) r).trans ?_
    rw [applyRows_append]
    exact (Agree.refl _).followed fun r => applyRows_congr _ 0 rfl
      (fun k _ => by rw [Nat.zero_add, Nat.zero_add]) r
  refine ⟨hagree, fun hr => ?_⟩
  obtain ⟨limits, eligible⟩ := rules
  obtain ⟨s₁, r₁, ho₁, hr₁⟩ := exists_applyRows eligible columns chances
    (Csv.records (header ++ before)).tail hr
  obtain ⟨s₂, r₂, ho₂, -⟩ := exists_applyRows eligible columns rest
    (Csv.records (header ++ after)).tail hr₁
  obtain ⟨s, r', ho, -⟩ := exists_applyRows eligible columns chances
    (Csv.records (header ++ before ++ after)).tail hr
  rw [← hrun₁] at ho₁
  rw [← hrun₂] at ho₂
  rw [← hrun] at ho
  have hfollowed : followed (r.process ⟨limits, eligible⟩ chances (header ++ before)) (fun r =>
      r.process ⟨limits, eligible⟩ rest (header ++ after)) = (.ok (s₁.append s₂), r₂) :=
    followed_eq_ok_iff.2 ⟨s₁, r₁, s₂, ho₁, ho₂, rfl⟩
  rw [ho, hfollowed] at hagree
  obtain ⟨rfl, hcounts⟩ := hagree
  have hcounts : s.counts = (s₁.append s₂).counts := Except.ok.inj hcounts
  rw [Summary.counts_append] at hcounts
  exact ⟨s₁, r₁, s₂, _, s, ho₁, ho₂, ho, congrArg Prod.fst hcounts, congrArg Prod.snd hcounts⟩

/-- The header of a script with two columns. -/
def shortHeader : List UInt8 := Utf8.encode "op,ref\n".toList

/-- The start of a script, up to a carriage return. -/
def shortStart : List UInt8 := Utf8.encode "open,a\r\n\r\nopen\r".toList

/-- The rest of it, from the line feed on: an account, one that is there already, and a byte that
    belongs to no text. -/
def shortRest : List UInt8 := Utf8.encode "\nopen,b\nopen,a\n".toList ++ [0xFF, Csv.comma]

/-- The rows of the script are carried out and skipped as in the two parts. -/
theorem process_pieces_short :
    let rules : Rules := ⟨.standard, fun _ => true⟩
    ∃ s₁ r₁ s₂ r₂ s,
      (start .empty).process rules .nth (shortHeader ++ shortStart) = (.ok s₁, r₁) ∧
      r₁.process rules (fun k => .nth (2 + k)) (shortHeader ++ shortRest) = (.ok s₂, r₂) ∧
      (start .empty).process rules .nth (shortHeader ++ shortStart ++ shortRest) = (.ok s, r₂) ∧
      s.applied = s₁.applied + s₂.applied ∧
      s.skipped.length = s₁.skipped.length + s₂.skipped.length ∧
      s₁.counts = (1, 1) ∧ s.counts = (2, 3) := by
  intro rules
  have hheader : HeaderLine shortHeader :=
    @HeaderLine.mk [] [Csv.lineFeed] ["op", "ref"] (by decide) (by decide) (by decide) (by decide)
  have hstart : Csv.EndsRecord shortHeader shortStart :=
    .inr ⟨shortStart.dropLast, Csv.carriageReturn, by decide, by decide, by decide⟩
  have hlength : (Csv.records (shortHeader ++ shortStart)).tail.length = 2 := by decide
  obtain ⟨s₁, r₁, s₂, r₂, s, ho₁, ho₂, ho, happlied, hskipped⟩ :=
    (process_pieces hheader hstart shortRest (start .empty) rules .nth).2 .empty
  rw [hlength] at ho₂
  refine ⟨s₁, r₁, s₂, r₂, s, ho₁, ho₂, ho, happlied, hskipped, ?_, ?_⟩
  · have hrun : ((start .empty).process rules .nth (shortHeader ++ shortStart)).1.map
        Summary.counts = .ok (1, 1) := by decide
    rw [ho₁] at hrun
    exact Except.ok.inj hrun
  · have hrun : ((start .empty).process rules .nth (shortHeader ++ shortStart ++ shortRest)).1.map
        Summary.counts = .ok (2, 3) := by decide
    rw [ho] at hrun
    exact Except.ok.inj hrun

end Replay
end CreditCircle.Script

/-
  Scripts that are written from commands.

  * `Command.fields`, `writeScript`: the row of a command, and the script of a list of commands.
  * `Command.Writable`: what a command has to be like so that its row says it.
  * `records_writeTexts`: rows of texts that are written are read back.
  * `commandOf_written`: the row of a command is read as this command.
  * `Replay.applyAll`: commands carried out directly, one after another.
  * `Replay.process_writeScript`: the script comes to the same as its commands.
-/
import CreditCircle.Proofs.CsvRoundTrip
import CreditCircle.Proofs.DecimalText
import CreditCircle.Proofs.Replays
import CreditCircle.Proofs.ScriptRows
import CreditCircle.Proofs.Utf8RoundTrip
import CreditCircle.Script.Report

namespace CreditCircle.Script

open Text

/-! ## Commands as rows -/

/-- The text of a bound; nothing if there is none. -/
def boundText (bound : Option Decimal) : String := (bound.map Decimal.text).getD ""

/-- The row of a command, under the columns in the order in which they are listed. -/
def Command.fields : Command → List String
  | .open entity maxPos maxNeg =>
    ["open", entity, "", "", "", boundText maxPos, boundText maxNeg, ""]
  | .limits entity maxPos maxNeg =>
    ["limits", entity, "", "", "", boundText maxPos, boundText maxNeg, ""]
  | .propose label sender receiver amount .sender description =>
    ["send", label, sender, receiver, amount.text, "", "", description]
  | .propose label sender receiver amount .receiver description =>
    ["request", label, sender, receiver, amount.text, "", "", description]
  | .transfer label sender receiver amount description =>
    ["transfer", label, sender, receiver, amount.text, "", "", description]
  | .accept label => ["accept", label, "", "", "", "", "", ""]
  | .reject label reason => ["reject", label, "", "", "", "", "", reason]
  | .cancel label reason => ["cancel", label, "", "", "", "", "", reason]

/-- The header above the rows of commands. -/
def scriptHeader : List String :=
  ["op", "ref", "from", "to", "amount", "max_pos", "max_neg", "note"]

/-- The script of commands. -/
def writeScript (commands : List Command) : List UInt8 :=
  (scriptHeader :: commands.map Command.fields).flatMap fun fields =>
    Csv.writeRecord (fieldBytes fields)

/-- A text without blanks at its ends. -/
def IsStripped (s : String) : Prop := strip s = s

instance (s : String) : Decidable (IsStripped s) := inferInstanceAs (Decidable (strip s = s))

/-- A text without blanks at its ends that is not empty. -/
def IsName (s : String) : Prop := IsStripped s ∧ s ≠ ""

instance (s : String) : Decidable (IsName s) := inferInstanceAs (Decidable (_ ∧ _))

/-- A bound that is not a negative zero, if there is one. -/
def IsPlainBound (bound : Option Decimal) : Prop := ∀ d ∈ bound, ¬ d.IsNegativeZero

instance (bound : Option Decimal) : Decidable (IsPlainBound bound) :=
  inferInstanceAs (Decidable (∀ d ∈ bound, _))

/-- A command whose row says what it is. -/
def Command.Writable : Command → Prop
  | .open entity maxPos maxNeg => IsName entity ∧ IsPlainBound maxPos ∧ IsPlainBound maxNeg
  | .limits entity maxPos maxNeg =>
    IsName entity ∧ IsPlainBound maxPos ∧ IsPlainBound maxNeg ∧ (maxPos.isSome ∨ maxNeg.isSome)
  | .propose label sender receiver amount _ description
  | .transfer label sender receiver amount description =>
    IsStripped label ∧ IsName sender ∧ IsName receiver ∧ ¬ amount.IsNegativeZero ∧
      IsStripped description
  | .accept label => IsName label
  | .reject label reason | .cancel label reason => IsName label ∧ IsStripped reason

instance : (c : Command) → Decidable c.Writable
  | .open .. | .limits .. | .propose .. | .transfer .. | .reject .. | .cancel .. =>
    inferInstanceAs (Decidable (_ ∧ _))
  | .accept label => inferInstanceAs (Decidable (IsName label))

/-! ## Texts of rows -/

theorem isStripped_empty : IsStripped "" := by decide

theorem isStripped_boundText (bound : Option Decimal) : IsStripped (boundText bound) := by
  cases bound with
  | none => exact isStripped_empty
  | some d => exact d.strip_text

theorem Command.isStripped_of_mem_fields {c : Command} (h : c.Writable) :
    ∀ field ∈ c.fields, IsStripped field := by
  have he := isStripped_empty
  have hb := isStripped_boundText
  have hd : ∀ d : Decimal, IsStripped d.text := Decimal.strip_text
  have hwords : ∀ word ∈ Operation.all.map Operation.name, IsStripped word := by decide
  simp only [Operation.all, Operation.name, List.map_cons, List.map_nil, List.forall_mem_cons]
    at hwords
  cases c with
  | «open» entity maxPos maxNeg => simp [fields, hwords, he, hb, h.1.1]
  | limits entity maxPos maxNeg => simp [fields, hwords, he, hb, h.1.1]
  | propose label sender receiver amount initiator description =>
    obtain ⟨hlabel, hsender, hreceiver, -, hdescription⟩ := h
    cases initiator <;>
    simp [fields, hwords, he, hd, hlabel, hsender.1, hreceiver.1, hdescription]
  | transfer label sender receiver amount description =>
    obtain ⟨hlabel, hsender, hreceiver, -, hdescription⟩ := h
    simp [fields, hwords, he, hd, hlabel, hsender.1, hreceiver.1, hdescription]
  | accept label => simp [fields, hwords, he, h.1]
  | reject label reason => simp [fields, hwords, he, h.1.1, h.2]
  | cancel label reason => simp [fields, hwords, he, h.1.1, h.2]

/-- Texts without blanks at their ends are read as they are written. -/
theorem textsFrom_fieldBytes (position : Csv.Position) {fields : List String} :
    ∀ {index : Nat}, (∀ field ∈ fields, IsStripped field) →
      textsFrom position index (fieldBytes fields) = .ok fields := by
  induction fields with
  | nil => intro index _; rfl
  | cons field fields ih =>
    intro index h
    have hfield : strip field = field := h field List.mem_cons_self
    have hrest : textsFrom position (index + 1) (fieldBytes fields) = .ok fields :=
      ih fun other ho => h other (List.mem_cons_of_mem field ho)
    refine textsFrom_cons_eq_ok_iff.2 ⟨field.toList, fields, Utf8.decode_encode _, hrest, ?_⟩
    exact congrArg (· :: fields) hfield.symm

theorem rowTexts_fieldBytes {row : Csv.Row} {fields : List String}
    (hf : row.fields = fieldBytes fields) (h : ∀ field ∈ fields, IsStripped field) :
    rowTexts row = .ok fields := by
  have htrim : (fieldBytes fields).map trimBytes = fieldBytes fields := by
    unfold fieldBytes
    rw [List.map_map]
    refine List.map_congr_left fun field hfield => trimBytes_encode ?_
    rw [← toList_strip, h field hfield]
  rw [rowTexts, hf, htrim]
  exact textsFrom_fieldBytes _ h

/-- Lists whose elements come to the same pairwise. -/
theorem forall₂_of_map_eq {α β γ : Type} {f : α → γ} {g : β → γ} {R : α → β → Prop} {xs : List α}
    {ys : List β} (h : xs.map f = ys.map g) (hR : ∀ x, ∀ y ∈ ys, f x = g y → R x y) :
    List.Forall₂ R xs ys := by
  rw [← List.forall₂_eq_eq_eq, List.forall₂_map_left_iff, List.forall₂_map_right_iff] at h
  have hmem : List.Forall₂ (fun y x => y ∈ ys ∧ f x = g y) ys xs :=
    (List.forall₂_and_left ys xs).2 ⟨fun _ hy => hy, h.flip⟩
  exact hmem.flip.imp fun x y hxy => hR x y hxy.1 hxy.2

/-- The records of written texts are these texts, if there are two or more in a row and the first
    byte is not that of a mark. -/
theorem records_writeTexts {header : List String} {rows : List (List String)} {b : UInt8}
    (hlength : ∀ fields ∈ header :: rows, 2 ≤ fields.length)
    (hfirst : (Csv.writeRecord (fieldBytes header)).head? = some b) (hb : b ≠ 0xEF) :
    (Csv.records ((header :: rows).flatMap fun fields => Csv.writeRecord (fieldBytes fields))).map
      Csv.Row.fields = (header :: rows).map fieldBytes := by
  have hv : ∀ record ∈ (header :: rows).map fieldBytes, Csv.Reading.Visible record := by
    intro record hrecord
    obtain ⟨fields, hfields, rfl⟩ := List.mem_map.1 hrecord
    refine Csv.Reading.visible_of_two_le ?_
    rw [fieldBytes, List.length_map]
    exact hlength fields hfields
  obtain ⟨rest, hrest⟩ := List.head?_eq_some_iff.1 hfirst
  have hmark : Csv.byteOrderMark.isPrefixOf
      (((header :: rows).map fieldBytes).flatMap Csv.writeRecord) = false := by
    rw [List.map_cons, List.flatMap_cons, hrest, List.cons_append, Csv.byteOrderMark,
      List.isPrefixOf_cons_cons, beq_false_of_ne hb.symm, Bool.false_and]
  rw [← Csv.records_writeRows hv hmark, List.flatMap_map]

/-! ## Records of rows -/

/-- A field that is absent when it is empty. -/
def filled (text : String) : Option String := if text = "" then none else some text

/-- The record of a row that has all fields. -/
def Record.ofTexts (op ref sender receiver amount maxPos maxNeg note : String) : Record where
  op := op
  ref := ref
  sender := filled sender
  receiver := filled receiver
  amount := filled amount
  maxPos := filled maxPos
  maxNeg := filled maxNeg
  note := filled note

section
variable {position : Csv.Position} {done : List Column} {columns : List (Option Column)}
  {text : String} {texts : List String} {c : Column}

theorem fill_required (r : Record) (hc : c ∉ done) (hr : c.isRequired = true) :
    fill position done r (some c :: columns) (text :: texts) =
      fill position (c :: done) (r.set text c) columns texts := by
  conv_lhs => unfold fill
  rw [if_neg hc]
  simp [hr]

/-- A field that is empty stays absent; `f` is the record with the column left open. -/
theorem fill_optional (f : Option String → Record) (hc : c ∉ done) (hr : c.isRequired = false)
    (hset : ∀ value, (f none).set value c = f (some value)) :
    fill position done (f none) (some c :: columns) (text :: texts) =
      fill position (c :: done) (f (filled text)) columns texts := by
  conv_lhs => unfold fill
  rw [if_neg hc]
  by_cases ht : text = ""
  · simp [hr, ht, filled]
  · simp [ht, filled, hset]

end

/-- A row with a field for every column. -/
theorem fill_all (position : Csv.Position)
    (op ref sender receiver amount maxPos maxNeg note : String) :
    fill position [] {} (Column.all.map some)
        [op, ref, sender, receiver, amount, maxPos, maxNeg, note] =
      .ok (.ofTexts op ref sender receiver amount maxPos maxNeg note) := by
  let withSender : Option String → Record := fun v => { op, ref, sender := v }
  let withReceiver v : Record := { withSender (filled sender) with receiver := v }
  let withAmount v : Record := { withReceiver (filled receiver) with amount := v }
  let withMaxPos v : Record := { withAmount (filled amount) with maxPos := v }
  let withMaxNeg v : Record := { withMaxPos (filled maxPos) with maxNeg := v }
  let withNote v : Record := { withMaxNeg (filled maxNeg) with note := v }
  calc fill position [] {} (Column.all.map some) _
      = fill position [.op] { op } _ _ := fill_required _ (by decide) rfl
    _ = fill position [.ref, .op] (withSender none) _ _ := fill_required _ (by decide) rfl
    _ = fill position _ (withReceiver none) _ _ :=
        fill_optional withSender (by decide) rfl fun _ => rfl
    _ = fill position _ (withAmount none) _ _ :=
        fill_optional withReceiver (by decide) rfl fun _ => rfl
    _ = fill position _ (withMaxPos none) _ _ :=
        fill_optional withAmount (by decide) rfl fun _ => rfl
    _ = fill position _ (withMaxNeg none) _ _ :=
        fill_optional withMaxPos (by decide) rfl fun _ => rfl
    _ = fill position _ (withNote none) _ _ :=
        fill_optional withMaxNeg (by decide) rfl fun _ => rfl
    _ = fill position _ (withNote (filled note)) [] [] :=
        fill_optional withNote (by decide) rfl fun _ => rfl
    _ = .ok (.ofTexts op ref sender receiver amount maxPos maxNeg note) := rfl

/-! ## Commands of records -/

theorem Operation.ofText?_name (op : Operation) : ofText? op.name = some op := by
  cases op <;> decide

namespace Record

theorem present_filled {s : String} (h : IsStripped s) : present (filled s) = filled s := by
  have hstrip : strip s = s := h
  unfold present filled
  split
  · rfl
  · rename_i hs
    simp [hstrip, hs, Option.filter]

theorem getD_filled (s : String) : (filled s).getD "" = s := by
  unfold filled
  split
  · rename_i hs; rw [hs]; rfl
  · rfl

theorem required_name {op : Operation} {column : Column} {s : String} (h : s ≠ "") :
    required op column s = .ok s := if_neg h

theorem decimal_bound {column : Column} {bound : Option Decimal} (h : IsPlainBound bound) :
    decimal column (filled (boundText bound)) = .ok bound := by
  unfold decimal
  rw [present_filled (isStripped_boundText bound)]
  cases bound with
  | none => rfl
  | some d =>
    have hd : boundText (some d) = d.text := rfl
    rw [hd, filled, if_neg d.text_ne_empty]
    dsimp only
    rw [Decimal.ofString?_text (h d rfl)]

section
variable {word ref sender receiver amount maxPos maxNeg note : String} {op : Operation}

theorem reference_ofTexts (h : IsName ref) :
    (ofTexts word ref sender receiver amount maxPos maxNeg note).reference op = .ok ref := by
  have hstrip : strip ref = ref := h.1
  show required op .ref (strip ref) = _
  rw [hstrip, required_name h.2]

theorem bounds_ofTexts {pos neg : Option Decimal} (hp : IsPlainBound pos) (hn : IsPlainBound neg) :
    (ofTexts word ref sender receiver amount (boundText pos) (boundText neg) note).bounds =
      .ok (pos, neg) := by
  have hpos : decimal .maxPos (filled (boundText pos)) = .ok pos := decimal_bound hp
  have hneg : decimal .maxNeg (filled (boundText neg)) = .ok neg := decimal_bound hn
  unfold bounds ofTexts
  dsimp only
  rw [hpos, hneg]
  rfl

theorem movement_ofTexts {d : Decimal} (hs : IsName sender) (hr : IsName receiver)
    (hd : ¬ d.IsNegativeZero) :
    (ofTexts word ref sender receiver d.text maxPos maxNeg note).movement op =
      .ok (sender, receiver, d) := by
  have hbound : IsPlainBound (some d) := by
    rintro _ ⟨⟩
    exact hd
  have hamount : decimal .amount (filled d.text) = .ok (some d) := decimal_bound hbound
  unfold movement ofTexts
  dsimp only
  rw [present_filled hs.1, present_filled hr.1, getD_filled, getD_filled, required_name hs.2,
    required_name hr.2, hamount]
  rfl

theorem noteText_ofTexts (h : IsStripped note) :
    (ofTexts word ref sender receiver amount maxPos maxNeg note).noteText = note := by
  unfold noteText ofTexts
  dsimp only
  rw [present_filled h, getD_filled]

theorem strip_ref_ofTexts (h : IsStripped ref) :
    strip (ofTexts word ref sender receiver amount maxPos maxNeg note).ref = ref := h

end
end Record

namespace Command

theorem ofRecord_of_name {r : Record} (op : Operation) (h : r.op = op.name) :
    ofRecord r = ofOperation r op := by
  rw [ofRecord, h, Operation.ofText?_name]

/-- The record of a command's row says this command. -/
theorem exists_record {c : Command} (h : c.Writable) (position : Csv.Position) :
    ∃ r, fill position [] {} (Column.all.map some) c.fields = .ok r ∧ ofRecord r = .ok c := by
  cases c with
  | «open» entity maxPos maxNeg =>
    obtain ⟨hentity, hpos, hneg⟩ := h
    refine ⟨_, fill_all .., (ofRecord_of_name .open rfl).trans ?_⟩
    rw [ofOperation, Record.reference_ofTexts hentity, Record.bounds_ofTexts hpos hneg]
    rfl
  | limits entity maxPos maxNeg =>
    obtain ⟨hentity, hpos, hneg, hsome⟩ := h
    refine ⟨_, fill_all .., (ofRecord_of_name .limits rfl).trans ?_⟩
    have hbound : (maxPos.isNone && maxNeg.isNone) = false := by
      cases maxPos with
      | some d => rfl
      | none => cases maxNeg with
        | some d => rfl
        | none => simp at hsome
    rw [ofOperation, Record.reference_ofTexts hentity, Record.bounds_ofTexts hpos hneg]
    show (if (maxPos.isNone && maxNeg.isNone) = true then _ else _) = _
    rw [hbound]
    rfl
  | propose label sender receiver amount initiator description =>
    obtain ⟨hlabel, hsender, hreceiver, hamount, hdescription⟩ := h
    cases initiator with
    | sender =>
      refine ⟨_, fill_all .., (ofRecord_of_name .send rfl).trans ?_⟩
      rw [ofOperation, Record.movement_ofTexts hsender hreceiver hamount,
        Record.noteText_ofTexts hdescription, Record.strip_ref_ofTexts hlabel]
      rfl
    | receiver =>
      refine ⟨_, fill_all .., (ofRecord_of_name .request rfl).trans ?_⟩
      rw [ofOperation, Record.movement_ofTexts hsender hreceiver hamount,
        Record.noteText_ofTexts hdescription, Record.strip_ref_ofTexts hlabel]
      rfl
  | transfer label sender receiver amount description =>
    obtain ⟨hlabel, hsender, hreceiver, hamount, hdescription⟩ := h
    refine ⟨_, fill_all .., (ofRecord_of_name .transfer rfl).trans ?_⟩
    rw [ofOperation, Record.movement_ofTexts hsender hreceiver hamount,
      Record.noteText_ofTexts hdescription, Record.strip_ref_ofTexts hlabel]
    rfl
  | accept label =>
    refine ⟨_, fill_all .., (ofRecord_of_name .accept rfl).trans ?_⟩
    rw [ofOperation, Record.reference_ofTexts h]
    rfl
  | reject label reason =>
    refine ⟨_, fill_all .., (ofRecord_of_name .reject rfl).trans ?_⟩
    rw [ofOperation, Record.reference_ofTexts h.1, Record.noteText_ofTexts h.2]
    rfl
  | cancel label reason =>
    refine ⟨_, fill_all .., (ofRecord_of_name .cancel rfl).trans ?_⟩
    rw [ofOperation, Record.reference_ofTexts h.1, Record.noteText_ofTexts h.2]
    rfl

end Command

namespace Replay

/-- The row of a command is read as this command. -/
theorem commandOf_written {c : Command} (h : c.Writable) {row : Csv.Row}
    (hf : row.fields = fieldBytes c.fields) :
    commandOf (Column.all.map some) row = .ok c := by
  obtain ⟨r, hr, hc⟩ := Command.exists_record h row.position
  exact commandOf_eq_ok_iff.2
    ⟨c.fields, r, rowTexts_fieldBytes hf (Command.isStripped_of_mem_fields h), hr, hc⟩

/-- The header of written commands names all columns in order. -/
theorem columnsOf_written {header : Csv.Row} {rows : List Csv.Row}
    (hf : header.fields = fieldBytes scriptHeader) :
    columnsOf (header :: rows) = .ok (Column.all.map some) := by
  refine columnsOf_cons_eq_ok_iff.2 ⟨scriptHeader, ?_, by decide, by decide⟩
  rw [headerNames, hf]
  exact textsFrom_fieldBytes _ (by decide)

/-! ## Commands and scripts -/

/-- Carries out commands one after another, the first of which has the number `index`, and passes
    over those that are refused.  Like a script, it is only stopped by an overflow. -/
def applyAll (rules : Rules) (chances : Nat → Chance) :
    (index : Nat) → Replay → List Command → Outcome (List (Except ReplayError Unit))
  | _, r, [] => (.ok [], r)
  | index, r, command :: commands =>
    match r.apply rules (chances index) command with
    | (.ok (), r) =>
      let (results, r) := applyAll rules chances (index + 1) r commands
      (results.map (.ok () :: ·), r)
    | (.error (.refused error), r) =>
      let (results, r) := applyAll rules chances (index + 1) r commands
      (results.map (.error error :: ·), r)
    | (.error failure, r) => (.error failure, r)

/-- The refusals among results, the first of which has the number `index`, with their lines. -/
def skippedFrom : (index : Nat) → List (Except ReplayError Unit) → List Skipped
  | _, [] => []
  | index, .ok () :: results => skippedFrom (index + 1) results
  | index, .error error :: results => ⟨index + 2, error⟩ :: skippedFrom (index + 1) results

/-- The successes and the refusals among results. -/
def tally (results : List (Except ReplayError Unit)) : Summary :=
  ⟨results.countP Except.isOk, skippedFrom 0 results⟩

theorem applyRows_of_commands {rules : Rules} {columns : List (Option Column)}
    {chances : Nat → Chance} {rows : List Csv.Row} {commands : List Command}
    (h : List.Forall₂ (fun row c => commandOf columns row = .ok c) rows commands) :
    ∀ (index : Nat) (summary : Summary) (r : Replay),
      applyRows rules columns chances index summary r rows =
        ((applyAll rules chances index r commands).1.map fun results =>
            ⟨summary.applied + results.countP Except.isOk,
              summary.skipped.reverse ++ skippedFrom index results⟩,
          (applyAll rules chances index r commands).2) := by
  induction h with
  | nil => intro index summary r; simp [applyRows, applyAll, skippedFrom, Except.map]
  | @cons row c rows commands hrow _ ih =>
    intro index summary r
    have happly : applyRow rules columns r (chances index) row =
        r.apply rules (chances index) c := by
      rw [applyRow, hrow]
      rfl
    unfold applyRows applyAll
    rw [happly]
    cases hresult : r.apply rules (chances index) c with
    | mk result r' =>
      cases result with
      | ok _ =>
        dsimp only
        rw [ih]
        cases (applyAll rules chances (index + 1) r' commands).1 with
        | error f => rfl
        | ok results =>
          have hcount : (Except.ok () :: results : List (Except ReplayError Unit)).countP
              Except.isOk = results.countP Except.isOk + 1 := List.countP_cons_of_pos rfl
          simp only [Except.map, skippedFrom, hcount, Nat.add_assoc, Nat.add_comm 1]
      | error f =>
        cases f with
        | refused e =>
          dsimp only
          rw [ih]
          cases (applyAll rules chances (index + 1) r' commands).1 with
          | error f => rfl
          | ok results =>
            have hcount : (Except.error e :: results).countP Except.isOk =
                results.countP Except.isOk := List.countP_cons_of_neg Bool.false_ne_true
            simp only [Except.map, skippedFrom, hcount, List.reverse_cons, List.append_assoc,
              List.singleton_append]
        | crashed overflow => rfl
        | blocked => rfl

/-! ## Records of a written script -/

theorem length_fields (c : Command) : c.fields.length = 8 := by
  cases c with
  | propose label sender receiver amount initiator description => cases initiator <;> rfl
  | _ => rfl

theorem records_writeScript (commands : List Command) :
    (Csv.records (writeScript commands)).map Csv.Row.fields =
      fieldBytes scriptHeader :: commands.map fun c => fieldBytes c.fields := by
  have hlength : ∀ fields ∈ scriptHeader :: commands.map Command.fields, 2 ≤ fields.length := by
    intro fields hfields
    rcases List.mem_cons.1 hfields with rfl | hfields
    · decide
    · obtain ⟨c, -, rfl⟩ := List.mem_map.1 hfields
      rw [length_fields]; decide
  have hfirst : (Csv.writeRecord (fieldBytes scriptHeader)).head? = some 0x6F := by decide
  rw [writeScript, records_writeTexts hlength hfirst (by decide), List.map_cons, List.map_map]
  rfl

/-- On a ledger that can come about, every command is carried out or refused. -/
theorem applyAll_eq_ok {limits : DefaultLimits} (eligible : AccountNumber → Bool)
    (chances : Nat → Chance) (commands : List Command) :
    ∀ (index : Nat) {r : Replay}, r.ledger.Reachable limits →
      ∃ results, (applyAll ⟨limits, eligible⟩ chances index r commands).1 = .ok results ∧
        results.length = commands.length := by
  induction commands with
  | nil => exact fun _ _ _ => ⟨[], rfl, rfl⟩
  | cons c commands ih =>
    intro index r h
    have horderly := apply_orderly h eligible (chances index) c
    unfold applyAll
    cases hresult : r.apply ⟨limits, eligible⟩ (chances index) c with
    | mk result r' =>
      rw [hresult] at horderly
      obtain ⟨results, hok, hlength⟩ := ih (index + 1) horderly.ledger
      cases result with
      | ok _ =>
        refine ⟨.ok () :: results, ?_, by simp [hlength]⟩
        dsimp only
        rw [hok]
        rfl
      | error f =>
        obtain ⟨e, rfl⟩ := horderly.refused f rfl
        refine ⟨.error e :: results, ?_, by simp [hlength]⟩
        dsimp only
        rw [hok]
        rfl

/-- The script that is written from commands comes to the same as the commands themselves, carried
    out one after another: the same aliases, labels and ledger, and as many successes and
    refusals. -/
theorem process_writeScript (r : Replay) (rules : Rules) (chances : Nat → Chance)
    {commands : List Command} (hw : ∀ c ∈ commands, c.Writable) :
    r.process rules chances (writeScript commands) =
        ((r.applyAll rules chances 0 commands).1.map tally,
          (r.applyAll rules chances 0 commands).2) ∧
      (r.ledger.Reachable rules.limits →
        ∃ results, (r.applyAll rules chances 0 commands).1 = .ok results ∧
          results.length = commands.length) := by
  refine ⟨?_, fun h => applyAll_eq_ok rules.eligible chances commands 0 h⟩
  have hrecords := records_writeScript commands
  cases hscript : Csv.records (writeScript commands) with
  | nil => rw [hscript] at hrecords; cases hrecords
  | cons header rows =>
    rw [hscript, List.map_cons, List.cons.injEq] at hrecords
    have hrows := forall₂_of_map_eq hrecords.2 fun row c hc => commandOf_written (hw c hc)
    rw [process_eq_applyRows hscript (columnsOf_written hrecords.1), applyRows_of_commands hrows]
    refine Prod.ext (congrArg (Except.map · _) (funext fun results => ?_)) rfl
    simp [tally]

/-- An account with a bound under an alias that has to be quoted, and a label that nobody knows. -/
theorem process_writeScript_quoted :
    let commands : List Command := [.open "a, \"b\"" (some (.ofNat 9)) none, .accept "x"]
    writeScript commands = Utf8.encode ("op,ref,from,to,amount,max_pos,max_neg,note\n" ++
        "open,\"a, \"\"b\"\"\",,,,9,,\naccept,x,,,,,,\n").toList ∧
      ((start .empty).process ⟨.standard, fun _ => true⟩ .nth (writeScript commands)).1 =
        .ok ⟨1, [⟨3, .unknownTransfer "x"⟩]⟩ := by
  intro commands
  have hw : ∀ c ∈ commands, c.Writable := by decide
  refine ⟨by decide, ?_⟩
  rw [(process_writeScript (start .empty) ⟨.standard, fun _ => true⟩ .nth hw).1]
  decide

end Replay
end CreditCircle.Script

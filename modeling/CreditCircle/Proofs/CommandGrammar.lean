/-
  The grammar of commands.

  * `Operation.columns`, `needed`, `numbers`: the columns that an operation uses, those that must
    not be blank and those that hold decimals.
  * `Record.cell`: what stands in a column, blanks around it aside.
  * `Record.Names`, `ofText?_eq_some_iff`: which operation a record names; the case of ASCII letters
    decides, though case is that of Unicode.
  * `Operation.Admits`, `Operation.Carries`: what an operation demands of its columns, and the
    command that it makes of them.
  * `ofRecord_eq_ok_iff`, `ofRecord_grammar`: a record is a command if and only if the operation
    that it names admits it.
-/
import CreditCircle.Proofs.Verdict
import CreditCircle.Script.Command
import CreditCircle.Text.LowerCase

namespace CreditCircle.Script

open Text

/-! ## Operations and their columns -/

namespace Operation

theorem isPlainWord_name (op : Operation) : IsPlainWord op.name.toList := by
  cases op <;> decide

theorem map_toLower_name (op : Operation) : op.name.toList.map Char.toLower = op.name.toList := by
  cases op <;> decide

/-- The columns that an operation uses. -/
def columns : Operation → List Column
  | .open | .limits => [.ref, .maxPos, .maxNeg]
  | .send | .request | .transfer => [.ref, .sender, .receiver, .amount, .note]
  | .accept => [.ref]
  | .reject | .cancel => [.ref, .note]

/-- The columns that must not be blank. -/
def needed : Operation → List Column
  | .open | .limits | .accept | .reject | .cancel => [.ref]
  | .send | .request | .transfer => [.sender, .receiver, .amount]

/-- The columns that hold decimals, if they are not blank. -/
def numbers : Operation → List Column
  | .open | .limits => [.maxPos, .maxNeg]
  | .send | .request | .transfer => [.amount]
  | .accept | .reject | .cancel => []

/-- The command that an operation makes of its columns: their texts, and the decimals in them. -/
inductive Carries (cell : Column → String) : Operation → Command → Prop
  | open : Carries cell .open (.open (cell .ref) (Decimal.ofString? (cell .maxPos))
      (Decimal.ofString? (cell .maxNeg)))
  | limits : Carries cell .limits (.limits (cell .ref) (Decimal.ofString? (cell .maxPos))
      (Decimal.ofString? (cell .maxNeg)))
  | send {amount : Decimal} (h : Decimal.ofString? (cell .amount) = some amount) :
      Carries cell .send (.propose (cell .ref) (cell .sender) (cell .receiver) amount .sender
        (cell .note))
  | request {amount : Decimal} (h : Decimal.ofString? (cell .amount) = some amount) :
      Carries cell .request (.propose (cell .ref) (cell .sender) (cell .receiver) amount .receiver
        (cell .note))
  | transfer {amount : Decimal} (h : Decimal.ofString? (cell .amount) = some amount) :
      Carries cell .transfer (.transfer (cell .ref) (cell .sender) (cell .receiver) amount
        (cell .note))
  | accept : Carries cell .accept (.accept (cell .ref))
  | reject : Carries cell .reject (.reject (cell .ref) (cell .note))
  | cancel : Carries cell .cancel (.cancel (cell .ref) (cell .note))

/-- The text is empty, or a decimal can be read from it. -/
def IsOptionalDecimal (text : String) : Prop :=
  text ≠ "" → ∃ d, Decimal.ofString? text = some d

theorem ofString?_empty : Decimal.ofString? "" = none := by decide

theorem IsOptionalDecimal.isNone_iff {text : String} (h : IsOptionalDecimal text) :
    (Decimal.ofString? text).isNone = true ↔ text = "" := by
  constructor
  · intro hnone
    by_contra hne
    obtain ⟨d, hd⟩ := h hne
    rw [hd] at hnone
    cases hnone
  · rintro rfl
    rw [ofString?_empty]; rfl

/-- What an operation demands of its columns. -/
structure Admits (op : Operation) (cell : Column → String) : Prop where
  needed : ∀ c ∈ op.needed, cell c ≠ ""
  bound : op = .limits → cell .maxPos ≠ "" ∨ cell .maxNeg ≠ ""
  numbers : ∀ c ∈ op.numbers, IsOptionalDecimal (cell c)

theorem admits_iff {op : Operation} {cell : Column → String} : op.Admits cell ↔
    (∀ c ∈ op.needed, cell c ≠ "") ∧
    (op = .limits → cell .maxPos ≠ "" ∨ cell .maxNeg ≠ "") ∧
    ∀ c ∈ op.numbers, IsOptionalDecimal (cell c) :=
  ⟨fun h => ⟨h.needed, h.bound, h.numbers⟩, fun h => ⟨h.1, h.2.1, h.2.2⟩⟩

section
variable {op : Operation} {cell cell' : Column → String}

/-- What an operation admits, it makes a command of. -/
theorem Admits.exists_carries (h : op.Admits cell) : ∃ c, op.Carries cell c := by
  have hamount : .amount ∈ op.needed → .amount ∈ op.numbers →
      ∃ d, Decimal.ofString? (cell .amount) = some d :=
    fun hneeded hnumber => h.numbers .amount hnumber (h.needed .amount hneeded)
  cases op with
  | «open» => exact ⟨_, .open⟩
  | limits => exact ⟨_, .limits⟩
  | send =>
    obtain ⟨d, hd⟩ := hamount (by decide) (by decide)
    exact ⟨_, .send hd⟩
  | request =>
    obtain ⟨d, hd⟩ := hamount (by decide) (by decide)
    exact ⟨_, .request hd⟩
  | transfer =>
    obtain ⟨d, hd⟩ := hamount (by decide) (by decide)
    exact ⟨_, .transfer hd⟩
  | accept => exact ⟨_, .accept⟩
  | reject => exact ⟨_, .reject⟩
  | cancel => exact ⟨_, .cancel⟩

variable (hcells : ∀ c ∈ op.columns, cell c = cell' c)
include hcells

/-- Only the columns of the operation count. -/
theorem Admits.congr (h : op.Admits cell) : op.Admits cell' := by
  have hneeded : ∀ c ∈ op.needed, c ∈ op.columns := by cases op <;> decide
  have hnumbers : ∀ c ∈ op.numbers, c ∈ op.columns := by cases op <;> decide
  refine ⟨fun c hc => ?_, fun hop => ?_, fun c hc => ?_⟩
  · rw [← hcells c (hneeded c hc)]; exact h.needed c hc
  · subst hop
    rw [← hcells .maxPos (by decide), ← hcells .maxNeg (by decide)]
    exact h.bound rfl
  · rw [← hcells c (hnumbers c hc)]; exact h.numbers c hc

theorem Carries.congr {c : Command} (h : op.Carries cell c) : op.Carries cell' c := by
  cases h <;>
  simp only [columns, List.forall_mem_cons, List.not_mem_nil, false_implies, implies_true, and_true]
    at hcells <;>
  simp only [hcells] at * <;>
  constructor <;>
  assumption

end

end Operation

/-! ## Records -/

namespace Record

/-- What stands in a column, without the blanks around it; nothing is as good as blanks. -/
def cell (r : Record) : Column → String
  | .op => strip r.op
  | .ref => strip r.ref
  | .sender => strip (r.sender.getD "")
  | .receiver => strip (r.receiver.getD "")
  | .amount => strip (r.amount.getD "")
  | .maxPos => strip (r.maxPos.getD "")
  | .maxNeg => strip (r.maxNeg.getD "")
  | .note => strip (r.note.getD "")

/-- The record names the operation, blanks around the name and the case of its letters aside. -/
def Names (r : Record) (op : Operation) : Prop := SameLetters (r.cell .op) op.name

theorem names_iff {r : Record} {op : Operation} :
    r.Names op ↔ (trim r.op.toList).map Char.toLower = op.name.toList := by
  unfold Names SameLetters cell
  rw [op.map_toLower_name, toList_strip]

/-- No other text has the name of an operation as its lower case. -/
theorem lowerCase_eq_name_iff {r : Record} {final : List Char → List Char → Bool} {op : Operation} :
    lowerCase final (r.cell .op).toList = op.name.toList ↔ r.Names op := by
  rw [lowerCase_eq_iff final op.isPlainWord_name, names_iff, cell, toList_strip]

/-- Texts that are the same but for the case of letters name the same operation. -/
theorem names_congr {r r' : Record} (h : SameLetters (r.cell .op) (r'.cell .op) ∨
      ∃ final, lowerCase final (r.cell .op).toList = lowerCase final (r'.cell .op).toList)
    (op : Operation) : r.Names op ↔ r'.Names op := by
  rcases h with h | ⟨final, h⟩
  · exact ⟨h.symm.trans, h.trans⟩
  · rw [← @lowerCase_eq_name_iff r final, h, lowerCase_eq_name_iff]

/-! ### Fields -/

theorem present_eq (field : Option String) : present field =
    if strip (field.getD "") = "" then none else some (strip (field.getD "")) := by
  cases field with
  | none => rfl
  | some s => by_cases hs : strip s = "" <;> simp [present, Option.filter, hs]

theorem present_getD (field : Option String) : (present field).getD "" = strip (field.getD "") := by
  rw [present_eq]
  split
  · rename_i h; rw [h]; rfl
  · rfl

theorem required_eq_ok_iff {op : Operation} {column : Column} {text s : String} :
    required op column text = .ok s ↔ text ≠ "" ∧ text = s := by
  unfold required
  split
  · rename_i h; exact ⟨nofun, fun hs => absurd h hs.1⟩
  · rename_i h; exact ⟨fun hs => ⟨h, by cases hs; rfl⟩, fun hs => by rw [hs.2]⟩

/-- No decimal is read from blanks, and anything else has to be one. -/
theorem decimal_eq_ok_iff {column : Column} {field : Option String} {value : Option Decimal} :
    decimal column field = .ok value ↔ Operation.IsOptionalDecimal (strip (field.getD "")) ∧
      Decimal.ofString? (strip (field.getD "")) = value := by
  unfold decimal Operation.IsOptionalDecimal
  by_cases h : strip (field.getD "") = ""
  · rw [present_eq, if_pos h, h, Operation.ofString?_empty]
    exact ⟨fun hv => ⟨fun hne => absurd rfl hne, by cases hv; rfl⟩, fun hv => by rw [← hv.2]⟩
  · rw [present_eq, if_neg h]
    dsimp only
    cases Decimal.ofString? (strip (field.getD "")) with
    | none => exact ⟨nofun, fun hv => by obtain ⟨d, hd⟩ := hv.1 h; cases hd⟩
    | some d => exact ⟨fun hv => ⟨fun _ => ⟨d, rfl⟩, by cases hv; rfl⟩, fun hv => by rw [← hv.2]⟩

section
variable {r : Record} {op : Operation}

theorem noteText_eq : r.noteText = r.cell .note := present_getD r.note

theorem reference_eq_ok_iff {s : String} :
    r.reference op = .ok s ↔ r.cell .ref ≠ "" ∧ r.cell .ref = s := required_eq_ok_iff

theorem bounds_eq_ok_iff {bounds : Option Decimal × Option Decimal} :
    r.bounds = .ok bounds ↔ Operation.IsOptionalDecimal (r.cell .maxPos) ∧
      Operation.IsOptionalDecimal (r.cell .maxNeg) ∧
      (Decimal.ofString? (r.cell .maxPos), Decimal.ofString? (r.cell .maxNeg)) = bounds := by
  simp only [Record.bounds, bind_eq_ok_iff, decimal_eq_ok_iff, pure, Except.pure, Except.ok.injEq]
  constructor
  · rintro ⟨maxPos, ⟨hpos, rfl⟩, maxNeg, ⟨hneg, rfl⟩, rfl⟩
    exact ⟨hpos, hneg, rfl⟩
  · rintro ⟨hpos, hneg, rfl⟩
    exact ⟨_, ⟨hpos, rfl⟩, _, ⟨hneg, rfl⟩, rfl⟩

theorem movement_eq_ok_iff {sender receiver : String} {amount : Decimal} :
    r.movement op = .ok (sender, receiver, amount) ↔
      (r.cell .sender ≠ "" ∧ r.cell .sender = sender) ∧
      (r.cell .receiver ≠ "" ∧ r.cell .receiver = receiver) ∧
        Decimal.ofString? (r.cell .amount) = some amount := by
  simp only [movement, bind_eq_ok_iff, required_eq_ok_iff, present_getD, decimal_eq_ok_iff]
  constructor
  · rintro ⟨s, hs, t, ht, value, ⟨-, hvalue⟩, hrest⟩
    cases value with
    | none => cases hrest
    | some d => cases hrest; exact ⟨hs, ht, hvalue⟩
  · rintro ⟨hs, ht, hd⟩
    exact ⟨_, hs, _, ht, some amount, ⟨fun _ => ⟨amount, hd⟩, hd⟩, rfl⟩

end
end Record

/-! ## Commands -/

theorem Operation.ofText?_eq_some_iff {s : String} {op : Operation} :
    ofText? s = some op ↔ (trim s.toList).map Char.toLower = op.name.toList := by
  have hname : ∀ op : Operation, all.find? (fun o => o.name.toList = op.name.toList) = some op := by
    intro op
    cases op <;> decide
  unfold ofText?
  dsimp only
  constructor
  · intro h
    have hword := List.find?_some h
    exact (of_decide_eq_true hword).symm
  · intro h
    rw [h]
    exact hname op

namespace Command

variable {r : Record} {c : Command}

/-- A record is the command of a known operation if and only if the operation admits what stands in
    its columns, and the command carries just that. -/
theorem ofOperation_eq_ok_iff {op : Operation} :
    ofOperation r op = .ok c ↔ op.Admits r.cell ∧ op.Carries r.cell c := by
  rw [Operation.admits_iff]
  cases op <;>
  simp only [ofOperation, bind_eq_ok_iff, Record.reference_eq_ok_iff, Record.bounds_eq_ok_iff,
    Record.movement_eq_ok_iff, Record.noteText_eq, Operation.needed, Operation.numbers,
    List.forall_mem_cons, List.not_mem_nil, Prod.exists, Prod.mk.injEq, false_implies, implies_true,
    and_true, true_and, reduceCtorEq, pure, Except.pure, Except.ok.injEq]
  case «open» =>
    constructor
    · rintro ⟨_, ⟨href, rfl⟩, _, _, ⟨hpos, hneg, rfl, rfl⟩, rfl⟩
      exact ⟨⟨href, hpos, hneg⟩, .open⟩
    · rintro ⟨⟨href, hpos, hneg⟩, ⟨⟩⟩
      exact ⟨_, ⟨href, rfl⟩, _, _, ⟨hpos, hneg, rfl, rfl⟩, rfl⟩
  case limits =>
    constructor
    · rintro ⟨_, ⟨href, rfl⟩, _, _, ⟨hpos, hneg, rfl, rfl⟩, hc⟩
      split at hc
      · cases hc
      · rename_i hsome
        rw [Bool.and_eq_true, hpos.isNone_iff, hneg.isNone_iff] at hsome
        cases hc
        exact ⟨⟨href, fun _ => not_and_or.1 hsome, hpos, hneg⟩, .limits⟩
    · rintro ⟨⟨href, hsome, hpos, hneg⟩, ⟨⟩⟩
      refine ⟨_, ⟨href, rfl⟩, _, _, ⟨hpos, hneg, rfl, rfl⟩, ?_⟩
      rw [if_neg]
      rw [Bool.and_eq_true, hpos.isNone_iff, hneg.isNone_iff]
      exact not_and_or.2 (hsome trivial)
  case accept | reject | cancel =>
    constructor
    · rintro ⟨_, ⟨href, rfl⟩, rfl⟩
      exact ⟨href, by constructor⟩
    · rintro ⟨href, ⟨⟩⟩
      exact ⟨_, ⟨href, rfl⟩, rfl⟩
  case send | request | transfer =>
    constructor
    · rintro ⟨_, _, amount, ⟨⟨hsender, rfl⟩, ⟨hreceiver, rfl⟩, hamount⟩, rfl⟩
      have hne : r.cell .amount ≠ "" := fun he => by
        rw [he, Operation.ofString?_empty] at hamount
        cases hamount
      exact ⟨⟨⟨hsender, hreceiver, hne⟩, fun _ => ⟨amount, hamount⟩⟩, by constructor; exact hamount⟩
    · rintro ⟨⟨⟨hsender, hreceiver, -⟩, -⟩, hc⟩
      cases hc
      rename_i amount hamount
      exact ⟨_, _, _, ⟨⟨hsender, rfl⟩, ⟨hreceiver, rfl⟩, hamount⟩, rfl⟩

theorem ofRecord_eq_ok_iff : ofRecord r = .ok c ↔
    ∃ op, r.Names op ∧ op.Admits r.cell ∧ op.Carries r.cell c := by
  unfold ofRecord
  cases hop : Operation.ofText? r.op with
  | none =>
    refine ⟨nofun, ?_⟩
    rintro ⟨op, hnames, -⟩
    rw [Operation.ofText?_eq_some_iff.2 (Record.names_iff.1 hnames)] at hop
    cases hop
  | some op =>
    dsimp only
    rw [ofOperation_eq_ok_iff]
    constructor
    · exact fun h => ⟨op, Record.names_iff.2 (Operation.ofText?_eq_some_iff.1 hop), h⟩
    · rintro ⟨op', hnames, h⟩
      rw [Operation.ofText?_eq_some_iff.2 (Record.names_iff.1 hnames)] at hop
      cases hop
      exact h

/-- A record that is no command is refused. -/
theorem exists_error_iff : (∃ e, ofRecord r = .error e) ↔ ¬ ∃ c, ofRecord r = .ok c := by
  cases ofRecord r with
  | ok c => simp
  | error e => simp

theorem exists_ok_iff :
    (∃ c, ofRecord r = .ok c) ↔ ∃ op, r.Names op ∧ op.Admits r.cell := by
  simp only [ofRecord_eq_ok_iff]
  constructor
  · rintro ⟨c, op, hnames, hadmits, -⟩
    exact ⟨op, hnames, hadmits⟩
  · rintro ⟨op, hnames, hadmits⟩
    obtain ⟨c, hc⟩ := hadmits.exists_carries
    exact ⟨c, op, hnames, hadmits, hc⟩

/-- Records that name the same operation and agree in its columns are the same command, if they are
    one. -/
theorem ofRecord_eq_ok_of_agree {r' : Record} (hop : ∀ op, r.Names op → r'.Names op)
    (hcells : ∀ op, r.Names op → ∀ col ∈ op.columns, r.cell col = r'.cell col)
    (h : ofRecord r = .ok c) : ofRecord r' = .ok c := by
  obtain ⟨op, hnames, hadmits, hcarries⟩ := ofRecord_eq_ok_iff.1 h
  have hagree := hcells op hnames
  exact ofRecord_eq_ok_iff.2 ⟨op, hop op hnames, hadmits.congr hagree, hcarries.congr hagree⟩

/-- The grammar of commands.  A record is a command if and only if it names an operation that
    admits what stands in its columns, and the command carries the texts and decimals of just these
    columns.  An operation is named in any case: no other text has its name as its lower case.  Of
    two records that name an operation alike, in ASCII letters or in Unicode, and agree in its
    columns, both are the same command, or both are refused. -/
theorem ofRecord_grammar (r : Record) :
    ((∃ c, ofRecord r = .ok c) ↔ ∃ op, r.Names op ∧ op.Admits r.cell) ∧
    (∀ c, ofRecord r = .ok c → ∃ op, r.Names op ∧ op.Carries r.cell c) ∧
    (∀ final op, lowerCase final (r.cell .op).toList = op.name.toList ↔ r.Names op) ∧
    ∀ r' : Record, (SameLetters (r.cell .op) (r'.cell .op) ∨
        ∃ final, lowerCase final (r.cell .op).toList = lowerCase final (r'.cell .op).toList) →
      (∀ op, r.Names op → ∀ col ∈ op.columns, r.cell col = r'.cell col) →
        (∃ c, ofRecord r = .ok c ∧ ofRecord r' = .ok c) ∨
          (∃ e, ofRecord r = .error e) ∧ ∃ e, ofRecord r' = .error e := by
  refine ⟨exists_ok_iff, fun c hc => ?_, fun _ _ => Record.lowerCase_eq_name_iff,
    fun r' hop hcells => ?_⟩
  · obtain ⟨op, hnames, -, hcarries⟩ := ofRecord_eq_ok_iff.1 hc
    exact ⟨op, hnames, hcarries⟩
  · have hnames : ∀ op, r.Names op ↔ r'.Names op := Record.names_congr hop
    by_cases h : ∃ c, ofRecord r = .ok c
    · obtain ⟨c, hc⟩ := h
      exact .inl ⟨c, hc, ofRecord_eq_ok_of_agree (fun op => (hnames op).1) hcells hc⟩
    · refine .inr ⟨exists_error_iff.2 h, exists_error_iff.2 ?_⟩
      rintro ⟨c, hc⟩
      have hcells' : ∀ op, r'.Names op → ∀ col ∈ op.columns, r'.cell col = r.cell col :=
        fun op hop' col hcol => (hcells op ((hnames op).2 hop') col hcol).symm
      exact h ⟨c, ofRecord_eq_ok_of_agree (fun op => (hnames op).2) hcells' hc⟩

end Command
end CreditCircle.Script

/-
  Runs of rows.

  * `Summary.append`, `followed`: what comes of a part of a script and then of the rest.
  * `applyRows_cons`, `applyRows_append`: rows are carried out one after another, and so are two
    lists of rows.
  * `mem_skipped_iff`: the rows that are reported are those that were refused.
-/
import CreditCircle.Proofs.ScriptRows

namespace CreditCircle.Script.Replay

/-! ## One part after another -/

/-- What comes of some rows and then of others. -/
def Summary.append (s s' : Summary) : Summary := ⟨s.applied + s'.applied, s.skipped ++ s'.skipped⟩

/-- What comes of one row, the one with the number `index`. -/
def rowSummary (index : Nat) :
    Except (Failure ReplayError) Unit → Except (Failure ReplayError) Summary
  | .ok () => .ok { applied := 1 }
  | .error (.refused e) => .ok { skipped := [⟨index + 2, e⟩] }
  | .error f => .error f

/-- A part of a script and, if nothing stops the replay there, the rest. -/
def followed (o : Outcome Summary) (next : Replay → Outcome Summary) : Outcome Summary :=
  match o with
  | (.ok s, r) => ((next r).1.map s.append, (next r).2)
  | (.error f, r) => (.error f, r)

theorem map_append_append (s s' : Summary) (o : Except (Failure ReplayError) Summary) :
    (o.map s'.append).map s.append = o.map (s.append s').append := by
  cases o with
  | error f => rfl
  | ok o => simp [Except.map, Summary.append, Nat.add_assoc]

theorem followed_assoc (o : Outcome Summary) (next next' : Replay → Outcome Summary) :
    followed (followed o next) next' = followed o fun r => followed (next r) next' := by
  obtain ⟨s | s, r⟩ := o
  · rfl
  · simp only [followed]
    obtain ⟨s' | s', r'⟩ := next r
    · rfl
    · exact Prod.ext (map_append_append s s' _).symm rfl

theorem followed_eq_ok_iff {o : Outcome Summary} {next : Replay → Outcome Summary} {s : Summary}
    {r : Replay} : followed o next = (.ok s, r) ↔
      ∃ s₁ r₁ s₂, o = (.ok s₁, r₁) ∧ next r₁ = (.ok s₂, r) ∧ s = s₁.append s₂ := by
  obtain ⟨f | s₁, r₁⟩ := o
  · simp [followed]
  · unfold followed
    cases hnext : next r₁ with
    | mk result r₂ =>
      cases result with
      | error f => simp [Except.map, hnext]
      | ok s₂ => simp [Except.map, hnext, and_comm, eq_comm]

theorem mem_rowSummary_iff {index : Nat} {result : Except (Failure ReplayError) Unit} {s : Summary}
    (h : rowSummary index result = .ok s) {x : Skipped} :
    x ∈ s.skipped ↔ x.line = index + 2 ∧ result = .error (.refused x.error) := by
  match result, h with
  | .ok (), h => cases h; simp
  | .error (.refused e), h =>
    cases h
    obtain ⟨line, error⟩ := x
    simp [eq_comm]

section
variable (rules : Rules) (columns : List (Option Column)) (chances : Nat → Chance)

/-- What has come of earlier rows is only added to. -/
theorem applyRows_summary (rows : List Csv.Row) : ∀ (index : Nat) (summary : Summary) (r : Replay),
    applyRows rules columns chances index summary r rows =
      ((applyRows rules columns chances index {} r rows).1.map
          (Summary.append ⟨summary.applied, summary.skipped.reverse⟩),
        (applyRows rules columns chances index {} r rows).2) := by
  induction rows with
  | nil => intro index summary r; simp [applyRows, Summary.append, Except.map]
  | cons row rows ih =>
    intro index summary r
    unfold applyRows
    cases hrow : applyRow rules columns r (chances index) row with
    | mk result r' =>
      cases result with
      | ok _ =>
        dsimp only
        rw [ih, ih _ { applied := 0 + 1 }, map_append_append]
        simp [Summary.append]
      | error f =>
        cases f with
        | refused e =>
          dsimp only
          rw [ih, ih _ { skipped := [⟨index + 2, e⟩] }, map_append_append]
          simp [Summary.append]
        | crashed overflow => rfl
        | blocked => rfl

theorem applyRows_cons (index : Nat) (r : Replay) (row : Csv.Row) (rows : List Csv.Row) :
    applyRows rules columns chances index {} r (row :: rows) =
      let o := applyRow rules columns r (chances index) row
      followed (rowSummary index o.1, o.2) fun r =>
        applyRows rules columns chances (index + 1) {} r rows := by
  conv_lhs => unfold applyRows
  cases hrow : applyRow rules columns r (chances index) row with
  | mk result r' =>
    cases result with
    | ok _ => exact applyRows_summary rules columns chances rows (index + 1) { applied := 1 } r'
    | error f =>
      cases f with
      | refused e =>
        exact applyRows_summary rules columns chances rows (index + 1)
          { skipped := [⟨index + 2, e⟩] } r'
      | crashed overflow => rfl
      | blocked => rfl

/-- Two lists of rows are carried out one after the other. -/
theorem applyRows_append (rows rows' : List Csv.Row) : ∀ (index : Nat) (r : Replay),
    applyRows rules columns chances index {} r (rows ++ rows') =
      followed (applyRows rules columns chances index {} r rows) fun r =>
        applyRows rules columns chances (index + rows.length) {} r rows' := by
  induction rows with
  | nil =>
    intro index r
    refine Prod.ext ?_ rfl
    show _ = Except.map (Summary.append ⟨0, []⟩) _
    rw [List.nil_append]
    cases (applyRows rules columns chances index {} r rows').1 <;>
      simp [Except.map, Summary.append]
  | cons row rows ih =>
    intro index r
    rw [List.cons_append, applyRows_cons, applyRows_cons]
    dsimp only
    rw [followed_assoc]
    simp only [ih, List.length_cons, Nat.add_assoc, Nat.add_comm 1]

/-! ## Rows that are reported -/

/-- Something holds of an element of a list if it holds of the first one or of one behind it. -/
theorem exists_getElem?_cons_iff {α : Type} {x : α} {xs : List α} {P : Nat → α → Prop} :
    (∃ k y, (x :: xs)[k]? = some y ∧ P k y) ↔ P 0 x ∨ ∃ k y, xs[k]? = some y ∧ P (k + 1) y := by
  constructor
  · rintro ⟨k | k, y, hy, hP⟩
    · exact .inl (Option.some.inj hy ▸ hP)
    · exact .inr ⟨k, y, hy, hP⟩
  · rintro (hP | ⟨k, y, hy, hP⟩)
    · exact ⟨0, x, rfl, hP⟩
    · exact ⟨k + 1, y, hy, hP⟩

/-- The rows that are reported are those that were refused, each in the replay to which the rows
    before it had led. -/
theorem mem_skipped_iff (rows : List Csv.Row) : ∀ (index : Nat) {r r' : Replay} {s : Summary},
    applyRows rules columns chances index {} r rows = (.ok s, r') → ∀ x,
      x ∈ s.skipped ↔ ∃ k row, rows[k]? = some row ∧ x.line = index + k + 2 ∧
        (applyRow rules columns (applyRows rules columns chances index {} r (rows.take k)).2
          (chances (index + k)) row).1 = .error (.refused x.error) := by
  induction rows with
  | nil =>
    intro index r r' s h x
    cases h
    simp
  | cons row rows ih =>
    intro index r r' s h x
    rw [applyRows_cons] at h
    obtain ⟨s₁, r₁, s₂, hrow, hrest, rfl⟩ := followed_eq_ok_iff.1 h
    rw [Prod.mk.injEq] at hrow
    rw [exists_getElem?_cons_iff, Summary.append, List.mem_append, mem_rowSummary_iff hrow.1,
      ih (index + 1) hrest]
    simp only [List.take_zero, List.take_succ_cons, applyRows_cons, hrow.1, hrow.2, followed,
      Nat.add_assoc, Nat.add_comm 1, Nat.add_zero]
    rfl

end

end CreditCircle.Script.Replay

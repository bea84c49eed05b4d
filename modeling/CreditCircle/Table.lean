/-
  Finite tables.

  A table holds rows under distinct keys, in the order in which the keys were first put.

  * `get?`, `has`, `put`: look-up and replacement; `get?_put` says how they meet.
  * `Same`: two tables with the same rows, in whatever order.
-/

namespace CreditCircle

/-- Rows under distinct keys. -/
structure Table (κ α : Type) where
  entries : List (κ × α)
  nodup : (entries.map Prod.fst).Nodup
  deriving DecidableEq

namespace Table

variable {κ α : Type}

/-! ## Operations -/

/-- The table without rows. -/
def empty : Table κ α := ⟨[], by simp⟩

instance : Inhabited (Table κ α) := ⟨empty⟩

/-- The keys in the order of the rows. -/
def keys (t : Table κ α) : List κ := t.entries.map Prod.fst

/-- The rows without their keys. -/
def values (t : Table κ α) : List α := t.entries.map Prod.snd

variable [DecidableEq κ]

/-- The first row under `k` in a list of rows. -/
def findRow (k : κ) : List (κ × α) → Option α
  | [] => none
  | e :: es => if e.1 = k then some e.2 else findRow k es

/-- The rows with `v` under `k`, in the place of the old row or at the end. -/
def putRow (k : κ) (v : α) : List (κ × α) → List (κ × α)
  | [] => [(k, v)]
  | e :: es => if e.1 = k then (k, v) :: es else e :: putRow k v es

/-- The row under a key. -/
def get? (t : Table κ α) (k : κ) : Option α := findRow k t.entries

/-- Whether there is a row under a key. -/
def has (t : Table κ α) (k : κ) : Bool := (t.get? k).isSome

theorem mem_keys_putRow {k x : κ} {v : α} {es : List (κ × α)} :
    x ∈ (putRow k v es).map Prod.fst ↔ x = k ∨ x ∈ es.map Prod.fst := by
  induction es with
  | nil => simp [putRow]
  | cons e es ih =>
    by_cases h : e.1 = k
    · simp [putRow, h]
    · simp only [putRow, h, ↓reduceIte, List.map_cons, List.mem_cons, ih]
      grind

theorem nodup_keys_putRow (k : κ) (v : α) {es : List (κ × α)} (h : (es.map Prod.fst).Nodup) :
    ((putRow k v es).map Prod.fst).Nodup := by
  induction es with
  | nil => simp [putRow]
  | cons e es ih =>
    rw [List.map_cons, List.nodup_cons] at h
    by_cases he : e.1 = k
    · simp only [putRow, he, ↓reduceIte, List.map_cons, List.nodup_cons]
      exact he ▸ h
    · simp only [putRow, he, ↓reduceIte, List.map_cons, List.nodup_cons, mem_keys_putRow, h.1,
        or_false, not_false_eq_true, true_and]
      exact ih h.2

/-- The table with `v` under `k`. -/
def put (t : Table κ α) (k : κ) (v : α) : Table κ α :=
  ⟨putRow k v t.entries, nodup_keys_putRow k v t.nodup⟩

/-- The same rows under the same keys, in whatever order. -/
def Same (t t' : Table κ α) : Prop := ∀ k, t.get? k = t'.get? k

/-! ## Laws -/

theorem findRow_putRow (k x : κ) (v : α) (es : List (κ × α)) :
    findRow x (putRow k v es) = if x = k then some v else findRow x es := by
  induction es with
  | nil => simp only [putRow, findRow, eq_comm]
  | cons e es ih =>
    by_cases he : e.1 = k <;> by_cases hx : x = k <;> simp_all [putRow, findRow, eq_comm]

@[simp] theorem get?_empty (k : κ) : (empty : Table κ α).get? k = none := rfl

/-- A look-up after a replacement. -/
theorem get?_put (t : Table κ α) (k x : κ) (v : α) :
    (t.put k v).get? x = if x = k then some v else t.get? x :=
  findRow_putRow k x v t.entries

@[simp] theorem get?_put_self (t : Table κ α) (k : κ) (v : α) : (t.put k v).get? k = some v := by
  simp [get?_put]

theorem get?_put_of_ne (t : Table κ α) {k x : κ} (v : α) (h : x ≠ k) :
    (t.put k v).get? x = t.get? x := by
  simp [get?_put, h]

/-- The rows are what look-ups find. -/
theorem mem_entries_iff (t : Table κ α) (k : κ) (v : α) :
    (k, v) ∈ t.entries ↔ t.get? k = some v := by
  obtain ⟨es, h⟩ := t
  show (k, v) ∈ es ↔ findRow k es = some v
  induction es with
  | nil => simp [findRow]
  | cons e es ih =>
    rw [List.map_cons, List.nodup_cons] at h
    by_cases he : e.1 = k
    · have : (k, v) ∉ es := fun hm => h.1 (he ▸ List.mem_map.2 ⟨_, hm, rfl⟩)
      simp only [List.mem_cons, this, or_false, findRow, he, ↓reduceIte, Option.some.injEq]
      constructor
      · rintro rfl; rfl
      · rintro rfl; exact Prod.ext he.symm rfl
    · simp only [List.mem_cons, findRow, he, ↓reduceIte, ih h.2]
      constructor
      · rintro (rfl | hm)
        · exact absurd rfl he
        · exact hm
      · exact Or.inr

end Table
end CreditCircle

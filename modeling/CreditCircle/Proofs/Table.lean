/-
  Tables as lists of rows.

  * `mem_keys_iff`, `mem_values_iff`, `filter_values`: the rows of a table are what look-ups find.
  * `entries_put_of_new`: a row under a new key goes to the end.
  * `Injective`, `Within`: different keys have different rows; a table has all rows of another one.
-/
import CreditCircle.Table

namespace CreditCircle.Table

variable {κ α : Type}

@[simp] theorem entries_empty : (empty : Table κ α).entries = [] := rfl

variable [DecidableEq κ]

theorem has_eq_false {t : Table κ α} {k : κ} (h : t.get? k = none) : t.has k = false := by
  rw [has, h]; rfl

theorem get?_eq_none {t : Table κ α} {k : κ} (h : ¬ t.has k = true) : t.get? k = none := by
  rwa [has, Option.not_isSome_iff_eq_none] at h

/-! ## Rows -/

theorem mem_keys_iff (t : Table κ α) (k : κ) : k ∈ t.keys ↔ t.has k = true := by
  rw [keys, List.mem_map, has, Option.isSome_iff_exists]
  constructor
  · rintro ⟨⟨_, v⟩, he, rfl⟩
    exact ⟨v, (t.mem_entries_iff _ v).1 he⟩
  · rintro ⟨v, hv⟩
    exact ⟨(k, v), (t.mem_entries_iff k v).2 hv, rfl⟩

theorem mem_values_iff (t : Table κ α) (v : α) : v ∈ t.values ↔ ∃ k, t.get? k = some v := by
  constructor
  · intro h
    obtain ⟨⟨k, _⟩, hm, rfl⟩ := List.mem_map.1 h
    exact ⟨k, (t.mem_entries_iff _ _).1 hm⟩
  · rintro ⟨k, h⟩
    exact List.mem_map.2 ⟨_, (t.mem_entries_iff _ _).2 h, rfl⟩

theorem findRow_eq_none {k : κ} {es : List (κ × α)} (h : k ∉ es.map Prod.fst) :
    findRow k es = none := by
  induction es with
  | nil => rfl
  | cons e es ih =>
    rw [List.map_cons, List.mem_cons, not_or] at h
    rw [findRow, if_neg (Ne.symm h.1), ih h.2]

/-- Where rows stand under their own keys, there is one row with a key or none. -/
theorem filter_values {t : Table κ α} {f : α → κ} (h : ∀ k v, t.get? k = some v → f v = k)
    (k : κ) : t.values.filter (fun v => f v = k) = (t.get? k).toList := by
  obtain ⟨es, hes⟩ := t
  have hf : ∀ e ∈ es, f e.2 = e.1 := fun e he =>
    h e.1 e.2 ((mem_entries_iff ⟨es, hes⟩ _ _).1 he)
  clear h
  show (es.map Prod.snd).filter _ = (findRow k es).toList
  induction es with
  | nil => rfl
  | cons e es ih =>
    rw [List.map_cons, List.nodup_cons] at hes
    have ih := ih hes.2 fun e he => hf e (List.mem_cons_of_mem _ he)
    have he := hf e List.mem_cons_self
    rw [List.map_cons, List.filter_cons, ih, he, findRow]
    by_cases hk : e.1 = k
    · have hn : findRow k es = none := findRow_eq_none (hk ▸ hes.1)
      simp [hk, hn]
    · simp [hk]

/-- Distinct rows stand under distinct keys. -/
theorem nodup_map_values {t : Table κ α} {f : α → κ} (h : ∀ k v, t.get? k = some v → f v = k) :
    (t.values.map f).Nodup := by
  have : t.values.map f = t.entries.map Prod.fst := by
    rw [values, List.map_map]
    exact List.map_congr_left fun e he => h e.1 e.2 ((t.mem_entries_iff _ _).1 he)
  rw [this]
  exact t.nodup

/-! ## Replacing rows -/

theorem entries_put_empty (k : κ) (v : α) : ((empty : Table κ α).put k v).entries = [(k, v)] := rfl

theorem entries_put_put_empty {k x : κ} (h : k ≠ x) (v w : α) :
    (((empty : Table κ α).put k v).put x w).entries = [(k, v), (x, w)] := by
  simp [put, putRow, empty, h]

theorem entries_put_of_new {t : Table κ α} {k : κ} (h : t.get? k = none) (v : α) :
    (t.put k v).entries = t.entries ++ [(k, v)] := by
  obtain ⟨es, hes⟩ := t
  change findRow k es = none at h
  show putRow k v es = es ++ [(k, v)]
  clear hes
  induction es with
  | nil => rfl
  | cons e es ih =>
    rw [findRow] at h
    split at h
    · cases h
    · rename_i hk
      rw [putRow, if_neg hk, ih h, List.cons_append]

/-- The second of two rows under one key is the one that stays. -/
theorem put_put (t : Table κ α) (k : κ) (v w : α) : (t.put k v).put k w = t.put k w := by
  obtain ⟨es, hes⟩ := t
  have : ∀ es : List (κ × α), putRow k w (putRow k v es) = putRow k w es := by
    intro es
    induction es with
    | nil => simp [putRow]
    | cons e es ih =>
      by_cases he : e.1 = k
      · simp [putRow, he]
      · simp [putRow, he, ih]
  simp only [put, this]

/-! ## Rows under one key, and rows that stay -/

/-- Different keys have different rows. -/
def Injective (t : Table κ α) : Prop :=
  ∀ k k' v, t.get? k = some v → t.get? k' = some v → k = k'

/-- A row that is not there yet may be put under any key. -/
theorem Injective.put {t : Table κ α} {x : κ} {v : α} (h : t.Injective)
    (hv : ∀ k, t.get? k ≠ some v) : (t.put x v).Injective := by
  intro k k' w hk hk'
  rw [get?_put] at hk hk'
  split at hk
  · cases hk
    split at hk'
    · rw [‹k = x›, ‹k' = x›]
    · exact absurd hk' (hv k')
  · split at hk'
    · cases hk'
      exact absurd hk (hv k)
    · exact h k k' w hk hk'

/-- All rows of `t` are in `t'`, under the same keys. -/
def Within (t t' : Table κ α) : Prop := ∀ k v, t.get? k = some v → t'.get? k = some v

theorem Within.refl (t : Table κ α) : t.Within t := fun _ _ h => h

theorem Within.trans {t t' t'' : Table κ α} (h : t.Within t') (h' : t'.Within t'') :
    t.Within t'' := fun k v hk => h' k v (h k v hk)

theorem within_put {t : Table κ α} {x : κ} (h : t.get? x = none) (v : α) :
    t.Within (t.put x v) := by
  intro k w hk
  rw [get?_put, if_neg]
  · exact hk
  · rintro rfl
    rw [h] at hk
    cases hk

end CreditCircle.Table

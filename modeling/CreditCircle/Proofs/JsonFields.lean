/-
  Fields of records that are kept as JSON.

  * `Json.Holds`: a value stands under a name in an object, or at its place in an array.
  * `fields_record`, `holds_of_fields`: the fields of a record that was written, and of any other.
  * `Json.HoldsNumber`: the number of an account stands under a name and has been checked.
-/
import CreditCircle.Proofs.JsonFormats
import Mathlib.Data.List.Forall2

namespace CreditCircle

open Text

/-! ## Fields -/

theorem mapM_eq_some_iff {α β : Type} {f : α → Option β} {xs : List α} {ys : List β} :
    xs.mapM f = some ys ↔ List.Forall₂ (fun x y => f x = some y) xs ys := by
  induction xs generalizing ys with
  | nil => exact ⟨fun h => by cases h; exact .nil, fun h => by cases h; rfl⟩
  | cons x xs ih =>
    simp only [List.mapM_cons, Option.bind_eq_bind, Option.bind_eq_some_iff, Option.pure_def,
      Option.some_inj, ih]
    constructor
    · rintro ⟨y, hy, ys, hys, rfl⟩
      exact .cons hy hys
    · rintro (_ | ⟨hy, hys⟩)
      exact ⟨_, hy, _, hys, rfl⟩

theorem map_toChar_of_digits? {cs : List Char} {ds : List Digit} (h : digits? cs = some ds) :
    ds.map Digit.toChar = cs := by
  rw [digits?, mapM_eq_some_iff] at h
  induction h with
  | nil => rfl
  | cons hc _ ih => rw [List.map_cons, Digit.toChar_of_ofChar? hc, ih]

namespace AccountNumber

theorem parse_of_parse? {s : String} {n : AccountNumber} (h : parse? s.toList = some n) :
    parse s = .ok n := by
  rw [parse, h]

/-- The text of a number that was read is the text without the blanks at its ends. -/
theorem toString_of_parse? {s : String} {n : AccountNumber} (h : parse? s.toList = some n) :
    toString n = strip s := by
  obtain ⟨ds, hds, hn⟩ := Option.bind_eq_some_iff.1 h
  have hdigits : n.digits = ds := by
    unfold ofDigits? at hn
    split at hn
    · cases hn; rfl
    · cases hn
  show String.ofList (n.digits.map Digit.toChar) = _
  rw [hdigits, map_toChar_of_digits? hds, strip]

end AccountNumber

namespace Json

variable {names : List String}

theorem valuesOf_cons (key : String) (m : JsonText × Json) (members : List (JsonText × Json)) :
    valuesOf key (m :: members) =
      if m.1 = some key then m.2 :: valuesOf key members else valuesOf key members := by
  unfold valuesOf
  rw [List.filter_cons]
  by_cases h : m.1 = some key
  · rw [if_pos h, if_pos (decide_eq_true h)]
    rfl
  · rw [if_neg h, if_neg (mt of_decide_eq_true h)]

/-- A member as it stands in an object. -/
def member (m : String × Json) : JsonText × Json := (some m.1, m.2)

theorem valuesOf_of_notMem {key : String} {ms : List (String × Json)}
    (h : key ∉ ms.map Prod.fst) : valuesOf key (ms.map member) = [] := by
  induction ms with
  | nil => rfl
  | cons m ms ih =>
    rw [List.map_cons, List.mem_cons, not_or] at h
    rw [List.map_cons, valuesOf_cons, ih h.2]
    exact if_neg fun heq => h.1 (Option.some.inj heq).symm

/-- In a record without repetitions, every key has its value. -/
theorem valuesOf_record {key : String} {value : Json} {ms : List (String × Json)}
    (hnodup : (ms.map Prod.fst).Nodup) (h : (key, value) ∈ ms) :
    valuesOf key (ms.map member) = [value] := by
  induction ms with
  | nil => cases h
  | cons m ms ih =>
    rw [List.map_cons, List.nodup_cons] at hnodup
    rw [List.map_cons, valuesOf_cons]
    rcases List.mem_cons.1 h with rfl | h
    · rw [valuesOf_of_notMem hnodup.1]
      exact if_pos rfl
    · rw [ih hnodup.2 h]
      refine if_neg fun heq => hnodup.1 ?_
      rw [Option.some.inj heq]
      exact List.mem_map_of_mem h

/-- A record that was written has its fields. -/
theorem fields_record (names : List String) (values : List Json) (hnodup : names.Nodup)
    (hlength : names.length = values.length) :
    fields names (.record (names.zip values)) = some (values.map some) := by
  have hkeys : (names.zip values).map Prod.fst = names := List.map_fst_zip hlength.le
  have hany : ¬ ((names.zip values).map member).any fun m => m.1.isNone := by
    simp [member]
  show fieldsOfObject names ((names.zip values).map member) = _
  rw [fieldsOfObject, if_neg hany, mapM_eq_some_iff, List.forall₂_map_right_iff,
    List.forall₂_iff_zip]
  refine ⟨hlength, fun {name value} hmem => ?_⟩
  rw [valuesOf_record (hkeys.symm ▸ hnodup) hmem]

/-- The value, and no other, stands under the name `key`, or at its place in an array. -/
inductive Holds (names : List String) (key : String) : Json → Json → Prop
  | member {members : List (JsonText × Json)} {value : Json} (h : valuesOf key members = [value]) :
    Holds names key (object members) value
  | item {items : List Json} {i : Nat} {value : Json} (hkey : names[i]? = some key)
    (h : items[i]? = some value) : Holds names key (array items) value

theorem holds_of_fields {j : Json} {values : List (Option Json)} (h : fields names j = some values)
    {i : Nat} {key : String} {value : Json} (hkey : names[i]? = some key)
    (hvalue : values[i]? = some (some value)) : j.Holds names key value := by
  unfold fields at h
  split at h
  · rename_i members
    unfold fieldsOfObject at h
    split at h
    · cases h
    rw [mapM_eq_some_iff, List.forall₂_iff_get] at h
    obtain ⟨hi, hget⟩ := List.getElem?_eq_some_iff.1 hkey
    obtain ⟨hi', hget'⟩ := List.getElem?_eq_some_iff.1 hvalue
    have hfield := h.2 i hi hi'
    simp only [List.get_eq_getElem, hget, hget'] at hfield
    split at hfield
    · cases hfield
    · cases hfield
      exact .member ‹_›
    · cases hfield
  · rename_i items
    split at h
    · cases h
      rw [List.getElem?_map, Option.map_eq_some_iff] at hvalue
      obtain ⟨item, hitem, hsome⟩ := hvalue
      cases hsome
      exact .item hkey hitem
    · cases h
  · cases h

/-! ## Values of fields -/

section
variable {α : Type} [JsonFormat α]

/-- Fields are read one after another. -/
theorem fieldAt_bind_iff {β : Type} {values : List (Option Json)} {i : Nat} {f : α → Option β}
    {b : β} :
    (fieldAt values i >>= f) = some b ↔ ∃ a, fieldAt values i = some a ∧ f a = some b :=
  Option.bind_eq_some_iff

theorem legible_of_fieldAt [LawfulFormat α] {values : List (Option Json)} {i : Nat} {a : α}
    (h : fieldAt values i = some a) : Legible a := by
  unfold fieldAt at h
  split at h
  · exact LawfulFormat.legible_of_decode _ a h
  · exact LawfulFormat.legible_of_absent a h
  · cases h

end

/-- The number of an account stands under a name: it was read from a text, and is that text without
    the blanks at its ends, from which it can be read again. -/
def HoldsNumber (names : List String) (j : Json) (key : String) (n : AccountNumber) : Prop :=
  ∃ raw, j.Holds names key (string raw) ∧ AccountNumber.parse raw = .ok n ∧
    toString n = strip raw ∧ AccountNumber.parse (toString n) = .ok n

theorem holdsNumber_of_fieldAt {j : Json} {values : List (Option Json)}
    (h : fields names j = some values) {i : Nat} {key : String} {n : AccountNumber}
    (hkey : names[i]? = some key) (hn : fieldAt values i = some n) : j.HoldsNumber names key n := by
  unfold fieldAt at hn
  split at hn
  · rename_i value hvalue
    obtain ⟨raw, hraw, hparse⟩ := Option.bind_eq_some_iff.1 hn
    have hstring : value = string raw := by
      unfold string? at hraw
      split at hraw
      · rw [hraw]; rfl
      · cases hraw
    exact ⟨raw, hstring ▸ holds_of_fields h hkey hvalue, AccountNumber.parse_of_parse? hparse,
      AccountNumber.toString_of_parse? hparse, n.parse_toString⟩
  · cases hn
  · cases hn

theorem proper_record {ms : List (String × Json)} (h : ∀ m ∈ ms, m.2.Proper) :
    (record ms).Proper := by
  refine .object (fun m hm => ?_) fun m hm => ?_
  · obtain ⟨m, -, rfl⟩ := List.mem_map.1 hm
    rfl
  · obtain ⟨m, hmem, rfl⟩ := List.mem_map.1 hm
    exact h m hmem

end Json

end CreditCircle

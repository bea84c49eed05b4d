/-
  Values that are read back from JSON.

  * `LawfulFormat`: a format that reads back what it writes.
  * `LawfulFormat.ofText`, `LawfulFormat.ofKey`: formats of values that are texts or numbers.
  * Instances for all values that are fields of records.
-/
import CreditCircle.Json.Records
import CreditCircle.Proofs.JsonText
import CreditCircle.Proofs.TimestampText

namespace CreditCircle

open Text

/-- A format that reads back what it writes. -/
class LawfulFormat (α : Type) [JsonFormat α] where
  /-- What every value is like that is read. -/
  Legible : α → Prop
  /-- The value that is read of a text that was written. -/
  settle : α → α
  proper : ∀ a : α, (encode a).Proper
  decode_encode : ∀ a : α, Legible a → decode (encode a) = some (settle a)
  legible_of_decode : ∀ (j : Json) (a : α), decode j = some a → Legible a
  legible_of_absent : ∀ a : α, absent = some a → Legible a
  settle_settle : ∀ a : α, settle (settle a) = settle a

export LawfulFormat (Legible settle)

variable {α : Type} [JsonFormat α]

namespace LawfulFormat

/-- The format of values with a text, from which they are read as they are. -/
@[reducible] def ofText (text : α → String) (read? : String → Option α) (Legible : α → Prop)
    (hencode : ∀ a : α, encode a = .string (text a))
    (hdecode : ∀ j : Json, (decode j : Option α) = j.string?.bind read?)
    (habsent : (absent : Option α) = none) (hread : ∀ a, Legible a → read? (text a) = some a)
    (hlegible : ∀ s a, read? s = some a → Legible a) : LawfulFormat α where
  Legible := Legible
  settle := id
  proper a := by rw [hencode]; exact .string _
  decode_encode a ha := by rw [hencode, hdecode]; exact hread a ha
  legible_of_decode j a h := by
    rw [hdecode, Option.bind_eq_some_iff] at h
    obtain ⟨s, -, hs⟩ := h
    exact hlegible s a hs
  legible_of_absent a h := by rw [habsent] at h; cases h
  settle_settle _ := rfl

/-- A natural number has digits that are no others. -/
theorem proper_nat (n : Nat) : (Json.nat n).Proper := by
  refine .number ⟨digits_ne_nil n, fun h => ?_, nofun⟩
  show (digits n).length = 1
  rw [head?_digits h]
  rfl

theorem nat64?_nat {n : Nat} (h : n < 2 ^ 64) : (Json.nat n).nat64? = some n := by
  have hn : natOfDigits (digits n) = n := natOfDigits_digits n
  show Json.Number.toNat64? (.ofNat n) = _
  unfold Json.Number.toNat64? Json.Number.ofNat
  rw [hn]
  simp [Json.Number.isWhole, h]

theorem lt_of_nat64? {j : Json} {n : Nat} (h : j.nat64? = some n) : n < 2 ^ 64 := by
  unfold Json.nat64? at h
  split at h
  · unfold Json.Number.toNat64? at h
    split at h
    · rename_i hfits
      cases h
      simp only [Bool.and_eq_true, decide_eq_true_eq] at hfits
      exact hfits.2
    · cases h
  · cases h

/-- The format of keys, which are natural numbers of 64 bits. -/
@[reducible] def ofKey (key : α → Nat) (mk : Nat → α) (hencode : ∀ a : α, encode a = .nat (key a))
    (hdecode : ∀ j : Json, (decode j : Option α) = j.nat64?.map mk)
    (habsent : (absent : Option α) = none) (hmk : ∀ a, mk (key a) = a)
    (hkey : ∀ n, key (mk n) = n) : LawfulFormat α where
  Legible a := key a < 2 ^ 64
  settle := id
  proper a := by rw [hencode]; exact proper_nat _
  decode_encode a ha := by
    rw [hencode, hdecode, nat64?_nat ha, Option.map_some, hmk]
    rfl
  legible_of_decode j a h := by
    rw [hdecode, Option.map_eq_some_iff] at h
    obtain ⟨n, hn, rfl⟩ := h
    rw [hkey]
    exact lt_of_nat64? hn
  legible_of_absent a h := by rw [habsent] at h; cases h
  settle_settle _ := rfl

end LawfulFormat

/-! ## Simple values -/

instance : LawfulFormat String :=
  .ofText id some (fun _ => True) (fun _ => rfl)
    (fun j => show j.string? = j.string?.bind some by simp) rfl (fun _ _ => rfl)
    fun _ _ _ => trivial

instance : LawfulFormat AccountNumber :=
  .ofText toString (fun s => AccountNumber.parse? s.toList) (fun _ => True) (fun _ => rfl)
    (fun _ => rfl) rfl
    (fun n _ => show AccountNumber.parse? (String.ofList n.toText).toList = some n by
      rw [String.toList_ofList, AccountNumber.parse?_toText])
    fun _ _ _ => trivial

instance : LawfulFormat Timestamp :=
  .ofText toString (fun s => Timestamp.parse? s.toList) Timestamp.IsOrdinary (fun _ => rfl)
    (fun _ => rfl) rfl
    (fun t ht => show Timestamp.parse? (String.ofList t.toText).toList = some t by
      rw [String.toList_ofList, Timestamp.parse?_toText ht])
    fun _ _ h => Timestamp.isOrdinary_of_parse? h

theorem Identifier.parse?_toString (i : Identifier) :
    Identifier.parse? (toString i).toList = some i := by
  show Identifier.parse? (String.ofList i.toText).toList = _
  rw [String.toList_ofList, Identifier.parse?_toText]

instance : LawfulFormat EntityId :=
  .ofText (fun e => toString e.id) (fun s => (Identifier.parse? s.toList).map EntityId.mk)
    (fun _ => True) (fun _ => rfl) (fun _ => Option.map_bind ..) rfl
    (fun e _ => by rw [Identifier.parse?_toString]; rfl) fun _ _ _ => trivial

instance : LawfulFormat TransferId :=
  .ofText (fun t => toString t.id) (fun s => (Identifier.parse? s.toList).map TransferId.mk)
    (fun _ => True) (fun _ => rfl) (fun _ => Option.map_bind ..) rfl
    (fun t _ => by rw [Identifier.parse?_toString]; rfl) fun _ _ _ => trivial

instance : LawfulFormat AccountId :=
  .ofKey AccountId.value AccountId.mk (fun _ => rfl) (fun _ => rfl) rfl (fun _ => rfl) fun _ => rfl

instance : LawfulFormat JournalId :=
  .ofKey JournalId.value JournalId.mk (fun _ => rfl) (fun _ => rfl) rfl (fun _ => rfl) fun _ => rfl

instance : LawfulFormat PostingId :=
  .ofKey PostingId.value PostingId.mk (fun _ => rfl) (fun _ => rfl) rfl (fun _ => rfl) fun _ => rfl

instance : LawfulFormat Status where
  Legible _ := True
  settle := id
  proper s := .string s.name
  decode_encode s _ := Status.ofName?_name s
  legible_of_decode _ _ _ := trivial
  legible_of_absent _ _ := trivial
  settle_settle _ := rfl

/-- A zero loses its sign. -/
instance : LawfulFormat Decimal where
  Legible _ := True
  settle := Decimal.unsignZero
  proper d := .string d.text
  decode_encode d _ := Decimal.ofString?_text_unsigned d
  legible_of_decode _ _ _ := trivial
  legible_of_absent _ _ := trivial
  settle_settle d := Decimal.unsignZero_unsignZero d

/-! ## Values that may be absent -/

/-- A format that never writes `null`. -/
class NeverNull (α : Type) [JsonFormat α] : Prop where
  encode_ne : ∀ a : α, encode a ≠ .null

instance : NeverNull String := ⟨nofun⟩
instance : NeverNull Timestamp := ⟨nofun⟩
instance : NeverNull Party := ⟨nofun⟩

theorem decode_option {j : Json} (h : j ≠ .null) :
    (decode j : Option (Option α)) = (decode j : Option α).map some := by
  cases j with
  | null => exact absurd rfl h
  | bool | number | text | array | object => rfl

instance [LawfulFormat α] [NeverNull α] : LawfulFormat (Option α) where
  Legible o := ∀ a ∈ o, Legible a
  settle := Option.map settle
  proper o := by
    cases o with
    | none => exact .null
    | some a => exact LawfulFormat.proper a
  decode_encode o h := by
    cases o with
    | none => rfl
    | some a =>
      show decode (encode a) = _
      rw [decode_option (NeverNull.encode_ne a), LawfulFormat.decode_encode a (h a rfl)]
      rfl
  legible_of_decode j o h a ha := by
    cases ha
    by_cases hj : j = .null
    · subst hj; cases h
    · rw [decode_option hj, Option.map_eq_some_iff] at h
      obtain ⟨b, hb, hba⟩ := h
      cases hba
      exact LawfulFormat.legible_of_decode j a hb
  legible_of_absent o h a ha := by
    cases ha
    cases h
  settle_settle o := by
    cases o with
    | none => rfl
    | some a => exact congrArg some (LawfulFormat.settle_settle a)

/-- A value that is read as it is written is so where it may be absent. -/
theorem decode_encode_option [LawfulFormat α] [NeverNull α] (hsettle : ∀ a : α, settle a = a)
    {o : Option α} (h : ∀ a ∈ o, Legible a) : decode (encode o) = some o := by
  have ho : settle o = o := by
    show o.map settle = o
    rw [funext hsettle, Option.map_id']
  rw [LawfulFormat.decode_encode o h, ho]

end CreditCircle

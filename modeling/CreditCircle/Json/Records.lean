/-
  The records of the ledger as JSON.

  A record is written as an object.  It may also be read from an array of its fields in their
  order.  In an object, unknown fields are ignored, known ones must not be repeated, and fields
  that may be absent may be missing.

  * `encode`: the JSON of a record; `decode`: the record of a JSON value.
-/
import CreditCircle.BalanceLimit
import CreditCircle.Event
import CreditCircle.Json.Value
import CreditCircle.LedgerError
import CreditCircle.Timestamp.Text

namespace CreditCircle

/-- A type of values that are written as JSON. -/
class JsonFormat (α : Type) where
  encode : α → Json
  decode : Json → Option α
  /-- What a missing field stands for, if it may be missing. -/
  absent : Option α := none

export JsonFormat (encode decode absent)

namespace Json

/-! ## Fields -/

/-- The values of the members with a key. -/
def valuesOf (key : String) (members : List (JsonText × Json)) : List Json :=
  (members.filter fun m => m.1 = some key).map Prod.snd

/-- The values of known fields in an object: at most one each, and every key a string. -/
def fieldsOfObject (names : List String) (members : List (JsonText × Json)) :
    Option (List (Option Json)) :=
  if members.any fun m => m.1.isNone then none
  else names.mapM fun name =>
    match valuesOf name members with
    | [] => some none
    | [value] => some (some value)
    | _ => none

/-- The values of known fields, in their order. -/
def fields (names : List String) : Json → Option (List (Option Json))
  | .object members => fieldsOfObject names members
  | .array items => if items.length = names.length then some (items.map some) else none
  | _ => none

/-- The value of one field. -/
def fieldAt {α : Type} [JsonFormat α] (values : List (Option Json)) (i : Nat) : Option α :=
  match values[i]? with
  | some (some j) => decode j
  | some none => absent
  | none => none

/-- The string that a value is. -/
def string? : Json → Option String
  | .text t => t
  | _ => none

/-- The natural number of 64 bits that a value is. -/
def nat64? : Json → Option Nat
  | .number n => n.toNat64?
  | _ => none

end Json

/-! ## Simple values -/

instance : JsonFormat String where
  encode := .string
  decode := Json.string?

instance {α : Type} [JsonFormat α] : JsonFormat (Option α) where
  encode
    | some a => encode a
    | none => .null
  decode
    | .null => some none
    | j => (decode j).map some
  absent := some none

instance : JsonFormat Decimal where
  encode d := .string d.text
  decode
    | .text t => t.bind Decimal.ofString?
    | .number n => n.toDecimal?
    | _ => none

instance : JsonFormat AccountNumber where
  encode n := .string (toString n)
  decode j := j.string?.bind fun s => AccountNumber.parse? s.toList

instance : JsonFormat Timestamp where
  encode t := .string (toString t)
  decode j := j.string?.bind fun s => Timestamp.parse? s.toList

instance : JsonFormat Identifier where
  encode i := .string (toString i)
  decode j := j.string?.bind fun s => Identifier.parse? s.toList

instance : JsonFormat EntityId where
  encode e := encode e.id
  decode j := (decode j).map EntityId.mk

instance : JsonFormat TransferId where
  encode t := encode t.id
  decode j := (decode j).map TransferId.mk

instance : JsonFormat AccountId where
  encode i := .nat i.value
  decode j := j.nat64?.map AccountId.mk

instance : JsonFormat JournalId where
  encode i := .nat i.value
  decode j := j.nat64?.map JournalId.mk

instance : JsonFormat PostingId where
  encode i := .nat i.value
  decode j := j.nat64?.map PostingId.mk

/-- A status is its name, or an object with the name as its only key and nothing under it. -/
instance : JsonFormat Status where
  encode s := .string s.name
  decode
    | .text t => t.bind Status.ofName?
    | .object [(key, .null)] => key.bind Status.ofName?
    | _ => none

/-! ## Records -/

instance : JsonFormat Party where
  encode p := .record [("email", encode p.email), ("entity_name", encode p.entityName)]
  decode j := do
    let v ← Json.fields ["email", "entity_name"] j
    return ⟨← Json.fieldAt v 0, ← Json.fieldAt v 1⟩

instance : JsonFormat Account where
  encode a := .record
    [("id", encode a.id), ("account_number", encode a.number), ("entity_id", encode a.entity),
      ("balance", encode a.balance), ("created_at", encode a.createdAt)]
  decode j := do
    let v ← Json.fields ["id", "account_number", "entity_id", "balance", "created_at"] j
    return ⟨← Json.fieldAt v 0, ← Json.fieldAt v 1, ← Json.fieldAt v 2, ← Json.fieldAt v 3,
      ← Json.fieldAt v 4⟩

instance : JsonFormat BalanceLimit where
  encode l := .record
    [("account_number", encode l.account), ("max_pos_bal", encode l.maxPos),
      ("max_neg_bal", encode l.maxNeg), ("updated_at", encode l.updatedAt)]
  decode j := do
    let v ← Json.fields ["account_number", "max_pos_bal", "max_neg_bal", "updated_at"] j
    return ⟨← Json.fieldAt v 0, ← Json.fieldAt v 1, ← Json.fieldAt v 2, ← Json.fieldAt v 3⟩

instance : JsonFormat Posting where
  encode p := .record
    [("id", encode p.id), ("account_number", encode p.account), ("journal_id", encode p.journal),
      ("amount", encode p.amount), ("created_at", encode p.createdAt)]
  decode j := do
    let v ← Json.fields ["id", "account_number", "journal_id", "amount", "created_at"] j
    return ⟨← Json.fieldAt v 0, ← Json.fieldAt v 1, ← Json.fieldAt v 2, ← Json.fieldAt v 3,
      ← Json.fieldAt v 4⟩

/-- The fields of a journal. -/
def Journal.fieldNames : List String :=
  ["id", "transfer_id", "initiated_by", "from_account_number", "to_account_number",
    "from_party", "to_party", "amount", "description", "status", "cancellation_reason",
    "created_at", "updated_at", "completed_at"]

instance : JsonFormat Journal where
  encode j := .record (Journal.fieldNames.zip
    [encode j.id, encode j.transfer, encode j.initiator, encode j.sender, encode j.receiver,
      encode j.senderParty, encode j.receiverParty, encode j.amount, encode j.description,
      encode j.status, encode j.reason, encode j.createdAt, encode j.updatedAt,
      encode j.completedAt])
  decode j := do
    let v ← Json.fields Journal.fieldNames j
    return {
      id := ← Json.fieldAt v 0
      transfer := ← Json.fieldAt v 1
      initiator := ← Json.fieldAt v 2
      sender := ← Json.fieldAt v 3
      receiver := ← Json.fieldAt v 4
      senderParty := ← Json.fieldAt v 5
      receiverParty := ← Json.fieldAt v 6
      amount := ← Json.fieldAt v 7
      description := ← Json.fieldAt v 8
      status := ← Json.fieldAt v 9
      reason := ← Json.fieldAt v 10
      createdAt := ← Json.fieldAt v 11
      updatedAt := ← Json.fieldAt v 12
      completedAt := ← Json.fieldAt v 13 }

/-! ## Events -/

/-- The name of who ended a transfer. -/
def Canceller.name : Canceller → String
  | .initiator => "initiator"
  | .counterparty => "counterparty"
  | .system => "system"

/-- An event as JSON: its name, the journal, and who ended the transfer. -/
def Event.encode (e : Event) : Json :=
  let canceller := match e with
    | .cancelled _ canceller => [("by", Json.string canceller.name)]
    | _ => []
  .record ([("event", .string e.name), ("journal", CreditCircle.encode e.journal)] ++ canceller)

end CreditCircle

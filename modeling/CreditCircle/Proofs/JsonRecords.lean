/-
  Records that are kept as JSON.

  * `RecordForm`: what the JSON of a type of records is about; `IsRead`: records are read as
    their form says.
  * `decode_eq_some_iff`: a record is read exactly of the values of its fields.
  * `Persists`: records are read as they were written, and what is read has been checked.
  * `records_persist`: so it is with accounts, limits, postings and journals.
-/
import CreditCircle.Proofs.CentsText
import CreditCircle.Proofs.JsonFields

namespace CreditCircle

/-! ## Parties -/

instance : LawfulFormat Party where
  Legible _ := True
  settle := id
  proper p := Json.proper_record (by simp [LawfulFormat.proper])
  decode_encode p _ := by
    have hfields := Json.fields_record ["email", "entity_name"]
      [encode p.email, encode p.entityName] (by decide) rfl
    exact Option.bind_eq_some_iff.2 ⟨_, hfields, rfl⟩
  legible_of_decode _ _ _ := trivial
  legible_of_absent _ _ := trivial
  settle_settle _ := rfl

/-! ## Forms of records -/

/-- What the JSON of a type of records is about. -/
structure RecordForm (α : Type) where
  /-- The names of the fields, in their order. -/
  names : List String
  /-- The numbers of accounts, each with the name that it stands under. -/
  numbers : List (String × (α → AccountNumber))
  amounts : α → List Decimal
  keys : α → List Nat
  moments : α → List Timestamp
  /-- The record without a sign on any amount that is zero. -/
  unsigned : α → α

variable {α : Type}

/-- Keys have 64 bits, and moments are those of the calendar. -/
structure RecordForm.Legible (form : RecordForm α) (a : α) : Prop where
  keys : ∀ key ∈ form.keys a, key < 2 ^ 64
  moments : ∀ t ∈ form.moments a, t.IsOrdinary

/-- Records of a type are read as their form says. -/
structure RecordForm.IsRead [JsonFormat α] (form : RecordForm α) : Prop where
  proper : ∀ a : α, (encode a).Proper
  decode_encode : ∀ a : α, form.Legible a → decode (encode a) = some (form.unsigned a)
  legible : ∀ (j : Json) (a : α), decode j = some a → form.Legible a
  holdsNumber : ∀ (j : Json) (a : α), decode j = some a →
    ∀ field ∈ form.numbers, j.HoldsNumber form.names field.1 (field.2 a)
  unsigned_eq_self : ∀ a : α, (∀ d ∈ form.amounts a, ¬ d.IsNegativeZero) → form.unsigned a = a
  unsigned_unsigned : ∀ a : α, form.unsigned (form.unsigned a) = form.unsigned a

/-! ## Accounts -/

namespace Account

/-- What the JSON of accounts is about. -/
def form : RecordForm Account where
  names := ["id", "account_number", "entity_id", "balance", "created_at"]
  numbers := [("account_number", number)]
  amounts a := [a.balance]
  keys a := [a.id.value]
  moments a := [a.createdAt]
  unsigned a := { a with balance := a.balance.unsignZero }

/-- The fields of an account stand in a row of values. -/
structure InFields (v : List (Option Json)) (a : Account) : Prop where
  id : Json.fieldAt v 0 = some a.id
  number : Json.fieldAt v 1 = some a.number
  entity : Json.fieldAt v 2 = some a.entity
  balance : Json.fieldAt v 3 = some a.balance
  createdAt : Json.fieldAt v 4 = some a.createdAt

theorem decode_eq_some_iff {j : Json} {a : Account} :
    decode j = some a ↔ ∃ v, Json.fields form.names j = some v ∧ InFields v a := by
  refine Option.bind_eq_some_iff.trans (exists_congr fun v => and_congr_right fun _ => ?_)
  simp only [↓Json.fieldAt_bind_iff, Option.pure_def, Option.some_inj]
  constructor
  · rintro ⟨_, h0, _, h1, _, h2, _, h3, _, h4, rfl⟩
    exact ⟨h0, h1, h2, h3, h4⟩
  · rintro ⟨h0, h1, h2, h3, h4⟩
    exact ⟨_, h0, _, h1, _, h2, _, h3, _, h4, rfl⟩

theorem form_isRead : form.IsRead where
  proper a := Json.proper_record (by simp [LawfulFormat.proper])
  decode_encode a h := by
    have hfields := Json.fields_record form.names
      [encode a.id, encode a.number, encode a.entity, encode a.balance, encode a.createdAt]
      (by decide) rfl
    refine decode_eq_some_iff.2 ⟨_, hfields, ?_⟩
    exact {
      id := LawfulFormat.decode_encode a.id (h.keys _ (by simp [form]))
      number := LawfulFormat.decode_encode a.number trivial
      entity := LawfulFormat.decode_encode a.entity trivial
      balance := LawfulFormat.decode_encode a.balance trivial
      createdAt := LawfulFormat.decode_encode a.createdAt (h.moments _ (by simp [form])) }
  legible j a h := by
    obtain ⟨v, -, hv⟩ := decode_eq_some_iff.1 h
    exact ⟨List.forall_mem_singleton.2 (Json.legible_of_fieldAt hv.id),
      List.forall_mem_singleton.2 (Json.legible_of_fieldAt hv.createdAt)⟩
  holdsNumber j a h := by
    obtain ⟨v, hfields, hv⟩ := decode_eq_some_iff.1 h
    exact List.forall_mem_singleton.2 (Json.holdsNumber_of_fieldAt hfields rfl hv.number)
  unsigned_eq_self a h := by
    have hbalance := Decimal.unsignZero_eq_self (h a.balance (by simp [form]))
    show { a with balance := a.balance.unsignZero } = a
    rw [hbalance]
  unsigned_unsigned a := by
    simp only [form, Decimal.unsignZero_unsignZero]

end Account

/-! ## Limits -/

namespace BalanceLimit

/-- What the JSON of limits is about. -/
def form : RecordForm BalanceLimit where
  names := ["account_number", "max_pos_bal", "max_neg_bal", "updated_at"]
  numbers := [("account_number", account)]
  amounts l := [l.maxPos, l.maxNeg]
  keys _ := []
  moments l := [l.updatedAt]
  unsigned l := { l with maxPos := l.maxPos.unsignZero, maxNeg := l.maxNeg.unsignZero }

/-- The fields of limits stand in a row of values. -/
structure InFields (v : List (Option Json)) (l : BalanceLimit) : Prop where
  account : Json.fieldAt v 0 = some l.account
  maxPos : Json.fieldAt v 1 = some l.maxPos
  maxNeg : Json.fieldAt v 2 = some l.maxNeg
  updatedAt : Json.fieldAt v 3 = some l.updatedAt

theorem decode_eq_some_iff {j : Json} {l : BalanceLimit} :
    decode j = some l ↔ ∃ v, Json.fields form.names j = some v ∧ InFields v l := by
  refine Option.bind_eq_some_iff.trans (exists_congr fun v => and_congr_right fun _ => ?_)
  simp only [↓Json.fieldAt_bind_iff, Option.pure_def, Option.some_inj]
  constructor
  · rintro ⟨_, h0, _, h1, _, h2, _, h3, rfl⟩
    exact ⟨h0, h1, h2, h3⟩
  · rintro ⟨h0, h1, h2, h3⟩
    exact ⟨_, h0, _, h1, _, h2, _, h3, rfl⟩

theorem form_isRead : form.IsRead where
  proper l := Json.proper_record (by simp [LawfulFormat.proper])
  decode_encode l h := by
    have hfields := Json.fields_record form.names
      [encode l.account, encode l.maxPos, encode l.maxNeg, encode l.updatedAt] (by decide) rfl
    refine decode_eq_some_iff.2 ⟨_, hfields, ?_⟩
    exact {
      account := LawfulFormat.decode_encode l.account trivial
      maxPos := LawfulFormat.decode_encode l.maxPos trivial
      maxNeg := LawfulFormat.decode_encode l.maxNeg trivial
      updatedAt := LawfulFormat.decode_encode l.updatedAt (h.moments _ (by simp [form])) }
  legible j l h := by
    obtain ⟨v, -, hv⟩ := decode_eq_some_iff.1 h
    exact ⟨List.forall_mem_nil _,
      List.forall_mem_singleton.2 (Json.legible_of_fieldAt hv.updatedAt)⟩
  holdsNumber j l h := by
    obtain ⟨v, hfields, hv⟩ := decode_eq_some_iff.1 h
    exact List.forall_mem_singleton.2 (Json.holdsNumber_of_fieldAt hfields rfl hv.account)
  unsigned_eq_self l h := by
    have hpos := Decimal.unsignZero_eq_self (h l.maxPos (by simp [form]))
    have hneg := Decimal.unsignZero_eq_self (h l.maxNeg (by simp [form]))
    show { l with maxPos := l.maxPos.unsignZero, maxNeg := l.maxNeg.unsignZero } = l
    rw [hpos, hneg]
  unsigned_unsigned l := by
    simp only [form, Decimal.unsignZero_unsignZero]

end BalanceLimit

/-! ## Postings -/

namespace Posting

/-- What the JSON of postings is about. -/
def form : RecordForm Posting where
  names := ["id", "account_number", "journal_id", "amount", "created_at"]
  numbers := [("account_number", account)]
  amounts p := [p.amount]
  keys p := [p.id.value, p.journal.value]
  moments p := [p.createdAt]
  unsigned p := { p with amount := p.amount.unsignZero }

/-- The fields of a posting stand in a row of values. -/
structure InFields (v : List (Option Json)) (p : Posting) : Prop where
  id : Json.fieldAt v 0 = some p.id
  account : Json.fieldAt v 1 = some p.account
  journal : Json.fieldAt v 2 = some p.journal
  amount : Json.fieldAt v 3 = some p.amount
  createdAt : Json.fieldAt v 4 = some p.createdAt

theorem decode_eq_some_iff {j : Json} {p : Posting} :
    decode j = some p ↔ ∃ v, Json.fields form.names j = some v ∧ InFields v p := by
  refine Option.bind_eq_some_iff.trans (exists_congr fun v => and_congr_right fun _ => ?_)
  simp only [↓Json.fieldAt_bind_iff, Option.pure_def, Option.some_inj]
  constructor
  · rintro ⟨_, h0, _, h1, _, h2, _, h3, _, h4, rfl⟩
    exact ⟨h0, h1, h2, h3, h4⟩
  · rintro ⟨h0, h1, h2, h3, h4⟩
    exact ⟨_, h0, _, h1, _, h2, _, h3, _, h4, rfl⟩

theorem form_isRead : form.IsRead where
  proper p := Json.proper_record (by simp [LawfulFormat.proper])
  decode_encode p h := by
    have hfields := Json.fields_record form.names
      [encode p.id, encode p.account, encode p.journal, encode p.amount, encode p.createdAt]
      (by decide) rfl
    refine decode_eq_some_iff.2 ⟨_, hfields, ?_⟩
    exact {
      id := LawfulFormat.decode_encode p.id (h.keys _ (by simp [form]))
      account := LawfulFormat.decode_encode p.account trivial
      journal := LawfulFormat.decode_encode p.journal (h.keys _ (by simp [form]))
      amount := LawfulFormat.decode_encode p.amount trivial
      createdAt := LawfulFormat.decode_encode p.createdAt (h.moments _ (by simp [form])) }
  legible j p h := by
    obtain ⟨v, -, hv⟩ := decode_eq_some_iff.1 h
    have hid : p.id.value < 2 ^ 64 := Json.legible_of_fieldAt hv.id
    have hjournal : p.journal.value < 2 ^ 64 := Json.legible_of_fieldAt hv.journal
    exact ⟨List.forall_mem_cons.2 ⟨hid, List.forall_mem_singleton.2 hjournal⟩,
      List.forall_mem_singleton.2 (Json.legible_of_fieldAt hv.createdAt)⟩
  holdsNumber j p h := by
    obtain ⟨v, hfields, hv⟩ := decode_eq_some_iff.1 h
    exact List.forall_mem_singleton.2 (Json.holdsNumber_of_fieldAt hfields rfl hv.account)
  unsigned_eq_self p h := by
    have hamount := Decimal.unsignZero_eq_self (h p.amount (by simp [form]))
    show { p with amount := p.amount.unsignZero } = p
    rw [hamount]
  unsigned_unsigned p := by
    simp only [form, Decimal.unsignZero_unsignZero]

end Posting

/-! ## Journals -/

namespace Journal

/-- What the JSON of journals is about. -/
def form : RecordForm Journal where
  names := fieldNames
  numbers := [("initiated_by", initiator), ("from_account_number", sender),
    ("to_account_number", receiver)]
  amounts j := [j.amount]
  keys j := [j.id.value]
  moments j := [j.createdAt, j.updatedAt] ++ j.completedAt.toList
  unsigned j := { j with amount := j.amount.unsignZero }

/-- The fields of a journal stand in a row of values. -/
structure InFields (v : List (Option Json)) (j : Journal) : Prop where
  id : Json.fieldAt v 0 = some j.id
  transfer : Json.fieldAt v 1 = some j.transfer
  initiator : Json.fieldAt v 2 = some j.initiator
  sender : Json.fieldAt v 3 = some j.sender
  receiver : Json.fieldAt v 4 = some j.receiver
  senderParty : Json.fieldAt v 5 = some j.senderParty
  receiverParty : Json.fieldAt v 6 = some j.receiverParty
  amount : Json.fieldAt v 7 = some j.amount
  description : Json.fieldAt v 8 = some j.description
  status : Json.fieldAt v 9 = some j.status
  reason : Json.fieldAt v 10 = some j.reason
  createdAt : Json.fieldAt v 11 = some j.createdAt
  updatedAt : Json.fieldAt v 12 = some j.updatedAt
  completedAt : Json.fieldAt v 13 = some j.completedAt

theorem decode_eq_some_iff {json : Json} {j : Journal} :
    decode json = some j ↔ ∃ v, Json.fields form.names json = some v ∧ InFields v j := by
  refine Option.bind_eq_some_iff.trans (exists_congr fun v => and_congr_right fun _ => ?_)
  simp only [↓Json.fieldAt_bind_iff, Option.pure_def, Option.some_inj]
  constructor
  · rintro ⟨_, h0, _, h1, _, h2, _, h3, _, h4, _, h5, _, h6, _, h7, _, h8, _, h9, _, h10, _, h11,
      _, h12, _, h13, rfl⟩
    exact ⟨h0, h1, h2, h3, h4, h5, h6, h7, h8, h9, h10, h11, h12, h13⟩
  · rintro ⟨h0, h1, h2, h3, h4, h5, h6, h7, h8, h9, h10, h11, h12, h13⟩
    exact ⟨_, h0, _, h1, _, h2, _, h3, _, h4, _, h5, _, h6, _, h7, _, h8, _, h9, _, h10, _, h11,
      _, h12, _, h13, rfl⟩

theorem form_isRead : form.IsRead where
  proper j := Json.proper_record (by simp [fieldNames, LawfulFormat.proper])
  decode_encode j h := by
    have hcompleted : Legible j.completedAt := fun t ht =>
      h.moments t (List.mem_append_right _ (Option.mem_toList.2 ht))
    refine decode_eq_some_iff.2 ⟨_, Json.fields_record form.names _ (by decide) rfl, ?_⟩
    exact {
      id := LawfulFormat.decode_encode j.id (h.keys _ (by simp [form]))
      transfer := LawfulFormat.decode_encode j.transfer trivial
      initiator := LawfulFormat.decode_encode j.initiator trivial
      sender := LawfulFormat.decode_encode j.sender trivial
      receiver := LawfulFormat.decode_encode j.receiver trivial
      senderParty := decode_encode_option (fun _ => rfl) fun _ _ => trivial
      receiverParty := decode_encode_option (fun _ => rfl) fun _ _ => trivial
      amount := LawfulFormat.decode_encode j.amount trivial
      description := LawfulFormat.decode_encode j.description trivial
      status := LawfulFormat.decode_encode j.status trivial
      reason := decode_encode_option (fun _ => rfl) fun _ _ => trivial
      createdAt := LawfulFormat.decode_encode j.createdAt (h.moments _ (by simp [form]))
      updatedAt := LawfulFormat.decode_encode j.updatedAt (h.moments _ (by simp [form]))
      completedAt := decode_encode_option (fun _ => rfl) hcompleted }
  legible json j h := by
    obtain ⟨v, -, hv⟩ := decode_eq_some_iff.1 h
    have hcreated : j.createdAt.IsOrdinary := Json.legible_of_fieldAt hv.createdAt
    have hupdated : j.updatedAt.IsOrdinary := Json.legible_of_fieldAt hv.updatedAt
    have hcompleted : ∀ t ∈ j.completedAt, t.IsOrdinary := Json.legible_of_fieldAt hv.completedAt
    refine ⟨List.forall_mem_singleton.2 (Json.legible_of_fieldAt hv.id), ?_⟩
    simpa [form, hcreated, hupdated] using hcompleted
  holdsNumber json j h := by
    obtain ⟨v, hfields, hv⟩ := decode_eq_some_iff.1 h
    have hinitiator : json.HoldsNumber form.names "initiated_by" j.initiator :=
      Json.holdsNumber_of_fieldAt hfields rfl hv.initiator
    have hsender : json.HoldsNumber form.names "from_account_number" j.sender :=
      Json.holdsNumber_of_fieldAt hfields rfl hv.sender
    have hreceiver : json.HoldsNumber form.names "to_account_number" j.receiver :=
      Json.holdsNumber_of_fieldAt hfields rfl hv.receiver
    exact List.forall_mem_cons.2 ⟨hinitiator,
      List.forall_mem_cons.2 ⟨hsender, List.forall_mem_singleton.2 hreceiver⟩⟩
  unsigned_eq_self j h := by
    have hamount := Decimal.unsignZero_eq_self (h j.amount (by simp [form]))
    show { j with amount := j.amount.unsignZero } = j
    rw [hamount]
  unsigned_unsigned j := by
    simp only [form, Decimal.unsignZero_unsignZero]

end Journal

/-! ## Texts -/

section
variable [JsonFormat α]

/-- The text that a record is kept as. -/
def jsonText (a : α) : String := (encode a).render

/-- The record that a text holds. -/
def ofJsonText? (s : String) : Option α := (Json.ofString? s).bind decode

/-- Records of a type can be kept as texts. -/
structure Persists (form : RecordForm α) : Prop where
  /-- A record is read as it was written. -/
  lossless : ∀ a : α, form.Legible a → (∀ d ∈ form.amounts a, ¬ d.IsNegativeZero) →
    ofJsonText? (jsonText a) = some a
  /-- Whatever the text, the numbers of accounts in it have been checked. -/
  guarded : ∀ (s : String) (a : α), ofJsonText? s = some a →
    ∃ j, Json.ofString? s = some j ∧
      ∀ field ∈ form.numbers, j.HoldsNumber form.names field.1 (field.2 a)
  /-- What was read of any text loses at most the signs of zeros when it is written and read. -/
  stable : ∀ (s : String) (a : α), ofJsonText? s = some a → form.Legible a ∧
    ofJsonText? (jsonText a) = some (form.unsigned a) ∧
    ofJsonText? (jsonText (form.unsigned a)) = some (form.unsigned a)

theorem RecordForm.IsRead.ofJsonText?_jsonText {form : RecordForm α} (h : form.IsRead) {a : α}
    (ha : form.Legible a) : ofJsonText? (jsonText a) = some (form.unsigned a) := by
  rw [ofJsonText?, jsonText, Json.ofString?_render (h.proper a), Option.bind_some,
    h.decode_encode a ha]

theorem RecordForm.IsRead.persists {form : RecordForm α} (h : form.IsRead) : Persists form where
  lossless a ha hzero := by
    rw [h.ofJsonText?_jsonText ha, h.unsigned_eq_self a hzero]
  guarded s a hs := by
    obtain ⟨j, hj, ha⟩ := Option.bind_eq_some_iff.1 hs
    exact ⟨j, hj, h.holdsNumber j a ha⟩
  stable s a hs := by
    obtain ⟨j, -, hdecode⟩ := Option.bind_eq_some_iff.1 hs
    have ha : form.Legible a := h.legible j a hdecode
    -- What has been read is legible, so that the record without signs is.
    have hunsigned : form.Legible (form.unsigned a) :=
      h.legible (encode a) _ (h.decode_encode a ha)
    refine ⟨ha, h.ofJsonText?_jsonText ha, ?_⟩
    rw [h.ofJsonText?_jsonText hunsigned, h.unsigned_unsigned]

end

/-- Accounts, limits, postings and journals can be kept as texts.  The sign that a zero may lose
    changes neither its value nor its scale. -/
theorem records_persist :
    Persists Account.form ∧ Persists BalanceLimit.form ∧ Persists Posting.form ∧
      Persists Journal.form ∧
      ∀ d : Decimal, d.unsignZero.toRat = d.toRat ∧ d.unsignZero.scale = d.scale :=
  ⟨Account.form_isRead.persists, BalanceLimit.form_isRead.persists, Posting.form_isRead.persists,
    Journal.form_isRead.persists, fun d => ⟨d.toRat_unsignZero, rfl⟩⟩

/-- The journal of a transfer of 12.50 that was booked a quarter of a second after it had been
    proposed is read as it was written, and the numbers in its text have been checked. -/
theorem records_persist_completed :
    let draft : JournalDraft :=
      ⟨⟨.ofNat 3⟩, .generate 10, .generate 10, .generate 20,
        some ⟨"first@circle", "the \"first\" member"⟩, none,
        ⟨false, 1250, 2, by decide, by decide⟩, "rent, May", .ofMillis 1714564800000⟩
    let j := (draft.toJournal ⟨1⟩).completed (.ofMillis 1714564800250)
    ofJsonText? (jsonText j) = some j ∧
      ∃ json, Json.ofString? (jsonText j) = some json ∧
        json.HoldsNumber Journal.form.names "from_account_number" (.generate 10) := by
  intro draft j
  have hlegible : Journal.form.Legible j := by
    refine ⟨List.forall_mem_singleton.2 (by decide), ?_⟩
    exact List.forall_mem_cons.2 ⟨⟨by decide, by decide⟩,
      List.forall_mem_cons.2 ⟨⟨by decide, by decide⟩,
        List.forall_mem_singleton.2 ⟨by decide, by decide⟩⟩⟩
  have hread : ofJsonText? (jsonText j) = some j :=
    records_persist.2.2.2.1.lossless j hlegible (List.forall_mem_singleton.2 (by decide))
  obtain ⟨json, hjson, hnumbers⟩ := records_persist.2.2.2.1.guarded _ _ hread
  exact ⟨hread, json, hjson, hnumbers ("from_account_number", Journal.sender) (.tail _ (.head _))⟩

end CreditCircle

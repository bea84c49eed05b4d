/-
  The events as a history of the journals.

  * `Operation.Announces`: the event that a success publishes, and what was known of the transfer
    before.
  * `Change.announces`: an operation that writes a journal publishes that journal, and no other
    operation publishes anything.
  * `Ledger.chronicle`: the events of a run, each with the operation that published it.
  * `Life`: what is published about one transfer.
  * `Ledger.chronicle_faithful`: the events tell the whole history of the journals.
-/
import CreditCircle.Proofs.Lifecycle
import Mathlib.Data.List.Induction

namespace CreditCircle

/-! ## The event of an operation -/

/-- The status that a kind of event stands for. -/
def Event.expectedStatus : Event → Status
  | proposed _ => .initiated
  | accepted _ => .completed
  | cancelled _ _ => .cancelled

/-- On `t`, a success of the operation is made known by the event: a new transfer was not there
    before, and one that ends was pending. -/
inductive Operation.Announces (t : Tables) : Operation → Event → Prop
  | proposes {eligible : AccountNumber → Bool} {request : TransferRequest} {chance : Chance}
      {j : Journal} (hx : j.transfer = chance.transfer) (hnew : t.journal? j.transfer = none) :
      Announces t (.propose eligible request chance) (.proposed j)
  | transfers {eligible : AccountNumber → Bool} {request : TransferRequest} {chance : Chance}
      {j : Journal} (hx : j.transfer = chance.transfer) (hnew : t.journal? j.transfer = none) :
      Announces t (.transferNow eligible request chance) (.accepted j)
  | completes {clock : Clock} {j k : Journal} (hk : t.journal? j.transfer = some k)
      (hp : k.status = .initiated) : Announces t (.accept j.transfer clock) (.accepted j)
  | closes {op : Operation} {reason : String} {canceller : Canceller} {now : Timestamp}
      {j k : Journal} (hop : op.Cancels j.transfer reason canceller now)
      (hk : t.journal? j.transfer = some k) (hp : k.status = .initiated) :
      Announces t op (.cancelled j canceller)

/-- What is announced is news: the table does not hold it yet. -/
theorem Operation.Announces.news {t : Tables} {op : Operation} {e : Event}
    (h : op.Announces t e) (hs : e.journal.status = e.expectedStatus) :
    t.journal? e.journal.transfer ≠ some e.journal := by
  intro heq
  cases h with
  | proposes hx hnew => simp [Event.journal, hnew] at heq
  | transfers hx hnew => simp [Event.journal, hnew] at heq
  | completes hk hp =>
    simp only [Event.journal, hk, Option.some.injEq] at heq hs
    simp [← heq, hp, Event.expectedStatus] at hs
  | closes hop hk hp =>
    simp only [Event.journal, hk, Option.some.injEq] at heq hs
    simp [← heq, hp, Event.expectedStatus] at hs

/-- The event `e` is published between `l` and `l'`, and its journal is what is written. -/
structure Ledger.Records (l l' : Ledger) (e : Event) : Prop where
  events : l'.events = l.events ++ [e]
  journals : l'.tables.journals = l.tables.journals.put e.journal.transfer e.journal
  status : e.journal.status = e.expectedStatus

/-- Between `l` and `l'`, no journal is written and nothing is published. -/
structure Ledger.Silent (l l' : Ledger) : Prop where
  events : l'.events = l.events
  journals : l'.tables.journals = l.tables.journals

theorem Books.journals {l l' : Ledger} {j : Journal} {t : Tables} (h : Books l l' j t) :
    t.journals = l.tables.journals := by
  obtain ⟨-, -, -⟩ := h
  rfl

theorem Change.announces {limits : DefaultLimits} {l l' : Ledger} {op : Operation}
    (h : Change limits l l' op) (hw : l.tables.WellFormed) :
    (∃ e, op.Announces l.tables e ∧ l.Records l' e) ∨ l.Silent l' := by
  cases h with
  | opens h =>
    obtain ⟨now, -, ht⟩ := h.tables
    exact Or.inr ⟨h.events, by rw [ht]; rfl⟩
  | relimits h => exact Or.inr ⟨h.events, by rw [h.tables]; rfl⟩
  | @proposes eligible request chance j h =>
    refine Or.inl ⟨.proposed j, .proposes ?_ h.new, h.events, by rw [h.tables]; rfl, ?_⟩
    · rw [h.draft]; rfl
    · rw [h.draft]; rfl
  | @completes transfer clock j h =>
    obtain ⟨t, hb, ht⟩ := h.tables
    have hx : j.transfer = transfer := hw.journal transfer j h.found
    subst hx
    refine Or.inl ⟨.accepted (j.completed (clock 0)), ?_, h.events, ?_, rfl⟩
    · exact .completes (j := j.completed (clock 0)) h.found h.pending
    · rw [ht, ← hb.journals]; rfl
  | @closes op transfer reason canceller now j hop h =>
    have hx : j.transfer = transfer := hw.journal transfer j h.found
    subst hx
    refine Or.inl ⟨.cancelled (j.cancelled reason now) canceller, ?_, h.events, ?_, rfl⟩
    · exact .closes (j := j.cancelled reason now) hop h.found h.pending
    · rw [h.tables]; rfl
  | @transfers eligible request chance j h =>
    obtain ⟨t, hb, ht⟩ := h.tables
    refine Or.inl ⟨.accepted (j.completed (chance.clock 3)), ?_, h.events, ?_, rfl⟩
    · exact .transfers (j := j.completed (chance.clock 3)) (by rw [h.draft]; rfl) h.new
    · rw [ht, ← hb.journals]; rfl

/-- A step publishes the one journal that it writes, or neither writes nor publishes any. -/
theorem Ledger.AtRest.next_records {l : Ledger} (h : l.AtRest) (limits : DefaultLimits)
    (step : Step) :
    (∃ op e, step = .operate op ∧ (∃ v, (l.run (op.program limits)).1 = .ok v) ∧
        op.Announces l.tables e ∧ l.Records (l.next limits step) e) ∨
      l.Silent (l.next limits step) := by
  have hsilent : (l.next limits step).tables = l.tables → (l.next limits step).events = l.events →
      l.Silent (l.next limits step) := fun ht he => ⟨he, by rw [ht]⟩
  rcases h.next_cases limits step with ⟨op, v, rfl, hv, hc⟩ | ⟨ht, he, -⟩
  · rcases hc.announces h.wellFormed with ⟨e, ha, hr⟩ | hs
    · exact Or.inl ⟨op, e, rfl, ⟨v, hv⟩, ha, hr⟩
    · exact Or.inr hs
  · exact Or.inr (hsilent ht he)

/-! ## The table that events lead to -/

namespace Event

/-- The event is about the transfer `x`. -/
def About (x : TransferId) (e : Event) : Prop := e.journal.transfer = x

instance (x : TransferId) (e : Event) : Decidable (e.About x) :=
  inferInstanceAs (Decidable (_ = _))

/-- The journal that the last event about `x` carries. -/
def lastOf (x : TransferId) (events : List Event) : Option Journal :=
  (events.filter (·.About x)).getLast?.map journal

theorem lastOf_concat (x : TransferId) (events : List Event) (e : Event) :
    lastOf x (events ++ [e]) = if x = e.journal.transfer then some e.journal
      else lastOf x events := by
  unfold lastOf
  by_cases h : e.About x
  · rw [if_pos (show x = e.journal.transfer from Eq.symm h)]
    simp [List.filter_append, h]
  · rw [if_neg (show ¬ x = e.journal.transfer from fun hx => h hx.symm)]
    simp [List.filter_append, h]

end Event

/-! ## Runs -/

namespace Ledger

/-- What a step publishes, with the operation that does it. -/
def published (limits : DefaultLimits) (l : Ledger) : Step → List (Operation × Event)
  | .arm _ => []
  | .operate op =>
    ((l.next limits (.operate op)).events.drop l.events.length).map fun e => (op, e)

/-- What some steps publish, one after the other. -/
def chronicle (limits : DefaultLimits) (l : Ledger) : List Step → List (Operation × Event)
  | [] => []
  | step :: steps => l.published limits step ++ (l.next limits step).chronicle limits steps

variable {limits : DefaultLimits} {l : Ledger}

theorem chronicle_append (l : Ledger) (before steps : List Step) :
    l.chronicle limits (before ++ steps) =
      l.chronicle limits before ++ (l.after limits before).chronicle limits steps := by
  induction before generalizing l with
  | nil => rfl
  | cons step before ih => simp only [List.cons_append, chronicle, ih, List.append_assoc]; rfl

theorem published_of_records {op : Operation} {e : Event}
    (h : l.Records (l.next limits (.operate op)) e) :
    l.published limits (.operate op) = [(op, e)] := by
  simp [published, h.events]

theorem published_of_silent {step : Step} (h : l.Silent (l.next limits step)) :
    l.published limits step = [] := by
  cases step with
  | arm point => rfl
  | operate op => simp [published, h.events]

/-- A fact about the ledger and the chronicle that every step keeps. -/
theorem chronicle_induct {P : Ledger → List (Operation × Event) → Prop} (empty : P .empty [])
    (silent : ∀ l l' c, P l c → l.Silent l' → P l' c)
    (records : ∀ l l' c op e, P l c → op.Announces l.tables e → l.Records l' e →
      P l' (c ++ [(op, e)])) (steps : List Step) :
    P (Ledger.empty.after limits steps) (Ledger.empty.chronicle limits steps) := by
  induction steps using List.reverseRecOn with
  | nil => exact empty
  | append_singleton steps step ih =>
    have hr : (Ledger.empty.after limits steps).Reachable limits := ⟨steps, rfl⟩
    have hafter : Ledger.empty.after limits (steps ++ [step]) =
        (Ledger.empty.after limits steps).next limits step := List.foldl_append ..
    rw [hafter, chronicle_append, chronicle, chronicle, List.append_nil]
    rcases hr.atRest.next_records limits step with
      ⟨op, e, rfl, -, ha, hrec⟩ | hs
    · rw [published_of_records hrec]
      exact records _ _ _ op e ih ha hrec
    · rw [published_of_silent hs, List.append_nil]
      exact silent _ _ _ ih hs

theorem chronicle_events (limits : DefaultLimits) (steps : List Step) :
    (Ledger.empty.chronicle limits steps).map Prod.snd =
      (Ledger.empty.after limits steps).events := by
  refine chronicle_induct (P := fun l c => c.map Prod.snd = l.events) rfl ?_ ?_ steps
  · intro l l' c h hs
    rw [h, hs.events]
  · intro l l' c op e h _ hr
    rw [List.map_append, h, hr.events]; rfl

theorem journals_eq_foldl (limits : DefaultLimits) (steps : List Step) :
    (Ledger.empty.after limits steps).tables.journals =
      (Ledger.empty.after limits steps).events.foldl
        (fun t e => t.put e.journal.transfer e.journal) .empty := by
  refine chronicle_induct (P := fun l _ => l.tables.journals =
    l.events.foldl (fun t e => t.put e.journal.transfer e.journal) .empty) rfl ?_ ?_ steps
  · intro l l' c h hs
    rw [hs.journals, hs.events, h]
  · intro l l' c op e h _ hr
    rw [hr.journals, hr.events, h, List.foldl_append]; rfl

theorem journal?_eq_lastOf (limits : DefaultLimits) (steps : List Step) (x : TransferId) :
    (Ledger.empty.after limits steps).tables.journal? x =
      Event.lastOf x (Ledger.empty.after limits steps).events := by
  refine chronicle_induct (P := fun l _ => l.tables.journal? x = Event.lastOf x l.events)
    rfl ?_ ?_ steps
  · intro l l' c h hs
    rw [hs.events, ← h, Tables.journal?, hs.journals, Tables.journal?]
  · intro l l' c op e h _ hr
    rw [hr.events, Event.lastOf_concat, ← h, Tables.journal?, hr.journals, Table.get?_put]
    rfl

end Ledger

/-! ## One transfer -/

/-- What is published about a transfer that stands at a status, and by which operations: nothing
    before it is made; its proposal while it is pending; in the end its proposal and what ended
    it, or only that it was made at once. -/
inductive Life : Option Status → List (Operation × Event) → Prop
  | unmade : Life none []
  | pending {eligible : AccountNumber → Bool} {request : TransferRequest} {chance : Chance}
      {j : Journal} : Life (some .initiated) [(.propose eligible request chance, .proposed j)]
  | completed {eligible : AccountNumber → Bool} {request : TransferRequest} {chance : Chance}
      {clock : Clock} {j k : Journal} :
      Life (some .completed) [(.propose eligible request chance, .proposed j),
        (.accept k.transfer clock, .accepted k)]
  | cancelled {eligible : AccountNumber → Bool} {request : TransferRequest} {chance : Chance}
      {op : Operation} {reason : String} {canceller : Canceller} {now : Timestamp}
      {j k : Journal} (hop : op.Cancels k.transfer reason canceller now) :
      Life (some .cancelled) [(.propose eligible request chance, .proposed j),
        (op, .cancelled k canceller)]
  | atOnce {eligible : AccountNumber → Bool} {request : TransferRequest} {chance : Chance}
      {j : Journal} : Life (some .completed) [(.transferNow eligible request chance, .accepted j)]

/-- The entries of a chronicle that are about one transfer. -/
def entriesOf (x : TransferId) (c : List (Operation × Event)) : List (Operation × Event) :=
  c.filter (·.2.About x)

theorem entriesOf_concat_self (c : List (Operation × Event)) (op : Operation) (e : Event) :
    entriesOf e.journal.transfer (c ++ [(op, e)]) =
      entriesOf e.journal.transfer c ++ [(op, e)] := by
  simp [entriesOf, List.filter_append, Event.About]

theorem entriesOf_concat_of_ne {x : TransferId} {e : Event} (h : x ≠ e.journal.transfer)
    (c : List (Operation × Event)) (op : Operation) :
    entriesOf x (c ++ [(op, e)]) = entriesOf x c := by
  simp [entriesOf, List.filter_append, Event.About, Ne.symm h]

/-- The next event about a transfer goes on with its life. -/
theorem Life.announce {t : Tables} {op : Operation} {e : Event} {c : List (Operation × Event)}
    (h : Life ((t.journal? e.journal.transfer).map Journal.status) c) (ha : op.Announces t e) :
    Life (some e.expectedStatus) (c ++ [(op, e)]) := by
  cases ha with
  | proposes hx hnew =>
    simp only [Event.journal, hnew, Option.map_none] at h
    cases h
    exact .pending
  | transfers hx hnew =>
    simp only [Event.journal, hnew, Option.map_none] at h
    cases h
    exact .atOnce
  | completes hk hp =>
    simp only [Event.journal, hk, Option.map_some, hp] at h
    cases h
    exact .completed
  | closes hop hk hp =>
    simp only [Event.journal, hk, Option.map_some, hp] at h
    cases h
    exact .cancelled hop

namespace Ledger

theorem chronicle_life (limits : DefaultLimits) (steps : List Step) (x : TransferId) :
    Life (((Ledger.empty.after limits steps).tables.journal? x).map Journal.status)
      (entriesOf x (Ledger.empty.chronicle limits steps)) := by
  refine chronicle_induct
    (P := fun l c => Life ((l.tables.journal? x).map Journal.status) (entriesOf x c))
    .unmade ?_ ?_ steps
  · intro l l' c h hs
    rwa [Tables.journal?, hs.journals]
  · intro l l' c op e h ha hr
    rw [Tables.journal?, hr.journals, Table.get?_put]
    by_cases hx : x = e.journal.transfer
    · subst hx
      rw [if_pos rfl, Option.map_some, hr.status, entriesOf_concat_self]
      exact h.announce ha
    · rw [if_neg hx, entriesOf_concat_of_ne hx]
      exact h

theorem chronicle_status (limits : DefaultLimits) (steps : List Step) :
    ∀ e ∈ (Ledger.empty.after limits steps).events, e.status = e.expectedStatus := by
  refine chronicle_induct (P := fun l _ => ∀ e ∈ l.events, e.status = e.expectedStatus)
    (by simp [Ledger.empty]) ?_ ?_ steps
  · intro l l' c h hs
    rwa [hs.events]
  · intro l l' c op e h _ hr
    rw [hr.events]
    intro e' he'
    rcases List.mem_append.1 he' with he' | he'
    · exact h e' he'
    · rw [List.mem_singleton.1 he']
      exact hr.status

theorem chronicle_announces (limits : DefaultLimits) (steps : List Step) :
    ∀ entry ∈ Ledger.empty.chronicle limits steps, ∃ t, entry.1.Announces t entry.2 := by
  refine chronicle_induct (P := fun _ c => ∀ entry ∈ c, ∃ t : Tables, entry.1.Announces t entry.2)
    (by simp) (fun _ _ _ h _ => h) ?_ steps
  intro l l' c op e h ha _ entry hentry
  rcases List.mem_append.1 hentry with hentry | hentry
  · exact h entry hentry
  · rw [List.mem_singleton.1 hentry]
    exact ⟨l.tables, ha⟩

end Ledger

/-- Who has ended a transfer unbooked tells which operation did it. -/
theorem Operation.Cancels.canceller_iff {op : Operation} {x : TransferId} {reason : String}
    {canceller : Canceller} {now : Timestamp} (h : op.Cancels x reason canceller now) :
    (canceller = .system ↔ ∃ clock, op = .accept x clock) ∧
      (canceller = .counterparty ↔ ∃ reason now, op = .reject x reason now) ∧
      (canceller = .initiator ↔ ∃ reason now, op = .cancel x reason now) := by
  cases h with
  | system _ clock side =>
    refine ⟨iff_of_true rfl ⟨clock, rfl⟩, iff_of_false (by simp) ?_, iff_of_false (by simp) ?_⟩
    · simp
    · simp
  | counterparty _ reason now =>
    refine ⟨iff_of_false (by simp) ?_, iff_of_true rfl ⟨reason, now, rfl⟩,
      iff_of_false (by simp) ?_⟩
    · simp
    · simp
  | initiator _ reason now =>
    refine ⟨iff_of_false (by simp) ?_, iff_of_false (by simp) ?_,
      iff_of_true rfl ⟨reason, now, rfl⟩⟩
    · simp
    · simp

/-! ## The whole history -/

/-- The events of a run are a faithful history of its journals.  A step that writes a journal
    publishes one event, which carries what is written, and all other steps publish nothing.  The
    table of the journals is what the events carry, one after the other, so that the last event
    about a transfer carries its journal.  About one transfer there is its proposal, its proposal
    and its end, or only that it was made at once.  The kind of an event agrees with the status
    that it carries, and a cancellation names who asked for it. -/
theorem Ledger.chronicle_faithful (limits : DefaultLimits) (steps : List Step) :
    let l := Ledger.empty.after limits steps
    let chronicle := Ledger.empty.chronicle limits steps
    (∀ step, (∃ op e, step = .operate op ∧ (∃ v, (l.run (op.program limits)).1 = .ok v) ∧
          (l.next limits step).events = l.events ++ [e] ∧
          (l.next limits step).tables.journals =
            l.tables.journals.put e.journal.transfer e.journal ∧
          l.tables.journal? e.journal.transfer ≠ some e.journal) ∨
        ((l.next limits step).events = l.events ∧
          (l.next limits step).tables.journals = l.tables.journals)) ∧
      chronicle.map Prod.snd = l.events ∧
      l.tables.journals =
        l.events.foldl (fun t e => t.put e.journal.transfer e.journal) .empty ∧
      (∀ x, l.tables.journal? x = Event.lastOf x l.events) ∧
      (∀ x, Life ((l.tables.journal? x).map Journal.status) (entriesOf x chronicle)) ∧
      (∀ e ∈ l.events, e.status = e.expectedStatus) ∧
      ∀ op j canceller, (op, Event.cancelled j canceller) ∈ chronicle →
        (canceller = .system ↔ ∃ clock, op = .accept j.transfer clock) ∧
          (canceller = .counterparty ↔ ∃ reason now, op = .reject j.transfer reason now) ∧
          (canceller = .initiator ↔ ∃ reason now, op = .cancel j.transfer reason now) := by
  intro l chronicle
  have hreach : l.Reachable limits := ⟨steps, rfl⟩
  refine ⟨fun step => ?_, chronicle_events limits steps, journals_eq_foldl limits steps,
    journal?_eq_lastOf limits steps, chronicle_life limits steps, chronicle_status limits steps,
    fun op j canceller hmem => ?_⟩
  · rcases hreach.atRest.next_records limits step with
      ⟨op, e, hstep, hv, ha, hr⟩ | hs
    · exact Or.inl ⟨op, e, hstep, hv, hr.events, hr.journals, ha.news hr.status⟩
    · exact Or.inr ⟨hs.events, hs.journals⟩
  · obtain ⟨t, ha⟩ := chronicle_announces limits steps _ hmem
    cases ha with
    | closes hop hk hp => exact hop.canceller_iff

end CreditCircle

/-
  Commands on replays that differ only in what has been drawn at random or read off the clock.

  * `SameAlias`: accounts that have the same alias stand for each other.
  * `Replay.Alike`: the same aliases, labels for the same transfers, and ledgers that say the same.
  * `Together`: both are carried out and lead to replays that are alike again, or both fail; the
    rules for looking things up and for operations of the ledger.
  * `Alike.apply`: so is a command, provided that what it draws is free on either side.
-/
import CreditCircle.Proofs.AlikeRuns
import CreditCircle.Proofs.Draws
import CreditCircle.Proofs.ReplayOrder

namespace CreditCircle.Script

/-! ## Aliases -/

/-- The two accounts have the same alias. -/
def SameAlias (names names' : Table String AccountNumber) (m n : AccountNumber) : Prop :=
  ∃ name, names.get? name = some m ∧ names'.get? name = some n

/-- No account has two aliases. -/
def OneToOne (names : Table String AccountNumber) : Prop :=
  ∀ name name' n, names.get? name = some n → names.get? name' = some n → name = name'

section
variable {names names' : Table String AccountNumber} {m n : AccountNumber} {entity : String}

theorem SameAlias.biUnique (h : OneToOne names) (h' : OneToOne names') :
    Relator.BiUnique (SameAlias names names') := by
  constructor
  · rintro m m' n ⟨name, hm, hn⟩ ⟨name', hm', hn'⟩
    obtain rfl := h' name name' n hn hn'
    exact Option.some.inj (hm.symm.trans hm')
  · rintro m n n' ⟨name, hm, hn⟩ ⟨name', hm', hn'⟩
    obtain rfl := h name name' m hm hm'
    exact Option.some.inj (hn.symm.trans hn')

theorem OneToOne.put (h : OneToOne names) (hn : ∀ name, names.get? name ≠ some n) :
    OneToOne (names.put entity n) := Table.Injective.put h hn

theorem sameAlias_put_iff (hm : names.get? entity = none) (x y : AccountNumber) :
    SameAlias (names.put entity m) (names'.put entity n) x y ↔
      SameAlias names names' x y ∨ x = m ∧ y = n := by
  constructor
  · rintro ⟨name, hx, hy⟩
    rw [Table.get?_put] at hx hy
    split at hx
    · rw [if_pos ‹_›] at hy
      exact .inr ⟨(Option.some.inj hx).symm, (Option.some.inj hy).symm⟩
    · rw [if_neg ‹_›] at hy
      exact .inl ⟨name, hx, hy⟩
  · rintro (⟨name, hx, hy⟩ | ⟨rfl, rfl⟩)
    · have hne : name ≠ entity := by
        rintro rfl
        rw [hm] at hx
        cases hx
      exact ⟨name, (Table.get?_put_of_ne _ _ hne).trans hx, (Table.get?_put_of_ne _ _ hne).trans hy⟩
    · exact ⟨entity, Table.get?_put_self _ _ _, Table.get?_put_self _ _ _⟩

end

/-! ## Replays that are alike -/

namespace Replay

/-- The same aliases and the same labels, which stand for transfers with the same journal; and the
    ledgers say the same, where accounts are known by their aliases. -/
structure Alike (r r' : Replay) : Prop where
  named : ∀ name, r.accounts.has name = r'.accounts.has name
  oneToOne : OneToOne r.accounts
  oneToOne' : OneToOne r'.accounts
  labels : ∀ label, Option.Rel (Tables.SameTransfer r.ledger.tables r'.ledger.tables)
    (r.transfers.get? label) (r'.transfers.get? label)
  ledger : r.ledger.Alike (SameAlias r.accounts r'.accounts) r'.ledger

theorem Alike.start_empty : (start .empty).Alike (start .empty) where
  named _ := rfl
  oneToOne _ _ _ h := nomatch h
  oneToOne' _ _ _ h := nomatch h
  labels _ := .none
  ledger := by
    refine ⟨⟨?_, fun _ => .none, fun _ => .nil⟩, .nil, rfl⟩
    rintro m n ⟨name, h, -⟩
    cases h

namespace Alike

variable {limits : DefaultLimits} {r r' : Replay} (h : r.Alike r')
include h

theorem twins (hr : r.Ready limits) (hr' : r'.Ready limits) :
    Ledger.Twins limits (SameAlias r.accounts r'.accounts) r.ledger r'.ledger :=
  ⟨h.ledger, hr.reachable, hr'.reachable, hr.unarmed, hr'.unarmed,
    SameAlias.biUnique h.oneToOne h.oneToOne'⟩

/-! ### Look-ups -/

theorem accounts (name : String) : Option.Rel (SameAlias r.accounts r'.accounts)
    (r.accounts.get? name) (r'.accounts.get? name) := by
  have hnamed : (r.accounts.get? name).isSome = (r'.accounts.get? name).isSome := h.named name
  cases hm : r.accounts.get? name with
  | none =>
    cases hn : r'.accounts.get? name with
    | none => exact .none
    | some n => rw [hm, hn] at hnamed; cases hnamed
  | some m =>
    cases hn : r'.accounts.get? name with
    | none => rw [hm, hn] at hnamed; cases hnamed
    | some n => exact .some ⟨name, hm, hn⟩

theorem account (name : String) :
    Concur (SameAlias r.accounts r'.accounts) (r.account name) (r'.account name) := by
  unfold Replay.account
  rcases optionRel_cases (h.accounts name) with ⟨hm, hn⟩ | ⟨m, n, hm, hn, hmn⟩
  · rw [hm, hn]; exact .error _ _
  · rw [hm, hn]; exact .ok hmn

theorem transfer (label : String) :
    Concur (Tables.SameTransfer r.ledger.tables r'.ledger.tables) (r.transfer label)
      (r'.transfer label) := by
  unfold Replay.transfer
  rcases optionRel_cases (h.labels label) with ⟨hx, hx'⟩ | ⟨x, x', hx, hx', hsame⟩
  · rw [hx, hx']; exact .error _ _
  · rw [hx, hx']; exact .ok hsame

theorem hasLabel (label : String) : r.transfers.has label = r'.transfers.has label := by
  unfold Table.has
  rcases optionRel_cases (h.labels label) with ⟨hx, hx'⟩ | ⟨x, x', hx, hx', -⟩
  · rw [hx, hx']
  · rw [hx, hx']; rfl

theorem requestFor (label sender receiver : String) (amount : Decimal) (initiator : Initiator) :
    Concur (TransferRequest.Alike (SameAlias r.accounts r'.accounts))
      (r.requestFor label sender receiver amount initiator)
      (r'.requestFor label sender receiver amount initiator) := by
  unfold Replay.requestFor
  rw [h.hasLabel]
  cases r'.transfers.has label with
  | true => exact .error _ _
  | false =>
  show Concur _ (r.account sender >>= _) (r'.account sender >>= _)
  refine (h.account sender).bind fun m n hs => (h.account receiver).bind fun m' n' hr => ?_
  cases initiator with
  | sender => exact .ok ⟨hs, hr, hs, rfl, rfl, rfl, rfl⟩
  | receiver => exact .ok ⟨hs, hr, hr, rfl, rfl, rfl, rfl⟩

theorem limitFor {m n : AccountNumber} (hmn : SameAlias r.accounts r'.accounts m n) :
    Concur (fun limit limit' => limit.maxPos = limit'.maxPos ∧ limit.maxNeg = limit'.maxNeg)
      (r.ledger.limitFor m) (r'.ledger.limitFor n) := by
  obtain ⟨row, row', hm, hn, halike⟩ := h.ledger.tables.rows m n hmn
  unfold Ledger.limitFor
  rw [hm.2, hn.2]
  exact .ok ⟨halike.maxPos, halike.maxNeg⟩

/-- Whoever has an alias has an account, on either side. -/
theorem alias_cases (name : String) :
    (r.accounts.get? name = none ∧ r'.accounts.get? name = none) ∨
      ∃ m n a b, r.accounts.get? name = some m ∧ r'.accounts.get? name = some n ∧
        r.ledger.tables.account? m = some a ∧ r'.ledger.tables.account? n = some b := by
  rcases optionRel_cases (h.accounts name) with hnone | ⟨m, n, hm, hn, hmn⟩
  · exact .inl hnone
  · obtain ⟨row, row', hrow, hrow', -⟩ := h.ledger.tables.rows m n hmn
    exact .inr ⟨m, n, row.1, row'.1, hm, hn, hrow.1, hrow'.1⟩

/-! ### Changes -/

/-- Both ledgers go on, and what has become of the transfers that have labels still has their
    journals. -/
theorem withLedger {l l' : Ledger} (hl : l.Alike (SameAlias r.accounts r'.accounts) l')
    (hf : r.ledger.tables.Follows l.tables) (hf' : r'.ledger.tables.Follows l'.tables) :
    Alike { r with ledger := l } { r' with ledger := l' } :=
  { h with
    labels := fun label => optionRel_imp (fun _ _ hx => hx.follows hf hf') (h.labels label)
    ledger := hl }

theorem remember {x x' : TransferId}
    (hx : r.ledger.tables.SameTransfer r'.ledger.tables x x') (label : String) :
    (r.remember label x).Alike (r'.remember label x') := by
  unfold Replay.remember
  split
  · exact h
  · refine { h with labels := fun label' => ?_ }
    dsimp only
    rw [Table.get?_put, Table.get?_put]
    split
    · exact .some hx
    · exact h.labels label'

/-- The account that gets an alias on either side is new there. -/
theorem withAccount (entity : String) (hentity : r.accounts.has entity = false)
    {m n : AccountNumber} {l l' : Ledger}
    (hm : r.ledger.tables.account? m = none) (hn : r'.ledger.tables.account? n = none)
    (hl : ∀ ρ : AccountNumber → AccountNumber → Prop,
      (∀ x y, ρ x y ↔ SameAlias r.accounts r'.accounts x y ∨ x = m ∧ y = n) → l.Alike ρ l')
    (hf : r.ledger.tables.Follows l.tables) (hf' : r'.ledger.tables.Follows l'.tables) :
    Alike ⟨l, r.accounts.put entity m, r.transfers⟩ ⟨l', r'.accounts.put entity n, r'.transfers⟩
    where
  named name := by
    unfold Table.has
    rw [Table.get?_put, Table.get?_put]
    split
    · rfl
    · exact h.named name
  oneToOne := h.oneToOne.put fun name hname => by
    rcases h.alias_cases name with ⟨hnone, -⟩ | ⟨x, -, a, -, hx, -, ha, -⟩
    · rw [hnone] at hname; cases hname
    · rw [hx] at hname
      cases hname
      rw [hm] at ha; cases ha
  oneToOne' := h.oneToOne'.put fun name hname => by
    rcases h.alias_cases name with ⟨-, hnone⟩ | ⟨-, x, -, a, -, hx, -, ha⟩
    · rw [hnone] at hname; cases hname
    · rw [hx] at hname
      cases hname
      rw [hn] at ha; cases ha
  labels label := optionRel_imp (fun _ _ hx => hx.follows hf hf') (h.labels label)
  ledger := hl _ fun x y => sameAlias_put_iff (by simpa [Table.has] using hentity) x y

end Alike

/-! ## Commands -/

/-- Both have been carried out and lead to replays that are alike, or both have failed. -/
inductive Together : Outcome Unit → Outcome Unit → Prop
  | ok {s s' : Replay} (h : s.Alike s') : Together (.ok (), s) (.ok (), s')
  | error (e e' : Failure ReplayError) (s s' : Replay) : Together (.error e, s) (.error e', s')

variable {limits : DefaultLimits} {r r' : Replay} {α β : Type}

theorem given_together {S : α → β → Prop} {found : Except ReplayError α}
    {found' : Except ReplayError β} {next : α → Outcome Unit} {next' : β → Outcome Unit}
    (h : Concur S found found') (hn : ∀ a b, S a b → Together (next a) (next' b)) :
    Together (r.given found next) (r'.given found' next') := by
  cases h with
  | ok hab => exact hn _ _ hab
  | error e e' => exact .error _ _ r r'

theorem operate_together {R : α → Ledger → β → Ledger → Prop} {p : Program α} {p' : Program β}
    {next : α → Replay → Outcome Unit} {next' : β → Replay → Outcome Unit}
    (h : RunsAlike R (r.ledger.run p) (r'.ledger.run p'))
    (hn : ∀ a l b m, r.ledger.run p = (.ok a, l) → r'.ledger.run p' = (.ok b, m) → R a l b m →
      Together (next a { r with ledger := l }) (next' b { r' with ledger := m })) :
    Together (r.operate p next) (r'.operate p' next') := by
  unfold operate
  revert hn h
  generalize r.ledger.run p = outcome
  generalize r'.ledger.run p' = outcome'
  rintro (hab | ⟨e, f, l, m⟩) hn
  · exact hn _ _ _ _ rfl rfl hab
  · exact .error _ _ _ _

theorem Ready.follows (h : r.Ready limits) (op : CreditCircle.Operation)
    {result : Except (Failure LedgerError) op.Result} {l : Ledger}
    (hrun : r.ledger.run (op.program limits) = (result, l)) :
    r.ledger.tables.Follows l.tables := by
  have hf := h.reachable.follows_next (.operate op)
  rw [Ledger.next, hrun] at hf
  exact hf

theorem Ready.after (h : r.Ready limits) (op : CreditCircle.Operation)
    {result : Except (Failure LedgerError) op.Result} {l : Ledger}
    (hrun : r.ledger.run (op.program limits) = (result, l)) :
    l.Reachable limits ∧ l.store.armed = [] := by
  have hready := h.run op
  rw [hrun] at hready
  exact ⟨hready.reachable, hready.unarmed⟩

namespace Alike

variable (h : r.Alike r') (hr : r.Ready limits) (hr' : r'.Ready limits)
include h hr hr'

theorem changeLimits {m n : AccountNumber} (hmn : SameAlias r.accounts r'.accounts m n)
    (maxPos maxNeg : Option Decimal) (now now' : Timestamp) :
    Together (r.changeLimits m maxPos maxNeg now) (r'.changeLimits n maxPos maxNeg now') := by
  refine given_together ((h.limitFor hmn).mapError _ _) ?_
  rintro current current' ⟨hpos, hneg⟩
  rw [hpos, hneg]
  refine operate_together ((h.twins hr hr').updateLimits hmn _ _ now now') ?_
  intro _ l _ l' hrun hrun' hl
  exact .ok (h.withLedger hl (hr.follows (.updateLimits ..) hrun)
    (hr'.follows (.updateLimits ..) hrun'))

theorem openEntity {chance chance' : Chance} (entity : String) (maxPos maxNeg : Option Decimal)
    (hfree : r.ledger.tables.Free (Command.draws chance (.open entity maxPos maxNeg)))
    (hfree' : r'.ledger.tables.Free (Command.draws chance' (.open entity maxPos maxNeg))) :
    Together (openEntity (.open limits) r chance entity maxPos maxNeg)
      (openEntity (.open limits) r' chance' entity maxPos maxNeg) := by
  unfold Replay.openEntity
  rw [h.named entity]
  split
  · exact .error _ _ _ _
  rename_i hentity
  split
  · exact .error _ _ _ _
  obtain ⟨hn, he⟩ := Command.opens_of_free hfree
  obtain ⟨hn', he'⟩ := Command.opens_of_free hfree'
  refine operate_together ((h.twins hr hr').openAccount hn he hn' he') ?_
  intro a l b l' hrun hrun' hl
  have hnamed := h.withAccount entity
    ((h.named entity).trans (Bool.eq_false_iff.2 hentity))
    (hr.reachable.opens_of_run hrun).number_new (hr'.reachable.opens_of_run hrun').number_new hl
    (hr.follows (.openAccount ..) hrun) (hr'.follows (.openAccount ..) hrun')
  obtain ⟨hreach, hunarmed⟩ := hr.after (.openAccount ..) hrun
  obtain ⟨hreach', hunarmed'⟩ := hr'.after (.openAccount ..) hrun'
  dsimp only
  split
  · exact hnamed.changeLimits ⟨hreach, hunarmed⟩ ⟨hreach', hunarmed'⟩
      ⟨entity, Table.get?_put_self _ _ _, Table.get?_put_self _ _ _⟩ _ _ _ _
  · exact .ok hnamed

/-- A transfer that has been recorded on either side gets a label. -/
theorem recorded (op op' : CreditCircle.Operation) {label : String}
    {result : Except (Failure LedgerError) op.Result}
    {result' : Except (Failure LedgerError) op'.Result} {j k : Journal} {l l' : Ledger}
    (hrun : r.ledger.run (op.program limits) = (result, l))
    (hrun' : r'.ledger.run (op'.program limits) = (result', l'))
    (hjk : Ledger.Recorded (SameAlias r.accounts r'.accounts) j l k l') :
    Together (Replay.remember { r with ledger := l } label j.transfer).finished
      (Replay.remember { r' with ledger := l' } label k.transfer).finished :=
  .ok ((h.withLedger hjk.ledger (hr.follows op hrun) (hr'.follows op' hrun')).remember
    hjk.transfer label)

/-- A transfer that had been recorded on either side has ended. -/
theorem concluded (op op' : CreditCircle.Operation)
    {result : Except (Failure LedgerError) op.Result}
    {result' : Except (Failure LedgerError) op'.Result} {j k : Journal} {l l' : Ledger}
    (hrun : r.ledger.run (op.program limits) = (result, l))
    (hrun' : r'.ledger.run (op'.program limits) = (result', l'))
    (hjk : Ledger.Recorded (SameAlias r.accounts r'.accounts) j l k l') :
    Together (Replay.finished { r with ledger := l }) (Replay.finished { r' with ledger := l' }) :=
  .ok (h.withLedger hjk.ledger (hr.follows op hrun) (hr'.follows op' hrun'))

/-- A command is carried out on both or on neither, if what it draws is free on either side. -/
theorem apply {chance chance' : Chance} (command : Command)
    (hfree : r.ledger.tables.Free (command.draws chance))
    (hfree' : r'.ledger.tables.Free (command.draws chance')) :
    Together (r.apply (.open limits) chance command) (r'.apply (.open limits) chance' command) := by
  have htwins := h.twins hr hr'
  cases command with
  | «open» entity maxPos maxNeg => exact h.openEntity hr hr' entity maxPos maxNeg hfree hfree'
  | limits entity maxPos maxNeg =>
    exact given_together (h.account entity) fun m n hmn => h.changeLimits hr hr' hmn ..
  | propose label sender receiver amount initiator description =>
    refine given_together (h.requestFor ..) fun request request' hrequest => ?_
    refine operate_together (htwins.propose (hrequest.withDescription description)
      (Command.proposes_of_free hfree) (Command.proposes_of_free hfree')) ?_
    intro j l k l' hrun hrun' hjk
    exact h.recorded hr hr' (.propose ..) (.propose ..) hrun hrun' hjk
  | transfer label sender receiver amount description =>
    refine given_together (h.requestFor ..) fun request request' hrequest => ?_
    refine operate_together (htwins.transferNow (hrequest.withDescription description)
      (Command.proposes_of_free hfree) (Command.proposes_of_free hfree')) ?_
    intro j l k l' hrun hrun' hjk
    exact h.recorded hr hr' (.transferNow ..) (.transferNow ..) hrun hrun' hjk
  | accept label =>
    refine given_together (h.transfer label) fun x x' hx => ?_
    refine operate_together (htwins.accept hx chance.clock chance'.clock) ?_
    intro j l k l' hrun hrun' hjk
    exact h.concluded hr hr' (.accept ..) (.accept ..) hrun hrun' hjk
  | reject label reason =>
    refine given_together (h.transfer label) fun x x' hx => ?_
    refine operate_together (htwins.close hx reason .reject .counterparty _ _) ?_
    intro j l k l' hrun hrun' hjk
    exact h.concluded hr hr' (.reject ..) (.reject ..) hrun hrun' hjk
  | cancel label reason =>
    refine given_together (h.transfer label) fun x x' hx => ?_
    refine operate_together (htwins.close hx reason .cancel .initiator _ _) ?_
    intro j l k l' hrun hrun' hjk
    exact h.concluded hr hr' (.cancel ..) (.cancel ..) hrun hrun' hjk

end Alike
end Replay
end CreditCircle.Script

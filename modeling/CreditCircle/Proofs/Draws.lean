/-
  What a script draws at random.

  * `Command.draws`, `Replay.draws`: the account numbers and identifiers that a command, or a
    script, draws.
  * `Tables.Free`: none of some keys is taken.
  * `Change.takes`, `apply_takesOnly`: whatever is taken after an operation, or after a command,
    was taken before or has been drawn by it.
  * `ReadyFor.next`: so what no row before has drawn is still free when a row draws it.
-/
import CreditCircle.Proofs.CommandFailures
import CreditCircle.Proofs.Lifecycle

namespace CreditCircle

/-! ## Keys that are taken -/

/-- The key is drawn at random.  Limits are the only rows whose key is that of another row. -/
def UniqueKey.Drawn (key : UniqueKey) : Prop := ∀ n, key ≠ .limit n

/-- None of the keys is taken. -/
def Tables.Free (t : Tables) (keys : List UniqueKey) : Prop := ∀ key ∈ keys, ¬ t.Takes key

section
variable {limits : DefaultLimits} {l l' : Ledger} {key : UniqueKey}

theorem Opens.takes {entity : EntityId} {chance : Chance} {a : Account}
    (h : Opens limits entity chance l a l') (hk : key.Drawn) (ht : l'.tables.Takes key) :
    l.tables.Takes key ∨ key = .number a.number ∨ key = .entity entity := by
  obtain ⟨now, -, htables⟩ := h.tables
  rw [htables] at ht
  cases key with
  | number n =>
    rw [Tables.Takes, Tables.account?_withAccount] at ht
    split at ht
    · subst n; exact .inr (.inl rfl)
    · exact .inl ht
  | entity e =>
    change ((l.tables.entityAccounts.put a.entity a.number).get? e).isSome at ht
    rw [Table.get?_put, h.owner] at ht
    split at ht
    · subst e; exact .inr (.inr rfl)
    · exact .inl ht
  | limit n => exact absurd rfl (hk n)
  | transfer x => exact .inl ht

theorem Books.takes {j : Journal} {t : Tables} (h : Books l l' j t) (hk : key.Drawn)
    (ht : t.Takes key) : l.tables.Takes key := by
  obtain ⟨parties, -, -⟩ := h
  cases key with
  | number n =>
    rw [Tables.Takes, Tables.account?_withLegs] at ht
    rw [Tables.Takes]
    split at ht
    · subst n; rw [parties.payee_row]; rfl
    split at ht
    · subst n; rw [parties.payer_row]; rfl
    · exact ht
  | entity e => exact ht
  | limit n => exact absurd rfl (hk n)
  | transfer x => exact ht

/-- A journal that is written takes its transfer, and nothing else. -/
theorem Tables.takes_withJournal {t : Tables} {j : Journal} (ht : (t.withJournal j).Takes key) :
    t.Takes key ∨ key = .transfer j.transfer := by
  cases key with
  | number n | entity e | limit n => exact .inl ht
  | transfer x =>
    rw [Tables.Takes, Tables.journal?_withJournal] at ht
    split at ht
    · subst x; exact .inr rfl
    · exact .inl ht

/-- An operation that opens no account takes nothing but the transfer that it has drawn. -/
theorem Change.takes {op : Operation} (h : Change limits l l' op) (hw : l.tables.WellFormed)
    (hop : ∀ entity chance, op ≠ .openAccount entity chance) (hk : key.Drawn)
    (ht : l'.tables.Takes key) :
    l.tables.Takes key ∨ ∃ x, op.drawn = some x ∧ key = .transfer x := by
  have hfound : ∀ {x : TransferId} {j j' : Journal}, l.tables.journal? x = some j →
      j'.transfer = j.transfer → l.tables.Takes (.transfer j'.transfer) := by
    intro x j j' hj hx
    rw [Tables.Takes, hx, hw.found hj]
    rfl
  cases h with
  | opens => exact absurd rfl (hop _ _)
  | relimits h =>
    rw [h.tables] at ht
    cases key with
    | number n | entity e | transfer x => exact .inl ht
    | limit n => exact absurd rfl (hk n)
  | @proposes _ request chance j h =>
    have hx : j.transfer = chance.transfer := by rw [h.draft]; rfl
    rw [h.tables] at ht
    exact (Tables.takes_withJournal ht).imp_right fun he => ⟨_, rfl, hx ▸ he⟩
  | completes h =>
    obtain ⟨t, hb, htables⟩ := h.tables
    rw [htables] at ht
    rcases Tables.takes_withJournal ht with ht | rfl
    · exact .inl (hb.takes hk ht)
    · exact .inl (hfound h.found rfl)
  | closes hop' h =>
    rw [h.tables] at ht
    rcases Tables.takes_withJournal ht with ht | rfl
    · exact .inl ht
    · exact .inl (hfound h.found rfl)
  | @transfers _ request chance j h =>
    have hx : j.transfer = chance.transfer := by rw [h.draft]; rfl
    obtain ⟨t, hb, htables⟩ := h.tables
    rw [htables] at ht
    rcases Tables.takes_withJournal ht with ht | he
    · exact .inl (hb.takes hk ht)
    · exact .inr ⟨_, rfl, hx ▸ he⟩

namespace Ledger.Reachable

theorem takes_run (h : l.Reachable limits) (op : Operation)
    (hop : ∀ entity chance, op ≠ .openAccount entity chance) (hk : key.Drawn)
    (ht : (l.run (op.program limits)).2.tables.Takes key) :
    l.tables.Takes key ∨ ∃ x, op.drawn = some x ∧ key = .transfer x := by
  rcases h.atRest.run_cases limits op with ⟨-, hc⟩ | ⟨-, hs⟩
  · exact hc.takes h.atRest.wellFormed hop hk ht
  · exact .inl (hs.tables ▸ ht)

/-- Nobody else has the first number that is drawn, so it is the number of the new account. -/
theorem run_openAccount_first (h : l.Reachable limits) (ha : l.store.armed = []) {entity : EntityId}
    {chance : Chance} (hn : l.tables.account? (.generate (chance.numbers 0)) = none)
    (he : l.tables.entityAccounts.get? entity = none) :
    ∃ a l', l.run (Program.openAccount limits entity chance) = (.ok a, l') ∧
      a.number = .generate (chance.numbers 0) ∧ Opens limits entity chance l a l' := by
  have howned := h.withinLimits.isSome_account
  have hrun : ∃ a l', l.run (Program.openAccount limits entity chance) = (.ok a, l') ∧
      a.number = .generate (chance.numbers 0) := by
    obtain ⟨t, s, es, rfl⟩ := h.eq_calm ha
    change ∀ n, (t.limit? n).isSome → (t.account? n).isSome at howned
    have hfirst : t.drawn entity chance (numberAttempts - 1) 0 = .ok 0 := Tables.drawn_of_new hn he _
    rw [Program.run_openAccount limits howned, hfirst]
    exact ⟨_, _, rfl, rfl⟩
  obtain ⟨a, l', hrun, hnumber⟩ := hrun
  exact ⟨a, l', hrun, hnumber, h.opens_of_run hrun⟩

end Ledger.Reachable
end

/-! ## Commands -/

namespace Script

/-- What a command draws at random.  Another account number is only drawn if somebody has the first
    one already. -/
def Command.draws (chance : Chance) : Command → List UniqueKey
  | .open .. => [.number (.generate (chance.numbers 0)), .entity chance.entity]
  | .propose .. | .transfer .. => [.transfer chance.transfer]
  | .limits .. | .accept _ | .reject .. | .cancel .. => []

theorem Command.drawn_of_mem_draws {command : Command} {chance : Chance} {key : UniqueKey}
    (h : key ∈ command.draws chance) : key.Drawn := by
  rintro n rfl
  cases command <;> simp [draws] at h

theorem Command.opens_of_free {t : Tables} {chance : Chance} {entity : String}
    {maxPos maxNeg : Option Decimal}
    (h : t.Free (Command.draws chance (.open entity maxPos maxNeg))) :
    t.account? (.generate (chance.numbers 0)) = none ∧
      t.entityAccounts.get? chance.entity = none :=
  ⟨Option.not_isSome_iff_eq_none.1 (h (.number _) (.head _)),
    Option.not_isSome_iff_eq_none.1 (h (.entity _) (.tail _ (.head _)))⟩

theorem Command.proposes_of_free {t : Tables} {x : TransferId} (h : t.Free [.transfer x]) :
    t.journal? x = none :=
  Option.not_isSome_iff_eq_none.1 (h (.transfer x) (.head _))

namespace Replay

/-- Whatever has been taken after something begun on `r` was taken before, or it is among these
    keys. -/
def TakesOnly {α : Type} (r : Replay) (keys : List UniqueKey) (outcome : Outcome α) : Prop :=
  ∀ key : UniqueKey, key.Drawn → outcome.2.ledger.tables.Takes key →
    r.ledger.tables.Takes key ∨ key ∈ keys

variable {limits : DefaultLimits} {r : Replay} {keys : List UniqueKey} {α β : Type}

theorem takesOnly_kept (result : Except (Failure ReplayError) α) : r.TakesOnly keys (result, r) :=
  fun _ _ ht => .inl ht

theorem finished_takesOnly (r : Replay) : r.TakesOnly [] r.finished := takesOnly_kept _

theorem remember_takesOnly (r : Replay) (label : String) (x : TransferId) :
    r.TakesOnly [] (r.remember label x).finished := by
  unfold remember
  split
  · exact finished_takesOnly r
  · exact fun _ _ ht => .inl ht

theorem given_takesOnly {found : Except ReplayError α} {next : α → Outcome β}
    (hn : ∀ a, r.TakesOnly keys (next a)) : r.TakesOnly keys (r.given found next) := by
  cases found with
  | ok a => exact hn a
  | error e => exact takesOnly_kept _

theorem operate_takesOnly {p : Program α} {next : α → Replay → Outcome β}
    (hp : ∀ key : UniqueKey, key.Drawn → (r.ledger.run p).2.tables.Takes key →
      r.ledger.tables.Takes key ∨ key ∈ keys)
    (hn : ∀ a (s : Replay), s.ledger = (r.ledger.run p).2 → s.TakesOnly [] (next a s)) :
    r.TakesOnly keys (r.operate p next) := by
  intro key hk ht
  refine hp key hk ?_
  unfold operate at ht
  rw [← Prod.eta (r.ledger.run p)] at ht
  cases hresult : (r.ledger.run p).1 with
  | ok a =>
    rw [hresult] at ht
    exact (hn a _ rfl key hk ht).resolve_right List.not_mem_nil
  | error f =>
    rw [hresult] at ht
    exact ht

theorem changeLimits_takesOnly (h : r.ledger.Reachable limits) (number : AccountNumber)
    (maxPos maxNeg : Option Decimal) (now : Timestamp) :
    r.TakesOnly [] (r.changeLimits number maxPos maxNeg now) :=
  given_takesOnly fun current => operate_takesOnly
    (fun _ hk ht => .inl ((h.takes_run (.updateLimits number (maxPos.getD current.maxPos)
      (maxNeg.getD current.maxNeg) now) nofun hk ht).resolve_right nofun))
    fun _ _ _ => finished_takesOnly _

theorem openEntity_takesOnly (h : r.Ready limits) (eligible : AccountNumber → Bool)
    (chance : Chance) (entity : String) (maxPos maxNeg : Option Decimal)
    (hfree : r.ledger.tables.Free (Command.draws chance (.open entity maxPos maxNeg))) :
    r.TakesOnly (Command.draws chance (.open entity maxPos maxNeg))
      (openEntity ⟨limits, eligible⟩ r chance entity maxPos maxNeg) := by
  obtain ⟨hn, he⟩ := Command.opens_of_free hfree
  obtain ⟨a, l', hrun, hnumber, hopens⟩ := h.reachable.run_openAccount_first h.unarmed hn he
  have hready := h.run (.openAccount chance.entity chance)
  unfold openEntity
  split
  · exact takesOnly_kept _
  split
  · exact takesOnly_kept _
  refine operate_takesOnly (fun key hk ht => ?_) fun account s hs => ?_
  · rw [hrun] at ht
    refine (hopens.takes hk ht).imp_right fun hkey => ?_
    rw [hnumber] at hkey
    simpa [Command.draws] using hkey
  · have hnamed : Ledger.Reachable limits
        { s with accounts := s.accounts.put entity account.number : Replay }.ledger := by
      show s.ledger.Reachable limits
      rw [hs]
      exact hready.reachable
    dsimp only
    split
    · exact changeLimits_takesOnly hnamed _ _ _ _
    · exact finished_takesOnly _

/-- Whatever is taken after a command was taken before, or the command has drawn it. -/
theorem apply_takesOnly (h : r.Ready limits) (eligible : AccountNumber → Bool) (chance : Chance)
    (command : Command) (hfree : r.ledger.tables.Free (command.draws chance)) :
    r.TakesOnly (command.draws chance) (r.apply ⟨limits, eligible⟩ chance command) := by
  have hnew : ∀ op : CreditCircle.Operation, op.drawn = some chance.transfer →
      ∀ key : UniqueKey, key.Drawn → (r.ledger.run (op.program limits)).2.tables.Takes key →
        r.ledger.tables.Takes key ∨ key ∈ [.transfer chance.transfer] := by
    intro op hop key hk ht
    refine (h.reachable.takes_run op (fun _ _ he => ?_) hk ht).imp_right ?_
    · rw [he] at hop; cases hop
    · rintro ⟨x, hx, rfl⟩
      cases hop.symm.trans hx
      exact .head _
  have hold : ∀ op : CreditCircle.Operation, op.drawn = none →
      (∀ entity chance, op ≠ .openAccount entity chance) →
      ∀ key : UniqueKey, key.Drawn → (r.ledger.run (op.program limits)).2.tables.Takes key →
        r.ledger.tables.Takes key ∨ key ∈ [] := by
    intro op hop hne key hk ht
    refine .inl ((h.reachable.takes_run op hne hk ht).resolve_right ?_)
    rintro ⟨x, hx, -⟩
    cases hop.symm.trans hx
  cases command with
  | «open» => exact openEntity_takesOnly h eligible chance _ _ _ hfree
  | limits => exact given_takesOnly fun _ => changeLimits_takesOnly h.reachable _ _ _ _
  | propose label =>
    exact given_takesOnly fun request => operate_takesOnly (hnew (.propose ..) rfl)
      fun _ _ _ => remember_takesOnly _ label _
  | transfer label =>
    exact given_takesOnly fun request => operate_takesOnly (hnew (.transferNow ..) rfl)
      fun _ _ _ => remember_takesOnly _ label _
  | accept =>
    exact given_takesOnly fun _ => operate_takesOnly (hold (.accept ..) rfl nofun)
      fun _ _ _ => finished_takesOnly _
  | reject =>
    exact given_takesOnly fun _ => operate_takesOnly (hold (.reject ..) rfl nofun)
      fun _ _ _ => finished_takesOnly _
  | cancel =>
    exact given_takesOnly fun _ => operate_takesOnly (hold (.cancel ..) rfl nofun)
      fun _ _ _ => finished_takesOnly _

/-! ## Scripts -/

/-- What a row draws at random, if it gets as far as that. -/
def rowDraws (columns : List (Option Column)) (chance : Chance) (row : Csv.Row) : List UniqueKey :=
  match commandOf columns row with
  | .ok command => command.draws chance
  | .error _ => []

/-- What some rows draw, of which the first has the number `index`. -/
def rowsDraws (columns : List (Option Column)) (chances : Nat → Chance) :
    (index : Nat) → List Csv.Row → List UniqueKey
  | _, [] => []
  | index, row :: rows =>
    rowDraws columns (chances index) row ++ rowsDraws columns chances (index + 1) rows

/-- What the rows of a script draw at random, those that are skipped included. -/
def draws (chances : Nat → Chance) (script : List UInt8) : List UniqueKey :=
  match columnsOf (Csv.records script) with
  | .ok columns => rowsDraws columns chances 0 (Csv.records script).tail
  | .error _ => []

variable {columns : List (Option Column)} {chances : Nat → Chance}

theorem drawn_of_mem_rowsDraws {rows : List Csv.Row} {index : Nat} {key : UniqueKey}
    (h : key ∈ rowsDraws columns chances index rows) : key.Drawn := by
  induction rows generalizing index with
  | nil => cases h
  | cons row rows ih =>
    rcases List.mem_append.1 h with h | h
    · unfold rowDraws at h
      split at h
      · exact Command.drawn_of_mem_draws h
      · cases h
    · exact ih h

/-- The replay is ready for some rows: they draw nothing twice, and nothing that is taken. -/
structure ReadyFor (limits : DefaultLimits) (columns : List (Option Column))
    (chances : Nat → Chance) (index : Nat) (rows : List Csv.Row) (r : Replay) : Prop
    extends r.Ready limits where
  free : r.ledger.tables.Free (rowsDraws columns chances index rows)
  distinct : (rowsDraws columns chances index rows).Nodup

theorem ReadyFor.start_empty {rows : List Csv.Row}
    (h : (rowsDraws columns chances 0 rows).Nodup) :
    (start .empty).ReadyFor limits columns chances 0 rows where
  toReady := .start_empty
  free key _ ht := by cases key <;> cases ht
  distinct := h

namespace ReadyFor

variable {index : Nat} {row : Csv.Row} {rows : List Csv.Row}
  (h : r.ReadyFor limits columns chances index (row :: rows))
include h

theorem free_row : r.ledger.tables.Free (rowDraws columns (chances index) row) :=
  fun key hkey => h.free key (List.mem_append_left _ hkey)

/-- What no row before has drawn is still free after a row that does not draw it either. -/
theorem next : (applyRow (.open limits) columns r (chances index) row).2.ReadyFor limits columns
    chances (index + 1) rows := by
  have honly : r.TakesOnly (rowDraws columns (chances index) row)
      (applyRow (.open limits) columns r (chances index) row) := by
    have hrow := h.free_row
    unfold rowDraws at hrow ⊢
    unfold applyRow
    cases hc : commandOf columns row with
    | ok command =>
      rw [hc] at hrow
      exact apply_takesOnly h.toReady (fun _ => true) _ command hrow
    | error e => exact takesOnly_kept _
  have hready : (applyRow (.open limits) columns r (chances index) row).2.Ready limits := by
    have hatomic : Atomic limits r (applyRow (.open limits) columns r (chances index) row) :=
      applyRow_atomic h.toReady (fun _ => true) ..
    rcases hatomic with ⟨_, r', hrow, hr'⟩ | ⟨e, hrow⟩
    · rw [hrow]; exact hr'
    · rw [hrow]; exact h.toReady
  refine ⟨hready, fun key hkey ht => ?_, h.distinct.of_append_right⟩
  rcases honly key (drawn_of_mem_rowsDraws hkey) ht with hold | hnew
  · exact h.free key (List.mem_append_right _ hkey) hold
  · exact List.disjoint_of_nodup_append h.distinct hnew hkey

end ReadyFor
end Replay
end Script
end CreditCircle

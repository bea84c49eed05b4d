/-
  Aliases and labels.

  * `pairwise_aliases`, `aliases_perm`: the report goes through the aliases in order, each once.
  * `given_ends`, `operate_ends`, `process_ends`: what all replays have that something leads to.
  * `Replay.Mirrors`: the aliases are those of the accounts of the ledger, one for each, and the
    labels are those of journals.
  * `Replay.Onward`: a later replay that mirrors its ledger and has all names of the earlier one.
  * `Replay.after`: a replay after scripts and single commands in any order.
  * `after_mirrors`: so the names always mirror the ledger, and the report lists every account.
-/
import CreditCircle.Proofs.Draws
import CreditCircle.Script.Report

namespace CreditCircle

/-! ## Accounts and journals of the ledger -/

section
variable {limits : DefaultLimits} {l l' : Ledger}

theorem Ledger.found_eq_ok_iff {α : Type} {e : LedgerError} {row : Option α} {a : α} :
    found e row = .ok a ↔ row = some a := by
  cases row <;> simp [found]

theorem Books.exists_account {j : Journal} {t : Tables} (h : Books l l' j t) {n : AccountNumber}
    (hn : ∃ a, l.tables.account? n = some a) : ∃ a, t.account? n = some a := by
  obtain ⟨-, -, -⟩ := h
  exact Tables.exists_account_withLegs _ _ _ _ _ _ hn

/-- No operation closes an account. -/
theorem Change.exists_account {op : Operation} (h : Change limits l l' op) {n : AccountNumber}
    (hn : ∃ a, l.tables.account? n = some a) : ∃ a, l'.tables.account? n = some a := by
  cases h with
  | opens h =>
    obtain ⟨now, -, ht⟩ := h.tables
    rw [ht]; exact Tables.exists_account_withAccount _ _ _ hn
  | relimits h => rw [h.tables]; exact hn
  | proposes h => rw [h.tables]; exact hn
  | completes h =>
    obtain ⟨t, hb, ht⟩ := h.tables
    rw [ht]
    show ∃ a, t.account? n = some a
    exact hb.exists_account hn
  | closes hop h => rw [h.tables]; exact hn
  | transfers h =>
    obtain ⟨t, hb, ht⟩ := h.tables
    rw [ht]
    show ∃ a, t.account? n = some a
    exact hb.exists_account hn

namespace Ledger.Reachable

theorem exists_account_run (h : l.Reachable limits) (op : Operation) {n : AccountNumber}
    (hn : ∃ a, l.tables.account? n = some a) :
    ∃ a, (l.run (op.program limits)).2.tables.account? n = some a := by
  rcases h.atRest.run_cases limits op with ⟨-, hc⟩ | ⟨-, hs⟩
  · exact hc.exists_account hn
  · rw [hs.tables]; exact hn

variable (h : l.Reachable limits) {eligible : AccountNumber → Bool} {request : TransferRequest}
  {chance : Chance} {j : Journal}
include h

/-- The journal that a proposal gives back is a new one. -/
theorem new_of_propose
    (hrun : l.run (Program.propose ⟨limits, eligible⟩ request chance) = (.ok j, l')) :
    l.tables.journal? j.transfer = none ∧ l'.tables.journal? j.transfer = some j := by
  rcases Program.run_of_attempts (@Program.propose_attempts l ⟨limits, eligible⟩ request chance
    h.atRest.held) with ⟨k, m, hrun', hk⟩ | ⟨e, m, hrun', -⟩
  · cases hrun'.symm.trans hrun
    refine ⟨hk.new, ?_⟩
    rw [hk.tables, Tables.journal?_withNewJournal, if_pos rfl]
  · cases hrun'.symm.trans hrun

/-- So is the journal that an immediate transfer gives back. -/
theorem new_of_transferNow
    (hrun : l.run (Program.transferNow ⟨limits, eligible⟩ request chance) = (.ok j, l')) :
    l.tables.journal? j.transfer = none ∧ l'.tables.journal? j.transfer = some j := by
  rcases Program.run_of_attempts (@Program.transferNow_attempts l ⟨limits, eligible⟩ request chance
    h.atRest.held) with ⟨k, m, hrun', i, rfl, hi⟩ | ⟨e, m, hrun', -⟩
  · cases hrun'.symm.trans hrun
    refine ⟨hi.new, ?_⟩
    exact (hi.journal? _).trans (if_pos rfl)
  · cases hrun'.symm.trans hrun

end Ledger.Reachable
end

namespace Script.Replay

variable {limits : DefaultLimits} {r r' r'' : Replay} {α β : Type}

/-! ## The order of the report -/

/-- The report goes through the aliases in order. -/
theorem pairwise_aliases (r : Replay) : (r.aliases.map Prod.fst).Pairwise (· ≤ ·) := by
  refine List.pairwise_map.2
    ((List.pairwise_mergeSort ?_ ?_ _).imp fun hle => of_decide_eq_true hle)
  · intro a b c hab hbc
    exact decide_eq_true (String.le_trans (of_decide_eq_true hab) (of_decide_eq_true hbc))
  · intro a b
    rcases String.le_total a.1 b.1 with hle | hle
    · rw [decide_eq_true hle, Bool.true_or]
    · rw [decide_eq_true hle, Bool.or_true]

theorem aliases_perm (r : Replay) : r.aliases.Perm r.accounts.entries := List.mergeSort_perm ..

theorem get?_of_mem_aliases {e : String × AccountNumber} (he : e ∈ r.aliases) :
    r.accounts.get? e.1 = some e.2 :=
  (r.accounts.mem_entries_iff e.1 e.2).1 (r.aliases_perm.mem_iff.1 he)

theorem mem_map_aliases {name : String} :
    name ∈ r.aliases.map Prod.fst ↔ ∃ n, r.accounts.get? name = some n := by
  rw [List.mem_map]
  constructor
  · rintro ⟨e, he, rfl⟩
    exact ⟨e.2, get?_of_mem_aliases he⟩
  · rintro ⟨n, hn⟩
    exact ⟨(name, n), r.aliases_perm.mem_iff.2 ((r.accounts.mem_entries_iff name n).2 hn), rfl⟩

/-! ## Where something leads to -/

section
variable {P : Replay → Prop}

/-- Nothing is lost where something is looked up. -/
theorem given_ends {found : Except ReplayError α} {next : α → Outcome β} (hr : P r)
    (hn : ∀ a, found = .ok a → P (next a).2) : P (r.given found next).2 := by
  cases found with
  | ok a => exact hn a rfl
  | error e => exact hr

/-- An operation that fails has changed nothing. -/
theorem operate_ends (h : r.Ready limits) (op : CreditCircle.Operation)
    {next : op.Result → Replay → Outcome β} (hr : P r)
    (hn : ∀ a l', r.ledger.run (op.program limits) = (.ok a, l') →
      P (next a { r with ledger := l' }).2) :
    P (r.operate (op.program limits) next).2 := by
  have hkept := h.reachable.eq_of_failed h.unarmed op
  unfold operate
  cases hrun : r.ledger.run (op.program limits) with
  | mk result l' =>
    cases result with
    | ok a => exact hn a l' hrun
    | error f =>
      rw [hrun] at hkept
      obtain rfl : l' = r.ledger := hkept _ rfl
      exact hr

variable {rules : Rules} {columns : List (Option Column)} {chances : Nat → Chance}

theorem applyRows_ends (hstep : ∀ row command, commandOf columns row = .ok command →
      ∀ r chance, P r → P (r.apply rules chance command).2) (rows : List Csv.Row) :
    ∀ (index : Nat) (summary : Summary) {r : Replay}, P r →
      P (applyRows rules columns chances index summary r rows).2 := by
  induction rows with
  | nil => exact fun _ _ _ h => h
  | cons row rows ih =>
    intro index summary r h
    have hrow : P (applyRow rules columns r (chances index) row).2 :=
      given_ends h fun command hcommand => hstep row command hcommand r _ h
    unfold applyRows
    split
    · rename_i r' hr
      rw [hr] at hrow
      exact ih _ _ hrow
    · rename_i error r' hr
      rw [hr] at hrow
      exact ih _ _ hrow
    · rename_i failure r' _ hr
      rw [hr] at hrow
      exact hrow

/-- What every command that a row can say preserves, a script preserves. -/
theorem process_ends (hstep : ∀ columns row command, commandOf columns row = .ok command →
      ∀ r chance, P r → P (r.apply rules chance command).2)
    (hr : P r) (chances : Nat → Chance) (script : List UInt8) :
    P (r.process rules chances script).2 := by
  unfold process
  dsimp only
  split
  · exact hr
  · exact applyRows_ends (hstep _) _ 0 {} hr

end

/-! ## Names that mirror the ledger -/

/-- The aliases are those of the accounts, one for each, and the labels are those of journals, no
    two of them for the same one.  The empty text is no label. -/
structure Mirrors (r : Replay) : Prop where
  accounts : r.accounts.Injective
  account : ∀ name n, r.accounts.get? name = some n → ∃ a, r.ledger.tables.account? n = some a
  named : ∀ n, (∃ a, r.ledger.tables.account? n = some a) → ∃ name, r.accounts.get? name = some n
  transfers : r.transfers.Injective
  journal : ∀ label x, r.transfers.get? label = some x → ∃ j, r.ledger.tables.journal? x = some j
  unlabelled : r.transfers.get? "" = none

theorem Mirrors.start_empty : (start .empty).Mirrors where
  accounts _ _ _ h := nomatch h
  account _ _ h := nomatch h
  named _ h := by
    obtain ⟨a, ha⟩ := h
    cases ha
  transfers _ _ _ h := nomatch h
  journal _ _ h := nomatch h
  unlabelled := rfl

namespace Mirrors

variable (h : r.Mirrors)
include h

/-- An operation that opens no account leaves the names as they have to be. -/
theorem run (hr : r.Ready limits) (op : CreditCircle.Operation)
    (hop : ∀ entity chance, op ≠ .openAccount entity chance) :
    ({ r with ledger := (r.ledger.run (op.program limits)).2 } : Replay).Mirrors :=
  { h with
    account name n hn := hr.reachable.exists_account_run op (h.account name n hn)
    named n hn := by
      have hkey : (UniqueKey.number n).Drawn := nofun
      rcases hr.reachable.takes_run op hop hkey (Option.isSome_iff_exists.2 hn) with
        hold | ⟨x, -, hx⟩
      · exact h.named n (Option.isSome_iff_exists.1 hold)
      · cases hx
    journal label x hx := by
      obtain ⟨j, hj⟩ := h.journal label x hx
      obtain ⟨j', hj', -⟩ := hr.reachable.follows_next (.operate op) x j hj
      exact ⟨j', hj'⟩ }

/-- A new account gets an alias at once. -/
theorem opened {entity : EntityId} {chance : Chance} {a : Account} {l' : Ledger} {name : String}
    (ho : Opens limits entity chance r.ledger a l') (hf : r.ledger.tables.Follows l'.tables)
    (hn : r.accounts.get? name = none) :
    (⟨l', r.accounts.put name a.number, r.transfers⟩ : Replay).Mirrors := by
  obtain ⟨now, -, ht⟩ := ho.tables
  refine ⟨h.accounts.put fun name' hname' => ?_, fun name' n hname' => ?_, fun n hn' => ?_,
    h.transfers, fun label x hx => ?_, h.unlabelled⟩
  · -- The number of the new account has not been in use.
    obtain ⟨b, hb⟩ := h.account name' _ hname'
    rw [ho.number_new] at hb
    cases hb
  · rw [Table.get?_put] at hname'
    dsimp only
    rw [ht]
    split at hname'
    · cases hname'
      exact ⟨a, by rw [Tables.account?_withAccount, if_pos rfl]⟩
    · exact Tables.exists_account_withAccount _ _ _ (h.account name' n hname')
  · dsimp only at hn' ⊢
    rw [ht, Tables.account?_withAccount] at hn'
    split at hn'
    · exact ⟨name, by rw [Table.get?_put_self, ‹n = a.number›]⟩
    · obtain ⟨name', hname'⟩ := h.named n hn'
      exact ⟨name', Table.within_put hn _ _ _ hname'⟩
  · obtain ⟨j, hj⟩ := h.journal label x hx
    obtain ⟨j', hj', -⟩ := hf x j hj
    exact ⟨j', hj'⟩

/-- A transfer that is not known by a label yet gets one, unless that is empty. -/
theorem remember {label : String} {x : TransferId} (hx : ∃ j, r.ledger.tables.journal? x = some j)
    (hnew : ∀ label', r.transfers.get? label' ≠ some x) : (r.remember label x).Mirrors := by
  unfold Replay.remember
  split
  · exact h
  rename_i hlabel
  refine { h with
    transfers := h.transfers.put hnew
    journal := fun label' y hy => ?_
    unlabelled := (Table.get?_put_of_ne _ _ (Ne.symm hlabel)).trans h.unlabelled }
  rw [Table.get?_put] at hy
  split at hy
  · cases hy; exact hx
  · exact h.journal label' y hy

end Mirrors

/-! ## Going on -/

/-- What `r` may become: names mirror the ledger, and all names of `r` are kept. -/
structure Onward (limits : DefaultLimits) (r r' : Replay) : Prop where
  ready : r'.Ready limits
  mirrors : r'.Mirrors
  accounts : r.accounts.Within r'.accounts
  transfers : r.transfers.Within r'.transfers

theorem Onward.refl (hr : r.Ready limits) (hm : r.Mirrors) : r.Onward limits r :=
  ⟨hr, hm, .refl _, .refl _⟩

namespace Onward

variable (h : r.Onward limits r')
include h

/-- An operation that opens no account, after which no name is given. -/
theorem operate (op : CreditCircle.Operation)
    (hop : ∀ entity chance, op ≠ .openAccount entity chance) :
    r.Onward limits (r'.operate (op.program limits) fun _ s => s.finished).2 := by
  refine operate_ends h.ready op h fun a l' hrun => ?_
  have hl : l' = (r'.ledger.run (op.program limits)).2 := by rw [hrun]
  subst hl
  exact ⟨h.ready.run op, h.mirrors.run h.ready op hop, h.accounts, h.transfers⟩

theorem changeLimits (number : AccountNumber) (maxPos maxNeg : Option Decimal) (now : Timestamp) :
    r.Onward limits (r'.changeLimits number maxPos maxNeg now).2 :=
  given_ends h fun current _ => h.operate (.updateLimits number (maxPos.getD current.maxPos)
    (maxNeg.getD current.maxNeg) now) nofun

/-- An operation that makes a new journal, whose transfer then gets a label. -/
theorem record (op : CreditCircle.Operation)
    (hop : ∀ entity chance, op ≠ .openAccount entity chance) {label : String}
    (hlabel : r'.transfers.get? label = none) {j : Journal} {l' : Ledger}
    (hl : (r'.ledger.run (op.program limits)).2 = l')
    (hj : r'.ledger.tables.journal? j.transfer = none ∧ l'.tables.journal? j.transfer = some j) :
    r.Onward limits (Replay.remember { r' with ledger := l' } label j.transfer) := by
  subst hl
  have hmirrors := h.mirrors.run h.ready op hop
  refine ⟨(h.ready.run op).remember label _, hmirrors.remember ⟨j, hj.2⟩ fun label' hx => ?_,
    ?_, ?_⟩
  · obtain ⟨k, hk⟩ := h.mirrors.journal label' _ hx
    rw [hj.1] at hk
    cases hk
  · unfold Replay.remember
    split
    · exact h.accounts
    · exact h.accounts
  · unfold Replay.remember
    split
    · exact h.transfers
    · exact h.transfers.trans (Table.within_put hlabel _)

theorem openEntity (eligible : AccountNumber → Bool) (chance : Chance) (entity : String)
    (maxPos maxNeg : Option Decimal) :
    r.Onward limits (Replay.openEntity ⟨limits, eligible⟩ r' chance entity maxPos maxNeg).2 := by
  unfold Replay.openEntity
  split
  · exact h
  split
  · exact h
  rename_i hentity _
  have hentity : r'.accounts.get? entity = none := Table.get?_eq_none hentity
  refine operate_ends h.ready (.openAccount chance.entity chance) h fun a l' hrun => ?_
  have hopens := h.ready.reachable.opens_of_run hrun
  have hready := h.ready.run (.openAccount chance.entity chance)
  have hfollows := h.ready.reachable.follows_next (.operate (.openAccount chance.entity chance))
  rw [Ledger.next, hrun] at hfollows
  rw [hrun] at hready
  have hnamed : r.Onward limits ⟨l', r'.accounts.put entity a.number, r'.transfers⟩ :=
    ⟨⟨hready.reachable, hready.unarmed⟩, h.mirrors.opened hopens hfollows hentity,
      h.accounts.trans (Table.within_put hentity _), h.transfers⟩
  dsimp only
  split
  · exact hnamed.changeLimits _ _ _ _
  · exact hnamed

end Onward

/-- A request is only made for a label that is new. -/
theorem get?_eq_none_of_requestFor {label sender receiver : String} {amount : Decimal}
    {initiator : Initiator} {request : TransferRequest}
    (h : r.requestFor label sender receiver amount initiator = .ok request) :
    r.transfers.get? label = none := by
  refine Table.get?_eq_none fun hlabel => ?_
  rw [requestFor, if_pos hlabel] at h
  cases h

/-- A command leads onward, whether it is carried out or refused. -/
theorem apply_onward (h : r.Onward limits r') (eligible : AccountNumber → Bool) (chance : Chance)
    (command : Command) : r.Onward limits (r'.apply ⟨limits, eligible⟩ chance command).2 := by
  cases command with
  | «open» entity maxPos maxNeg => exact h.openEntity eligible chance entity maxPos maxNeg
  | limits entity maxPos maxNeg =>
    exact given_ends h fun number _ => h.changeLimits number maxPos maxNeg _
  | propose label sender receiver amount initiator description =>
    refine given_ends h fun request hrequest => ?_
    have hlabel := get?_eq_none_of_requestFor hrequest
    refine operate_ends h.ready (.propose eligible { request with description } chance) h
      fun j l' hrun => ?_
    exact h.record (.propose ..) nofun hlabel (congrArg Prod.snd hrun)
      (h.ready.reachable.new_of_propose hrun)
  | transfer label sender receiver amount description =>
    refine given_ends h fun request hrequest => ?_
    have hlabel := get?_eq_none_of_requestFor hrequest
    refine operate_ends h.ready (.transferNow eligible { request with description } chance) h
      fun j l' hrun => ?_
    exact h.record (.transferNow ..) nofun hlabel (congrArg Prod.snd hrun)
      (h.ready.reachable.new_of_transferNow hrun)
  | accept label => exact given_ends h fun x _ => h.operate (.accept x chance.clock) nofun
  | reject label reason =>
    exact given_ends h fun x _ => h.operate (.reject x reason (chance.clock 0)) nofun
  | cancel label reason =>
    exact given_ends h fun x _ => h.operate (.cancel x reason (chance.clock 0)) nofun

/-! ## Scripts and single commands -/

/-- One more thing for a replay to do. -/
inductive Stage where
  | script (chances : Nat → Chance) (script : List UInt8)
  | command (chance : Chance) (command : Command)

/-- The replay after one stage, whatever becomes of it. -/
def next (rules : Rules) (r : Replay) : Stage → Replay
  | .script chances script => (r.process rules chances script).2
  | .command chance command => (r.apply rules chance command).2

/-- The replay after some stages. -/
def after (rules : Rules) (r : Replay) (stages : List Stage) : Replay :=
  stages.foldl (next rules) r

theorem Onward.next {rules : Rules} (h : r.Onward rules.limits r') (stage : Stage) :
    r.Onward rules.limits (r'.next rules stage) := by
  cases stage with
  | script chances script =>
    refine process_ends (P := r.Onward rules.limits) (fun _ _ command _ _ chance h => ?_) h chances
      script
    exact apply_onward h rules.eligible chance command
  | command chance command => exact apply_onward h rules.eligible chance command

theorem Onward.after {rules : Rules} (stages : List Stage) :
    ∀ {r' : Replay}, r.Onward rules.limits r' → r.Onward rules.limits (r'.after rules stages) := by
  induction stages with
  | nil => exact fun h => h
  | cons stage stages ih => exact fun h => ih (h.next stage)

/-! ## The report -/

/-- No alias is listed twice. -/
theorem nodup_aliases (r : Replay) : (r.aliases.map Prod.fst).Nodup :=
  (r.aliases_perm.map Prod.fst).nodup_iff.2 r.accounts.nodup

theorem pairwise_lt_aliases (r : Replay) : (r.aliases.map Prod.fst).Pairwise (· < ·) := by
  refine (r.pairwise_aliases.and r.nodup_aliases).imp fun h => ?_
  exact Decidable.byContradiction fun hlt => h.2 (String.le_antisymm h.1 (String.not_lt.1 hlt))

/-- The line of an account that has limits. -/
theorem balanceOf_eq_ok {l : Ledger} {n : AccountNumber} {a : Account} {limit : BalanceLimit}
    (ha : l.tables.account? n = some a) (hlimit : l.tables.limit? n = some limit)
    (entity : String) :
    balanceOf l entity n = .ok ⟨entity, a.balance, limit.maxPos, limit.maxNeg⟩ := by
  rw [balanceOf, Ledger.accountByNumber, Ledger.limitFor, ha, hlimit]
  rfl

/-- The row is that of an account under an alias: it gives the balance and the limits. -/
def Lists (r : Replay) (row : BalanceRow) (n : AccountNumber) : Prop :=
  r.account row.entity = .ok n ∧ ∃ a limit, r.ledger.accountByNumber n = .ok a ∧
    r.ledger.limitFor n = .ok limit ∧
      row = ⟨row.entity, a.balance, limit.maxPos, limit.maxNeg⟩

theorem exists_mapM_ok {ε : Type} {f : α → Except ε β} {P : α → β → Prop} :
    ∀ {xs : List α}, (∀ x ∈ xs, ∃ y, f x = .ok y ∧ P x y) →
      ∃ ys, xs.mapM f = .ok ys ∧ List.Forall₂ P xs ys
  | [], _ => ⟨[], rfl, .nil⟩
  | x :: xs, h => by
    obtain ⟨y, hy, hp⟩ := h x List.mem_cons_self
    obtain ⟨ys, hys, hps⟩ := exists_mapM_ok fun x' hx' => h x' (List.mem_cons_of_mem x hx')
    refine ⟨y :: ys, ?_, .cons hp hps⟩
    rw [List.mapM_cons, hy, hys]
    rfl

theorem account_eq_ok_iff {name : String} {n : AccountNumber} :
    r.account name = .ok n ↔ r.accounts.get? name = some n := by
  unfold Replay.account
  cases r.accounts.get? name with
  | none => exact ⟨nofun, nofun⟩
  | some m => exact ⟨fun h => by cases h; rfl, fun h => by cases h; rfl⟩

theorem transfer_eq_ok_iff {label : String} {x : TransferId} :
    r.transfer label = .ok x ↔ r.transfers.get? label = some x := by
  unfold Replay.transfer
  cases r.transfers.get? label with
  | none => exact ⟨nofun, nofun⟩
  | some y => exact ⟨fun h => by cases h; rfl, fun h => by cases h; rfl⟩

namespace Mirrors

variable (h : r.Mirrors) (hr : r.Ready limits)
include h hr

/-- An alias has a line. -/
theorem exists_balanceOf {name : String} {n : AccountNumber} (hn : r.accounts.get? name = some n) :
    ∃ row, balanceOf r.ledger name n = .ok row ∧ row.entity = name ∧ r.Lists row n := by
  obtain ⟨a, ha⟩ := h.account name n hn
  obtain ⟨limit, hlimit, -⟩ := hr.reachable.withinLimits.inside n a ha
  exact ⟨_, balanceOf_eq_ok ha hlimit name, rfl, account_eq_ok_iff.2 hn, a, limit,
    Ledger.found_eq_ok_iff.2 ha, Ledger.found_eq_ok_iff.2 hlimit, rfl⟩

/-- The accounts behind the aliases are all accounts of the ledger, each once. -/
theorem aliases_perm_numbers :
    (r.aliases.map Prod.snd).Perm (r.ledger.tables.accounts.values.map Account.number) := by
  have hw := hr.reachable.atRest.wellFormed
  have hnodup : (r.aliases.map Prod.snd).Nodup := by
    rw [(r.aliases_perm.map Prod.snd).nodup_iff]
    refine (List.Nodup.of_map _ r.accounts.nodup).map_on fun e he e' he' heq => ?_
    have hname := h.accounts e.1 e'.1 e.2 ((r.accounts.mem_entries_iff _ _).1 he)
      (heq ▸ (r.accounts.mem_entries_iff _ _).1 he')
    exact Prod.ext hname heq
  refine (List.perm_ext_iff_of_nodup hnodup (Table.nodup_map_values hw.account)).2 fun n => ?_
  rw [List.mem_map, List.mem_map]
  constructor
  · rintro ⟨e, he, rfl⟩
    obtain ⟨a, ha⟩ := h.account e.1 e.2 (get?_of_mem_aliases he)
    exact ⟨a, (Table.mem_values_iff _ _).2 ⟨_, ha⟩, hw.account _ a ha⟩
  · rintro ⟨a, ha, rfl⟩
    obtain ⟨n, ha⟩ := (Table.mem_values_iff _ _).1 ha
    obtain ⟨name, hname⟩ := h.named n ⟨a, ha⟩
    refine ⟨(name, n), r.aliases_perm.mem_iff.2 ((r.accounts.mem_entries_iff _ _).2 hname), ?_⟩
    exact (hw.account n a ha).symm

/-- The report has a line for each alias. -/
theorem exists_rows : ∃ rows, r.balances = .ok rows ∧
    rows.map BalanceRow.entity = r.aliases.map Prod.fst ∧
    List.Forall₂ r.Lists rows (r.aliases.map Prod.snd) := by
  obtain ⟨rows, hrows, hlines⟩ := exists_mapM_ok
    fun e (he : e ∈ r.aliases) => h.exists_balanceOf hr (get?_of_mem_aliases he)
  have hnames : List.Forall₂ (· = ·) (rows.map BalanceRow.entity) (r.aliases.map Prod.fst) := by
    rw [List.forall₂_map_left_iff, List.forall₂_map_right_iff]
    exact hlines.flip.imp fun _ _ hline => hline.1
  rw [List.forall₂_eq_eq_eq] at hnames
  refine ⟨rows, congrArg (Except.mapError _) hrows, hnames, ?_⟩
  rw [List.forall₂_map_right_iff]
  exact hlines.flip.imp fun _ _ hline => hline.2

/-- The report lists every account of the ledger once, in the order of the aliases. -/
theorem exists_balances : ∃ rows numbers, r.balances = .ok rows ∧
    (rows.map BalanceRow.entity).Pairwise (· < ·) ∧
    numbers.Perm (r.ledger.tables.accounts.values.map Account.number) ∧
    List.Forall₂ r.Lists rows numbers := by
  obtain ⟨rows, hrows, hnames, hlines⟩ := h.exists_rows hr
  refine ⟨rows, r.aliases.map Prod.snd, hrows, ?_, h.aliases_perm_numbers hr, hlines⟩
  rw [hnames]
  exact r.pairwise_lt_aliases

end Mirrors

/-- Whatever scripts and commands a replay is given, its names mirror the ledger.  Different
    aliases stand for different accounts of the ledger, and each of its accounts has an alias;
    different labels stand for different transfers, all of which have a journal, and the empty
    text is no label.  An alias or a label that has been given stays what it is.  So the report
    never fails: it lists every account of the ledger once, in the order of the aliases. -/
theorem after_mirrors (rules : Rules) (stages : List Stage) :
    let r := (start .empty).after rules stages
    (∀ name name' n, r.account name = .ok n → r.account name' = .ok n → name = name') ∧
    (∀ name n, r.account name = .ok n → ∃ a, r.ledger.accountByNumber n = .ok a ∧ a.number = n) ∧
    (∀ a ∈ r.ledger.tables.accounts.values, ∃! name, r.account name = .ok a.number) ∧
    (∀ label x, r.transfer label = .ok x → ∃ j, r.ledger.journalOf x = .ok j ∧ j.transfer = x) ∧
    (∀ label label' x, r.transfer label = .ok x → r.transfer label' = .ok x → label = label') ∧
    (∀ x, r.transfer "" ≠ .ok x) ∧
    (∀ later name n, r.account name = .ok n → (r.after rules later).account name = .ok n) ∧
    (∀ later label x, r.transfer label = .ok x → (r.after rules later).transfer label = .ok x) ∧
    ∃ rows numbers, r.balances = .ok rows ∧ (rows.map BalanceRow.entity).Pairwise (· < ·) ∧
      numbers.Perm (r.ledger.tables.accounts.values.map Account.number) ∧
      List.Forall₂ r.Lists rows numbers := by
  intro r
  have hr : (start .empty).Onward rules.limits r :=
    (Onward.refl .start_empty .start_empty).after stages
  have hm := hr.mirrors
  have hw := hr.ready.reachable.atRest.wellFormed
  have hlater : ∀ later, r.Onward rules.limits (r.after rules later) :=
    fun later => (Onward.refl hr.ready hm).after later
  simp only [account_eq_ok_iff, transfer_eq_ok_iff]
  refine ⟨hm.accounts, fun name n hn => ?_, fun a ha => ?_, fun label x hx => ?_, hm.transfers,
    fun x hx => ?_, fun later => (hlater later).accounts, fun later => (hlater later).transfers,
    hm.exists_balances hr.ready⟩
  · obtain ⟨a, ha⟩ := hm.account name n hn
    exact ⟨a, Ledger.found_eq_ok_iff.2 ha, hw.account n a ha⟩
  · obtain ⟨n, ha⟩ := (Table.mem_values_iff _ _).1 ha
    rw [hw.account n a ha]
    obtain ⟨name, hname⟩ := hm.named n ⟨a, ha⟩
    exact ⟨name, hname, fun name' hname' => hm.accounts name' name n hname' hname⟩
  · obtain ⟨j, hj⟩ := hm.journal label x hx
    exact ⟨j, Ledger.found_eq_ok_iff.2 hj, hw.journal x j hj⟩
  · have hx := transfer_eq_ok_iff.1 hx
    rw [hm.unlabelled] at hx
    cases hx

end Script.Replay
end CreditCircle

/-
  Replays of scripts.

  * `Replay.Orderly`: what a command, a row or a script comes to when nothing stops it.
  * `operate_orderly`, `given_orderly`: the rules from which commands are put together.
  * `process_orderly`: nothing stops a script.
  * `Reachable.nothing_overflows`: neither operations nor scripts are ever stopped by an overflow.
-/
import CreditCircle.Proofs.Failures
import CreditCircle.Script.Replay

namespace CreditCircle

namespace Script.Replay

variable {limits : DefaultLimits} {r : Replay} {α β : Type}

/-- The ledger stays one that can come about, and what fails has been refused. -/
structure Orderly (limits : DefaultLimits)
    (outcome : Except (Failure ReplayError) α × Replay) : Prop where
  ledger : outcome.2.ledger.Reachable limits
  refused : ∀ f, outcome.1 = .error f → ∃ e, f = .refused e

theorem orderly_refused (h : r.ledger.Reachable limits) (e : ReplayError) :
    Orderly limits ((.error (.refused e), r) : Outcome α) :=
  ⟨h, fun f hf => ⟨e, by cases hf; rfl⟩⟩

theorem finished_orderly (h : r.ledger.Reachable limits) : Orderly limits r.finished :=
  ⟨h, nofun⟩

/-! ## Commands -/

theorem operate_orderly (h : r.ledger.Reachable limits) (op : CreditCircle.Operation)
    {next : op.Result → Replay → Outcome β}
    (hn : ∀ a r', r'.ledger.Reachable limits → Orderly limits (next a r')) :
    Orderly limits (r.operate (op.program limits) next) := by
  have hl : (r.ledger.run (op.program limits)).2.Reachable limits := h.next (.operate op)
  unfold operate
  cases hrun : r.ledger.run (op.program limits) with
  | mk result ledger =>
    rw [hrun] at hl
    cases result with
    | ok a => exact hn a { r with ledger } hl
    | error f =>
      obtain ⟨e, rfl⟩ := h.run_refused (congrArg Prod.fst hrun)
      exact orderly_refused (r := { r with ledger }) hl (.ledger e)

theorem given_orderly (h : r.ledger.Reachable limits) {found : Except ReplayError α}
    {next : α → Outcome β} (hn : ∀ a, Orderly limits (next a)) :
    Orderly limits (r.given found next) := by
  cases found with
  | ok a => exact hn a
  | error e => exact orderly_refused h e

theorem changeLimits_orderly (h : r.ledger.Reachable limits) (number : AccountNumber)
    (maxPos maxNeg : Option Decimal) (now : Timestamp) :
    Orderly limits (r.changeLimits number maxPos maxNeg now) :=
  given_orderly h fun current => operate_orderly h
    (.updateLimits number (maxPos.getD current.maxPos) (maxNeg.getD current.maxNeg) now)
    fun _ _ hr => finished_orderly hr

theorem openEntity_orderly (h : r.ledger.Reachable limits) (eligible : AccountNumber → Bool)
    (chance : Chance) (entity : String) (maxPos maxNeg : Option Decimal) :
    Orderly limits (openEntity ⟨limits, eligible⟩ r chance entity maxPos maxNeg) := by
  unfold openEntity
  split
  · exact orderly_refused h _
  split
  · exact orderly_refused h _
  refine operate_orderly h (.openAccount chance.entity chance) fun account r' hr' => ?_
  dsimp only
  let named := { r' with accounts := r'.accounts.put entity account.number }
  have hr : named.ledger.Reachable limits := hr'
  split
  · exact changeLimits_orderly hr _ _ _ _
  · exact finished_orderly hr

theorem remember_orderly (h : r.ledger.Reachable limits) (label : String) (transfer : TransferId) :
    Orderly limits (r.remember label transfer).finished := by
  unfold remember
  split
  · exact finished_orderly h
  · exact finished_orderly h

theorem apply_orderly (h : r.ledger.Reachable limits) (eligible : AccountNumber → Bool)
    (chance : Chance) (command : Command) :
    Orderly limits (r.apply ⟨limits, eligible⟩ chance command) := by
  cases command with
  | «open» entity maxPos maxNeg => exact openEntity_orderly h eligible chance entity maxPos maxNeg
  | limits entity maxPos maxNeg =>
    exact given_orderly h fun number => changeLimits_orderly h number maxPos maxNeg _
  | propose label sender receiver amount initiator description =>
    exact given_orderly h fun request =>
      operate_orderly h (.propose eligible { request with description } chance)
        fun journal _ hr => remember_orderly hr label journal.transfer
  | transfer label sender receiver amount description =>
    exact given_orderly h fun request =>
      operate_orderly h (.transferNow eligible { request with description } chance)
        fun journal _ hr => remember_orderly hr label journal.transfer
  | accept label =>
    exact given_orderly h fun transfer =>
      operate_orderly h (.accept transfer chance.clock) fun _ _ hr => finished_orderly hr
  | reject label reason =>
    exact given_orderly h fun transfer =>
      operate_orderly h (.reject transfer reason (chance.clock 0)) fun _ _ hr => finished_orderly hr
  | cancel label reason =>
    exact given_orderly h fun transfer =>
      operate_orderly h (.cancel transfer reason (chance.clock 0)) fun _ _ hr => finished_orderly hr

/-! ## Scripts -/

theorem applyRows_orderly (eligible : AccountNumber → Bool) (columns : List (Option Column))
    (chances : Nat → Chance) (rows : List Csv.Row) :
    ∀ (index : Nat) (summary : Summary) {r : Replay}, r.ledger.Reachable limits →
      Orderly limits (applyRows ⟨limits, eligible⟩ columns chances index summary r rows) := by
  induction rows with
  | nil => exact fun _ _ _ h => ⟨h, nofun⟩
  | cons row rows ih =>
    intro index summary r h
    have hrow : Orderly limits (applyRow ⟨limits, eligible⟩ columns r (chances index) row) :=
      given_orderly h fun command => apply_orderly h eligible _ command
    unfold applyRows
    split
    · rename_i r' hr
      rw [hr] at hrow
      exact ih _ _ hrow.ledger
    · rename_i error r' hr
      rw [hr] at hrow
      exact ih _ _ hrow.ledger
    · -- A failure that is not a refusal would stop the script.
      rename_i f r' hne hr
      rw [hr] at hrow
      obtain ⟨e, rfl⟩ := hrow.refused f rfl
      exact absurd rfl (hne e)

theorem process_orderly (h : r.ledger.Reachable limits) (eligible : AccountNumber → Bool)
    (chances : Nat → Chance) (script : List UInt8) :
    Orderly limits (r.process ⟨limits, eligible⟩ chances script) := by
  unfold process
  dsimp only
  split
  · exact orderly_refused h _
  · exact applyRows_orderly eligible _ chances _ 0 {} h

end Script.Replay

namespace Ledger.Reachable

variable {limits : DefaultLimits} {l : Ledger}

/-- No operation and no script is ever stopped by an overflow: whatever fails has been refused,
    and an operation whose new balances would overflow reports that. -/
theorem nothing_overflows (h : l.Reachable limits) :
    (∀ (op : Operation) f, (l.run (op.program limits)).1 = .error f → ∃ e, f = .refused e) ∧
    (∀ (op : Operation) sender receiver amount payer payee leg number,
      op.Moves l.tables sender receiver amount → Parties l.tables sender receiver payer payee →
        Overflows payer payee amount leg number →
          (l.run (op.program limits)).1 =
            .error (.refused (.arithmeticOverflow leg number))) ∧
    ∀ eligible chances script f,
      ((Script.Replay.start l).process ⟨limits, eligible⟩ chances script).1 = .error f →
        ∃ e, f = .refused e :=
  ⟨fun _ _ hf => h.run_refused hf,
    fun _ _ _ _ _ _ _ _ hm hp ho => h.atRest.run_overflows hm hp ho,
    fun eligible chances script =>
      (Script.Replay.process_orderly (r := .start l) h eligible chances script).refused⟩

end Ledger.Reachable

/-- The widest limits that there are. -/
def DefaultLimits.widest : DefaultLimits :=
  ⟨.ofNat (2 ^ 96 - 1), .ofNat (2 ^ 96 - 1), by decide, by decide⟩

/-- One member has paid the largest amount that there is to another one. -/
def drainedHistory : List Step :=
  [.operate (.openAccount ⟨.ofNat 1⟩ (.nth 1)), .operate (.openAccount ⟨.ofNat 2⟩ (.nth 2)),
    .operate (.transferNow (fun _ => true)
      (.send (.generate 10) (.generate 20) (.ofNat (2 ^ 96 - 1))) (.nth 3))]

/-- The member who has paid that much cannot pay one more. -/
theorem Ledger.Reachable.nothing_overflows_drained :
    let l := Ledger.empty.after .widest drainedHistory
    (l.run (Operation.program .widest (.transferNow (fun _ => true)
      (.send (.generate 10) (.generate 20) (.ofNat 1)) (.nth 4)))).1 =
        .error (.refused (.arithmeticOverflow .debit (.generate 10))) := by
  intro l
  have hr : l.Reachable .widest := ⟨drainedHistory, rfl⟩
  have hrow : ∀ n, (l.tables.account? n).isSome → (l.tables.limit? n).isSome →
      ∃ row : Account × BalanceLimit, l.tables.account? n = some row.1 ∧
        l.tables.limit? n = some row.2 := by
    intro n ha hl
    exact ⟨((l.tables.account? n).get ha, (l.tables.limit? n).get hl), by simp, by simp⟩
  obtain ⟨payer, ha, hl⟩ := hrow (.generate 10) (by decide) (by decide)
  obtain ⟨payee, ha', hl'⟩ := hrow (.generate 20) (by decide) (by decide)
  have hb : (l.tables.account? (.generate 10)).map
      (fun a => (a.number, a.balance.sub? (.ofNat 1))) = some (.generate 10, none) := by decide
  rw [ha, Option.map_some, Option.some_inj, Prod.mk.injEq] at hb
  obtain ⟨hn, hsum⟩ := hb
  rw [hr.nothing_overflows.2.1 _ _ _ _ payer payee .debit _ (.transferNow rfl)
    ⟨ha, hl, ha', hl'⟩ (.debit hsum), hn]

end CreditCircle

/-
  Commands that fail.

  * `Replay.Ready`: a replay whose ledger can come about, while nothing is armed.
  * `Replay.Atomic`: what is carried out as a whole or not at all; the rules for looking things up
    and for operations of the ledger.
  * `relimit_opened`: the bounds of an account that has just been opened are never refused.
  * `apply_atomic`: so every command is carried out as a whole or not at all.
-/
import CreditCircle.Proofs.ExactRun
import CreditCircle.Proofs.Replays

namespace CreditCircle

/-! ## Operations of the ledger -/

namespace Ledger.Reachable

variable {limits : DefaultLimits} {l : Ledger}

theorem run_armed (h : l.Reachable limits) (ha : l.store.armed = []) (op : Operation) :
    (l.run (op.program limits)).2.store.armed = [] := by
  have hsettled : Settled l (l.run (op.program limits)).2 := by
    rcases h.atRest.run_cases limits op with ⟨-, hc⟩ | ⟨-, hs⟩
    · exact hc.settled
    · exact hs.settled
  exact List.eq_nil_of_subset_nil (ha ▸ hsettled.armed)

theorem opens_of_run (h : l.Reachable limits) {entity : EntityId} {chance : Chance} {a : Account}
    {l' : Ledger} (hrun : l.run (Program.openAccount limits entity chance) = (.ok a, l')) :
    Opens limits entity chance l a l' := by
  rcases Program.run_of_attempts (Program.openAccount_attempts limits entity chance
    h.atRest.held) with ⟨b, m, hrun', ho⟩ | ⟨e, m, hrun', -⟩
  · cases hrun'.symm.trans hrun
    exact ho
  · cases hrun'.symm.trans hrun

/-- Bounds that are not negative can be set on an account that holds and owes nothing. -/
theorem run_updateLimits_of_zero (h : l.Reachable limits) (ha : l.store.armed = [])
    {number : AccountNumber} {a : Account} (hrow : l.tables.account? number = some a)
    (hb : a.balance = 0) {maxPos maxNeg : Decimal} (hpos : ¬ maxPos < 0) (hneg : ¬ maxNeg < 0)
    (now : Timestamp) :
    ∃ limit, (l.run (Program.updateLimits number maxPos maxNeg now)).1 = .ok limit := by
  rcases h.atRest.run_cases limits (.updateLimits number maxPos maxNeg now) with
    ⟨hok, -⟩ | ⟨⟨e, -, hinjected | hrefused⟩, -⟩
  · exact hok
  · obtain ⟨point, hpoint, -⟩ := hinjected
    rw [ha] at hpoint
    cases hpoint
  · obtain ⟨limit, hlimit, -⟩ := h.withinLimits.inside number a hrow
    rcases hrefused with ⟨hn, -⟩ | ⟨e', hlacks, -⟩ | ⟨a', old, hrow', -, hx, -⟩
    · exact absurd hn (not_or.2 ⟨hpos, hneg⟩)
    · rcases hlacks with ⟨hnone, -⟩ | ⟨hnone, -⟩
      · rw [hrow] at hnone; cases hnone
      · rw [hlimit] at hnone; cases hnone
    · rw [hrow] at hrow'
      cases hrow'
      rw [hb] at hx
      exact absurd hx (BalanceLimit.not_isExceededBy_zero hpos)

end Ledger.Reachable

namespace Script.Replay

/-- Nothing is armed on a ledger that can come about. -/
structure Ready (limits : DefaultLimits) (r : Replay) : Prop where
  reachable : r.ledger.Reachable limits
  unarmed : r.ledger.store.armed = []

/-- What has been begun on `r` is carried out as a whole, or it is refused and `r` stays as it
    was. -/
def Atomic {α : Type} (limits : DefaultLimits) (r : Replay) (outcome : Outcome α) : Prop :=
  (∃ a r', outcome = (.ok a, r') ∧ r'.Ready limits) ∨ ∃ e, outcome = (.error (.refused e), r)

variable {limits : DefaultLimits} {r : Replay} {α β : Type}

theorem Ready.start_empty : (start .empty).Ready limits := ⟨.empty, rfl⟩

theorem Ready.run (h : r.Ready limits) (op : CreditCircle.Operation) :
    ({ r with ledger := (r.ledger.run (op.program limits)).2 } : Replay).Ready limits :=
  ⟨h.reachable.next (.operate op), h.reachable.run_armed h.unarmed op⟩

/-! ## Rules -/

theorem refused_atomic (e : ReplayError) : Atomic limits r ((.error (.refused e), r) : Outcome α) :=
  Or.inr ⟨e, rfl⟩

theorem given_atomic {found : Except ReplayError α} {next : α → Outcome β}
    (hn : ∀ a, found = .ok a → Atomic limits r (next a)) :
    Atomic limits r (r.given found next) := by
  cases found with
  | ok a => exact hn a rfl
  | error e => exact refused_atomic e

theorem operate_of_ok {p : Program α} {a : α} (hrun : (r.ledger.run p).1 = .ok a)
    (next : α → Replay → Outcome β) :
    r.operate p next = next a { r with ledger := (r.ledger.run p).2 } := by
  unfold operate
  cases hp : r.ledger.run p with
  | mk result l' =>
    rw [hp] at hrun
    cases hrun
    rfl

/-- An operation and what follows it, if nothing that follows can be refused. -/
theorem operate_atomic (h : r.Ready limits) (op : CreditCircle.Operation)
    {next : op.Result → Replay → Outcome β}
    (hn : ∀ a l', r.ledger.run (op.program limits) = (.ok a, l') →
      ({ r with ledger := l' } : Replay).Ready limits →
        ∃ b r', next a { r with ledger := l' } = (.ok b, r') ∧ r'.Ready limits) :
    Atomic limits r (r.operate (op.program limits) next) := by
  have hready := h.run op
  have hkept := h.reachable.eq_of_failed h.unarmed op
  unfold operate
  cases hrun : r.ledger.run (op.program limits) with
  | mk result l' =>
    rw [hrun] at hready hkept
    cases result with
    | ok a => exact Or.inl (hn a l' hrun hready)
    | error f =>
      obtain ⟨e, rfl⟩ := h.reachable.run_refused (congrArg Prod.fst hrun)
      have hl : l' = r.ledger := hkept _ rfl
      subst hl
      exact refused_atomic _

/-! ## Commands -/

theorem changeLimits_atomic (h : r.Ready limits) (number : AccountNumber)
    (maxPos maxNeg : Option Decimal) (now : Timestamp) :
    Atomic limits r (r.changeLimits number maxPos maxNeg now) :=
  given_atomic fun current _ => operate_atomic h
    (.updateLimits number (maxPos.getD current.maxPos) (maxNeg.getD current.maxNeg) now)
    fun _ _ _ hr => ⟨(), _, rfl, hr⟩

/-- The bounds of an account on which nothing has been booked yet are never refused. -/
theorem relimit_opened (h : r.Ready limits) {number : AccountNumber} {a : Account}
    (hrow : r.ledger.tables.account? number = some a) (hb : a.balance = 0)
    {maxPos maxNeg : Option Decimal} (hpos : ¬ maxPos.any (· < 0)) (hneg : ¬ maxNeg.any (· < 0))
    (now : Timestamp) :
    ∃ b r', r.changeLimits number maxPos maxNeg now = (.ok b, r') ∧ r'.Ready limits := by
  obtain ⟨current, hlimit, -⟩ := h.reachable.withinLimits.inside number a hrow
  obtain ⟨hcurrent, hcurrent'⟩ := h.reachable.withinLimits.nonneg number current hlimit
  have hgetD : ∀ {bound : Option Decimal} {old : Decimal}, ¬ bound.any (· < 0) → ¬ old < 0 →
      ¬ bound.getD old < 0 := by
    intro bound old hbound hold
    cases bound with
    | none => exact hold
    | some d => simpa using hbound
  obtain ⟨limit, hok⟩ := h.reachable.run_updateLimits_of_zero h.unarmed hrow hb
    (hgetD hpos hcurrent) (hgetD hneg hcurrent') now
  have hcurrent : r.ledger.limitFor number = .ok current := by
    unfold Ledger.limitFor
    rw [hlimit]
    rfl
  refine ⟨(), _, ?_, h.run (.updateLimits number (maxPos.getD current.maxPos)
    (maxNeg.getD current.maxNeg) now)⟩
  unfold changeLimits
  rw [hcurrent]
  exact operate_of_ok hok _

theorem openEntity_atomic (h : r.Ready limits) (eligible : AccountNumber → Bool) (chance : Chance)
    (entity : String) (maxPos maxNeg : Option Decimal) :
    Atomic limits r (openEntity ⟨limits, eligible⟩ r chance entity maxPos maxNeg) := by
  unfold openEntity
  split
  · exact refused_atomic _
  split
  · exact refused_atomic _
  rename_i hbounds
  rw [Bool.or_eq_true, not_or] at hbounds
  refine operate_atomic h (.openAccount chance.entity chance) fun account l' hrun hr => ?_
  have hopens := h.reachable.opens_of_run hrun
  have hrow : l'.tables.account? account.number = some account := by
    obtain ⟨now, -, ht⟩ := hopens.tables
    rw [ht, Tables.account?_withAccount, if_pos rfl]
  have hnamed : ({ r with
      ledger := l'
      accounts := r.accounts.put entity account.number } : Replay).Ready limits :=
    ⟨hr.reachable, hr.unarmed⟩
  dsimp only
  split
  · exact relimit_opened hnamed hrow hopens.balance hbounds.1 hbounds.2 _
  · exact ⟨(), _, rfl, hnamed⟩

theorem Ready.remember (h : r.Ready limits) (label : String) (transfer : TransferId) :
    (r.remember label transfer).Ready limits := by
  unfold Replay.remember
  split
  · exact h
  · exact ⟨h.reachable, h.unarmed⟩

/-- A command is carried out as a whole, or it is refused and nothing has changed. -/
theorem apply_atomic (h : r.Ready limits) (eligible : AccountNumber → Bool) (chance : Chance)
    (command : Command) : Atomic limits r (r.apply ⟨limits, eligible⟩ chance command) := by
  cases command with
  | «open» entity maxPos maxNeg => exact openEntity_atomic h eligible chance entity maxPos maxNeg
  | limits entity maxPos maxNeg =>
    exact given_atomic fun number _ => changeLimits_atomic h number maxPos maxNeg _
  | propose label sender receiver amount initiator description =>
    exact given_atomic fun request _ =>
      operate_atomic h (.propose eligible { request with description } chance)
        fun journal _ _ hr => ⟨(), _, rfl, hr.remember label journal.transfer⟩
  | transfer label sender receiver amount description =>
    exact given_atomic fun request _ =>
      operate_atomic h (.transferNow eligible { request with description } chance)
        fun journal _ _ hr => ⟨(), _, rfl, hr.remember label journal.transfer⟩
  | accept label =>
    exact given_atomic fun transfer _ =>
      operate_atomic h (.accept transfer chance.clock) fun _ _ _ hr => ⟨(), _, rfl, hr⟩
  | reject label reason =>
    exact given_atomic fun transfer _ =>
      operate_atomic h (.reject transfer reason (chance.clock 0)) fun _ _ _ hr => ⟨(), _, rfl, hr⟩
  | cancel label reason =>
    exact given_atomic fun transfer _ =>
      operate_atomic h (.cancel transfer reason (chance.clock 0)) fun _ _ _ hr => ⟨(), _, rfl, hr⟩

/-- So is a row. -/
theorem applyRow_atomic (h : r.Ready limits) (eligible : AccountNumber → Bool)
    (columns : List (Option Column)) (chance : Chance) (row : Csv.Row) :
    Atomic limits r (applyRow ⟨limits, eligible⟩ columns r chance row) :=
  given_atomic fun command _ => apply_atomic h eligible chance command

end Script.Replay
end CreditCircle

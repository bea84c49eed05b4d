/-
  Replays do not depend on the order of rows.

  * `Replay.Same`: the same ledger and the same names, with the rows of every table in whatever
    order.
  * `Replay.MayOperate`, …, `MayApply`: what a command may come to if the rows of all tables change
    places at will.
  * `Replay.MayApplyRows`, `MayProcess`: the same for the rows of a script and for a script.
  * `MayProcess.same`: a script comes to the same, whatever places they take.
-/
import CreditCircle.Proofs.AnyOrder
import CreditCircle.Script.Replay

namespace CreditCircle.Script.Replay

/-! ## Replays that are the same -/

/-- The same ledger and the same names. -/
structure Same (r s : Replay) : Prop where
  ledger : r.ledger.Same s.ledger
  accounts : r.accounts.Same s.accounts
  transfers : r.transfers.Same s.transfers

/-- The same result, and the same replay after it. -/
structure SameOutcome {α : Type} (o o' : Except (Failure ReplayError) α × Replay) : Prop where
  result : o.1 = o'.1
  replay : o.2.Same o'.2

theorem Same.refl (r : Replay) : r.Same r := ⟨.refl _, .refl _, .refl _⟩

namespace Same

variable {r s t : Replay} (h : r.Same s)
include h

theorem symm : s.Same r := ⟨h.ledger.symm, h.accounts.symm, h.transfers.symm⟩

theorem trans (h' : s.Same t) : r.Same t :=
  ⟨h.ledger.trans h'.ledger, h.accounts.trans h'.accounts, h.transfers.trans h'.transfers⟩

/-! ### Look-ups -/

theorem account (name : String) : r.account name = s.account name := by
  unfold Replay.account
  rw [h.accounts name]

theorem transfer (label : String) : r.transfer label = s.transfer label := by
  unfold Replay.transfer
  rw [h.transfers label]

theorem limitFor (n : AccountNumber) : r.ledger.limitFor n = s.ledger.limitFor n :=
  congrArg (Ledger.found _) (h.ledger.store.tables.limits n)

theorem requestFor (label sender receiver : String) (amount : Decimal) (initiator : Initiator) :
    r.requestFor label sender receiver amount initiator =
      s.requestFor label sender receiver amount initiator := by
  unfold Replay.requestFor
  rw [h.transfers.has, h.account, h.account]

theorem remember (label : String) (x : TransferId) :
    (r.remember label x).Same (s.remember label x) := by
  unfold Replay.remember
  split
  · exact h
  · exact { h with transfers := h.transfers.put _ _ }

end Same

/-! ## Commands -/

/-- What may come of something, the rows of all tables changing places at will. -/
abbrev Outcomes (α : Type) := Outcome α → Prop

/-- What may come of an operation of the ledger and of what goes on with its result. -/
inductive MayOperate {α β : Type} (r : Replay) (p : Program α) (next : α → Replay → Outcomes β) :
    Outcomes β
  | ok {a : α} {ledger : Ledger} {o : Outcome β} (hrun : r.ledger.MayRun p (.ok a) ledger)
      (h : next a { r with ledger } o) : MayOperate r p next o
  | error {failure : Failure LedgerError} {ledger : Ledger}
      (hrun : r.ledger.MayRun p (.error failure) ledger) :
      MayOperate r p next (.error (failure.map .ledger), { r with ledger })

/-- What may come of looking something up and of what goes on with it. -/
inductive MayBeGiven {α β : Type} (r : Replay) :
    Except ReplayError α → (α → Outcomes β) → Outcomes β
  | ok {a : α} {next : α → Outcomes β} {o : Outcome β} (h : next a o) : MayBeGiven r (.ok a) next o
  | error {e : ReplayError} {next : α → Outcomes β} :
      MayBeGiven r (.error e) next (.error (.refused e), r)

/-- What may come of replacing the bounds that are given. -/
def MayChangeLimits (r : Replay) (number : AccountNumber) (maxPos maxNeg : Option Decimal)
    (now : Timestamp) : Outcomes Unit :=
  r.MayBeGiven ((r.ledger.limitFor number).mapError .ledger) fun current =>
    r.MayOperate (Program.updateLimits number (maxPos.getD current.maxPos)
      (maxNeg.getD current.maxNeg) now) fun _ r o => o = r.finished

/-- What may come of opening an account under an alias. -/
def MayOpenEntity (rules : Rules) (r : Replay) (chance : Chance) (entity : String)
    (maxPos maxNeg : Option Decimal) : Outcomes Unit := fun o =>
  if r.accounts.has entity then o = (.error (.refused (.duplicateEntity entity)), r)
  else if maxPos.any (· < 0) || maxNeg.any (· < 0) then
    o = (.error (.refused (.negativeBound entity)), r)
  else
    r.MayOperate (Program.openAccount rules.limits chance.entity chance) (fun account r =>
      let r := { r with accounts := r.accounts.put entity account.number }
      if maxPos.isSome || maxNeg.isSome then
        r.MayChangeLimits account.number maxPos maxNeg (chance.clock (2 * numberAttempts))
      else fun o => o = r.finished) o

/-- What may come of a command. -/
def MayApply (rules : Rules) (r : Replay) (chance : Chance) : Command → Outcomes Unit
  | .open entity maxPos maxNeg => MayOpenEntity rules r chance entity maxPos maxNeg
  | .limits entity maxPos maxNeg =>
    r.MayBeGiven (r.account entity) fun number =>
      r.MayChangeLimits number maxPos maxNeg (chance.clock 0)
  | .propose label sender receiver amount initiator description =>
    r.MayBeGiven (r.requestFor label sender receiver amount initiator) fun request =>
      r.MayOperate (Program.propose rules { request with description } chance) fun journal r o =>
        o = (r.remember label journal.transfer).finished
  | .transfer label sender receiver amount description =>
    r.MayBeGiven (r.requestFor label sender receiver amount .sender) fun request =>
      r.MayOperate (Program.transferNow rules { request with description } chance) fun journal r o =>
        o = (r.remember label journal.transfer).finished
  | .accept label =>
    r.MayBeGiven (r.transfer label) fun transfer =>
      r.MayOperate (Program.accept transfer chance.clock) fun _ r o => o = r.finished
  | .reject label reason =>
    r.MayBeGiven (r.transfer label) fun transfer =>
      r.MayOperate (Program.reject transfer reason (chance.clock 0)) fun _ r o => o = r.finished
  | .cancel label reason =>
    r.MayBeGiven (r.transfer label) fun transfer =>
      r.MayOperate (Program.cancel transfer reason (chance.clock 0)) fun _ r o => o = r.finished

/-! ### They come to the same -/

section
variable {r s : Replay} {α β : Type} {o : Outcome β}

theorem MayOperate.same (limits : DefaultLimits) (op : CreditCircle.Operation)
    {next : op.Result → Replay → Outcomes β} {next' : op.Result → Replay → Outcome β}
    (h : r.MayOperate (op.program limits) next o) (hs : r.Same s)
    (hn : ∀ a {r s : Replay} {o}, r.Same s → next a r o → SameOutcome o (next' a s)) :
    SameOutcome o (s.operate (op.program limits) next') := by
  unfold operate
  rw [← Prod.eta (s.ledger.run (op.program limits))]
  cases h with
  | @ok _ ledger _ hrun h =>
    obtain ⟨hresult, hledger⟩ := hrun.run hs.ledger
    rw [hresult]
    exact hn _ (r := { r with ledger }) ⟨hledger, hs.accounts, hs.transfers⟩ h
  | error hrun =>
    obtain ⟨hresult, hledger⟩ := hrun.run hs.ledger
    rw [hresult]
    exact ⟨rfl, ⟨hledger, hs.accounts, hs.transfers⟩⟩

theorem MayBeGiven.same {found found' : Except ReplayError α} {next : α → Outcomes β}
    {next' : α → Outcome β} (h : r.MayBeGiven found next o) (hs : r.Same s) (hf : found = found')
    (hn : ∀ a, next a o → SameOutcome o (next' a)) : SameOutcome o (s.given found' next') := by
  subst hf
  cases h with
  | ok h => exact hn _ h
  | error => exact ⟨rfl, hs⟩

theorem finished_same {o : Outcome Unit} (hs : r.Same s) (h : o = r.finished) :
    SameOutcome o s.finished := by
  subst h
  exact ⟨rfl, hs⟩

variable {rules : Rules} {chance : Chance} {o : Outcome Unit}

theorem MayChangeLimits.same {number : AccountNumber} {maxPos maxNeg : Option Decimal}
    {now : Timestamp} (h : r.MayChangeLimits number maxPos maxNeg now o) (hs : r.Same s) :
    SameOutcome o (s.changeLimits number maxPos maxNeg now) :=
  MayBeGiven.same h hs (congrArg (Except.mapError _) (hs.limitFor number)) fun _ h =>
    MayOperate.same .standard (.updateLimits ..) h hs fun _ _ _ _ hs h =>
      finished_same hs h

theorem MayOpenEntity.same {entity : String} {maxPos maxNeg : Option Decimal}
    (h : MayOpenEntity rules r chance entity maxPos maxNeg o) (hs : r.Same s) :
    SameOutcome o (openEntity rules s chance entity maxPos maxNeg) := by
  unfold MayOpenEntity at h
  unfold openEntity
  rw [← hs.accounts.has]
  split at h
  · rw [if_pos ‹_›, h]
    exact ⟨rfl, hs⟩
  rw [if_neg ‹_›]
  split at h
  · rw [if_pos ‹_›, h]
    exact ⟨rfl, hs⟩
  rw [if_neg ‹_›]
  refine MayOperate.same rules.limits (.openAccount ..) h hs fun a r s o hs h => ?_
  have hnamed : Same { r with accounts := r.accounts.put entity a.number }
      { s with accounts := s.accounts.put entity a.number } :=
    { hs with accounts := hs.accounts.put _ _ }
  dsimp only at h ⊢
  split at h
  · rw [if_pos ‹_›]
    exact MayChangeLimits.same h hnamed
  · rw [if_neg ‹_›]
    exact finished_same hnamed h

/-- A command comes to the same, whatever places the rows take. -/
theorem MayApply.same {command : Command} (h : r.MayApply rules chance command o) (hs : r.Same s) :
    SameOutcome o (s.apply rules chance command) := by
  cases command with
  | «open» => exact MayOpenEntity.same h hs
  | limits entity =>
    exact MayBeGiven.same h hs (hs.account entity) fun _ h => MayChangeLimits.same h hs
  | propose label =>
    exact MayBeGiven.same h hs (hs.requestFor ..) fun _ h =>
      MayOperate.same rules.limits (.propose ..) h hs fun _ _ _ _ hs h =>
        finished_same (hs.remember label _) h
  | transfer label =>
    exact MayBeGiven.same h hs (hs.requestFor ..) fun _ h =>
      MayOperate.same rules.limits (.transferNow ..) h hs fun _ _ _ _ hs h =>
        finished_same (hs.remember label _) h
  | accept label =>
    exact MayBeGiven.same h hs (hs.transfer label) fun _ h =>
      MayOperate.same .standard (.accept ..) h hs fun _ _ _ _ hs h =>
        finished_same hs h
  | reject label =>
    exact MayBeGiven.same h hs (hs.transfer label) fun _ h =>
      MayOperate.same .standard (.reject ..) h hs fun _ _ _ _ hs h =>
        finished_same hs h
  | cancel label =>
    exact MayBeGiven.same h hs (hs.transfer label) fun _ h =>
      MayOperate.same .standard (.cancel ..) h hs fun _ _ _ _ hs h =>
        finished_same hs h

/-! ### One way is with every row in its place -/

theorem mayOperate_operate {p : Program α} {next : α → Replay → Outcomes β}
    {next' : α → Replay → Outcome β} (hn : ∀ a s, next a s (next' a s)) :
    r.MayOperate p next (r.operate p next') := by
  have hrun := r.ledger.mayRun_run p
  unfold operate
  cases hp : r.ledger.run p with
  | mk result ledger =>
    rw [hp] at hrun
    cases result with
    | ok a => exact .ok hrun (hn _ _)
    | error failure => exact .error hrun

theorem mayBeGiven_given {found : Except ReplayError α} {next : α → Outcomes β}
    {next' : α → Outcome β} (hn : ∀ a, next a (next' a)) :
    r.MayBeGiven found next (r.given found next') := by
  cases found with
  | ok a => exact .ok (hn a)
  | error e => exact .error

theorem mayChangeLimits_changeLimits (number : AccountNumber) (maxPos maxNeg : Option Decimal)
    (now : Timestamp) :
    r.MayChangeLimits number maxPos maxNeg now (r.changeLimits number maxPos maxNeg now) :=
  mayBeGiven_given fun _ => mayOperate_operate fun _ _ => rfl

theorem mayOpenEntity_openEntity (entity : String) (maxPos maxNeg : Option Decimal) :
    MayOpenEntity rules r chance entity maxPos maxNeg
      (openEntity rules r chance entity maxPos maxNeg) := by
  unfold MayOpenEntity openEntity
  split
  · rfl
  split
  · rfl
  refine mayOperate_operate fun a s => ?_
  dsimp only
  split
  · exact mayChangeLimits_changeLimits ..
  · rfl

theorem mayApply_apply (command : Command) :
    r.MayApply rules chance command (r.apply rules chance command) := by
  cases command with
  | «open» => exact mayOpenEntity_openEntity ..
  | limits => exact mayBeGiven_given fun _ => mayChangeLimits_changeLimits ..
  | propose | transfer | accept | reject | cancel =>
    exact mayBeGiven_given fun _ => mayOperate_operate fun _ _ => rfl

end

/-! ## Scripts -/

/-- What may come of a row. -/
def MayApplyRow (rules : Rules) (columns : List (Option Column)) (r : Replay) (chance : Chance)
    (row : Csv.Row) : Outcomes Unit :=
  r.MayBeGiven (commandOf columns row) (r.MayApply rules chance)

/-- What may come of the rows of a script, of which the first has the number `index`. -/
inductive MayApplyRows (rules : Rules) (columns : List (Option Column)) (chances : Nat → Chance) :
    Nat → Summary → Replay → List Csv.Row → Except (Failure ReplayError) Summary × Replay → Prop
  | done {index : Nat} {summary : Summary} {r s : Replay} (hs : r.Same s) :
      MayApplyRows rules columns chances index summary r []
        (.ok { summary with skipped := summary.skipped.reverse }, s)
  | applied {index : Nat} {summary : Summary} {r s r' : Replay} {row : Csv.Row}
      {rows : List Csv.Row} {o : Except (Failure ReplayError) Summary × Replay} (hs : r.Same s)
      (hrow : s.MayApplyRow rules columns (chances index) row (.ok (), r'))
      (h : MayApplyRows rules columns chances (index + 1)
        { summary with applied := summary.applied + 1 } r' rows o) :
      MayApplyRows rules columns chances index summary r (row :: rows) o
  | skipped {index : Nat} {summary : Summary} {r s r' : Replay} {row : Csv.Row}
      {rows : List Csv.Row} {error : ReplayError}
      {o : Except (Failure ReplayError) Summary × Replay} (hs : r.Same s)
      (hrow : s.MayApplyRow rules columns (chances index) row (.error (.refused error), r'))
      (h : MayApplyRows rules columns chances (index + 1)
        { summary with skipped := ⟨index + 2, error⟩ :: summary.skipped } r' rows o) :
      MayApplyRows rules columns chances index summary r (row :: rows) o
  | stopped {index : Nat} {summary : Summary} {r s r' : Replay} {row : Csv.Row}
      {rows : List Csv.Row} {failure : Failure ReplayError} (hs : r.Same s)
      (hf : ∀ error, failure ≠ .refused error)
      (hrow : s.MayApplyRow rules columns (chances index) row (.error failure, r')) :
      MayApplyRows rules columns chances index summary r (row :: rows) (.error failure, r')

/-- What may come of a script: before every row and before every call of an operation, the rows of
    all tables may change places. -/
inductive MayProcess (r : Replay) (rules : Rules) (chances : Nat → Chance) (script : List UInt8) :
    Except (Failure ReplayError) Summary × Replay → Prop
  | refused {e : ReplayError} (hc : columnsOf (Csv.records script) = .error e) :
      MayProcess r rules chances script (.error (.refused e), r)
  | carriedOut {columns : List (Option Column)}
      {o : Except (Failure ReplayError) Summary × Replay}
      (hc : columnsOf (Csv.records script) = .ok columns)
      (h : MayApplyRows rules columns chances 0 {} r (Csv.records script).tail o) :
      MayProcess r rules chances script o

variable {rules : Rules} {columns : List (Option Column)} {chances : Nat → Chance}
  {r s : Replay} {o : Except (Failure ReplayError) Summary × Replay}

theorem MayApplyRow.same {chance : Chance} {row : Csv.Row} {o : Outcome Unit}
    (h : r.MayApplyRow rules columns chance row o) (hs : r.Same s) :
    SameOutcome o (applyRow rules columns s chance row) :=
  MayBeGiven.same h hs rfl fun _ h => MayApply.same h hs

theorem MayApplyRows.same {index : Nat} {summary : Summary} {rows : List Csv.Row}
    (h : MayApplyRows rules columns chances index summary r rows o) (hs : r.Same s) :
    SameOutcome o (applyRows rules columns chances index summary s rows) := by
  induction h generalizing s with
  | done hr => exact ⟨rfl, hr.symm.trans hs⟩
  | applied hr hrow _ ih =>
    obtain ⟨hresult, hreplay⟩ := hrow.same (hr.symm.trans hs)
    unfold applyRows
    rw [← Prod.eta (applyRow ..), ← hresult]
    exact ih hreplay
  | skipped hr hrow _ ih =>
    obtain ⟨hresult, hreplay⟩ := hrow.same (hr.symm.trans hs)
    unfold applyRows
    rw [← Prod.eta (applyRow ..), ← hresult]
    exact ih hreplay
  | @stopped _ _ _ _ _ _ _ failure hr hf hrow =>
    obtain ⟨hresult, hreplay⟩ := hrow.same (hr.symm.trans hs)
    unfold applyRows
    rw [← Prod.eta (applyRow ..), ← hresult]
    cases failure with
    | refused e => exact absurd rfl (hf e)
    | crashed overflow => exact ⟨rfl, hreplay⟩
    | blocked => exact ⟨rfl, hreplay⟩

/-- A script comes to the same, whatever places the rows of the tables take. -/
theorem MayProcess.same {script : List UInt8} (h : r.MayProcess rules chances script o)
    (hs : r.Same s) : SameOutcome o (s.process rules chances script) := by
  unfold process
  dsimp only
  cases h with
  | refused hc =>
    rw [hc]
    exact ⟨rfl, hs⟩
  | carriedOut hc h =>
    rw [hc]
    exact h.same hs

theorem mayApplyRows_applyRows (rows : List Csv.Row) : ∀ (index : Nat) (summary : Summary)
    (r : Replay), MayApplyRows rules columns chances index summary r rows
      (applyRows rules columns chances index summary r rows) := by
  induction rows with
  | nil => exact fun _ _ r => .done (.refl r)
  | cons row rows ih =>
    intro index summary r
    have hrow : r.MayApplyRow rules columns (chances index) row
        (applyRow rules columns r (chances index) row) := mayBeGiven_given fun _ => mayApply_apply _
    unfold applyRows
    split
    · rename_i heq
      exact .applied (.refl r) (heq ▸ hrow) (ih ..)
    · rename_i heq
      exact .skipped (.refl r) (heq ▸ hrow) (ih ..)
    · rename_i hne heq
      exact .stopped (.refl r) hne (heq ▸ hrow)

/-- One way is with every row in its place. -/
theorem mayProcess_process (r : Replay) (rules : Rules) (chances : Nat → Chance)
    (script : List UInt8) :
    r.MayProcess rules chances script (r.process rules chances script) := by
  unfold process
  dsimp only
  cases hc : columnsOf (Csv.records script) with
  | error e => exact .refused hc
  | ok columns => exact .carriedOut hc (mayApplyRows_applyRows ..)

end CreditCircle.Script.Replay

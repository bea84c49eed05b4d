/-
  What operations come to when nothing gets in the way, down to the keys of the new rows.

  * `run_openAccount`, …, `run_transferNow`: one equation for each operation.
  * `Reachable.eq_of_failed`: an operation that fails has changed nothing at all.
-/
import CreditCircle.Proofs.Limits
import CreditCircle.Proofs.Undisturbed

namespace CreditCircle

namespace Program

variable {α : Type} {t : Tables} {s : Sequences} {es : List Event}

open UnitOfWork (holding)

/-! ## Operations -/

theorem run_propose (rules : Rules) (request : TransferRequest) (chance : Chance) {j : Journal}
    (hj : j = (request.draft chance.transfer (chance.clock 0)).toJournal ⟨s.journal + 1⟩) :
    (Ledger.calm t s es).run (propose rules request chance) =
      (Ledger.calm t s es).provided (t.granted rules.eligible request chance.transfer
        (t.content.glance request.sender request.receiver)) fun _ =>
          (.ok j, .calm (t.withNewJournal j) { s with journal := s.journal + 1 }
            (es ++ [.proposed j])) := by
  subst hj
  rw [run_calm]
  unfold propose Tables.granted
  rw [alone_check, Ledger.provided_bind]
  congr 1
  funext _
  rw [alone_checkBalance, Ledger.provided_bind]
  congr 1
  funext rows
  rw [Ledger.provided_bind]
  congr 1
  funext balances
  rw [alone_insertJournal rfl, Ledger.provided_bind]
  refine Ledger.provided_congr fun _ hclaim => ?_
  have hn : t.journal? chance.transfer = none := Tables.claim_eq_ok_iff.1 hclaim
  rw [alone_commit, alone_publish]
  · refine (alone_done _).trans (congrArg _ ?_)
    exact congrArg (fun t => Ledger.calm t _ _) (UnitOfWork.applyTo_newJournal t
      ((request.draft chance.transfer (chance.clock 0)).toJournal ⟨s.journal + 1⟩))
  · refine UnitOfWork.conflict?_eq_none t rfl rfl fun x hx => ?_
    rcases List.mem_singleton.1 hx with rfl
    exact hn

theorem run_close {x : TransferId} (hk : ∀ j, t.journal? x = some j → j.transfer = x)
    (reason : String) (action : Action) (canceller : Canceller) (now : Timestamp) :
    (Ledger.calm t s es).run (close x reason action canceller now) =
      (Ledger.calm t s es).provided (t.pending x action) fun j =>
        (.ok (j.cancelled reason now), .calm (t.withJournal (j.cancelled reason now)) s
          (es ++ [.cancelled (j.cancelled reason now) canceller])) := by
  rw [run_calm]
  unfold close
  rw [show UnitOfWork.empty = holding [] from rfl, alone_lockPending]
  refine Ledger.provided_congr fun j hj => ?_
  have hx := hk j (Tables.pending_eq_ok_iff.1 hj).1
  refine alone_conclude (Or.inr ?_) ?_ (UnitOfWork.applyTo_journal ..)
  · simp [holding, Journal.cancelled, hx]
  · exact UnitOfWork.conflict?_eq_none t rfl rfl (by simp [holding, UnitOfWork.empty])

theorem run_accept {x : TransferId} (hk : ∀ j, t.journal? x = some j → j.transfer = x)
    (hne : ∀ j, t.journal? x = some j → j.sender ≠ j.receiver) (clock : Clock) :
    (Ledger.calm t s es).run (accept x clock) =
      (Ledger.calm t s es).provided (t.pending x .accept) fun j =>
        (Ledger.calm t s es).provided (t.content.parties j.sender j.receiver) fun rows =>
          match newBalances rows.1 rows.2 j.amount with
          | .ok balances =>
            (.ok (j.completed (clock 0)),
              .calm ((t.booked s j rows balances (clock 1) (clock 2)).withJournal
                  (j.completed (clock 0))) { s with posting := s.posting + 2 }
                (es ++ [.accepted (j.completed (clock 0))]))
          | .error (.refused (.limitExceeded side _ _)) =>
            (.ok (j.cancelled (systemReason side) (clock 0)),
              .calm (t.withJournal (j.cancelled (systemReason side) (clock 0))) s
                (es ++ [.cancelled (j.cancelled (systemReason side) (clock 0)) .system]))
          | .error failure => (.error failure, .calm t s es) := by
  rw [run_calm]
  unfold accept
  rw [show UnitOfWork.empty = holding [] from rfl, alone_lockPending]
  refine Ledger.provided_congr fun j hj => ?_
  have hfound := (Tables.pending_eq_ok_iff.1 hj).1
  have hx := hk j hfound
  rw [alone_lockParties]
  refine Ledger.provided_congr fun rows hrows => ?_
  have hp := Tables.content_parties_eq_ok_iff.1 hrows
  have hjournal : RowKey.journal j.transfer ∈
      heldBy (List.insert (.journal x) []) j.sender j.receiver :=
    mem_heldBy_iff.2 (Or.inr (Or.inr (by rw [hx]; exact List.mem_insert_self)))
  obtain ⟨hs, hr⟩ := owns_heldBy (List.insert (.journal x) []) j.sender j.receiver
  dsimp only
  cases newBalances rows.1 rows.2 j.amount with
  | ok balances =>
    refine (alone_book hs hr rfl rfl (hne j hfound) hp.payer_row hp.payee_row ..).trans ?_
    refine alone_conclude ?_ ?_ ?_
    · exact Or.inr hjournal
    · exact UnitOfWork.conflict?_eq_none t rfl rfl (by simp [holding, UnitOfWork.empty])
    · exact UnitOfWork.applyTo_legs t (j := j.completed (clock 0)) _ _ _ _ _ (hne j hfound)
  | error failure =>
    cases failure with
    | refused e =>
      cases e with
      | limitExceeded side number room =>
        refine alone_conclude ?_ ?_ ?_
        · exact Or.inr hjournal
        · exact UnitOfWork.conflict?_eq_none t rfl rfl (by simp [holding, UnitOfWork.empty])
        · exact UnitOfWork.applyTo_journal ..
      | _ => exact alone_fail _
    | _ => exact alone_fail _

theorem run_transferNow (rules : Rules) (request : TransferRequest) (chance : Chance) {j : Journal}
    (hj : j = (request.draft chance.transfer (chance.clock 0)).toJournal ⟨s.journal + 1⟩) :
    (Ledger.calm t s es).run (transferNow rules request chance) =
      (Ledger.calm t s es).provided (t.granted rules.eligible request chance.transfer
        (t.content.parties request.sender request.receiver)) fun found =>
          (.ok (j.completed (chance.clock 3)),
            .calm ((t.booked s j found.1 found.2 (chance.clock 1)
              (chance.clock 2)).withNewJournal (j.completed (chance.clock 3)))
            { s with journal := s.journal + 1, posting := s.posting + 2 }
            (es ++ [.accepted (j.completed (chance.clock 3))])) := by
  have hsender : request.sender = j.sender := by rw [hj]; rfl
  have hreceiver : request.receiver = j.receiver := by rw [hj]; rfl
  rw [run_calm]
  unfold transferNow Tables.granted
  rw [alone_check, Ledger.provided_bind]
  refine Ledger.provided_congr fun _ hv => ?_
  have hne : j.sender ≠ j.receiver := by
    rw [← hsender, ← hreceiver]
    exact (TransferRequest.check_eq_ok_iff.1 (mapError_eq_ok_iff.1 hv)).2.1
  rw [show UnitOfWork.empty = holding [] from rfl, alone_lockParties, Ledger.provided_bind]
  refine Ledger.provided_congr fun rows hrows => ?_
  have hp := Tables.content_parties_eq_ok_iff.1 hrows
  obtain ⟨hs, hr⟩ := owns_heldBy [] request.sender request.receiver
  rw [hsender, hreceiver] at hs hr hp
  dsimp only
  rw [alone_compute, Ledger.provided_bind]
  refine Ledger.provided_congr fun balances _ => ?_
  rw [alone_insertJournal rfl, Ledger.provided_bind, ← hj]
  refine Ledger.provided_congr fun _ hclaim => ?_
  have hn : t.journal? j.transfer = none := by rw [hj]; exact Tables.claim_eq_ok_iff.1 hclaim
  have htransfer : (request.draft chance.transfer (chance.clock 0)).transfer = j.transfer := by
    rw [hj]; rfl
  rw [hsender, hreceiver, htransfer]
  refine (alone_book ?_ ?_ rfl rfl hne hp.payer_row hp.payee_row ..).trans ?_
  · exact hs
  · exact hr
  refine alone_conclude ?_ ?_ ?_
  · exact Or.inl (List.mem_singleton_self _)
  · refine UnitOfWork.conflict?_eq_none t rfl rfl fun x hx => ?_
    rcases List.mem_singleton.1 hx with rfl
    exact hn
  · show UnitOfWork.applyTo { holding _ with
      accounts := _, journals := (Table.empty.put j.transfer j).put j.transfer _,
      newJournals := _, postings := _ } t = _
    rw [Table.put_put]
    exact UnitOfWork.applyTo_newLegs t (j := j.completed (chance.clock 3)) _ _ _ _ _ hne

theorem run_updateLimits {number : AccountNumber}
    (hk : ∀ limit, t.limit? number = some limit → limit.account = number) (maxPos maxNeg : Decimal)
    (now : Timestamp) :
    (Ledger.calm t s es).run (updateLimits number maxPos maxNeg now) =
      (Ledger.calm t s es).provided (t.content.updateLimits number maxPos maxNeg now) fun found =>
        (.ok found.1, .calm (t.withLimit found.1) s es) := by
  rw [run_calm]
  unfold updateLimits Content.updateLimits
  by_cases hn : maxPos < 0 ∨ maxNeg < 0
  · rw [if_pos hn, if_pos hn]
    exact alone_fail _
  rw [if_neg hn, if_neg hn]
  rw [show UnitOfWork.empty = holding [] from rfl]
  refine (alone_lockAccount number _).trans ?_
  refine Eq.trans ?_ (Ledger.provided_bind ..).symm
  refine Ledger.provided_congr fun row hrow => ?_
  have hlimit := hk row.2 (Tables.content_row_eq_ok_iff.1 hrow).2
  dsimp only
  split
  · exact alone_fail _
  · rw [alone_updateLimit, alone_commit]
    · refine (alone_done _).trans (congrArg (fun t => (_, Ledger.calm t _ _)) ?_)
      exact UnitOfWork.applyTo_limit ..
    · exact UnitOfWork.conflict?_eq_none t rfl rfl (by simp [holding, UnitOfWork.empty])
    · refine Or.inr ?_
      show RowKey.account row.2.account ∈ List.insert (.account number) []
      rw [hlimit]
      exact List.mem_insert_self

theorem run_insertAccount (limits : DefaultLimits) {number : AccountNumber}
    (howned : (t.limit? number).isSome → (t.account? number).isSome) (entity : EntityId)
    (opened limited : Timestamp) :
    (Ledger.calm t s es).run (insertAccount limits number entity opened limited) =
      (Ledger.calm t s es).provided (t.admits number entity) fun _ =>
        (.ok (.opened ⟨s.account + 1⟩ number entity opened),
          .calm (t.withAccount (.opened ⟨s.account + 1⟩ number entity opened)
            ⟨number, limits.maxPos, limits.maxNeg, limited⟩) { s with account := s.account + 1 }
            es) := by
  rw [run_calm]
  unfold insertAccount
  rw [alone_insertAccount]
  refine Ledger.provided_congr fun _ hadmits => ?_
  obtain ⟨hnumber, hentity⟩ := Tables.admits_eq_ok_iff.1 hadmits
  have hlimit : t.limit? number = none := by
    cases hl : t.limit? number with
    | none => rfl
    | some limit => simp [hl, hnumber] at howned
  refine (alone_insertLimit rfl hlimit _).trans ((alone_commit ?_ _).trans ?_)
  · exact UnitOfWork.conflict?_account_eq_none t (a := .opened ⟨s.account + 1⟩ number entity opened)
      hnumber hentity hlimit
  · refine (alone_done _).trans (congrArg (fun t => (_, Ledger.calm t _ _)) ?_)
    exact UnitOfWork.applyTo_account t (.opened ⟨s.account + 1⟩ number entity opened) _

/-! ### Another attempt -/

/-- A program goes on after a refusal where the refused part has left the ledger. -/
theorem advance_recover {f : Failure LedgerError → Program α} :
    ∀ {p : Program α} {u : UnitOfWork} {l : Ledger},
      (∀ a, (Worker.advance p u l).1.outcome = .ok a →
        Worker.advance (p.recover f) u l = Worker.advance p u l) ∧
      (∀ e, (Worker.advance p u l).1.outcome = .error (.refused e) →
        Worker.advance (p.recover f) u l =
          Worker.advance (f (.refused e)) .empty (Worker.advance p u l).2)
  | done a, u, l => ⟨fun _ _ => rfl, nofun⟩
  | fail e, u, l => by
    refine ⟨nofun, fun e' he => ?_⟩
    cases he
    rfl
  | call c next, u, l => by
    cases hc : c.perform l u with
    | none => simp [Worker.advance, hc, Worker.outcome]
    | some answer =>
      simp only [recover, Worker.advance, hc]
      exact advance_recover

theorem run_recover_of_ok {l l' : Ledger} {p : Program α} {a : α} (h : l.run p = (.ok a, l'))
    (f : Failure LedgerError → Program α) : l.run (p.recover f) = (.ok a, l') := by
  rw [← h]
  unfold Ledger.run
  rw [advance_recover.1 a (congrArg Prod.fst h)]

theorem run_recover_of_refused {l l' : Ledger} {p : Program α} {e : LedgerError}
    (h : l.run p = (.error (.refused e), l')) (f : Failure LedgerError → Program α) :
    l.run (p.recover f) = l'.run (f (.refused e)) := by
  have hl : (Worker.advance p .empty l).2 = l' := congrArg Prod.snd h
  unfold Ledger.run
  rw [advance_recover.2 e (congrArg Prod.fst h), hl]

theorem run_openAccount (limits : DefaultLimits)
    (howned : ∀ number, (t.limit? number).isSome → (t.account? number).isSome) (entity : EntityId)
    (chance : Chance) :
    (Ledger.calm t s es).run (openAccount limits entity chance) =
      (Ledger.calm t s es).provided (t.drawn entity chance (numberAttempts - 1) 0) fun attempt =>
        let number := .generate (chance.numbers attempt)
        let a := .opened ⟨s.account + 1⟩ number entity (chance.clock (2 * attempt))
        (.ok a, .calm (t.withAccount a
          ⟨number, limits.maxPos, limits.maxNeg, chance.clock (2 * attempt + 1)⟩)
          { s with account := s.account + 1 } es) := by
  unfold openAccount
  generalize numberAttempts - 1 = left
  generalize 0 = attempt
  induction left generalizing attempt with
  | zero =>
    unfold tryNumbers Tables.drawn
    dsimp only
    rw [run_insertAccount limits (howned _), Ledger.provided_bind]
    rfl
  | succ left ih =>
    have hrun : (Ledger.calm t s es).run _ = _ := run_insertAccount limits
      (howned (.generate (chance.numbers attempt))) entity (chance.clock (2 * attempt))
      (chance.clock (2 * attempt + 1))
    unfold tryNumbers Tables.drawn
    dsimp only
    cases hadmits : t.admits (.generate (chance.numbers attempt)) entity with
    | ok _ =>
      rw [hadmits] at hrun
      exact run_recover_of_ok hrun _
    | error e =>
      rw [hadmits] at hrun
      obtain ⟨e, rfl⟩ := Tables.admits_refused hadmits
      refine (run_recover_of_refused hrun _).trans ?_
      dsimp only
      split
      · exact ih _
      · exact alone_fail _

end Program

/-! ## Failures -/

namespace Ledger

/-- If this is how an operation on `l` ends, a failure has changed nothing. -/
def KeptBy {α : Type} (l : Ledger) (outcome : Except (Failure LedgerError) α × Ledger) : Prop :=
  ∀ f, outcome.1 = .error f → outcome.2 = l

theorem keptBy_ok {α : Type} (l l' : Ledger) (a : α) : l.KeptBy (.ok a, l') := nofun

theorem keptBy_provided {α β : Type} {l : Ledger} {found : Except (Failure LedgerError) β}
    {next : β → Except (Failure LedgerError) α × Ledger} (h : ∀ b, l.KeptBy (next b)) :
    l.KeptBy (l.provided found next) := by
  cases found with
  | ok b => exact h b
  | error e => exact fun _ _ => rfl

variable {limits : DefaultLimits} {l : Ledger}

/-- A ledger that can come about is calm when nothing is armed. -/
theorem Reachable.eq_calm (h : l.Reachable limits) (ha : l.store.armed = []) :
    ∃ t s es, l = .calm t s es :=
  ⟨_, _, _, Calm.eq ⟨h.atRest.held, ha⟩⟩

/-- An operation that fails has changed nothing at all, not even a counter, unless a failure was
    armed. -/
theorem Reachable.eq_of_failed (h : l.Reachable limits) (ha : l.store.armed = []) (op : Operation) :
    l.KeptBy (l.run (op.program limits)) := by
  have howned := h.withinLimits.isSome_account
  obtain ⟨t, s, es, rfl⟩ := h.eq_calm ha
  have hw : t.WellFormed := h.atRest.wellFormed
  change ∀ n, (t.limit? n).isSome → (t.account? n).isSome at howned
  have hclose : ∀ x reason action canceller now,
      (calm t s es).KeptBy ((calm t s es).run (Program.close x reason action canceller now)) := by
    intro x reason action canceller now
    rw [Program.run_close (hw.journal x)]
    exact keptBy_provided fun _ => keptBy_ok _ _ _
  cases op with
  | openAccount entity chance =>
    rw [Operation.program, Program.run_openAccount limits howned]
    exact keptBy_provided fun _ => keptBy_ok _ _ _
  | updateLimits number maxPos maxNeg now =>
    rw [Operation.program, Program.run_updateLimits (hw.limit number)]
    exact keptBy_provided fun _ => keptBy_ok _ _ _
  | propose eligible request chance =>
    rw [Operation.program, Program.run_propose _ _ _ rfl]
    exact keptBy_provided fun _ => keptBy_ok _ _ _
  | accept x clock =>
    rw [Operation.program,
      Program.run_accept (hw.journal x) fun j hj => (hw.valid x j hj).parties]
    refine keptBy_provided fun j => keptBy_provided fun rows => ?_
    split
    · exact keptBy_ok _ _ _
    · exact keptBy_ok _ _ _
    · exact fun _ _ => rfl
  | reject x reason now => exact hclose x reason .reject .counterparty now
  | cancel x reason now => exact hclose x reason .cancel .initiator now
  | transferNow eligible request chance =>
    rw [Operation.program, Program.run_transferNow _ _ _ rfl]
    exact keptBy_provided fun _ => keptBy_ok _ _ _

end Ledger
end CreditCircle

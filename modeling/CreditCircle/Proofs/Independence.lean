/-
  Operations that have nothing to do with each other.

  * `Operation.timed`: the same operation at another time; `Operation.said`, `Content.undated`: what
    it results in and what the books say, apart from times.
  * `Content.AgreeOn`: books that say the same about some rows.
  * `Content.WorksOn`: the rows that an operation takes.
  * `WorksOn.alike`, `WorksOn.frame`: what it is meant to come to depends on these rows, and it
    changes no others; `Reachable.run_alike`, `run_frame`: nor does it when it is carried out.
  * `Reachable.independent_commute`: in either order two operations on different rows come to the
    same.
-/
import CreditCircle.Proofs.FastPath
import CreditCircle.Proofs.Serial

namespace CreditCircle

/-! ## Times -/

/-- Limits without the time of their last change. -/
def BalanceLimit.undated (limit : BalanceLimit) : BalanceLimit :=
  { limit with updatedAt := .ofMillis 0 }

/-- A journal without the times of its changes; whether it has been completed stays. -/
def Journal.undated (j : Journal) : Journal :=
  { j with
    updatedAt := .ofMillis 0
    completedAt := j.completedAt.map fun _ => .ofMillis 0 }

/-- What the books say, apart from times. -/
def Content.undated (b : Content) : Content where
  account := b.account
  limit n := (b.limit n).map BalanceLimit.undated
  journal x := (b.journal x).map Journal.undated
  legs x := (b.legs x).map Posting.undated
  booked := b.booked.map Posting.undated

namespace Operation

/-- The same operation at another time. -/
def timed (clock : Clock) : Operation → Operation
  | openAccount entity chance => openAccount entity { chance with clock }
  | updateLimits number maxPos maxNeg _ => updateLimits number maxPos maxNeg (clock 0)
  | propose eligible request chance => propose eligible request { chance with clock }
  | accept transfer _ => accept transfer clock
  | reject transfer reason _ => reject transfer reason (clock 0)
  | cancel transfer reason _ => cancel transfer reason (clock 0)
  | transferNow eligible request chance => transferNow eligible request { chance with clock }

/-- What operations result in, whichever operation it is. -/
inductive Said
  | account (a : Account)
  | limits (limit : BalanceLimit)
  | transfer (j : Journal)

/-- What an operation results in, apart from keys and times. -/
def said : (op : Operation) → op.Result → Said
  | openAccount .., a => .account { a with id := ⟨0⟩, createdAt := .ofMillis 0 }
  | updateLimits .., limit => .limits limit.undated
  | propose .., j | accept .., j | reject .., j | cancel .., j | transferNow .., j =>
    .transfer j.unkeyed.undated

theorem exists_timed (op : Operation) (clock : Clock) :
    ∃ clock', (op.timed clock).timed clock' = op := by
  cases op with
  | openAccount entity chance => exact ⟨chance.clock, rfl⟩
  | updateLimits number maxPos maxNeg now => exact ⟨fun _ => now, rfl⟩
  | propose eligible request chance => exact ⟨chance.clock, rfl⟩
  | accept transfer clock => exact ⟨clock, rfl⟩
  | reject transfer reason now => exact ⟨fun _ => now, rfl⟩
  | cancel transfer reason now => exact ⟨fun _ => now, rfl⟩
  | transferNow eligible request chance => exact ⟨chance.clock, rfl⟩

theorem said_unkeyed (op : Operation) (r : op.Result) : op.said (op.unkeyed r) = op.said r := by
  cases op <;> rfl

end Operation

/-! ## Agreement on rows -/

namespace Content

/-- The books say the same about the rows that satisfy `P`. -/
structure AgreeOn (P : RowKey → Prop) (b c : Content) : Prop where
  account : ∀ n, P (.account n) → b.account n = c.account n
  limit : ∀ n, P (.account n) → b.limit n = c.limit n
  journal : ∀ x, P (.journal x) → b.journal x = c.journal x
  legs : ∀ x, P (.journal x) → b.legs x = c.legs x

variable {P Q : RowKey → Prop} {b c d : Content}

namespace AgreeOn

theorem refl (P : RowKey → Prop) (b : Content) : b.AgreeOn P b :=
  ⟨fun _ _ => rfl, fun _ _ => rfl, fun _ _ => rfl, fun _ _ => rfl⟩

theorem symm (h : b.AgreeOn P c) : c.AgreeOn P b :=
  ⟨fun n hn => (h.account n hn).symm, fun n hn => (h.limit n hn).symm,
    fun x hx => (h.journal x hx).symm, fun x hx => (h.legs x hx).symm⟩

theorem trans (h : b.AgreeOn P c) (h' : c.AgreeOn P d) : b.AgreeOn P d :=
  ⟨fun n hn => (h.account n hn).trans (h'.account n hn),
    fun n hn => (h.limit n hn).trans (h'.limit n hn),
    fun x hx => (h.journal x hx).trans (h'.journal x hx),
    fun x hx => (h.legs x hx).trans (h'.legs x hx)⟩

theorem mono (h : b.AgreeOn P c) (hQ : ∀ key, Q key → P key) : b.AgreeOn Q c :=
  ⟨fun n hn => h.account n (hQ _ hn), fun n hn => h.limit n (hQ _ hn),
    fun x hx => h.journal x (hQ _ hx), fun x hx => h.legs x (hQ _ hx)⟩

theorem undated (h : b.AgreeOn P c) : b.undated.AgreeOn P c.undated :=
  ⟨h.account, fun n hn => congrArg (Option.map _) (h.limit n hn),
    fun x hx => congrArg (Option.map _) (h.journal x hx),
    fun x hx => congrArg (List.map _) (h.legs x hx)⟩

/-- Books that agree on the rows that satisfy `P` and on those that satisfy `Q`. -/
theorem or (h : b.AgreeOn P c) (h' : b.AgreeOn Q c) : b.AgreeOn (fun key => P key ∨ Q key) c :=
  ⟨fun n hn => hn.elim (h.account n) (h'.account n), fun n hn => hn.elim (h.limit n) (h'.limit n),
    fun x hx => hx.elim (h.journal x) (h'.journal x), fun x hx => hx.elim (h.legs x) (h'.legs x)⟩

/-! ### The same change here and there -/

section
variable (h : b.undated.AgreeOn P c.undated)
include h

theorem relimit {limit limit' : BalanceLimit} (hl : limit.undated = limit'.undated) :
    (b.relimit limit).undated.AgreeOn P (c.relimit limit').undated := by
  have hn : limit.account = limit'.account := by
    show limit.undated.account = limit'.undated.account
    rw [hl]
  refine ⟨h.account, fun n hP => ?_, h.journal, h.legs⟩
  show (Function.update b.limit _ _ n).map _ = (Function.update c.limit _ _ n).map _
  rw [Function.update_apply, Function.update_apply, hn]
  split
  · exact congrArg some hl
  · exact h.limit n hP

theorem record {j k : Journal} (hj : j.undated = k.undated) :
    (b.record j).undated.AgreeOn P (c.record k).undated := by
  have hx : j.transfer = k.transfer := by
    show j.undated.transfer = k.undated.transfer
    rw [hj]
  refine ⟨h.account, h.limit, fun x hP => ?_, h.legs⟩
  show (Function.update b.journal _ _ x).map _ = (Function.update c.journal _ _ x).map _
  rw [Function.update_apply, Function.update_apply, hx]
  split
  · exact congrArg some hj
  · exact h.journal x hP

theorem book (j : Journal) (payer payee : Account)
    (debitTime creditTime debitTime' creditTime' : Timestamp) :
    (b.book j payer payee debitTime creditTime).undated.AgreeOn P
      (c.book j payer payee debitTime' creditTime').undated := by
  refine ⟨fun n hP => ?_, h.limit, h.journal, fun x hP => ?_⟩
  · show Function.update (Function.update b.account _ _) _ _ n =
      Function.update (Function.update c.account _ _) _ _ n
    simp only [Function.update_apply]
    split
    · rfl
    · split
      · rfl
      · exact h.account n hP
  · show (Function.update b.legs _ _ x).map _ = (Function.update c.legs _ _ x).map _
    rw [Function.update_apply, Function.update_apply]
    split
    · rfl
    · exact h.legs x hP

end

end AgreeOn

/-! ### What a change leaves alone -/

theorem agreeOn_relimit {limit : BalanceLimit} (h : ¬ P (.account limit.account)) :
    b.AgreeOn P (b.relimit limit) := by
  refine ⟨fun _ _ => rfl, fun n hP => ?_, fun _ _ => rfl, fun _ _ => rfl⟩
  have hne : n ≠ limit.account := fun he => h (he ▸ hP)
  exact (Function.update_of_ne hne _ _).symm

theorem agreeOn_record {j : Journal} (h : ¬ P (.journal j.transfer)) :
    b.AgreeOn P (b.record j) := by
  refine ⟨fun _ _ => rfl, fun _ _ => rfl, fun x hP => ?_, fun _ _ => rfl⟩
  have hne : x ≠ j.transfer := fun he => h (he ▸ hP)
  exact (Function.update_of_ne hne _ _).symm

theorem agreeOn_book {j : Journal} (hx : ¬ P (.journal j.transfer)) (hs : ¬ P (.account j.sender))
    (hr : ¬ P (.account j.receiver)) (payer payee : Account) (debitTime creditTime : Timestamp) :
    b.AgreeOn P (b.book j payer payee debitTime creditTime) := by
  refine ⟨fun n hP => ?_, fun _ _ => rfl, fun _ _ => rfl, fun x hP => ?_⟩
  · have hne : n ≠ j.sender := fun he => hs (he ▸ hP)
    have hne' : n ≠ j.receiver := fun he => hr (he ▸ hP)
    exact ((Function.update_of_ne hne' _ _).trans (Function.update_of_ne hne _ _)).symm
  · have hne : x ≠ j.transfer := fun he => hx (he ▸ hP)
    exact (Function.update_of_ne hne _ _).symm

/-! ## What an operation works on -/

/-- The operation resolves a transfer or changes limits, and it takes the rows `keys`: the transfer,
    with both of its parties if it may be booked; or the account. -/
inductive WorksOn (b : Content) : Operation → List RowKey → Prop
  | updateLimits (number : AccountNumber) (maxPos maxNeg : Decimal) (now : Timestamp) :
      WorksOn b (.updateLimits number maxPos maxNeg now) [.account number]
  | accept {transfer : TransferId} {j : Journal} (found : b.journal transfer = some j)
      (clock : Clock) : WorksOn b (.accept transfer clock)
        [.journal transfer, .account j.sender, .account j.receiver]
  | reject (transfer : TransferId) (reason : String) (now : Timestamp) :
      WorksOn b (.reject transfer reason now) [.journal transfer]
  | cancel (transfer : TransferId) (reason : String) (now : Timestamp) :
      WorksOn b (.cancel transfer reason now) [.journal transfer]

/-- Rows stand under their own keys. -/
structure Named (b : Content) : Prop where
  limit : ∀ n limit, b.limit n = some limit → limit.account = n
  journal : ∀ x j, b.journal x = some j → j.transfer = x

/-- Two computations come to the same on the rows that satisfy `P`, apart from times: both succeed
    with results that say the same, or both fail for the same reason. -/
inductive SameEffect (P : RowKey → Prop) {α β σ : Type} (f : α → σ) (g : β → σ) :
    Except (Failure LedgerError) (α × Content) → Except (Failure LedgerError) (β × Content) → Prop
  | ok {r : α} {r' : β} {b c : Content} (result : f r = g r')
      (rows : b.undated.AgreeOn P c.undated) : SameEffect P f g (.ok (r, b)) (.ok (r', c))
  | error (e : Failure LedgerError) : SameEffect P f g (.error e) (.error e)

theorem SameEffect.map {α β σ τ : Type} {f : α → σ} {g : β → σ}
    {x : Except (Failure LedgerError) (α × Content)}
    {y : Except (Failure LedgerError) (β × Content)} (h : SameEffect P f g x y) (m : σ → τ) :
    SameEffect P (fun r => m (f r)) (fun r => m (g r)) x y := by
  cases h with
  | ok result rows => exact .ok (congrArg m result) rows
  | error e => exact .error e

section
variable (h : b.AgreeOn P c)
include h

theorem AgreeOn.row {n : AccountNumber} (hn : P (.account n)) : b.row n = c.row n := by
  unfold Content.row
  rw [h.account n hn, h.limit n hn]

theorem AgreeOn.parties {sender receiver : AccountNumber} (hs : P (.account sender))
    (hr : P (.account receiver)) : b.parties sender receiver = c.parties sender receiver := by
  unfold Content.parties
  rw [h.row hs, h.row hr]

theorem AgreeOn.pending {x : TransferId} (hx : P (.journal x)) (action : Action) :
    b.pending x action = c.pending x action := by
  unfold Content.pending
  rw [h.journal x hx]

end

theorem journal_of_pending {x : TransferId} {action : Action} {j : Journal}
    (h : b.pending x action = .ok j) : b.journal x = some j := by
  simp only [Content.pending, bind_eq_ok_iff, need_eq_ok_iff] at h
  obtain ⟨k, hk, h⟩ := h
  split at h
  · cases h
  · cases h
    exact hk

/-- What becomes of a pending transfer whose acceptance has found these rows of its parties. -/
def settle (b : Content) (j : Journal) (rows : (Account × BalanceLimit) × (Account × BalanceLimit))
    (clock : Clock) : Except (Failure LedgerError) (Journal × Content) :=
  match Program.newBalances rows.1 rows.2 j.amount with
  | .ok balances =>
    .ok (j.completed (clock 0), (b.book j { rows.1.1 with balance := balances.1 }
      { rows.2.1 with balance := balances.2 } (clock 1) (clock 2)).record (j.completed (clock 0)))
  | .error (.refused (.limitExceeded side _ _)) =>
    .ok (j.cancelled (Program.systemReason side) (clock 0),
      b.record (j.cancelled (Program.systemReason side) (clock 0)))
  | .error failure => .error failure

theorem accept_eq (b : Content) (transfer : TransferId) (clock : Clock) :
    b.accept transfer clock = b.pending transfer .accept >>= fun j =>
      b.parties j.sender j.receiver >>= fun rows => b.settle j rows clock := rfl

/-! ### The same rows, the same effect -/

section
variable (h : b.AgreeOn P c)
include h

theorem AgreeOn.updateLimits {n : AccountNumber} (hn : P (.account n)) (maxPos maxNeg : Decimal)
    (now now' : Timestamp) :
    SameEffect P BalanceLimit.undated BalanceLimit.undated (b.updateLimits n maxPos maxNeg now)
      (c.updateLimits n maxPos maxNeg now') := by
  unfold Content.updateLimits
  rw [h.row hn]
  split
  · exact .error _
  · cases c.row n with
    | error e => exact .error e
    | ok row =>
      obtain ⟨account, limit⟩ := row
      -- The time of the change has no part in what the limits allow.
      let limits := fun time => { limit with maxPos, maxNeg, updatedAt := time }
      show SameEffect P _ _ (if (limits now).IsExceededBy account.balance then _ else _)
        (if (limits now').IsExceededBy account.balance then _ else _)
      by_cases hx : (limits now).IsExceededBy account.balance
      · rw [if_pos hx, if_pos (show (limits now').IsExceededBy account.balance from hx)]
        exact .error _
      · rw [if_neg hx, if_neg (show ¬ (limits now').IsExceededBy account.balance from hx)]
        exact .ok rfl (h.undated.relimit rfl)

theorem AgreeOn.close {x : TransferId} (hx : P (.journal x)) (reason : String) (action : Action)
    (now now' : Timestamp) :
    SameEffect P Journal.undated Journal.undated (b.close x reason action now)
      (c.close x reason action now') := by
  unfold Content.close
  rw [h.pending hx]
  cases c.pending x action with
  | error e => exact .error e
  | ok j => exact .ok rfl (h.undated.record rfl)

theorem AgreeOn.settle (j : Journal) (rows : (Account × BalanceLimit) × (Account × BalanceLimit))
    (clock clock' : Clock) :
    SameEffect P Journal.undated Journal.undated (b.settle j rows clock)
      (c.settle j rows clock') := by
  unfold Content.settle
  cases Program.newBalances rows.1 rows.2 j.amount with
  | ok balances =>
    refine .ok rfl (AgreeOn.record ?_ rfl)
    exact h.undated.book j _ _ (clock 1) (clock 2) (clock' 1) (clock' 2)
  | error failure =>
    cases failure with
    | refused e =>
      cases e with
      | limitExceeded side number room => exact .ok rfl (h.undated.record rfl)
      | _ => exact .error _
    | _ => exact .error _

theorem AgreeOn.accept {x : TransferId} {j : Journal} (hj : b.journal x = some j)
    (hx : P (.journal x)) (hs : P (.account j.sender)) (hr : P (.account j.receiver))
    (clock clock' : Clock) :
    SameEffect P Journal.undated Journal.undated (b.accept x clock) (c.accept x clock') := by
  rw [accept_eq, accept_eq, ← h.pending hx]
  cases hp : b.pending x .accept with
  | error e => exact .error e
  | ok k =>
    obtain rfl : k = j := Option.some.inj ((journal_of_pending hp).symm.trans hj)
    show SameEffect P _ _ (b.parties k.sender k.receiver >>= _)
      (c.parties k.sender k.receiver >>= _)
    rw [h.parties hs hr]
    cases c.parties k.sender k.receiver with
    | error e => exact .error e
    | ok rows => exact h.settle k rows clock clock'

end

/-! ### Other rows stay -/

theorem updateLimits_ok {n : AccountNumber} {maxPos maxNeg : Decimal} {now : Timestamp}
    {r : BalanceLimit × Content} (h : b.updateLimits n maxPos maxNeg now = .ok r) :
    ∃ limit, b.limit n = some limit ∧
      r.2 = b.relimit { limit with maxPos, maxNeg, updatedAt := now } := by
  unfold Content.updateLimits at h
  split at h
  · cases h
  · simp only [bind_eq_ok_iff] at h
    obtain ⟨row, hrow, h⟩ := h
    have hlimit : b.limit n = some row.2 := by
      simp only [Content.row, bind_eq_ok_iff, need_eq_ok_iff] at hrow
      obtain ⟨account, -, limit, hl, hrow⟩ := hrow
      cases hrow
      exact hl
    refine ⟨row.2, hlimit, ?_⟩
    split at h
    · cases h
    · cases h
      rfl

theorem close_ok {x : TransferId} {reason : String} {action : Action} {now : Timestamp}
    {r : Journal × Content} (h : b.close x reason action now = .ok r) :
    ∃ j, b.journal x = some j ∧ r.2 = b.record (j.cancelled reason now) := by
  obtain ⟨j, hj, h⟩ := bind_eq_ok_iff.1 h
  cases h
  exact ⟨j, journal_of_pending hj, rfl⟩

theorem settle_agreeOn {j : Journal} {rows : (Account × BalanceLimit) × (Account × BalanceLimit)}
    {clock : Clock} {r : Journal × Content} (h : b.settle j rows clock = .ok r)
    (hx : ¬ P (.journal j.transfer)) (hs : ¬ P (.account j.sender))
    (hr : ¬ P (.account j.receiver)) : b.AgreeOn P r.2 := by
  unfold Content.settle at h
  split at h
  · cases h
    exact (agreeOn_book hx hs hr ..).trans (agreeOn_record hx)
  · cases h
    exact agreeOn_record hx
  · cases h

namespace WorksOn

variable {op : Operation} {keys : List RowKey}

theorem locking (hw : b.WorksOn op keys) : op.Locking := by
  cases hw <;> exact trivial

theorem drawn (hw : b.WorksOn op keys) : op.drawn = none := by
  cases hw <;> rfl

theorem timed (hw : b.WorksOn op keys) (clock : Clock) : b.WorksOn (op.timed clock) keys := by
  cases hw with
  | updateLimits number maxPos maxNeg now => exact .updateLimits number maxPos maxNeg _
  | accept found => exact .accept found clock
  | reject transfer reason now => exact .reject transfer reason _
  | cancel transfer reason now => exact .cancel transfer reason _

/-- An operation works on the same rows in books that agree on these. -/
theorem congr (hw : b.WorksOn op keys) (h : b.AgreeOn P c) (hP : ∀ key ∈ keys, P key) :
    c.WorksOn op keys := by
  cases hw with
  | updateLimits number maxPos maxNeg now => exact .updateLimits number maxPos maxNeg now
  | @accept transfer j found clock =>
    exact .accept ((h.journal transfer (hP _ (by simp))).symm.trans found) clock
  | reject transfer reason now => exact .reject transfer reason now
  | cancel transfer reason now => exact .cancel transfer reason now

/-- What an operation comes to depends on the rows that it works on, and on no others. -/
theorem alike (hw : b.WorksOn op keys) (hP : ∀ key ∈ keys, P key) (h : b.AgreeOn P c)
    (clock : Clock) : SameEffect P op.said (op.timed clock).said (op.effect b hw.locking)
      ((op.timed clock).effect c (hw.timed clock).locking) := by
  cases hw with
  | updateLimits number maxPos maxNeg now =>
    exact (h.updateLimits (hP (.account number) (by simp)) maxPos maxNeg now (clock 0)).map
      Operation.Said.limits
  | @accept transfer j found clock' =>
    refine (h.accept found ?_ ?_ ?_ clock' clock).map fun j => Operation.Said.transfer j.unkeyed
    · exact hP (.journal transfer) (by simp)
    · exact hP (.account j.sender) (by simp)
    · exact hP (.account j.receiver) (by simp)
  | reject transfer reason now =>
    exact (h.close (hP (.journal transfer) (by simp)) reason .reject now (clock 0)).map
      fun j => Operation.Said.transfer j.unkeyed
  | cancel transfer reason now =>
    exact (h.close (hP (.journal transfer) (by simp)) reason .cancel now (clock 0)).map
      fun j => Operation.Said.transfer j.unkeyed

/-- An operation changes no rows but those that it works on. -/
theorem frame (hb : b.Named) (hw : b.WorksOn op keys) {r : op.Result}
    (h : op.effect b hw.locking = .ok (r, c)) : b.AgreeOn (· ∉ keys) c := by
  cases hw with
  | updateLimits number maxPos maxNeg now =>
    obtain ⟨limit, hl, rfl⟩ := updateLimits_ok h
    refine agreeOn_relimit ?_
    simp [hb.limit number limit hl]
  | @accept transfer j found clock =>
    obtain ⟨k, hk, hfound⟩ := bind_eq_ok_iff.1 ((accept_eq b transfer clock).symm.trans h)
    obtain ⟨rows, -, hsettle⟩ := bind_eq_ok_iff.1 hfound
    obtain rfl : k = j := Option.some.inj ((journal_of_pending hk).symm.trans found)
    refine settle_agreeOn hsettle ?_ ?_ ?_ <;> simp [hb.journal transfer k found]
  | reject transfer reason now =>
    obtain ⟨j, hj, rfl⟩ := close_ok h
    refine agreeOn_record ?_
    simp [Journal.cancelled, hb.journal transfer j hj]
  | cancel transfer reason now =>
    obtain ⟨j, hj, rfl⟩ := close_ok h
    refine agreeOn_record ?_
    simp [Journal.cancelled, hb.journal transfer j hj]

end WorksOn
end Content

/-! ## Two operations, one after the other -/

theorem Tables.WellFormed.named {t : Tables} (h : t.WellFormed) : t.content.Named where
  limit := h.limit
  journal x j hj := by
    obtain ⟨k, hk, rfl⟩ := Option.map_eq_some_iff.1 hj
    exact h.journal x k hk

/-- Outcomes that agree with computations that come to the same. -/
theorem Purpose.Agrees.said {α β σ : Type} {v : Purpose α} {w : Purpose β} {s s' t t' : Tables}
    {o : Except (Failure LedgerError) α} {o' : Except (Failure LedgerError) β} {f : α → σ}
    {g : β → σ} {P : RowKey → Prop} (h : v.Agrees s s' o) (h' : w.Agrees t t' o')
    (heffect : Content.SameEffect P f g (v.effect s.content) (w.effect t.content))
    (hst : s.content.AgreeOn P t.content) (hf : ∀ r, f (v.unkeyed r) = f r)
    (hg : ∀ r, g (w.unkeyed r) = g r) :
    o.map f = o'.map g ∧ s'.content.undated.AgreeOn P t'.content.undated := by
  cases o with
  | ok r =>
    rw [show v.effect s.content = _ from h] at heffect
    cases o' with
    | ok r' =>
      rw [show w.effect t.content = _ from h'] at heffect
      obtain ⟨result, rows⟩ := heffect
      rw [hf, hg] at result
      exact ⟨congrArg Except.ok result, rows⟩
    | error e =>
      rw [h'.1] at heffect
      cases heffect
  | error e =>
    rw [h.1] at heffect
    cases o' with
    | ok r' =>
      rw [show w.effect t.content = _ from h'] at heffect
      cases heffect
    | error e' =>
      rw [h'.1] at heffect
      cases heffect
      rw [h.2, h'.2]
      exact ⟨rfl, hst.undated⟩

/-- What a ledger says, apart from keys and times. -/
def Ledger.books (l : Ledger) : Content := l.tables.content.undated

namespace Ledger.Reachable

variable {limits : DefaultLimits} {l : Ledger} (h : l.Reachable limits) (ha : l.store.armed = [])
  {op : Operation} {keys : List RowKey} (hw : l.tables.content.WorksOn op keys)
include h ha hw

theorem run_worksOn : Performs (op.purpose hw.locking) l (l.next limits (.operate op))
    (l.run (op.program limits)).1 :=
  h.run_performs ha hw.locking fun x hx => by rw [hw.drawn] at hx; cases hx

theorem armed_worksOn : (l.next limits (.operate op)).store.armed = [] :=
  List.eq_nil_of_subset_nil (ha ▸ (h.run_worksOn ha hw).armed)

/-- An operation that is carried out leaves all rows alone but those that it works on. -/
theorem run_frame :
    l.tables.content.AgreeOn (· ∉ keys) (l.next limits (.operate op)).tables.content := by
  have hagrees := (h.run_worksOn ha hw).agrees
  cases ho : (l.run (op.program limits)).1 with
  | ok r =>
    rw [ho] at hagrees
    exact hw.frame h.keyed.toWellFormed.named hagrees
  | error e =>
    rw [ho] at hagrees
    rw [hagrees.2]
    exact .refl _ _

/-- On ledgers that agree on the rows that it works on, an operation comes to the same, whenever it
    is carried out. -/
theorem run_alike {m : Ledger} (h' : m.Reachable limits) (ha' : m.store.armed = [])
    {P : RowKey → Prop} (hP : ∀ key ∈ keys, P key)
    (hagree : l.tables.content.AgreeOn P m.tables.content) (clock : Clock) :
    (l.run (op.program limits)).1.map op.said =
        (m.run ((op.timed clock).program limits)).1.map (op.timed clock).said ∧
      (l.next limits (.operate op)).books.AgreeOn P
        (m.next limits (.operate (op.timed clock))).books :=
  have hw' := (hw.timed clock).congr hagree hP
  (h.run_worksOn ha hw).agrees.said (h'.run_worksOn ha' hw').agrees (hw.alike hP hagree clock)
    hagree op.said_unkeyed (op.timed clock).said_unkeyed

/-- An operation that comes second comes to the same as if it had come first, and then the rows
    that the other does not work on are the same. -/
theorem second_alike {other : Operation} {keys' : List RowKey}
    (hw' : l.tables.content.WorksOn other keys') (hd : keys.Disjoint keys') (clock clock' : Clock) :
    (l.run (op.program limits)).1.map op.said =
        ((l.next limits (.operate other)).run ((op.timed clock).program limits)).1.map
          (op.timed clock).said ∧
      (l.after limits [.operate op, .operate (other.timed clock')]).books.AgreeOn (· ∉ keys')
        (l.after limits [.operate other, .operate (op.timed clock)]).books := by
  have hkeys : ∀ key ∈ keys, key ∉ keys' := fun _ hk => hd hk
  obtain ⟨houtcome, hrows⟩ := h.run_alike ha hw (h.next _) (h.armed_worksOn ha hw') hkeys
    (h.run_frame ha hw') clock
  refine ⟨houtcome, Content.AgreeOn.trans (Content.AgreeOn.symm ?_) hrows⟩
  have hstays : (l.next limits (.operate op)).tables.content.WorksOn (other.timed clock') keys' :=
    (hw'.timed clock').congr (h.run_frame ha hw) fun _ hk => hd.symm hk
  exact ((h.next _).run_frame (h.armed_worksOn ha hw) hstays).undated

/-- Two operations that work on different rows, such as the ends of two transfers between four
    accounts, or the end of a transfer and other limits for somebody else, come to the same in
    either order, and whenever they are carried out: each has the same outcome, and accounts,
    limits, transfers and the postings of each transfer are the same, apart from keys and times. -/
theorem independent_commute {other : Operation} {keys' : List RowKey}
    (hw' : l.tables.content.WorksOn other keys') (hd : keys.Disjoint keys') (clock clock' : Clock) :
    (l.run (op.program limits)).1.map op.said =
        ((l.next limits (.operate (other.timed clock'))).run
          ((op.timed clock).program limits)).1.map (op.timed clock).said ∧
      ((l.next limits (.operate op)).run (other.program limits)).1.map other.said =
        (l.run ((other.timed clock').program limits)).1.map (other.timed clock').said ∧
      (l.after limits [.operate op, .operate other]).books.AgreeOn (fun _ => True)
        (l.after limits [.operate (other.timed clock'), .operate (op.timed clock)]).books := by
  obtain ⟨back, hback⟩ := other.exists_timed clock'
  have htimed := hw'.timed clock'
  obtain ⟨houtcome, hrows⟩ := h.second_alike ha hw htimed hd clock back
  obtain ⟨houtcome', hrows'⟩ := h.second_alike ha htimed hw hd.symm back clock
  rw [hback] at hrows houtcome' hrows'
  refine ⟨houtcome, houtcome'.symm, (hrows.or hrows'.symm).mono fun key _ => ?_⟩
  -- No row is worked on by both.
  by_cases hk : key ∈ keys
  · exact Or.inl (hd hk)
  · exact Or.inr hk

end Ledger.Reachable

namespace Ledger

/-- After the short history two more members have a transfer pending, which is more than its
    receiver may still get. -/
def pairsHistory : List Step :=
  let request := TransferRequest.send (.generate 50) (.generate 60) (.ofNat 90)
  shortHistory ++ [.operate (.openAccount ⟨.ofNat 3⟩ (.nth 5)),
    .operate (.openAccount ⟨.ofNat 4⟩ (.nth 6)),
    .operate (.propose (fun _ => true) request (.nth 7)),
    .operate (.updateLimits (.generate 60) (.ofNat 80) (.ofNat 80) (.ofMillis 0))]

/-- One acceptance books, the other cancels, and they may change places. -/
theorem Reachable.independent_commute_pairs :
    let l := Ledger.empty.after .standard pairsHistory
    let accept := fun time => Operation.accept ⟨.ofNat 4⟩ fun _ => .ofMillis time
    let accept' := fun time => Operation.accept ⟨.ofNat 7⟩ fun _ => .ofMillis time
    let l₁ := l.after .standard [.operate (accept 1), .operate (accept' 2)]
    let l₂ := l.after .standard [.operate (accept' 3), .operate (accept 4)]
    l₁.tables.journals.values.map Journal.status = [.completed, .completed, .cancelled] ∧
      l₁.books.AgreeOn (fun _ => True) l₂.books := by
  intro l accept accept' l₁ l₂
  have hj : (l.tables.content.journal ⟨.ofNat 4⟩).map (fun j => (j.sender, j.receiver)) =
      some (.generate 20, .generate 10) := by decide +kernel
  have hj' : (l.tables.content.journal ⟨.ofNat 7⟩).map (fun j => (j.sender, j.receiver)) =
      some (.generate 50, .generate 60) := by decide +kernel
  obtain ⟨j, hj, hparties⟩ := Option.map_eq_some_iff.1 hj
  obtain ⟨k, hk, hparties'⟩ := Option.map_eq_some_iff.1 hj'
  rw [Prod.mk.injEq] at hparties hparties'
  have harmed : l.store.armed = [] := by decide +kernel
  refine ⟨by decide +kernel, (independent_commute (⟨pairsHistory, rfl⟩ : l.Reachable .standard)
    harmed (.accept hj fun _ => .ofMillis 1) (.accept hk fun _ => .ofMillis 2) ?_
    (fun _ => .ofMillis 4) fun _ => .ofMillis 3).2.2⟩
  rw [hparties.1, hparties.2, hparties'.1, hparties'.2]
  exact List.disjoint_left.2 (by decide)

end Ledger
end CreditCircle

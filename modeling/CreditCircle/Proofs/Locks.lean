/-
  Row locks.

  * `Crew.Exclusive`: no two workers hold the same row, and those who have ended hold none.
  * `RowKey.Before`: the order in which rows are taken, journals before accounts and accounts by
    rising number.
  * `Program.InOrder`: a program asks for rows in that order; `Operation.program_inOrder` says
    that all operations do.
  * `Reachable.crew_goes_on`: so somebody can always go on, and in the end nothing is held.
-/
import CreditCircle.Proofs.Crew
import CreditCircle.Proofs.Visits
import Mathlib.Data.Fintype.EquivFin
import Mathlib.Order.RelClasses
import Mathlib.Order.WellFounded

namespace CreditCircle

/-! ## Who holds what -/

namespace Crew

variable {ι : Type} {α : ι → Type}

/-- The rows that are held are those of the open units of work, and no two units share one. -/
structure Exclusive (c : Crew α) : Prop where
  held : ∀ k, k ∈ c.ledger.store.held ↔ ∃ i, k ∈ (c.workers i).unit.locks
  disjoint : ∀ i j k, k ∈ (c.workers i).unit.locks → k ∈ (c.workers j).unit.locks → i = j

/-- Operations that have ended hold nothing. -/
def Idle (c : Crew α) : Prop := ∀ i, (c.workers i).ended = true → (c.workers i).unit = .empty

variable [DecidableEq ι] {c c' : Crew α} {i : ι}

/-- The rows of one worker have changed from `c` to `c'`, and with them the rows that are held. -/
theorem Exclusive.change (h : c.Exclusive) (hother : ∀ j, j ≠ i → c'.workers j = c.workers j)
    (hnew : ∀ k ∈ (c'.workers i).unit.locks,
      k ∈ (c.workers i).unit.locks ∨ k ∉ c.ledger.store.held)
    (hheld : ∀ k, k ∈ c'.ledger.store.held ↔ k ∈ (c'.workers i).unit.locks ∨
      k ∈ c.ledger.store.held ∧ k ∉ (c.workers i).unit.locks) : c'.Exclusive := by
  -- What the worker has now, nobody else has.
  have hown : ∀ {j k}, j ≠ i → k ∈ (c'.workers i).unit.locks → k ∉ (c.workers j).unit.locks := by
    intro j k hj hk hk'
    rcases hnew k hk with hi | hi
    · exact hj (h.disjoint j i k hk' hi)
    · exact hi ((h.held k).2 ⟨j, hk'⟩)
  constructor
  · intro k
    rw [hheld]
    constructor
    · rintro (hk | ⟨hk, hi⟩)
      · exact ⟨i, hk⟩
      · obtain ⟨j, hj⟩ := (h.held k).1 hk
        refine ⟨j, ?_⟩
        rwa [hother j (by rintro rfl; exact hi hj)]
    · rintro ⟨j, hj⟩
      by_cases hji : j = i
      · exact Or.inl (hji ▸ hj)
      · rw [hother j hji] at hj
        exact Or.inr ⟨(h.held k).2 ⟨j, hj⟩, fun hi => hji (h.disjoint j i k hj hi)⟩
  · intro j j' k hk hk'
    by_cases hj : j = i
    · subst hj
      by_cases hj' : j' = j
      · exact hj'.symm
      · rw [hother j' hj'] at hk'
        exact absurd hk' (hown hj' hk)
    · rw [hother j hj] at hk
      by_cases hj' : j' = i
      · subst hj'
        exact absurd hk (hown hj hk')
      · rw [hother j' hj'] at hk'
        exact h.disjoint j j' k hk hk'

/-- A unit of work gives its rows back. -/
theorem Exclusive.release (h : c.Exclusive) {l : Ledger}
    (hl : l.store.held = c.ledger.store.held) (rest : Program (α i)) :
    (c.put i (⟨rest, .empty⟩,
      { l with store := l.store.release (c.workers i).unit.locks })).Exclusive := by
  refine h.change (i := i) (fun j hj => put_workers_of_ne hj _) (fun k hk => ?_) fun k => ?_
  · rw [put_workers_self] at hk
    cases hk
  · rw [put_workers_self]
    show k ∈ l.store.held.filter _ ↔ k ∈ [] ∨ _
    rw [hl]
    simp

/-- A call keeps rows apart. -/
theorem Exclusive.visit (h : c.Exclusive) {call : Call} {l : Ledger} {u : UnitOfWork}
    (hv : Visit c.ledger (c.workers i).unit call l u) (rest : Program (α i)) :
    (c.put i (⟨rest, u⟩, l)).Exclusive := by
  have hother : ∀ j, j ≠ i → (c.put i (⟨rest, u⟩, l)).workers j = c.workers j :=
    fun j hj => put_workers_of_ne hj _
  -- The rows are those that the worker had before.
  have hsame : u.locks = (c.workers i).unit.locks → l.store.held = c.ledger.store.held →
      (c.put i (⟨rest, u⟩, l)).Exclusive := by
    intro hu hl
    refine h.change hother (fun k hk => Or.inl ?_) fun k => ?_
    · rw [put_workers_self] at hk
      exact hu ▸ hk
    · rw [put_workers_self, put_ledger, hu, hl]
      have hi : k ∈ (c.workers i).unit.locks → k ∈ c.ledger.store.held :=
        fun hk => (h.held k).2 ⟨i, hk⟩
      tauto
  cases hv with
  | stage _ _ held locks => exact hsame locks held
  | take asked new free =>
    rename_i key
    refine h.change hother (fun k hk => ?_) fun k => ?_
    · rw [put_workers_self] at hk
      rcases List.mem_cons.1 hk with rfl | hk
      · exact Or.inr free
      · exact Or.inl hk
    · rw [put_workers_self]
      have hi : k ∈ (c.workers i).unit.locks → k ∈ c.ledger.store.held :=
        fun hk => (h.held k).2 ⟨i, hk⟩
      show k ∈ key :: c.ledger.store.held ↔ k ∈ key :: (c.workers i).unit.locks ∨ _
      simp only [List.mem_cons]
      tauto
  | commit _ =>
    let t := (c.workers i).unit.applyTo c.ledger.tables
    exact h.release (l := { c.ledger with store := { c.ledger.store with tables := t } }) rfl rest
  | drop _ _ held => exact h.release held rest
  | publish event => exact hsame rfl rfl

theorem Exclusive.settle {w : Worker (α i)} {l : Ledger} (h : (c.put i (w, l)).Exclusive) :
    (c.put i (w.settle l)).Exclusive := by
  cases hw : w.ended with
  | false => rwa [Worker.settle_of_not_ended hw]
  | true =>
    have hr := h.release (i := i) (l := l) rfl w.rest
    rw [put_put, put_workers_self] at hr
    rwa [Worker.settle_of_ended hw]

theorem Exclusive.step (h : c.Exclusive) (hstep : c.step i = some c') : c'.Exclusive := by
  obtain ⟨call, next, r, l, u, -, hperform, rfl⟩ := step_cases hstep
  exact (h.visit (Call.visit hperform) (next r)).settle

theorem Idle.step (h : c.Idle) (hstep : c.step i = some c') : c'.Idle := by
  obtain ⟨call, next, r, l, u, -, -, rfl⟩ := step_cases hstep
  intro j hj
  by_cases hji : j = i
  · subst hji
    rw [put_workers_self] at hj ⊢
    cases hw : Worker.ended ⟨next r, u⟩ with
    | false =>
      rw [Worker.settle_of_not_ended hw] at hj
      rw [hw] at hj; cases hj
    | true => rw [Worker.settle_of_ended hw]
  · rw [put_workers_of_ne hji] at hj ⊢
    exact h j hj

omit [DecidableEq ι] in
/-- When all operations have ended, no row is held. -/
theorem Exclusive.held_eq_nil (h : c.Exclusive) (hi : c.Idle) (hf : c.Finished) :
    c.ledger.store.held = [] := by
  refine List.eq_nil_iff_forall_not_mem.2 fun k hk => ?_
  obtain ⟨i, hki⟩ := (h.held k).1 hk
  rw [hi i (hf i)] at hki
  cases hki

end Crew

/-! ## The order of rows -/

namespace RowKey

/-- Journals come before accounts, and accounts by rising number. -/
def Before : RowKey → RowKey → Prop
  | .journal _, .account _ => True
  | .account a, .account b => ¬ b ≤ a
  | _, .journal _ => False

theorem Before.irrefl (k : RowKey) : ¬ k.Before k := by
  cases k with
  | account a => exact fun h => h a.le_refl
  | journal x => exact id

theorem Before.trans {k k' k'' : RowKey} (h : k.Before k') (h' : k'.Before k'') :
    k.Before k'' := by
  cases k'' with
  | journal x => cases k' <;> exact h'.elim
  | account c =>
    cases k' with
    | journal x => cases k <;> exact h.elim
    | account b =>
      cases k with
      | journal x => trivial
      | account a =>
        have hab : a ≤ b := (a.le_total b).resolve_right h
        exact fun hca => h' (AccountNumber.le_trans hca hab)

theorem eq_or_before {a b : AccountNumber} (h : a ≤ b) :
    RowKey.account a = .account b ∨ (RowKey.account a).Before (.account b) := by
  by_cases hba : b ≤ a
  · exact Or.inl (congrArg _ (AccountNumber.le_antisymm h hba))
  · exact Or.inr hba

end RowKey

/-! ## Programs that ask for rows in order -/

/-- The rows that a unit of work may hold after a call. -/
def Call.keep (c : Call) (keys : List RowKey) : List RowKey :=
  if c.ends then [] else c.key?.toList ++ keys

namespace Program

variable {β γ : Type}

/-- If the open unit of work holds at most `keys`, every row that the program asks for is one of
    them or comes after all of them. -/
def InOrder (post : β → List RowKey → Prop) : Program β → List RowKey → Prop
  | done a, keys => post a keys
  | fail _, _ => True
  | call c next, keys => (∀ key, c.key? = some key → ∀ k ∈ keys, k = key ∨ k.Before key) ∧
      ∀ r, InOrder post (next r) (c.keep keys)

variable {post : γ → List RowKey → Prop} {keys : List RowKey}

theorem inOrder_bind {f : β → Program γ} :
    ∀ {p : Program β} {keys : List RowKey},
      p.InOrder (fun a keys => (f a).InOrder post keys) keys → (p >>= f).InOrder post keys
  | done _, _, h => h
  | fail _, _, _ => trivial
  | call _ _, _, h => ⟨h.1, fun r => inOrder_bind (h.2 r)⟩

theorem inOrder_recover {f : Failure LedgerError → Program γ} (hf : ∀ e, (f e).InOrder post []) :
    ∀ {p : Program γ} {keys : List RowKey},
      p.InOrder post keys → (p.recover f).InOrder post keys
  | done _, _, h => h
  | fail e, _, _ => ⟨nofun, fun _ => hf e⟩
  | call _ _, _, h => ⟨h.1, fun r => inOrder_recover hf (h.2 r)⟩

theorem inOrder_ask {c : Call} {post : c.Reply → List RowKey → Prop}
    (hk : ∀ key, c.key? = some key → ∀ k ∈ keys, k = key ∨ k.Before key)
    (h : ∀ reply, post reply (c.keep keys)) : (ask c).InOrder post keys :=
  ⟨hk, fun r => by
    cases r with
    | ok reply => exact h reply
    | error e => trivial⟩

theorem inOrder_require {e : LedgerError} {found : Option γ} (h : ∀ a, post a keys) :
    (require e found).InOrder post keys := by
  cases found with
  | some a => exact h a
  | none => trivial

theorem inOrder_check {r : Except LedgerError γ} (h : ∀ a, post a keys) :
    (check r).InOrder post keys := by
  cases r with
  | ok a => exact h a
  | error e => trivial

theorem inOrder_compute {r : Except (Failure LedgerError) γ} (h : ∀ a, post a keys) :
    (compute r).InOrder post keys := by
  cases r with
  | ok a => exact h a
  | error e => trivial

/-! ## Parts of operations -/

theorem inOrder_lockAccount {number : AccountNumber}
    {post : Account × BalanceLimit → List RowKey → Prop}
    (hk : ∀ k ∈ keys, k = .account number ∨ k.Before (.account number))
    (h : ∀ row, post row (.account number :: keys)) :
    (lockAccount number).InOrder post keys := by
  refine inOrder_bind (inOrder_ask (fun key hkey => ?_) fun _ => ?_)
  · cases hkey; exact hk
  refine inOrder_bind (inOrder_require fun a => ?_)
  refine inOrder_bind (inOrder_ask nofun fun _ => ?_)
  exact inOrder_bind (inOrder_require fun limit => h (a, limit))

theorem inOrder_lockPending {transfer : TransferId} {action : Action}
    {post : Journal → List RowKey → Prop} (h : ∀ j, post j [.journal transfer]) :
    (lockPending transfer action).InOrder post [] := by
  refine inOrder_bind (inOrder_ask nofun fun _ => ?_)
  refine inOrder_bind (inOrder_require fun j => ?_)
  split
  · trivial
  · exact h j

/-- Whichever number is lower, it comes first. -/
theorem inOrder_lockParties {sender receiver : AccountNumber}
    {post : (Account × BalanceLimit) × (Account × BalanceLimit) → List RowKey → Prop}
    (hk : ∀ k ∈ keys, ∃ x, k = .journal x) (h : ∀ rows keys, post rows keys) :
    (lockParties sender receiver).InOrder post keys := by
  have hfirst : ∀ n, ∀ k ∈ keys, k = .account n ∨ k.Before (.account n) := by
    intro n k hm
    obtain ⟨x, rfl⟩ := hk k hm
    exact Or.inr trivial
  have hsecond : ∀ {m n}, (RowKey.account m = .account n ∨ (RowKey.account m).Before (.account n)) →
      ∀ k ∈ RowKey.account m :: keys, k = .account n ∨ k.Before (.account n) := by
    intro m n hmn k hm
    rcases List.mem_cons.1 hm with rfl | hm
    · exact hmn
    · exact hfirst n k hm
  unfold lockParties
  split
  · refine inOrder_bind (inOrder_lockAccount (hfirst _) fun payer => ?_)
    exact inOrder_bind (inOrder_lockAccount (hsecond (RowKey.eq_or_before ‹_›)) fun payee =>
      h (payer, payee) _)
  · refine inOrder_bind (inOrder_lockAccount (hfirst _) fun payee => ?_)
    exact inOrder_bind (inOrder_lockAccount (hsecond (Or.inr ‹_›)) fun payer =>
      h (payer, payee) _)

theorem inOrder_book {j : Journal} {balances : Decimal × Decimal} {debitTime creditTime : Timestamp}
    {post : Unit → List RowKey → Prop} (h : post () keys) :
    (book j balances debitTime creditTime).InOrder post keys := by
  refine inOrder_bind (inOrder_ask nofun fun _ => ?_)
  refine inOrder_bind (inOrder_ask nofun fun _ => ?_)
  exact inOrder_bind (inOrder_ask nofun fun _ => inOrder_ask nofun fun _ => h)

theorem inOrder_conclude {j : Journal} {event : Event} :
    (conclude j event).InOrder (fun _ _ => True) keys := by
  refine inOrder_bind (inOrder_ask nofun fun _ => ?_)
  refine inOrder_bind (inOrder_ask nofun fun _ => ?_)
  exact inOrder_bind (inOrder_ask nofun fun _ => trivial)

theorem inOrder_checkBalance {sender receiver : AccountNumber} {amount : Decimal}
    {post : Unit → List RowKey → Prop} (h : post () keys) :
    (checkBalance sender receiver amount).InOrder post keys := by
  refine inOrder_bind (inOrder_bind (inOrder_ask nofun fun _ => inOrder_require fun _ => ?_))
  refine inOrder_bind (inOrder_bind (inOrder_ask nofun fun _ => inOrder_require fun _ => ?_))
  refine inOrder_bind (inOrder_bind (inOrder_ask nofun fun _ => inOrder_require fun _ => ?_))
  refine inOrder_bind (inOrder_bind (inOrder_ask nofun fun _ => inOrder_require fun _ => ?_))
  exact inOrder_bind (inOrder_compute fun _ => h)

theorem inOrder_tryNumbers (limits : DefaultLimits) (entity : EntityId) (chance : Chance) :
    ∀ left attempt,
      (tryNumbers limits entity chance left attempt).InOrder (fun _ _ => True) [] := by
  have hinsert : ∀ number opened limited,
      (insertAccount limits number entity opened limited).InOrder (fun _ _ => True) [] := by
    intro number opened limited
    refine inOrder_bind (inOrder_ask nofun fun _ => ?_)
    refine inOrder_bind (inOrder_ask nofun fun _ => ?_)
    exact inOrder_bind (inOrder_ask nofun fun _ => trivial)
  intro left
  induction left with
  | zero => exact fun attempt => hinsert _ _ _
  | succ left ih =>
    refine fun attempt => inOrder_recover (fun e => ?_) (hinsert _ _ _)
    split
    · exact ih (attempt + 1)
    · trivial

end Program

/-- All operations ask for rows in order. -/
theorem Operation.program_inOrder (limits : DefaultLimits) (op : Operation) :
    (op.program limits).InOrder (fun _ _ => True) [] := by
  open Program in
  have hclose : ∀ {transfer reason action canceller now},
      (close transfer reason action canceller now).InOrder (fun _ _ => True) [] :=
    inOrder_bind (inOrder_lockPending fun _ => inOrder_conclude)
  cases op with
  | openAccount entity chance => exact inOrder_tryNumbers limits entity chance _ _
  | updateLimits number maxPos maxNeg now =>
    show (Program.updateLimits number maxPos maxNeg now).InOrder _ _
    unfold Program.updateLimits
    split
    · exact inOrder_bind trivial
    refine inOrder_bind (inOrder_lockAccount (fun _ h => (List.not_mem_nil h).elim) fun row => ?_)
    dsimp only
    split
    · exact inOrder_bind trivial
    refine inOrder_bind (inOrder_ask nofun fun _ => ?_)
    exact inOrder_bind (inOrder_ask nofun fun _ => trivial)
  | propose eligible request chance =>
    refine inOrder_bind (inOrder_check fun _ => ?_)
    refine inOrder_bind (inOrder_checkBalance ?_)
    refine inOrder_bind (inOrder_ask nofun fun _ => ?_)
    refine inOrder_bind (inOrder_ask nofun fun _ => ?_)
    exact inOrder_bind (inOrder_ask nofun fun _ => trivial)
  | accept transfer clock =>
    refine inOrder_bind (inOrder_lockPending fun j => ?_)
    refine inOrder_bind (inOrder_lockParties ?_ fun rows keys => ?_)
    · exact fun k hk => ⟨transfer, List.mem_singleton.1 hk⟩
    dsimp only
    split
    · exact inOrder_bind (inOrder_book inOrder_conclude)
    · exact inOrder_conclude
    · trivial
  | reject transfer reason now => exact hclose
  | cancel transfer reason now => exact hclose
  | transferNow eligible request chance =>
    refine inOrder_bind (inOrder_check fun _ => ?_)
    refine inOrder_bind (inOrder_lockParties (fun _ h => (List.not_mem_nil h).elim) fun _ _ => ?_)
    refine inOrder_bind (inOrder_compute fun _ => ?_)
    refine inOrder_bind (inOrder_ask nofun fun _ => ?_)
    exact inOrder_bind (inOrder_book inOrder_conclude)

/-! ## Crews -/

namespace Crew

variable {ι : Type} {α : ι → Type}

/-- What is left of every operation asks for rows in order. -/
def InOrder (c : Crew α) : Prop :=
  ∀ i, ∃ keys, (∀ k ∈ (c.workers i).unit.locks, k ∈ keys) ∧
    (c.workers i).rest.InOrder (fun _ _ => True) keys

/-- A worker waits for a row that another one holds, who is at work with rows of lower order. -/
theorem InOrder.waits {c : Crew α} (h : c.InOrder) (he : c.Exclusive) (hi : c.Idle) {i : ι}
    {call : Call} {next : Except LedgerError call.Reply → Program (α i)} {key : RowKey}
    (hrest : (c.workers i).rest = .call call next)
    (hwaits : call.perform c.ledger (c.workers i).unit = none) (hkey : call.key? = some key) :
    key ∉ (c.workers i).unit.locks ∧ (∀ k ∈ (c.workers i).unit.locks, k.Before key) ∧
      ∃ j, (c.workers j).ended = false ∧ key ∈ (c.workers j).unit.locks := by
  obtain ⟨key', hkey', hheld, hnew⟩ := Call.perform_eq_none hwaits
  rw [hkey] at hkey'
  cases hkey'
  obtain ⟨keys, hkeys, horder⟩ := h i
  rw [hrest] at horder
  refine ⟨hnew, fun k hk => ?_, ?_⟩
  · rcases horder.1 key hkey k (hkeys k hk) with rfl | hb
    · exact absurd hk hnew
    · exact hb
  · obtain ⟨j, hj⟩ := (he.held key).1 hheld
    refine ⟨j, ?_, hj⟩
    by_contra hended
    rw [hi j (by simpa using hended)] at hj
    cases hj

variable [DecidableEq ι] {c c' : Crew α} {i : ι}

theorem InOrder.step (h : c.InOrder) (hstep : c.step i = some c') : c'.InOrder := by
  obtain ⟨call, next, r, l, u, hrest, hperform, rfl⟩ := step_cases hstep
  intro j
  by_cases hji : j = i
  · subst hji
    obtain ⟨keys, hkeys, horder⟩ := h j
    rw [hrest] at horder
    have hu : ∀ k ∈ u.locks, k ∈ call.keep keys := by
      intro k hk
      have hstays : call.ends = false → k ∈ (c.workers j).unit.locks → k ∈ call.keep keys := by
        intro hends hk
        rw [Call.keep, if_neg (by simp [hends])]
        exact List.mem_append_right _ (hkeys k hk)
      cases Call.visit hperform with
      | stage hends _ _ locks => exact hstays hends (locks ▸ hk)
      | take asked _ _ =>
        rcases List.mem_cons.1 hk with rfl | hk
        · rw [Call.keep, if_neg (by simp [Call.ends_of_key? asked]), asked]
          exact List.mem_append_left _ (List.mem_singleton_self _)
        · exact hstays (Call.ends_of_key? asked) hk
      | commit _ => cases hk
      | drop _ _ _ => cases hk
      | publish event => exact hstays rfl hk
    rw [put_workers_self]
    cases hw : Worker.ended ⟨next r, u⟩ with
    | false => rw [Worker.settle_of_not_ended hw]; exact ⟨_, hu, horder.2 r⟩
    | true => rw [Worker.settle_of_ended hw]; exact ⟨_, nofun, horder.2 r⟩
  · rw [put_workers_of_ne hji]
    exact h j

/-- Somebody can go on while not all operations have ended: among those who wait, the one who
    waits for the last row would wait for nobody. -/
theorem InOrder.exists_step [Finite ι] (h : c.InOrder) (he : c.Exclusive) (hi : c.Idle)
    (hf : ¬ c.Finished) : ∃ i, (c.workers i).ended = false ∧ (c.step i).isSome := by
  by_contra hnone
  -- Every one who is at work waits for a row, and somebody else waits with that row in hand.
  have hwaits : ∀ i : { i // (c.workers i).ended = false }, ∃ key : RowKey,
      key ∉ (c.workers i).unit.locks ∧ (∀ k ∈ (c.workers i).unit.locks, k.Before key) ∧
        ∃ j, (c.workers j).ended = false ∧ key ∈ (c.workers j).unit.locks := by
    rintro ⟨i, hw⟩
    have hstuck : (c.workers i).step c.ledger = none := by
      by_contra hs
      refine hnone ⟨i, hw, ?_⟩
      rw [Crew.step, Option.isSome_map]
      exact Option.isSome_iff_ne_none.2 hs
    rcases Worker.step_eq_none hstuck with hended | ⟨call, next, hrest, hcall⟩
    · rw [hended] at hw; cases hw
    · obtain ⟨key, hkey, -, -⟩ := Call.perform_eq_none hcall
      exact ⟨key, h.waits he hi hrest hcall hkey⟩
  choose key hnew hbefore holder hactive hholds using hwaits
  let next (i : { i // (c.workers i).ended = false }) : { i // (c.workers i).ended = false } :=
    ⟨holder i, hactive i⟩
  let r (j i : { i // (c.workers i).ended = false }) : Prop := (key i).Before (key j)
  have : IsTrans _ r := ⟨fun _ _ _ h h' => RowKey.Before.trans h' h⟩
  have : Std.Irrefl r := ⟨fun i => RowKey.Before.irrefl (key i)⟩
  obtain ⟨i, hi⟩ : ∃ i, (c.workers i).ended = false := by simpa [Finished] using hf
  obtain ⟨last, -, hlast⟩ :=
    (Finite.wellFounded_of_trans_of_irrefl r).has_min Set.univ ⟨⟨i, hi⟩, trivial⟩
  exact hlast (next last) trivial (hbefore (next last) _ (hholds last))

end Crew

namespace Ledger

variable {limits : DefaultLimits} {l : Ledger} {ι : Type}

theorem AtRest.crew_exclusive (h : l.AtRest) (ops : ι → Operation) :
    (l.crew limits ops).Exclusive := by
  refine ⟨fun k => ?_, fun i j k hk => ?_⟩
  · show k ∈ l.store.held ↔ ∃ i : ι, k ∈ []
    rw [h.held]
    simp
  · cases hk

theorem crew_idle (ops : ι → Operation) : (l.crew limits ops).Idle := fun _ _ => rfl

theorem crew_inOrder (ops : ι → Operation) : (l.crew limits ops).InOrder :=
  fun i => ⟨[], nofun, (ops i).program_inOrder limits⟩

/-- Any operations that are carried out at the same time, call by call and in whatever order,
    never block each other for good: as long as one has not ended, one that has not can go on.
    When all have ended, no row is held any more. -/
theorem Reachable.crew_goes_on [Finite ι] [DecidableEq ι] (h : l.Reachable limits)
    {ops : ι → Operation} {schedule : List ι} {c : Crew fun i => (ops i).Result}
    (hrun : (l.crew limits ops).run schedule = some c) :
    (¬ c.Finished → ∃ i, (c.workers i).ended = false ∧ (c.step i).isSome) ∧
      (c.Finished → c.ledger.store.held = []) := by
  have hstep : ∀ (c : Crew fun i => (ops i).Result) i c',
      c.Exclusive ∧ c.Idle ∧ c.InOrder → c.step i = some c' →
        c'.Exclusive ∧ c'.Idle ∧ c'.InOrder :=
    fun _ _ _ ⟨he, hi, ho⟩ hs => ⟨he.step hs, hi.step hs, ho.step hs⟩
  obtain ⟨he, hi, ho⟩ := Crew.run_induct hstep
    ⟨h.atRest.crew_exclusive ops, crew_idle ops, crew_inOrder ops⟩ hrun
  exact ⟨ho.exists_step he hi, he.held_eq_nil hi⟩

/-- Two operations on one pending transfer: an acceptance and, `false`, a cancellation. -/
def contest : Bool → Operation
  | true => .accept ⟨.ofNat 4⟩ fun _ => .ofMillis 5000
  | false => .cancel ⟨.ofNat 4⟩ "late" (.ofMillis 5000)

/-- The cancellation has to wait while the acceptance has the journal. -/
theorem Reachable.crew_goes_on_short :
    ∃ c, (short.crew .standard contest).run [true] = some c ∧ (c.step false).isNone ∧
      ∃ i, (c.workers i).ended = false ∧ (c.step i).isSome := by
  obtain ⟨c, hc⟩ := Option.isSome_iff_exists.1
    (show ((short.crew .standard contest).run [true]).isSome by decide)
  have hwaits : ((short.crew .standard contest).run [true]).map
      (fun c => ((c.step false).isNone, (c.workers false).ended)) = some (true, false) := by decide
  rw [hc, Option.map_some, Option.some_inj, Prod.mk.injEq] at hwaits
  have hgoes := crew_goes_on (⟨shortHistory, rfl⟩ : short.Reachable .standard) hc
  refine ⟨c, hc, hwaits.1, hgoes.1 fun hf => ?_⟩
  rw [hf false] at hwaits
  exact Bool.noConfusion hwaits.2

end Ledger
end CreditCircle

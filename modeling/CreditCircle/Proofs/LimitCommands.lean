/-
  Commands that open accounts and change limits.

  * `Ledger.Reachable.accountsCounted`: accounts have keys that have been given out.
  * `run_updateLimits_eq`, `changeLimits_eq`: what becomes of limits, computed at once.
  * `Replay.Spares`: what no such command touches.
  * `Replay.Opened`, `openEntity_opened`: an account under a new alias.
  * `Replay.Relimited`, `changeLimits_relimited`: an account with other limits.
  * `after_limit_commands`: when these commands succeed, and what they do then.
-/
import CreditCircle.Proofs.AliasTables

namespace CreditCircle

/-! ## Keys of accounts -/

section
variable {limits : DefaultLimits} {l l' : Ledger}

/-- Accounts have keys that have been given out. -/
def Ledger.AccountsCounted (l : Ledger) : Prop :=
  ∀ n a, l.tables.account? n = some a → a.id.value ≤ l.store.sequences.account

theorem Ledger.AccountsCounted.mono (h : l.AccountsCounted)
    (hrow : ∀ n, l'.tables.account? n = l.tables.account? n)
    (hs : l.store.sequences ≤ l'.store.sequences) : l'.AccountsCounted := by
  intro n a ha
  rw [hrow] at ha
  exact (h n a ha).trans hs.1

theorem Ledger.AccountsCounted.books {j : Journal} {t : Tables} (h : l.AccountsCounted)
    (hb : Books l l' j t) (n : AccountNumber) (a : Account) (ha : t.account? n = some a) :
    a.id.value ≤ l.store.sequences.account := by
  obtain ⟨parties, -, -⟩ := hb
  have hpayer := h _ _ parties.payer_row
  have hpayee := h _ _ parties.payee_row
  rw [Tables.account?_withLegs] at ha
  split at ha
  · cases ha; exact hpayee
  split at ha
  · cases ha; exact hpayer
  · exact h n a ha

theorem Change.accountsCounted {op : Operation} (hc : Change limits l l' op)
    (h : l.AccountsCounted) : l'.AccountsCounted := by
  have hs := hc.settled.sequences
  cases hc with
  | opens ho =>
    obtain ⟨now, -, ht⟩ := ho.tables
    intro n a ha
    rw [ht, Tables.account?_withAccount] at ha
    split at ha
    · cases ha; exact ho.id_le
    · exact (h n a ha).trans hs.1
  | relimits hr => exact h.mono (fun _ => by rw [hr.tables]; rfl) hs
  | proposes hp => exact h.mono (fun _ => by rw [hp.tables]; rfl) hs
  | closes hop hcl => exact h.mono (fun _ => by rw [hcl.tables]; rfl) hs
  | completes hcm =>
    obtain ⟨t, hb, ht⟩ := hcm.tables
    intro n a ha
    rw [ht] at ha
    exact (h.books hb n a ha).trans hs.1
  | transfers htr =>
    obtain ⟨t, hb, ht⟩ := htr.tables
    intro n a ha
    rw [ht] at ha
    exact (h.books hb n a ha).trans hs.1

theorem Ledger.Reachable.accountsCounted (h : l.Reachable limits) : l.AccountsCounted := by
  refine h.induct (P := Ledger.AccountsCounted) (fun _ _ ha => nomatch ha) fun l step hr hl => ?_
  rcases hr.atRest.next_cases limits step with ⟨op, v, -, -, hc⟩ | ⟨ht, -, -, hs⟩
  · exact hc.accountsCounted hl
  · exact hl.mono (fun n => by rw [ht]) hs

/-- Nobody has had the key or the number of a new account before. -/
theorem Opens.fresh {entity : EntityId} {chance : Chance} {a : Account}
    (ho : Opens limits entity chance l a l') (h : l.Reachable limits) {b : Account}
    (hb : b ∈ l.tables.accounts.values) : b.id ≠ a.id ∧ b.number ≠ a.number := by
  obtain ⟨n, hb⟩ := (Table.mem_values_iff _ _).1 hb
  constructor
  · intro hid
    have hle := h.accountsCounted n b hb
    rw [hid] at hle
    exact absurd ho.id_new (Nat.not_lt.2 hle)
  · intro hnumber
    have hnew := ho.number_new
    rw [← hnumber, h.atRest.wellFormed.account n b hb] at hnew
    cases hnew.symm.trans hb

/-- A new account stands behind all others. -/
theorem Opens.values {entity : EntityId} {chance : Chance} {a : Account}
    (ho : Opens limits entity chance l a l') :
    l'.tables.accounts.values = l.tables.accounts.values ++ [a] := by
  obtain ⟨now, -, ht⟩ := ho.tables
  have hput : l'.tables.accounts = l.tables.accounts.put a.number a := by rw [ht]; rfl
  rw [hput, Table.values, Table.entries_put_of_new ho.number_new, List.map_append]
  rfl

/-! ## Other limits -/

/-- The ledger with other limits for an account. -/
def Ledger.withLimit (l : Ledger) (limit : BalanceLimit) : Ledger :=
  { l with store := { l.store with tables := l.tables.withLimit limit } }

theorem Tables.content_updateLimits_eq {t : Tables} {n : AccountNumber} {a : Account}
    {old : BalanceLimit} (hrow : t.HasRow n (a, old)) (maxPos maxNeg : Decimal) (now : Timestamp) :
    t.content.updateLimits n maxPos maxNeg now =
      if maxPos < 0 ∨ maxNeg < 0 then .error (.refused (.invalidLimit n .negative))
      else
        let limit := { old with maxPos, maxNeg, updatedAt := now }
        if limit.IsExceededBy a.balance then
          .error (.refused (.invalidLimit n (.excludesBalance a.balance)))
        else .ok (limit, t.content.relimit limit) := by
  unfold Content.updateLimits
  rw [hrow.content_row]
  split
  · rfl
  dsimp only
  split
  · exact if_pos ‹_›
  · exact if_neg ‹_›

/-- What becomes of new limits: they are in force, or nothing has changed. -/
theorem Ledger.Reachable.run_updateLimits_eq (h : l.Reachable limits) (ha : l.store.armed = [])
    {n : AccountNumber} {a : Account} (hrow : l.tables.account? n = some a)
    (maxPos maxNeg : Decimal) (now : Timestamp) :
    let limit : BalanceLimit := ⟨n, maxPos, maxNeg, now⟩
    l.run (Program.updateLimits n maxPos maxNeg now) =
      if maxPos < 0 ∨ maxNeg < 0 then (.error (.refused (.invalidLimit n .negative)), l)
      else if limit.IsExceededBy a.balance then
        (.error (.refused (.invalidLimit n (.excludesBalance a.balance))), l)
      else (.ok limit, l.withLimit limit) := by
  obtain ⟨⟨account, oldPos, oldNeg, changed⟩, hold, -⟩ := h.withinLimits.inside n a hrow
  obtain ⟨t, s, es, rfl⟩ := h.eq_calm ha
  have hw : t.WellFormed := h.atRest.wellFormed
  obtain rfl : account = n := hw.limit n _ hold
  have hfound := Tables.content_updateLimits_eq (t := t) ⟨hrow, hold⟩ maxPos maxNeg now
  rw [Program.run_updateLimits (hw.limit account), hfound]
  dsimp only
  split
  · rfl
  split
  · rfl
  · rfl

end

/-! ## Bounds that are given -/

section
variable {bound : Option Decimal} {old : Decimal}

theorem not_lt_zero_iff {d : Decimal} : ¬ d < 0 ↔ 0 ≤ d.toRat := by
  rw [← Decimal.toRat_lt_toRat, not_lt, Decimal.toRat_zero]

theorem not_any_lt_zero_iff : ¬ bound.any (· < 0) ↔ ∀ d ∈ bound, 0 ≤ d.toRat := by
  cases bound with
  | none => simp
  | some d => simp [← not_lt_zero_iff]

/-- A bound that was in force is not negative, so it is the given one that counts. -/
theorem not_getD_lt_zero_iff (h : ¬ old < 0) :
    ¬ bound.getD old < 0 ↔ ∀ d ∈ bound, 0 ≤ d.toRat := by
  cases bound with
  | none => simpa using h
  | some d => simp [← not_lt_zero_iff]

theorem BalanceLimit.not_isExceededBy_iff_of_nonneg (limit : BalanceLimit) (balance : Decimal)
    (h : ¬ limit.maxNeg < 0) : ¬ limit.IsExceededBy balance ↔
      -limit.maxNeg.toRat ≤ balance.toRat ∧ balance.toRat ≤ limit.maxPos.toRat := by
  rw [BalanceLimit.not_isExceededBy_iff, abs_of_nonneg (not_lt_zero_iff.1 h)]

end

namespace Script.Replay

variable {limits : DefaultLimits} {r r' : Replay}

/-! ## Limits of an account -/

/-- What becomes of bounds that are to be replaced. -/
theorem changeLimits_eq (h : r.Ready limits) {n : AccountNumber} {a : Account}
    {current : BalanceLimit} (hrow : r.ledger.tables.account? n = some a)
    (hcurrent : r.ledger.tables.limit? n = some current) (maxPos maxNeg : Option Decimal)
    (now : Timestamp) :
    let limit : BalanceLimit := ⟨n, maxPos.getD current.maxPos, maxNeg.getD current.maxNeg, now⟩
    r.changeLimits n maxPos maxNeg now =
      if limit.maxPos < 0 ∨ limit.maxNeg < 0 then
        (.error (.refused (.ledger (.invalidLimit n .negative))), r)
      else if limit.IsExceededBy a.balance then
        (.error (.refused (.ledger (.invalidLimit n (.excludesBalance a.balance)))), r)
      else (.ok (), { r with ledger := r.ledger.withLimit limit }) := by
  intro limit
  have hfound : r.ledger.limitFor n = .ok current := Ledger.found_eq_ok_iff.2 hcurrent
  have hrun := h.reachable.run_updateLimits_eq h.unarmed hrow limit.maxPos limit.maxNeg now
  have heq : r.changeLimits n maxPos maxNeg now =
      r.operate (Program.updateLimits n limit.maxPos limit.maxNeg now) fun _ r => r.finished := by
    rw [changeLimits, hfound]
    rfl
  rw [heq]
  unfold operate
  rw [hrun]
  by_cases hneg : limit.maxPos < 0 ∨ limit.maxNeg < 0
  · rw [if_pos hneg, if_pos hneg]
    rfl
  by_cases hx : limit.IsExceededBy a.balance
  · rw [if_neg hneg, if_neg hneg, if_pos hx, if_pos hx]
    rfl
  · rw [if_neg hneg, if_neg hneg, if_neg hx, if_neg hx]
    rfl

/-- What no command on the account with the number `n` touches. -/
structure Spares (r r' : Replay) (n : AccountNumber) : Prop where
  account : ∀ m, m ≠ n → r'.ledger.tables.account? m = r.ledger.tables.account? m
  limit : ∀ m, m ≠ n → r'.ledger.tables.limit? m = r.ledger.tables.limit? m
  journals : r'.ledger.tables.journals = r.ledger.tables.journals
  postings : r'.ledger.tables.postings = r.ledger.tables.postings
  events : r'.ledger.events = r.ledger.events
  transfers : r'.transfers = r.transfers

theorem Spares.trans {r'' : Replay} {n : AccountNumber} (h : r.Spares r' n)
    (h' : r'.Spares r'' n) : r.Spares r'' n where
  account m hm := (h'.account m hm).trans (h.account m hm)
  limit m hm := (h'.limit m hm).trans (h.limit m hm)
  journals := h'.journals.trans h.journals
  postings := h'.postings.trans h.postings
  events := h'.events.trans h.events
  transfers := h'.transfers.trans h.transfers

/-- The account with the number `n` has other limits: the bounds that are given, and those of
    `current` for the others. -/
structure Relimited (r : Replay) (n : AccountNumber) (maxPos maxNeg : Option Decimal)
    (current : BalanceLimit) (r' : Replay) : Prop where
  limited : ∃ limit, r'.ledger.limitFor n = .ok limit ∧
    limit.maxPos = maxPos.getD current.maxPos ∧ limit.maxNeg = maxNeg.getD current.maxNeg
  balances : r'.ledger.tables.accounts = r.ledger.tables.accounts
  names : r'.accounts = r.accounts
  spares : r.Spares r' n

theorem relimited_withLimit (r : Replay) (maxPos maxNeg : Option Decimal) (n : AccountNumber)
    (current : BalanceLimit) (now : Timestamp) :
    r.Relimited n maxPos maxNeg current { r with
      ledger := r.ledger.withLimit
        ⟨n, maxPos.getD current.maxPos, maxNeg.getD current.maxNeg, now⟩ } where
  limited := by
    refine ⟨⟨n, maxPos.getD current.maxPos, maxNeg.getD current.maxNeg, now⟩,
      Ledger.found_eq_ok_iff.2 ?_, rfl, rfl⟩
    exact (Tables.limit?_withLimit _ _ _).trans (if_pos rfl)
  balances := rfl
  names := rfl
  spares := {
    account := fun _ _ => rfl
    limit := fun m hm => (Tables.limit?_withLimit _ _ _).trans (if_neg hm)
    journals := rfl
    postings := rfl
    events := rfl
    transfers := rfl }

/-- When the bounds of an account are replaced, and what is there afterwards. -/
theorem changeLimits_relimited (h : r.Ready limits) {n : AccountNumber} {a : Account}
    {current : BalanceLimit} (hrow : r.ledger.tables.account? n = some a)
    (hcurrent : r.ledger.tables.limit? n = some current) (maxPos maxNeg : Option Decimal)
    (now : Timestamp) :
    ((∃ r', r.changeLimits n maxPos maxNeg now = (.ok (), r')) ↔
      (∀ d ∈ maxPos, 0 ≤ d.toRat) ∧ (∀ d ∈ maxNeg, 0 ≤ d.toRat) ∧
        -(maxNeg.getD current.maxNeg).toRat ≤ a.balance.toRat ∧
          a.balance.toRat ≤ (maxPos.getD current.maxPos).toRat) ∧
    ∀ r', r.changeLimits n maxPos maxNeg now = (.ok (), r') →
      r.Relimited n maxPos maxNeg current r' := by
  obtain ⟨hpos, hneg⟩ := h.reachable.withinLimits.nonneg n current hcurrent
  have heq := changeLimits_eq h hrow hcurrent maxPos maxNeg now
  dsimp only at heq
  rw [heq, ← not_getD_lt_zero_iff hpos, ← not_getD_lt_zero_iff hneg]
  split
  · rename_i hbounds
    exact ⟨⟨nofun, fun hin => absurd hbounds (not_or.2 ⟨hin.1, hin.2.1⟩)⟩, nofun⟩
  rename_i hbounds
  rw [not_or] at hbounds
  have hrange := BalanceLimit.not_isExceededBy_iff_of_nonneg
    ⟨n, maxPos.getD current.maxPos, maxNeg.getD current.maxNeg, now⟩ a.balance hbounds.2
  dsimp only at hrange
  rw [← hrange]
  split
  · rename_i hx
    exact ⟨⟨nofun, fun hin => absurd hx hin.2.2⟩, nofun⟩
  · rename_i hx
    refine ⟨⟨fun _ => ⟨hbounds.1, hbounds.2, hx⟩, fun _ => ⟨_, rfl⟩⟩, fun r' hr' => ?_⟩
    cases hr'
    exact r.relimited_withLimit maxPos maxNeg n current now

/-! ## A new account -/

/-- The replay after an account has been opened under the alias `entity`, with the bounds that are
    given and those of `defaults` for the others. -/
structure Opened (r : Replay) (defaults : DefaultLimits) (entity : String)
    (maxPos maxNeg : Option Decimal) (a : Account) (r' : Replay) : Prop where
  balance : a.balance = 0
  fresh : ∀ b ∈ r.ledger.tables.accounts.values, b.id ≠ a.id ∧ b.number ≠ a.number
  added : r'.ledger.tables.accounts.values = r.ledger.tables.accounts.values ++ [a]
  found : r'.ledger.accountByNumber a.number = .ok a
  limited : ∃ limit, r'.ledger.limitFor a.number = .ok limit ∧
    limit.maxPos = maxPos.getD defaults.maxPos ∧ limit.maxNeg = maxNeg.getD defaults.maxNeg
  names : r'.accounts = r.accounts.put entity a.number
  spares : r.Spares r' a.number

/-- The replay as it is when a new account has got its alias. -/
theorem opened_of_opens (hr : r.Ready limits) {member : EntityId} {chance : Chance} {a : Account}
    {l' : Ledger} (ho : Opens limits member chance r.ledger a l') (entity : String) :
    r.Opened limits entity none none a ⟨l', r.accounts.put entity a.number, r.transfers⟩ := by
  obtain ⟨now, -, ht⟩ := ho.tables
  refine ⟨ho.balance, fun b hb => ho.fresh hr.reachable hb, ho.values,
    Ledger.found_eq_ok_iff.2 ?_, ⟨⟨a.number, limits.maxPos, limits.maxNeg, now⟩,
      Ledger.found_eq_ok_iff.2 ?_, rfl, rfl⟩, rfl, ?_⟩
  · rw [ht, Tables.account?_withAccount, if_pos rfl]
  · rw [ht, Tables.limit?_withAccount, if_pos rfl]
  · refine ⟨fun m hm => ?_, fun m hm => ?_, ?_, ?_, ho.events, rfl⟩
    · rw [ht, Tables.account?_withAccount, if_neg hm]
    · rw [ht, Tables.limit?_withAccount, if_neg hm]
    · rw [ht]; rfl
    · rw [ht]; rfl

/-- Bounds that are given at once are those of the new account. -/
theorem Opened.relimited {defaults : DefaultLimits} {entity : String} {a : Account}
    {current : BalanceLimit} {maxPos maxNeg : Option Decimal} {r'' : Replay}
    (h : r.Opened defaults entity none none a r')
    (hcurrent : r'.ledger.limitFor a.number = .ok current)
    (hr : r'.Relimited a.number maxPos maxNeg current r'') :
    r.Opened defaults entity maxPos maxNeg a r'' := by
  obtain ⟨limit, hlimit, hpos, hneg⟩ := h.limited
  cases hlimit.symm.trans hcurrent
  obtain ⟨new, hnew, hpos', hneg'⟩ := hr.limited
  refine ⟨h.balance, h.fresh, ?_, ?_, ⟨new, hnew, ?_, ?_⟩, ?_, h.spares.trans hr.spares⟩
  · rw [hr.balances, h.added]
  · have hfound := h.found
    unfold Ledger.accountByNumber Tables.account? at hfound ⊢
    rw [hr.balances, hfound]
  · rw [hpos', hpos]; rfl
  · rw [hneg', hneg]; rfl
  · rw [hr.names, h.names]

/-- A new alias gets an account, unless what is drawn for it is taken or a bound is negative. -/
theorem openEntity_opened (h : r.Ready limits) (eligible : AccountNumber → Bool) {chance : Chance}
    {entity : String} {maxPos maxNeg : Option Decimal} (hnew : r.accounts.get? entity = none)
    (hfree : r.ledger.tables.Free (Command.draws chance (.open entity maxPos maxNeg)))
    (hpos : ∀ d ∈ maxPos, 0 ≤ d.toRat) (hneg : ∀ d ∈ maxNeg, 0 ≤ d.toRat) :
    ∃ a r', openEntity ⟨limits, eligible⟩ r chance entity maxPos maxNeg = (.ok (), r') ∧
      r.Opened limits entity maxPos maxNeg a r' := by
  obtain ⟨hnumber, hmember⟩ := Command.opens_of_free hfree
  obtain ⟨a, l', hrun, -, ho⟩ := h.reachable.run_openAccount_first h.unarmed hnumber hmember
  have hready := h.run (.openAccount chance.entity chance)
  rw [CreditCircle.Operation.program, hrun] at hready
  let named : Replay := ⟨l', r.accounts.put entity a.number, r.transfers⟩
  have hnamed : named.Ready limits := ⟨hready.reachable, hready.unarmed⟩
  have hopened : r.Opened limits entity none none a named := opened_of_opens h ho entity
  have hhas : ¬ r.accounts.has entity := by rw [Table.has, hnew]; exact Bool.false_ne_true
  have hbounds : ¬ (maxPos.any (· < 0) || maxNeg.any (· < 0)) := by
    rw [Bool.or_eq_true, not_or]
    exact ⟨not_any_lt_zero_iff.2 hpos, not_any_lt_zero_iff.2 hneg⟩
  rw [openEntity, if_neg hhas, if_neg hbounds, operate, hrun]
  dsimp only
  split
  · -- An account on which nothing has been booked is inside any limits.
    obtain ⟨current, hcurrent, -, -⟩ := hopened.limited
    have hrow := Ledger.found_eq_ok_iff.1 hopened.found
    obtain ⟨hiff, hthen⟩ := changeLimits_relimited hnamed hrow
      (Ledger.found_eq_ok_iff.1 hcurrent) maxPos maxNeg (chance.clock (2 * numberAttempts))
    obtain ⟨hp, hn⟩ := hnamed.reachable.withinLimits.nonneg _ _
      (Ledger.found_eq_ok_iff.1 hcurrent)
    have hzero : a.balance.toRat = 0 := by rw [hopened.balance, Decimal.toRat_zero]
    obtain ⟨r', hr'⟩ := hiff.2 ⟨hpos, hneg, by
      rw [hzero, neg_nonpos, ← not_lt_zero_iff, not_getD_lt_zero_iff hn]; exact hneg, by
      rw [hzero, ← not_lt_zero_iff, not_getD_lt_zero_iff hp]; exact hpos⟩
    exact ⟨a, r', hr', hopened.relimited hcurrent (hthen r' hr')⟩
  · rename_i hgiven
    rw [Bool.or_eq_true, not_or, Option.not_isSome_iff_eq_none, Option.not_isSome_iff_eq_none]
      at hgiven
    obtain ⟨rfl, rfl⟩ := hgiven
    exact ⟨a, named, rfl, hopened⟩

/-! ## Commands -/

/-- After any scripts and commands, an alias that is not in use gets an account, if no given bound
    is negative and what is drawn is not taken: it holds and owes nothing, nobody has had its key
    or its number, and its limits are the given bounds with the default for a missing one.  The
    limits of an account with an alias are replaced exactly when no given bound is negative and its
    balance lies inside the new limits, which are the given bounds with the current one for a
    missing one.  Nothing else changes, and nothing at all if the command fails. -/
theorem after_limit_commands (rules : Rules) (stages : List Stage) (chance : Chance)
    (entity : String) (maxPos maxNeg : Option Decimal) :
    let r := (start .empty).after rules stages
    let given := (∀ d ∈ maxPos, 0 ≤ d.toRat) ∧ ∀ d ∈ maxNeg, 0 ≤ d.toRat
    (r.account entity = .error (.unknownEntity entity) →
      r.ledger.tables.Free (Command.draws chance (.open entity maxPos maxNeg)) → given →
      ∃ a r', r.apply rules chance (.open entity maxPos maxNeg) = (.ok (), r') ∧
        r.Opened rules.limits entity maxPos maxNeg a r') ∧
    (∀ n, r.account entity = .ok n →
      ∃ a current, r.ledger.accountByNumber n = .ok a ∧ r.ledger.limitFor n = .ok current ∧
        ((∃ r', r.apply rules chance (.limits entity maxPos maxNeg) = (.ok (), r')) ↔
          given ∧ -(maxNeg.getD current.maxNeg).toRat ≤ a.balance.toRat ∧
            a.balance.toRat ≤ (maxPos.getD current.maxPos).toRat) ∧
        ∀ r', r.apply rules chance (.limits entity maxPos maxNeg) = (.ok (), r') →
          r.Relimited n maxPos maxNeg current r') ∧
    ∀ command ∈ [.open entity maxPos maxNeg, .limits entity maxPos maxNeg], ∀ failure r',
      r.apply rules chance command = (.error failure, r') → r' = r := by
  intro r given
  have hr : (start .empty).Onward rules.limits r :=
    (Onward.refl .start_empty .start_empty).after stages
  refine ⟨fun hnew hfree hgiven => ?_, fun n hn => ?_, fun command _ failure r' hfailed => ?_⟩
  · have hnew : r.accounts.get? entity = none := by
      unfold Replay.account at hnew
      split at hnew
      · cases hnew
      · assumption
    exact openEntity_opened hr.ready rules.eligible hnew hfree hgiven.1 hgiven.2
  · obtain ⟨a, hrow⟩ := hr.mirrors.account entity n (account_eq_ok_iff.1 hn)
    obtain ⟨current, hcurrent, -⟩ := hr.ready.reachable.withinLimits.inside n a hrow
    have hthen := changeLimits_relimited hr.ready hrow hcurrent maxPos maxNeg (chance.clock 0)
    have happly : r.apply rules chance (.limits entity maxPos maxNeg) =
        r.changeLimits n maxPos maxNeg (chance.clock 0) := by
      rw [apply, hn]
      rfl
    rw [happly]
    refine ⟨a, current, Ledger.found_eq_ok_iff.2 hrow, Ledger.found_eq_ok_iff.2 hcurrent, ?_,
      hthen.2⟩
    rw [hthen.1, and_assoc]
  · rcases apply_atomic hr.ready rules.eligible chance command with ⟨_, _, hok, -⟩ | ⟨e, he⟩
    · cases hok.symm.trans hfailed
    · cases he.symm.trans hfailed
      rfl

/-- Two members, one of whom has paid 6 to the other. -/
def paidStages : List Stage :=
  [.command (.nth 1) (.open "a" none none), .command (.nth 2) (.open "b" none none),
    .command (.nth 3) (.transfer "t" "a" "b" (.ofNat 6) "")]

/-- A third member can be bounded at once; the first one owes 6, which is as far as new limits may
    then go. -/
theorem after_limit_commands_paid :
    let r := (start .empty).after (.open .standard) paidStages
    (∃ a r', r.apply (.open .standard) (.nth 4) (.open "c" (some (.ofNat 7)) none) =
        (.ok (), r') ∧ r.Opened .standard "c" (some (.ofNat 7)) none a r') ∧
      ∃ r', r.apply (.open .standard) (.nth 4) (.limits "a" none (some (.ofNat 6))) =
        (.ok (), r') := by
  intro r
  have hfree : r.ledger.tables.Free
      (Command.draws (.nth 4) (.open "c" (some (.ofNat 7)) none)) := by
    intro key hkey
    rcases List.mem_pair.1 hkey with rfl | rfl
    · show ¬ (Tables.account? _ _).isSome
      decide
    · show ¬ (Table.get? _ _).isSome
      decide
  have hseven : ∀ d ∈ some (Decimal.ofNat 7), 0 ≤ d.toRat := fun d hd => by
    cases hd
    exact not_lt_zero_iff.1 (by decide)
  have hsix : ∀ d ∈ some (Decimal.ofNat 6), 0 ≤ d.toRat := fun d hd => by
    cases hd
    exact not_lt_zero_iff.1 (by decide)
  have hc := after_limit_commands (.open .standard) paidStages (.nth 4) "c" (some (.ofNat 7)) none
  have ha := after_limit_commands (.open .standard) paidStages (.nth 4) "a" none (some (.ofNat 6))
  refine ⟨hc.1 (by decide) hfree ⟨hseven, nofun⟩, ?_⟩
  obtain ⟨a, current, hrow, hcurrent, hiff, -⟩ := ha.2.1 (.generate 10) (by decide)
  have hbalance : (r.ledger.accountByNumber (.generate 10)).map Account.balance =
      .ok (-.ofNat 6) := by decide
  have hmaxPos : (r.ledger.limitFor (.generate 10)).map BalanceLimit.maxPos =
      .ok DefaultLimits.standard.maxPos := by decide
  rw [hrow] at hbalance
  rw [hcurrent] at hmaxPos
  refine hiff.2 ⟨⟨nofun, hsix⟩, ?_, ?_⟩
  · rw [Except.ok.inj hbalance, Decimal.toRat_neg]
    rfl
  · rw [Except.ok.inj hbalance, show current.maxPos = _ from Except.ok.inj hmaxPos,
      Option.getD_none, ← not_lt, Decimal.toRat_lt_toRat]
    decide

end Script.Replay
end CreditCircle

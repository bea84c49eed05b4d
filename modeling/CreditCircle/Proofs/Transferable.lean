/-
  The largest amount that can be transferred.

  A refused request names the room at one of its two ends.

  * `sendable`, `receivable`: the exact room at either end.
  * `Way`: the two ways of carrying out a request; `run_way_ok_iff` says when they succeed.
  * `newBalances_ok_iff`: up to limits of `10 ^ 26`, an amount can be moved if and only if there is
    room for it at both ends.
  * `Reachable.maxTransferable`: what the amount named in a refusal means.
-/
import CreditCircle.Proofs.ExactTransfers
import CreditCircle.Proofs.FastPath

namespace CreditCircle

open Decimal

/-! ## Room -/

/-- The exact amount that an account with these limits may still send. -/
def sendable (row : Account × BalanceLimit) : ℚ := row.1.balance.toRat + |row.2.maxNeg.toRat|

/-- The exact amount that an account with these limits may still receive. -/
def receivable (row : Account × BalanceLimit) : ℚ := row.2.maxPos.toRat - row.1.balance.toRat

/-- No bound is above `10 ^ 26`. -/
def BalanceLimit.Moderate (limit : BalanceLimit) : Prop :=
  limit.maxPos.toRat ≤ 10 ^ 26 ∧ limit.maxNeg.toRat ≤ 10 ^ 26

namespace BalanceLimit

variable {limit : BalanceLimit} {balance room : Decimal}

/-- The room below a balance is computed in one rounded sum. -/
theorem nearest_negativeHeadroom (hin : ¬ limit.IsExceededBy balance)
    (hroom : limit.negativeHeadroom balance = .ok room) :
    room.Nearest (balance.toRat + |limit.maxNeg.toRat|) := by
  obtain ⟨hlow, -⟩ := not_isExceededBy_iff.1 hin
  unfold negativeHeadroom at hroom
  split at hroom
  · obtain ⟨c, hc, hmax⟩ := bind_eq_ok_iff.1 hroom
    cases hmax
    have hnear := nearest_add hc
    rw [toRat_abs] at hnear
    exact hnear.max_zero (by linarith)
  · obtain ⟨c, hc, hmax⟩ := bind_eq_ok_iff.1 hroom
    cases hmax
    have hnear := nearest_sub hc
    have hb := not_le.1 (mt zero_le_iff.2 ‹¬ 0 ≤ balance›)
    rw [toRat_abs, toRat_abs, abs_of_neg hb, sub_neg_eq_add, add_comm] at hnear
    exact hnear.max_zero (by linarith)

/-- The room above a balance is computed in one rounded sum. -/
theorem nearest_positiveHeadroom (hin : ¬ limit.IsExceededBy balance)
    (hroom : limit.positiveHeadroom balance = .ok room) :
    room.Nearest (limit.maxPos.toRat - balance.toRat) := by
  obtain ⟨-, hhigh⟩ := not_isExceededBy_iff.1 hin
  unfold positiveHeadroom at hroom
  split at hroom
  · obtain ⟨c, hc, hmax⟩ := bind_eq_ok_iff.1 hroom
    cases hmax
    exact (nearest_sub hc).max_zero (by linarith)
  · obtain ⟨c, hc, hmax⟩ := bind_eq_ok_iff.1 hroom
    cases hmax
    have hnear := nearest_add hc
    have hb := not_le.1 (mt zero_le_iff.2 ‹¬ 0 ≤ balance›)
    rw [toRat_abs, abs_of_neg hb, neg_add_eq_sub] at hnear
    exact hnear.max_zero (by linarith)

/-- Some bound is at least as large as a value inside the limits. -/
theorem exists_abs_le {v : ℚ} (hlow : -|limit.maxNeg.toRat| ≤ v) (hhigh : v ≤ limit.maxPos.toRat) :
    ∃ m : Decimal, |v| ≤ |m.toRat| := by
  rcases le_total 0 v with hv | hv
  · exact ⟨limit.maxPos, by rw [abs_of_nonneg hv]; exact hhigh.trans (le_abs_self _)⟩
  · exact ⟨limit.maxNeg, by rw [abs_of_nonpos hv]; exact neg_le.1 hlow⟩

/-- A difference inside the limits can be computed and stays there. -/
theorem sub?_of_inside (limit : BalanceLimit) (a b : Decimal)
    (hlow : -|limit.maxNeg.toRat| ≤ a.toRat - b.toRat)
    (hhigh : a.toRat - b.toRat ≤ limit.maxPos.toRat) :
    ∃ c, a.sub? b = some c ∧ ¬ limit.IsExceededBy c := by
  obtain ⟨m, hm⟩ := exists_abs_le hlow hhigh
  obtain ⟨c, hc⟩ := sub?_eq_some_of_le hm
  exact ⟨c, hc, not_isExceededBy_of_nearest (nearest_sub? hc) hlow hhigh⟩

/-- A sum inside the limits can be computed and stays there. -/
theorem add?_of_inside (limit : BalanceLimit) (a b : Decimal)
    (hlow : -|limit.maxNeg.toRat| ≤ a.toRat + b.toRat)
    (hhigh : a.toRat + b.toRat ≤ limit.maxPos.toRat) :
    ∃ c, a.add? b = some c ∧ ¬ limit.IsExceededBy c := by
  obtain ⟨m, hm⟩ := exists_abs_le hlow hhigh
  obtain ⟨c, hc, -⟩ := add?_eq_some_of_le hm
  exact ⟨c, hc, not_isExceededBy_of_nearest (nearest_add? hc) hlow hhigh⟩

/-- Under moderate limits, what is allowed has not been rounded. -/
theorem Moderate.eq_of_nearest (h : limit.Moderate) (hneg : ¬ limit.maxNeg < 0) {c : Decimal}
    {v : ℚ} (hc : c.Nearest v) (hv : ∃ k : ℤ, v = k / 100) (hin : ¬ limit.IsExceededBy c) :
    c.toRat = v :=
  hc.eq_of_le hv (abs_le_of_not_isExceededBy hin hneg h)

end BalanceLimit

/-! ## Amounts that can be moved -/

section
variable {t : Tables} {sender receiver : AccountNumber} {payer payee : Account × BalanceLimit}
  {amount : Decimal} (hl : t.WithinLimits) (hp : Parties t sender receiver payer payee)
  (ha : checkAmount amount = .ok ())
include hl hp ha

/-- An amount for which there is room at both ends can be moved. -/
theorem Tables.WithinLimits.newBalances_of_le (hs : amount.toRat ≤ sendable payer)
    (hr : amount.toRat ≤ receivable payee) :
    ∃ balances, Program.newBalances payer payee amount = .ok balances := by
  have hpos := toRat_lt_toRat.2 (checkAmount_eq_ok_iff.1 ha).1
  obtain ⟨hpayer, -⟩ := hl.row_inside hp.payer_row hp.payer_limit
  obtain ⟨hpayee, -⟩ := hl.row_inside hp.payee_row hp.payee_limit
  obtain ⟨-, hhigh⟩ := BalanceLimit.not_isExceededBy_iff.1 hpayer
  obtain ⟨hlow, -⟩ := BalanceLimit.not_isExceededBy_iff.1 hpayee
  rw [toRat_zero] at hpos
  unfold sendable at hs
  unfold receivable at hr
  obtain ⟨b, hb⟩ := BalanceLimit.sub?_of_inside payer.2 payer.1.balance amount (by linarith)
    (by linarith)
  obtain ⟨c, hc⟩ := BalanceLimit.add?_of_inside payee.2 payee.1.balance amount (by linarith)
    (by linarith)
  exact ⟨(b, c), Program.newBalances_eq_ok_iff.2 ⟨hb, hc⟩⟩

/-- Under moderate limits, no sender can send more than there is room for. -/
theorem Tables.WithinLimits.le_sendable (hc : t.InCents) (hm : payer.2.Moderate) {b : Decimal}
    (hb : payer.1.balance.sub? amount = some b) (hin : ¬ payer.2.IsExceededBy b) :
    amount.toRat ≤ sendable payer := by
  obtain ⟨-, -, hneg⟩ := hl.row_inside hp.payer_row hp.payer_limit
  have hamount : amount.IsCents := isCents_of_neededPlaces (checkAmount_eq_ok_iff.1 ha).2
  have hsum := hm.eq_of_nearest hneg (nearest_sub? hb)
    ((hc _ _ hp.payer_row).exists_sub hamount) hin
  obtain ⟨hlow, -⟩ := BalanceLimit.not_isExceededBy_iff.1 hin
  unfold sendable
  linarith

/-- Under moderate limits, no receiver can get more than there is room for. -/
theorem Tables.WithinLimits.le_receivable (hc : t.InCents) (hm : payee.2.Moderate) {c : Decimal}
    (hb : payee.1.balance.add? amount = some c) (hin : ¬ payee.2.IsExceededBy c) :
    amount.toRat ≤ receivable payee := by
  obtain ⟨-, -, hneg⟩ := hl.row_inside hp.payee_row hp.payee_limit
  have hamount : amount.IsCents := isCents_of_neededPlaces (checkAmount_eq_ok_iff.1 ha).2
  have hsum := hm.eq_of_nearest hneg (nearest_add? hb)
    ((hc _ _ hp.payee_row).exists_add hamount) hin
  obtain ⟨-, hhigh⟩ := BalanceLimit.not_isExceededBy_iff.1 hin
  unfold receivable
  linarith

/-- A refusal names the room at the first end that has too little. -/
theorem Tables.WithinLimits.room_of_limitExceeded {side : Side} {number : AccountNumber}
    {m : Decimal} (hc : t.InCents) (hb : Program.newBalances payer payee amount =
      .error (.refused (.limitExceeded side number m))) :
    side = .sender ∧ number = payer.1.number ∧ m.Nearest (sendable payer) ∨
      side = .receiver ∧ number = payee.1.number ∧ m.Nearest (receivable payee) ∧
        (payer.2.Moderate → m.toRat ≤ sendable payer) := by
  have hpos := (checkAmount_eq_ok_iff.1 ha).1
  obtain ⟨hpayer, -⟩ := hl.row_inside hp.payer_row hp.payer_limit
  obtain ⟨hpayee, -⟩ := hl.row_inside hp.payee_row hp.payee_limit
  have hjudged := hl.judged hp ha
  rw [hb] at hjudged
  cases hjudged with
  | tooLow hsub hx hroom =>
    exact Or.inl ⟨rfl, rfl, payer.2.nearest_negativeHeadroom hpayer hroom⟩
  | tooHigh hsub hin hadd hx hroom =>
    have hnear := payee.2.nearest_positiveHeadroom hpayee hroom
    have hlt := BalanceLimit.lt_of_add?_exceeds hpayee hpos hadd hx
    refine Or.inr ⟨rfl, rfl, hnear, fun hm => ?_⟩
    exact (hnear.below _ hlt.le).trans (hl.le_sendable hp ha hc hm hsub hin)

theorem Tables.WithinLimits.newBalances_ok_iff (hc : t.InCents) (hpayer : payer.2.Moderate)
    (hpayee : payee.2.Moderate) :
    (∃ balances, Program.newBalances payer payee amount = .ok balances) ↔
      amount.toRat ≤ sendable payer ∧ amount.toRat ≤ receivable payee := by
  constructor
  · rintro ⟨balances, h⟩
    obtain ⟨⟨hb, hin⟩, hc', hin'⟩ := Program.newBalances_eq_ok_iff.1 h
    exact ⟨hl.le_sendable hp ha hc hpayer hb hin, hl.le_receivable hp ha hc hpayee hc' hin'⟩
  · rintro ⟨hs, hr⟩
    exact hl.newBalances_of_le hp ha hs hr

end

/-! ## Requests -/

/-- A request is carried out as a proposal, or at once. -/
inductive Way where
  | proposal
  | atOnce

/-- The program that carries out a request in this way. -/
def Way.program (way : Way) (rules : Rules) (request : TransferRequest) (chance : Chance) :
    Program Journal :=
  match way with
  | proposal => Program.propose rules request chance
  | atOnce => Program.transferNow rules request chance

theorem TransferRequest.check_ne_limitExceeded (r : TransferRequest)
    (eligible : AccountNumber → Bool) (side : Side) (number : AccountNumber) (m : Decimal) :
    r.check eligible ≠ .error (.limitExceeded side number m) := by
  intro h
  unfold check checkAmount at h
  split_ifs at h <;> cases h

namespace Ledger

theorem exists_ok_provided_iff {α β : Type} {l : Ledger} {found : Except (Failure LedgerError) β}
    {next : β → Except (Failure LedgerError) α × Ledger} (hn : ∀ b, ∃ a, (next b).1 = .ok a) :
    (∃ a, (l.provided found next).1 = .ok a) ↔ ∃ b, found = .ok b := by
  cases found with
  | ok b => exact ⟨fun _ => ⟨b, rfl⟩, fun _ => hn b⟩
  | error e =>
    constructor
    · rintro ⟨a, ⟨⟩⟩
    · rintro ⟨b, ⟨⟩⟩

variable {limits : DefaultLimits} {l : Ledger} {eligible : AccountNumber → Bool}
  {request : TransferRequest} {chance : Chance} {way : Way}

/-- A request succeeds if it is valid, its amount can be moved, and its identifier is free. -/
theorem Reachable.run_way_ok_iff (h : l.Reachable limits) (ha : l.store.armed = [])
    (request : TransferRequest) :
    (∃ j, (l.run (way.program ⟨limits, eligible⟩ request chance)).1 = .ok j) ↔
      request.check eligible = .ok () ∧ l.tables.journal? chance.transfer = none ∧
        ∃ payer payee balances, Parties l.tables request.sender request.receiver payer payee ∧
          Program.newBalances payer payee request.amount = .ok balances := by
  obtain ⟨t, s, es, rfl⟩ := h.eq_calm ha
  have hgranted : ∀ rows, (∀ found, rows = .ok found ↔
      Parties t request.sender request.receiver found.1 found.2) →
      ((∃ found, t.granted eligible request chance.transfer rows = .ok found) ↔
        request.check eligible = .ok () ∧ t.journal? chance.transfer = none ∧
          ∃ payer payee balances, Parties t request.sender request.receiver payer payee ∧
            Program.newBalances payer payee request.amount = .ok balances) := by
    intro rows hrows
    constructor
    · rintro ⟨found, hf⟩
      obtain ⟨hv, hfound, hb, hx⟩ := Tables.granted_eq_ok_iff.1 hf
      exact ⟨hv, hx, _, _, _, (hrows _).1 hfound, hb⟩
    · rintro ⟨hv, hx, payer, payee, balances, hp, hb⟩
      exact ⟨((payer, payee), balances),
        Tables.granted_eq_ok_iff.2 ⟨hv, (hrows _).2 hp, hb, hx⟩⟩
  cases way with
  | proposal =>
    rw [Way.program, Program.run_propose _ _ _ rfl, exists_ok_provided_iff fun _ => ⟨_, rfl⟩]
    exact hgranted _ fun _ => Tables.content_glance_eq_ok_iff
  | atOnce =>
    rw [Way.program, Program.run_transferNow _ _ _ rfl, exists_ok_provided_iff fun _ => ⟨_, rfl⟩]
    exact hgranted _ fun _ => Tables.content_parties_eq_ok_iff

/-- A refusal that names an amount comes from the check of the new balances. -/
theorem Reachable.run_way_limitExceeded (h : l.Reachable limits) {side : Side}
    {number : AccountNumber} {m : Decimal}
    (hrun : (l.run (way.program ⟨limits, eligible⟩ request chance)).1 =
      .error (.refused (.limitExceeded side number m))) :
    request.check eligible = .ok () ∧ ∃ payer payee,
      Parties l.tables request.sender request.receiver payer payee ∧
        Program.newBalances payer payee request.amount =
          .error (.refused (.limitExceeded side number m)) := by
  have key : ∀ {p : Program Journal} {good : Journal → Ledger → Prop},
      p.Attempts l (fun j l' u => u = .empty ∧ good j l')
        (RequestRefused eligible request chance l.tables) l .empty →
      (l.run p).1 = .error (.refused (.limitExceeded side number m)) →
      RequestRefused eligible request chance l.tables
        (.refused (.limitExceeded side number m)) := by
    intro p good hp hf
    rcases Program.run_of_attempts hp with ⟨j, l', hrun, -⟩ | ⟨e, l', hrun, -, hwhy⟩
    · rw [hrun] at hf; cases hf
    · rw [hrun] at hf
      cases hf
      rcases hwhy with ⟨point, -, ⟨⟩⟩ | hwhy
      exact hwhy
  have hrefused : RequestRefused eligible request chance l.tables
      (.refused (.limitExceeded side number m)) := by
    cases way with
    | proposal => exact key (@Program.propose_attempts l ⟨limits, eligible⟩ _ _ h.atRest.held) hrun
    | atOnce =>
      exact key (@Program.transferNow_attempts l ⟨limits, eligible⟩ _ _ h.atRest.held) hrun
  rcases hrefused with ⟨e, he, hsame⟩ | ⟨e, he, hsame⟩ | ⟨hv, payer, payee, hp, hb⟩ | ⟨-, hsame⟩
  · cases hsame
    exact absurd he (request.check_ne_limitExceeded eligible side number m)
  · cases hsame
    rcases he with (⟨-, he⟩ | ⟨-, he⟩) | (⟨-, he⟩ | ⟨-, he⟩) <;> cases he
  · exact ⟨hv, payer, payee, hp, hb⟩
  · cases hsame

/-- Under moderate limits, a request with another amount succeeds if that amount is valid and there
    is room for it at both ends. -/
theorem Reachable.run_way_ok_iff_room (h : l.Reachable limits) (ha : l.store.armed = [])
    (hv : request.check eligible = .ok ()) {payer payee : Account × BalanceLimit}
    (hp : Parties l.tables request.sender request.receiver payer payee) (hpayer : payer.2.Moderate)
    (hpayee : payee.2.Moderate) (amount : Decimal) :
    (∃ j, (l.run (way.program ⟨limits, eligible⟩ { request with amount } chance)).1 = .ok j) ↔
      checkAmount amount = .ok () ∧ l.tables.journal? chance.transfer = none ∧
        amount.toRat ≤ sendable payer ∧ amount.toRat ≤ receivable payee := by
  have hmoves (hvalid : checkAmount amount = .ok ()) :=
    h.withinLimits.newBalances_ok_iff hp hvalid h.inCents hpayer hpayee
  rw [h.run_way_ok_iff ha { request with amount }]
  constructor
  · rintro ⟨hv', hfree, payer', payee', balances, hp', hb⟩
    obtain ⟨rfl, rfl⟩ := hp'.eq hp
    have hvalid := (TransferRequest.check_eq_ok_iff.1 hv').1
    exact ⟨hvalid, hfree, (hmoves hvalid).1 ⟨balances, hb⟩⟩
  · rintro ⟨hvalid, hfree, hroom⟩
    obtain ⟨-, hparties⟩ := TransferRequest.check_eq_ok_iff.1 hv
    obtain ⟨balances, hb⟩ := (hmoves hvalid).2 hroom
    exact ⟨TransferRequest.check_eq_ok_iff.2 ⟨hvalid, hparties⟩, hfree, payer, payee, balances, hp,
      hb⟩

/-- When a request is refused with a largest amount, that amount is the room at the end that it
    names, exactly so if that room is a decimal at all.  Under moderate limits of both parties,
    nothing larger can be transferred in either way, and a valid amount can be if and only if there
    is room for it at both ends; if the receiver's end is named, there is room at the sender's. -/
theorem Reachable.maxTransferable (h : l.Reachable limits) (ha : l.store.armed = []) {side : Side}
    {number : AccountNumber} {m : Decimal}
    (hrun : (l.run (way.program ⟨limits, eligible⟩ request chance)).1 =
      .error (.refused (.limitExceeded side number m))) :
    ∃ payer payee, Parties l.tables request.sender request.receiver payer payee ∧
      (side = .sender ∧ number = request.sender ∧ m.Nearest (sendable payer) ∨
        side = .receiver ∧ number = request.receiver ∧ m.Nearest (receivable payee)) ∧
      (payer.2.Moderate → payee.2.Moderate →
        (side = .receiver → m.toRat ≤ sendable payer) ∧
        ∀ (amount : Decimal) (way' : Way) (chance' : Chance),
          let retry := l.run (way'.program ⟨limits, eligible⟩ { request with amount } chance')
          (m < amount → ∀ j, retry.1 ≠ .ok j) ∧
          (checkAmount amount = .ok () → l.tables.journal? chance'.transfer = none →
            ((∃ j, retry.1 = .ok j) ↔
              amount.toRat ≤ sendable payer ∧ amount.toRat ≤ receivable payee))) := by
  obtain ⟨hv, payer, payee, hp, hb⟩ := h.run_way_limitExceeded hrun
  have hroom := h.withinLimits.room_of_limitExceeded hp (TransferRequest.check_eq_ok_iff.1 hv).1
    h.inCents hb
  rw [h.atRest.wellFormed.account _ _ hp.payer_row, h.atRest.wellFormed.account _ _ hp.payee_row]
    at hroom
  refine ⟨payer, payee, hp, hroom.imp id fun ⟨hs, hn, hm, _⟩ => ⟨hs, hn, hm⟩,
    fun hpayer hpayee => ⟨fun hside => ?_, fun amount way' chance' => ?_⟩⟩
  · rcases hroom with ⟨hside', -⟩ | ⟨-, -, -, hm⟩
    · rw [hside] at hside'; cases hside'
    · exact hm hpayer
  intro retry
  have hretry : (∃ j, retry.1 = .ok j) ↔ _ := h.run_way_ok_iff_room ha hv hp hpayer hpayee amount
  constructor
  · intro hlt j hj
    obtain ⟨-, -, hs, hr⟩ := hretry.1 ⟨j, hj⟩
    -- What there is room for does not lie above the rounded room.
    refine absurd (toRat_lt_toRat.2 hlt) (not_lt.2 ?_)
    rcases hroom with ⟨-, -, hnear⟩ | ⟨-, -, hnear, -⟩
    · exact hnear.above _ hs
    · exact hnear.above _ hr
  · intro hvalid hfree
    rw [hretry, and_iff_right hvalid, and_iff_right hfree]

/-- After the short history, the first member cannot pay 600, and is told that 495 is the most.
    Nothing more than that can be paid, and 495 can. -/
theorem Reachable.maxTransferable_short :
    let request := TransferRequest.send (.generate 10) (.generate 20) (.ofNat 600)
    let program (amount : Decimal) := Way.program .proposal ⟨.standard, fun _ => true⟩
      { request with amount } (.nth 5)
    short.store.armed = [] ∧
      (short.run (program (.ofNat 600))).1 =
        .error (.refused (.limitExceeded .sender (.generate 10) (.ofNat 495))) ∧
      (∀ amount, .ofNat 495 < amount → ∀ j, (short.run (program amount)).1 ≠ .ok j) ∧
      ∃ j, (short.run (program (.ofNat 495))).1 = .ok j := by
  intro request program
  have hrun : (short.run (program (.ofNat 600))).1 =
      .error (.refused (.limitExceeded .sender (.generate 10) (.ofNat 495))) := by decide
  obtain ⟨payer, payee, ⟨hs, hsl, hr, hrl⟩, -, hsmall⟩ := maxTransferable
    (⟨shortHistory, rfl⟩ : short.Reachable .standard) rfl hrun
  have hpayer : (short.tables.account? (.generate 10)).map Account.balance =
      some ⟨true, 5, 0, by decide, by decide⟩ := by decide
  have hpayee : (short.tables.account? (.generate 20)).map Account.balance = some (.ofNat 5) := by
    decide
  have hlimits : ∀ n ∈ [AccountNumber.generate 10, .generate 20],
      (short.tables.limit? n).map (fun limit => (limit.maxPos, limit.maxNeg)) =
        some (.ofNat 500, .ofNat 500) := by decide
  have hlimit := hlimits _ List.mem_cons_self
  have hlimit' := hlimits _ (List.mem_cons_of_mem _ List.mem_cons_self)
  simp only [show request.sender = .generate 10 from rfl] at hs hsl
  simp only [show request.receiver = .generate 20 from rfl] at hr hrl
  rw [hs, Option.map_some, Option.some_inj] at hpayer
  rw [hr, Option.map_some, Option.some_inj] at hpayee
  rw [hsl, Option.map_some, Option.some_inj, Prod.mk.injEq] at hlimit
  rw [hrl, Option.map_some, Option.some_inj, Prod.mk.injEq] at hlimit'
  have hmoderate : payer.2.Moderate := by
    rw [BalanceLimit.Moderate, hlimit.1, hlimit.2]
    norm_num [toRat_eq, Decimal.ofNat, signed]
  have hmoderate' : payee.2.Moderate := by
    rw [BalanceLimit.Moderate, hlimit'.1, hlimit'.2]
    norm_num [toRat_eq, Decimal.ofNat, signed]
  obtain ⟨-, hretry⟩ := hsmall hmoderate hmoderate'
  refine ⟨rfl, hrun, fun amount hlt => (hretry amount .proposal (.nth 5)).1 hlt, ?_⟩
  refine ((hretry (.ofNat 495) .proposal (.nth 5)).2 (by decide) (by decide)).2 ?_
  rw [sendable, receivable, hpayer, hpayee, hlimit.2, hlimit'.1]
  norm_num [toRat_eq, Decimal.ofNat, signed]

/-- A receiver may have up to 10; the sender may owe what the defaults allow. -/
def lopsidedHistory : List Step :=
  [.operate (.openAccount ⟨.ofNat 1⟩ (.nth 1)), .operate (.openAccount ⟨.ofNat 2⟩ (.nth 2)),
    .operate (.updateLimits (.generate 20) (.ofNat 10) DefaultLimits.standard.maxNeg
      (.ofMillis 3000))]

/-- An amount named in a refusal may be too large for the other end. -/
theorem maxTransferable_may_be_refused : ¬ ∀ (limits : DefaultLimits) (l : Ledger),
    l.Reachable limits → l.store.armed = [] → ∀ (way : Way) eligible (request : TransferRequest)
      chance side number m, l.tables.journal? chance.transfer = none →
      (l.run (way.program ⟨limits, eligible⟩ request chance)).1 =
        .error (.refused (.limitExceeded side number m)) → checkAmount m = .ok () →
      ∃ j, (l.run (way.program ⟨limits, eligible⟩ { request with amount := m } chance)).1 =
        .ok j := by
  intro h
  obtain ⟨j, hj⟩ := h .standard (empty.after .standard lopsidedHistory) ⟨lopsidedHistory, rfl⟩ rfl
    .proposal (fun _ => true) (.send (.generate 10) (.generate 20) (.ofNat 501)) (.nth 4) .sender
    (.generate 10) (.ofNat 500) (by decide) (by decide) (by decide)
  have hrefused : ((empty.after .standard lopsidedHistory).run (Way.program .proposal
      ⟨.standard, fun _ => true⟩ (.send (.generate 10) (.generate 20) (.ofNat 500)) (.nth 4))).1 =
        .error (.refused (.limitExceeded .receiver (.generate 20) (.ofNat 10))) := by decide
  cases hj.symm.trans hrefused

end Ledger
end CreditCircle

/-
  Reading back the balance report.

  * `Ledger.Reachable.not_isNegativeZero`: no balance is a zero with a sign.
  * `isStripped_of_process`: the aliases of a script have no blanks at their ends.
  * `writeReport_none`: an output without a limit takes the whole report.
  * `BalanceRow.SaidBy`: a record that says what a line of the report is about.
  * `process_report`: the report of a script is read back as its lines, with the balances that the
    accounts have.
-/
import CreditCircle.Proofs.AliasTables
import CreditCircle.Proofs.CentsText
import CreditCircle.Proofs.CommandGrammar
import CreditCircle.Proofs.ExactTransfers
import CreditCircle.Proofs.WrittenScripts

namespace CreditCircle

open Decimal

/-! ## Balances -/

/-- What an amount is added to or taken from is no zero with a sign afterwards. -/
theorem lasting_not_isNegativeZero : Lasting fun d => ¬ d.IsNegativeZero where
  zero := by decide
  add _ ha hc := not_isNegativeZero_of_add? (coeff_ne_zero_of_pos (checkAmount_eq_ok_iff.1 ha).1) hc
  sub _ ha hc := not_isNegativeZero_of_sub? (coeff_ne_zero_of_pos (checkAmount_eq_ok_iff.1 ha).1) hc

theorem Ledger.Reachable.not_isNegativeZero {limits : DefaultLimits} {l : Ledger}
    (h : l.Reachable limits) {n : AccountNumber} {a : Account} (ha : l.tables.account? n = some a) :
    ¬ a.balance.IsNegativeZero :=
  h.balances lasting_not_isNegativeZero n a ha

namespace Script

open Text

namespace Replay

/-! ## Aliases -/

section
variable {rules : Rules} {r : Replay} {Q : Table String AccountNumber → Prop} {α β : Type}

/-- The ledger gives no aliases. -/
theorem operate_accounts {p : Program α} {next : α → Replay → Outcome β} (hr : Q r.accounts)
    (hn : ∀ a l', Q (next a { r with ledger := l' }).2.accounts) :
    Q (r.operate p next).2.accounts := by
  unfold operate
  cases r.ledger.run p with
  | mk result l' =>
    cases result with
    | ok a => exact hn a l'
    | error f => exact hr

theorem changeLimits_accounts (number : AccountNumber) (maxPos maxNeg : Option Decimal)
    (now : Timestamp) (hr : Q r.accounts) :
    Q (r.changeLimits number maxPos maxNeg now).2.accounts :=
  given_ends (P := fun s => Q s.accounts) hr fun _ _ => operate_accounts hr fun _ _ => hr

theorem remember_accounts (label : String) (x : TransferId) (hr : Q r.accounts) :
    Q (r.remember label x).accounts := by
  unfold remember
  split
  · exact hr
  · exact hr

theorem openEntity_accounts (chance : Chance) {entity : String} (maxPos maxNeg : Option Decimal)
    (hr : Q r.accounts) (hput : ∀ n, Q (r.accounts.put entity n)) :
    Q (openEntity rules r chance entity maxPos maxNeg).2.accounts := by
  unfold openEntity
  split
  · exact hr
  split
  · exact hr
  refine operate_accounts hr fun a l' => ?_
  dsimp only
  split
  · exact changeLimits_accounts _ _ _ _ (hput a.number)
  · exact hput a.number

/-- A command gives an alias only if it opens an account under this alias. -/
theorem apply_accounts (chance : Chance) (command : Command) (hr : Q r.accounts)
    (hopen : ∀ entity maxPos maxNeg n, command = .open entity maxPos maxNeg →
      Q (r.accounts.put entity n)) : Q (r.apply rules chance command).2.accounts := by
  cases command with
  | «open» entity maxPos maxNeg =>
    exact openEntity_accounts chance maxPos maxNeg hr fun n => hopen entity maxPos maxNeg n rfl
  | limits entity maxPos maxNeg =>
    exact given_ends (P := fun s => Q s.accounts) hr fun n _ =>
      changeLimits_accounts n maxPos maxNeg _ hr
  | propose label sender receiver amount initiator description =>
    exact given_ends (P := fun s => Q s.accounts) hr fun _ _ =>
      operate_accounts hr fun j _ => remember_accounts label j.transfer hr
  | transfer label sender receiver amount description =>
    exact given_ends (P := fun s => Q s.accounts) hr fun _ _ =>
      operate_accounts hr fun j _ => remember_accounts label j.transfer hr
  | accept | reject | cancel =>
    exact given_ends (P := fun s => Q s.accounts) hr fun _ _ => operate_accounts hr fun _ _ => hr

end

/-- A row that opens an account has its alias without blanks. -/
theorem isStripped_of_commandOf {columns : List (Option Column)} {row : Csv.Row} {entity : String}
    {maxPos maxNeg : Option Decimal}
    (h : commandOf columns row = .ok (.open entity maxPos maxNeg)) : IsStripped entity := by
  obtain ⟨-, record, -, -, hrecord⟩ := commandOf_eq_ok_iff.1 h
  obtain ⟨op, -, -, hcarries⟩ := Command.ofRecord_eq_ok_iff.1 hrecord
  cases hcarries
  exact strip_strip _

/-- So all aliases of a script are without blanks. -/
theorem isStripped_of_process (rules : Rules) (chances : Nat → Chance) (script : List UInt8)
    {name : String} {n : AccountNumber}
    (hn : ((start .empty).process rules chances script).2.accounts.get? name = some n) :
    IsStripped name := by
  have hstart : ∀ name n, (start .empty).accounts.get? name = some n → IsStripped name :=
    fun _ _ h => nomatch h
  refine process_ends (P := fun s => ∀ name n, s.accounts.get? name = some n → IsStripped name)
    (fun columns row command hcommand r chance hr => ?_) hstart chances script name n hn
  refine apply_accounts (Q := fun t => ∀ name n, t.get? name = some n → IsStripped name) chance
    command hr fun entity maxPos maxNeg m hopen name' n' hname' => ?_
  subst hopen
  rw [Table.get?_put] at hname'
  split at hname'
  · rename_i heq
    exact heq ▸ isStripped_of_commandOf hcommand
  · exact hr name' n' hname'

end Replay

/-! ## Writing -/

/-- A fold none of whose steps fails does not fail. -/
theorem exists_foldlM {m : Type → Type} [Monad m] [LawfulMonad m] {σ α : Type} {P : σ → Prop}
    {f : σ → α → m σ} (hstep : ∀ s x, P s → ∃ s', f s x = pure s' ∧ P s') (xs : List α) :
    ∀ {s : σ}, P s → ∃ s', xs.foldlM f s = pure s' ∧ P s' := by
  induction xs with
  | nil => exact fun {s} hs => ⟨s, rfl, hs⟩
  | cons x xs ih =>
    intro s hs
    obtain ⟨s', hx, hs'⟩ := hstep s x hs
    rw [List.foldlM_cons, hx, pure_bind]
    exact ih hs'

section
variable {stream : Csv.Stream} (h : stream.room = none)
include h

theorem exists_flush : ∃ stream', stream.flush = some stream' ∧ stream'.room = none := by
  unfold Csv.Stream.flush
  rw [h]
  exact ⟨_, rfl, rfl⟩

theorem exists_put (piece : List UInt8) :
    ∃ stream', stream.put piece = some stream' ∧ stream'.room = none := by
  unfold Csv.Stream.put
  split
  · exact ⟨_, rfl, h⟩
  · obtain ⟨stream', hflush, hroom⟩ := exists_flush h
    rw [hflush]
    exact ⟨_, rfl, hroom⟩

theorem exists_putRecord (fields : List (List UInt8)) :
    ∃ stream', stream.putRecord fields = some stream' ∧ stream'.room = none :=
  exists_foldlM (fun _ piece hs => exists_put hs piece) _ h

end

/-- An output without a limit takes all lines of a report. -/
theorem exists_putRows (rows : List BalanceRow) {stream : Csv.Stream} (h : stream.room = none) :
    ∃ stream', rows.foldlM (fun stream row =>
        orFault .record (stream.putRecord (fieldBytes row.fields))) stream = .ok stream' ∧
      stream'.room = none := by
  refine exists_foldlM (P := fun s : Csv.Stream => s.room = none) (fun stream row hroom => ?_) rows
    h
  obtain ⟨stream', hrecord, hroom'⟩ := exists_putRecord hroom (fieldBytes row.fields)
  exact ⟨stream', by rw [hrecord]; rfl, hroom'⟩

/-- An output without a limit takes the whole report. -/
theorem writeReport_none (rows : List BalanceRow) :
    writeReport none rows = .ok (reportBytes rows) := by
  have hstream : ({ room := none } : Csv.Stream).room = none := rfl
  obtain ⟨stream, hheader, hroom⟩ := exists_putRecord hstream (fieldBytes reportHeader)
  obtain ⟨stream', hrows, hroom'⟩ := exists_putRows rows hroom
  obtain ⟨stream'', hflush, -⟩ := exists_flush hroom'
  have hsend : sendReport none rows = .ok () := by
    simp only [sendReport, bind_eq_ok_iff]
    exact ⟨stream, by rw [hheader]; rfl, stream', hrows, stream'', by rw [hflush]; rfl, rfl⟩
  rw [writeReport, hsend]

/-! ## Reading back -/

theorem records_reportBytes (rows : List BalanceRow) :
    (Csv.records (reportBytes rows)).map Csv.Row.fields =
      fieldBytes reportHeader :: rows.map fun row => fieldBytes row.fields := by
  have hlength : ∀ fields ∈ reportHeader :: rows.map BalanceRow.fields, 2 ≤ fields.length := by
    intro fields hfields
    rcases List.mem_cons.1 hfields with rfl | hfields
    · decide
    · obtain ⟨row, -, rfl⟩ := List.mem_map.1 hfields
      exact (by decide : 2 ≤ 4)
  have hfirst : (Csv.writeRecord (fieldBytes reportHeader)).head? = some 0x65 := by decide
  rw [reportBytes, records_writeTexts hlength hfirst (by decide), List.map_cons, List.map_map]
  rfl

/-- What a record says of a line of the report: the alias as it is, the balance in a text from
    which it is read, and the bounds in cents. -/
def BalanceRow.SaidBy (row : BalanceRow) (record : Csv.Row) : Prop :=
  ∃ balance read, rowTexts record =
      .ok [row.entity, balance, row.maxPos.cents, row.maxNeg.cents] ∧
    Decimal.ofString? balance = some read ∧ read.toRat = row.balance.toRat ∧ balance ≠ "-0.00"

theorem BalanceRow.saidBy {row : BalanceRow} {record : Csv.Row}
    (hfields : record.fields = fieldBytes row.fields) (hentity : IsStripped row.entity)
    (hcents : row.balance.IsCents) (hzero : ¬ row.balance.IsNegativeZero) :
    row.SaidBy record := by
  have hstripped : ∀ field ∈ row.fields, IsStripped field := by
    have hd : ∀ d : Decimal, IsStripped d.cents := strip_cents
    simp [BalanceRow.fields, hentity, hd]
  obtain ⟨read, hread, hvalue⟩ := exists_ofString?_cents hcents
  exact ⟨row.balance.cents, read, rowTexts_fieldBytes hfields hstripped, hread, hvalue,
    cents_ne hcents hzero⟩

namespace Replay

/-- A line of the report is about an account with its alias and its balance. -/
theorem Lists.exists_account {r : Replay} {row : BalanceRow} {n : AccountNumber}
    (h : r.Lists row n) : r.accounts.get? row.entity = some n ∧
      ∃ a, r.ledger.tables.account? n = some a ∧ row.balance = a.balance := by
  obtain ⟨hname, a, limit, ha, -, hrow⟩ := h
  exact ⟨account_eq_ok_iff.1 hname, a, Ledger.found_eq_ok_iff.1 ha,
    congrArg BalanceRow.balance hrow⟩

/-- The balance report loses nothing.  Whatever the script, all balances are whole cents and no
    zero among them has a sign.  The report that is written has a line for every alias and so for
    every account, and it is read back, under its header, as these lines: each with the alias as it
    is, and with a text from which the balance of the account is read. -/
theorem process_report (rules : Rules) (chances : Nat → Chance) (script : List UInt8) :
    let r := ((start .empty).process rules chances script).2
    (∀ a ∈ r.ledger.tables.accounts.values, a.balance.IsCents ∧ ¬ a.balance.IsNegativeZero) ∧
    ∃ rows numbers bytes header records, r.balances = .ok rows ∧
      (∀ name, name ∈ rows.map BalanceRow.entity ↔ ∃ n, r.account name = .ok n) ∧
      (rows.map BalanceRow.entity).Nodup ∧
      numbers.Perm (r.ledger.tables.accounts.values.map Account.number) ∧
      List.Forall₂ r.Lists rows numbers ∧
      writeReport none rows = .ok bytes ∧ Csv.records bytes = header :: records ∧
      headerNames header = .ok ["entity", "balance", "max_pos_bal", "max_neg_bal"] ∧
      List.Forall₂ (fun record row => row.SaidBy record) records rows := by
  intro r
  have hr : (start .empty).Onward rules.limits r :=
    (Onward.refl .start_empty .start_empty).next (.script chances script)
  have hbalances : ∀ n a, r.ledger.tables.account? n = some a →
      a.balance.IsCents ∧ ¬ a.balance.IsNegativeZero :=
    fun n a ha => ⟨hr.ready.reachable.inCents n a ha, hr.ready.reachable.not_isNegativeZero ha⟩
  obtain ⟨rows, hrows, hnames, hlines⟩ := hr.mirrors.exists_rows hr.ready
  have hsaid : ∀ row ∈ rows, ∀ record : Csv.Row, record.fields = fieldBytes row.fields →
      row.SaidBy record := by
    refine ((List.forall₂_and_left _ _).1 (hlines.imp fun row n hline => ⟨?_, hline⟩)).1
    obtain ⟨hname, a, ha, hbalance⟩ := hline.exists_account
    obtain ⟨hcents, hzero⟩ := hbalances n a ha
    rw [← hbalance] at hcents hzero
    exact fun record hfields =>
      row.saidBy hfields (isStripped_of_process rules chances script hname) hcents hzero
  have hrecords := records_reportBytes rows
  cases hbytes : Csv.records (reportBytes rows) with
  | nil => rw [hbytes] at hrecords; cases hrecords
  | cons header records =>
    rw [hbytes, List.map_cons, List.cons.injEq] at hrecords
    refine ⟨fun a ha => ?_, rows, r.aliases.map Prod.snd, reportBytes rows, header, records, hrows,
      fun name => ?_, ?_, hr.mirrors.aliases_perm_numbers hr.ready, hlines, writeReport_none rows,
      hbytes, ?_, forall₂_of_map_eq hrecords.2 fun record row hrow => hsaid row hrow record⟩
    · obtain ⟨n, ha⟩ := (Table.mem_values_iff _ _).1 ha
      exact hbalances n a ha
    · simp only [hnames, mem_map_aliases, account_eq_ok_iff]
    · rw [hnames]
      exact r.nodup_aliases
    · rw [headerNames, hrecords.1]
      exact textsFrom_fieldBytes _ (by decide)

end Replay
end Script
end CreditCircle

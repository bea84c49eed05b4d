/-
  Scripts do not depend on chance.

  * `Ledger.Alike.same`, `Alike.same`: it does not matter in which order the rows of the tables are.
  * `applyRow_cases`, `applyRows_alike`: rows are carried out on both of two replays that are alike,
    or skipped on both.
  * `Alike.exists_balances`: replays that are alike have the same report.
  * `MayProcess.any_chance`: two executions of a script come to the same, whatever they draw and
    read off the clock and in whatever order the rows of the tables are.
-/
import CreditCircle.Proofs.AliasTables
import CreditCircle.Proofs.AlikeReplays

namespace CreditCircle

/-! ## The order of rows -/

namespace Tables.Same

variable {t t' : Tables} (h : t.Same t')
include h

theorem hasRow {n : AccountNumber} {row : Account × BalanceLimit} (hn : t.HasRow n row) :
    t'.HasRow n row :=
  ⟨(h.accounts n).symm.trans hn.1, (h.limits n).symm.trans hn.2⟩

theorem journalById? (id : JournalId) : t.journalById? id = t'.journalById? id := by
  have hjournal : t.journal? = t'.journal? := funext h.journals
  unfold Tables.journalById?
  rw [h.journalIds id, hjournal]

theorem postingsOfJournal (id : JournalId) : t.postingsOfJournal id = t'.postingsOfJournal id := by
  unfold Tables.postingsOfJournal
  rw [h.postings id]

end Tables.Same

theorem Ledger.Alike.same {ρ : AccountNumber → AccountNumber → Prop} {l l' m m' : Ledger}
    (h : l.Alike ρ l') (hm : l.Same m) (hm' : l'.Same m') : m.Alike ρ m' := by
  have ht : l.tables.Same m.tables := hm.store.tables
  have ht' : l'.tables.Same m'.tables := hm'.store.tables
  refine ⟨⟨fun n n' hn => ?_, fun id => ?_, fun id => ?_⟩, ?_, ?_⟩
  · obtain ⟨row, row', hrow, hrow', halike⟩ := h.tables.rows n n' hn
    exact ⟨row, row', ht.hasRow hrow, ht'.hasRow hrow', halike⟩
  · rw [← ht.journalById?, ← ht'.journalById?]
    exact h.tables.journals id
  · rw [← ht.postingsOfJournal, ← ht'.postingsOfJournal]
    exact h.tables.postings id
  · rw [← hm.events, ← hm'.events]
    exact h.events
  · rw [← hm.store.sequences, ← hm'.store.sequences]
    exact h.sequences

namespace Script.Replay

/-- What a summary says about a script, but for the reasons why rows were skipped: they may name
    account numbers and identifiers. -/
def Summary.outline (summary : Summary) : Nat × List Nat :=
  (summary.applied, summary.skipped.map Skipped.line)

variable {limits : DefaultLimits} {columns : List (Option Column)} {chances chances' : Nat → Chance}
  {r r' s s' : Replay}

/-! ## Rows -/

namespace Alike

/-- A row is carried out on both, or it is skipped on both and nothing has changed. -/
theorem applyRow_cases {index : Nat} {row : Csv.Row} {rows : List Csv.Row} (h : r.Alike r')
    (hr : r.ReadyFor limits columns chances index (row :: rows))
    (hr' : r'.ReadyFor limits columns chances' index (row :: rows)) :
    (∃ s s', applyRow (.open limits) columns r (chances index) row = (.ok (), s) ∧
        applyRow (.open limits) columns r' (chances' index) row = (.ok (), s') ∧ s.Alike s') ∨
      ∃ e e', applyRow (.open limits) columns r (chances index) row = (.error (.refused e), r) ∧
        applyRow (.open limits) columns r' (chances' index) row = (.error (.refused e'), r') := by
  have htogether : Together (applyRow (.open limits) columns r (chances index) row)
      (applyRow (.open limits) columns r' (chances' index) row) := by
    have hfree := hr.free_row
    have hfree' := hr'.free_row
    unfold applyRow
    unfold rowDraws at hfree hfree'
    cases hc : commandOf columns row with
    | ok command =>
      rw [hc] at hfree hfree'
      exact h.apply hr.toReady hr'.toReady command hfree hfree'
    | error e => exact .error _ _ r r'
  have hatomic : Atomic limits r (applyRow (.open limits) columns r (chances index) row) :=
    applyRow_atomic hr.toReady (fun _ => true) ..
  have hatomic' : Atomic limits r' (applyRow (.open limits) columns r' (chances' index) row) :=
    applyRow_atomic hr'.toReady (fun _ => true) ..
  rcases hatomic with ⟨_, s, hrow, -⟩ | ⟨e, hrow⟩
  · rcases hatomic' with ⟨_, s', hrow', -⟩ | ⟨e', hrow'⟩
    · rw [hrow, hrow'] at htogether
      obtain ⟨halike⟩ := htogether
      exact .inl ⟨s, s', hrow, hrow', halike⟩
    · rw [hrow, hrow'] at htogether
      cases htogether
  · rcases hatomic' with ⟨_, s', hrow', -⟩ | ⟨e', hrow'⟩
    · rw [hrow, hrow'] at htogether
      cases htogether
    · exact .inr ⟨e, e', hrow, hrow'⟩

/-- Two executions of some rows skip the same ones and lead to replays that are alike. -/
theorem applyRows_alike (rows : List Csv.Row) : ∀ (index : Nat) {summary summary' : Summary}
    {r r' : Replay}, r.Alike r' → r.ReadyFor limits columns chances index rows →
      r'.ReadyFor limits columns chances' index rows → summary.outline = summary'.outline →
      let o := applyRows (.open limits) columns chances index summary r rows
      let o' := applyRows (.open limits) columns chances' index summary' r' rows
      o.1.map Summary.outline = o'.1.map Summary.outline ∧ o.2.Alike o'.2 := by
  induction rows with
  | nil =>
    intro index summary summary' r r' h _ _ hs
    rw [Summary.outline, Summary.outline, Prod.mk.injEq] at hs
    refine ⟨?_, h⟩
    show Except.ok _ = Except.ok _
    simp only [Summary.outline, List.map_reverse, hs]
  | cons row rows ih =>
    intro index summary summary' r r' h hr hr' hs
    have hnext := hr.next
    have hnext' := hr'.next
    rw [Summary.outline, Summary.outline, Prod.mk.injEq] at hs
    unfold applyRows
    rcases h.applyRow_cases hr hr' with ⟨s, s', hrow, hrow', halike⟩ | ⟨e, e', hrow, hrow'⟩
    · rw [hrow] at hnext ⊢
      rw [hrow'] at hnext' ⊢
      refine ih (index + 1) halike hnext hnext' ?_
      simp only [Summary.outline, hs]
    · rw [hrow] at hnext ⊢
      rw [hrow'] at hnext' ⊢
      refine ih (index + 1) h hnext hnext' ?_
      simp only [Summary.outline, List.map_cons, hs]

/-- It does not matter in which order the rows of the tables are. -/
theorem same (h : r.Alike r') (hs : r.Same s) (hs' : r'.Same s') : s.Alike s' := by
  have halias : SameAlias s.accounts s'.accounts = SameAlias r.accounts r'.accounts := by
    funext m n
    simp only [SameAlias, hs.accounts _, hs'.accounts _]
  refine ⟨fun name => ?_, ?_, ?_, fun label => ?_, ?_⟩
  · rw [← hs.accounts.has, ← hs'.accounts.has]
    exact h.named name
  · simpa only [OneToOne, hs.accounts _] using h.oneToOne
  · simpa only [OneToOne, hs'.accounts _] using h.oneToOne'
  · rw [← hs.transfers label, ← hs'.transfers label]
    refine optionRel_imp ?_ (h.labels label)
    rintro x x' ⟨j, k, hj, hk, hid⟩
    exact ⟨j, k, (hs.ledger.store.tables.journals x).symm.trans hj,
      (hs'.ledger.store.tables.journals x').symm.trans hk, hid⟩
  · rw [halias]
    exact h.ledger.same hs.ledger hs'.ledger

end Alike

/-! ## The report -/

namespace Alike

variable (h : r.Alike r')
include h

/-- The same aliases, in the same order. -/
theorem names_eq : r.aliases.map Prod.fst = r'.aliases.map Prod.fst := by
  have hkeys : r.accounts.keys.Perm r'.accounts.keys := by
    refine (List.perm_ext_iff_of_nodup r.accounts.nodup r'.accounts.nodup).2 fun name => ?_
    show name ∈ r.accounts.keys ↔ name ∈ r'.accounts.keys
    rw [Table.mem_keys_iff, Table.mem_keys_iff, h.named]
  have hnames : (r.aliases.map Prod.fst).Perm (r'.aliases.map Prod.fst) :=
    (r.aliases_perm.map _).trans (hkeys.trans (r'.aliases_perm.map _).symm)
  exact hnames.eq_of_pairwise (fun _ _ _ _ => String.le_antisymm) r.pairwise_aliases
    r'.pairwise_aliases

theorem exists_balanceOf {m n : AccountNumber} (hmn : SameAlias r.accounts r'.accounts m n)
    (entity : String) :
    ∃ row, balanceOf r.ledger entity m = .ok row ∧ balanceOf r'.ledger entity n = .ok row := by
  obtain ⟨row, row', hm, hn, halike⟩ := h.ledger.tables.rows m n hmn
  refine ⟨_, balanceOf_eq_ok hm.1 hm.2 entity, ?_⟩
  rw [balanceOf_eq_ok hn.1 hn.2 entity, halike.balance, halike.maxPos, halike.maxNeg]

theorem exists_mapM_balanceOf : ∀ {es es' : List (String × AccountNumber)},
    es.map Prod.fst = es'.map Prod.fst → (∀ e ∈ es, r.accounts.get? e.1 = some e.2) →
      (∀ e ∈ es', r'.accounts.get? e.1 = some e.2) →
      ∃ rows, es.mapM (fun e => balanceOf r.ledger e.1 e.2) = .ok rows ∧
        es'.mapM (fun e => balanceOf r'.ledger e.1 e.2) = .ok rows := by
  intro es
  induction es with
  | nil =>
    intro es' hnames _ _
    obtain rfl : es' = [] := by simpa using hnames.symm
    exact ⟨[], rfl, rfl⟩
  | cons e es ih =>
    intro es' hnames hes hes'
    cases es' with
    | nil => simp at hnames
    | cons e' es' =>
      rw [List.map_cons, List.map_cons, List.cons.injEq] at hnames
      rw [List.forall_mem_cons] at hes hes'
      obtain ⟨row, hrow, hrow'⟩ := h.exists_balanceOf
        ⟨e.1, hes.1, hnames.1 ▸ hes'.1⟩ e.1
      obtain ⟨rows, hrows, hrows'⟩ := ih hnames.2 hes.2 hes'.2
      refine ⟨row :: rows, ?_, ?_⟩
      · rw [List.mapM_cons, hrow, hrows]
        rfl
      · rw [List.mapM_cons, ← hnames.1, hrow', hrows']
        rfl

/-- Both report the same lines. -/
theorem exists_balances : ∃ rows, r.balances = .ok rows ∧ r'.balances = .ok rows := by
  obtain ⟨rows, hrows, hrows'⟩ := h.exists_mapM_balanceOf h.names_eq
    (fun _ => get?_of_mem_aliases) fun _ => get?_of_mem_aliases
  exact ⟨rows, congrArg (Except.mapError _) hrows, congrArg (Except.mapError _) hrows'⟩

end Alike

/-! ## Scripts -/

theorem process_alike (limits : DefaultLimits) {script : List UInt8}
    (hd : (draws chances script).Nodup) (hd' : (draws chances' script).Nodup) :
    ((start .empty).process (.open limits) chances script).1.map Summary.outline =
        ((start .empty).process (.open limits) chances' script).1.map Summary.outline ∧
      ((start .empty).process (.open limits) chances script).2.Alike
        ((start .empty).process (.open limits) chances' script).2 := by
  unfold draws at hd hd'
  unfold process
  dsimp only
  cases hc : columnsOf (Csv.records script) with
  | error e => exact ⟨rfl, .start_empty⟩
  | ok columns =>
    rw [hc] at hd hd'
    exact Alike.applyRows_alike _ 0 .start_empty (.start_empty hd) (.start_empty hd') rfl

/-- Two executions of a script come to the same, whatever they draw at random and read off the
    clock, if neither draws anything twice, and in whatever order the rows of the tables are.  They
    carry out as many rows and skip the same ones, they report the same bytes, and the ledgers they
    lead to say the same: where accounts are known by their aliases, transfers by the keys of their
    journals, and times do not count, the journals, the postings and the events are the same. -/
theorem MayProcess.any_chance {script : List UInt8}
    {o o' : Except (Failure ReplayError) Summary × Replay} (hd : (draws chances script).Nodup)
    (hd' : (draws chances' script).Nodup)
    (h : (start .empty).MayProcess (.open limits) chances script o)
    (h' : (start .empty).MayProcess (.open limits) chances' script o') :
    o.1.map Summary.outline = o'.1.map Summary.outline ∧
      (∃ rows, o.2.balances = .ok rows ∧ o'.2.balances = .ok rows) ∧
      (∀ room, o.2.balances.bind (writeReport room) = o'.2.balances.bind (writeReport room)) ∧
      o.2.Alike o'.2 := by
  obtain ⟨hresult, hsame⟩ := h.same (.refl _)
  obtain ⟨hresult', hsame'⟩ := h'.same (.refl _)
  obtain ⟨houtline, hreplay⟩ := process_alike limits hd hd'
  have halike := hreplay.same hsame.symm hsame'.symm
  obtain ⟨rows, hrows, hrows'⟩ := halike.exists_balances
  refine ⟨?_, ⟨rows, hrows, hrows'⟩, fun room => ?_, halike⟩
  · rw [hresult, hresult', houtline]
  · rw [hrows, hrows']

/-- A script that opens two accounts, one of them twice, and moves money between them, once at once
    and once after it has been accepted. -/
def backAndForth : List UInt8 := Text.Utf8.encode
  "op,ref,from,to,amount\nopen,b\nopen,a\nopen,a\ntransfer,t,b,a,5\nsend,u,a,b,7\naccept,u\n".toList

/-- The numbers of the two accounts are drawn in falling order, too. -/
theorem MayProcess.any_chance_short :
    let o := (start .empty).process (.open .standard) .nth backAndForth
    let o' := (start .empty).process (.open .standard) (fun k => .nth (10 - k)) backAndForth
    o.1.map Summary.outline = .ok (5, [4]) ∧ o'.1.map Summary.outline = .ok (5, [4]) ∧
      (∃ rows, o.2.balances = .ok rows ∧ o'.2.balances = .ok rows) ∧ o.2.Alike o'.2 := by
  intro o o'
  have houtline : o.1.map Summary.outline = .ok (5, [4]) := by decide +kernel
  have h := mayProcess_process (start .empty) (.open .standard) .nth backAndForth
  have h' := mayProcess_process (start .empty) (.open .standard) (fun k => .nth (10 - k))
    backAndForth
  obtain ⟨hsame, hbalances, -, halike⟩ :=
    MayProcess.any_chance (by decide +kernel) (by decide +kernel) h h'
  exact ⟨houtline, hsame.symm.trans houtline, hbalances, halike⟩

end Script.Replay
end CreditCircle

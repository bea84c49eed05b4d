/-
  Crews whose operations work on locked rows.

  * `Phase`: an operation is at work on its footing, or has committed.
  * `Attended`: a crew in which every operation is in its phase.
  * `Phase.Moves`: what one step makes of the phase of its operation and of the tables.
  * `Attended.step`: every step is such a move, and the other operations stay in their phases.
-/
import CreditCircle.Proofs.Dealings
import CreditCircle.Proofs.Locks

namespace CreditCircle

/-! ## The footing among others -/

namespace Footing

variable {g : Footing} {drawn : Option TransferId} {keys keys' : List RowKey} {l l' : Ledger}
  {u u' : UnitOfWork} {c : Call}

theorem after_tables (g : Footing) (l : Ledger) (c : Call) :
    (g.after l c).tables = if c.key?.isSome then l.tables else g.tables := by
  cases c <;> rfl

theorem after_key (g : Footing) (l : Ledger) (c : Call) :
    (g.after l c).key = g.key ∨ (g.after l c).key = some ⟨l.store.sequences.journal + 1⟩ := by
  cases c <;> first | exact Or.inl rfl | exact Or.inr rfl

theorem Holds.uses (h : g.Holds drawn keys l) (hu : Uses l l') (hk : ∀ k ∈ keys', k ∈ keys) :
    g.Holds drawn keys' l' where
  armed := List.eq_nil_of_subset_nil (h.armed ▸ hu.armed)
  keyed := hu.tables ▸ h.keyed.mono hu.sequences
  rows := hu.tables ▸ ⟨fun n hn => h.rows.account n (hk _ hn), fun n hn => h.rows.limit n (hk _ hn),
    fun x j hx => h.rows.journal x j (hk _ hx)⟩
  fresh := hu.tables ▸ h.fresh
  given k hk := Nat.le_trans (h.given k hk) hu.sequences.2.1
  unused := hu.tables ▸ h.unused

/-- The footing after a call of one's own. -/
theorem Holds.after (h : g.Holds drawn u.locks l) (hv : Visit l u c l' u')
    (hc : c.commits = false)
    (hg : ∀ k, (g.after l c).key = some k → k.value ≤ l'.store.sequences.journal) :
    (g.after l c).Holds drawn u'.locks l' := by
  have huses := hv.uses hc
  have hl : Footing.Holds g drawn [] l' := h.uses huses nofun
  refine ⟨hl.armed, hl.keyed, ?_, hl.fresh, hg, fun k hk x j hj hid => ?_⟩
  · rw [after_tables]
    split
    · rw [huses.tables]
      exact .refl _ _
    · rename_i hkey
      refine (h.uses huses fun key hk => ?_).rows
      rcases hv.locks hk with hk | hk
      · exact hk
      · rw [hk] at hkey
        exact absurd rfl hkey
  · rcases after_key g l c with hsame | hnew
    · exact hl.unused k (hsame ▸ hk) x j hj hid
    · -- Keys that are in use have been given out before.
      rw [hnew] at hk
      cases hk
      have hle := h.keyed.id_le x j (huses.tables ▸ hj)
      rw [hid] at hle
      exact absurd hle (Nat.not_succ_le_self _)

/-- The footing after a commit of somebody else. -/
theorem Holds.fulfilled {α : Type} {v : Purpose α} {a : α} {g' : Footing}
    (h : g.Holds drawn keys l) (h' : g'.Holds v.drawn keys' l)
    (hf : Fulfils v a g'.key keys' l l'.tables) (hseq : l.store.sequences ≤ l'.store.sequences)
    (harmed : ∀ point ∈ l'.store.armed, point ∈ l.store.armed)
    (hkeys : ∀ k ∈ keys, k ∉ keys') (hdrawn : ∀ x, drawn = some x → v.drawn ≠ some x)
    (hkey : ∀ k, g.key = some k → g'.key ≠ some k) : g.Holds drawn keys l' where
  armed := List.eq_nil_of_subset_nil (h.armed ▸ harmed)
  keyed := hf.keyed.mono hseq
  rows := by
    have hpersists : l.tables.Persists keys l'.tables → g.tables.Persists keys l'.tables :=
      fun hp => h.rows.trans hp fun _ hk => hk
    refine hpersists ⟨fun n hn => (hf.account n (hkeys _ hn)).1,
      fun n hn => (hf.account n (hkeys _ hn)).2, fun x j hx hj => ?_⟩
    rcases hf.journal x with hsame | ⟨hlock, -⟩ | hnew
    · exact hsame.trans hj
    · exact absurd hlock (hkeys _ hx)
    · exact nomatch (h'.fresh x hnew).symm.trans hj
  fresh x hx := by
    rcases hf.journal x with hsame | ⟨-, hold⟩ | hnew
    · exact hsame.trans (h.fresh x hx)
    · exact absurd (h.fresh x hx) hold
    · exact absurd hnew (hdrawn x hx)
  given k hk := Nat.le_trans (h.given k hk) hseq.2.1
  unused k hk x j hj hid := by
    rcases hf.ids x j hj with ⟨y, j', hj', hid'⟩ | hmine
    · exact h.unused k hk y j' hj' (hid'.trans hid)
    · exact hkey k hk (hid ▸ hmine)

end Footing

/-! ## Phases -/

/-- What a program that has ended still holds makes no difference to it. -/
theorem Program.Deals.of_ended {α : Type} {v : Purpose α} {g : Footing} {u u' : UnitOfWork}
    {p : Program α} (h : p.Deals v g u) (he : p.ended = true) : p.Deals v g u' := by
  cases p with
  | done a => exact h
  | fail e => exact h
  | call c next => cases he

/-- How far an operation is. -/
inductive Phase (α : Type) where
  /-- At work on its footing, or failed. -/
  | working (g : Footing)
  /-- It has committed and will give its result. -/
  | committed (a : α)

namespace Phase

variable {α : Type}

/-- The key of the new journal. -/
def key : Phase α → Option JournalId
  | working g => g.key
  | committed _ => none

/-- The worker is in the phase. -/
def Fits (v : Purpose α) (w : Worker α) (l : Ledger) : Phase α → Prop
  | working g => w.rest.Deals v g w.unit ∧ g.Holds v.drawn w.unit.locks l
  | committed a => w.rest.Sealed a

/-- What a step that turns `t` into `t'` makes of a phase; if it is `marked`, it takes a row or
    commits. -/
inductive Moves (v : Purpose α) (t t' : Tables) (marked : Bool) : Phase α → Phase α → Prop
  | work {g g' : Footing} (tables : t' = t) (unmarked : marked = false)
      (same : g'.tables = g.tables) : Moves v t t' marked (.working g) (.working g')
  | take {g g' : Footing} (tables : t' = t) (marks : marked = true) (new : g'.tables = t) :
      Moves v t t' marked (.working g) (.working g')
  | commit {g : Footing} {a : α} (marks : marked = true)
      (effect : v.effect t.content = .ok (v.unkeyed a, t'.content)) :
      Moves v t t' marked (.working g) (.committed a)
  | report {a : α} (tables : t' = t) (unmarked : marked = false) :
      Moves v t t' marked (.committed a) (.committed a)

theorem Fits.uses {v : Purpose α} {w : Worker α} {l l' : Ledger} {p : Phase α}
    (h : p.Fits v w l) (hu : Uses l l') : p.Fits v w l' := by
  cases p with
  | working g => exact ⟨h.1, h.2.uses hu fun _ hk => hk⟩
  | committed a => exact h

/-- An operation that ends gives its rows back and stays in its phase. -/
theorem Fits.settle {v : Purpose α} {w : Worker α} {l : Ledger} {p : Phase α}
    (h : p.Fits v w l) : p.Fits v (w.settle l).1 (w.settle l).2 := by
  cases hw : w.ended with
  | false => rwa [Worker.settle_of_not_ended hw]
  | true =>
    rw [Worker.settle_of_ended hw]
    cases p with
    | working g => exact ⟨h.1.of_ended hw, h.2.uses ⟨rfl, Sequences.le_refl _, fun _ h => h⟩ nofun⟩
    | committed a => exact h

end Phase

theorem Worker.settle_uses {α : Type} (w : Worker α) (l : Ledger) : Uses l (w.settle l).2 := by
  cases hw : w.ended with
  | false => rw [Worker.settle_of_not_ended hw]; exact .refl l
  | true => rw [Worker.settle_of_ended hw]; exact ⟨rfl, Sequences.le_refl _, fun _ h => h⟩

/-! ## Steps -/

namespace Crew

variable {ι : Type} {α : ι → Type}

/-- The next call of a worker takes a row or is a commit that succeeds. -/
def marks (c : Crew α) (i : ι) : Bool :=
  match (c.workers i).rest with
  | .call call _ =>
    match call.perform c.ledger (c.workers i).unit with
    | some (r, _) => call.key?.isSome || call.commits && r.isOk
    | none => false
  | _ => false

/-- All operations are in their phases, and no two new journals have been given the same key. -/
structure Attended (v : (i : ι) → Purpose (α i)) (p : (i : ι) → Phase (α i)) (c : Crew α) :
    Prop where
  exclusive : c.Exclusive
  fits : ∀ i, (p i).Fits (v i) (c.workers i) c.ledger
  apart : ∀ i j k, (p i).key = some k → (p j).key = some k → i = j

variable {v : (i : ι) → Purpose (α i)} {p : (i : ι) → Phase (α i)} {c c' : Crew α} {i : ι}

theorem marks_eq {call : Call} {next : Except LedgerError call.Reply → Program (α i)}
    {r : Except LedgerError call.Reply} {s : Ledger × UnitOfWork}
    (hrest : (c.workers i).rest = .call call next)
    (hperform : call.perform c.ledger (c.workers i).unit = some (r, s)) :
    c.marks i = (call.key?.isSome || call.commits && r.isOk) := by
  rw [marks, hrest]
  dsimp only
  rw [hperform]

/-- The keys of new journals have been given out. -/
theorem Attended.given (h : c.Attended v p) {k : JournalId} (hk : (p i).key = some k) :
    k.value ≤ c.ledger.store.sequences.journal := by
  have hfits := h.fits i
  cases hp : p i with
  | working g =>
    rw [hp] at hfits hk
    exact hfits.2.given k hk
  | committed a =>
    rw [hp] at hk
    cases hk

/-- The others stay in their phases when an operation commits. -/
theorem Attended.fits_fulfilled (h : c.Attended v p) {g : Footing} (hp : p i = .working g)
    (hdrawn : ∀ i j x, (v i).drawn = some x → (v j).drawn = some x → i = j) {call : Call}
    {l : Ledger} {u : UnitOfWork} {a : α i} (hv : Visit c.ledger (c.workers i).unit call l u)
    (hf : Fulfils (v i) a g.key (c.workers i).unit.locks c.ledger l.tables) {j : ι} (hj : j ≠ i) :
    (p j).Fits (v j) (c.workers j) l := by
  have hholds := h.fits i
  rw [hp] at hholds
  have hfits := h.fits j
  cases hpj : p j with
  | committed b =>
    rw [hpj] at hfits
    exact hfits
  | working g' =>
    rw [hpj] at hfits
    refine ⟨hfits.1, hfits.2.fulfilled hholds.2 hf hv.sequences_le hv.armed_subset
      (fun k hk hk' => hj (h.exclusive.disjoint j i k hk hk'))
      (fun x hx hx' => hj (hdrawn j i x hx hx')) fun k hk hk' => hj (h.apart j i k ?_ ?_)⟩
    · rw [hpj]; exact hk
    · rw [hp]; exact hk'

variable [DecidableEq ι]

/-- One operation has made a call and is in the phase `q` now. -/
theorem Attended.put (h : c.Attended v p) {call : Call} {rest : Program (α i)} {l : Ledger}
    {u : UnitOfWork} {q : Phase (α i)} (hv : Visit c.ledger (c.workers i).unit call l u)
    (hq : q.Fits (v i) ⟨rest, u⟩ l) (hother : ∀ j, j ≠ i → (p j).Fits (v j) (c.workers j) l)
    (hkey : ∀ j k, j ≠ i → q.key = some k → (p j).key ≠ some k) :
    (c.put i (Worker.settle ⟨rest, u⟩ l)).Attended v (Function.update p i q) := by
  refine ⟨(h.exclusive.visit hv rest).settle, fun j => ?_, fun j j' k hj hj' => ?_⟩
  · by_cases hji : j = i
    · subst hji
      rw [Function.update_self, put_workers_self]
      exact hq.settle
    · rw [Function.update_of_ne hji, put_workers_of_ne hji]
      exact (hother j hji).uses (Worker.settle_uses _ l)
  · by_cases hji : j = i
    · subst hji
      rw [Function.update_self] at hj
      by_contra hne
      rw [Function.update_of_ne (Ne.symm hne)] at hj'
      exact hkey j' k (Ne.symm hne) hj hj'
    · rw [Function.update_of_ne hji] at hj
      by_cases hji' : j' = i
      · subst hji'
        rw [Function.update_self] at hj'
        exact absurd hj (hkey j k hji hj')
      · rw [Function.update_of_ne hji'] at hj'
        exact h.apart j j' k hj hj'

/-- A step moves one operation on; all others stay in their phases. -/
theorem Attended.step (h : c.Attended v p)
    (hdrawn : ∀ i j x, (v i).drawn = some x → (v j).drawn = some x → i = j)
    (hstep : c.step i = some c') :
    ∃ q, (p i).Moves (v i) c.ledger.tables c'.ledger.tables (c.marks i) q ∧
      c'.Attended v (Function.update p i q) := by
  obtain ⟨call, next, r, l, u, hrest, hperform, rfl⟩ := step_cases hstep
  have hv := Call.visit hperform
  have htables : (Worker.settle ⟨next r, u⟩ l).2.tables = l.tables :=
    (Worker.settle_uses _ l).tables
  rw [marks_eq hrest hperform, put_ledger, htables]
  have hfits := h.fits i
  cases hp : p i with
  | committed a =>
    rw [hp] at hfits
    have hsealed : (Program.call call next).Sealed a := hrest ▸ hfits
    cases call with
    | publish event =>
      cases hperform
      refine ⟨.committed a, .report rfl rfl, h.put hv hsealed (fun j _ => ?_) nofun⟩
      exact (h.fits j).uses (hv.uses rfl)
    | _ => exact hsealed.elim
  | working g =>
    rw [hp] at hfits
    have hdeals : (Program.call call next).Deals (v i) g (c.workers i).unit := hrest ▸ hfits.1
    have hafter := hdeals c.ledger r l u hfits.2 hperform
    cases hc : call.commits with
    | true =>
      rw [if_pos hc] at hafter
      obtain ⟨hok, a, hsealed, hf⟩ := hafter
      refine ⟨.committed a, .commit (by simp [hok]) hf.effect,
        h.put hv hsealed (fun j hj => h.fits_fulfilled hp hdrawn hv hf hj) nofun⟩
    | false =>
      rw [if_neg (by simp [hc])] at hafter
      obtain ⟨hnext, hgiven⟩ := hafter
      refine ⟨.working (g.after c.ledger call), ?_,
        h.put hv ⟨hnext, hfits.2.after hv hc hgiven⟩ (fun j _ => (h.fits j).uses (hv.uses hc))
          fun j k hj hk hk' => ?_⟩
      · cases hkey : call.key?.isSome with
        | true =>
          refine .take (hv.uses hc).tables (by simp) ?_
          rw [Footing.after_tables, if_pos hkey]
        | false =>
          refine .work (hv.uses hc).tables (by simp) ?_
          rw [Footing.after_tables, if_neg (by simp [hkey])]
      · rcases g.after_key c.ledger call with hsame | hnew
        · refine hj (h.apart j i k hk' ?_)
          rw [hp]
          exact hsame.symm.trans hk
        · -- A new key is greater than those that have been given out.
          cases hnew.symm.trans hk
          exact Nat.not_succ_le_self _ (h.given hk')

end Crew
end CreditCircle

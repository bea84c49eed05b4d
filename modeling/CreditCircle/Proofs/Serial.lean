/-
  Operations at the same time come to the same as one at a time.

  * `Crew.moments`, `Crew.Order`: who takes a row or commits, and the orders in which every
    operation stands at the last of its moments.
  * `Purpose.Agrees`, `Chain`: outcomes that agree with what each operation is meant to do, one
    after the other.
  * `Attended.run`: the outcomes of a crew form a chain in the order of their last moments.
  * `Reachable.run_performs`, `serially_chain`: an operation that runs alone agrees as well, and so
    do operations one after the other.
  * `Reachable.crew_serializable`: the outcomes and the content are those of a serial run.
-/
import CreditCircle.Proofs.Attendance
import CreditCircle.Proofs.Failures
import CreditCircle.Proofs.Lifecycle
import CreditCircle.Proofs.LockedOperations
import Mathlib.Data.List.Dedup

namespace CreditCircle

/-! ## Chains -/

section
variable {α : Type} {v : Purpose α} {t t' : Tables}

/-- Between `t` and `t'`, the operation has come to what it is meant to come to. -/
def Purpose.Agrees (v : Purpose α) (t t' : Tables) : Except (Failure LedgerError) α → Prop
  | .ok a => v.effect t.content = .ok (v.unkeyed a, t'.content)
  | .error e => v.effect t.content = .error e ∧ t'.content = t.content

/-- The outcome depends on nothing but the content. -/
theorem Purpose.Agrees.unique {s s' : Tables} {r o : Except (Failure LedgerError) α}
    (h : v.Agrees t t' r) (h' : v.Agrees s s' o) (hts : t.content = s.content) :
    r.map v.unkeyed = o.map v.unkeyed ∧ t'.content = s'.content := by
  cases r with
  | ok a =>
    cases o with
    | ok b =>
      have hab := h.symm.trans ((congrArg v.effect hts).trans h')
      simp only [Except.ok.injEq, Prod.mk.injEq] at hab
      exact ⟨congrArg Except.ok hab.1, hab.2⟩
    | error e => exact nomatch h.symm.trans ((congrArg v.effect hts).trans h'.1)
  | error e =>
    cases o with
    | ok b => exact nomatch h.1.symm.trans ((congrArg v.effect hts).trans h')
    | error e' =>
      have he := h.1.symm.trans ((congrArg v.effect hts).trans h'.1)
      cases he
      exact ⟨rfl, h.2.trans (hts.trans h'.2.symm)⟩

end

section
variable {ι : Type} {α : ι → Type}

/-- The outcomes of the operations in `order`, one after the other, lead from `t` to `t'`. -/
def Chain (v : (i : ι) → Purpose (α i)) (outcome : (i : ι) → Except (Failure LedgerError) (α i)) :
    Tables → List ι → Tables → Prop
  | t, [], t' => t' = t
  | t, i :: order, t'' => ∃ t', (v i).Agrees t t' (outcome i) ∧ Chain v outcome t' order t''

variable {v : (i : ι) → Purpose (α i)} {outcome : (i : ι) → Except (Failure LedgerError) (α i)}

/-- Operations that fail whatever the tables say may be put in anywhere. -/
theorem Chain.insert {some order : List ι} (hs : some.Sublist order) (hn : order.Nodup)
    (hother : ∀ i ∈ order, i ∉ some → ∀ t, (v i).Agrees t t (outcome i)) :
    ∀ {t t' : Tables}, Chain v outcome t some t' → Chain v outcome t order t' := by
  induction hs with
  | slnil => exact fun h => h
  | @cons some order i hs ih =>
    intro t t' h
    obtain ⟨hi, hn⟩ := List.nodup_cons.1 hn
    refine ⟨t, hother i List.mem_cons_self (fun hm => hi (hs.subset hm)) t, ih hn ?_ h⟩
    exact fun j hj => hother j (List.mem_cons_of_mem _ hj)
  | @cons_cons some order i hs ih =>
    rintro t t' ⟨t₁, hi', h⟩
    obtain ⟨hi, hn⟩ := List.nodup_cons.1 hn
    refine ⟨t₁, hi', ih hn (fun j hj hm => ?_) h⟩
    refine hother j (List.mem_cons_of_mem _ hj) fun hm' => ?_
    rcases List.mem_cons.1 hm' with rfl | hm'
    · exact hi hj
    · exact hm hm'

end

/-! ## Crews -/

section
variable {α : Type}

/-- How an operation in its phase is going to end: if it has no moments left, then as its footing
    says. -/
def Phase.Foretells (v : Purpose α) (marked : Prop) (outcome : Except (Failure LedgerError) α) :
    Phase α → Prop
  | working g => ¬ marked → ∃ e, outcome = .error e ∧ v.effect g.tables.content = .error e
  | committed a => ¬ marked ∧ outcome = .ok a

theorem Phase.Fits.foretells {v : Purpose α} {w : Worker α} {l : Ledger} {p : Phase α}
    {marked : Prop} (h : p.Fits v w l) (he : w.ended = true) (hm : ¬ marked) :
    p.Foretells v marked w.outcome := by
  obtain ⟨rest, unit⟩ := w
  cases p with
  | working g =>
    cases rest with
    | done a => exact h.1.elim
    | fail e => exact fun _ => ⟨e, rfl, h.1⟩
    | call c next => cases he
  | committed a =>
    cases rest with
    | done b => exact ⟨hm, congrArg Except.ok h⟩
    | fail e => exact h.elim
    | call c next => cases he

end

section
variable {ι : Type} {α : ι → Type} [DecidableEq ι]

/-- The outcomes from `t` on are those of the operations one after the other, each at the last of
    its moments. -/
structure Explains (v : (i : ι) → Purpose (α i))
    (outcome : (i : ι) → Except (Failure LedgerError) (α i)) (p : (i : ι) → Phase (α i))
    (t : Tables) (moments : List ι) (t' : Tables) : Prop where
  foretold : ∀ i, (p i).Foretells (v i) (i ∈ moments) (outcome i)
  chain : Chain v outcome t moments.dedup t'

variable {v : (i : ι) → Purpose (α i)} {outcome : (i : ι) → Except (Failure LedgerError) (α i)}
  {p : (i : ι) → Phase (α i)} {t t₁ t' : Tables} {moments : List ι} {i : ι} {q : Phase (α i)}

/-- A moment of an operation at work. -/
theorem Explains.mark {g : Footing} (hp : p i = .working g)
    (h : Explains v outcome (Function.update p i q) t₁ moments t')
    (hchain : Chain v outcome t (i :: moments).dedup t') :
    Explains v outcome p t (i :: moments) t' := by
  refine ⟨fun j => ?_, hchain⟩
  by_cases hj : j = i
  · subst hj
    rw [hp]
    exact fun hm => absurd List.mem_cons_self hm
  · have hfore := h.foretold j
    rw [Function.update_of_ne hj] at hfore
    rwa [List.mem_cons, or_iff_right hj]

/-- From what comes after a step to what comes from that step on. -/
theorem Explains.step {marked : Bool} (hmove : (p i).Moves (v i) t t₁ marked q)
    (h : Explains v outcome (Function.update p i q) t₁ moments t') :
    Explains v outcome p t (if marked then i :: moments else moments) t' := by
  have hi := h.foretold i
  rw [Function.update_self] at hi
  have hstays : t₁ = t → (p i).Foretells (v i) (i ∈ moments) (outcome i) →
      Explains v outcome p t moments t' := by
    refine fun ht hi => ⟨fun j => ?_, ht ▸ h.chain⟩
    by_cases hj : j = i
    · exact hj ▸ hi
    · have hfore := h.foretold j
      rwa [Function.update_of_ne hj] at hfore
  generalize hp : p i = p₀ at hmove hstays
  cases hmove with
  | work tables unmarked same =>
    rw [if_neg (by simp [unmarked])]
    refine hstays tables fun hm => ?_
    rw [← same]
    exact hi hm
  | take tables marks new =>
    rw [if_pos marks]
    refine h.mark hp ?_
    by_cases hm : i ∈ moments
    · rw [List.dedup_cons_of_mem hm]
      exact tables ▸ h.chain
    · -- The operation takes its last row.
      rw [List.dedup_cons_of_notMem hm]
      obtain ⟨e, ho, he⟩ := hi hm
      refine ⟨t₁, ?_, h.chain⟩
      rw [ho]
      exact ⟨new ▸ he, congrArg Tables.content tables⟩
  | commit marks effect =>
    rw [if_pos marks]
    obtain ⟨hm, ho⟩ := hi
    refine h.mark hp ?_
    rw [List.dedup_cons_of_notMem hm]
    exact ⟨t₁, by rw [ho]; exact effect, h.chain⟩
  | report tables unmarked =>
    rw [if_neg (by simp [unmarked])]
    exact hstays tables hi

end

namespace Crew

variable {ι : Type} {α : ι → Type} [DecidableEq ι]

/-- Who takes a row or commits, in the order of the schedule. -/
def moments : Crew α → List ι → List ι
  | _, [] => []
  | c, i :: schedule =>
    let later := (c.step i).elim [] fun c' => c'.moments schedule
    if c.marks i then i :: later else later

variable {v : (i : ι) → Purpose (α i)} {p : (i : ι) → Phase (α i)} {c c' : Crew α}

theorem moments_cons {i : ι} {schedule : List ι} (h : c.step i = some c') :
    c.moments (i :: schedule) =
      if c.marks i then i :: c'.moments schedule else c'.moments schedule := by
  rw [moments, h]
  rfl

/-- The order names every operation once, and it names those that take a row or commit by the last
    time that they do. -/
structure Order (c : Crew α) (schedule order : List ι) : Prop where
  nodup : order.Nodup
  mem : ∀ i, i ∈ order
  moments : (c.moments schedule).dedup.Sublist order

/-- Operations without a moment can come last, for instance. -/
theorem exists_order [Finite ι] (c : Crew α) (schedule : List ι) :
    ∃ order, c.Order schedule order := by
  cases nonempty_fintype ι
  let last := (Finset.univ : Finset ι).toList.filter (· ∉ (c.moments schedule).dedup)
  refine ⟨(c.moments schedule).dedup ++ last, ?_, fun i => ?_, List.sublist_append_left _ _⟩
  · refine List.nodup_append'.2 ⟨List.nodup_dedup _, (Finset.nodup_toList _).filter _, ?_⟩
    exact fun i hi hi' => of_decide_eq_true (List.mem_filter.1 hi').2 hi
  · by_cases hi : i ∈ (c.moments schedule).dedup
    · exact List.mem_append_left _ hi
    · exact List.mem_append_right _ (List.mem_filter.2 ⟨by simp, decide_eq_true hi⟩)

theorem Attended.run (h : c.Attended v p)
    (hdrawn : ∀ i j x, (v i).drawn = some x → (v j).drawn = some x → i = j) {schedule : List ι}
    (hrun : c.run schedule = some c') (hf : c'.Finished) :
    Explains v (fun i => (c'.workers i).outcome) p c.ledger.tables (c.moments schedule)
      c'.ledger.tables := by
  induction schedule generalizing c p with
  | nil =>
    cases hrun
    exact ⟨fun i => (h.fits i).foretells (hf i) List.not_mem_nil, rfl⟩
  | cons i schedule ih =>
    obtain ⟨c₁, hstep, hrun⟩ := Option.bind_eq_some_iff.1 hrun
    obtain ⟨q, hmove, h₁⟩ := h.step hdrawn hstep
    rw [moments_cons hstep]
    exact (ih h₁ hrun).step hmove

end Crew

/-! ## Operations that run alone -/

section
variable {α : Type} {v : Purpose α}

/-- What an operation that runs alone comes to: what it is meant to come to; transfers that
    others are about to make are still new, and nothing gets armed. -/
structure Performs (v : Purpose α) (l l' : Ledger) (outcome : Except (Failure LedgerError) α) :
    Prop where
  agrees : v.Agrees l.tables l'.tables outcome
  new : ∀ x, l.tables.journal? x = none → v.drawn ≠ some x → l'.tables.journal? x = none
  armed : ∀ point ∈ l'.store.armed, point ∈ l.store.armed

theorem Program.Sealed.advance {a : α} {p : Program α} (h : p.Sealed a) (u : UnitOfWork)
    (l : Ledger) : (Worker.advance p u l).1.outcome = .ok a ∧ Uses l (Worker.advance p u l).2 := by
  induction p generalizing l with
  | done b => exact ⟨congrArg Except.ok h, Worker.settle_uses _ l⟩
  | fail e => exact h.elim
  | call c next ih =>
    cases c with
    | publish event =>
      obtain ⟨ho, hu⟩ := ih (.ok ()) h { l with events := l.events ++ [event] }
      exact ⟨ho, hu.tables, hu.sequences, hu.armed⟩
    | _ => exact h.elim

theorem Program.Deals.advance : ∀ {p : Program α} {g : Footing} {u : UnitOfWork} {l : Ledger},
    p.Deals v g u → g.Holds v.drawn u.locks l → g.tables = l.tables →
      (Worker.advance p u l).1.outcome ≠ .error .blocked →
        Performs v l (Worker.advance p u l).2 (Worker.advance p u l).1.outcome
  | .fail e, g, u, l, h, _, hg, _ => by
    have hu := Worker.settle_uses ⟨(Program.fail e : Program α), u⟩ l
    exact ⟨⟨hg ▸ h, congrArg Tables.content hu.tables⟩, fun x hx _ => hu.tables ▸ hx, hu.armed⟩
  | .call c next, g, u, l, h, hl, hg, hb => by
    cases hc : c.perform l u with
    | none =>
      simp only [Worker.advance, hc] at hb
      exact absurd rfl hb
    | some s =>
      obtain ⟨r, l', u'⟩ := s
      simp only [Worker.advance, hc] at hb ⊢
      have hv := Call.visit hc
      have hafter := h l r l' u' hl hc
      cases hcommits : c.commits with
      | true =>
        rw [if_pos hcommits] at hafter
        obtain ⟨-, a, hsealed, hf⟩ := hafter
        obtain ⟨ho, hu⟩ := hsealed.advance u' l'
        rw [ho]
        refine ⟨?_, fun x hx hd => ?_, fun point hp => hv.armed_subset _ (hu.armed point hp)⟩
        · show v.effect _ = .ok (_, Tables.content _)
          rw [hu.tables]
          exact hf.effect
        · rw [hu.tables]
          rcases hf.journal x with hsame | ⟨-, hold⟩ | hnew
          · exact hsame.trans hx
          · exact absurd hx hold
          · exact absurd hnew hd
      | false =>
        rw [if_neg (by simp [hcommits])] at hafter
        obtain ⟨hnext, hgiven⟩ := hafter
        have huses := hv.uses hcommits
        have hg' : (g.after l c).tables = l'.tables := by
          rw [Footing.after_tables, huses.tables, hg, ite_self]
        obtain ⟨hagrees, hnew, harmed⟩ :=
          hnext.advance (hl.after hv hcommits hgiven) hg' hb
        rw [huses.tables] at hagrees hnew
        exact ⟨hagrees, hnew, fun point hp => huses.armed _ (harmed point hp)⟩

end

/-- The footing on which an operation begins. -/
theorem Ledger.Reachable.holds {limits : DefaultLimits} {l : Ledger} (h : l.Reachable limits)
    (ha : l.store.armed = []) (t : Tables) {drawn : Option TransferId}
    (hd : ∀ x, drawn = some x → l.tables.journal? x = none) :
    Footing.Holds ⟨t, none⟩ drawn [] l :=
  ⟨ha, h.keyed, .nil _ _, hd, nofun, nofun⟩

theorem Ledger.Reachable.run_performs {limits : DefaultLimits} {l : Ledger}
    (h : l.Reachable limits) (ha : l.store.armed = []) {op : Operation} (hop : op.Locking)
    (hd : ∀ x, op.drawn = some x → l.tables.journal? x = none) :
    Performs (op.purpose hop) l (l.run (op.program limits)).2 (l.run (op.program limits)).1 := by
  refine (op.program_deals limits hop l.tables).advance (h.holds ha l.tables hd) rfl fun hb => ?_
  have hb : (l.run (op.program limits)).1 = .error .blocked := hb
  obtain ⟨e, he⟩ := h.run_refused hb
  cases he

/-! ## Serial runs -/

namespace Ledger

variable {ι : Type} {limits : DefaultLimits} {l : Ledger} {ops : ι → Operation}

/-- The ledger after some operations, one after the other. -/
def serially (limits : DefaultLimits) (l : Ledger) (ops : ι → Operation) (order : List ι) :
    Ledger :=
  l.after limits (order.map fun i => .operate (ops i))

theorem Reachable.serially (h : l.Reachable limits) (ops : ι → Operation) (order : List ι) :
    (l.serially limits ops order).Reachable limits := h.after _

theorem serially_cons (i : ι) (order : List ι) : l.serially limits ops (i :: order) =
    (l.next limits (.operate (ops i))).serially limits ops order := rfl

theorem serially_append (first second : List ι) : l.serially limits ops (first ++ second) =
    (l.serially limits ops first).serially limits ops second := by
  rw [Ledger.serially, List.map_append, after, List.foldl_append]
  rfl

/-- The transfers that are about to be made are new, and no two operations make the same: their
    identifiers are drawn at random. -/
structure Draws (l : Ledger) (ops : ι → Operation) : Prop where
  new : ∀ i x, (ops i).drawn = some x → l.tables.journal? x = none
  distinct : ∀ i j x, (ops i).drawn = some x → (ops j).drawn = some x → i = j

/-- One after the other, the operations come to the outcomes of a chain. -/
theorem Reachable.serially_chain {hops : ∀ i, (ops i).Locking}
    {outcome : (i : ι) → Except (Failure LedgerError) (ops i).Result}
    (hdistinct : ∀ i j x, (ops i).drawn = some x → (ops j).drawn = some x → i = j)
    {order : List ι} (hn : order.Nodup) (h : l.Reachable limits) (ha : l.store.armed = [])
    (hnew : ∀ i ∈ order, ∀ x, (ops i).drawn = some x → l.tables.journal? x = none)
    {t t' : Tables} (hc : Chain (fun i => (ops i).purpose (hops i)) outcome t order t')
    (ht : l.tables.content = t.content) :
    (∀ before i after, order = before ++ i :: after →
      (outcome i).map (ops i).unkeyed =
        ((l.serially limits ops before).run ((ops i).program limits)).1.map (ops i).unkeyed) ∧
      t'.content = (l.serially limits ops order).tables.content := by
  induction order generalizing l t with
  | nil =>
    refine ⟨fun before i after horder => ?_, ?_⟩
    · exact absurd horder.symm (List.append_ne_nil_of_right_ne_nil _ (List.cons_ne_nil i after))
    · rw [show t' = t from hc]
      exact ht.symm
  | cons i order ih =>
    obtain ⟨t₁, hagrees, hc⟩ := hc
    obtain ⟨hi, hn⟩ := List.nodup_cons.1 hn
    obtain ⟨hagrees', hstays, harmed⟩ := h.run_performs ha (hops i) (hnew i List.mem_cons_self)
    obtain ⟨ho, ht₁⟩ := hagrees.unique hagrees' ht.symm
    have ha' : (l.run ((ops i).program limits)).2.store.armed = [] :=
      List.eq_nil_of_subset_nil (ha ▸ harmed)
    obtain ⟨houtcomes, hcontent⟩ := ih hn (h.next (.operate (ops i))) ha'
      (fun j hj x hx => hstays x (hnew j (List.mem_cons_of_mem _ hj) x hx) fun hx' =>
        hi (hdistinct i j x hx' hx ▸ hj)) hc ht₁.symm
    refine ⟨fun before j after horder => ?_, hcontent⟩
    cases before with
    | nil =>
      cases horder
      exact ho
    | cons k before =>
      cases horder
      exact houtcomes before j after rfl

theorem Reachable.crew_attended (h : l.Reachable limits) (ha : l.store.armed = [])
    (hops : ∀ i, (ops i).Locking) (hd : l.Draws ops) (t : Tables) :
    (l.crew limits ops).Attended (fun i => (ops i).purpose (hops i))
      fun _ => .working ⟨t, none⟩ :=
  ⟨h.atRest.crew_exclusive ops, fun i => ⟨(ops i).program_deals limits (hops i) t,
    h.holds ha t (hd.new i)⟩, nofun⟩

/-- In a serial run no transfer is ended twice. -/
theorem Reachable.serially_resolves (h : l.Reachable limits) {x : TransferId}
    {action action' : Action} {i j : ι} (hi : (ops i).Resolves x action)
    (hj : (ops j).Resolves x action') {before between : List ι} {a : (ops i).Result}
    (hv : ((l.serially limits ops before).run ((ops i).program limits)).1 = .ok a)
    (b : (ops j).Result) :
    ((l.serially limits ops (before ++ i :: between)).run ((ops j).program limits)).1 ≠ .ok b := by
  have hr := h.serially ops before
  obtain ⟨k, hk, hs⟩ := hr.atRest.run_resolves_ok limits hi hv
  have hr' := hr.next (.operate (ops i))
  obtain ⟨k', hk', hf⟩ := hr'.follows (between.map fun j => .operate (ops j)) x k hk
  rw [hf.eq_of_ended hs] at hk'
  rw [serially_append, serially_cons,
    ((hr'.serially ops between).atRest.run_resolves_ended limits hj hk' hs).1]
  exact nofun

/-- With the outcomes of a serial run, no transfer is ended twice. -/
theorem Reachable.resolves_once (h : l.Reachable limits)
    {outcome : (i : ι) → Except (Failure LedgerError) (ops i).Result} {order : List ι}
    (hall : ∀ i, i ∈ order)
    (houtcomes : ∀ before i after, order = before ++ i :: after →
      (outcome i).map (ops i).unkeyed =
        ((l.serially limits ops before).run ((ops i).program limits)).1.map (ops i).unkeyed)
    {x : TransferId} {i j : ι} {action action' : Action} (hi : (ops i).Resolves x action)
    (hj : (ops j).Resolves x action') (hij : i ≠ j) {a : (ops i).Result} {b : (ops j).Result}
    (ha : outcome i = .ok a) : outcome j ≠ .ok b := by
  have hok : ∀ {before i after a}, order = before ++ i :: after → outcome i = .ok a →
      ∃ b, ((l.serially limits ops before).run ((ops i).program limits)).1 = .ok b := by
    intro before i after a horder hi
    have ho := houtcomes before i after horder
    rw [hi] at ho
    cases hr : ((l.serially limits ops before).run ((ops i).program limits)).1 with
    | ok b => exact ⟨b, rfl⟩
    | error e => rw [hr] at ho; cases ho
  -- Whoever comes second in the serial run fails.
  have hsecond : ∀ {i j action action' before between after a b}, (ops i).Resolves x action →
      (ops j).Resolves x action' → order = before ++ i :: (between ++ j :: after) →
        outcome i = .ok a → outcome j ≠ .ok b := by
    intro i j action action' before between after a b hi hj horder ha hb
    obtain ⟨a', ha'⟩ := hok horder ha
    have horder' : order = (before ++ i :: between) ++ j :: after := by
      rw [horder, List.append_assoc, List.cons_append]
    obtain ⟨b', hb'⟩ := hok horder' hb
    exact h.serially_resolves hi hj ha' b' hb'
  obtain ⟨before, after, horder⟩ := List.append_of_mem (hall i)
  have hmem : j ∈ before ++ i :: after := horder ▸ hall j
  rcases List.mem_append.1 hmem with hj' | hj'
  · obtain ⟨first, between, rfl⟩ := List.append_of_mem hj'
    rw [List.append_assoc, List.cons_append] at horder
    exact fun hb => hsecond hj hi horder hb ha
  · obtain ⟨between, last, rfl⟩ :=
      List.append_of_mem ((List.mem_cons.1 hj').resolve_left (Ne.symm hij))
    exact hsecond hi hj horder ha

/-! ## Crews and serial runs -/

section
variable [DecidableEq ι] {schedule order : List ι} {c : Crew fun i => (ops i).Result}

/-- The outcomes of a crew form a chain in the order of the last moments. -/
theorem Reachable.crew_chain (h : l.Reachable limits) (ha : l.store.armed = [])
    (hops : ∀ i, (ops i).Locking) (hd : l.Draws ops)
    (hrun : (l.crew limits ops).run schedule = some c) (hf : c.Finished)
    (ho : (l.crew limits ops).Order schedule order) :
    Chain (fun i => (ops i).purpose (hops i)) (fun i => (c.workers i).outcome) l.tables order
      c.ledger.tables := by
  have hexplains := fun t => (h.crew_attended ha hops hd t).run hd.distinct hrun hf
  refine (hexplains l.tables).chain.insert ho.moments ho.nodup fun i _ hi t => ?_
  -- An operation without a moment fails whatever the tables were when it began.
  obtain ⟨e, he, heffect⟩ := (hexplains t).foretold i fun hm => hi (List.mem_dedup.2 hm)
  rw [he]
  exact ⟨heffect, rfl⟩

/-- Operations that work on locked rows, carried out at the same time, call by call and in
    whatever order, come to the same as one after the other, each at its commit or, if it fails
    without one, when it takes its last row or, if it takes none, at any time: the outcomes are the
    same, and so is what the tables say, up to keys.  So no balance gets lost, and no pending
    transfer is ended twice. -/
theorem Reachable.crew_serializable [Finite ι] (h : l.Reachable limits) (ha : l.store.armed = [])
    (hops : ∀ i, (ops i).Locking) (hd : l.Draws ops)
    (hrun : (l.crew limits ops).run schedule = some c) (hf : c.Finished) :
    (∃ order, (l.crew limits ops).Order schedule order) ∧
    (∀ order, (l.crew limits ops).Order schedule order →
      (∀ before i after, order = before ++ i :: after →
        (c.workers i).outcome.map (ops i).unkeyed =
          ((l.serially limits ops before).run ((ops i).program limits)).1.map (ops i).unkeyed) ∧
      c.ledger.tables.content = (l.serially limits ops order).tables.content) ∧
    (∀ n a, c.ledger.tables.account? n = some a →
      Posting.total? (c.ledger.tables.bookedOn n) = some a.balance) ∧
    ∀ x i j action action', (ops i).Resolves x action → (ops j).Resolves x action' → i ≠ j →
      ∀ a b, (c.workers i).outcome = .ok a → (c.workers j).outcome ≠ .ok b := by
  have hserial := fun order (ho : (l.crew limits ops).Order schedule order) =>
    h.serially_chain hd.distinct ho.nodup ha (fun i _ => hd.new i)
      (h.crew_chain ha hops hd hrun hf ho) rfl
  obtain ⟨order, ho⟩ := (l.crew limits ops).exists_order schedule
  obtain ⟨houtcomes, hcontent⟩ := hserial order ho
  refine ⟨⟨order, ho⟩, hserial, fun n a hacc => ?_, fun x i j action action' hi hj hij a b hok => ?_⟩
  · have hacc' : (l.serially limits ops order).tables.account? n = some a :=
      (congrFun (congrArg Content.account hcontent) n).symm.trans hacc
    rw [Tables.total?_bookedOn, hcontent, ← Tables.total?_bookedOn]
    exact (h.serially ops order).doubleEntry.balance n a hacc'
  · exact h.resolves_once ho.mem houtcomes hi hj hij hok

end

/-- The acceptance commits, the cancellation comes too late, and the acceptance is published. -/
def contestSchedule : List Bool := List.replicate 11 true ++ [false, true]

/-- An acceptance and a cancellation that comes before the last call of the acceptance come to the
    same as the acceptance and then the cancellation. -/
theorem Reachable.crew_serializable_short :
    ∃ c, (short.crew .standard contest).run contestSchedule = some c ∧ c.Finished ∧
      (short.crew .standard contest).Order contestSchedule [true, false] ∧
      c.ledger.tables.content =
        (short.serially .standard contest [true, false]).tables.content := by
  obtain ⟨c, hc⟩ := Option.isSome_iff_exists.1
    (show ((short.crew .standard contest).run contestSchedule).isSome by decide)
  have hended : ((short.crew .standard contest).run contestSchedule).map
      (fun c => ((c.workers true).ended, (c.workers false).ended)) = some (true, true) := by decide
  rw [hc, Option.map_some, Option.some_inj, Prod.mk.injEq] at hended
  have hf : c.Finished
    | true => hended.1
    | false => hended.2
  have hmoments : ((short.crew .standard contest).moments contestSchedule).dedup =
      [true, false] := by decide
  have hlocking : ∀ i, (contest i).Locking
    | true => trivial
    | false => trivial
  have hdrawn : ∀ i x, (contest i).drawn ≠ some x
    | true, _ => nofun
    | false, _ => nofun
  have hdraws : short.Draws contest :=
    ⟨fun i x hx => absurd hx (hdrawn i x), fun i _ x hx => absurd hx (hdrawn i x)⟩
  have horder : (short.crew .standard contest).Order contestSchedule [true, false] :=
    ⟨by decide, by decide, hmoments ▸ .refl _⟩
  have hserial := crew_serializable (⟨shortHistory, rfl⟩ : short.Reachable .standard) rfl hlocking
    hdraws hc hf
  exact ⟨c, hc, hf, horder, (hserial.2.1 _ horder).2⟩

end Ledger
end CreditCircle

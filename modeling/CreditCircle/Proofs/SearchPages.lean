/-
  Paging through a search.

  * `Timestamp` in order, `Journal.ListedAbove`: the order of a listing, which is strict where no
    two journals have one key.
  * `JournalFilter.Admits`: what a filter asks of a journal.
  * `Tables.Listing`: the matches of a filter, each once and in order; there is only one such list.
  * `Tables.browse`: the pages of a search, turned until one is not full.
  * `Reachable.pages_tile`: the pages together are the listing, however long they are.
-/
import CreditCircle.Proofs.DoubleEntry
import CreditCircle.Proofs.RowOrder
import CreditCircle.Store.Search
import Mathlib.Order.Defs.LinearOrder

namespace CreditCircle

/-! ## The order of journals -/

namespace Timestamp

variable {a b c : Timestamp}

theorem lt_iff : a < b ↔ a.second < b.second ∨ a.second = b.second ∧ a.nano < b.nano := Iff.rfl

theorem le_iff : a ≤ b ↔ ¬ b < a := Iff.rfl

theorem eq_of_le_of_le (h : a ≤ b) (h' : b ≤ a) : a = b := by
  obtain ⟨s, n, hn⟩ := a
  obtain ⟨s', n', hn'⟩ := b
  simp only [le_iff, lt_iff] at h h'
  obtain rfl : s = s' := by omega
  obtain rfl : n = n' := by omega
  rfl

instance : LinearOrder Timestamp where
  le_refl a := by simp only [le_iff, lt_iff]; omega
  le_trans a b c := by simp only [le_iff, lt_iff]; omega
  lt_iff_le_not_ge a b := by simp only [le_iff, lt_iff]; omega
  le_antisymm a b := eq_of_le_of_le
  le_total a b := by simp only [le_iff, lt_iff]; omega
  toDecidableLE := inferInstance
  toDecidableLT := inferInstance

end Timestamp

namespace Journal

/-- The journal `a` is listed above `b`: it is newer, or as old and has the later key. -/
def ListedAbove (a b : Journal) : Prop :=
  b.createdAt < a.createdAt ∨ a.createdAt = b.createdAt ∧ b.id.value < a.id.value

theorem ListedAbove.asymm {a b : Journal} (h : a.ListedAbove b) (h' : b.ListedAbove a) : False := by
  rcases h with h | ⟨he, h⟩
  · rcases h' with h' | ⟨he', -⟩
    · exact lt_asymm h h'
    · exact lt_irrefl _ (he' ▸ h)
  · rcases h' with h' | ⟨-, h'⟩
    · exact lt_irrefl _ (he ▸ h')
    · exact Nat.lt_asymm h h'

theorem listedBefore_iff {a b : Journal} : a.listedBefore b = true ↔
    b.createdAt < a.createdAt ∨ a.createdAt = b.createdAt ∧ b.id.value ≤ a.id.value := by
  simp [listedBefore]

theorem listedBefore_trans (a b c : Journal) (h : a.listedBefore b = true)
    (h' : b.listedBefore c = true) : a.listedBefore c = true := by
  rw [listedBefore_iff] at h h' ⊢
  rcases h with h | ⟨he, h⟩
  · rcases h' with h' | ⟨he', -⟩
    · exact .inl (h'.trans h)
    · exact .inl (he' ▸ h)
  · rcases h' with h' | ⟨he', h'⟩
    · exact .inl (he ▸ h')
    · exact .inr ⟨he.trans he', h'.trans h⟩

theorem listedBefore_total (a b : Journal) : (a.listedBefore b || b.listedBefore a) = true := by
  rw [Bool.or_eq_true, listedBefore_iff, listedBefore_iff]
  rcases lt_trichotomy a.createdAt b.createdAt with h | h | h
  · exact .inr (.inl h)
  · rcases Nat.le_total b.id.value a.id.value with hid | hid
    · exact .inl (.inr ⟨h, hid⟩)
    · exact .inr (.inr ⟨h.symm, hid⟩)
  · exact .inl (.inl h)

/-- Where keys differ, one of two journals is listed above the other. -/
theorem listedAbove_of_listedBefore {a b : Journal} (h : a.listedBefore b = true)
    (hid : a.id ≠ b.id) : a.ListedAbove b := by
  rcases listedBefore_iff.1 h with h | ⟨he, h⟩
  · exact .inl h
  · have hvalue : Function.Injective JournalId.value := fun ⟨_⟩ ⟨_⟩ hv => congrArg _ hv
    exact .inr ⟨he, Nat.lt_of_le_of_ne h fun hv => hid (hvalue hv).symm⟩

end Journal

/-! ## Matches -/

/-- What a filter asks of a journal: the account on either side, the status, and a creation not
    before the first moment and before the second one. -/
structure JournalFilter.Admits (f : JournalFilter) (j : Journal) : Prop where
  account : ∀ a ∈ f.account, j.sender = a ∨ j.receiver = a
  status : ∀ s ∈ f.status, j.status = s
  createdFrom : ∀ t ∈ f.createdFrom, t ≤ j.createdAt
  createdTo : ∀ t ∈ f.createdTo, j.createdAt < t

theorem JournalFilter.accepts_iff {f : JournalFilter} {j : Journal} :
    f.accepts j = true ↔ f.Admits j := by
  simp only [accepts, Bool.and_eq_true, Option.all_eq_true, decide_eq_true_eq, beq_iff_eq]
  constructor
  · rintro ⟨⟨⟨ha, hs⟩, hfrom⟩, hto⟩
    exact ⟨ha, fun s hm => (hs s hm).symm, hfrom, hto⟩
  · rintro ⟨ha, hs, hfrom, hto⟩
    exact ⟨⟨⟨ha, fun s hm => (hs s hm).symm⟩, hfrom⟩, hto⟩

/-- A filter with another range of creation times. -/
def JournalFilter.within (f : JournalFilter) (start stop : Timestamp) : JournalFilter :=
  { f with createdFrom := some start, createdTo := some stop }

theorem JournalFilter.admits_within_iff {f : JournalFilter} {start stop : Timestamp} {j : Journal} :
    (f.within start stop).Admits j ↔ ({ f with createdFrom := none, createdTo := none } :
      JournalFilter).Admits j ∧ start ≤ j.createdAt ∧ j.createdAt < stop := by
  constructor
  · rintro ⟨ha, hs, hfrom, hto⟩
    exact ⟨⟨ha, hs, nofun, nofun⟩, hfrom _ rfl, hto _ rfl⟩
  · rintro ⟨⟨ha, hs, -, -⟩, hfrom, hto⟩
    refine ⟨ha, hs, ?_, ?_⟩
    · rintro _ ⟨⟩; exact hfrom
    · rintro _ ⟨⟩; exact hto

namespace Tables

variable {t t' : Tables} {f : JournalFilter} {js js' : List Journal}

/-- The journals that meet a filter, each once, newest first and by falling key where times are
    equal. -/
structure Listing (t : Tables) (f : JournalFilter) (js : List Journal) : Prop where
  mem_iff : ∀ j, j ∈ js ↔ (∃ x, t.journal? x = some j) ∧ f.Admits j
  sorted : js.Pairwise Journal.ListedAbove

namespace Listing

theorem nodup (h : t.Listing f js) : js.Nodup :=
  h.sorted.imp fun hab hne => (hne ▸ hab).asymm (hne ▸ hab)

/-- There is only one listing. -/
theorem unique (h : t.Listing f js) (h' : t.Listing f js') : js = js' := by
  have hperm : js.Perm js' := by
    refine (List.perm_ext_iff_of_nodup h.nodup h'.nodup).2 fun j => ?_
    rw [h.mem_iff, h'.mem_iff]
  exact hperm.eq_of_pairwise (fun _ _ _ _ hab hba => (hab.asymm hba).elim) h.sorted h'.sorted

/-- It does not matter in which order the rows are. -/
theorem same (h : t.Listing f js) (hs : t.journals.Same t'.journals) : t'.Listing f js := by
  refine ⟨fun j => (h.mem_iff j).trans (and_congr_left fun _ => exists_congr fun x => ?_), h.sorted⟩
  rw [journal?, journal?, hs x]

/-- What was created from `b` on stands before what was created before `b`. -/
theorem append {a b c : Timestamp} (hab : a ≤ b) (hbc : b ≤ c) (h : t.Listing (f.within b c) js)
    (h' : t.Listing (f.within a b) js') : t.Listing (f.within a c) (js ++ js') := by
  refine ⟨fun j => ?_, List.pairwise_append.2 ⟨h.sorted, h'.sorted, fun j hj k hk => .inl ?_⟩⟩
  · rw [List.mem_append, h.mem_iff, h'.mem_iff, ← and_or_left]
    refine and_congr_right fun _ => ?_
    simp only [JournalFilter.admits_within_iff, ← and_or_left]
    refine and_congr_right fun _ => ⟨?_, fun ⟨hfrom, hto⟩ => ?_⟩
    · rintro (⟨hfrom, hto⟩ | ⟨hfrom, hto⟩)
      · exact ⟨hab.trans hfrom, hto⟩
      · exact ⟨hfrom, hto.trans_le hbc⟩
    · rcases le_or_gt b j.createdAt with hb | hb
      · exact .inl ⟨hb, hto⟩
      · exact .inr ⟨hfrom, hb⟩
  · have hj := (JournalFilter.admits_within_iff.1 ((h.mem_iff j).1 hj).2).2.1
    have hk := (JournalFilter.admits_within_iff.1 ((h'.mem_iff k).1 hk).2).2.2
    exact hk.trans_le hj

end Listing

/-- No two journals have one key. -/
def DistinctJournals (t : Tables) : Prop := (t.journals.values.map Journal.id).Nodup

theorem listing_journalsMatching (h : t.DistinctJournals) (f : JournalFilter) :
    t.Listing f (t.journalsMatching f) := by
  have hperm : (t.journalsMatching f).Perm (t.journals.values.filter f.accepts) :=
    List.mergeSort_perm ..
  refine ⟨fun j => ?_, ?_⟩
  · rw [hperm.mem_iff, List.mem_filter, Table.mem_values_iff, JournalFilter.accepts_iff]
    rfl
  · have hsorted : (t.journalsMatching f).Pairwise fun a b => a.listedBefore b = true :=
      List.pairwise_mergeSort Journal.listedBefore_trans Journal.listedBefore_total _
    have hids : ((t.journals.values.filter f.accepts).map Journal.id).Nodup :=
      h.sublist (List.filter_sublist.map _)
    have hdistinct : (t.journalsMatching f).Pairwise fun a b => a.id ≠ b.id :=
      List.pairwise_map.1 ((hperm.map Journal.id).nodup_iff.2 hids)
    exact (hsorted.and hdistinct).imp fun hab => Journal.listedAbove_of_listedBefore hab.1 hab.2

/-! ## Pages -/

/-- The journals on the pages of a search from an offset on, where a page has `n` of them and the
    first one that is not full is the last. -/
def browse (t : Tables) (f : JournalFilter) (n : ℕ) (hn : 0 < n) (offset : ℕ) : List Journal :=
  let page := t.search ⟨f, offset, n⟩
  if page.journals.length < n then page.journals
  else page.journals ++ t.browse f n hn (offset + n)
termination_by (t.journalsMatching f).length - offset
decreasing_by
  have hfull : ¬ page.journals.length < n := ‹_›
  simp only [page, search, List.length_take, List.length_drop] at hfull
  omega

/-- Pages leave nothing out and repeat nothing. -/
theorem browse_eq (t : Tables) (f : JournalFilter) {n : ℕ} (hn : 0 < n) (offset : ℕ) :
    t.browse f n hn offset = (t.journalsMatching f).drop offset := by
  induction offset using browse.induct t f n hn with
  | case1 offset page hshort =>
    rw [browse, if_pos hshort]
    have hlength : ((t.journalsMatching f).drop offset).length ≤ n := by
      simp only [page, search, List.length_take] at hshort
      omega
    exact List.take_of_length_le hlength
  | case2 offset page hfull ih =>
    rw [browse, if_neg hfull, ih, ← List.drop_drop]
    exact List.take_append_drop n _

/-- It does not matter in which order the rows of the table are. -/
theorem search_congr (h : t.DistinctJournals) (hs : t.journals.Same t'.journals) (q : SearchQuery) :
    t'.search q = t.search q := by
  have hdistinct : t'.DistinctJournals :=
    ((hs.perm.map Prod.snd).map Journal.id).nodup_iff.1 h
  have hlisting := (listing_journalsMatching h q.filter).same hs
  unfold search
  rw [(listing_journalsMatching hdistinct q.filter).unique hlisting]

end Tables

namespace Ledger

variable {limits : DefaultLimits} {l : Ledger}

theorem Reachable.distinctJournals (h : l.Reachable limits) : l.tables.DistinctJournals :=
  h.doubleEntry.nodup_ids h.atRest.wellFormed

/-- The pages of a search, of whatever length, are the journals that meet the filter, each once,
    newest first and by falling key where times are equal.  Every page has their number, also one
    behind the last, and no page depends on the order in which the table has its rows.  The journals
    of a range of time are those of its later part and then those of its earlier part. -/
theorem Reachable.pages_tile (h : l.Reachable limits) (f : JournalFilter) {n : ℕ} (hn : 0 < n) :
    let js := l.tables.browse f n hn 0
    (∀ j, j ∈ js ↔ (∃ x, l.tables.journal? x = some j) ∧ f.Admits j) ∧ js.Nodup ∧
      js.Pairwise Journal.ListedAbove ∧
      (∀ offset, (l.tables.search ⟨f, offset, n⟩).total = js.length) ∧
      (∀ t' : Tables, l.tables.journals.Same t'.journals → ∀ q, t'.search q = l.tables.search q) ∧
      ∀ a b c, a ≤ b → b ≤ c → l.tables.browse (f.within a c) n hn 0 =
        l.tables.browse (f.within b c) n hn 0 ++ l.tables.browse (f.within a b) n hn 0 := by
  intro js
  have hd := h.distinctJournals
  have hbrowse : ∀ f, l.tables.browse f n hn 0 = l.tables.journalsMatching f :=
    fun f => l.tables.browse_eq f hn 0
  have hlisting : ∀ f, l.tables.Listing f (l.tables.browse f n hn 0) := by
    intro f
    rw [hbrowse]
    exact Tables.listing_journalsMatching hd f
  refine ⟨(hlisting f).mem_iff, (hlisting f).nodup, (hlisting f).sorted, fun offset => ?_,
    fun t' hs => Tables.search_congr hd hs, fun a b c hab hbc => ?_⟩
  · exact congrArg List.length (hbrowse f).symm
  · exact (hlisting _).unique ((hlisting _).append hab hbc (hlisting _))

/-- The second member's account is on both journals of the short history, one on each page; on a
    page behind them there is none, but still their number. -/
theorem Reachable.pages_tile_short :
    let f : JournalFilter := { account := some (.generate 20) }
    (short.tables.browse f 1 Nat.one_pos 0).length = 2 ∧
      (short.tables.browse f 1 Nat.one_pos 0).Pairwise Journal.ListedAbove ∧
      (short.tables.search ⟨f, 7, 1⟩).total = 2 := by
  intro f
  obtain ⟨-, -, hsorted, htotal, -⟩ :=
    Reachable.pages_tile (⟨shortHistory, rfl⟩ : short.Reachable .standard) f Nat.one_pos
  have htwo : (short.tables.search ⟨f, 0, 1⟩).total = 2 :=
    (List.length_mergeSort _).trans (by decide)
  have hlength : (short.tables.browse f 1 Nat.one_pos 0).length = 2 := (htotal 0).symm.trans htwo
  exact ⟨hlength, hsorted, (htotal 7).trans hlength⟩

end Ledger
end CreditCircle

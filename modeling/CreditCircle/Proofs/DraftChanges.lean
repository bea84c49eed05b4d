/-
  How the rows that are staged for a table change, while others commit.

  * `Register.Change`: what a call may do to a table with an index, and to what its unit of work has
    staged for the table.
  * `Draft.Knows`: the key that a row has to have to be staged at some place.
  * `Register.Sound`: the index is exact and everything that is staged fits; `Sound.change`.
  * `Numbered`: the keys of committed and added rows come from a counter, each of them once;
    `Numbered.change`.
-/
import CreditCircle.Proofs.Drafts
import Mathlib.Logic.Function.Basic

namespace CreditCircle

variable {κ α ν : Type} [DecidableEq κ] {key : α → ν} {d d' : Draft κ α}
  {rows rows' : Table κ α}

/-! ## Rows that stay -/

/-- Rows stay and keep their keys. -/
def Table.Grows (rows rows' : Table κ α) (key : α → ν) : Prop :=
  ∀ k v, rows.get? k = some v → ∃ w, rows'.get? k = some w ∧ key w = key v

theorem Table.Grows.refl (rows : Table κ α) (key : α → ν) : rows.Grows rows key :=
  fun _ v hv => ⟨v, hv, rfl⟩

namespace Draft

/-- Nothing staged. -/
def empty : Draft κ α := ⟨.empty, []⟩

/-- A row with this key may be staged here: such a row has been added or is committed; or there is a
    row of each kind, and then nothing of this draft will be committed. -/
inductive Knows (d : Draft κ α) (rows : Table κ α) (key : α → ν) (k : κ) (id : ν) : Prop
  | added {v : α} (adds : d.Adds rows k v) (key_eq : key v = id)
  | committed {v : α} (there : rows.get? k = some v) (key_eq : key v = id ∨ k ∈ d.news)

theorem Adds.of_grows (hg : rows.Grows rows' key) {k : κ} {v : α} (h : d.Adds rows' k v) :
    d.Adds rows k v := by
  refine ⟨h.staged, h.new, Option.eq_none_iff_forall_ne_some.2 fun w hw => ?_⟩
  obtain ⟨w', hw', -⟩ := hg k w hw
  rw [h.uncommitted] at hw'
  cases hw'

namespace Fits

theorem empty : (empty : Draft κ α).Fits rows key := ⟨nofun, fun _ _ _ _ h => nomatch h.new⟩

theorem of_grows (h : d.Fits rows key) (hg : rows.Grows rows' key) : d.Fits rows' key where
  replaces k v hv hn := by
    obtain ⟨w, hw, hkey⟩ := h.replaces k v hv hn
    obtain ⟨w', hw', hkey'⟩ := hg k w hw
    exact ⟨w', hw', hkey'.trans hkey⟩
  distinct k k' v v' hv hv' := h.distinct k k' v v' (hv.of_grows hg) (hv'.of_grows hg)

/-- The key of a row that is seen is known. -/
theorem knows (h : d.Fits rows key) {k : κ} {v : α}
    (hv : (d.rows.get? k).or (rows.get? k) = some v) : d.Knows rows key k (key v) := by
  rcases Option.or_eq_some_iff.1 hv with hs | ⟨-, hr⟩
  · by_cases hn : k ∈ d.news
    · cases hr : rows.get? k with
      | none => exact .added ⟨hs, hn, hr⟩ rfl
      | some w => exact .committed hr (Or.inr hn)
    · obtain ⟨w, hw, hkey⟩ := h.replaces k v hs hn
      exact .committed hw (Or.inl hkey)
  · exact .committed hr (Or.inl rfl)

end Fits
end Draft

/-! ## Rows that are staged -/

namespace Draft

variable {k x : κ} {v w : α}

theorem Adds.of_insert (h : (⟨d.rows.put k v, d.news ++ [k]⟩ : Draft κ α).Adds rows x w) :
    x = k ∧ w = v ∨ d.Adds rows x w := by
  have hs : (d.rows.put k v).get? x = some w := h.staged
  by_cases hx : x = k
  · subst hx
    rw [Table.get?_put_self] at hs
    exact Or.inl ⟨rfl, (Option.some.inj hs).symm⟩
  · rw [Table.get?_put_of_ne _ _ hx] at hs
    have hn : x ∈ d.news := (List.mem_append.1 h.new).resolve_right fun hn =>
      hx (List.mem_singleton.1 hn)
    exact Or.inr ⟨hs, hn, h.uncommitted⟩

theorem Adds.of_replace (hk : d.Knows rows key k (key v))
    (h : (⟨d.rows.put k v, d.news⟩ : Draft κ α).Adds rows x w) :
    ∃ w₀, d.Adds rows x w₀ ∧ key w₀ = key w := by
  have hs : (d.rows.put k v).get? x = some w := h.staged
  by_cases hx : x = k
  · subst hx
    rw [Table.get?_put_self] at hs
    cases hs
    cases hk with
    | added adds key_eq => exact ⟨_, adds, key_eq⟩
    | committed there _ => exact nomatch h.uncommitted.symm.trans there
  · rw [Table.get?_put_of_ne _ _ hx] at hs
    exact ⟨w, ⟨hs, h.new, h.uncommitted⟩, rfl⟩

/-- A new row with a new key. -/
theorem Fits.insert (h : d.Fits rows key) (hnew : ∀ x w, d.Adds rows x w → key w ≠ key v) :
    (⟨d.rows.put k v, d.news ++ [k]⟩ : Draft κ α).Fits rows key where
  replaces x w hw hn := by
    have hx : x ≠ k := fun hx => hn (List.mem_append_right _ (List.mem_singleton.2 hx))
    exact h.replaces x w ((Table.get?_put_of_ne _ _ hx).symm.trans hw) fun hx' =>
      hn (List.mem_append_left _ hx')
  distinct x x' w w' hw hw' hkey := by
    rcases hw.of_insert with ⟨rfl, rfl⟩ | ha
    · rcases hw'.of_insert with ⟨rfl, rfl⟩ | ha'
      · rfl
      · exact absurd hkey.symm (hnew _ _ ha')
    · rcases hw'.of_insert with ⟨rfl, rfl⟩ | ha'
      · exact absurd hkey (hnew _ _ ha)
      · exact h.distinct _ _ _ _ ha ha' hkey

/-- Another row with a key that is known. -/
theorem Fits.replace (h : d.Fits rows key) (hk : d.Knows rows key k (key v)) :
    (⟨d.rows.put k v, d.news⟩ : Draft κ α).Fits rows key where
  replaces x w hw hn := by
    by_cases hx : x = k
    · subst hx
      cases (Table.get?_put_self d.rows x v).symm.trans hw
      cases hk with
      | added adds _ => exact absurd adds.new hn
      | committed there key_eq => exact ⟨_, there, key_eq.resolve_right hn⟩
    · exact h.replaces x w ((Table.get?_put_of_ne _ _ hx).symm.trans hw) hn
  distinct x x' w w' hw hw' hkey := by
    obtain ⟨w₀, hw₀, hkey₀⟩ := hw.of_replace hk
    obtain ⟨w₁, hw₁, hkey₁⟩ := hw'.of_replace hk
    exact h.distinct _ _ _ _ hw₀ hw₁ (hkey₀.trans (hkey.trans hkey₁.symm))

end Draft

/-! ## Keys from a counter -/

section
variable {ι : Type} {drafts : ι → Draft κ α}

/-- A row is committed, or this unit of work adds it. -/
inductive Bears (drafts : ι → Draft κ α) (rows : Table κ α) : Option ι → κ → α → Prop
  | committed {k : κ} {v : α} (there : rows.get? k = some v) : Bears drafts rows none k v
  | added {i : ι} {k : κ} {v : α} (adds : (drafts i).Adds rows k v) : Bears drafts rows (some i) k v

/-- The keys of committed and added rows come from a counter, and no key is there twice. -/
structure Numbered (drafts : ι → Draft κ α) (rows : Table κ α) (key : α → ν) (number : ν → Nat)
    (last : Nat) : Prop where
  le : ∀ {o k v}, Bears drafts rows o k v → number (key v) ≤ last
  unique : ∀ {o o' k k' v v'}, Bears drafts rows o k v → Bears drafts rows o' k' v' →
    key v = key v' → o = o' ∧ k = k'

namespace Numbered

variable {number : ν → Nat} {last last' : Nat}

theorem empty : Numbered (fun _ : ι => (.empty : Draft κ α)) .empty key number last where
  le hb := by
    cases hb with
    | committed there => cases there
    | added adds => cases adds.new
  unique hb := by
    cases hb with
    | committed there => cases there
    | added adds => cases adds.new

/-- If every row has been there before, perhaps in somebody else's hands. -/
theorem of_origin {drafts' : ι → Draft κ α} (h : Numbered drafts rows key number last)
    (hlast : last ≤ last') (owner : Option ι → Option ι)
    (origin : ∀ {o k v}, Bears drafts' rows' o k v →
      ∃ o₀ w, Bears drafts rows o₀ k w ∧ key w = key v ∧ owner o₀ = o) :
    Numbered drafts' rows' key number last' where
  le hb := by
    obtain ⟨_, _, hb₀, hkey, -⟩ := origin hb
    rw [← hkey]
    exact Nat.le_trans (h.le hb₀) hlast
  unique hb hb' hkey := by
    obtain ⟨_, _, hb₀, hkey₀, ho⟩ := origin hb
    obtain ⟨_, _, hb₁, hkey₁, ho'⟩ := origin hb'
    obtain ⟨rfl, rfl⟩ := h.unique hb₀ hb₁ (hkey₀.trans (hkey.trans hkey₁.symm))
    exact ⟨ho.symm.trans ho', rfl⟩

/-- A key that the counter has not reached is new. -/
theorem key_ne (h : Numbered drafts rows key number last) {o : Option ι} {k : κ} {v w : α}
    (hb : Bears drafts rows o k w) (hv : last < number (key v)) : key w ≠ key v :=
  fun he => Nat.not_le.2 hv (he ▸ h.le hb)

/-- If one row is new, with a key that the counter has given out since. -/
theorem of_new {drafts' : ι → Draft κ α} (h : Numbered drafts rows key number last)
    (hlast : last ≤ last') {o : Option ι} {k : κ} {v : α} (hv : last < number (key v))
    (hv' : number (key v) ≤ last')
    (origin : ∀ {o' x w}, Bears drafts' rows' o' x w →
      o' = o ∧ x = k ∧ w = v ∨ Bears drafts rows o' x w) :
    Numbered drafts' rows' key number last' where
  le hb := by
    rcases origin hb with ⟨-, -, rfl⟩ | hb₀
    · exact hv'
    · exact Nat.le_trans (h.le hb₀) hlast
  unique hb hb' hkey := by
    rcases origin hb with ⟨rfl, rfl, rfl⟩ | hb
    · rcases origin hb' with ⟨rfl, rfl, rfl⟩ | hb'
      · exact ⟨rfl, rfl⟩
      · exact absurd hkey.symm (h.key_ne hb' hv)
    · rcases origin hb' with ⟨rfl, rfl, rfl⟩ | hb'
      · exact absurd hkey (h.key_ne hb hv)
      · exact h.unique hb hb' hkey

section
variable [DecidableEq ι] {i : ι} {o : Option ι} {k : κ} {v : α}

/-- Somebody else's draft adds no more than before. -/
theorem bears_of_update (hg : rows.Grows rows' key)
    (hb : Bears (Function.update drafts i d') rows' o k v) :
    (o = none ∧ rows'.get? k = some v) ∨ (o = some i ∧ d'.Adds rows' k v) ∨
      o ≠ some i ∧ Bears drafts rows o k v := by
  cases hb with
  | committed there => exact Or.inl ⟨rfl, there⟩
  | @added j k v adds =>
    by_cases hj : j = i
    · subst hj
      rw [Function.update_self] at adds
      exact Or.inr (Or.inl ⟨rfl, adds⟩)
    · rw [Function.update_of_ne hj] at adds
      exact Or.inr (Or.inr ⟨fun ho => hj (Option.some.inj ho), .added (adds.of_grows hg)⟩)

/-- If one draft adds nothing else than before. -/
theorem of_adds (h : Numbered drafts rows key number last) (hlast : last ≤ last')
    (hadds : ∀ {k v}, d'.Adds rows k v → ∃ w, (drafts i).Adds rows k w ∧ key w = key v) :
    Numbered (Function.update drafts i d') rows key number last' := by
  refine h.of_origin hlast id fun {o k v} hb => ?_
  rcases bears_of_update (.refl rows key) hb with ⟨rfl, hv⟩ | ⟨rfl, hv⟩ | ⟨-, hb⟩
  · exact ⟨_, v, .committed hv, rfl, rfl⟩
  · obtain ⟨w, hw, hkey⟩ := hadds hv
    exact ⟨_, w, .added hw, hkey, rfl⟩
  · exact ⟨_, v, hb, rfl, rfl⟩

end
end Numbered
end

/-! ## Changes -/

/-- What a call may do to a table with an index, and to what its unit of work has staged for it.
    Rows that are inserted are `Fresh`; who commits is `Free` of conflicts. -/
inductive Register.Change [DecidableEq ν] (key : α → ν) (Fresh : κ → α → Prop) (Free : Prop)
    (r : Register κ α ν) (d : Draft κ α) : Register κ α ν → Draft κ α → Prop
  | keep : Change key Fresh Free r d r d
  | insert {k : κ} {v : α} (unstaged : d.rows.get? k = none) (uncommitted : r.rows.get? k = none)
      (fresh : Fresh k v) : Change key Fresh Free r d r ⟨d.rows.put k v, d.news ++ [k]⟩
  | replace {k : κ} {v : α} (knows : d.Knows r.rows key k (key v)) :
      Change key Fresh Free r d r ⟨d.rows.put k v, d.news⟩
  | clear : Change key Fresh Free r d r .empty
  | commit (free : Free) (uncommitted : ∀ k ∈ d.news, r.rows.get? k = none) :
      Change key Fresh Free r d (r.apply d key) .empty

section
variable [DecidableEq ν] {Fresh : κ → α → Prop} {Free : Prop} {r r' : Register κ α ν}

namespace Register.Change

/-- No row is lost, and none gets another key. -/
theorem grows (hc : Change key Fresh Free r d r' d') (hf : d.Fits r.rows key) :
    r.rows.Grows r'.rows key := by
  intro k v hv
  cases hc with
  | commit _ uncommitted =>
    rw [get?_apply]
    cases hs : d.rows.get? k with
    | none => exact ⟨v, hv, rfl⟩
    | some w =>
      obtain ⟨v', hv', hkey⟩ := hf.replaces k w hs fun hn =>
        nomatch (uncommitted k hn).symm.trans hv
      rw [hv] at hv'
      cases hv'
      exact ⟨w, rfl, hkey.symm⟩
  | _ => exact ⟨v, hv, rfl⟩

end Register.Change

/-- What is staged fits as before, if the keys of rows that are inserted are new. -/
theorem Draft.Fits.change (hf : d.Fits r.rows key)
    (hc : Register.Change key Fresh Free r d r' d')
    (hnew : ∀ k v, Fresh k v → ∀ x w, d.Adds r.rows x w → key w ≠ key v) :
    d'.Fits r'.rows key := by
  cases hc with
  | keep => exact hf
  | insert _ _ fresh => exact hf.insert (hnew _ _ fresh)
  | replace knows => exact hf.replace knows
  | clear | commit _ _ => exact .empty

variable {ι : Type} {drafts : ι → Draft κ α} {i : ι}

/-- The index is exact, and everything that is staged fits. -/
structure Register.Sound (r : Register κ α ν) (drafts : ι → Draft κ α) (key : α → ν) : Prop where
  exact : r.Exact key
  fits : ∀ i, (drafts i).Fits r.rows key

theorem Register.Sound.change [DecidableEq ι] (h : r.Sound drafts key)
    (hc : Register.Change key Fresh Free r (drafts i) r' d')
    (hnew : ∀ k v, Fresh k v → ∀ x w, (drafts i).Adds r.rows x w → key w ≠ key v)
    (hunused : Free → ∀ k v, (drafts i).Adds r.rows k v → r.index.get? (key v) = none) :
    r'.Sound (Function.update drafts i d') key where
  exact := by
    cases hc with
    | commit free uncommitted => exact h.exact.apply (h.fits i) uncommitted (hunused free)
    | _ => exact h.exact
  fits j := by
    by_cases hj : j = i
    · subst hj
      rw [Function.update_self]
      exact (h.fits j).change hc hnew
    · rw [Function.update_of_ne hj]
      exact (h.fits j).of_grows (hc.grows (h.fits i))

namespace Numbered

variable {number : ν → Nat} {last last' : Nat}

/-- The keys stay in order, if rows that are inserted draw the next number. -/
theorem change [DecidableEq ι] (h : Numbered drafts r.rows key number last)
    (hf : (drafts i).Fits r.rows key)
    (hc : Register.Change key Fresh Free r (drafts i) r' d') (hlast : last ≤ last')
    (hnext : ∀ k v, Fresh k v → last < number (key v) ∧ number (key v) ≤ last') :
    Numbered (Function.update drafts i d') r'.rows key number last' := by
  have hg := hc.grows hf
  cases hc with
  | keep => exact h.of_adds hlast fun hv => ⟨_, hv, rfl⟩
  | @insert k v unstaged uncommitted fresh =>
    obtain ⟨hlt, hle⟩ := hnext k v fresh
    refine h.of_new (o := some i) (k := k) hlast hlt hle fun {o x w} hb => ?_
    rcases bears_of_update hg hb with ⟨rfl, hw⟩ | ⟨rfl, hw⟩ | ⟨-, hb⟩
    · exact Or.inr (.committed hw)
    · exact hw.of_insert.imp (fun h => ⟨rfl, h⟩) .added
    · exact Or.inr hb
  | replace knows => exact h.of_adds hlast fun hv => hv.of_replace knows
  | clear => exact h.of_adds hlast fun hv => nomatch hv.new
  | commit _ uncommitted =>
    -- What has been this unit's own is everybody's now.
    refine h.of_origin hlast (fun o => if o = some i then none else o) fun {o x w} hb => ?_
    rcases bears_of_update hg hb with ⟨rfl, hw⟩ | ⟨rfl, hw⟩ | ⟨hi, hb⟩
    · rw [Register.get?_apply] at hw
      rcases Option.or_eq_some_iff.1 hw with hs | ⟨-, hw⟩
      · by_cases hn : x ∈ (drafts i).news
        · exact ⟨some i, w, .added ⟨hs, hn, uncommitted x hn⟩, rfl, if_pos rfl⟩
        · obtain ⟨w₀, hw₀, hkey⟩ := hf.replaces x w hs hn
          exact ⟨none, w₀, .committed hw₀, hkey, rfl⟩
      · exact ⟨none, w, .committed hw, rfl, rfl⟩
    · exact nomatch hw.new
    · exact ⟨o, w, hb, rfl, if_neg hi⟩

/-- No added row has the key of a committed one. -/
theorem unused (h : Numbered drafts r.rows key number last) (he : r.Exact key) {k : κ} {v : α}
    (hv : (drafts i).Adds r.rows k v) : r.index.get? (key v) = none := by
  refine Option.eq_none_iff_forall_ne_some.2 fun x hx => ?_
  obtain ⟨w, hw, hkey⟩ := (he _ _).1 hx
  exact nomatch (h.unique (.committed hw) (.added hv) hkey).1

end Numbered
end
end CreditCircle

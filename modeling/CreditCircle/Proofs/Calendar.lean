/-
  The calendar.

  * `exists_inEra`, `InEra.yearOfEra_eq`: a day of 400 years lies in one of them, which is computed
    from it.
  * `Date.ofMarch`: the date of a day in a year that begins with March.
  * `isValid_ofDays`, `toDays_ofDays`: every day has a date, from which the day is computed back.
-/
import CreditCircle.Timestamp.Basic
import Mathlib.Tactic.IntervalCases
import Mathlib.Tactic.Ring

namespace CreditCircle.Date

/-! ## Years -/

section
variable {c q s t d : Int}

/-- The day `t` of the year `s` of the four years `q` of the century `c`.  The last year of four may
    have a day more, except at the end of the first three centuries. -/
structure InEra (c q s t : Int) : Prop where
  century : 0 ≤ c ∧ c ≤ 3
  quad : 0 ≤ q ∧ q ≤ 24
  year : 0 ≤ s ∧ s ≤ 3
  day : 0 ≤ t ∧ t ≤ 365
  leap : t = 365 → s = 3 ∧ (q = 24 → c = 3)

theorem exists_inEra (h : 0 ≤ d) (h' : d < 146097) :
    ∃ c q s t : Int, InEra c q s t ∧ d = 36524 * c + 1461 * q + 365 * s + t := by
  obtain ⟨c, r, hd, hc, hr⟩ : ∃ c r : Int, d = 36524 * c + r ∧ (0 ≤ c ∧ c ≤ 3) ∧
      0 ≤ r ∧ r ≤ 36524 ∧ (r = 36524 → c = 3) := by
    by_cases hlast : d = 146096
    · exact ⟨3, 36524, by omega⟩
    · exact ⟨d / 36524, d % 36524, by omega⟩
  obtain ⟨q, p, hr', hq, hp⟩ : ∃ q p : Int, r = 1461 * q + p ∧ (0 ≤ q ∧ q ≤ 24) ∧
      0 ≤ p ∧ p ≤ 1460 := ⟨r / 1461, r % 1461, by omega⟩
  obtain ⟨s, t, hp', hs, ht⟩ : ∃ s t : Int, p = 365 * s + t ∧ (0 ≤ s ∧ s ≤ 3) ∧
      0 ≤ t ∧ t ≤ 365 ∧ (t = 365 → s = 3) := by
    by_cases hlast : p = 1460
    · exact ⟨3, 365, by omega⟩
    · exact ⟨p / 365, p % 365, by omega⟩
  refine ⟨c, q, s, t, ⟨hc, hq, hs, ⟨ht.1, ht.2.1⟩, fun hlast => ⟨ht.2.2 hlast, ?_⟩⟩, by omega⟩
  omega

/-- The year, without a search for it. -/
theorem InEra.yearOfEra_eq (h : InEra c q s t) (hd : d = 36524 * c + 1461 * q + 365 * s + t) :
    (d - d / 1460 + d / 36524 - d / 146096) / 365 = 100 * c + 4 * q + s := by
  obtain ⟨hc, hq, hs, ht, hlast⟩ := h
  have hcentury : d / 36524 - d / 146096 = c := by
    by_cases he : d = 146096
    · omega
    · have h₁ : d / 146096 = 0 := by omega
      have h₂ : d / 36524 = c := by omega
      omega
  obtain ⟨k, hk, hkt⟩ : ∃ k, d / 1460 = 25 * c + q + k ∧ 0 ≤ t - k ∧ t - k ≤ 364 := by
    by_cases hlt : 24 * c + q + 365 * s + t < 1460
    · exact ⟨0, by omega⟩
    · exact ⟨1, by omega⟩
  omega

end

/-- The first day of a year, counted from the start of the year 0; both begin with March. -/
def yearStart (year : Int) : Int := 365 * year + year / 4 - year / 100 + year / 400

/-- The date of a day in a year, both counted from March. -/
def ofMarch (year dayOfYear : Int) : Date :=
  let m := (5 * dayOfYear + 2) / 153
  let month := if m < 10 then m + 3 else m - 9
  ⟨year + (if month ≤ 2 then 1 else 0), month.toNat, (dayOfYear - (153 * m + 2) / 5 + 1).toNat⟩

theorem exists_ofDays (n : Int) :
    ∃ year t, ofDays n = ofMarch year t ∧ n + 719468 = yearStart year + t ∧ 0 ≤ t ∧ t ≤ 365 ∧
      (t = 365 → isLeap (year + 1)) := by
  obtain ⟨era, hera⟩ : ∃ era, era = (n + 719468) / 146097 := ⟨_, rfl⟩
  obtain ⟨d, hd⟩ : ∃ d, d = (n + 719468) % 146097 := ⟨_, rfl⟩
  have hlow : 0 ≤ d := by omega
  obtain ⟨c, q, s, t, h, hsum⟩ := exists_inEra hlow (by omega)
  obtain ⟨y, hy⟩ : ∃ y, y = 100 * c + 4 * q + s := ⟨_, rfl⟩
  obtain ⟨hquads, hcenturies, hday⟩ : y / 4 = 25 * c + q ∧ y / 100 = c ∧
      d = 365 * y + y / 4 - y / 100 + t := by
    obtain ⟨hc, hq, hs, -, -⟩ := h
    omega
  refine ⟨y + era * 400, t, ?_, ?_, h.day.1, h.day.2, fun hlast => ?_⟩
  · have hyear := h.yearOfEra_eq hsum
    unfold ofDays
    dsimp only
    rw [← hera, ← hd, hyear, ← hy, show d - (365 * y + y / 4 - y / 100) = t by rw [hday]; ring]
    rfl
  · obtain ⟨hc, hq, hs, -, -⟩ := h
    have hn : n + 719468 = 146097 * era + d := by rw [hera, hd]; omega
    unfold yearStart
    clear hera hd
    omega
  · obtain ⟨rfl, hend⟩ := h.leap hlast
    have hc := h.century
    have hq := h.quad
    clear hera hd hsum hday hquads hcenturies
    simp only [isLeap, Bool.and_eq_true, Bool.or_eq_true, beq_iff_eq, bne_iff_ne]
    omega

/-! ## Months -/

theorem isValid_ofMarch {year t : Int} (h : 0 ≤ t) (h' : t ≤ 365)
    (hleap : t = 365 → isLeap (year + 1)) : (ofMarch year t).isValid := by
  obtain ⟨m, hm⟩ : ∃ m, m = (5 * t + 2) / 153 := ⟨_, rfl⟩
  have hlow : 0 ≤ m := by omega
  have hhigh : m ≤ 11 := by omega
  unfold ofMarch
  rw [← hm]
  by_cases hfebruary : m = 11
  · -- The last month of the year is the only one whose length depends on the year.
    subst hfebruary
    show (⟨year + 1, 2, (t - 337 + 1).toNat⟩ : Date).isValid
    have hlength : t - 337 + 1 ≤ monthLength (year + 1) 2 := by
      unfold monthLength
      rw [if_pos rfl]
      split
      · omega
      · rename_i hn
        have hshort : t ≠ 365 := fun hlast => hn (hleap hlast)
        omega
    simp only [isValid, Bool.and_eq_true, decide_eq_true_eq]
    omega
  · interval_cases m <;> simp [isValid, monthLength] <;> omega

theorem toDays_ofMarch {year t : Int} (h : 0 ≤ t) (h' : t ≤ 365) :
    (ofMarch year t).toDays = yearStart year + t - 719468 := by
  obtain ⟨m, hm⟩ : ∃ m, m = (5 * t + 2) / 153 := ⟨_, rfl⟩
  have hlow : 0 ≤ m := by omega
  have hhigh : m ≤ 11 := by omega
  unfold ofMarch
  rw [← hm]
  interval_cases m <;> simp [toDays, yearStart] <;> omega

theorem le_of_isValid {d : Date} (h : d.isValid) : d.month ≤ 12 ∧ d.day ≤ 31 := by
  have hlength : monthLength d.year d.month ≤ 31 := by
    unfold monthLength
    split
    · split <;> omega
    · split <;> omega
  simp only [isValid, Bool.and_eq_true, decide_eq_true_eq] at h
  omega

/-! ## Days -/

/-- Every day has a date. -/
theorem isValid_ofDays (n : Int) : (ofDays n).isValid := by
  obtain ⟨year, t, hdate, -, h, h', hleap⟩ := exists_ofDays n
  rw [hdate]
  exact isValid_ofMarch h h' hleap

/-- From its date, a day is computed back. -/
theorem toDays_ofDays (n : Int) : (ofDays n).toDays = n := by
  obtain ⟨year, t, hdate, hn, h, h', -⟩ := exists_ofDays n
  rw [hdate, toDays_ofMarch h h', ← hn, Int.add_sub_cancel]

end CreditCircle.Date

/-
  Reading back the text of a moment.

  * `number?_digits`, `field?_showPadded`, `year?_showYear`, `fraction?_showFraction`: the parts of
    a text are read as they are written.
  * `Timestamp.IsOrdinary`: the moments that the calendar has, with leap seconds at the end of
    minutes only.
  * `parse?_toText`: an ordinary moment is read as it is written.
  * `isOrdinary_of_parse?`: every moment that is read is an ordinary one.
-/
import CreditCircle.Proofs.Calendar
import CreditCircle.Proofs.DigitRuns
import Mathlib.Tactic.Ring

namespace CreditCircle.Timestamp

open Text

variable {rest : List Char}

/-! ## Numbers -/

theorem skipBlanks_digits {ds : List Digit} (hne : ds ≠ []) (rest : List Char) :
    skipBlanks (ds.map Digit.toChar ++ rest) = ds.map Digit.toChar ++ rest := by
  obtain ⟨d, ds, rfl⟩ := List.exists_cons_of_ne_nil hne
  refine dropWhile_eq_self fun c hc => ?_
  cases hc
  exact d.isBlank_toChar

theorem number?_digits {ds : List Digit} {most : Nat} (hne : ds ≠ []) (hle : ds.length ≤ most)
    (hrest : NoDigit rest) :
    number? most (ds.map Digit.toChar ++ rest) = some (natOfDigits ds, rest) := by
  have hrun : ((ds.map Digit.toChar ++ rest).takeWhile
      fun c => (Digit.ofChar? c).isSome).take most = ds.map Digit.toChar := by
    rw [takeWhile_digits ds hrest, List.take_of_length_le (by rwa [List.length_map])]
  unfold number?
  rw [hrun, if_neg (mt List.map_eq_nil_iff.1 hne), digits?_map_toChar, Option.map_some,
    List.drop_left]

/-- A field of two digits. -/
theorem field?_showPadded {top n : Nat} (hn : n ≤ top) (htop : top < 100) (hrest : NoDigit rest) :
    field? 2 top (showPadded 2 n ++ rest) = some (n, rest) := by
  obtain ⟨ds, hds, hvalue, hne, hlength⟩ := @exists_showPadded n 2 (by decide)
  rw [field?, hds, skipBlanks_digits hne, number?_digits hne (hlength (by omega)).le hrest, hvalue]
  exact if_pos hn

theorem mark?_cons {c : Char} (h : isBlank c = false) (rest : List Char) :
    mark? c (c :: rest) = some rest := by
  unfold mark? skipBlanks
  rw [List.dropWhile_cons_of_neg (by rw [h]; decide)]
  exact if_pos rfl

theorem year?_showYear (y : Int) (hrest : NoDigit rest) :
    year? (showYear y ++ rest) = some (y, rest) := by
  unfold showYear
  split
  · rename_i hy
    obtain ⟨ds, hds, hvalue, hne, hlength⟩ := @exists_showPadded y.toNat 4 (by decide)
    have hread := number?_digits hne (hlength (by omega)).le hrest
    obtain ⟨d, ds, rfl⟩ := List.exists_cons_of_ne_nil hne
    obtain ⟨hminus, hplus⟩ := d.toChar_ne
    unfold year?
    rw [hds, skipBlanks_digits hne]
    split
    · rename_i heq; exact absurd (List.cons.inj heq).1 hminus
    · rename_i heq; exact absurd (List.cons.inj heq).1 hplus
    · rw [hread, hvalue, Option.map_some]
      show some ((y.toNat : Int), rest) = _
      rw [Int.toNat_of_nonneg hy.1]
  · obtain ⟨ds, hds, hvalue, hne, -⟩ := @exists_showPadded y.natAbs 4 (by decide)
    have hread : number? (ds.map Digit.toChar ++ rest).length (ds.map Digit.toChar ++ rest) =
        some (y.natAbs, rest) := by
      rw [← hvalue]
      exact number?_digits hne (by simp) hrest
    rw [hds, List.cons_append]
    split
    · rename_i hy
      show (number? _ _).map _ = _
      rw [hread, Option.map_some]
      show some (-(y.natAbs : Int), rest) = _
      rw [Int.ofNat_natAbs_of_nonpos hy.le, Int.neg_neg]
    · rename_i hy
      show (number? _ _).map _ = _
      rw [hread, Option.map_some]
      show some ((y.natAbs : Int), rest) = _
      rw [Int.natAbs_of_nonneg (not_lt.1 hy)]

theorem fraction?_showPadded {width n : Nat} (hw : 0 < width) (hle : width ≤ 9)
    (hn : n < 10 ^ width) :
    fraction? ('.' :: showPadded width n ++ ['Z']) = some (n * 10 ^ (9 - width), ['Z']) := by
  obtain ⟨ds, hds, hvalue, hne, hlength⟩ := exists_showPadded n hw
  have hlength := hlength hn
  have hrest : NoDigit ['Z'] := noDigit_cons (by decide) []
  have hread : number? 9 (ds.map Digit.toChar ++ ['Z']) = some (n, ['Z']) := by
    rw [← hvalue]
    exact number?_digits hne (hlength.trans_le hle) hrest
  have hused : (ds.map Digit.toChar ++ ['Z']).length - ['Z'].length = width := by
    rw [List.length_append, List.length_map, Nat.add_sub_cancel, hlength]
  rw [hds, List.cons_append, fraction?, hread, Option.bind_eq_bind, Option.bind_some]
  dsimp only
  rw [hused]
  rfl

/-- The fraction of a second is read from any of its forms. -/
theorem fraction?_showFraction {nano : Nat} (h : nano < 10 ^ 9) :
    fraction? (showFraction nano ++ ['Z']) = some (nano, ['Z']) := by
  unfold showFraction
  split
  · rename_i hz
    rw [hz]
    rfl
  split
  · rw [fraction?_showPadded (by decide) (by decide) (by omega), Nat.div_mul_cancel]
    omega
  split
  · rw [fraction?_showPadded (by decide) (by decide) (by omega), Nat.div_mul_cancel]
    omega
  · rw [fraction?_showPadded (by decide) (by decide) h]
    simp

/-! ## Dates and times -/

theorem date?_show (year : Int) {month day : Nat} (hmonth : month ≤ 12) (hday : day ≤ 31) :
    date? (showYear year ++ '-' :: (showPadded 2 month ++ '-' :: (showPadded 2 day ++
      'T' :: rest))) = some (⟨year, month, day⟩, rest) := by
  have hdash : Digit.ofChar? '-' = none := by decide
  have hyear := fun rest => year?_showYear year (noDigit_cons hdash rest)
  have hmonth := fun rest => field?_showPadded hmonth (by decide) (noDigit_cons hdash rest)
  have hday := field?_showPadded hday (by decide) (@noDigit_cons 'T' (by decide) rest)
  have hmark := @mark?_cons '-' (by decide)
  simp only [date?, hyear, hmonth, hday, hmark, Option.bind_eq_bind, Option.bind_some]

theorem noDigit_showFraction (nano : Nat) : NoDigit (showFraction nano ++ ['Z']) := by
  unfold showFraction
  split
  · exact noDigit_cons (by decide) _
  split
  · exact noDigit_cons (by decide) _
  split
  · exact noDigit_cons (by decide) _
  · exact noDigit_cons (by decide) _

theorem clock?_show {clock : Clock} (hhour : clock.hour ≤ 23) (hminute : clock.minute ≤ 59)
    (hsecond : clock.second ≤ 60) (hnano : clock.nano < 10 ^ 9) :
    clock? (showPadded 2 clock.hour ++ ':' :: (showPadded 2 clock.minute ++
      ':' :: (showPadded 2 clock.second ++ (showFraction clock.nano ++ ['Z'])))) =
        some (clock, ['Z']) := by
  have hcolon : Digit.ofChar? ':' = none := by decide
  have hhour := fun rest => field?_showPadded hhour (by decide) (noDigit_cons hcolon rest)
  have hminute := fun rest => field?_showPadded hminute (by decide) (noDigit_cons hcolon rest)
  have hsecond := field?_showPadded hsecond (by decide) (noDigit_showFraction clock.nano)
  have hmark := @mark?_cons ':' (by decide)
  simp only [clock?, hhour, hminute, hsecond, hmark, fraction?_showFraction hnano,
    Option.bind_eq_bind, Option.bind_some]
  rfl

/-! ## Moments -/

/-- The year is one of the calendar, and a leap second comes at the end of a minute. -/
structure IsOrdinary (t : Timestamp) : Prop where
  year : t.isRepresentable
  leap : 10 ^ 9 ≤ t.nano → t.second % 60 = 59

/-- The time of day in UTC. -/
def clock (t : Timestamp) : Clock where
  hour := (t.second % 86400).toNat / 3600
  minute := (t.second % 86400).toNat / 60 % 60
  second := (t.second % 86400).toNat % 60 + t.nano / 10 ^ 9
  nano := t.nano % 10 ^ 9

theorem eq_of_parts {t u : Timestamp} (hs : t.second = u.second) (hn : t.nano = u.nano) :
    t = u := by
  obtain ⟨_, _, _⟩ := t
  cases hs
  cases hn
  rfl

theorem ofParts?_clock {t : Timestamp} (h : t.IsOrdinary) :
    ofParts? (.ofDays (t.second / 86400)) t.clock 0 = some t := by
  have hvalid := Date.isValid_ofDays (t.second / 86400)
  have hyear : inCalendar (Date.ofDays (t.second / 86400)).year := h.year
  have hnano : t.clock.nano < 10 ^ 9 := Nat.mod_lt _ (by decide)
  have hmoment : ∀ hlt, (⟨(Date.ofDays (t.second / 86400)).toDays * 86400 +
      ((t.clock.hour * 3600 + t.clock.minute * 60 + min t.clock.second 59 : Nat) : Int) - 0,
        t.clock.nano + (if t.clock.second = 60 then 10 ^ 9 else 0), hlt⟩ : Timestamp) = t := by
    intro hlt
    have hleap := h.leap
    have hlt := t.nano_lt
    refine eq_of_parts ?_ ?_
    · rw [Date.toDays_ofDays]
      unfold clock
      dsimp only
      omega
    · unfold clock
      dsimp only
      split <;> omega
  rw [ofParts?, if_neg (by simp [hvalid, hyear]), dif_pos hnano]
  dsimp only
  rw [hmoment, if_pos h.year]

/-- An ordinary moment is read as it is written. -/
theorem parse?_toText {t : Timestamp} (h : t.IsOrdinary) : parse? t.toText = some t := by
  have htext : t.toText = showYear (Date.ofDays (t.second / 86400)).year ++
      '-' :: (showPadded 2 (Date.ofDays (t.second / 86400)).month ++
        '-' :: (showPadded 2 (Date.ofDays (t.second / 86400)).day ++
          'T' :: (showPadded 2 t.clock.hour ++ ':' :: (showPadded 2 t.clock.minute ++
            ':' :: (showPadded 2 t.clock.second ++ (showFraction t.clock.nano ++ ['Z'])))))) := by
    simp only [toText, clock, List.append_assoc, List.cons_append]
  obtain ⟨hhour, hminute, hsecond, hnano⟩ : t.clock.hour ≤ 23 ∧ t.clock.minute ≤ 59 ∧
      t.clock.second ≤ 60 ∧ t.clock.nano < 10 ^ 9 := by
    have hlt := t.nano_lt
    have hleap := h.leap
    unfold clock
    dsimp only
    omega
  obtain ⟨hmonth, hday⟩ := Date.le_of_isValid (Date.isValid_ofDays (t.second / 86400))
  simp only [parse?, htext, date?_show _ hmonth hday, clock?_show hhour hminute hsecond hnano,
    Option.bind_eq_bind, Option.bind_some]
  exact ofParts?_clock h

/-! ## What is read -/

theorem dvd_of_signedOffset? {sign offset : Int} {cs : List Char}
    (h : signedOffset? sign cs = some (offset, rest)) : offset % 60 = 0 := by
  simp only [signedOffset?, Option.bind_eq_bind, Option.bind_eq_some_iff, Option.pure_def,
    Option.some.injEq, Prod.mk.injEq] at h
  obtain ⟨⟨hours, _⟩, -, ⟨minutes, _⟩, -, rfl, -⟩ := h
  have hseconds : hours * 3600 + minutes * 60 = 60 * (hours * 60 + minutes) := by ring
  dsimp only
  rw [hseconds, Nat.cast_mul, mul_left_comm]
  exact Int.mul_emod_right 60 _

theorem dvd_of_offset? {offset : Int} {cs : List Char}
    (h : offset? cs = some (offset, rest)) : offset % 60 = 0 := by
  unfold offset? at h
  split at h
  · cases h; rfl
  · cases h; rfl
  · exact dvd_of_signedOffset? h
  · exact dvd_of_signedOffset? h
  · exact dvd_of_signedOffset? h
  · split at h <;> cases h
    rfl
  · cases h

theorem isOrdinary_of_ofParts? {date : Date} {clock : Clock} {offset : Int} {t : Timestamp}
    (h : ofParts? date clock offset = some t) (hoffset : offset % 60 = 0) : t.IsOrdinary := by
  simp only [ofParts?, Option.ite_none_left_eq_some, Option.dite_none_right_eq_some,
    Option.ite_none_right_eq_some, Option.some.injEq] at h
  obtain ⟨-, hnano, hyear, rfl⟩ := h
  refine ⟨hyear, fun hleap => ?_⟩
  dsimp only at hleap ⊢
  split at hleap <;> omega

/-- Every moment that is read is an ordinary one. -/
theorem isOrdinary_of_parse? {cs : List Char} {t : Timestamp} (h : parse? cs = some t) :
    t.IsOrdinary := by
  simp only [parse?, Option.bind_eq_bind, Option.bind_eq_some_iff] at h
  obtain ⟨⟨date, _⟩, -, ⟨clock, _⟩, -, ⟨offset, _⟩, hoffset, hparts⟩ := h
  split at hparts
  · exact isOrdinary_of_ofParts? hparts (dvd_of_offset? hoffset)
  · cases hparts

end CreditCircle.Timestamp

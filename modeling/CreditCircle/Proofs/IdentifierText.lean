/-
  Reading back the text of an identifier.

  * `hexFixed_append`: digits side by side write one number.
  * `hexNat?_hexFixed`: hexadecimal digits are read as the number they write.
  * `parse?_toText`: an identifier is read as it is written.
-/
import CreditCircle.Identifier
import Mathlib.Tactic.Ring

namespace CreditCircle.Identifier

/-! ## Hexadecimal digits -/

theorem hexValue?_hexChar {n : Nat} (h : n < 16) : hexValue? (hexChar n) = some n := by
  revert n
  decide

@[simp] theorem length_hexFixed (width n : Nat) : (hexFixed width n).length = width := by
  induction width with
  | zero => rfl
  | succ width ih => rw [hexFixed, List.length_cons, ih]

theorem hexFixed_append (front back n : Nat) :
    hexFixed (front + back) n = hexFixed front (n / 16 ^ back) ++ hexFixed back n := by
  induction front with
  | zero => rw [Nat.zero_add]; rfl
  | succ front ih =>
    rw [Nat.add_right_comm, hexFixed, hexFixed, List.cons_append, ih, Nat.div_div_eq_div_mul,
      ← pow_add, Nat.add_comm back front]

theorem exists_mapM_hexFixed (width n : Nat) :
    ∃ ds, (hexFixed width n).mapM hexValue? = some ds ∧
      ∀ a, ds.foldl (fun n d => 16 * n + d) a = a * 16 ^ width + n % 16 ^ width := by
  induction width with
  | zero => exact ⟨[], rfl, fun a => by simp [Nat.mod_one]⟩
  | succ width ih =>
    obtain ⟨ds, hds, hfold⟩ := ih
    have hlt : n / 16 ^ width % 16 < 16 := Nat.mod_lt _ (by decide)
    refine ⟨n / 16 ^ width % 16 :: ds, ?_, fun a => ?_⟩
    · rw [hexFixed, List.mapM_cons, hexValue?_hexChar hlt, hds]
      rfl
    · rw [List.foldl_cons, hfold, Nat.mod_pow_succ]
      ring

theorem hexNat?_hexFixed (width n : Nat) :
    hexNat? (hexFixed width n) = some (n % 16 ^ width) := by
  obtain ⟨ds, hds, hfold⟩ := exists_mapM_hexFixed width n
  rw [hexNat?, hds, Option.map_some, hfold, Nat.zero_mul, Nat.zero_add]

/-! ## Hyphens -/

theorem unhyphenate?_groups {a b c d e : List Char} (ha : a.length = 8) (hb : b.length = 4)
    (hc : c.length = 4) (hd : d.length = 4) (he : e.length = 12) :
    unhyphenate? (a ++ '-' :: (b ++ '-' :: (c ++ '-' :: (d ++ '-' :: e)))) =
      some (a ++ b ++ c ++ d ++ e) := by
  unfold unhyphenate?
  rw [if_pos]
  · simp [List.drop_append, List.drop_of_length_le, ha, hb, hc, hd]
  · simp [List.getElem?_append, ha, hb, hc, hd, he]

theorem hexDigits?_toText (i : Identifier) : hexDigits? i.toText = some (hexFixed 32 i.value) := by
  have hlength : i.toText.length = 36 := by simp [toText]
  have hgroups : hexFixed 32 i.value = hexFixed 8 (i.value / 16 ^ 24) ++
      (hexFixed 4 (i.value / 16 ^ 20) ++ (hexFixed 4 (i.value / 16 ^ 16) ++
        (hexFixed 4 (i.value / 16 ^ 12) ++ hexFixed 12 i.value))) := by
    rw [← hexFixed_append 4 12, ← hexFixed_append 4 16, ← hexFixed_append 4 20,
      ← hexFixed_append 8 24]
  rw [hexDigits?, if_neg (by rw [hlength]; decide), if_pos hlength, toText,
    unhyphenate?_groups (by simp) (by simp) (by simp) (by simp) (by simp), hgroups]
  simp only [List.append_assoc]

/-- An identifier is read as it is written. -/
theorem parse?_toText (i : Identifier) : parse? i.toText = some i := by
  obtain ⟨n, hn⟩ := i
  have hfits : n % 16 ^ 32 % 2 ^ 128 = n := by
    rw [show 16 ^ 32 = 2 ^ 128 by decide, Nat.mod_mod, Nat.mod_eq_of_lt hn]
  unfold parse?
  rw [hexDigits?_toText, Option.bind_eq_bind, Option.bind_some, hexNat?_hexFixed]
  simp only [ofNat, hfits, Option.bind_eq_bind, Option.bind_some]
  rfl

end CreditCircle.Identifier

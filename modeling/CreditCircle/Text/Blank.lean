/-
  White space and trimming.

  * `isBlank`: the characters of the Unicode property White_Space.
  * `trim`: a text without the blanks at its two ends; `trim_trim` says that
    trimming twice changes nothing more.
  * `isAsciiBlank`, `trimBytes`: the same for bytes, where only five ASCII
    characters count.
-/

namespace CreditCircle.Text

/-! ## Characters -/

/-- The characters of the Unicode property White_Space. -/
def isBlank (c : Char) : Bool :=
  let n := c.toNat
  (9 ≤ n && n ≤ 13) || n == 0x20 || n == 0x85 || n == 0xA0 || n == 0x1680 ||
    (0x2000 ≤ n && n ≤ 0x200A) || n == 0x2028 || n == 0x2029 || n == 0x202F ||
    n == 0x205F || n == 0x3000

variable {α : Type}

/-- A list without the elements at its two ends that satisfy `p`. -/
def trimEnds (p : α → Bool) (xs : List α) : List α :=
  ((xs.dropWhile p).reverse.dropWhile p).reverse

/-- A text without the blanks at its two ends. -/
def trim (cs : List Char) : List Char := trimEnds isBlank cs

/-- A string without the blanks at its two ends. -/
def strip (s : String) : String := String.ofList (trim s.toList)

/-! ## Bytes -/

/-- The bytes that count as blank before a text is decoded: space, tab, line feed, form feed
    and carriage return. -/
def isAsciiBlank (b : UInt8) : Bool :=
  b == 0x20 || b == 0x09 || b == 0x0A || b == 0x0C || b == 0x0D

/-- Bytes without the ASCII blanks at the two ends. -/
def trimBytes (bs : List UInt8) : List UInt8 := trimEnds isAsciiBlank bs

/-! ## Laws -/

/-- A list whose two ends fail `p` is left alone. -/
theorem dropWhile_eq_self {p : α → Bool} {xs : List α} (h : ∀ x ∈ xs.head?, p x = false) :
    xs.dropWhile p = xs := by
  cases xs with
  | nil => rfl
  | cons x xs => simp [h x (by simp)]

theorem head?_dropWhile {p : α → Bool} {xs : List α} :
    ∀ x ∈ (xs.dropWhile p).head?, p x = false := by
  induction xs with
  | nil => simp
  | cons y ys ih =>
    by_cases hy : p y
    · simpa [List.dropWhile_cons, hy] using ih
    · simp [hy]

theorem head?_trimEnds {p : α → Bool} {xs : List α} :
    ∀ x ∈ (trimEnds p xs).head?, p x = false := by
  intro x hx
  have hd : ∀ x ∈ (xs.dropWhile p).head?, p x = false := head?_dropWhile
  generalize hys : xs.dropWhile p = ys at hd
  simp only [trimEnds, hys, List.head?_reverse] at hx
  cases ys with
  | nil => simp at hx
  | cons y ys =>
    have hy : p y = false := hd y (by simp)
    have : ∀ zs : List α, ((zs ++ [y]).dropWhile p).getLast? = some y := by
      intro zs
      induction zs with
      | nil => simp [hy]
      | cons z zs ih =>
        by_cases hz : p z
        · simpa [List.dropWhile_cons, hz] using ih
        · rw [List.cons_append, List.dropWhile_cons_of_neg (by simp [hz])]
          rw [← List.cons_append, List.getLast?_concat]
    rw [List.reverse_cons, this] at hx
    obtain rfl : y = x := by simpa using hx
    exact hy

theorem getLast?_trimEnds {p : α → Bool} {xs : List α} :
    ∀ x ∈ (trimEnds p xs).getLast?, p x = false := by
  intro x hx
  rw [trimEnds, List.getLast?_reverse] at hx
  exact head?_dropWhile x hx

/-- A list whose two ends fail `p` has nothing to trim. -/
theorem trimEnds_eq_self {p : α → Bool} {xs : List α} (hh : ∀ x ∈ xs.head?, p x = false)
    (hl : ∀ x ∈ xs.getLast?, p x = false) : trimEnds p xs = xs := by
  rw [trimEnds, dropWhile_eq_self hh, dropWhile_eq_self (by simpa using hl), List.reverse_reverse]

/-- Trimming twice is trimming once. -/
theorem trimEnds_trimEnds (p : α → Bool) (xs : List α) :
    trimEnds p (trimEnds p xs) = trimEnds p xs :=
  trimEnds_eq_self head?_trimEnds getLast?_trimEnds

@[simp] theorem trim_trim (cs : List Char) : trim (trim cs) = trim cs :=
  trimEnds_trimEnds isBlank cs

@[simp] theorem toList_strip (s : String) : (strip s).toList = trim s.toList := by
  simp [strip]

/-- Stripping twice is stripping once. -/
@[simp] theorem strip_strip (s : String) : strip (strip s) = strip s := by
  simp [strip]

end CreditCircle.Text

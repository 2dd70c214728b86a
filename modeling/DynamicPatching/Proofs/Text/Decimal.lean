import DynamicPatching.Proofs.Text.Cutting
import Mathlib.Algebra.Group.Nat.Defs
import Mathlib.Data.List.TakeWhile

/-!
# Laws of decimal numerals

The numeral of a natural number is a row of digits with the number as its value
(`isDigits_decimal`, `digitsValue_decimal`), so it reads back as an index (`index?_decimal`). A row
of digits holds no blank and no sign, and it ends where something else than a digit begins
(`takeWhile_digits_append`).
-/

namespace DynamicPatching.Text

/-! ## Rows of digits -/

theorem isBlank_of_isDigit {c : Char} (h : c.isDigit = true) : isBlank c = false := by
  obtain ⟨hlow, hhigh⟩ : 48 ≤ c.toNat ∧ c.toNat ≤ 57 := by
    simpa [Char.isDigit, UInt32.le_iff_toNat_le] using h
  -- no range of blanks meets the code points of the digits
  rw [isBlank, List.any_eq_false]
  intro range hrange
  have hapart : ∀ range ∈ blankRanges, range.2 < 48 ∨ 57 < range.1 := by decide
  have hrange := hapart range hrange
  simp only [Bool.and_eq_true, decide_eq_true_eq]
  omega

theorem isDigit_of_mem_decimal {n : Nat} {c : Char} (h : c ∈ decimal n) : c.isDigit = true :=
  Nat.isDigit_of_mem_toDigits (by decide) (by decide) h

theorem decimal_ne_nil (n : Nat) : decimal n ≠ [] := Nat.toDigits_ne_nil

theorem isDigits_iff {text : Text} :
    isDigits text = true ↔ text ≠ [] ∧ ∀ c ∈ text, c.isDigit = true := by
  simp [isDigits]

theorem isDigits_decimal (n : Nat) : isDigits (decimal n) = true := by
  have hall : ∀ c ∈ decimal n, c.isDigit = true := fun c => isDigit_of_mem_decimal
  exact isDigits_iff.2 ⟨decimal_ne_nil n, hall⟩

/-- The digits in front of a text that begins with no digit are the longest row of digits. -/
theorem takeWhile_digits_append {digits rest : Text} (hdigits : ∀ c ∈ digits, c.isDigit = true)
    (hrest : ∀ c ∈ rest.head?, c.isDigit = false) :
    (digits ++ rest).takeWhile Char.isDigit = digits := by
  rw [List.takeWhile_append_of_pos hdigits]
  cases rest with
  | nil => simp
  | cons c others => simp [hrest c (by simp)]

theorem dropWhile_digits_append {digits rest : Text} (hdigits : ∀ c ∈ digits, c.isDigit = true)
    (hrest : ∀ c ∈ rest.head?, c.isDigit = false) :
    (digits ++ rest).dropWhile Char.isDigit = rest := by
  rw [List.dropWhile_append_of_pos hdigits]
  cases rest with
  | nil => rfl
  | cons c others => simp [hrest c (by simp)]

theorem digitsValue_decimal (n : Nat) : digitsValue (decimal n) = n := Nat.ofDigitChars_ten_toDigits

theorem isBlank_of_mem_decimal {n : Nat} {c : Char} (h : c ∈ decimal n) : isBlank c = false :=
  isBlank_of_isDigit (isDigit_of_mem_decimal h)

theorem isWord_decimal (n : Nat) : (decimal n).IsWord :=
  ⟨decimal_ne_nil n, fun _ => isBlank_of_mem_decimal⟩

/-! ## Signs -/

theorem dropPlus_of_isDigits {text : Text} (h : ∀ c ∈ text, c.isDigit = true) :
    dropPlus text = text := by
  rw [dropPlus.eq_def]
  split
  · have hsign := h '+' List.mem_cons_self
    exact absurd hsign (by decide)
  · rfl

theorem dropSign_of_isDigits {text : Text} (h : ∀ c ∈ text, c.isDigit = true) :
    dropSign text = text := by
  rw [dropSign.eq_def]
  split
  · have hsign := h '+' List.mem_cons_self
    exact absurd hsign (by decide)
  · have hsign := h '-' List.mem_cons_self
    exact absurd hsign (by decide)
  · rfl

/-! ## Reading back -/

theorem isInteger_decimal (n : Nat) : isInteger (decimal n) = true := by
  rw [isInteger, dropSign_of_isDigits fun c => isDigit_of_mem_decimal]
  exact isDigits_decimal n

/-- An index reads back from its numeral. -/
theorem index?_decimal (index : UInt32) : index? (decimal index.toNat) = some index := by
  have hsmall : index.toNat < UInt32.size := index.toNat_lt_size
  have hplus : dropPlus (decimal index.toNat) = decimal index.toNat :=
    dropPlus_of_isDigits fun c => isDigit_of_mem_decimal
  -- the reader takes off a plus, asks for digits and compares their value with the largest index
  dsimp only [index?]
  rw [hplus, isDigits_decimal, digitsValue_decimal, Bool.true_and, if_pos (decide_eq_true hsmall),
    UInt32.ofNat_toNat]

/-! ## Rows of digits behind one another -/

theorem digitsValue_append (whole fraction : Text) :
    digitsValue (whole ++ fraction) =
      digitsValue whole * 10 ^ fraction.length + digitsValue fraction := by
  rw [digitsValue, Nat.ofDigitChars_append, Nat.ofDigitChars_eq_ofDigitChars_zero, Nat.mul_comm]
  rfl

/-- A numeral with zeros in front of it has the value of the numeral. -/
theorem digitsValue_padded (count n : Nat) :
    digitsValue (List.replicate count '0' ++ decimal n) = n := by
  have hzeros : digitsValue (List.replicate count '0') = 0 := by
    rw [digitsValue, Nat.ofDigitChars_replicate_zero, Nat.mul_zero]
  rw [digitsValue_append, hzeros, digitsValue_decimal, Nat.zero_mul, Nat.zero_add]

end DynamicPatching.Text

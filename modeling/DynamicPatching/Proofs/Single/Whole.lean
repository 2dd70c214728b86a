import DynamicPatching.Atom
import DynamicPatching.Proofs.Single.Grammar
import DynamicPatching.Proofs.Single.Overflow

/-!
# Whole numbers in single precision

Indices travel as numerals and are read as numbers. The numeral of a number below `2 ^ 64` reads as
the nearest single-precision number (`number?_decimal`, `isNearest_ofNat`), and up to `2 ^ 24` that
number has exactly the value that was written (`value_ofNat`), so numbers up to there stay apart
(`ofNat_inj`).
-/

namespace DynamicPatching

namespace Single

/-! ## Range -/

theorem nearestOrdinal_ofNat_lt {n : Nat} (h : n < 2 ^ 64) :
    nearestOrdinal (n * unitsPerOne) 1 < infinityOrdinal := by
  have hsmall : (n : ℚ) < overflow := by
    have hcast : (n : ℚ) < 2 ^ 64 := by exact_mod_cast h
    exact hcast.trans (by norm_num [overflow])
  rw [nearestOrdinal_lt_infinityOrdinal_iff one_pos, Nat.cast_one, div_one, Nat.cast_mul]
  exact mul_lt_mul_of_pos_right hsmall unitsPerOne_pos

theorem isFinite_ofNat {n : Nat} (h : n < 2 ^ 64) : (ofNat n).isFinite = true :=
  decide_eq_true (lt_of_le_of_lt (Nat.min_le_left _ _) (nearestOrdinal_ofNat_lt h))

/-- A whole number is rounded to its nearest number. -/
theorem isNearest_ofNat {n : Nat} (h : n < 2 ^ 64) : IsNearest (ofNat n) n := by
  have hnearest := isNearest_nearest false (n * unitsPerOne) one_pos
    (nearestOrdinal_ofNat_lt h)
  have htarget : signFactor false * (((n * unitsPerOne : Nat) / (1 : Nat) : ℚ) / unitsPerOne) = n := by
    rw [signFactor, if_neg (by decide), one_mul, Nat.cast_one, div_one, Nat.cast_mul,
      mul_div_cancel_right₀ _ unitsPerOne_pos.ne']
  rw [htarget] at hnearest
  exact hnearest

/-! ## Exact values -/

theorem halfEven_mul {den : Nat} (hden : 0 < den) (m : Nat) : halfEven (m * den) den = m := by
  simp only [halfEven]
  rw [Nat.mul_mod_left, Nat.mul_div_cancel _ hden, if_pos (by omega)]

/-- A multiple of the shifted unit is rounded to itself. -/
theorem scaled_nearestOrdinal_of_dvd {num : Nat} (h : 2 ^ (num.log2 - 23) ∣ num) :
    scaled (nearestOrdinal num 1) = num := by
  have hscaled := scaled_nearestOrdinal num 1
  rw [Nat.div_one, Nat.one_mul] at hscaled
  obtain ⟨m, hm⟩ := h
  -- only that `num` is a multiple of the unit matters, not that the unit is a power of two
  generalize 2 ^ (num.log2 - 23) = unit at hscaled hm
  rcases Nat.eq_zero_or_pos unit with rfl | hunit
  · rw [hscaled, hm, Nat.mul_zero, Nat.zero_mul]
  · rw [hscaled, hm, Nat.mul_comm unit m, halfEven_mul hunit]

/-- Up to `2 ^ 24` a whole number is a multiple of the unit it is rounded to. -/
theorem two_pow_dvd_units {n : Nat} (h : n ≤ 2 ^ 24) :
    2 ^ ((n * unitsPerOne).log2 - 23) ∣ n * unitsPerOne := by
  rw [unitsPerOne_eq]
  rcases Nat.lt_or_eq_of_le h with hlt | rfl
  · refine Nat.dvd_mul_left_of_dvd (Nat.pow_dvd_pow 2 ?_) n
    by_cases hzero : n * 2 ^ 149 = 0
    · rw [hzero, Nat.log2_zero]
      decide
    · have hsize : n * 2 ^ 149 < 2 ^ 173 := by
        calc n * 2 ^ 149 < 2 ^ 24 * 2 ^ 149 := Nat.mul_lt_mul_of_pos_right hlt (by decide)
          _ = 2 ^ 173 := by rw [← Nat.pow_add]
      have := (Nat.log2_lt hzero).2 hsize
      omega
  · -- at `2 ^ 24` the unit is twice as large, and still divides
    rw [← Nat.pow_add, Nat.log2_two_pow]
    exact Nat.pow_dvd_pow 2 (by decide)

/-- A whole number that is a multiple of the unit it is rounded to keeps its value. -/
theorem value_ofNat_of_dvd {n : Nat} (h : n < 2 ^ 64)
    (hdvd : 2 ^ ((n * unitsPerOne).log2 - 23) ∣ n * unitsPerOne) : (ofNat n).value = n := by
  have hordinal : (ofNat n).ordinal = nearestOrdinal (n * unitsPerOne) 1 :=
    Nat.min_eq_left (nearestOrdinal_ofNat_lt h).le
  have hsign : (ofNat n).negative = false := rfl
  rw [value, hsign, hordinal, scaled_nearestOrdinal_of_dvd hdvd, signFactor, if_neg (by decide),
    one_mul, Nat.cast_mul, mul_div_cancel_right₀ _ unitsPerOne_pos.ne']

/-- Up to `2 ^ 24` a whole number keeps its value. -/
theorem value_ofNat {n : Nat} (h : n ≤ 2 ^ 24) : (ofNat n).value = n :=
  value_ofNat_of_dvd (lt_of_le_of_lt h (by decide)) (two_pow_dvd_units h)

/-- Up to `2 ^ 24` whole numbers stay apart. -/
theorem ofNat_inj {m n : Nat} (hm : m ≤ 2 ^ 24) (hn : n ≤ 2 ^ 24) : ofNat m = ofNat n ↔ m = n := by
  constructor
  · intro h
    have hvalue := value_ofNat hm
    rw [h, value_ofNat hn] at hvalue
    exact_mod_cast hvalue.symm
  · rintro rfl
    rfl

end Single

/-! ## Numerals -/

/-- A literal of digits alone is rounded as the whole number is. -/
theorem Literal.nearest_whole (digits : Text) :
    nearest ⟨false, digits, [], 0⟩ = Single.ofNat (Text.digitsValue digits) := by
  simp [nearest, Literal.digits, scale, Single.ofDecimal_eq, Single.ofNat, Single.ofRatio]

/-- A row of digits behind at most one plus sign reads as the number nearest to its value. -/
theorem Text.number?_of_isDigits {text : Text} (hdigits : Text.isDigits (Text.dropPlus text) = true)
    (h : Text.digitsValue (Text.dropPlus text) < 2 ^ 64) :
    Text.number? text = some (Single.ofNat (Text.digitsValue (Text.dropPlus text))) := by
  rw [Text.number?, Literal.read?_of_isDigits hdigits, Option.map_some, Literal.nearest_whole]
  simp [Single.isFinite_ofNat h]

/-- However many digits there are, the row reads as no other number. -/
theorem Text.eq_ofNat_of_isDigits {text : Text} {x : Single}
    (hdigits : Text.isDigits (Text.dropPlus text) = true) (h : Text.number? text = some x) :
    x = Single.ofNat (Text.digitsValue (Text.dropPlus text)) := by
  rw [Text.number?, Literal.read?_of_isDigits hdigits, Option.map_some, Literal.nearest_whole,
    Option.filter_eq_some_iff] at h
  exact (Option.some.inj h.1).symm

/-- The numeral of a whole number reads as the number nearest to it. -/
theorem Text.number?_decimal {n : Nat} (h : n < 2 ^ 64) :
    Text.number? (Text.decimal n) = some (Single.ofNat n) := by
  have hplus : Text.dropPlus (Text.decimal n) = Text.decimal n :=
    Text.dropPlus_of_isDigits fun c => Text.isDigit_of_mem_decimal
  have hread := @Text.number?_of_isDigits (Text.decimal n)
  rw [hplus, Text.digitsValue_decimal] at hread
  exact hread (Text.isDigits_decimal n) h

theorem Atom.ofToken_decimal {n : Nat} (h : n < 2 ^ 64) :
    Atom.ofToken (Text.decimal n) = .number (Single.ofNat n) := by
  rw [Atom.ofToken, Text.number?_decimal h]

end DynamicPatching

import DynamicPatching.Proofs.Single.ReadBack
import DynamicPatching.Proofs.Single.Whole

/-!
# Numerals of rounded whole numbers

A whole number is rounded to a whole number, and its shortest decimal has no point: it is a numeral,
though not always the one that was rounded, because the digits that rounding does not need are zeros
(`exists_text_eq_decimal`). Rounding keeps the order (`nearestOrdinal_mono`), so the whole numbers that
are rounded below `2 ^ 32` are those before the last midpoint, `4294967168`. The numerals of these
again fit 32 bits (`exists_index_text`). All others of 32 bits are rounded to `2 ^ 32`
(`ofNat_of_late_index`), whose numeral does not.
-/

namespace DynamicPatching

namespace Single

/-! ## Order -/

/-- A larger quotient is not rounded to a smaller magnitude. -/
theorem nearestOrdinal_mono {num num' den : Nat} (hden : 0 < den) (h : num ≤ num') :
    nearestOrdinal num den ≤ nearestOrdinal num' den := by
  by_contra hlt
  have hscaled : (scaled (nearestOrdinal num' den) : ℚ) < scaled (nearestOrdinal num den) := by
    exact_mod_cast scaled_strictMono (Nat.lt_of_not_le hlt)
  have hquotient : (num / den : ℚ) ≤ num' / den :=
    div_le_div_of_nonneg_right (by exact_mod_cast h) (Nat.cast_nonneg _)
  obtain ⟨hnear, -⟩ := nearestOrdinal_nearest num hden (nearestOrdinal num' den)
  obtain ⟨hnear', -⟩ := nearestOrdinal_nearest num' hden (nearestOrdinal num den)
  -- the smaller quotient is past the midpoint of the two magnitudes, and the larger one before it
  have hpast : (scaled (nearestOrdinal num den) + scaled (nearestOrdinal num' den) : ℚ) ≤
      2 * (num / den) := by
    by_contra hbefore
    obtain ⟨hmid, -⟩ := eq_midpoint_of_nearer hnear (Or.inr ⟨hscaled, by linarith⟩)
    linarith
  have hbefore : (2 * (num' / den) : ℚ) ≤
      scaled (nearestOrdinal num' den) + scaled (nearestOrdinal num den) := by
    by_contra hpast
    obtain ⟨hmid, -⟩ := eq_midpoint_of_nearer hnear' (Or.inl ⟨hscaled, by linarith⟩)
    linarith
  -- so both are the midpoint, and equal quotients are rounded alike
  have hequal : (num / den : ℚ) = num' / den := by linarith
  have hden' : (den : ℚ) ≠ 0 := by exact_mod_cast hden.ne'
  rw [div_left_inj' hden'] at hequal
  obtain rfl : num = num' := by exact_mod_cast hequal
  exact hlt le_rfl

theorem ordinal_ofNat_mono {m n : Nat} (h : m ≤ n) : (ofNat m).ordinal ≤ (ofNat n).ordinal :=
  min_le_min_right _ (nearestOrdinal_mono one_pos (Nat.mul_le_mul_right _ h))

theorem ofNat_eq_of_ordinal {m n : Nat} (h : (ofNat m).ordinal = (ofNat n).ordinal) :
    ofNat m = ofNat n := by
  simp only [ofNat, ofRatio, nearest, mk.injEq, true_and]
  exact h

/-! ## Whole magnitudes -/

/-- A whole number is rounded to a whole number. -/
theorem unitsPerOne_dvd_scaled (n : Nat) :
    unitsPerOne ∣ scaled (nearestOrdinal (n * unitsPerOne) 1) := by
  rcases Nat.le_total ((n * unitsPerOne).log2 - 23) 149 with hle | hge
  · -- the spacing is a fraction of one, and nothing is rounded away
    have hunit : 2 ^ ((n * unitsPerOne).log2 - 23) ∣ unitsPerOne := Nat.pow_dvd_pow 2 hle
    rw [scaled_nearestOrdinal_of_dvd (Nat.dvd_mul_left_of_dvd hunit n)]
    exact Nat.dvd_mul_left _ _
  · rw [scaled_nearestOrdinal, Nat.div_one]
    exact Nat.dvd_mul_left_of_dvd (Nat.pow_dvd_pow 2 hge) _

/-- The shortest decimal of a whole magnitude is a numeral. -/
theorem exists_magnitudeText_eq_decimal {ordinal : Nat} (h : unitsPerOne ∣ scaled ordinal) :
    ∃ m, magnitudeText ordinal = Text.decimal m := by
  rw [magnitudeText]
  split
  · exact ⟨0, rfl⟩
  · rename_i hordinal
    obtain ⟨whole, hwhole⟩ := h
    -- the magnitude itself is a point of the grid of whole numbers
    have hpoint : fineValue ordinal = whole * gridStep decimalPlaces := by
      rw [fineValue_eq, gridStep_eq, hwhole, unitsPerOne_eq]
      ring
    have hrounds := rounds_fineValue hordinal
    rw [hpoint] at hrounds
    have hgrid : decimalPlaces ≤ coarsestGrid := by decide
    exact ⟨_, positional_of_le (le_shortestFrom hordinal hgrid hrounds)⟩

/-- **The text of a rounded whole number is a numeral of a whole number that is rounded alike.** -/
theorem exists_text_eq_decimal {n : Nat} (h : n < 2 ^ 64) :
    ∃ m, (ofNat n).text = Text.decimal m ∧ ofNat m = ofNat n := by
  have hfinite := isFinite_ofNat h
  have hordinal : (ofNat n).ordinal = nearestOrdinal (n * unitsPerOne) 1 :=
    Nat.min_eq_left (nearestOrdinal_ofNat_lt h).le
  have hwhole := unitsPerOne_dvd_scaled n
  rw [← hordinal] at hwhole
  obtain ⟨m, hm⟩ := exists_magnitudeText_eq_decimal hwhole
  have htext : (ofNat n).text = Text.decimal m := by
    rw [text_of_isFinite hfinite, hm]
    rfl
  have hdigits : Text.dropPlus (Text.decimal m) = Text.decimal m :=
    Text.dropPlus_of_isDigits fun c => Text.isDigit_of_mem_decimal
  have hread := number?_text hfinite
  rw [htext] at hread
  have hsame := Text.eq_ofNat_of_isDigits (by rw [hdigits]; exact Text.isDigits_decimal m) hread
  rw [hdigits, Text.digitsValue_decimal] at hsame
  exact ⟨m, htext, hsame.symm⟩

/-! ## Indices -/

/-- Before the midpoint below `2 ^ 32` an index is written as an index that is rounded alike. -/
theorem exists_index_text {index : UInt32} (h : index.toNat < 4294967168) :
    ∃ again : UInt32, (ofNat index.toNat).text = Text.decimal again.toNat ∧
      ofNat again.toNat = ofNat index.toNat := by
  obtain ⟨m, htext, hsame⟩ := exists_text_eq_decimal (lt_trans index.toNat_lt (by decide))
  have hlast : (ofNat 4294967167).ordinal < (ofNat (2 ^ 32)).ordinal := by decide +kernel
  have hsmall : m < 2 ^ 32 := by
    by_contra hlarge
    have hbelow : (ofNat index.toNat).ordinal ≤ (ofNat 4294967167).ordinal :=
      ordinal_ofNat_mono (by omega)
    have habove : (ofNat (2 ^ 32)).ordinal ≤ (ofNat m).ordinal :=
      ordinal_ofNat_mono (Nat.le_of_not_lt hlarge)
    rw [hsame] at habove
    omega
  refine ⟨UInt32.ofNat m, ?_, ?_⟩ <;> rw [UInt32.toNat_ofNat_of_lt' hsmall]
  · exact htext
  · exact hsame

/-- From the midpoint on an index is rounded to `2 ^ 32`. -/
theorem ofNat_of_late_index {index : UInt32} (h : 4294967168 ≤ index.toNat) :
    ofNat index.toNat = ofNat (2 ^ 32) := by
  apply ofNat_eq_of_ordinal
  have hfirst : (ofNat 4294967168).ordinal = (ofNat (2 ^ 32)).ordinal := by decide +kernel
  have hbelow : (ofNat 4294967168).ordinal ≤ (ofNat index.toNat).ordinal := ordinal_ofNat_mono h
  have habove : (ofNat index.toNat).ordinal ≤ (ofNat (2 ^ 32)).ordinal :=
    ordinal_ofNat_mono index.toNat_lt.le
  omega

theorem value_ofNat_two_pow : (ofNat (2 ^ 32)).value = 2 ^ 32 := by
  have hvalue := @value_ofNat_of_dvd (2 ^ 32) (by decide) (by decide +kernel)
  exact_mod_cast hvalue

theorem text_ofNat_two_pow : (ofNat (2 ^ 32)).text = "4294967300".toList := by decide +kernel

end Single

end DynamicPatching

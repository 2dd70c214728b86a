import DynamicPatching.Proofs.Single.Interval

/-!
# Overflow and exact decimals

Rounding leaves the finite numbers from `overflow` on, the midpoint between the largest finite number
and the next power of two: the tie goes to infinity, whose ordinal is even
(`isFinite_nearest_iff`). A rational has one nearest number of each sign (`IsNearest.unique`).

A decimal is rounded with its scale cut off at both sides. What is cut off overflows or rounds to zero
either way (`ofDecimal_eq`), so a decimal is rounded as its exact value is, however large or small its
scale (`isFinite_ofDecimal_iff`, `isNearest_ofDecimal`).
-/

namespace DynamicPatching.Single

/-! ## Overflow -/

/-- The point from which rounding gives infinity. -/
def overflow : ℚ := 2 ^ 128 - 2 ^ 103

/-- Overflow begins midway between the largest finite magnitude and the next one. -/
theorem overflow_eq_midpoint :
    (scaled (infinityOrdinal - 1) + scaled infinityOrdinal : ℚ) = 2 * (overflow * unitsPerOne) := by
  have hunits : scaled (infinityOrdinal - 1) + scaled infinityOrdinal =
      2 * ((2 ^ 128 - 2 ^ 103) * unitsPerOne) := by decide
  have hoverflow : ((2 ^ 128 - 2 ^ 103 : Nat) : ℚ) = overflow := by norm_num [overflow]
  rw [← hoverflow]
  exact_mod_cast hunits

variable {num den : Nat}

/-- Rounding reaches a finite magnitude exactly from below the overflow. -/
theorem nearestOrdinal_lt_infinityOrdinal_iff (hden : 0 < den) :
    nearestOrdinal num den < infinityOrdinal ↔ (num / den : ℚ) < overflow * unitsPerOne := by
  have hmidpoint := overflow_eq_midpoint
  have hlast : (scaled (infinityOrdinal - 1) : ℚ) < scaled infinityOrdinal := by
    exact_mod_cast scaled_strictMono (by decide)
  constructor
  · intro hfinite
    by_contra hlarge
    have hreached : (scaled (nearestOrdinal num den) : ℚ) ≤ scaled (infinityOrdinal - 1) := by
      exact_mod_cast scaled_strictMono.monotone (by omega)
    obtain ⟨hnear, heven⟩ := nearestOrdinal_nearest num hden infinityOrdinal
    -- infinity is at best as near, but then the magnitude is the largest, and that one is odd
    obtain ⟨hmid, hequal⟩ := eq_midpoint_of_nearer hnear (Or.inl ⟨by linarith, by linarith⟩)
    have hlargest : (scaled (nearestOrdinal num den) : ℚ) = scaled (infinityOrdinal - 1) := by
      linarith
    have hordinal := scaled_strictMono.injective (by exact_mod_cast hlargest)
    rcases heven hequal with hsame | hparity
    · exact hfinite.ne' (scaled_strictMono.injective hsame)
    · rw [hordinal] at hparity
      exact absurd hparity (by decide)
  · intro hsmall
    by_contra hinfinite
    have hreached : (scaled infinityOrdinal : ℚ) ≤ scaled (nearestOrdinal num den) := by
      exact_mod_cast scaled_strictMono.monotone (by omega)
    obtain ⟨hnear, -⟩ := nearestOrdinal_nearest num hden (infinityOrdinal - 1)
    obtain ⟨hmid, -⟩ := eq_midpoint_of_nearer hnear (Or.inr ⟨by linarith, by linarith⟩)
    linarith

/-- **Rounding gives a finite number exactly below the overflow.** -/
theorem isFinite_nearest_iff (negative : Bool) (hden : 0 < den) :
    (nearest negative num den).isFinite = true ↔ (num / den : ℚ) / unitsPerOne < overflow := by
  rw [div_lt_iff₀ unitsPerOne_pos, ← nearestOrdinal_lt_infinityOrdinal_iff hden]
  rw [isFinite, decide_eq_true_iff]
  change min (nearestOrdinal num den) infinityOrdinal < infinityOrdinal ↔ _
  omega

/-- What overflows gives one and the same infinity. -/
theorem nearest_eq_of_overflow {negative : Bool} {num' den' : Nat}
    (h : (nearest negative num den).isFinite = false)
    (h' : (nearest negative num' den').isFinite = false) :
    nearest negative num den = nearest negative num' den' := by
  have hmin : ¬ min (nearestOrdinal num den) infinityOrdinal < infinityOrdinal :=
    of_decide_eq_false h
  have hmin' : ¬ min (nearestOrdinal num' den') infinityOrdinal < infinityOrdinal :=
    of_decide_eq_false h'
  rw [nearest, nearest, mk.injEq]
  exact ⟨rfl, by omega⟩

/-! ## One nearest number -/

/-- Between two points that are equally far from a target, every point is nearer. -/
theorem abs_sub_lt_of_between {low point high target : ℚ} (h : |low - target| = |high - target|)
    (hlow : low < point) (hhigh : point < high) : |point - target| < |low - target| := by
  rcases abs_eq_abs.1 h with hsame | hmid
  · linarith
  · rw [abs_of_neg (by linarith : low - target < 0), abs_lt]
    exact ⟨by linarith, by linarith⟩

/-- The values of three numbers of one sign are in the order of their ordinals, or in the opposite
order. -/
theorem value_between {x y z : Single} (hy : x.negative = y.negative) (hz : x.negative = z.negative)
    (hlow : x.ordinal < z.ordinal) (hhigh : z.ordinal < y.ordinal) :
    x.value < z.value ∧ z.value < y.value ∨ y.value < z.value ∧ z.value < x.value := by
  have hunits := unitsPerOne_pos
  have hlow' : (scaled x.ordinal : ℚ) / unitsPerOne < scaled z.ordinal / unitsPerOne :=
    div_lt_div_of_pos_right (by exact_mod_cast scaled_strictMono hlow) hunits
  have hhigh' : (scaled z.ordinal : ℚ) / unitsPerOne < scaled y.ordinal / unitsPerOne :=
    div_lt_div_of_pos_right (by exact_mod_cast scaled_strictMono hhigh) hunits
  rw [value, value, value, ← hy, ← hz, signFactor]
  cases x.negative with
  | false => exact Or.inl ⟨by simpa using hlow', by simpa using hhigh'⟩
  | true => exact Or.inr ⟨by simpa using hhigh', by simpa using hlow'⟩

theorem value_ne {x y : Single} (hsign : x.negative = y.negative) (h : x.ordinal ≠ y.ordinal) :
    x.value ≠ y.value := by
  have hfactor : signFactor y.negative ≠ 0 := by
    rw [signFactor]
    split <;> norm_num
  rw [value, value, hsign, Ne, mul_right_inj' hfactor, div_left_inj' unitsPerOne_pos.ne']
  exact fun hscaled => h (scaled_strictMono.injective (by exact_mod_cast hscaled))

/-- Of two nearest numbers of one sign neither is the smaller. -/
theorem IsNearest.ordinal_le {x y : Single} {target : ℚ} (hx : x.IsNearest target)
    (hy : y.IsNearest target) (hsign : x.negative = y.negative) : y.ordinal ≤ x.ordinal := by
  by_contra hlt
  have hequal : |x.value - target| = |y.value - target| :=
    le_antisymm (hx.nearest y hy.finite) (hy.nearest x hx.finite)
  -- both are even, so there is a number between them, and it is nearer than either
  have hevenX := (hx.even y hy.finite hequal.symm).resolve_left
    (value_ne hsign.symm (by omega))
  have hevenY := (hy.even x hx.finite hequal).resolve_left (value_ne hsign (by omega))
  have hsmall := y.ordinal_lt
  have hfinite : y.ordinal < infinityOrdinal := of_decide_eq_true hy.finite
  let z : Single := ⟨x.negative, x.ordinal + 1, by omega⟩
  have hz : z.isFinite = true := decide_eq_true (by change x.ordinal + 1 < _; omega)
  have hnearest := hx.nearest z hz
  rcases @value_between x y z hsign rfl (Nat.lt_succ_self _) (by change x.ordinal + 1 < _; omega) with
    ⟨hlow, hhigh⟩ | ⟨hlow, hhigh⟩
  · exact absurd hnearest (not_le.2 (abs_sub_lt_of_between hequal hlow hhigh))
  · have hnearer := abs_sub_lt_of_between hequal.symm hlow hhigh
    rw [← hequal] at hnearer
    exact absurd hnearest (not_le.2 hnearer)

/-- **A rational has one nearest number of each sign.** -/
theorem IsNearest.unique {x y : Single} {target : ℚ} (hx : x.IsNearest target)
    (hy : y.IsNearest target) (hsign : x.negative = y.negative) : x = y := by
  have hordinal : x.ordinal = y.ordinal :=
    le_antisymm (hy.ordinal_le hx hsign.symm) (hx.ordinal_le hy hsign)
  obtain ⟨negative, ordinal, ordinal_lt⟩ := x
  obtain ⟨negative', ordinal', ordinal_lt'⟩ := y
  obtain rfl : negative = negative' := hsign
  obtain rfl : ordinal = ordinal' := hordinal
  rfl

/-! ## Decimals -/

theorem ten_zpow (scale : Int) :
    (10 : ℚ) ^ scale = (10 ^ scale.toNat : Nat) / (10 ^ (-scale).toNat : Nat) := by
  rcases Int.le_total 0 scale with hle | hle
  · obtain ⟨n, rfl⟩ := Int.eq_ofNat_of_zero_le hle
    simp
  · obtain ⟨n, hn⟩ := Int.eq_ofNat_of_zero_le (Int.neg_nonneg_of_nonpos hle)
    obtain rfl : scale = -n := by omega
    simp

/-- Less than half a unit is rounded to zero. -/
theorem nearestOrdinal_eq_zero (h : 2 * num < den) : nearestOrdinal num den = 0 := by
  have hquotient : num / den = 0 := Nat.div_eq_of_lt (by omega)
  have hmod : num % den = num := Nat.mod_eq_of_lt (by omega)
  rw [nearestOrdinal_eq, hquotient]
  simp [halfEven, hquotient, hmod, h]

/-- A decimal in units, as the quotient that is rounded. -/
theorem units_quotient (digits : Nat) (scale : Int) :
    ((digits * 10 ^ scale.toNat * unitsPerOne : Nat) / (10 ^ (-scale).toNat : Nat) : ℚ) /
      unitsPerOne = digits * 10 ^ scale := by
  have hunits := unitsPerOne_pos.ne'
  rw [ten_zpow]
  push_cast
  field_simp

/-- A decimal far below the smallest magnitude is rounded to zero. -/
theorem nearestOrdinal_of_tiny {digits : Nat} {scale : Int}
    (h : scale ≤ -(digits.log2 + 64 : Nat)) :
    nearestOrdinal (digits * 10 ^ scale.toNat * unitsPerOne) (10 ^ (-scale).toNat) = 0 := by
  apply nearestOrdinal_eq_zero
  have hdigits : digits < 2 ^ (digits.log2 + 1) := Nat.lt_log2_self
  have hscale : scale.toNat = 0 := by omega
  generalize digits.log2 = size at h hdigits
  calc 2 * (digits * 10 ^ scale.toNat * unitsPerOne)
      = digits * 2 ^ 150 := by
        rw [hscale, unitsPerOne_eq]
        ring
    _ < 2 ^ (size + 1) * 2 ^ 150 := Nat.mul_lt_mul_of_pos_right hdigits (by positivity)
    _ = 2 ^ size * 2 ^ 151 := by ring
    _ ≤ 10 ^ size * 10 ^ 64 :=
        Nat.mul_le_mul (Nat.pow_le_pow_left (by decide) size) (by norm_num)
    _ = 10 ^ (size + 64) := (Nat.pow_add 10 size 64).symm
    _ ≤ 10 ^ (-scale).toNat := Nat.pow_le_pow_right (by decide) (by omega)

/-- A decimal above `10 ^ 39` overflows. -/
theorem isFinite_of_huge (negative : Bool) {digits : Nat} {scale : Int} (hdigits : 0 < digits)
    (h : 39 ≤ scale) :
    (nearest negative (digits * 10 ^ scale.toNat * unitsPerOne) (10 ^ (-scale).toNat)).isFinite =
      false := by
  rw [← Bool.not_eq_true, isFinite_nearest_iff negative (by positivity), units_quotient, not_lt]
  have hone : (1 : ℚ) ≤ digits := by exact_mod_cast hdigits
  calc overflow ≤ 10 ^ (39 : Int) := by norm_num [overflow]
    _ ≤ 10 ^ scale := zpow_le_zpow_right₀ (by norm_num) h
    _ ≤ digits * 10 ^ scale := le_mul_of_one_le_left (zpow_nonneg (by norm_num) scale) hone

/-- **Cutting off the scale of a decimal does not change the number it is rounded to.** -/
theorem ofDecimal_eq (negative : Bool) (digits : Nat) (scale : Int) :
    ofDecimal negative digits scale =
      nearest negative (digits * 10 ^ scale.toNat * unitsPerOne) (10 ^ (-scale).toNat) := by
  change nearest negative (digits * 10 ^ (boundedScale digits scale).toNat * unitsPerOne)
    (10 ^ (-boundedScale digits scale).toNat) = _
  -- below the lower bound both sides are zero, above the upper one both are infinite
  rcases lt_or_ge scale (-(digits.log2 + 64 : Nat)) with hlow | hlow
  · have hbounded : boundedScale digits scale = -(digits.log2 + 64 : Nat) := by
      rw [boundedScale]
      omega
    simp only [nearest, mk.injEq, true_and]
    rw [nearestOrdinal_of_tiny hlow.le, hbounded, nearestOrdinal_of_tiny le_rfl]
  rcases lt_or_ge 39 scale with hhigh | hhigh
  · have hbounded : boundedScale digits scale = 39 := by
      rw [boundedScale]
      omega
    rcases Nat.eq_zero_or_pos digits with rfl | hdigits
    · -- no scale makes zero overflow
      have hnegated : (-scale).toNat = 0 := by omega
      simp only [hbounded, hnegated, Nat.zero_mul]
      rfl
    · rw [hbounded]
      exact nearest_eq_of_overflow (isFinite_of_huge negative hdigits le_rfl)
        (isFinite_of_huge negative hdigits hhigh.le)
  · have hbounded : boundedScale digits scale = scale := by
      rw [boundedScale]
      omega
    rw [hbounded]

/-- A decimal is rounded to a finite number exactly when its value is below the overflow. -/
theorem isFinite_ofDecimal_iff (negative : Bool) (digits : Nat) (scale : Int) :
    (ofDecimal negative digits scale).isFinite = true ↔ (digits * 10 ^ scale : ℚ) < overflow := by
  rw [ofDecimal_eq, isFinite_nearest_iff negative (by positivity), units_quotient]

/-- A decimal below the overflow is rounded to its nearest number. -/
theorem isNearest_ofDecimal {negative : Bool} {digits : Nat} {scale : Int}
    (h : (digits * 10 ^ scale : ℚ) < overflow) :
    IsNearest (ofDecimal negative digits scale) (signFactor negative * (digits * 10 ^ scale)) := by
  have hden : 0 < 10 ^ (-scale).toNat := by positivity
  rw [← units_quotient, div_lt_iff₀ unitsPerOne_pos,
    ← nearestOrdinal_lt_infinityOrdinal_iff hden] at h
  rw [ofDecimal_eq, ← units_quotient]
  exact isNearest_nearest negative _ hden h

end DynamicPatching.Single

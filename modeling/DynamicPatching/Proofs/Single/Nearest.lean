import DynamicPatching.Single.Basic
import Mathlib.Algebra.Order.Ring.Rat
import Mathlib.Tactic.FieldSimp
import Mathlib.Tactic.Linarith
import Mathlib.Tactic.Positivity
import Mathlib.Tactic.Ring

/-!
# Rounding reaches the nearest number

The value of a finite number is a rational (`value`). A number is nearest to a rational when no
finite number is nearer, and when any other that is equally near finds it with an even significand
(`IsNearest`). Rounding a quotient reaches its nearest number as long as the result is finite
(`isNearest_nearest`).

The argument is about magnitudes in the smallest unit. Rounding divides by a power of two and rounds
the quotient to a whole number, and every magnitude that could compete is a multiple of that power
or lies below the whole binade (`scaled_multiple_or_lt`).
-/

namespace DynamicPatching.Single

/-! ## Values -/

/-- The factor that a sign stands for. -/
def signFactor (negative : Bool) : ℚ := if negative then -1 else 1

/-- The value of a finite number. -/
def value (x : Single) : ℚ := signFactor x.negative * (scaled x.ordinal / unitsPerOne)

/-- The number is finite, no finite number is nearer to the target, and if one of another value is
equally near then this one has an even significand. -/
structure IsNearest (x : Single) (target : ℚ) : Prop where
  finite : x.isFinite = true
  nearest : ∀ y : Single, y.isFinite = true → |x.value - target| ≤ |y.value - target|
  even : ∀ y : Single, y.isFinite = true → |y.value - target| = |x.value - target| →
    y.value = x.value ∨ x.ordinal % 2 = 0

/-! ## Magnitudes -/

theorem binade_eq : binade = 2 ^ 23 := rfl

theorem scaled_of_lt {ordinal : Nat} (h : ordinal < binade) : scaled ordinal = ordinal := if_pos h

theorem scaled_of_le {ordinal : Nat} (h : binade ≤ ordinal) :
    scaled ordinal = (binade + ordinal % binade) * 2 ^ (ordinal / binade - 1) :=
  if_neg (Nat.not_lt.2 h)

/-- A significand above a whole number of binades, scaled up by as many doublings. -/
theorem scaled_binades {shift significand : Nat} (hle : significand ≤ 2 * binade)
    (hge : shift = 0 ∨ binade ≤ significand) :
    scaled (shift * binade + significand) = significand * 2 ^ shift := by
  rcases Nat.lt_or_ge significand binade with hsmall | hlarge
  · obtain rfl : shift = 0 := by omega
    rw [Nat.zero_mul, Nat.zero_add, scaled_of_lt hsmall, Nat.pow_zero, Nat.mul_one]
  rw [scaled_of_le (Nat.le_add_left_of_le hlarge)]
  simp only [binade_eq] at hle hlarge ⊢
  rcases Nat.lt_or_ge significand (2 * 2 ^ 23) with hlt | htop
  · have hdiv : (shift * 2 ^ 23 + significand) / 2 ^ 23 - 1 = shift := by omega
    have hmod : 2 ^ 23 + (shift * 2 ^ 23 + significand) % 2 ^ 23 = significand := by omega
    rw [hdiv, hmod]
  · -- rounding up to the next power of two carries into the next binade
    obtain rfl : significand = 2 * 2 ^ 23 := by omega
    have hdiv : (shift * 2 ^ 23 + 2 * 2 ^ 23) / 2 ^ 23 - 1 = shift + 1 := by omega
    have hmod : 2 ^ 23 + (shift * 2 ^ 23 + 2 * 2 ^ 23) % 2 ^ 23 = 2 ^ 23 := by omega
    rw [hdiv, hmod, Nat.pow_succ]
    ring

/-- Every magnitude is a multiple of a given power of two or lies below the binade of that power. -/
theorem scaled_multiple_or_lt (ordinal shift : Nat) :
    (∃ m, scaled ordinal = m * 2 ^ shift) ∨ 0 < shift ∧ scaled ordinal < binade * 2 ^ shift := by
  rcases Nat.eq_zero_or_pos shift with rfl | hshift
  · exact Or.inl ⟨scaled ordinal, by simp⟩
  -- a subnormal magnitude lies below every binade; a normal one is compared by its exponent
  rcases Nat.lt_or_ge ordinal binade with hlt | hge
  · rw [scaled_of_lt hlt]
    exact Or.inr ⟨hshift, lt_of_lt_of_le hlt (Nat.le_mul_of_pos_right _ (Nat.two_pow_pos shift))⟩
  · rw [scaled_of_le hge]
    generalize ordinal / binade - 1 = exponent
    have hmod : ordinal % binade < binade := Nat.mod_lt _ (by decide)
    rcases Nat.le_or_le shift exponent with hle | hge
    · obtain ⟨more, rfl⟩ := Nat.exists_eq_add_of_le hle
      exact Or.inl ⟨(binade + ordinal % binade) * 2 ^ more, by rw [Nat.pow_add]; ring⟩
    · rcases Nat.eq_or_lt_of_le hge with rfl | hlt
      · exact Or.inl ⟨binade + ordinal % binade, rfl⟩
      · refine Or.inr ⟨hshift, ?_⟩
        obtain ⟨more, rfl⟩ := Nat.exists_eq_add_of_lt hlt
        calc (binade + ordinal % binade) * 2 ^ exponent
            < 2 * binade * 2 ^ exponent :=
              Nat.mul_lt_mul_of_pos_right (by omega) (Nat.two_pow_pos exponent)
          _ = binade * 2 ^ (exponent + 1) := by ring
          _ ≤ binade * 2 ^ (exponent + more + 1) :=
              Nat.mul_le_mul_left _ (Nat.pow_le_pow_right (by decide) (by omega))

/-! ## Rounding to a whole number -/

theorem halfEven_eq_or (num den : Nat) :
    halfEven num den = num / den ∨ halfEven num den = num / den + 1 := by
  simp only [halfEven]
  split
  · exact Or.inl rfl
  · split
    · exact Or.inr rfl
    · rcases Nat.mod_two_eq_zero_or_one (num / den) with h | h <;> simp [h]

theorem div_eq_add_mod_div {num den : Nat} (hden : 0 < den) :
    (num : ℚ) / den = (num / den : Nat) + (num % den : Nat) / (den : ℚ) := by
  have hne : (den : ℚ) ≠ 0 := by exact_mod_cast hden.ne'
  rw [div_eq_iff hne, add_mul, div_mul_cancel₀ _ hne]
  exact_mod_cast (Nat.div_add_mod' num den).symm

/-- A rounded quotient is at most a half away, and even if it is exactly a half away. -/
theorem abs_halfEven_sub_le (num : Nat) {den : Nat} (hden : 0 < den) :
    |(halfEven num den : ℚ) - num / den| ≤ 1 / 2 ∧
      (|(halfEven num den : ℚ) - num / den| = 1 / 2 → halfEven num den % 2 = 0) := by
  have hpos : (0 : ℚ) < den := by exact_mod_cast hden
  have hlt : num % den < den := Nat.mod_lt num hden
  rw [div_eq_add_mod_div hden]
  simp only [halfEven]
  -- the quotient is a whole number and a rest below one, which is what gets rounded
  generalize num / den = whole
  generalize num % den = rest at hlt ⊢
  have hrest : (0 : ℚ) ≤ rest / den := by positivity
  have hbelow : (rest : ℚ) / den < 1 := by
    rw [div_lt_one hpos]
    exact_mod_cast hlt
  rcases Nat.lt_trichotomy (2 * rest) den with hless | heq | hmore
  · have hfar : (rest : ℚ) / den < 1 / 2 := by
      rw [div_lt_div_iff₀ hpos two_pos, one_mul, mul_comm]
      exact_mod_cast hless
    have habs : |(whole : ℚ) - (whole + rest / den)| = rest / den := by
      rw [sub_add_cancel_left, abs_neg, abs_of_nonneg hrest]
    rw [if_pos hless, habs]
    exact ⟨hfar.le, fun h => absurd h hfar.ne⟩
  · have hhalf : (rest : ℚ) / den = 1 / 2 := by
      rw [div_eq_div_iff hpos.ne' two_ne_zero, one_mul, mul_comm]
      exact_mod_cast heq
    rw [if_neg (by omega), if_neg (by omega), hhalf]
    have heven : (whole + whole % 2) % 2 = 0 := by omega
    refine ⟨?_, fun _ => heven⟩
    rcases Nat.mod_two_eq_zero_or_one whole with hmod | hmod
    · rw [hmod, Nat.add_zero, sub_add_cancel_left, abs_neg, abs_of_pos (by norm_num)]
    · rw [hmod, Nat.cast_add, Nat.cast_one, add_sub_add_left_eq_sub, abs_of_pos (by norm_num)]
      norm_num
  · have hnear : 1 / 2 < (rest : ℚ) / den := by
      rw [div_lt_div_iff₀ two_pos hpos, one_mul, mul_comm (rest : ℚ)]
      exact_mod_cast hmore
    have habs : |((whole + 1 : Nat) : ℚ) - (whole + rest / den)| = 1 - rest / den := by
      rw [Nat.cast_add, Nat.cast_one, add_sub_add_left_eq_sub, abs_of_pos (by linarith)]
    rw [if_neg (by omega), if_pos hmore, habs]
    exact ⟨by linarith, fun h => by linarith⟩

/-- No whole number is nearer than the rounded one, and another one is equally near only if the
rounded one is even. -/
theorem halfEven_nearest (num : Nat) {den : Nat} (hden : 0 < den) (m : Nat) :
    |(halfEven num den : ℚ) - num / den| ≤ |(m : ℚ) - num / den| ∧
      (|(m : ℚ) - num / den| = |(halfEven num den : ℚ) - num / den| →
        m = halfEven num den ∨ halfEven num den % 2 = 0) := by
  obtain ⟨hle, heven⟩ := abs_halfEven_sub_le num hden
  generalize halfEven num den = rounded at hle heven ⊢
  rcases eq_or_ne m rounded with rfl | hne
  · exact ⟨le_rfl, fun _ => Or.inl rfl⟩
  -- two different whole numbers are at least one apart
  have hone : (1 : ℚ) ≤ |(m : ℚ) - rounded| := by
    have hint : (1 : ℤ) ≤ |(m : ℤ) - rounded| :=
      Int.one_le_abs (sub_ne_zero.2 (by exact_mod_cast hne))
    exact_mod_cast hint
  have htriangle := abs_sub_le (m : ℚ) (num / den) rounded
  rw [abs_sub_comm ((num : ℚ) / den)] at htriangle
  exact ⟨by linarith, fun h => Or.inr (heven (by linarith))⟩

/-! ## The nearest magnitude -/

theorem nearestOrdinal_eq (num den : Nat) :
    nearestOrdinal num den = ((num / den).log2 - 23) * binade +
      halfEven num (den * 2 ^ ((num / den).log2 - 23)) := rfl

/-- The shift of a rounding leaves a quotient below the top of a binade and, unless nothing is
shifted, not below its bottom. -/
theorem shifted_quotient_bounds (num den : Nat) :
    num / den / 2 ^ ((num / den).log2 - 23) < 2 * binade ∧
      ((num / den).log2 - 23 = 0 ∨ binade ≤ num / den / 2 ^ ((num / den).log2 - 23)) := by
  generalize num / den = quotient
  have htop : quotient < 2 ^ (quotient.log2 + 1) := Nat.lt_log2_self
  constructor
  · rw [Nat.div_lt_iff_lt_mul (Nat.two_pow_pos _)]
    refine lt_of_lt_of_le htop ?_
    rw [binade_eq, ← Nat.pow_succ', ← Nat.pow_add]
    exact Nat.pow_le_pow_right (by decide) (by omega)
  · rcases Nat.eq_zero_or_pos (quotient.log2 - 23) with hzero | hpos
    · exact Or.inl hzero
    · right
      have hne : quotient ≠ 0 := by
        rintro rfl
        simp at hpos
      rw [Nat.le_div_iff_mul_le (Nat.two_pow_pos _), binade_eq, ← Nat.pow_add]
      refine le_trans (Nat.pow_le_pow_right (by decide) ?_) (Nat.log2_self_le hne)
      omega

/-- The magnitude that rounding reaches is the rounded shifted quotient, shifted back. -/
theorem scaled_nearestOrdinal (num den : Nat) :
    scaled (nearestOrdinal num den) =
      halfEven num (den * 2 ^ ((num / den).log2 - 23)) * 2 ^ ((num / den).log2 - 23) := by
  obtain ⟨hlt, hge⟩ := shifted_quotient_bounds num den
  have hround := halfEven_eq_or num (den * 2 ^ ((num / den).log2 - 23))
  rw [← Nat.div_div_eq_div_mul] at hround
  rw [nearestOrdinal_eq]
  exact scaled_binades (by omega) (by omega)

/-- No magnitude is nearer to the quotient than the one that rounding reaches, and another one is
equally near only if that one has an even ordinal. -/
theorem nearestOrdinal_nearest (num : Nat) {den : Nat} (hden : 0 < den) (ordinal : Nat) :
    |(scaled (nearestOrdinal num den) : ℚ) - num / den| ≤ |(scaled ordinal : ℚ) - num / den| ∧
      (|(scaled ordinal : ℚ) - num / den| = |(scaled (nearestOrdinal num den) : ℚ) - num / den| →
        scaled ordinal = scaled (nearestOrdinal num den) ∨ nearestOrdinal num den % 2 = 0) := by
  have hparity : nearestOrdinal num den % 2 =
      halfEven num (den * 2 ^ ((num / den).log2 - 23)) % 2 := by
    simp only [nearestOrdinal_eq, binade]
    omega
  rw [hparity, scaled_nearestOrdinal]
  have hbottom := (shifted_quotient_bounds num den).2
  generalize hshift : (num / den).log2 - 23 = shift at hbottom ⊢
  have hunit : (0 : ℚ) < 2 ^ shift := by positivity
  -- distances on the grid are distances of whole numbers times the unit of the grid
  have hgrid : ∀ m : Nat, |((m * 2 ^ shift : Nat) : ℚ) - num / den| =
      |(m : ℚ) - num / (den * 2 ^ shift : Nat)| * 2 ^ shift := by
    intro m
    have hne : (den : ℚ) ≠ 0 := by exact_mod_cast hden.ne'
    rw [← abs_of_pos hunit, ← abs_mul]
    congr 1
    push_cast
    field_simp
  have hden' : 0 < den * 2 ^ shift := Nat.mul_pos hden (Nat.two_pow_pos shift)
  rcases scaled_multiple_or_lt ordinal shift with ⟨m, hm⟩ | ⟨hpos, hlow⟩
  · -- a competitor on the grid is a competitor among the whole numbers
    obtain ⟨hle, heven⟩ := halfEven_nearest num hden' m
    rw [hm, hgrid, hgrid]
    refine ⟨mul_le_mul_of_nonneg_right hle hunit.le, fun h => ?_⟩
    rcases heven (mul_right_cancel₀ hunit.ne' h) with heq | heq
    · exact Or.inl (by rw [heq])
    · exact Or.inr heq
  · -- below the binade even the bottom of the binade is nearer
    obtain ⟨hle, -⟩ := halfEven_nearest num hden' binade
    have hle' := mul_le_mul_of_nonneg_right hle hunit.le
    rw [← hgrid, ← hgrid] at hle'
    have hquot : ((binade * 2 ^ shift : Nat) : ℚ) ≤ num / den := by
      rw [le_div_iff₀ (by exact_mod_cast hden)]
      have hnat : binade * 2 ^ shift ≤ num / den := by
        rcases hbottom with hzero | hge
        · omega
        · exact (Nat.le_div_iff_mul_le (Nat.two_pow_pos shift)).1 hge
      exact_mod_cast (Nat.le_div_iff_mul_le hden).1 hnat
    have hlow' : (scaled ordinal : ℚ) < (binade * 2 ^ shift : Nat) := by exact_mod_cast hlow
    have hnear : |((binade * 2 ^ shift : Nat) : ℚ) - num / den| <
        |(scaled ordinal : ℚ) - num / den| := by
      rw [abs_of_nonpos (by linarith), abs_of_nonpos (by linarith)]
      linarith
    exact ⟨(hle'.trans_lt hnear).le, fun h => absurd h (hle'.trans_lt hnear).ne'⟩

/-! ## The nearest number -/

theorem unitsPerOne_eq : unitsPerOne = 2 ^ 149 := rfl

theorem unitsPerOne_pos : (0 : ℚ) < unitsPerOne := by
  rw [unitsPerOne_eq]
  positivity

/-- The distance of a number from a target given by a sign and a magnitude in units. -/
theorem abs_value_sub (y : Single) (negative : Bool) {magnitude : ℚ} (h : 0 ≤ magnitude) :
    |y.value - signFactor negative * (magnitude / unitsPerOne)| =
      (if y.negative = negative then |(scaled y.ordinal : ℚ) - magnitude|
        else scaled y.ordinal + magnitude) / unitsPerOne := by
  have hunits := unitsPerOne_pos
  have hy : (0 : ℚ) ≤ scaled y.ordinal := Nat.cast_nonneg _
  rw [value, signFactor, signFactor]
  generalize y.negative = sign
  have hsame : |(scaled y.ordinal : ℚ) / unitsPerOne - magnitude / unitsPerOne| =
      |(scaled y.ordinal : ℚ) - magnitude| / unitsPerOne := by
    rw [← sub_div, abs_div, abs_of_pos hunits]
  have hopposite : |(scaled y.ordinal : ℚ) / unitsPerOne + magnitude / unitsPerOne| =
      (scaled y.ordinal + magnitude) / unitsPerOne := by
    rw [← add_div, abs_of_nonneg (by positivity)]
  cases sign <;> cases negative
  · simpa using hsame
  · simpa using hopposite
  · rw [← abs_neg] at hopposite
    simpa [add_comm, sub_eq_add_neg] using hopposite
  · rw [← abs_neg] at hsame
    simpa [add_comm, sub_eq_add_neg] using hsame

/-- Rounding a quotient with a sign reaches its nearest number, if the result is finite. -/
theorem isNearest_nearest (negative : Bool) (num : Nat) {den : Nat} (hden : 0 < den)
    (hfinite : nearestOrdinal num den < infinityOrdinal) :
    IsNearest (nearest negative num den) (signFactor negative * ((num / den : ℚ) / unitsPerOne)) := by
  have hunits := unitsPerOne_pos
  have htarget : (0 : ℚ) ≤ (num : ℚ) / den := by positivity
  have hordinal : (nearest negative num den).ordinal = nearestOrdinal num den :=
    Nat.min_eq_left hfinite.le
  have hself : |(nearest negative num den).value - signFactor negative * ((num / den : ℚ) / unitsPerOne)|
      = |(scaled (nearestOrdinal num den) : ℚ) - num / den| / unitsPerOne := by
    rw [abs_value_sub _ _ htarget, hordinal]
    exact congrArg (· / _) (if_pos rfl)
  -- a number of the other sign is as far as the sum of both magnitudes
  have hfar : ∀ y : Single, |(scaled y.ordinal : ℚ) - num / den| ≤ scaled y.ordinal + num / den := by
    intro y
    have hy : (0 : ℚ) ≤ scaled y.ordinal := Nat.cast_nonneg _
    rw [abs_le]
    exact ⟨by linarith, by linarith⟩
  refine ⟨decide_eq_true (by rw [hordinal]; exact hfinite), ?_, ?_⟩
  · intro y _
    rw [hself, abs_value_sub y _ htarget]
    refine div_le_div_of_nonneg_right ?_ hunits.le
    obtain ⟨hle, -⟩ := nearestOrdinal_nearest num hden y.ordinal
    split
    · exact hle
    · exact hle.trans (hfar y)
  · intro y _ heq
    rw [hself, abs_value_sub y _ htarget, div_left_inj' hunits.ne'] at heq
    rw [hordinal]
    obtain ⟨hle, heven⟩ := nearestOrdinal_nearest num hden y.ordinal
    split at heq
    · rename_i hsign
      refine (heven heq).imp_left fun hscaled => ?_
      rw [value, value, hordinal, hscaled, hsign]
      rfl
    · have htie : |(scaled y.ordinal : ℚ) - num / den| =
          |(scaled (nearestOrdinal num den) : ℚ) - num / den| :=
        le_antisymm ((hfar y).trans_eq heq) hle
      refine (heven htie).imp_left fun hscaled => ?_
      -- numbers of opposite signs are equally near only when both are zero
      obtain ⟨hzero, -⟩ := nearestOrdinal_nearest num hden 0
      have hscaledZero : scaled 0 = 0 := rfl
      rw [← heq, hscaledZero, Nat.cast_zero, zero_sub, abs_neg, abs_of_nonneg htarget] at hzero
      have hvanish : (scaled y.ordinal : ℚ) = 0 :=
        le_antisymm (by linarith) (Nat.cast_nonneg _)
      rw [value, value, hordinal, ← hscaled, hvanish]
      simp

end DynamicPatching.Single

import DynamicPatching.Single.Decimal
import DynamicPatching.Proofs.Single.Nearest
import Mathlib.Order.Monotone.Basic

/-!
# The interval of a magnitude

Magnitudes increase with their ordinals (`scaled_strictMono`), so the points that round to a
magnitude fill the interval between the midpoints to its two neighbours. A point that the writer
accepts (`rounds`) is nearer to its magnitude than to any other, or as near and even, and rounding
reaches no other ordinal (`nearestOrdinal_eq_iff_rounds`).

The interval of a magnitude above zero is wider than a step of the finest grid. So the search for a
decimal ends with a point of the interval (`rounds_shortestFrom`), and since the interval has no
gaps, no coarser grid that was searched has any (`le_shortestFrom`).
-/

namespace DynamicPatching.Single

/-! ## Increasing magnitudes -/

/-- The next magnitude is a power of two away. -/
theorem exists_scaled_succ (ordinal : Nat) :
    ∃ shift, scaled (ordinal + 1) = scaled ordinal + 2 ^ shift := by
  rcases Nat.lt_or_ge ordinal binade with hsmall | hlarge
  · have hnext := @scaled_binades 0 (ordinal + 1) (by omega) (Or.inl rfl)
    refine ⟨0, ?_⟩
    rw [Nat.zero_mul, Nat.zero_add] at hnext
    rw [hnext, scaled_of_lt hsmall, Nat.pow_zero, Nat.mul_one]
  · -- the significand grows by one, and at the top of the binade carries into the next
    have hsplit : (ordinal / binade - 1) * binade + (binade + ordinal % binade) = ordinal := by
      simp only [binade] at hlarge ⊢
      omega
    have hmod : ordinal % binade < binade := Nat.mod_lt _ (by decide)
    have hnext := @scaled_binades (ordinal / binade - 1) (binade + ordinal % binade + 1)
      (by omega) (Or.inr (by omega))
    rw [← Nat.add_assoc, hsplit] at hnext
    refine ⟨ordinal / binade - 1, ?_⟩
    rw [hnext, scaled_of_le hlarge, Nat.add_mul _ 1, Nat.one_mul]

theorem scaled_lt_succ (ordinal : Nat) : scaled ordinal < scaled (ordinal + 1) := by
  obtain ⟨shift, hnext⟩ := exists_scaled_succ ordinal
  have hpos := Nat.two_pow_pos shift
  omega

theorem scaled_strictMono : StrictMono scaled := strictMono_nat_of_lt_succ scaled_lt_succ

/-! ## Points of the interval -/

theorem fineValue_eq (ordinal : Nat) :
    fineValue ordinal = 2 * scaled ordinal * 10 ^ decimalPlaces := rfl

theorem fineMidpoint_eq (ordinal : Nat) :
    fineMidpoint ordinal = (scaled ordinal + scaled (ordinal + 1)) * 10 ^ decimalPlaces := rfl

theorem gridStep_eq (grid : Nat) : gridStep grid = 10 ^ grid * 2 ^ 150 := rfl

/-- A point rounds to a magnitude when it lies between the midpoints to the neighbours; the midpoints
themselves round to it when its ordinal is even. -/
theorem rounds_iff {ordinal point : Nat} :
    rounds ordinal point = true ↔
      fineMidpoint (ordinal - 1) ≤ point ∧ point ≤ fineMidpoint ordinal ∧
        (point = fineMidpoint (ordinal - 1) ∨ point = fineMidpoint ordinal → ordinal % 2 = 0) := by
  rw [rounds]
  split
  · rename_i heven
    simp only [Bool.and_eq_true, decide_eq_true_eq]
    exact ⟨fun h => ⟨h.1, h.2, fun _ => heven⟩, fun h => ⟨h.1, h.2.1⟩⟩
  · rename_i hodd
    simp only [Bool.and_eq_true, decide_eq_true_eq]
    constructor
    · rintro ⟨hlow, hhigh⟩
      exact ⟨hlow.le, hhigh.le, by omega⟩
    · rintro ⟨hlow, hhigh, htie⟩
      omega

/-- What lies between two points of the interval is in the interval. -/
theorem rounds_of_between {ordinal low point high : Nat} (hlow : rounds ordinal low = true)
    (hhigh : rounds ordinal high = true) (hle : low ≤ point) (hge : point ≤ high) :
    rounds ordinal point = true := by
  rw [rounds_iff] at hlow hhigh ⊢
  omega

/-- A magnitude above zero lies strictly inside its interval, and each end is at least half a
unit away. -/
theorem fineValue_between {ordinal : Nat} (h : ordinal ≠ 0) :
    fineMidpoint (ordinal - 1) + 10 ^ decimalPlaces ≤ fineValue ordinal ∧
      fineValue ordinal + 10 ^ decimalPlaces ≤ fineMidpoint ordinal := by
  have hbelow := scaled_lt_succ (ordinal - 1)
  have habove := scaled_lt_succ ordinal
  rw [Nat.sub_add_cancel (Nat.pos_of_ne_zero h)] at hbelow
  simp only [fineMidpoint_eq, fineValue_eq, Nat.sub_add_cancel (Nat.pos_of_ne_zero h)]
  rw [← Nat.succ_mul, ← Nat.succ_mul]
  exact ⟨Nat.mul_le_mul_right _ (by omega), Nat.mul_le_mul_right _ (by omega)⟩

theorem rounds_fineValue {ordinal : Nat} (h : ordinal ≠ 0) :
    rounds ordinal (fineValue ordinal) = true := by
  obtain ⟨hlow, hhigh⟩ := fineValue_between h
  have hpos : 0 < 10 ^ decimalPlaces := by decide
  rw [rounds_iff]
  omega

/-! ## Rounding a point -/

/-- A competitor on the far side of the midpoint can only be as near as the other when the target is
the midpoint. -/
theorem eq_midpoint_of_nearer {value other target : ℚ} (h : |other - target| ≤ |value - target|)
    (hside : other < value ∧ other + value ≤ 2 * target ∨
      value < other ∧ 2 * target ≤ other + value) :
    other + value = 2 * target ∧ |value - target| = |other - target| := by
  rcases hside with ⟨hlt, hmid⟩ | ⟨hlt, hmid⟩
  · rw [abs_of_nonpos (by linarith : other - target ≤ 0)] at h ⊢
    rcases le_total target value with hle | hle
    · rw [abs_of_nonneg (by linarith)] at h ⊢
      exact ⟨by linarith, by linarith⟩
    · rw [abs_of_nonpos (by linarith)] at h
      linarith
  · rw [abs_of_nonneg (by linarith : 0 ≤ other - target)] at h ⊢
    rcases le_total value target with hle | hle
    · rw [abs_of_nonpos (by linarith)] at h ⊢
      exact ⟨by linarith, by linarith⟩
    · rw [abs_of_nonneg (by linarith)] at h
      linarith

/-- A point rounds to a magnitude, told by its quotient in units: it lies between the midpoints to the
neighbours, and at one of them only if the ordinal is even. -/
theorem rounds_iff_between {ordinal point num den : Nat} (hordinal : ordinal ≠ 0) (hden : 0 < den)
    (hpoint : num * (2 * 10 ^ decimalPlaces) = point * den) :
    rounds ordinal point = true ↔
      (scaled (ordinal - 1) + scaled ordinal : ℚ) ≤ 2 * (num / den) ∧
        (2 * (num / den) : ℚ) ≤ scaled ordinal + scaled (ordinal + 1) ∧
        ((scaled (ordinal - 1) + scaled ordinal : ℚ) = 2 * (num / den) ∨
          (scaled ordinal + scaled (ordinal + 1) : ℚ) = 2 * (num / den) → ordinal % 2 = 0) := by
  have hunit : (0 : ℚ) < 10 ^ decimalPlaces := by positivity
  have hden' : (den : ℚ) ≠ 0 := by exact_mod_cast hden.ne'
  -- both sides of each comparison are scaled to the fine unit of the writer
  have hscaled : (2 * (num / den) : ℚ) * 10 ^ decimalPlaces = point := by
    have hcast : (num : ℚ) * (2 * 10 ^ decimalPlaces) = point * den := by exact_mod_cast hpoint
    field_simp
    linarith
  have hmidpoint : ∀ k, ((fineMidpoint k : Nat) : ℚ) =
      (scaled k + scaled (k + 1)) * 10 ^ decimalPlaces := by
    intro k
    simp [fineMidpoint_eq]
  have hlow := hmidpoint (ordinal - 1)
  rw [Nat.sub_add_cancel (Nat.pos_of_ne_zero hordinal)] at hlow
  have hhigh := hmidpoint ordinal
  generalize (2 * (num / den) : ℚ) = twice at hscaled ⊢
  rw [rounds_iff, ← mul_le_mul_iff_of_pos_right hunit, ← mul_left_inj' hunit.ne',
    ← mul_le_mul_iff_of_pos_right (b := twice) hunit,
    ← mul_left_inj' (a := (scaled ordinal + scaled (ordinal + 1) : ℚ)) hunit.ne', hscaled, ← hlow,
    ← hhigh]
  norm_cast
  rw [@eq_comm _ point, @eq_comm _ point]

/-- **Rounding reaches a magnitude exactly from the points of its interval.** -/
theorem nearestOrdinal_eq_iff_rounds {ordinal point num den : Nat} (hordinal : ordinal ≠ 0)
    (hden : 0 < den) (hpoint : num * (2 * 10 ^ decimalPlaces) = point * den) :
    nearestOrdinal num den = ordinal ↔ rounds ordinal point = true := by
  rw [rounds_iff_between hordinal hden hpoint]
  have hbelow : (scaled (ordinal - 1) : ℚ) < scaled ordinal := by
    exact_mod_cast scaled_strictMono (by omega)
  have habove : (scaled ordinal : ℚ) < scaled (ordinal + 1) := by
    exact_mod_cast scaled_lt_succ ordinal
  constructor
  · rintro rfl
    -- neither neighbour is nearer, and one that is equally near makes the ordinal even
    obtain ⟨hnearLow, hevenLow⟩ := nearestOrdinal_nearest num hden (nearestOrdinal num den - 1)
    obtain ⟨hnearHigh, hevenHigh⟩ := nearestOrdinal_nearest num hden (nearestOrdinal num den + 1)
    refine ⟨?_, ?_, ?_⟩
    · by_contra hfar
      obtain ⟨hmid, -⟩ := eq_midpoint_of_nearer hnearLow (Or.inr ⟨hbelow, by linarith⟩)
      linarith
    · by_contra hfar
      obtain ⟨hmid, -⟩ := eq_midpoint_of_nearer hnearHigh (Or.inl ⟨habove, by linarith⟩)
      linarith
    · rintro (hmid | hmid)
      · obtain ⟨-, hequal⟩ := eq_midpoint_of_nearer hnearLow (Or.inr ⟨hbelow, by linarith⟩)
        exact (hevenLow hequal).resolve_left fun hsame => hbelow.ne (by exact_mod_cast hsame)
      · obtain ⟨-, hequal⟩ := eq_midpoint_of_nearer hnearHigh (Or.inl ⟨habove, by linarith⟩)
        exact (hevenHigh hequal).resolve_left fun hsame => habove.ne' (by exact_mod_cast hsame)
  · rintro ⟨hlow, hhigh, htie⟩
    obtain ⟨hnear, heven⟩ := nearestOrdinal_nearest num hden ordinal
    -- an ordinal on either side is no nearer, so at best it ties, and then both would be even
    rcases Nat.lt_trichotomy (nearestOrdinal num den) ordinal with hlt | heq | hgt
    · have hother : (scaled (nearestOrdinal num den) : ℚ) ≤ scaled (ordinal - 1) := by
        exact_mod_cast scaled_strictMono.monotone (by omega)
      obtain ⟨hmid, hequal⟩ := eq_midpoint_of_nearer hnear (Or.inl ⟨by linarith, by linarith⟩)
      have hneighbour : (scaled (nearestOrdinal num den) : ℚ) = scaled (ordinal - 1) := by linarith
      have hpred := scaled_strictMono.injective (by exact_mod_cast hneighbour)
      have hparity := htie (Or.inl (by linarith))
      rcases heven hequal with hsame | hsame
      · exact absurd (scaled_strictMono.injective hsame) hlt.ne'
      · omega
    · exact heq
    · have hother : (scaled (ordinal + 1) : ℚ) ≤ scaled (nearestOrdinal num den) := by
        exact_mod_cast scaled_strictMono.monotone (by omega)
      obtain ⟨hmid, hequal⟩ := eq_midpoint_of_nearer hnear (Or.inr ⟨by linarith, by linarith⟩)
      have hneighbour : (scaled (nearestOrdinal num den) : ℚ) = scaled (ordinal + 1) := by linarith
      have hsucc := scaled_strictMono.injective (by exact_mod_cast hneighbour)
      have hparity := htie (Or.inr (by linarith))
      rcases heven hequal with hsame | hsame
      · exact absurd (scaled_strictMono.injective hsame) hgt.ne
      · omega

/-! ## The search -/

theorem rounds_of_gridPoint? {ordinal grid point : Nat} (h : gridPoint? ordinal grid = some point) :
    rounds ordinal (point * gridStep grid) = true := by
  simp only [gridPoint?] at h
  split at h
  · rename_i hbelow habove
    obtain rfl := Option.some.inj h
    split
    · exact hbelow
    · exact habove
  · rename_i hbelow _
    obtain rfl := Option.some.inj h
    exact hbelow
  · rename_i _ habove
    obtain rfl := Option.some.inj h
    exact habove
  · cases h

theorem gridStep_pos (grid : Nat) : 0 < gridStep grid := by
  rw [gridStep_eq]
  positivity

/-- A grid without an accepted point has no point in the interval: the interval has no gaps, so the
point would drag one of the two around the magnitude into it. -/
theorem gridPoint?_ne_none {ordinal grid point : Nat} (hordinal : ordinal ≠ 0)
    (h : rounds ordinal (point * gridStep grid) = true) : gridPoint? ordinal grid ≠ none := by
  have hvalue := rounds_fineValue hordinal
  have hstep := gridStep_pos grid
  have hbelow : fineValue ordinal / gridStep grid * gridStep grid ≤ fineValue ordinal :=
    Nat.div_mul_le_self _ _
  have habove : fineValue ordinal < (fineValue ordinal / gridStep grid + 1) * gridStep grid := by
    rw [Nat.mul_comm]
    exact Nat.lt_mul_div_succ _ hstep
  -- the given point lies on one side of the magnitude, and the neighbour on that side lies between
  have hone : rounds ordinal (fineValue ordinal / gridStep grid * gridStep grid) = true ∨
      rounds ordinal ((fineValue ordinal / gridStep grid + 1) * gridStep grid) = true := by
    rcases Nat.lt_or_ge (fineValue ordinal / gridStep grid) point with hlt | hge
    · exact Or.inr (rounds_of_between hvalue h habove.le (Nat.mul_le_mul_right _ hlt))
    · exact Or.inl (rounds_of_between h hvalue (Nat.mul_le_mul_right _ hge) hbelow)
  simp only [gridPoint?]
  split
  · simp
  · simp
  · simp
  · rename_i hbelow' habove'
    rw [hbelow', habove'] at hone
    simp at hone

/-- The interval is wider than a step of the finest grid. -/
theorem gridPoint?_zero_ne_none {ordinal : Nat} (hordinal : ordinal ≠ 0) :
    gridPoint? ordinal 0 ≠ none := by
  obtain ⟨hlow, hhigh⟩ := fineValue_between hordinal
  have hwide : gridStep 0 < 2 * 10 ^ decimalPlaces := by decide
  have hstep := gridStep_pos 0
  have hmod : fineValue ordinal % gridStep 0 < gridStep 0 := Nat.mod_lt _ hstep
  have hdiv := Nat.div_add_mod' (fineValue ordinal) (gridStep 0)
  -- the multiple below the magnitude is in the interval, or the next one is
  rcases Nat.lt_or_ge (fineMidpoint (ordinal - 1))
    (fineValue ordinal / gridStep 0 * gridStep 0) with hin | hout
  · apply @gridPoint?_ne_none _ _ (fineValue ordinal / gridStep 0) hordinal
    rw [rounds_iff]
    omega
  · apply @gridPoint?_ne_none _ _ (fineValue ordinal / gridStep 0 + 1) hordinal
    rw [rounds_iff, Nat.add_mul, Nat.one_mul]
    omega

/-- The search ends with a point that rounds to the magnitude. -/
theorem rounds_shortestFrom {ordinal : Nat} (hordinal : ordinal ≠ 0) (grid : Nat) :
    rounds ordinal ((shortestFrom ordinal grid).1 * gridStep (shortestFrom ordinal grid).2) =
      true := by
  induction grid with
  | zero =>
      obtain ⟨point, hpoint⟩ := Option.ne_none_iff_exists'.1 (gridPoint?_zero_ne_none hordinal)
      simp only [shortestFrom, hpoint, Option.getD_some]
      exact rounds_of_gridPoint? hpoint
  | succ grid ih =>
      rw [shortestFrom]
      split
      · rename_i point hpoint
        exact rounds_of_gridPoint? hpoint
      · exact ih

/-- Of the grids that are searched none coarser than the chosen one has a point that rounds to the
magnitude. -/
theorem le_shortestFrom {ordinal : Nat} (hordinal : ordinal ≠ 0) {point grid coarsest : Nat}
    (hgrid : grid ≤ coarsest) (h : rounds ordinal (point * gridStep grid) = true) :
    grid ≤ (shortestFrom ordinal coarsest).2 := by
  induction coarsest with
  | zero => exact hgrid
  | succ coarsest ih =>
      rw [shortestFrom]
      split
      · exact hgrid
      · rename_i hnone
        rcases Nat.eq_or_lt_of_le hgrid with rfl | hlt
        · exact absurd hnone (gridPoint?_ne_none hordinal h)
        · exact ih (by omega)

/-- A point of the interval of a finite magnitude is on no grid that is too coarse to be searched. -/
theorem le_coarsestGrid {ordinal point grid : Nat} (hfinite : ordinal < infinityOrdinal)
    (h : rounds ordinal (point * gridStep grid) = true) : grid ≤ coarsestGrid := by
  obtain ⟨hlow, hhigh, -⟩ := rounds_iff.1 h
  have hunit : 0 < 10 ^ decimalPlaces := by decide
  have hpoint : point ≠ 0 := by
    rintro rfl
    have habove : scaled (ordinal - 1) < scaled (ordinal - 1 + 1) := scaled_lt_succ (ordinal - 1)
    have hmidpoint : 0 < fineMidpoint (ordinal - 1) := Nat.mul_pos (by omega) hunit
    omega
  by_contra hcoarse
  have hstep : gridStep (coarsestGrid + 1) ≤ gridStep grid :=
    Nat.mul_le_mul_right _ (Nat.pow_le_pow_right (by decide) (by omega))
  have hone : gridStep grid ≤ point * gridStep grid :=
    Nat.le_mul_of_pos_left _ (Nat.pos_of_ne_zero hpoint)
  -- even the midpoint between the largest magnitude and infinity is below the first such grid
  have hlargest : fineMidpoint ordinal ≤ 2 * scaled infinityOrdinal * 10 ^ decimalPlaces := by
    have hthis : scaled ordinal ≤ scaled infinityOrdinal :=
      scaled_strictMono.monotone hfinite.le
    have hnext : scaled (ordinal + 1) ≤ scaled infinityOrdinal :=
      scaled_strictMono.monotone hfinite
    exact Nat.mul_le_mul_right _ (by omega)
  have hbound : 2 * scaled infinityOrdinal * 10 ^ decimalPlaces < gridStep (coarsestGrid + 1) := by
    decide
  omega

end DynamicPatching.Single

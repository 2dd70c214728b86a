import DynamicPatching.Proofs.Single.Overflow
import DynamicPatching.Proofs.Single.Pattern

/-!
# What a token denotes

A literal stands for an exact rational (`Literal.value`). A token denotes a number exactly when it
matches the pattern of literals and its value lies below the overflow, and then the number is the one
nearest to that value among the numbers with the sign of the literal (`Text.number?_denotes`).
-/

namespace DynamicPatching

open Single (signFactor overflow)

namespace Literal

/-! ## Values of literals -/

/-- The rational that a literal stands for. -/
def value (literal : Literal) : ℚ :=
  signFactor literal.negative *
    ((Text.digitsValue literal.whole +
      Text.digitsValue literal.fraction / 10 ^ literal.fraction.length) * 10 ^ literal.exponent)

/-- The digits of a literal read as one number and scaled are its value without the sign. -/
theorem digits_mul_scale (literal : Literal) :
    (literal.digits * 10 ^ literal.scale : ℚ) =
      (Text.digitsValue literal.whole +
        Text.digitsValue literal.fraction / 10 ^ literal.fraction.length) * 10 ^ literal.exponent := by
  have hten : (10 : ℚ) ≠ 0 := by norm_num
  rw [digits, Text.digitsValue_append, scale, zpow_sub₀ hten, zpow_natCast]
  push_cast
  field_simp

theorem value_eq (literal : Literal) :
    literal.value = signFactor literal.negative * (literal.digits * 10 ^ literal.scale) := by
  rw [value, digits_mul_scale]

theorem abs_signFactor (negative : Bool) : |signFactor negative| = 1 := by
  cases negative <;> simp [signFactor]

theorem abs_value (literal : Literal) : |literal.value| = literal.digits * 10 ^ literal.scale := by
  rw [value_eq, abs_mul, abs_signFactor, one_mul]
  exact abs_of_nonneg (mul_nonneg (Nat.cast_nonneg _) (zpow_nonneg (by norm_num) _))

/-- Digits alone stand for their value. -/
theorem value_whole (digits : Text) : value ⟨false, digits, [], 0⟩ = Text.digitsValue digits := by
  rw [value_eq]
  simp [signFactor, Literal.digits, scale]

variable {literal : Literal}

/-- A literal is rounded to a finite number exactly when its value is below the overflow. -/
theorem isFinite_nearest_iff : literal.nearest.isFinite = true ↔ |literal.value| < overflow := by
  rw [abs_value]
  exact Single.isFinite_ofDecimal_iff _ _ _

/-- A literal below the overflow is rounded to the number nearest to its value. -/
theorem isNearest_nearest (h : |literal.value| < overflow) :
    literal.nearest.IsNearest literal.value := by
  rw [abs_value] at h
  rw [value_eq]
  exact Single.isNearest_ofDecimal h

end Literal

/-! ## Tokens that denote numbers -/

namespace Text

open Literal (Written)

variable {token : Text} {literal : Literal}

/-- What is written as a literal denotes its nearest number if that number is finite. -/
theorem number?_of_written (h : Written token literal) :
    number? token = if |literal.value| < overflow then some literal.nearest else none := by
  rw [number?, Literal.read?_of_written h, Option.map_some, Option.filter_some]
  simp only [Literal.isFinite_nearest_iff]

theorem number?_of_not_written (h : ∀ literal, ¬ Written token literal) : number? token = none := by
  have hread : Literal.read? token = none :=
    Option.eq_none_iff_forall_ne_some.2 fun literal hliteral =>
      h literal (Literal.read?_eq_some_iff.1 hliteral)
  rw [number?, hread]
  rfl

/-- Below the overflow a literal denotes the nearest number of its sign and no other one, and from there
on it denotes none. -/
theorem number?_eq_some_iff (h : Written token literal) {x : Single} :
    number? token = some x ↔
      |literal.value| < overflow ∧ x.IsNearest literal.value ∧ x.negative = literal.negative := by
  rw [number?_of_written h]
  constructor
  · intro hx
    split at hx
    · rename_i hfinite
      obtain rfl := Option.some.inj hx
      exact ⟨hfinite, Literal.isNearest_nearest hfinite, rfl⟩
    · cases hx
  · rintro ⟨hfinite, hnearest, hsign⟩
    -- the sign tells the two zeros apart, which are equally near
    rw [if_pos hfinite, hnearest.unique (Literal.isNearest_nearest hfinite) hsign]

theorem exists_number?_iff :
    (∃ x, number? token = some x) ↔
      token ∈ Literal.pattern.matches' ∧
        ∀ literal, Written token literal → |literal.value| < overflow := by
  rw [Literal.mem_pattern_iff]
  constructor
  · rintro ⟨x, hx⟩
    by_cases hwritten : ∃ literal, Written token literal
    · exact ⟨hwritten, fun literal h => ((number?_eq_some_iff h).1 hx).1⟩
    · rw [number?_of_not_written (not_exists.1 hwritten)] at hx
      cases hx
  · rintro ⟨⟨literal, h⟩, hfinite⟩
    exact ⟨literal.nearest, by rw [number?_of_written h, if_pos (hfinite literal h)]⟩

/-- **A token denotes the number nearest to the value that is written.** It denotes a number exactly
when it matches the pattern of literals and its value is below the overflow. A token is written as one
literal at most, and the number is the one nearest to its value, on a tie the even one, with the sign of
the literal also on zero. A token with a character of any other kind denotes none. -/
theorem number?_denotes (token : Text) :
    (token ∈ Literal.pattern.matches' ↔ ∃ literal, Written token literal) ∧
    (∀ literal literal', Written token literal → Written token literal' → literal = literal') ∧
    ((∃ x, number? token = some x) ↔
      token ∈ Literal.pattern.matches' ∧
        ∀ literal, Written token literal → |literal.value| < 2 ^ 128 - 2 ^ 103) ∧
    (∀ literal x, Written token literal →
      (number? token = some x ↔ |literal.value| < 2 ^ 128 - 2 ^ 103 ∧
        x.IsNearest literal.value ∧ x.negative = literal.negative)) ∧
    ((∃ c ∈ token, ¬ Literal.IsMark c) → number? token = none) := by
  refine ⟨Literal.mem_pattern_iff, fun literal literal' h h' => ?_, exists_number?_iff,
    fun literal x h => number?_eq_some_iff h, ?_⟩
  · exact Option.some.inj ((Literal.read?_of_written h).symm.trans (Literal.read?_of_written h'))
  · rintro ⟨c, hc, hmark⟩
    exact number?_of_not_written fun literal h => hmark (Literal.isMark_of_written h c hc)

/-- A zero with a sign, both sides of the overflow, and a hexadecimal numeral. -/
theorem number?_denotes_edges :
    (∃ x : Single, number? "-1e-60".toList = some x ∧ x.ordinal = 0 ∧ x.negative = true ∧
      x.IsNearest (-(1 / 10 ^ 60))) ∧
    (∃ x, number? "340282356779733661637539395458142568447".toList = some x) ∧
    number? "340282356779733661637539395458142568448".toList = none ∧
    number? "0x10".toList = none := by
  have hdigits : ∀ digits, isDigits (dropPlus digits) = true → dropPlus digits = digits →
      Written digits ⟨false, digits, [], 0⟩ := by
    intro digits h hplus
    have hread := Literal.read?_of_isDigits h
    rw [hplus] at hread
    exact Literal.read?_eq_some_iff.1 hread
  refine ⟨?_, ?_, ?_, ?_⟩
  · have hwritten : Written "-1e-60".toList ⟨true, "1".toList, [], -60⟩ :=
      Literal.read?_eq_some_iff.1 (by decide)
    have hzero : number? "-1e-60".toList = some ⟨true, 0, by decide⟩ := by decide +kernel
    have hvalue : Literal.value ⟨true, "1".toList, [], -60⟩ = -(1 / 10 ^ 60) := by
      have hone : digitsValue "1".toList = 1 := by decide
      have hnone : digitsValue [] = 0 := rfl
      norm_num [Literal.value, signFactor, hone, hnone]
    obtain ⟨-, -, -, hnumber, -⟩ := number?_denotes "-1e-60".toList
    obtain ⟨-, hnearest, hsign⟩ := (hnumber _ _ hwritten).1 hzero
    rw [hvalue] at hnearest
    exact ⟨_, hzero, rfl, hsign, hnearest⟩
  · have hwritten := hdigits "340282356779733661637539395458142568447".toList (by decide) (by decide)
    obtain ⟨-, hunique, hsome, -⟩ := number?_denotes "340282356779733661637539395458142568447".toList
    refine hsome.2 ⟨Literal.mem_pattern_iff.2 ⟨_, hwritten⟩, fun literal h => ?_⟩
    have hvalue : digitsValue "340282356779733661637539395458142568447".toList =
        340282356779733661637539395458142568447 := by decide
    obtain rfl := hunique _ _ hwritten h
    rw [Literal.value_whole, hvalue]
    norm_num
  · have hwritten := hdigits "340282356779733661637539395458142568448".toList (by decide) (by decide)
    obtain ⟨-, -, hsome, -⟩ := number?_denotes "340282356779733661637539395458142568448".toList
    refine Option.eq_none_iff_forall_ne_some.2 fun x hx => ?_
    have hvalue : digitsValue "340282356779733661637539395458142568448".toList =
        340282356779733661637539395458142568448 := by decide
    have hsmall := (hsome.1 ⟨x, hx⟩).2 _ hwritten
    rw [Literal.value_whole, hvalue] at hsmall
    norm_num at hsmall
  · obtain ⟨-, -, -, -, hmarks⟩ := number?_denotes "0x10".toList
    exact hmarks ⟨'x', by decide, by decide⟩

end Text

end DynamicPatching

import DynamicPatching.Proofs.Single.Grammar
import Mathlib.Computability.RegularExpressions

/-!
# The pattern of decimal literals

The texts of literals are a regular language: an optional sign, then digits with perhaps a point behind
or among them or a point with digits behind it, then an optional exponent (`pattern`). A text matches
the pattern exactly when it is written as a literal (`mem_pattern_iff`), and then it consists of digits,
signs, points and the marks of exponents (`isMark_of_written`).
-/

namespace DynamicPatching.Literal

variable {text : Text} {literal : Literal}

/-! ## The pattern -/

/-- One of the characters. -/
def oneOf (chars : Text) : RegularExpression Char := (chars.map RegularExpression.char).sum

/-- The expression or nothing. -/
def optional (expression : RegularExpression Char) : RegularExpression Char := 1 + expression

/-- A decimal digit. -/
def digitPattern : RegularExpression Char := oneOf "0123456789".toList

/-- At least one digit. -/
def digitsPattern : RegularExpression Char := digitPattern * digitPattern.star

/-- A sign or nothing. -/
def signPattern : RegularExpression Char := optional (oneOf "+-".toList)

/-- Digits with perhaps a point and more digits behind them, or a point and digits. -/
def pointedPattern : RegularExpression Char :=
  digitsPattern * optional (oneOf ".".toList * digitPattern.star) + oneOf ".".toList * digitsPattern

/-- A mark with an optional sign and digits, or nothing. -/
def exponentPattern : RegularExpression Char :=
  optional (oneOf "eE".toList * (signPattern * digitsPattern))

/-- The regular expression of decimal literals. -/
def pattern : RegularExpression Char := signPattern * (pointedPattern * exponentPattern)

/-! ## What the parts match -/

theorem mem_oneOf_iff {chars : Text} : text ∈ (oneOf chars).matches' ↔ ∃ c ∈ chars, text = [c] := by
  induction chars with
  | nil => simp [oneOf]
  | cons c rest ih =>
      have hsum : oneOf (c :: rest) = .char c + oneOf rest := rfl
      rw [hsum, RegularExpression.matches'_add, RegularExpression.matches'_char, Language.mem_add, ih,
        List.exists_mem_cons_iff]
      rfl

theorem mem_optional_iff {expression : RegularExpression Char} :
    text ∈ (optional expression).matches' ↔ text = [] ∨ text ∈ expression.matches' := by
  rw [optional, RegularExpression.matches'_add, RegularExpression.matches'_epsilon, Language.mem_add,
    Language.mem_one]

theorem mem_mul_iff {first second : RegularExpression Char} :
    text ∈ (first * second).matches' ↔
      ∃ left ∈ first.matches', ∃ right ∈ second.matches', left ++ right = text := by
  rw [RegularExpression.matches'_mul, Language.mem_mul]

theorem mem_add_iff {first second : RegularExpression Char} :
    text ∈ (first + second).matches' ↔ text ∈ first.matches' ∨ text ∈ second.matches' := by
  rw [RegularExpression.matches'_add, Language.mem_add]

theorem isDigit_iff_mem {c : Char} : c.isDigit = true ↔ c ∈ "0123456789".toList := by
  constructor
  · intro h
    obtain ⟨hlow, hhigh⟩ : 48 ≤ c.toNat ∧ c.toNat ≤ 57 := by
      simpa [Char.isDigit, UInt32.le_iff_toNat_le] using h
    -- a digit is known by its code point, and there are only ten to look at
    have hall : ∀ n ∈ List.range' 48 10, Char.ofNat n ∈ "0123456789".toList := by decide
    rw [← Char.ofNat_toNat c]
    exact hall _ (List.mem_range'_1.2 ⟨hlow, by omega⟩)
  · have hall : "0123456789".toList.all Char.isDigit = true := by decide
    exact List.all_eq_true.1 hall c

theorem mem_digitPattern_iff : text ∈ digitPattern.matches' ↔ ∃ c, c.isDigit = true ∧ text = [c] := by
  simp only [digitPattern, mem_oneOf_iff, isDigit_iff_mem]

theorem mem_star_iff : text ∈ digitPattern.star.matches' ↔ ∀ c ∈ text, c.isDigit = true := by
  rw [RegularExpression.matches'_star, Language.mem_kstar]
  constructor
  · rintro ⟨parts, rfl, hparts⟩ c hc
    obtain ⟨part, hpart, hc⟩ := List.mem_flatten.1 hc
    obtain ⟨digit, hdigit, rfl⟩ := mem_digitPattern_iff.1 (hparts part hpart)
    rwa [List.mem_singleton.1 hc]
  · intro h
    -- every digit is a part of its own
    refine ⟨text.map fun c => [c], by rw [← List.flatMap_def, List.flatMap_singleton'], ?_⟩
    intro part hpart
    obtain ⟨c, hc, rfl⟩ := List.mem_map.1 hpart
    exact mem_digitPattern_iff.2 ⟨c, h c hc, rfl⟩

theorem mem_digitsPattern_iff : text ∈ digitsPattern.matches' ↔ Text.isDigits text = true := by
  rw [digitsPattern, mem_mul_iff, Text.isDigits_iff]
  constructor
  · rintro ⟨first, hfirst, rest, hrest, rfl⟩
    obtain ⟨c, hc, rfl⟩ := mem_digitPattern_iff.1 hfirst
    exact ⟨List.cons_ne_nil _ _, List.forall_mem_cons.2 ⟨hc, mem_star_iff.1 hrest⟩⟩
  · rintro ⟨hne, hall⟩
    obtain ⟨c, rest, rfl⟩ := List.exists_cons_of_ne_nil hne
    obtain ⟨hc, hrest⟩ := List.forall_mem_cons.1 hall
    exact ⟨[c], mem_digitPattern_iff.2 ⟨c, hc, rfl⟩, rest, mem_star_iff.2 hrest, rfl⟩

theorem mem_point_iff : text ∈ (oneOf ".".toList).matches' ↔ text = ['.'] := by
  simp [mem_oneOf_iff]

theorem mem_signPattern_iff : text ∈ signPattern.matches' ↔ ∃ negative, WrittenSign text negative := by
  rw [signPattern, mem_optional_iff, mem_oneOf_iff]
  constructor
  · rintro (rfl | ⟨c, hc, rfl⟩)
    · exact ⟨_, .absent⟩
    · rcases List.mem_pair.1 hc with rfl | rfl
      · exact ⟨_, .plus⟩
      · exact ⟨_, .minus⟩
  · rintro ⟨negative, h⟩
    cases h with
    | absent => exact .inl rfl
    | plus => exact .inr ⟨'+', by decide, rfl⟩
    | minus => exact .inr ⟨'-', by decide, rfl⟩

theorem mem_pointedPattern_iff :
    text ∈ pointedPattern.matches' ↔ ∃ whole fraction, WrittenDigits text whole fraction := by
  rw [pointedPattern, mem_add_iff, mem_mul_iff, mem_mul_iff]
  constructor
  · rintro (⟨whole, hwhole, tail, htail, rfl⟩ | ⟨point, hpoint, fraction, hfraction, rfl⟩)
    · rw [mem_digitsPattern_iff] at hwhole
      rcases mem_optional_iff.1 htail with rfl | htail
      · rw [List.append_nil]
        exact ⟨_, _, .whole hwhole⟩
      · obtain ⟨point, hpoint, fraction, hfraction, rfl⟩ := mem_mul_iff.1 htail
        obtain rfl := mem_point_iff.1 hpoint
        exact ⟨_, _, .point hwhole (mem_star_iff.1 hfraction)⟩
    · obtain rfl := mem_point_iff.1 hpoint
      exact ⟨_, _, .fraction (mem_digitsPattern_iff.1 hfraction)⟩
  · rintro ⟨whole, fraction, h⟩
    cases h with
    | whole hwhole =>
        exact .inl ⟨text, mem_digitsPattern_iff.2 hwhole, [], mem_optional_iff.2 (.inl rfl),
          List.append_nil text⟩
    | point hwhole hfraction =>
        have htail := mem_mul_iff.2
          ⟨['.'], mem_point_iff.2 rfl, fraction, mem_star_iff.2 hfraction, rfl⟩
        exact .inl ⟨whole, mem_digitsPattern_iff.2 hwhole, _, mem_optional_iff.2 (.inr htail), rfl⟩
    | fraction hfraction =>
        exact .inr ⟨['.'], mem_point_iff.2 rfl, fraction, mem_digitsPattern_iff.2 hfraction, rfl⟩

theorem mem_exponentPattern_iff :
    text ∈ exponentPattern.matches' ↔ ∃ exponent, WrittenExponent text exponent := by
  rw [exponentPattern, mem_optional_iff, mem_mul_iff]
  constructor
  · rintro (rfl | ⟨mark, hmark, tail, htail, rfl⟩)
    · exact ⟨_, .absent⟩
    · obtain ⟨c, hc, rfl⟩ := mem_oneOf_iff.1 hmark
      obtain ⟨sign, hsign, digits, hdigits, rfl⟩ := mem_mul_iff.1 htail
      obtain ⟨negative, hnegative⟩ := mem_signPattern_iff.1 hsign
      rw [mem_digitsPattern_iff] at hdigits
      have hmarked := WrittenExponent.marked (List.mem_pair.1 hc) hnegative hdigits
      exact ⟨_, hmarked⟩
  · rintro ⟨exponent, h⟩
    cases h with
    | absent => exact .inl rfl
    | marked hmark hsign hdigits =>
        refine .inr ⟨_, mem_oneOf_iff.2 ⟨_, List.mem_pair.2 hmark, rfl⟩, _, mem_mul_iff.2 ?_, rfl⟩
        exact ⟨_, mem_signPattern_iff.2 ⟨_, hsign⟩, _, mem_digitsPattern_iff.2 hdigits, rfl⟩

/-- **A text matches the pattern exactly when it is written as a literal.** -/
theorem mem_pattern_iff : text ∈ pattern.matches' ↔ ∃ literal, Written text literal := by
  rw [pattern, mem_mul_iff]
  constructor
  · rintro ⟨sign, hsign, rest, hrest, rfl⟩
    obtain ⟨digits, hdigits, exponent, hexponent, rfl⟩ := mem_mul_iff.1 hrest
    obtain ⟨_, hnegative⟩ := mem_signPattern_iff.1 hsign
    obtain ⟨_, _, hpointed⟩ := mem_pointedPattern_iff.1 hdigits
    obtain ⟨_, hscaled⟩ := mem_exponentPattern_iff.1 hexponent
    exact ⟨_, .parts hnegative hpointed hscaled⟩
  · rintro ⟨literal, h⟩
    cases h with
    | parts hsign hdigits hexponent =>
        refine ⟨_, mem_signPattern_iff.2 ⟨_, hsign⟩, _, mem_mul_iff.2 ?_, rfl⟩
        exact ⟨_, mem_pointedPattern_iff.2 ⟨_, _, hdigits⟩, _, mem_exponentPattern_iff.2 ⟨_, hexponent⟩,
          rfl⟩

/-! ## The characters of a literal -/

/-- A digit, a sign, the point or the mark of an exponent. -/
def IsMark (c : Char) : Prop := c.isDigit = true ∨ c ∈ "+-.eE".toList

instance : DecidablePred IsMark :=
  fun c => inferInstanceAs (Decidable (c.isDigit = true ∨ c ∈ "+-.eE".toList))

theorem isMark_of_isDigits (h : Text.isDigits text = true) : ∀ c ∈ text, IsMark c :=
  fun c hc => .inl ((Text.isDigits_iff.1 h).2 c hc)

theorem WrittenSign.isMark {negative : Bool} (h : WrittenSign text negative) :
    ∀ c ∈ text, IsMark c := by
  cases h with
  | absent => exact List.forall_mem_nil _
  | plus => exact List.forall_mem_singleton.2 (.inr (by decide))
  | minus => exact List.forall_mem_singleton.2 (.inr (by decide))

theorem WrittenDigits.isMark {whole fraction : Text} (h : WrittenDigits text whole fraction) :
    ∀ c ∈ text, IsMark c := by
  have hpoint : IsMark '.' := .inr (by decide)
  cases h with
  | whole hwhole => exact isMark_of_isDigits hwhole
  | point hwhole hfraction =>
      refine List.forall_mem_append.2 ⟨isMark_of_isDigits hwhole, List.forall_mem_cons.2 ⟨hpoint, ?_⟩⟩
      exact fun c hc => .inl (hfraction c hc)
  | fraction hfraction => exact List.forall_mem_cons.2 ⟨hpoint, isMark_of_isDigits hfraction⟩

theorem WrittenExponent.isMark {exponent : Int} (h : WrittenExponent text exponent) :
    ∀ c ∈ text, IsMark c := by
  cases h with
  | absent => exact List.forall_mem_nil _
  | marked hmark hsign hdigits =>
      refine List.forall_mem_cons.2 ⟨.inr ?_, List.forall_mem_append.2 ⟨hsign.isMark, ?_⟩⟩
      · rcases hmark with rfl | rfl <;> decide
      · exact isMark_of_isDigits hdigits

/-- A literal consists of digits, signs, points and marks of exponents. -/
theorem isMark_of_written (h : Written text literal) : ∀ c ∈ text, IsMark c := by
  cases h with
  | parts hsign hdigits hexponent =>
      exact List.forall_mem_append.2
        ⟨hsign.isMark, List.forall_mem_append.2 ⟨hdigits.isMark, hexponent.isMark⟩⟩

end DynamicPatching.Literal

import DynamicPatching.Proofs.Single.Grammar
import DynamicPatching.Proofs.Single.Overflow

/-!
# Reading a number back

The text of a finite number is a literal without exponent: a sign, digits, and perhaps a point with
more digits (`read?_positional`). Its value is the point of the grid that the writer chose, and that
point lies in the interval of the number, so the text denotes the number it was written for, with
the sign of zero (`number?_text`). No decimal that ends at a coarser place is rounded to it
(`text_shortest`). The text of any number is one word.
-/

namespace DynamicPatching

namespace Single

/-! ## Positional text -/

/-- The digits of a fraction, filled up with zeros to the given number of places. -/
def paddedFraction (n places : Nat) : Text :=
  List.replicate (places - (Text.decimal n).length) '0' ++ Text.decimal n

theorem isDigit_of_mem_paddedFraction {n places : Nat} {c : Char} (h : c ∈ paddedFraction n places) :
    c.isDigit = true := by
  rcases List.mem_append.1 h with hzero | hdigit
  · rw [List.eq_of_mem_replicate hzero]
    rfl
  · exact Text.isDigit_of_mem_decimal hdigit

theorem length_paddedFraction {n places : Nat} (hpos : 0 < places) (h : n < 10 ^ places) :
    (paddedFraction n places).length = places := by
  have hlength : (Text.decimal n).length ≤ places :=
    (Nat.length_toDigits_le_iff (by decide) hpos).2 h
  rw [paddedFraction, List.length_append, List.length_replicate]
  omega

theorem positional_of_le {point grid : Nat} (h : decimalPlaces ≤ grid) :
    positional point grid = Text.decimal (point * 10 ^ (grid - decimalPlaces)) := if_pos h

theorem positional_of_lt {point grid : Nat} (h : grid < decimalPlaces) :
    positional point grid = Text.decimal (point / 10 ^ (decimalPlaces - grid)) ++
      '.' :: paddedFraction (point % 10 ^ (decimalPlaces - grid)) (decimalPlaces - grid) :=
  if_neg (Nat.not_le.2 h)

/-- The positional text of a point, behind a sign, is a literal with the value of the point. -/
theorem read?_positional (negative : Bool) (point grid : Nat) :
    ∃ whole fraction, Literal.read? (Literal.signText negative ++ positional point grid) =
        some ⟨negative, whole, fraction, 0⟩ ∧
      fraction.length ≤ decimalPlaces ∧
      Text.digitsValue (whole ++ fraction) * 10 ^ (decimalPlaces - fraction.length) =
        point * 10 ^ grid := by
  -- a finer grid writes a point and a fraction, a coarser one only trailing zeros
  rcases Nat.lt_or_ge grid decimalPlaces with hfine | hcoarse
  · rw [positional_of_lt hfine]
    have hpos : 0 < decimalPlaces - grid := by omega
    have hsmall : point % 10 ^ (decimalPlaces - grid) < 10 ^ (decimalPlaces - grid) :=
      Nat.mod_lt _ (by positivity)
    have hlength := length_paddedFraction hpos hsmall
    have hdigits : ∀ c ∈ paddedFraction (point % 10 ^ (decimalPlaces - grid))
        (decimalPlaces - grid), c.isDigit = true := fun c => isDigit_of_mem_paddedFraction
    have hread := Literal.read?_signed (Literal.writtenSign_signText negative)
      (.point (Text.isDigits_decimal (point / 10 ^ (decimalPlaces - grid))) hdigits)
    refine ⟨_, _, hread, by omega, ?_⟩
    rw [Text.digitsValue_append, hlength, Text.digitsValue_decimal, paddedFraction,
      Text.digitsValue_padded, Nat.div_add_mod']
    have hgrid : decimalPlaces - (decimalPlaces - grid) = grid := by omega
    rw [hgrid]
  · rw [positional_of_le hcoarse]
    have hread := Literal.read?_signed (Literal.writtenSign_signText negative)
      (.whole (Text.isDigits_decimal (point * 10 ^ (grid - decimalPlaces))))
    refine ⟨_, [], hread, Nat.zero_le _, ?_⟩
    rw [List.append_nil, Text.digitsValue_decimal, List.length_nil, Nat.sub_zero, Nat.mul_assoc,
      ← Nat.pow_add, Nat.sub_add_cancel hcoarse]

/-! ## Reading the text of a number -/

/-- A literal without exponent is rounded as it stands. -/
theorem nearest_literal (negative : Bool) (whole fraction : Text) :
    Literal.nearest ⟨negative, whole, fraction, 0⟩ =
      nearest negative (Text.digitsValue (whole ++ fraction) * unitsPerOne)
        (10 ^ fraction.length) := by
  simp [Literal.nearest, Literal.digits, Literal.scale, ofDecimal_eq]

/-- A point of the interval of a finite number is rounded to the number. -/
theorem nearest_eq_of_rounds {x : Single} {point num den : Nat} (hfinite : x.isFinite = true)
    (hordinal : x.ordinal ≠ 0) (hden : 0 < den) (h : rounds x.ordinal point = true)
    (hpoint : num * (2 * 10 ^ decimalPlaces) = point * den) : nearest x.negative num den = x := by
  have hnearest := (nearestOrdinal_eq_iff_rounds hordinal hden hpoint).2 h
  have hlt : x.ordinal < infinityOrdinal := of_decide_eq_true hfinite
  obtain ⟨negative, ordinal, ordinal_lt⟩ := x
  simp only [nearest, mk.injEq, true_and]
  rw [hnearest]
  exact Nat.min_eq_left hlt.le

/-- The text of a finite number is its sign and the text of its magnitude. -/
theorem text_of_isFinite {x : Single} (h : x.isFinite = true) :
    x.text = Literal.signText x.negative ++ magnitudeText x.ordinal := by
  have hlt : x.ordinal < infinityOrdinal := of_decide_eq_true h
  have hnumber : x.isNaN = false := decide_eq_false (by omega)
  simp [text, hnumber, h, Literal.signText]

/-- Only finite numbers are denoted. -/
theorem isFinite_of_number? {text : Text} {x : Single} (h : Text.number? text = some x) :
    x.isFinite = true := by
  rw [Text.number?, Option.filter_eq_some_iff] at h
  exact h.2

theorem number?_zero (negative : Bool) :
    Text.number? (Literal.signText negative ++ ['0']) = some ⟨negative, 0, by decide⟩ := by
  revert negative
  decide +kernel

/-- **The text of a finite number denotes the number.** -/
theorem number?_text {x : Single} (h : x.isFinite = true) : Text.number? x.text = some x := by
  rw [text_of_isFinite h, magnitudeText]
  split
  · rename_i hzero
    obtain ⟨negative, ordinal, ordinal_lt⟩ := x
    obtain rfl : ordinal = 0 := hzero
    exact number?_zero negative
  · rename_i hordinal
    have hrounds := rounds_shortestFrom hordinal coarsestGrid
    generalize shortestFrom x.ordinal coarsestGrid = shortest at hrounds ⊢
    obtain ⟨whole, fraction, hread, hlength, hvalue⟩ :=
      read?_positional x.negative shortest.1 shortest.2
    have hpoint : Text.digitsValue (whole ++ fraction) * unitsPerOne * (2 * 10 ^ decimalPlaces) =
        shortest.1 * gridStep shortest.2 * 10 ^ fraction.length := by
      calc Text.digitsValue (whole ++ fraction) * unitsPerOne * (2 * 10 ^ decimalPlaces)
          = Text.digitsValue (whole ++ fraction) * 10 ^ (decimalPlaces - fraction.length) *
              (2 ^ 150 * 10 ^ fraction.length) := by
            rw [← Nat.sub_add_cancel hlength, Nat.pow_add, Nat.sub_add_cancel hlength,
              unitsPerOne_eq]
            ring
        _ = shortest.1 * gridStep shortest.2 * 10 ^ fraction.length := by
            rw [hvalue, gridStep_eq]
            ring
    have hnearest := nearest_eq_of_rounds h hordinal (by positivity) hrounds hpoint
    rw [Text.number?, hread, Option.map_some, nearest_literal, hnearest]
    simp [h]

/-- **The text of a finite number is the shortest decimal that denotes it.** It is written without an
exponent, and no decimal with a coarser last place is rounded to the number. -/
theorem text_shortest {x : Single} (hfinite : x.isFinite = true) (hordinal : x.ordinal ≠ 0) :
    ∃ point grid, x.text = Literal.signText x.negative ++ positional point grid ∧
      ∀ digits coarser,
        nearest x.negative (digits * 10 ^ coarser * unitsPerOne) (10 ^ decimalPlaces) = x →
          coarser ≤ grid := by
  have htext := text_of_isFinite hfinite
  rw [magnitudeText, if_neg hordinal] at htext
  refine ⟨_, _, htext, ?_⟩
  intro digits coarser hnearest
  have hlt : x.ordinal < infinityOrdinal := of_decide_eq_true hfinite
  have hreached : nearestOrdinal (digits * 10 ^ coarser * unitsPerOne) (10 ^ decimalPlaces) =
      x.ordinal := by
    have hmin : min (nearestOrdinal (digits * 10 ^ coarser * unitsPerOne) (10 ^ decimalPlaces))
        infinityOrdinal = x.ordinal := congrArg ordinal hnearest
    omega
  have hpoint : digits * 10 ^ coarser * unitsPerOne * (2 * 10 ^ decimalPlaces) =
      digits * gridStep coarser * 10 ^ decimalPlaces := by
    rw [gridStep_eq, unitsPerOne_eq]
    ring
  have hrounds := (nearestOrdinal_eq_iff_rounds hordinal (by positivity) hpoint).1 hreached
  exact le_shortestFrom hordinal (le_coarsestGrid hlt hrounds) hrounds

/-! ## The shape of the text -/

theorem isWord_positional (point grid : Nat) : (positional point grid).IsWord := by
  rw [positional]
  split
  · exact Text.isWord_decimal _
  · refine ⟨by simp [Text.decimal_ne_nil], ?_⟩
    intro c hc
    rcases List.mem_append.1 hc with hwhole | hrest
    · exact Text.isBlank_of_mem_decimal hwhole
    · rcases List.mem_cons.1 hrest with rfl | hfraction
      · rfl
      · exact Text.isBlank_of_isDigit (isDigit_of_mem_paddedFraction hfraction)

theorem isWord_magnitudeText (ordinal : Nat) : (magnitudeText ordinal).IsWord := by
  rw [magnitudeText]
  split
  · exact Text.isWord_of_any_eq_false (by decide) (by decide)
  · exact isWord_positional _ _

/-- The text of a number is one word. -/
theorem isWord_text (x : Single) : x.text.IsWord := by
  rw [text]
  split
  · exact Text.isWord_of_any_eq_false (by decide) (by decide)
  · have hmagnitude : (if x.isFinite then magnitudeText x.ordinal else "inf".toList).IsWord := by
      split
      · exact isWord_magnitudeText _
      · exact Text.isWord_of_any_eq_false (by decide) (by decide)
    refine ⟨fun hnil => hmagnitude.1 (List.append_eq_nil_iff.1 hnil).2, ?_⟩
    intro c hc
    rcases List.mem_append.1 hc with hsign | hrest
    · split at hsign
      · rw [List.mem_singleton.1 hsign]
        rfl
      · cases hsign
    · exact hmagnitude.2 c hrest

end Single

end DynamicPatching

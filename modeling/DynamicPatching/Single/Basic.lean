/-!
# Single-precision numbers

The engine computes with binary numbers of 32 bits. A `Single` is a sign and an `ordinal`, the
remaining 31 bits read as a natural number. Ordinals list the magnitudes in increasing order: the
finite ones come first, starting at zero, then infinity (`infinityOrdinal`), then the patterns that
are not a number. Counting in this order makes rounding a question about natural numbers: the
neighbours of a magnitude are the ordinals before and after it, and a significand is even exactly
when its ordinal is.

`scaled` gives a finite magnitude in units of `2 ^ (-149)`, the smallest positive magnitude, so no
fraction is needed anywhere. Powers are spelled `Nat.pow`, which is the same function whether or not
a module sees the powers of monoids.

A quotient of natural numbers, in these units, is rounded to the nearest magnitude, a tie going to
the even ordinal. Above `2 ^ 24` units the spacing is a power of two; dividing by it leaves a
significand between `2 ^ 23` and `2 ^ 24`, which is rounded to a whole number. Each halving advances
the ordinal by one binade, so the ordinal is the count of halvings times `binade` plus the rounded
significand, also when rounding carries into the next binade. Magnitudes too large for a finite
ordinal become infinity.
-/

namespace DynamicPatching

/-- A binary number of single precision: its sign, and the position of its magnitude among all
magnitudes in increasing order. -/
structure Single where
  negative : Bool
  ordinal : Nat
  ordinal_lt : ordinal < 0x80000000
deriving DecidableEq

namespace Single

/-! ## Magnitudes -/

/-- The number of significands of one exponent. -/
def binade : Nat := 0x800000

/-- The ordinal of infinity; the finite magnitudes are those below it. -/
def infinityOrdinal : Nat := 255 * binade

/-- The magnitude of an ordinal in units of `2 ^ (-149)`. Below `binade` magnitudes are evenly
spaced multiples of the unit; from there on each further binade doubles the spacing. -/
def scaled (ordinal : Nat) : Nat :=
  if ordinal < binade then ordinal
  else (binade + ordinal % binade) * Nat.pow 2 (ordinal / binade - 1)

/-! ## Kinds of numbers -/

/-- The number is finite. -/
def isFinite (x : Single) : Bool := decide (x.ordinal < infinityOrdinal)

/-- The pattern denotes no number. -/
def isNaN (x : Single) : Bool := decide (infinityOrdinal < x.ordinal)

/-- Positive zero. -/
def zero : Single := ⟨false, 0, by decide⟩

instance : Inhabited Single := ⟨zero⟩

/-! ## Bit patterns -/

/-- The number with the given pattern of 32 bits, the sign leading. -/
def ofBits (bits : UInt32) : Single :=
  ⟨decide (0x80000000 ≤ bits.toNat), bits.toNat % 0x80000000, Nat.mod_lt _ (by decide)⟩

/-- The pattern of 32 bits of a number. -/
def toBits (x : Single) : UInt32 :=
  UInt32.ofNat ((if x.negative then 0x80000000 else 0) + x.ordinal)

/-- The pattern of a number, read as a natural number. -/
theorem toNat_toBits (x : Single) :
    x.toBits.toNat = (if x.negative then 0x80000000 else 0) + x.ordinal := by
  have small := x.ordinal_lt
  refine UInt32.toNat_ofNat_of_lt' ?_
  change _ < 0x100000000
  split <;> omega

/-- A number is determined by its pattern. -/
theorem ofBits_toBits (x : Single) : ofBits x.toBits = x := by
  have bits := toNat_toBits x
  obtain ⟨negative, ordinal, ordinal_lt⟩ := x
  dsimp only at bits
  unfold ofBits
  rw [mk.injEq, bits]
  cases negative with
  | false =>
      rw [if_neg Bool.false_ne_true]
      exact ⟨decide_eq_false (by omega), by omega⟩
  | true =>
      rw [if_pos rfl]
      exact ⟨decide_eq_true (by omega), by omega⟩

/-- Every pattern is the pattern of its number. -/
theorem toBits_ofBits (bits : UInt32) : (ofBits bits).toBits = bits := by
  have size := bits.toNat_lt
  have sign : (ofBits bits).negative = decide (0x80000000 ≤ bits.toNat) := rfl
  have rest : (ofBits bits).ordinal = bits.toNat % 0x80000000 := rfl
  apply UInt32.toNat.inj
  by_cases high : 0x80000000 ≤ bits.toNat
  · rw [toNat_toBits, rest, sign, decide_eq_true high, if_pos rfl]
    omega
  · rw [toNat_toBits, rest, sign, decide_eq_false high, if_neg Bool.false_ne_true]
    omega

/-! ## Comparison and clamping -/

/-- Numerical equality: a pattern that is not a number differs from itself, and the two zeros are
equal. -/
def sameNumber (x y : Single) : Bool :=
  !x.isNaN && !y.isNaN && (decide (x = y) || (decide (x.ordinal = 0) && decide (y.ordinal = 0)))

/-- The greater of the number and zero; what is not a number becomes zero. -/
def clampToZero (x : Single) : Single :=
  if x.isNaN || x.negative then zero else x

/-! ## Rounding a quotient -/

/-- The natural number nearest to a quotient, a tie going to the even one. -/
def halfEven (num den : Nat) : Nat :=
  let whole := num / den
  let twice := 2 * (num % den)
  if twice < den then whole
  else if den < twice then whole + 1
  else whole + whole % 2

/-- The ordinal of the magnitude nearest to `num / den` units of `2 ^ (-149)`. -/
def nearestOrdinal (num den : Nat) : Nat :=
  let shift := (num / den).log2 - 23
  shift * binade + halfEven num (den * Nat.pow 2 shift)

/-- The number nearest to `num / den` units of `2 ^ (-149)` with the given sign; infinity when that
magnitude is past the finite ones. -/
def nearest (negative : Bool) (num den : Nat) : Single :=
  ⟨negative, min (nearestOrdinal num den) infinityOrdinal,
    Nat.lt_of_le_of_lt (Nat.min_le_right _ _) (by decide)⟩

/-! ## Decimals and whole numbers -/

/-- Units of `2 ^ (-149)` in one. -/
def unitsPerOne : Nat := Nat.pow 2 149

/-- A scale that gives `digits * 10 ^ scale` the same nearest number as the given one and is never
far from zero: `10 ^ 39` exceeds every finite magnitude, and below `10 ^ (-64)` nothing rounds away
from zero. -/
def boundedScale (digits : Nat) (scale : Int) : Int :=
  max (min scale 39) (-(digits.log2 + 64 : Nat))

/-- The number nearest to `digits * 10 ^ scale`. -/
def ofDecimal (negative : Bool) (digits : Nat) (scale : Int) : Single :=
  let bounded := boundedScale digits scale
  nearest negative (digits * Nat.pow 10 bounded.toNat * unitsPerOne) (Nat.pow 10 (-bounded).toNat)

/-- The number nearest to a quotient of natural numbers. -/
def ofRatio (num den : Nat) : Single := nearest false (num * unitsPerOne) den

/-- The number nearest to a natural number. -/
def ofNat (n : Nat) : Single := ofRatio n 1

end Single

end DynamicPatching

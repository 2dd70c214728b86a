import DynamicPatching.Text.Basic
import DynamicPatching.Single.Basic

/-!
# Decimal text of numbers

A token is a number when the whole of it is a decimal literal: an optional sign, digits with at most
one point among or around them, at least one digit in all, and an optional exponent with an optional
sign. Digits are ASCII. Words such as `inf` and `nan` are not literals, and a literal too large for
a finite number does not denote one (`number?`). The grammar of literals is also given as relations,
with one constructor for each way to write a part (`Literal.Written`).

A number is written with the fewest digits that read back as the same number, in positional notation
without an exponent. Whole numbers have no point, the sign of zero is kept, and the values outside
the finite range are written `inf`, `-inf` and `NaN`.

The decimals that round to a magnitude fill the interval between the midpoints to its two
neighbours, ends included exactly when the ordinal is even. Grids of multiples of a power of ten are
tried from coarse to fine. The first grid with a point in the interval gives the digits; of two such
points next to the magnitude the nearer is taken, and of two equally near ones the larger. All
comparisons are made in units of `2 ^ (-150) * 10 ^ (-45)`, in which midpoints and grid points are
whole numbers.
-/

namespace DynamicPatching

/-! ## Literals -/

/-- The parts of a decimal literal; `whole` and `fraction` are rows of digits. -/
structure Literal where
  negative : Bool
  whole : Text
  fraction : Text
  exponent : Int
deriving DecidableEq

namespace Literal

/-- Reads an optional sign: whether it is a minus sign, and the text behind it. -/
def readSign : Text → Bool × Text
  | '-' :: rest => (true, rest)
  | '+' :: rest => (false, rest)
  | text => (false, text)

/-- Reads an optional point and the digits behind it. -/
def readFraction : Text → Text × Text
  | '.' :: rest => (rest.takeWhile Char.isDigit, rest.dropWhile Char.isDigit)
  | text => ([], text)

/-- Reads an exponent that fills the whole text; no text is the exponent zero. -/
def readExponent? : Text → Option Int
  | [] => some 0
  | mark :: rest =>
      if mark = 'e' ∨ mark = 'E' then
        let signed := readSign rest
        if Text.isDigits signed.2 then
          let size : Int := Text.digitsValue signed.2
          some (if signed.1 then -size else size)
        else none
      else none

/-- Reads a literal that fills the whole text. -/
def read? (text : Text) : Option Literal :=
  let signed := readSign text
  let whole := signed.2.takeWhile Char.isDigit
  let tail := readFraction (signed.2.dropWhile Char.isDigit)
  if whole.isEmpty && tail.1.isEmpty then none
  else (readExponent? tail.2).map fun exponent => ⟨signed.1, whole, tail.1, exponent⟩

/-- All digits of a literal, read as one natural number. -/
def digits (literal : Literal) : Nat := Text.digitsValue (literal.whole ++ literal.fraction)

/-- The power of ten that scales the digits to the value of the literal. -/
def scale (literal : Literal) : Int := literal.exponent - literal.fraction.length

/-- The number nearest to the value of the literal; a minus sign is kept on zero. -/
def nearest (literal : Literal) : Single :=
  Single.ofDecimal literal.negative literal.digits literal.scale

end Literal

/-- The finite number that a token denotes, if it denotes one. -/
def Text.number? (token : Text) : Option Single :=
  ((Literal.read? token).map Literal.nearest).filter Single.isFinite

/-- The token denotes a finite number. -/
def Text.isNumeric (token : Text) : Bool := (Text.number? token).isSome

/-! ## The grammar of literals -/

namespace Literal

/-- The ways to write a sign; the value tells whether it is a minus sign. -/
inductive WrittenSign : Text → Bool → Prop where
  | absent : WrittenSign [] false
  | plus : WrittenSign ['+'] false
  | minus : WrittenSign ['-'] true

/-- The ways to write the digits in front of the point and those behind it. -/
inductive WrittenDigits : Text → Text → Text → Prop where
  | whole {whole : Text} : Text.isDigits whole = true → WrittenDigits whole whole []
  | point {whole fraction : Text} :
      Text.isDigits whole = true → (∀ c ∈ fraction, c.isDigit = true) →
      WrittenDigits (whole ++ '.' :: fraction) whole fraction
  | fraction {fraction : Text} :
      Text.isDigits fraction = true → WrittenDigits ('.' :: fraction) [] fraction

/-- The ways to write an exponent; one that is left out is zero. -/
inductive WrittenExponent : Text → Int → Prop where
  | absent : WrittenExponent [] 0
  | marked {mark : Char} {sign digits : Text} {negative : Bool} :
      mark = 'e' ∨ mark = 'E' → WrittenSign sign negative → Text.isDigits digits = true →
      WrittenExponent (mark :: (sign ++ digits))
        (if negative then -(Text.digitsValue digits : Int) else Text.digitsValue digits)

/-- The ways to write a literal. -/
inductive Written : Text → Literal → Prop where
  | parts {sign digits exponentText whole fraction : Text} {negative : Bool} {exponent : Int} :
      WrittenSign sign negative → WrittenDigits digits whole fraction →
      WrittenExponent exponentText exponent →
      Written (sign ++ (digits ++ exponentText)) ⟨negative, whole, fraction, exponent⟩

end Literal

/-! ## Shortest text -/

namespace Single

/-! ### The interval of a magnitude -/

/-- Powers of ten below one that the finest grid needs. -/
def decimalPlaces : Nat := 45

/-- A magnitude in units of `2 ^ (-150) * 10 ^ (-45)`. -/
def fineValue (ordinal : Nat) : Nat := 2 * scaled ordinal * Nat.pow 10 decimalPlaces

/-- The midpoint between an ordinal's magnitude and the next, in the same units. -/
def fineMidpoint (ordinal : Nat) : Nat :=
  (scaled ordinal + scaled (ordinal + 1)) * Nat.pow 10 decimalPlaces

/-- The point rounds to the magnitude of the ordinal. -/
def rounds (ordinal point : Nat) : Bool :=
  let low := fineMidpoint (ordinal - 1)
  let high := fineMidpoint ordinal
  if ordinal % 2 = 0 then decide (low ≤ point) && decide (point ≤ high)
  else decide (low < point) && decide (point < high)

/-! ### Decimal grids -/

/-- The step of grid `grid`, which holds the multiples of `10 ^ (grid - 45)`, in the same units. -/
def gridStep (grid : Nat) : Nat := Nat.pow 10 grid * Nat.pow 2 150

/-- The multiple of the grid's step nearest to the magnitude, among those two around it that round
to the magnitude; of two equally near ones the larger. -/
def gridPoint? (ordinal grid : Nat) : Option Nat :=
  let step := gridStep grid
  let value := fineValue ordinal
  let below := value / step
  let excess := value % step
  match rounds ordinal (below * step), rounds ordinal ((below + 1) * step) with
  | true, true => some (if 2 * excess < step then below else below + 1)
  | true, false => some below
  | false, true => some (below + 1)
  | false, false => none

/-- The coarsest grid with a point that rounds to the magnitude, searched from the given grid down,
and that point. -/
def shortestFrom (ordinal : Nat) : Nat → Nat × Nat
  | 0 => ((gridPoint? ordinal 0).getD 0, 0)
  | grid + 1 =>
      match gridPoint? ordinal (grid + 1) with
      | some point => (point, grid + 1)
      | none => shortestFrom ordinal grid

/-- The coarsest grid that can hold a point for a finite magnitude, the multiples of `10 ^ 38`. -/
def coarsestGrid : Nat := 83

/-! ### Writing -/

/-- The number `point * 10 ^ (grid - 45)` in positional notation. -/
def positional (point grid : Nat) : Text :=
  if decimalPlaces ≤ grid then
    Text.decimal (point * Nat.pow 10 (grid - decimalPlaces))
  else
    let places := decimalPlaces - grid
    let fraction := Text.decimal (point % Nat.pow 10 places)
    Text.decimal (point / Nat.pow 10 places) ++
      '.' :: (List.replicate (places - fraction.length) '0' ++ fraction)

/-- A finite magnitude, written with the fewest digits that read back. -/
def magnitudeText (ordinal : Nat) : Text :=
  if ordinal = 0 then ['0']
  else
    let shortest := shortestFrom ordinal coarsestGrid
    positional shortest.1 shortest.2

/-- The text of a number. -/
def text (x : Single) : Text :=
  if x.isNaN then "NaN".toList
  else
    (if x.negative then ['-'] else []) ++
      (if x.isFinite then magnitudeText x.ordinal else "inf".toList)

end Single

end DynamicPatching

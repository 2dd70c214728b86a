/-!
# Text

A wire line is text cut at single spaces, and a script is text cut at a separator. Text is kept as a
list of characters, so that cutting and joining are the splitting and intercalation of lists, with
their laws. Two neighbouring cuts enclose an empty piece, so cutting loses nothing: the pieces with
spaces between them are the text again (`spaced_pieces`).

Names may hold no blank, and lines are trimmed of blanks on both sides. A character is blank when it
has the Unicode property White_Space; `blankRanges` lists its ranges of code points. The separators
U+001C to U+001F, U+180E, U+200B and U+FEFF lack the property and are ordinary characters.

Outlet and inlet indices, voice numbers and element positions are written in ASCII decimal digits. A
written integer may carry one sign; an index may carry a plus sign and must fit 32 bits.
-/

namespace DynamicPatching

/-- Text, as the list of its characters. -/
abbrev Text := List Char

namespace Text

/-! ## Cutting and joining -/

/-- The pieces of a text between its single spaces; a doubled space encloses an empty piece. -/
def pieces (text : Text) : List Text := text.splitOn ' '

/-- The given texts with one space between neighbours. -/
def spaced (texts : List Text) : Text := [' '].intercalate texts

/-- The part of a text before its first space, or the whole text. -/
def beforeSpace (text : Text) : Text := text.takeWhile (· != ' ')

/-- The part of a text after its first space, or nothing. -/
def afterSpace (text : Text) : Text := (text.dropWhile (· != ' ')).drop 1

/-- Joining puts a space behind every text but the last. -/
theorem spaced_cons_cons (first second : Text) (rest : List Text) :
    spaced (first :: second :: rest) = first ++ ' ' :: spaced (second :: rest) := by
  simp [spaced, List.intercalate_cons_cons]

/-- **Joining the pieces of a text yields the text.** -/
theorem spaced_pieces (text : Text) : spaced (pieces text) = text := List.intercalate_splitOn ' '

/-! ## Blank characters -/

/-- First and last code point of each range of White_Space. -/
def blankRanges : List (Nat × Nat) :=
  [(0x09, 0x0D), (0x20, 0x20), (0x85, 0x85), (0xA0, 0xA0), (0x1680, 0x1680), (0x2000, 0x200A),
    (0x2028, 0x2029), (0x202F, 0x202F), (0x205F, 0x205F), (0x3000, 0x3000)]

/-- The character has the property White_Space. -/
def isBlank (c : Char) : Bool :=
  blankRanges.any fun range => decide (range.1 ≤ c.toNat) && decide (c.toNat ≤ range.2)

/-- The text without its leading blanks. -/
def trimStart (text : Text) : Text := text.dropWhile isBlank

/-- The text without its trailing blanks. -/
def trimEnd (text : Text) : Text := (text.reverse.dropWhile isBlank).reverse

/-- The text without its leading and trailing blanks. -/
def trim (text : Text) : Text := trimEnd (trimStart text)

/-- The maximal runs of characters that are not blank, in order. -/
def words (text : Text) : List Text := (text.splitOnP isBlank).filter fun word => !word.isEmpty

/-- The part before the first space, and the trimmed part after it. -/
def splitFirst (text : Text) : Text × Text := (beforeSpace text, trim (afterSpace text))

/-! ## Decimal numerals -/

/-- The decimal digits of a natural number, without leading zeros. -/
def decimal (n : Nat) : Text := Nat.toDigits 10 n

/-- The number that a row of decimal digits denotes; an empty row denotes zero. -/
def digitsValue (digits : Text) : Nat := Nat.ofDigitChars 10 digits 0

/-- The text is a non-empty row of decimal digits. -/
def isDigits (text : Text) : Bool := !text.isEmpty && text.all Char.isDigit

/-- The text without one leading sign. -/
def dropSign : Text → Text
  | '+' :: rest => rest
  | '-' :: rest => rest
  | text => text

/-- The text without one leading plus sign. -/
def dropPlus : Text → Text
  | '+' :: rest => rest
  | text => text

/-- The text is a row of digits behind at most one sign. -/
def isInteger (text : Text) : Bool := isDigits (dropSign text)

/-- The index that a row of digits behind at most one plus sign denotes, if it fits 32 bits. -/
def index? (text : Text) : Option UInt32 :=
  let digits := dropPlus text
  if isDigits digits && decide (digitsValue digits < UInt32.size) then
    some (UInt32.ofNat (digitsValue digits))
  else
    none

end Text

end DynamicPatching

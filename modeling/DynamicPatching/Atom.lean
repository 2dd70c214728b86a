import DynamicPatching.Single.Decimal
import DynamicPatching.Contract

/-!
# Atoms

What the engine receives is a list of atoms, each a number or a symbol. On the wire the list is
text: the texts of its atoms with one space between neighbours. Reading cuts the text at single
spaces and takes every piece that denotes a finite number as that number, any other piece as a
symbol.

A message that bypasses the interpreter is a selector and arguments. Its text is read like any wire
text, but the piece before the first space must be symbolic, because it becomes the selector.
-/

namespace DynamicPatching

/-- A value sent to the engine. -/
inductive Atom where
  | number (value : Single)
  | symbol (name : Text)
deriving DecidableEq

namespace Atom

/-! ## One atom -/

/-- The atom that a token denotes. -/
def ofToken (token : Text) : Atom :=
  match Text.number? token with
  | some value => .number value
  | none => .symbol token

/-- The text of an atom. -/
def text : Atom → Text
  | .number value => value.text
  | .symbol name => name

/-- The number, if the atom is one. -/
def number? : Atom → Option Single
  | .number value => some value
  | .symbol _ => none

/-- The symbol, if the atom is one. -/
def symbol? : Atom → Option Text
  | .number _ => none
  | .symbol name => some name

/-- Equality of atoms with numbers compared numerically. -/
def sameValue : Atom → Atom → Bool
  | .number x, .number y => x.sameNumber y
  | .symbol x, .symbol y => decide (x = y)
  | _, _ => false

/-! ## Lists of atoms -/

/-- The wire text of a list of atoms. -/
def textOfList (atoms : List Atom) : Text := Text.spaced (atoms.map Atom.text)

/-- The atoms of a wire text, one for each piece between single spaces. -/
def listOfText (text : Text) : List Atom := (Text.pieces text).map Atom.ofToken

/-! ## Direct messages -/

/-- The atoms of a message text whose first piece denotes no number. -/
def messageOfText (text : Text) : Checked (List Atom) :=
  if Text.isNumeric (Text.beforeSpace text) then .fail (.malformedMessage text)
  else ⟨.ok (listOfText text), [.selectorSymbolic]⟩

end Atom

end DynamicPatching

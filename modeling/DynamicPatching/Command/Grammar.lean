import DynamicPatching.Command.Basic

/-!
# The grammar of commands

A command can be assembled from arbitrary fields. It is well formed when its names are names and its
definition, if it has one, is not blank. It is canonical when its free text is trimmed and it is not
an object whose definition describes a message, number or symbol box. Both are read off the fields
alone.

A connection is written as an outlet key, an optional outlet index, an inlet key and an optional
inlet index; a missing index is zero. Keys denote no number and indices do, so no word is both, and
a row of words has at most one reading.

Behind its keyword a line holds the arguments: a name and free text, a single name, a connection, or
nothing. Free text is trimmed. An object whose definition begins with the word of a message, number
or symbol box is written for the command of that box, as if the line began with that word.
-/

namespace DynamicPatching

/-! ## Well-formed and canonical commands -/

namespace Command

/-- Every name of the command is a name, and its definition is not blank. -/
def IsWellFormed : Command → Prop
  | .object key definition => key.IsName ∧ Text.trim definition ≠ []
  | .message key _ => key.IsName
  | .floatAtom key _ => key.IsName
  | .symbolAtom key _ => key.IsName
  | .delete key => key.IsName
  | .connect connection => connection.outletKey.IsName ∧ connection.inletKey.IsName
  | .disconnect connection => connection.outletKey.IsName ∧ connection.inletKey.IsName
  | .target subpatch => subpatch.IsName
  | .send receiver _ => receiver.IsName
  | .loadbang => True
  | .reset => True

/-- The words that begin the definition of a box with a command of its own. -/
def boxWords : List Text := ["msg".toList, "floatatom".toList, "symbolatom".toList]

/-- The free text of the command is trimmed, and an object describes no box with a command of its
own. -/
def IsCanonical : Command → Prop
  | .object _ definition =>
      Text.trim definition = definition ∧ Text.beforeSpace definition ∉ boxWords
  | .message _ text => Text.trim text = text
  | .floatAtom _ arguments => Text.trim arguments = arguments
  | .symbolAtom _ arguments => Text.trim arguments = arguments
  | .send _ text => Text.trim text = text
  | .delete _ => True
  | .connect _ => True
  | .disconnect _ => True
  | .target _ => True
  | .loadbang => True
  | .reset => True

instance (command : Command) : Decidable command.IsWellFormed := by
  cases command <;> dsimp only [IsWellFormed] <;> infer_instance

instance (command : Command) : Decidable command.IsCanonical := by
  cases command <;> dsimp only [IsCanonical] <;> infer_instance

end Command

/-! ## Connections -/

/-- The word denotes no number, and so can stand for a key. -/
def Text.IsKey (word : Text) : Prop := Text.isNumeric word = false

/-- The word is a row of digits behind at most one plus sign, and the index is its value. -/
def Text.IsIndex (word : Text) (index : UInt32) : Prop :=
  Text.isDigits (Text.dropPlus word) = true
    ∧ Text.digitsValue (Text.dropPlus word) = index.toNat

/-- The readings of a row of words as a connection. -/
inductive Connection.Written : List Text → Connection → Prop where
  | keys {outletKey inletKey : Text} :
      outletKey.IsKey → inletKey.IsKey →
      Written [outletKey, inletKey] ⟨outletKey, 0, inletKey, 0⟩
  | outletIndex {outletKey word inletKey : Text} {outlet : UInt32} :
      outletKey.IsKey → word.IsIndex outlet → inletKey.IsKey →
      Written [outletKey, word, inletKey] ⟨outletKey, outlet, inletKey, 0⟩
  | inletIndex {outletKey inletKey word : Text} {inlet : UInt32} :
      outletKey.IsKey → inletKey.IsKey → word.IsIndex inlet →
      Written [outletKey, inletKey, word] ⟨outletKey, 0, inletKey, inlet⟩
  | bothIndices {outletKey first inletKey second : Text} {outlet inlet : UInt32} :
      outletKey.IsKey → first.IsIndex outlet → inletKey.IsKey → second.IsIndex inlet →
      Written [outletKey, first, inletKey, second] ⟨outletKey, outlet, inletKey, inlet⟩

/-! ## Lines -/

namespace Command

/-- The readings of the text behind a keyword. -/
inductive Written : Keyword → Text → Command → Prop where
  | object {rest key definition : Text} :
      Text.splitFirst rest = (key, definition) → key.IsName → definition ≠ [] →
      Text.beforeSpace definition ∉ boxWords →
      Written .object rest (.object key definition)
  | box {rest key definition text : Text} {keyword : Keyword} {command : Command} :
      Text.splitFirst rest = (key, definition) →
      Text.splitFirst definition = (keyword.word, text) → keyword.word ∈ boxWords →
      Written keyword (Text.spaced [key, text]) command →
      Written .object rest command
  | message {rest key text : Text} :
      Text.splitFirst rest = (key, text) → key.IsName →
      Written .message rest (.message key text)
  | floatAtom {rest key arguments : Text} :
      Text.splitFirst rest = (key, arguments) → key.IsName →
      Written .floatAtom rest (.floatAtom key arguments)
  | symbolAtom {rest key arguments : Text} :
      Text.splitFirst rest = (key, arguments) → key.IsName →
      Written .symbolAtom rest (.symbolAtom key arguments)
  | send {rest receiver text : Text} :
      Text.splitFirst rest = (receiver, text) → receiver.IsName →
      Written .send rest (.send receiver text)
  | delete {key : Text} : key.IsName → Written .delete key (.delete key)
  | target {subpatch : Text} : subpatch.IsName → Written .target subpatch (.target subpatch)
  | connect {rest : Text} {connection : Connection} :
      Connection.Written (Text.words rest) connection →
      Written .connect rest (.connect connection)
  | disconnect {rest : Text} {connection : Connection} :
      Connection.Written (Text.words rest) connection →
      Written .disconnect rest (.disconnect connection)
  | loadbang : Written .loadbang [] .loadbang
  | reset : Written .reset [] .reset

end Command

end DynamicPatching

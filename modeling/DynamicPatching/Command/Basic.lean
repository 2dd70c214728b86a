import DynamicPatching.Atom

/-!
# Commands

A command edits the patch of a session: it creates or deletes a box, connects two boxes, selects the
canvas that is edited, sends a message from inside the patch, or fires or clears it. Each command
has a keyword and a row of operands, and its line is these with one space between neighbours.

A line exists in two spellings. Scripts spell a command by its script word; on the wire `reset` is
spelled `init`, and every other keyword is spelled as in scripts.

Keys, receivers and subpatches are named by symbols. A text is a name when it is not empty, holds no
blank and does not denote a number (`Text.IsName`): only such a text survives on the wire as exactly
one symbol. `requireName` makes the test on behalf of a line, and says which part of it fails.

Checked construction builds a command from its parts after testing the names among them. Free text
is trimmed. A definition that begins with the word of a message, number or symbol box builds that
box instead of an object, so one box has one command. An error names the line that the parts were
given for: the keyword and the parts with one space between neighbours, empty parts included.

A command may also be assembled from arbitrary fields. Encoding first applies the rules of checked
construction (`validate`), so such a command is rejected before it reaches the engine, and then
reads the wire line as atoms. An encoded connection always has its four operands.
-/

namespace DynamicPatching

/-! ## Keywords -/

/-- The vocabulary of commands. -/
inductive Keyword where
  | object
  | message
  | floatAtom
  | symbolAtom
  | delete
  | connect
  | disconnect
  | target
  | send
  | loadbang
  | reset
deriving DecidableEq

namespace Keyword

/-- The word for a keyword in scripts. -/
def word : Keyword → Text
  | .object => "obj".toList
  | .message => "msg".toList
  | .floatAtom => "floatatom".toList
  | .symbolAtom => "symbolatom".toList
  | .delete => "delete".toList
  | .connect => "connect".toList
  | .disconnect => "disconnect".toList
  | .target => "target".toList
  | .send => "send".toList
  | .loadbang => "loadbang".toList
  | .reset => "reset".toList

/-- The word for a keyword on the wire. -/
def wireWord : Keyword → Text
  | .reset => "init".toList
  | keyword => keyword.word

/-- Every keyword. -/
def all : List Keyword :=
  [.object, .message, .floatAtom, .symbolAtom, .delete, .connect, .disconnect, .target, .send,
    .loadbang, .reset]

/-- The keyword that a word of a script denotes. -/
def ofWord? (word : Text) : Option Keyword := all.find? fun keyword => decide (keyword.word = word)

/-- **A word denotes a keyword exactly when it is the keyword's script word.** -/
theorem ofWord?_eq_some_iff {word : Text} {keyword : Keyword} :
    ofWord? word = some keyword ↔ keyword.word = word := by
  constructor
  · intro h
    simpa using List.find?_some h
  · rintro rfl
    cases keyword <;> decide

end Keyword

/-! ## Commands and their lines -/

/-- The two ends of a connection; index 0 is the leftmost outlet or inlet of a box. -/
structure Connection where
  outletKey : Text
  outlet : UInt32
  inletKey : Text
  inlet : UInt32
deriving DecidableEq

/-- One edit of the patch. -/
inductive Command where
  | object (key definition : Text)
  | message (key text : Text)
  | floatAtom (key arguments : Text)
  | symbolAtom (key arguments : Text)
  | delete (key : Text)
  | connect (connection : Connection)
  | disconnect (connection : Connection)
  | target (subpatch : Text)
  | send (receiver text : Text)
  | loadbang
  | reset
deriving DecidableEq

namespace Command

/-- The keyword of a command. -/
def keyword : Command → Keyword
  | .object _ _ => .object
  | .message _ _ => .message
  | .floatAtom _ _ => .floatAtom
  | .symbolAtom _ _ => .symbolAtom
  | .delete _ => .delete
  | .connect _ => .connect
  | .disconnect _ => .disconnect
  | .target _ => .target
  | .send _ _ => .send
  | .loadbang => .loadbang
  | .reset => .reset

/-- A text as a row of operands: no operand for the empty text, one for any other. -/
def optionalOperand (text : Text) : List Text := if text = [] then [] else [text]

/-- The four operands of a connection. -/
def connectionOperands (connection : Connection) : List Text :=
  [connection.outletKey, Text.decimal connection.outlet.toNat, connection.inletKey,
    Text.decimal connection.inlet.toNat]

/-- The operands of a command, in the order of its line. -/
def operands : Command → List Text
  | .object key definition => [key, definition]
  | .message key text => key :: optionalOperand text
  | .floatAtom key arguments => key :: optionalOperand arguments
  | .symbolAtom key arguments => key :: optionalOperand arguments
  | .delete key => [key]
  | .connect connection => connectionOperands connection
  | .disconnect connection => connectionOperands connection
  | .target subpatch => [subpatch]
  | .send receiver text => receiver :: optionalOperand text
  | .loadbang => []
  | .reset => []

/-- The line of a command in a script. -/
def scriptLine (command : Command) : Text :=
  Text.spaced (command.keyword.word :: command.operands)

/-- The line of a command on the wire. -/
def wireLine (command : Command) : Text :=
  Text.spaced (command.keyword.wireWord :: command.operands)

end Command

/-! ## Names -/

/-- The text is not empty, holds no blank and denotes no number. -/
def Text.IsName (text : Text) : Prop :=
  text ≠ [] ∧ text.any Text.isBlank = false ∧ Text.isNumeric text = false

instance (text : Text) : Decidable text.IsName :=
  inferInstanceAs (Decidable (text ≠ [] ∧ text.any Text.isBlank = false
    ∧ Text.isNumeric text = false))

/-- Accepts a name in the given role, or fails with an error about the line. -/
def requireName (line : Text) (role : NameRole) (name : Text) : Checked Unit :=
  if name = [] then .fail (.malformedCommand (Text.trim line) (.missingName role))
  else if name.any Text.isBlank then
    .fail (.malformedCommand (Text.trim line) (.blankInName role name))
  else if Text.isNumeric name then
    .fail (.malformedCommand (Text.trim line) (.numericName role name))
  else .note .nameSymbolic

/-- The test accepts exactly the names. -/
theorem requireName_outcome_eq_ok_iff {line : Text} {role : NameRole} {name : Text} :
    (requireName line role name).outcome = .ok () ↔ name.IsName := by
  unfold requireName
  by_cases empty : name = []
  · simp [Text.IsName, empty]
  · cases blank : name.any Text.isBlank <;> cases numeric : Text.isNumeric name <;>
      simp [Text.IsName, empty, blank, numeric]

/-! ## Checked construction -/

namespace Command

/-- The line that parts were given for. -/
def givenLine (keyword : Keyword) (parts : List Text) : Text := Text.spaced (keyword.word :: parts)

/-- The box that a trimmed definition describes. -/
def boxOfDefinition (key definition : Text) : Command :=
  let parts := Text.splitFirst definition
  match Keyword.ofWord? parts.1 with
  | some .message => .message key parts.2
  | some .floatAtom => .floatAtom key parts.2
  | some .symbolAtom => .symbolAtom key parts.2
  | _ => .object key definition

/-- A box with the given definition. -/
def makeObject (key definition : Text) : Checked Command := do
  let line := givenLine .object [key, definition]
  requireName line .key key
  let trimmed := Text.trim definition
  if trimmed = [] then
    .fail (.malformedCommand line .missingObjectType)
  else
    pure (boxOfDefinition key trimmed)

/-- A message box holding the text. -/
def makeMessage (key text : Text) : Checked Command := do
  requireName (givenLine .message [key, text]) .key key
  pure (.message key (Text.trim text))

/-- A number box. -/
def makeFloatAtom (key arguments : Text) : Checked Command := do
  requireName (givenLine .floatAtom [key, arguments]) .key key
  pure (.floatAtom key (Text.trim arguments))

/-- A symbol box. -/
def makeSymbolAtom (key arguments : Text) : Checked Command := do
  requireName (givenLine .symbolAtom [key, arguments]) .key key
  pure (.symbolAtom key (Text.trim arguments))

/-- The deletion of the box with the given key. -/
def makeDelete (key : Text) : Checked Command := do
  requireName (givenLine .delete [key]) .key key
  pure (.delete key)

/-- Tests the two keys of a connection on behalf of a line, the outlet's first. -/
def requireKeys (line : Text) (connection : Connection) : Checked Unit := do
  requireName line .outletKey connection.outletKey
  requireName line .inletKey connection.inletKey

/-- The command that makes a connection. -/
def makeConnect (connection : Connection) : Checked Command := do
  requireKeys (givenLine .connect (connectionOperands connection)) connection
  pure (.connect connection)

/-- The command that removes a connection. -/
def makeDisconnect (connection : Connection) : Checked Command := do
  requireKeys (givenLine .disconnect (connectionOperands connection)) connection
  pure (.disconnect connection)

/-- The selection of a subpatch as the canvas that later commands edit. -/
def makeTarget (subpatch : Text) : Checked Command := do
  requireName (givenLine .target [subpatch]) .subpatch subpatch
  pure (.target subpatch)

/-- A message that the patch itself sends to a receiver. -/
def makeSend (receiver message : Text) : Checked Command := do
  requireName (givenLine .send [receiver, message]) .receiver receiver
  pure (.send receiver (Text.trim message))

/-- The checked construction of a command's own fields. -/
def remake : Command → Checked Command
  | .object key definition => makeObject key definition
  | .message key text => makeMessage key text
  | .floatAtom key arguments => makeFloatAtom key arguments
  | .symbolAtom key arguments => makeSymbolAtom key arguments
  | .delete key => makeDelete key
  | .connect connection => makeConnect connection
  | .disconnect connection => makeDisconnect connection
  | .target subpatch => makeTarget subpatch
  | .send receiver text => makeSend receiver text
  | .loadbang => pure .loadbang
  | .reset => pure .reset

/-! ## Encoding -/

/-- Accepts a command whose names are names and whose definition, if it has one, is not blank. -/
def validate (command : Command) : Checked Unit :=
  let line := command.scriptLine
  match command with
  | .object key definition => do
      requireName line .key key
      if Text.trim definition = [] then
        .fail (.malformedCommand (Text.trim line) .missingObjectType)
      else
        pure ()
  | .message key _ => requireName line .key key
  | .floatAtom key _ => requireName line .key key
  | .symbolAtom key _ => requireName line .key key
  | .delete key => requireName line .key key
  | .connect connection => requireKeys line connection
  | .disconnect connection => requireKeys line connection
  | .target subpatch => requireName line .subpatch subpatch
  | .send receiver _ => requireName line .receiver receiver
  | .loadbang => pure ()
  | .reset => pure ()

/-- The contracts that encoding an accepted command keeps. -/
def encodingNotes : Command → List Contract
  | .connect _ => [.connectionComplete]
  | .disconnect _ => [.connectionComplete]
  | _ => []

/-- The atoms of a command's wire line, if the command is accepted. -/
def encode (command : Command) : Checked (List Atom) := do
  command.validate
  ⟨.ok (Atom.listOfText command.wireLine), command.encodingNotes⟩

end Command

end DynamicPatching

import DynamicPatching.Command.Basic

/-!
# Lines and scripts

A line of a script is a keyword and its arguments. The line is trimmed, its first space ends the
keyword, and the trimmed rest is read as the keyword demands: a name and free text, a single name, a
connection, or nothing. A connection is a row of two to four words, in which a missing index is zero
and the second of three words is an index exactly when it denotes a number. Every error about a
known keyword names the whole trimmed line.

A script is a row of lines with a comma and a space between neighbours. Lines are trimmed and blank
ones are skipped. Nothing in a line escapes the separator, so a line whose text holds a comma and a
space reads back as several lines.

A builder takes checked commands one after another. It keeps the commands up to the first call that
fails and that call's error; later calls are still made, and note the contracts they keep, but
change neither.
-/

namespace DynamicPatching

/-! ## Reading arguments -/

namespace Command

/-- Fails with an error about the line. -/
def malformed {α : Type} (line : Text) (fault : CommandFault) : Checked α :=
  .fail (.malformedCommand line fault)

/-- Reads an outlet or inlet index. -/
def readIndex (line token : Text) : Checked UInt32 :=
  if Text.isInteger token then
    match Text.index? token with
    | some index => pure index
    | none => malformed line (.indexTooLarge token)
  else
    malformed line (.notAnIndex token)

/-- Joins the ends of a connection after testing its keys. -/
def joinEnds (line outletKey : Text) (outlet : UInt32) (inletKey : Text) (inlet : UInt32) :
    Checked Connection := do
  let connection : Connection := ⟨outletKey, outlet, inletKey, inlet⟩
  requireKeys line connection
  pure connection

/-- Reads a connection from its words. -/
def readConnection (line : Text) : List Text → Checked Connection
  | [outletKey, inletKey] => joinEnds line outletKey 0 inletKey 0
  | [outletKey, second, third] =>
      if Text.isNumeric second then do
        let outlet ← readIndex line second
        joinEnds line outletKey outlet third 0
      else do
        let inlet ← readIndex line third
        joinEnds line outletKey 0 second inlet
  | [outletKey, second, inletKey, fourth] => do
      let outlet ← readIndex line second
      let inlet ← readIndex line fourth
      joinEnds line outletKey outlet inletKey inlet
  | _ => malformed line .connectionShape

/-- Reads arguments that must be one name. -/
def readSingle (line rest : Text) (role : NameRole) : Checked Text :=
  match Text.words rest with
  | [] => malformed line (.missingName role)
  | [_] => pure rest
  | _ => malformed line (.severalNames role)

/-- Accepts arguments that are absent. -/
def requireNone (line rest : Text) : Checked Unit :=
  if rest = [] then pure () else malformed line .unexpectedArguments

/-- Reads the arguments of a keyword. -/
def readArguments (line rest : Text) : Keyword → Checked Command
  | .object => makeObject (Text.splitFirst rest).1 (Text.splitFirst rest).2
  | .message => makeMessage (Text.splitFirst rest).1 (Text.splitFirst rest).2
  | .floatAtom => makeFloatAtom (Text.splitFirst rest).1 (Text.splitFirst rest).2
  | .symbolAtom => makeSymbolAtom (Text.splitFirst rest).1 (Text.splitFirst rest).2
  | .delete => do makeDelete (← readSingle line rest .key)
  | .connect => do pure (.connect (← readConnection line (Text.words rest)))
  | .disconnect => do pure (.disconnect (← readConnection line (Text.words rest)))
  | .target => do makeTarget (← readSingle line rest .subpatch)
  | .send => makeSend (Text.splitFirst rest).1 (Text.splitFirst rest).2
  | .loadbang => do requireNone line rest; pure .loadbang
  | .reset => do requireNone line rest; pure .reset

/-! ## Reading lines -/

/-- Reads one line of a script. -/
def ofLine (text : Text) : Checked Command :=
  let line := Text.trim text
  let parts := Text.splitFirst line
  match Keyword.ofWord? parts.1 with
  | some keyword => (readArguments line parts.2 keyword).mapError (Error.atLine line)
  | none => .fail (.unknownCommand line)

end Command

/-! ## Scripts -/

namespace Script

/-- The text between neighbouring lines. -/
def separator : Text := ", ".toList

/-- The texts between the separators of a script. -/
def segments : Text → List Text
  | [] => [[]]
  | ',' :: ' ' :: rest => [] :: segments rest
  | c :: rest => (segments rest).modifyHead (c :: ·)

/-- The lines of a script, trimmed, without the blank ones. -/
def lines (script : Text) : List Text :=
  ((segments script).map Text.trim).filter fun line => !line.isEmpty

/-- Reads commands from lines in order, up to the first error. -/
def readLines : List Text → Checked (List Command)
  | [] => pure []
  | line :: rest => do
      let command ← Command.ofLine line
      let commands ← readLines rest
      pure (command :: commands)

/-- Reads a whole script. -/
def read (script : Text) : Checked (List Command) := readLines (lines script)

/-- The script of a list of commands. -/
def render (commands : List Command) : Text :=
  separator.intercalate (commands.map Command.scriptLine)

/-! ## Building scripts by calls -/

/-- The commands collected so far, or the first error. -/
structure Builder where
  collected : Except Error (List Command)
  notes : List Contract

namespace Builder

/-- The builder that holds no command. -/
def empty : Builder := ⟨.ok [], []⟩

/-- Adds the outcome of one call. -/
def add (builder : Builder) (call : Checked Command) : Builder :=
  let collected :=
    match builder.collected, call.outcome with
    | .ok commands, .ok command => .ok (commands ++ [command])
    | .ok _, .error error => .error error
    | .error error, _ => .error error
  ⟨collected, builder.notes ++ call.notes⟩

/-- The builder after a row of calls. -/
def ofCalls (calls : List (Checked Command)) : Builder := calls.foldl add empty

/-- The collected commands, or the first error. -/
def build (builder : Builder) : Checked (List Command) := ⟨builder.collected, builder.notes⟩

/-- The script of the collected commands, or the first error. -/
def script (builder : Builder) : Checked Text := do
  let commands ← builder.build
  pure (render commands)

end Builder

end Script

end DynamicPatching

import DynamicPatching.Engine.Action
import DynamicPatching.Script.Basic

/-!
# Sessions

A session is one opened interpreter patch. Its receivers are named after the patch's handle, so two
sessions on one engine never share one. Every command of a session becomes one list delivered to its
interpreter; a command that is not accepted is not delivered. A script runs line by line: when a line
fails, the lines before it have been delivered and the lines after it are not tried.

A call to a session runs a script or commands, makes a command from its parts and delivers it, or
bypasses the interpreter with a direct delivery. None of them yields anything but success.
-/

namespace DynamicPatching

/-! ## Configuration -/

/-- The interpreter patch, the directory it is opened from, and the suffix of its receiver's name.
-/
structure SessionConfig where
  patch : Text := "dynamicpd.pd".toList
  searchPath : Text := ".".toList
  interpreterSuffix : Text := "dynamicpd".toList
deriving DecidableEq

/-- The size of the voice pool, the patch and channel layout loaded into every voice, the suffix of
the channel receiver's name, and the range of the pitch bend in semitones. -/
structure SynthConfig where
  voices : Nat := 6
  synthType : Text := "subtractive_synth".toList
  channelLayout : Text := "stereo".toList
  channelsSuffix : Text := "channels".toList
  pitchbendRange : Single := Single.ofNat 36
deriving DecidableEq

/-! ## Sessions -/

/-- The handle of an opened interpreter patch, and the receiver of its commands. -/
structure Session where
  handle : Nat
  interpreter : Text
deriving DecidableEq

namespace Session

/-- The receiver name that a handle and a suffix make. -/
def receiverName (handle : Nat) (suffix : Text) : Text :=
  Text.decimal handle ++ '-' :: suffix

/-- A receiver name of the session's own patch. -/
def localReceiver (session : Session) (suffix : Text) : Text := receiverName session.handle suffix

/-! ### Commands -/

/-- Delivers an accepted command to the interpreter. -/
def execute (session : Session) (command : Command) : Action Unit := do
  let atoms ← Action.ofChecked command.encode
  Action.deliver session.interpreter (.list atoms)

/-- Delivers the command that a checked construction yields. -/
def perform (session : Session) (call : Checked Command) : Action Unit := do
  let command ← Action.ofChecked call
  session.execute command

/-- Opens the interpreter patch and clears it. -/
def start (config : SessionConfig) : Action Session := do
  let handle ← Action.openPatch config.patch config.searchPath
  let session : Session := ⟨handle, receiverName handle config.interpreterSuffix⟩
  session.execute .reset
  Action.note .sessionReady
  pure session

/-- Delivers commands in order, up to the first error. -/
def runCommands (session : Session) : List Command → Action Unit
  | [] => pure ()
  | command :: rest => do
      session.execute command
      session.runCommands rest

/-- Reads and delivers lines in order, up to the first error. -/
def runLines (session : Session) : List Text → Action Unit
  | [] => pure ()
  | line :: rest => do
      session.perform (Command.ofLine line)
      session.runLines rest

/-- Runs every line of a script. -/
def runScript (session : Session) (script : Text) : Action Unit := do
  session.runLines (Script.lines script)
  Action.note .scriptInOrder

/-- Has the patch send a message to a receiver. -/
def send (session : Session) (receiver message : Text) : Action Unit :=
  session.perform (Command.makeSend receiver message)

end Session

/-! ## Direct deliveries -/

/-- Delivers a message text, whose first piece is the selector, without the interpreter. -/
def Action.sendMessage (receiver message : Text) : Action Unit := do
  let atoms ← Action.ofChecked (Atom.messageOfText message)
  match atoms with
  | .symbol selector :: arguments => Action.deliver receiver (.message selector arguments)
  | _ => throw (.malformedMessage message)

/-- Delivers the atoms of a text as a list, without the interpreter. -/
def Action.sendText (receiver text : Text) : Action Unit :=
  Action.deliver receiver (.list (Atom.listOfText text))

/-! ## Calls as data -/

/-- One call to a session. -/
inductive SessionCall where
  | runScript (script : Text)
  | runCommands (commands : List Command)
  | execute (command : Command)
  | make (parts : Command)
  | send (receiver message : Text)
  | sendMessage (receiver message : Text)
  | sendText (receiver text : Text)
  | deliver (receiver : Text) (payload : Payload)
deriving DecidableEq

/-- The action of a call. -/
def SessionCall.run (session : Session) : SessionCall → Action Unit
  | .runScript script => session.runScript script
  | .runCommands commands => session.runCommands commands
  | .execute command => session.execute command
  | .make parts => session.perform parts.remake
  | .send receiver message => session.send receiver message
  | .sendMessage receiver message => Action.sendMessage receiver message
  | .sendText receiver text => Action.sendText receiver text
  | .deliver receiver payload => Action.deliver receiver payload

end DynamicPatching

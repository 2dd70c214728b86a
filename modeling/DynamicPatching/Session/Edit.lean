import DynamicPatching.Session.Basic

/-!
# Edits by calls

An edit of the patch is called with its parts: names, free text and indices. On a session it is
delivered at once (`Edit.run`); on a builder the checked command is collected (`Edit.construct`,
`Builder.ofEdits`). A connection may be given by its keys alone, which joins the leftmost outlet to
the leftmost inlet. Clearing the patch and firing its loadbangs have no parts and need no test.
-/

namespace DynamicPatching

/-- One edit of a patch, with the parts it is called with. -/
inductive Edit where
  | object (key definition : Text)
  | message (key text : Text)
  | floatAtom (key arguments : Text)
  | symbolAtom (key arguments : Text)
  | delete (key : Text)
  | connect (outletKey inletKey : Text)
  | connectPorts (connection : Connection)
  | disconnect (outletKey inletKey : Text)
  | disconnectPorts (connection : Connection)
  | target (subpatch : Text)
  | send (receiver text : Text)
  | loadbang
  | reset
deriving DecidableEq

namespace Edit

/-- The ends of a connection that is given without indices. -/
def leftmost (outletKey inletKey : Text) : Connection := ⟨outletKey, 0, inletKey, 0⟩

/-- The command that a builder collects for the edit, if its parts pass. -/
def construct : Edit → Checked Command
  | .object key definition => Command.makeObject key definition
  | .message key text => Command.makeMessage key text
  | .floatAtom key arguments => Command.makeFloatAtom key arguments
  | .symbolAtom key arguments => Command.makeSymbolAtom key arguments
  | .delete key => Command.makeDelete key
  | .connect outletKey inletKey => Command.makeConnect (leftmost outletKey inletKey)
  | .connectPorts connection => Command.makeConnect connection
  | .disconnect outletKey inletKey => Command.makeDisconnect (leftmost outletKey inletKey)
  | .disconnectPorts connection => Command.makeDisconnect connection
  | .target subpatch => Command.makeTarget subpatch
  | .send receiver text => Command.makeSend receiver text
  | .loadbang => pure .loadbang
  | .reset => pure .reset

/-- The edit made on a session. -/
def run (session : Session) : Edit → Action Unit
  | .object key definition => session.perform (Command.makeObject key definition)
  | .message key text => session.perform (Command.makeMessage key text)
  | .floatAtom key arguments => session.perform (Command.makeFloatAtom key arguments)
  | .symbolAtom key arguments => session.perform (Command.makeSymbolAtom key arguments)
  | .delete key => session.perform (Command.makeDelete key)
  | .connect outletKey inletKey =>
      session.perform (Command.makeConnect (leftmost outletKey inletKey))
  | .connectPorts connection => session.perform (Command.makeConnect connection)
  | .disconnect outletKey inletKey =>
      session.perform (Command.makeDisconnect (leftmost outletKey inletKey))
  | .disconnectPorts connection => session.perform (Command.makeDisconnect connection)
  | .target subpatch => session.perform (Command.makeTarget subpatch)
  | .send receiver text => session.send receiver text
  | .loadbang => session.execute .loadbang
  | .reset => session.execute .reset

end Edit

/-- Makes edits in order, up to the first error. -/
def Session.runEdits (session : Session) : List Edit → Action Unit
  | [] => pure ()
  | edit :: rest => do
      edit.run session
      session.runEdits rest

/-- The builder after a row of edits. -/
def Script.Builder.ofEdits (edits : List Edit) : Script.Builder := ofCalls (edits.map Edit.construct)

end DynamicPatching

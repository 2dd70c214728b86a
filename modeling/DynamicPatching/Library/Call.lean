import DynamicPatching.Synth.Call
import DynamicPatching.Voice.Call

/-!
# Calls to the library as data

A caller builds, tests and reads commands and messages, drives the engine, starts sessions and
synths, and calls the sessions, pools and synths that it holds. What a call is made on is part of
the call, so a row of calls may use whatever the caller holds, also sessions that share one engine.
`after` makes a row of calls, each on the bench that the one before it left, whether or not it
succeeded. Engines are many, but there is one contract log; `ContractLog.after` follows it along a row
of calls, each on an engine of its own.
-/

namespace DynamicPatching

/-- Runs an action from a held value, and forgets what is held afterwards. -/
def ActionOn.runFrom {σ α : Type} (held : σ) (action : ActionOn σ α) : Action α := fun bench =>
  match action (held, bench) with
  | .ok value (_, after) => .ok value after
  | .error error (_, after) => .error error after

/-- One call to the library. -/
inductive LibraryCall where
  | construct (parts : Command)
  | build (parts : List Command)
  | validate (command : Command)
  | encode (command : Command)
  | readLine (line : Text)
  | readScript (script : Text)
  | readMessage (text : Text)
  | onEngine (call : EngineCall)
  | startSession (config : SessionConfig)
  | onSession (session : Session) (call : SessionCall)
  | onPool (session : Session) (pool : VoicePool) (call : PoolCall)
  | startSynth (sessionConfig : SessionConfig) (config : SynthConfig)
  | onSynth (synth : Synth) (call : SynthCall)

namespace LibraryCall

/-- The action of a call; what it yields is left to the caller. -/
def run : LibraryCall → Action Unit
  | .construct parts => do
      let _ ← Action.ofChecked parts.remake
  | .build parts => do
      let _ ← Action.ofChecked (Script.Builder.ofCalls (parts.map Command.remake)).build
  | .validate command => Action.ofChecked command.validate
  | .encode command => do
      let _ ← Action.ofChecked command.encode
  | .readLine line => do
      let _ ← Action.ofChecked (Command.ofLine line)
  | .readScript script => do
      let _ ← Action.ofChecked (Script.read script)
  | .readMessage text => do
      let _ ← Action.ofChecked (Atom.messageOfText text)
  | .onEngine call => do
      let _ ← SynthCall.engineAction call
  | .startSession config => do
      let _ ← Session.start config
  | .onSession session call => call.run session
  | .onPool session pool call => do
      let _ ← (call.run session).runFrom pool
  | .startSynth sessionConfig config => do
      let _ ← Synth.start sessionConfig config
  | .onSynth synth call => do
      let _ ← call.run.runFrom synth

/-- The bench after a call, whatever its outcome. -/
def benchAfter (bench : Bench) (call : LibraryCall) : Bench := stateAfter call.run bench

/-- The bench after a row of calls. -/
def after (bench : Bench) (calls : List LibraryCall) : Bench := calls.foldl benchAfter bench

end LibraryCall

/-- A call to the library and the engine that it is made on. -/
structure LibraryStep where
  engine : Engine
  call : LibraryCall

namespace ContractLog

/-- The log after a call, whatever its outcome. -/
def afterStep (log : ContractLog) (step : LibraryStep) : ContractLog :=
  (LibraryCall.benchAfter ⟨step.engine, log⟩ step.call).contracts

/-- The log after a row of calls. -/
def after (log : ContractLog) (steps : List LibraryStep) : ContractLog := steps.foldl afterStep log

end ContractLog

end DynamicPatching

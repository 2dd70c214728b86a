import DynamicPatching.Synth.Basic

/-!
# Calls to a synth as data

A call plays, changes the pool or the settings, or reaches through the synth to its session or
engine. Starting a note yields its voice, and opening a patch on the engine its handle. `after`
makes a row of calls, each in the state that the one before it left, whether or not it succeeded.
-/

namespace DynamicPatching

/-- One call to a synth. -/
inductive SynthCall where
  | noteOn (note velocity : UInt8) (volume : Single)
  | noteOff (voice : Nat) (note : UInt8)
  | pitchBend (voice : Nat) (value : Single)
  | voiceVolume (voice : Nat) (volume : Single)
  | change (update : SettingUpdate)
  | setVoiceCount (voices : Nat)
  | updateSettings
  | session (call : SessionCall)
  | engine (call : EngineCall)
deriving DecidableEq

namespace SynthCall

/-- A call to the engine as an action. -/
def engineAction (call : EngineCall) : Action (Option Nat) := fun bench =>
  match bench.engine.perform call with
  | (.ok handle, changed) => .ok handle { bench with engine := changed }
  | (.error cause, changed) => .error (.delivery cause) { bench with engine := changed }

/-- The action of a call. -/
def run : SynthCall → ActionOn Synth (Option Nat)
  | .noteOn note velocity volume => do
      let voice ← Synth.noteOn note velocity volume
      pure (some voice)
  | .noteOff voice note => do
      Synth.noteOff voice note
      pure none
  | .pitchBend voice value => do
      Synth.pitchBend voice value
      pure none
  | .voiceVolume voice volume => do
      Synth.voiceVolume voice volume
      pure none
  | .change (.whole name value) => do
      Synth.setParameter name value
      pure none
  | .change (.element name index value) => do
      Synth.setParameterElement name index value
      pure none
  | .setVoiceCount voices => do
      Synth.setVoiceCount voices
      pure none
  | .updateSettings => do
      Synth.updateSettings
      pure none
  | .session call => do
      ActionOn.onBench fun synth => call.run synth.session
      pure none
  | .engine call => ActionOn.onBench fun _ => engineAction call

/-- The synth and the bench after a call, whatever its outcome. -/
def stateAfter (state : Synth × Bench) (call : SynthCall) : Synth × Bench :=
  DynamicPatching.stateAfter call.run state

/-- The synth and the bench after a row of calls. -/
def after (state : Synth × Bench) (calls : List SynthCall) : Synth × Bench :=
  calls.foldl stateAfter state

end SynthCall

end DynamicPatching

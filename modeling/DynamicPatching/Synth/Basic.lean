import DynamicPatching.Voice.Pool
import DynamicPatching.Setting.Basic

/-!
# The subtractive synth

A synth is a session whose patch hosts a channel object, the pool of its voices, and the current
settings. Starting one builds the host patch, loads every voice and sends it every setting. An
update of a setting is stored first and then sent to every voice, so after a failed delivery the
table holds the new value, and sending the settings again brings every voice up to date.
-/

namespace DynamicPatching

/-- A session, its voices, and the settings sent to them. -/
structure Synth where
  session : Session
  pool : VoicePool
  settings : Settings

namespace Synth

/-- The pitch bend that leaves the pitch unchanged. -/
def centeredBend : Single := Single.ofNat 64

/-- The name of the setting that holds the range of the pitch bend. -/
def bendRangeName : Text := "pitchbend range".toList

/-! ## Starting -/

/-- The calls that build the host patch of a channel receiver. -/
def hostCalls (channels : Text) : List (Checked Command) :=
  let input := "input".toList
  let router := "channels".toList
  let output := "dac".toList
  [Command.makeObject input (Text.spaced ["r".toList, channels]),
    Command.makeObject router "channels~".toList,
    Command.makeObject output "dac~".toList,
    Command.makeObject "waveforms".toList "subtractor_waveforms".toList,
    Command.makeConnect ⟨input, 0, router, 0⟩,
    Command.makeConnect ⟨router, 0, output, 0⟩,
    Command.makeConnect ⟨router, 1, output, 1⟩]

/-- Sends every setting to every voice of a pool. -/
def sendSettings (session : Session) (pool : VoicePool) : List Text → Action Unit
  | [] => pure ()
  | message :: rest => do
      pool.broadcast session message
      sendSettings session pool rest

/-- An outcome as an action that delivers and notes nothing. -/
def ofOutcome {α : Type} (outcome : Except Error α) : Action α := Action.ofChecked ⟨outcome, []⟩

/-- Opens a session, builds the host patch, loads every voice and sends it every setting. -/
def start (sessionConfig : SessionConfig) (config : SynthConfig) : Action Synth := do
  let session ← Session.start sessionConfig
  let channels := session.localReceiver config.channelsSuffix
  let host ← Action.ofChecked (Script.Builder.ofCalls (hostCalls channels)).build
  session.runCommands host
  let pool ← ofOutcome (VoicePool.make channels config)
  pool.loadAll session
  let settings ←
    ofOutcome (Settings.subtractive.set bendRangeName (.number config.pitchbendRange))
  sendSettings session pool settings.messages
  pure ⟨session, pool, settings⟩

/-- Sends every current setting to every voice. -/
def updateSettings : ActionOn Synth Unit :=
  ActionOn.onBench fun synth => sendSettings synth.session synth.pool synth.settings.messages

/-! ## Playing -/

/-- Sends a message to one voice. -/
def toVoice (voice : Nat) (message : Text) : ActionOn Synth Unit :=
  ActionOn.onBench fun synth => synth.pool.unicast synth.session voice message

/-- Runs an action on the pool of the synth. -/
def onPool {α : Type} (action : Session → ActionOn VoicePool α) : ActionOn Synth α :=
  fun (synth, bench) =>
    ActionOn.onPart Synth.pool (fun pool synth => { synth with pool }) (action synth.session)
      (synth, bench)

theorem stateAfter_onPool {α : Type} (action : Session → ActionOn VoicePool α)
    (state : Synth × Bench) :
    stateAfter (onPool action) state =
      let after := stateAfter (action state.1.session) (state.1.pool, state.2)
      ({ state.1 with pool := after.1 }, after.2) :=
  ActionOn.stateAfter_onPart Synth.pool (fun pool synth => { synth with pool })
    (action state.1.session) state.1 state.2

/-- Bends the pitch of one voice. -/
def pitchBend (voice : Nat) (value : Single) : ActionOn Synth Unit :=
  toVoice voice (Text.spaced ["pitchbend".toList, value.text])

/-- Sets the volume of one voice; a negative volume is silence. -/
def voiceVolume (voice : Nat) (volume : Single) : ActionOn Synth Unit :=
  toVoice voice (Text.spaced ["volume".toList, volume.clampToZero.text])

/-- Starts a note on the next voice, after centering its pitch bend and setting its volume, and
yields that voice. -/
def noteOn (note velocity : UInt8) (volume : Single) : ActionOn Synth Nat := do
  let voice ← onPool fun _ => VoicePool.allocate
  pitchBend voice centeredBend
  voiceVolume voice volume
  toVoice voice (Text.spaced [Text.decimal note.toNat, Text.decimal velocity.toNat])
  pure voice

/-- Releases a note on a voice. -/
def noteOff (voice : Nat) (note : UInt8) : ActionOn Synth Unit :=
  toVoice voice (Text.spaced [Text.decimal note.toNat, "0".toList])

/-- Changes the number of voices. -/
def setVoiceCount (voices : Nat) : ActionOn Synth Unit :=
  onPool fun session => VoicePool.resize session voices

/-! ## Settings -/

/-- Stores the outcome of an update of the settings, if it succeeds. -/
def store (update : Settings → Except Error Settings) : ActionOn Synth Unit := fun (synth, bench) =>
  match update synth.settings with
  | .ok settings => .ok () ({ synth with settings }, bench)
  | .error error => .error error (synth, bench)

/-- Sends one setting to every voice. -/
def broadcastSetting (name : Text) : ActionOn Synth Unit :=
  ActionOn.onBench fun synth => do
    let message ← ofOutcome (synth.settings.message name)
    synth.pool.broadcast synth.session message

/-- Stores the value of a setting and sends it to every voice. -/
def setParameter (name : Text) (value : SettingValue) : ActionOn Synth Unit := do
  store fun settings => settings.set name value
  broadcastSetting name

/-- Stores one position of a list setting and sends the whole list to every voice. -/
def setParameterElement (name : Text) (index : Nat) (value : Single) : ActionOn Synth Unit := do
  store fun settings => settings.setElement name index value
  broadcastSetting name

end Synth

end DynamicPatching

import DynamicPatching.Library.Call
import DynamicPatching.Proofs.Command.Layout
import DynamicPatching.Proofs.Engine.Delivering

/-!
# Duties

Eight kinds of calls owe a contract when they succeed: starting a session, running a script, encoding
a connection, reading a direct message, testing a name, handing out a voice, resizing a pool and
broadcasting. Such a call, together with everything that its outcome depends on, is a `Duty`. An
operation may make many of these calls on the way, also when it fails itself. The functions below list
them in the order of the operation, up to its first error (`Duty.andThen`, `Duty.along`), and
`Duty.made` lists them for a row of calls to the library. What succeeded among them is found by making
the call; nothing here looks at what is noted.
-/

namespace DynamicPatching

/-- A call that owes a contract when it succeeds, and what it is made on. -/
inductive Duty where
  | startSession (config : SessionConfig) (bench : Bench)
  | runScript (session : Session) (script : Text) (bench : Bench)
  | encode (command : Command)
  | readMessage (text : Text)
  | testName (name : Text)
  | allocate (pool : VoicePool) (bench : Bench)
  | resize (session : Session) (target : Nat) (pool : VoicePool) (bench : Bench)
  | broadcast (session : Session) (pool : VoicePool) (message : Text) (bench : Bench)

namespace Duty

/-- The contract that the call owes; of the commands, only connections owe one to their encoding. -/
def contract? : Duty → Option Contract
  | .startSession _ _ => some .sessionReady
  | .runScript _ _ _ => some .scriptInOrder
  | .encode (.connect _) => some .connectionComplete
  | .encode (.disconnect _) => some .connectionComplete
  | .encode _ => none
  | .readMessage _ => some .selectorSymbolic
  | .testName _ => some .nameSymbolic
  | .allocate _ _ => some .cursorInPool
  | .resize _ _ _ _ => some .resizeExact
  | .broadcast _ _ _ _ => some .broadcastComplete

/-- The call succeeds. -/
def Fulfilled : Duty → Prop
  | .startSession config bench => ∃ session, outcomeOf (Session.start config) bench = .ok session
  | .runScript session script bench => outcomeOf (session.runScript script) bench = .ok ()
  | .encode command => ∃ atoms, command.encode.outcome = .ok atoms
  | .readMessage text => ∃ atoms, (Atom.messageOfText text).outcome = .ok atoms
  | .testName name => ∃ line role, (requireName line role name).outcome = .ok ()
  | .allocate pool bench => ∃ voice, outcomeOf VoicePool.allocate (pool, bench) = .ok voice
  | .resize session target pool bench =>
      outcomeOf (VoicePool.resize session target) (pool, bench) = .ok ()
  | .broadcast session pool message bench => outcomeOf (pool.broadcast session message) bench = .ok ()

/-! ## Sequences -/

/-- The duties of an action, and behind its success those of what follows it. -/
def andThen {ρ α : Type} (duties : ρ → List Duty) (action : EStateM Error ρ α)
    (next : α → ρ → List Duty) (state : ρ) : List Duty :=
  duties state ++
    match action state with
    | .ok value after => next value after
    | .error _ _ => []

/-- The duties of a row of steps, up to the first that fails. -/
def along {ρ ι : Type} (step : ι → EStateM Error ρ Unit) (duties : ι → ρ → List Duty) :
    List ι → ρ → List Duty
  | [] => fun _ => []
  | item :: rest => andThen (duties item) (step item) fun _ => along step duties rest

/-- The duties behind a pure call, which are reached when it succeeds. -/
def behind {α : Type} (outcome : Except Error α) (duties : List Duty) : List Duty :=
  match outcome with
  | .ok _ => duties
  | .error _ => []

/-- The tests of a row of names, up to the first that is not accepted. -/
def names : List Text → List Duty
  | [] => []
  | name :: rest => .testName name :: if name.IsName then names rest else []

end Duty

/-! ## Commands -/

namespace Command

/-- The keys that reading a connection tests, behind the reading of its indices. -/
def keysOfWords : List Text → List Text
  | [outletKey, inletKey] => [outletKey, inletKey]
  | [outletKey, second, third] =>
      if Text.isNumeric second then if (Text.index? second).isSome then [outletKey, third] else []
      else if (Text.index? third).isSome then [outletKey, second] else []
  | [outletKey, second, inletKey, fourth] =>
      if (Text.index? second).isSome then
        if (Text.index? fourth).isSome then [outletKey, inletKey] else []
      else []
  | _ => []

/-- The names that reading the arguments of a keyword tests. -/
def namesOfArguments (rest : Text) : Keyword → List Text
  | .object | .message | .floatAtom | .symbolAtom | .send => [(Text.splitFirst rest).1]
  | .delete | .target =>
      match Text.words rest with
      | [_] => [rest]
      | _ => []
  | .connect | .disconnect => keysOfWords (Text.words rest)
  | .loadbang | .reset => []

/-- The names that reading a line tests. -/
def namesOfLine (text : Text) : List Text :=
  let parts := Text.splitFirst (Text.trim text)
  match Keyword.ofWord? parts.1 with
  | some keyword => namesOfArguments parts.2 keyword
  | none => []

/-- Each of a row of constructions tests its names, whatever becomes of the ones before it. -/
def buildDuties (parts : List Command) : List Duty :=
  parts.flatMap fun command => Duty.names command.names

/-- Encoding tests the names of the command first. -/
def encodeDuties (command : Command) : List Duty := .encode command :: Duty.names command.names

end Command

/-- Reading lines tests names up to the first line that is not read. -/
def Script.readDuties : List Text → List Duty
  | [] => []
  | line :: rest =>
      Duty.names (Command.namesOfLine line) ++
        Duty.behind (Command.ofLine line).outcome (readDuties rest)

/-! ## Sessions -/

namespace Session

/-- Performing a checked construction encodes the command that it yields. -/
def performDuties (duties : List Duty) (call : Checked Command) : Bench → List Duty :=
  Duty.andThen (fun _ => duties) (Action.ofChecked call) fun command _ => command.encodeDuties

def makeDuties (parts : Command) : Bench → List Duty :=
  performDuties (Duty.names parts.names) parts.remake

def sendDuties (receiver message : Text) : Bench → List Duty := makeDuties (.send receiver message)

def lineDuties (line : Text) : Bench → List Duty :=
  performDuties (Duty.names (Command.namesOfLine line)) (Command.ofLine line)

/-- Resetting the patch owes nothing besides. -/
def startDuties (config : SessionConfig) (bench : Bench) : List Duty := [.startSession config bench]

def runCommandsDuties (session : Session) (commands : List Command) : Bench → List Duty :=
  Duty.along session.execute (fun command _ => command.encodeDuties) commands

def runScriptDuties (session : Session) (script : Text) (bench : Bench) : List Duty :=
  .runScript session script bench ::
    Duty.along (fun line => session.perform (Command.ofLine line)) lineDuties (Script.lines script)
      bench

end Session

/-- The duties of a call to a session; of direct deliveries, only those of a message have one. -/
def SessionCall.duties (session : Session) : SessionCall → Bench → List Duty
  | .runScript script => session.runScriptDuties script
  | .runCommands commands => session.runCommandsDuties commands
  | .execute command => fun _ => command.encodeDuties
  | .make parts => Session.makeDuties parts
  | .send receiver message => Session.sendDuties receiver message
  | .sendMessage _ message => fun _ => [.readMessage message]
  | .sendText _ _ => fun _ => []
  | .deliver _ _ => fun _ => []

/-! ## Pools -/

namespace VoicePool

def loadAllDuties (session : Session) (pool : VoicePool) : Bench → List Duty :=
  Duty.along (pool.loadVoice session)
    (fun voice => Session.sendDuties pool.receiver (pool.loadDirective voice))
    (List.range' 0 pool.size)

def broadcastDuties (session : Session) (pool : VoicePool) (message : Text) (bench : Bench) :
    List Duty :=
  .broadcast session pool message bench ::
    Duty.along (fun voice => session.send pool.receiver (addressed voice message))
      (fun voice => Session.sendDuties pool.receiver (addressed voice message))
      (List.range' 0 pool.size) bench

/-- Nothing is sent to a voice outside the pool. -/
def unicastDuties (pool : VoicePool) (voice : Nat) (message : Text) : Bench → List Duty :=
  if voice < pool.size then Session.sendDuties pool.receiver (addressed voice message)
  else fun _ => []

/-- One directive that resizes the pool, and the size that follows it. -/
def directiveStep (session : Session) (directive : VoicePool → Text)
    (update : VoicePool → VoicePool) : ActionOn VoicePool Unit := do
  ActionOn.onBench fun pool => session.send pool.receiver (directive pool)
  ActionOn.change update

/-- The duties of a number of directives. -/
def directiveDuties (session : Session) (directive : VoicePool → Text)
    (update : VoicePool → VoicePool) (count : Nat) : VoicePool × Bench → List Duty :=
  Duty.along (fun _ : Unit => directiveStep session directive update)
    (fun _ (pool, bench) => Session.sendDuties pool.receiver (directive pool) bench)
    (List.replicate count ())

def shrinkDuties (session : Session) : Nat → VoicePool × Bench → List Duty :=
  directiveDuties session (fun pool => deleteDirective (pool.size - 1))
    fun pool => { pool with size := pool.size - 1 }

def growDuties (session : Session) : Nat → VoicePool × Bench → List Duty :=
  directiveDuties session (fun pool => pool.loadDirective pool.size)
    fun pool => { pool with size := pool.size + 1 }

/-- A pool is not given the size zero. -/
def resizeDuties (session : Session) (target : Nat) (state : VoicePool × Bench) : List Duty :=
  .resize session target state.1 state.2 ::
    if target = 0 then []
    else
      Duty.andThen (shrinkDuties session (state.1.size - target))
        (shrinkBy session (state.1.size - target))
        (fun _ => growDuties session (target - state.1.size)) state

end VoicePool

/-- The duties of a call to a pool. -/
def PoolCall.duties (session : Session) : PoolCall → VoicePool × Bench → List Duty
  | .loadAll => fun (pool, bench) => pool.loadAllDuties session bench
  | .allocate => fun (pool, bench) => [.allocate pool bench]
  | .resize target => VoicePool.resizeDuties session target
  | .broadcast message => fun (pool, bench) => pool.broadcastDuties session message bench
  | .unicast voice message => fun (pool, bench) => pool.unicastDuties voice message bench

/-! ## Synths -/

namespace Synth

def sendSettingsDuties (session : Session) (pool : VoicePool) : List Text → Bench → List Duty :=
  Duty.along (pool.broadcast session) (pool.broadcastDuties session)

/-- The parts of the commands that build the host patch of a channel receiver. -/
def hostParts (channels : Text) : List Command :=
  let input := "input".toList
  let router := "channels".toList
  let output := "dac".toList
  [.object input (Text.spaced ["r".toList, channels]), .object router "channels~".toList,
    .object output "dac~".toList, .object "waveforms".toList "subtractor_waveforms".toList,
    .connect ⟨input, 0, router, 0⟩, .connect ⟨router, 0, output, 0⟩,
    .connect ⟨router, 1, output, 1⟩]

/-- The session is started, the host patch built, every voice loaded and sent every setting. -/
def startDuties (sessionConfig : SessionConfig) (config : SynthConfig) : Bench → List Duty :=
  Duty.andThen (Session.startDuties sessionConfig) (Session.start sessionConfig) fun session =>
    let channels := session.localReceiver config.channelsSuffix
    Duty.andThen (fun _ => Command.buildDuties (hostParts channels))
      (Action.ofChecked (Script.Builder.ofCalls (hostCalls channels)).build) fun host =>
    Duty.andThen (session.runCommandsDuties host) (session.runCommands host) fun _ =>
    Duty.andThen (fun _ => []) (ofOutcome (VoicePool.make channels config)) fun pool =>
    Duty.andThen (pool.loadAllDuties session) (pool.loadAll session) fun _ =>
    Duty.andThen (fun _ => [])
      (ofOutcome (Settings.subtractive.set bendRangeName (.number config.pitchbendRange)))
      fun settings => sendSettingsDuties session pool settings.messages

def toVoiceDuties (voice : Nat) (message : Text) : Synth × Bench → List Duty :=
  fun (synth, bench) => synth.pool.unicastDuties voice message bench

def pitchBendDuties (voice : Nat) (value : Single) : Synth × Bench → List Duty :=
  toVoiceDuties voice (Text.spaced ["pitchbend".toList, value.text])

def voiceVolumeDuties (voice : Nat) (volume : Single) : Synth × Bench → List Duty :=
  toVoiceDuties voice (Text.spaced ["volume".toList, volume.clampToZero.text])

/-- A voice is handed out first, and stays handed out when one of the messages fails. -/
def noteOnDuties (note velocity : UInt8) (volume : Single) : Synth × Bench → List Duty :=
  Duty.andThen (fun (synth, bench) => [.allocate synth.pool bench])
      (onPool fun _ => VoicePool.allocate) fun voice =>
    Duty.andThen (pitchBendDuties voice centeredBend) (pitchBend voice centeredBend) fun _ =>
    Duty.andThen (voiceVolumeDuties voice volume) (voiceVolume voice volume) fun _ =>
      toVoiceDuties voice (Text.spaced [Text.decimal note.toNat, Text.decimal velocity.toNat])

def broadcastSettingDuties (name : Text) : Synth × Bench → List Duty := fun (synth, bench) =>
  Duty.andThen (fun _ => []) (ofOutcome (synth.settings.message name))
    (fun message => synth.pool.broadcastDuties synth.session message) bench

/-- Nothing is sent unless the update is stored. -/
def changeDuties (update : SettingUpdate) : Synth × Bench → List Duty :=
  Duty.andThen (fun _ => []) (store fun settings => settings.update update) fun _ =>
    broadcastSettingDuties update.name

end Synth

/-- The duties of a call to a synth. -/
def SynthCall.duties : SynthCall → Synth × Bench → List Duty
  | .noteOn note velocity volume => Synth.noteOnDuties note velocity volume
  | .noteOff voice note =>
      Synth.toVoiceDuties voice (Text.spaced [Text.decimal note.toNat, "0".toList])
  | .pitchBend voice value => Synth.pitchBendDuties voice value
  | .voiceVolume voice volume => Synth.voiceVolumeDuties voice volume
  | .change update => Synth.changeDuties update
  | .setVoiceCount voices => fun (synth, bench) =>
      VoicePool.resizeDuties synth.session voices (synth.pool, bench)
  | .updateSettings => fun (synth, bench) =>
      Synth.sendSettingsDuties synth.session synth.pool synth.settings.messages bench
  | .session call => fun (synth, bench) => call.duties synth.session bench
  | .engine _ => fun _ => []

/-! ## Calls to the library -/

/-- The duties of a call to the library. -/
def LibraryCall.duties : LibraryCall → Bench → List Duty
  | .construct parts => fun _ => Duty.names parts.names
  | .build parts => fun _ => Command.buildDuties parts
  | .validate command => fun _ => Duty.names command.names
  | .encode command => fun _ => command.encodeDuties
  | .readLine line => fun _ => Duty.names (Command.namesOfLine line)
  | .readScript script => fun _ => Script.readDuties (Script.lines script)
  | .readMessage text => fun _ => [.readMessage text]
  | .onEngine _ => fun _ => []
  | .startSession config => Session.startDuties config
  | .onSession session call => call.duties session
  | .onPool session pool call => fun bench => call.duties session (pool, bench)
  | .startSynth sessionConfig config => Synth.startDuties sessionConfig config
  | .onSynth synth call => fun bench => call.duties (synth, bench)

/-- The duties of a row of calls, the log being the given one before the first of them. -/
def Duty.made (log : ContractLog) : List LibraryStep → List Duty
  | [] => []
  | step :: rest => step.call.duties ⟨step.engine, log⟩ ++ made (log.afterStep step) rest

end DynamicPatching

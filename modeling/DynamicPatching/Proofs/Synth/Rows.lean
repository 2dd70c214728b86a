import DynamicPatching.Synth.Basic
import DynamicPatching.Proofs.Voice.Rows

/-!
# The rows of a synth

A synth acts through its pool and its session, and what it holds besides them are the settings. So
the row of an operation is the row of what it does to the pool (`makes_onPool`), and storing a
setting makes no delivery (`makes_store`). Starting opens the patch first, and everything after that
depends on the patch's handle alone (`start_eq`).
-/

namespace DynamicPatching

/-! ## Opening the patch -/

/-- The bench after a patch was opened. -/
def Bench.afterOpening (bench : Bench) (name directory : Text) : Bench :=
  { bench with
    engine :=
      { bench.engine with
        nextHandle := bench.engine.nextHandle + 1
        opened := bench.engine.opened ++ [⟨name, directory, bench.engine.nextHandle⟩] } }

theorem Action.openPatch_eq {name : Text} (h : name ≠ []) (directory : Text) (bench : Bench) :
    openPatch name directory bench =
      .ok bench.engine.nextHandle (bench.afterOpening name directory) := by
  simp only [openPatch, Engine.openPatch, if_neg h]
  rfl

theorem Action.openPatch_nil_makes (directory : Text) :
    (openPatch [] directory).Makes [] (.error (.delivery ⟨[], .emptyPatchName⟩)) :=
  fun bench => ⟨rfl, bench.engine.acceptAll_nil.symm⟩

namespace Synth

/-- Everything that starting does once the patch is open. -/
def startOn (session : Session) (config : SynthConfig) : Action Synth := do
  session.execute .reset
  Action.note .sessionReady
  let channels := session.localReceiver config.channelsSuffix
  let host ← Action.ofChecked (Script.Builder.ofCalls (hostCalls channels)).build
  session.runCommands host
  let pool ← ofOutcome (VoicePool.make channels config)
  pool.loadAll session
  let settings ←
    ofOutcome (Settings.subtractive.set bendRangeName (.number config.pitchbendRange))
  sendSettings session pool settings.messages
  pure ⟨session, pool, settings⟩

/-- The session of a synth that is started on the bench. -/
def sessionOn (config : SessionConfig) (bench : Bench) : Session :=
  ⟨bench.engine.nextHandle,
    Session.receiverName bench.engine.nextHandle config.interpreterSuffix⟩

/-- Starting is opening the patch, and then a row of steps in a session with its handle. -/
theorem start_bind (sessionConfig : SessionConfig) (config : SynthConfig) :
    start sessionConfig config =
      (Action.openPatch sessionConfig.patch sessionConfig.searchPath >>= fun handle =>
        startOn ⟨handle, Session.receiverName handle sessionConfig.interpreterSuffix⟩ config) := by
  simp only [start, Session.start, startOn, bind_assoc, pure_bind]

theorem start_eq {sessionConfig : SessionConfig} (h : sessionConfig.patch ≠ [])
    (config : SynthConfig) (bench : Bench) :
    start sessionConfig config bench =
      startOn (sessionOn sessionConfig bench) config
        (bench.afterOpening sessionConfig.patch sessionConfig.searchPath) := by
  rw [start_bind]
  change EStateM.bind _ _ bench = _
  rw [EStateM.bind, Action.openPatch_eq h]
  rfl

/-! ## Parts of a synth -/

variable {α : Type} {synth : Synth}

/-- What an action makes on the pool, it makes on the synth. -/
theorem makes_onPool {action : Session → ActionOn VoicePool α} {row : List Delivery}
    {poolAfter : Nat → VoicePool} {ending : Except Error α}
    (h : (action synth.session).Makes synth.pool row poolAfter ending) :
    (onPool action).Makes synth row (fun k => { synth with pool := poolAfter k }) ending := by
  have hpart := ActionOn.makes_onPart Synth.pool (fun pool synth => { synth with pool }) h
  constructor
  · intro bench
    exact ⟨(hpart.delivers bench).outcome_eq, (hpart.delivers bench).engine_eq⟩
  · exact hpart.held_eq

/-- The synth after an update of its settings; an update that fails leaves it as it is. -/
def afterStoring (synth : Synth) (update : Settings → Except Error Settings) : Synth :=
  match update synth.settings with
  | .ok settings => { synth with settings }
  | .error _ => synth

theorem makes_store (update : Settings → Except Error Settings) :
    (store update).Makes synth [] (fun _ => synth.afterStoring update)
      ((update synth.settings).map fun _ => ()) := by
  have hresult : ∀ bench : Bench,
      outcomeOf (store update) (synth, bench) = (update synth.settings).map (fun _ => ()) ∧
        stateAfter (store update) (synth, bench) = (synth.afterStoring update, bench) := by
    intro bench
    simp only [outcomeOf, stateAfter, store, afterStoring]
    cases update synth.settings <;> exact ⟨rfl, rfl⟩
  constructor
  · intro bench
    constructor
    · rw [(hresult bench).1]
      rfl
    · rw [(hresult bench).2, Engine.acceptAll_nil]
  · intro bench
    rw [(hresult bench).2]

/-! ## Playing -/

/-- A message to one voice is one delivery, and none to a voice that the pool does not have. -/
theorem toVoice_makes (h : synth.pool.receiver.IsName) (voice : Nat) (message : Text) :
    (toVoice voice message).Makes synth
      (if voice < synth.pool.size then
        [synth.pool.messageDelivery synth.session (VoicePool.addressed voice message)]
      else [])
      (fun _ => synth)
      (if voice < synth.pool.size then .ok () else .error (.voiceOutOfRange voice synth.pool.size)) :=
  ActionOn.makes_onBench _ (VoicePool.unicast_makes h voice message)

theorem toVoice_makes_of_lt (h : synth.pool.receiver.IsName) {voice : Nat}
    (hvoice : voice < synth.pool.size) (message : Text) :
    (toVoice voice message).Makes synth
      [synth.pool.messageDelivery synth.session (VoicePool.addressed voice message)]
      (fun _ => synth) (.ok ()) := by
  have hrow := toVoice_makes h voice message
  rwa [if_pos hvoice, if_pos hvoice] at hrow

/-- The messages that start a note on a voice. -/
def noteMessages (note velocity : UInt8) (volume : Single) : List Text :=
  [Text.spaced ["pitchbend".toList, centeredBend.text],
    Text.spaced ["volume".toList, volume.clampToZero.text],
    Text.spaced [Text.decimal note.toNat, Text.decimal velocity.toNat]]

/-- The deliveries that start a note on the next voice. -/
def noteRow (synth : Synth) (note velocity : UInt8) (volume : Single) : List Delivery :=
  (noteMessages note velocity volume).map fun message =>
    synth.pool.messageDelivery synth.session (VoicePool.addressed synth.pool.cursor message)

/-- Starting a note moves the cursor before the first of its deliveries. -/
theorem noteOn_makes (h : synth.pool.receiver.IsName) (hcursor : synth.pool.cursor < synth.pool.size)
    (note velocity : UInt8) (volume : Single) :
    (noteOn note velocity volume).Makes synth (synth.noteRow note velocity volume)
      (fun _ => { synth with pool := synth.pool.advance }) (.ok synth.pool.cursor) := by
  have hallocate : (onPool fun _ => VoicePool.allocate).Makes synth []
      (fun _ => { synth with pool := synth.pool.advance }) (.ok synth.pool.cursor) :=
    makes_onPool VoicePool.allocate_makes
  -- the three messages find the pool with the cursor moved, which has the same voices
  have hmessage := @toVoice_makes_of_lt { synth with pool := synth.pool.advance } h _ hcursor
  refine hallocate.bind_still ?_
  refine (hmessage _).bind_still ?_
  refine (hmessage _).bind_still ?_
  exact (hmessage _).bind_still (ActionOn.makes_pure synth.pool.cursor _)

/-! ## Settings and size -/

theorem sendSettings_makes {session : Session} {pool : VoicePool} (h : pool.receiver.IsName)
    (messages : List Text) :
    (sendSettings session pool messages).Makes (messages.flatMap (pool.broadcastRow session))
      (.ok ()) := by
  induction messages with
  | nil => exact Action.makes_pure ()
  | cons message rest ih => exact (VoicePool.broadcast_makes h message).bind ih

theorem updateSettings_makes (h : synth.pool.receiver.IsName) :
    updateSettings.Makes synth
      (synth.settings.messages.flatMap (synth.pool.broadcastRow synth.session)) (fun _ => synth)
      (.ok ()) :=
  ActionOn.makes_onBench _ (sendSettings_makes h synth.settings.messages)

theorem setVoiceCount_makes (h : synth.pool.receiver.IsName) {voices : Nat} (hvoices : voices ≠ 0) :
    (setVoiceCount voices).Makes synth (synth.pool.resizeRow synth.session voices)
      (fun k => { synth with pool := (synth.pool.resized voices k).rewrap }) (.ok ()) :=
  makes_onPool (VoicePool.resize_makes h hvoices)

end Synth

end DynamicPatching

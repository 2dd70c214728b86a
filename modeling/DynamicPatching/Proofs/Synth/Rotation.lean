import DynamicPatching.Proofs.Synth.Parameters
import DynamicPatching.Proofs.Voice.Rotation

/-!
# Notes in turn

Starting a note takes the voice at the cursor before the first of its messages, so the turn is spent
whether or not the messages are delivered, and no other call of a synth but a resize touches the
cursor (`SynthCall.becomes_stateAfter`). The notes of a run without a resize therefore go round the
pool, as the voices do that a pool hands out by itself, and what each note delivers is known from the
number of notes before it (`voices_in_turn`).
-/

namespace DynamicPatching

/-! ## The pool of a synth -/

namespace Synth

variable {pool : VoicePool}

/-- A change of a setting leaves the pool alone. -/
theorem change_keeps_pool (update : SettingUpdate) :
    (SynthCall.change update).run.Keeps (fun synth => synth.pool = pool) := by
  have hstore : ∀ change, (store change).Keeps (fun synth => synth.pool = pool) := by
    intro change synth bench h
    rw [(makes_store change).held_eq, afterStoring]
    split
    · exact h
    · exact h
  cases update with
  | whole name value =>
      exact ((hstore _).bind fun _ => ActionOn.keeps_onBench _).bind fun _ => ActionOn.keeps_pure _
  | element name index value =>
      exact ((hstore _).bind fun _ => ActionOn.keeps_onBench _).bind fun _ => ActionOn.keeps_pure _

/-- Starting a note moves the cursor on, whether or not its messages are delivered. -/
theorem pool_stateAfter_noteOn (note velocity : UInt8) (volume : Single) (state : Synth × Bench) :
    (stateAfter (SynthCall.noteOn note velocity volume).run state).1.pool =
      state.1.pool.advance := by
  have hmessages : ∀ voice : Nat, ActionOn.Keeps (fun synth => synth.pool = state.1.pool.advance)
      (do
        pitchBend voice centeredBend
        voiceVolume voice volume
        toVoice voice (Text.spaced [Text.decimal note.toNat, Text.decimal velocity.toNat])
        pure voice) := by
    intro voice
    refine (ActionOn.keeps_onBench _).bind fun _ => ?_
    refine (ActionOn.keeps_onBench _).bind fun _ => ?_
    exact (ActionOn.keeps_onBench _).bind fun _ => ActionOn.keeps_pure voice
  rw [SynthCall.run, stateAfter_bind_pure, noteOn, stateAfter_bind]
  -- the messages find the pool with its cursor moved on, and leave it so
  exact hmessages state.1.pool.cursor _ _ rfl

end Synth

/-! ## Calls -/

namespace SynthCall

/-- The call takes a voice for a note. -/
def takesVoice : SynthCall → Bool
  | .noteOn _ _ _ => true
  | _ => false

/-- The voice that a call takes for a note, whether or not the note is started. -/
def voice? (state : Synth × Bench) (call : SynthCall) : Option Nat :=
  if call.takesVoice then some state.1.pool.cursor else none

/-- The call resizes the pool. -/
def IsResize (call : SynthCall) : Prop := ∃ voices, call = .setVoiceCount voices

theorem isSome_voice? (state : Synth × Bench) (call : SynthCall) :
    (call.voice? state).isSome = call.takesVoice := by
  rw [voice?]
  cases call.takesVoice <;> rfl

/-- What becomes of the pool by a call, whatever its outcome. -/
theorem becomes_stateAfter {state : Synth × Bench}
    (hcursor : state.1.pool.cursor < state.1.pool.size) (call : SynthCall) :
    state.1.pool.Becomes call.IsResize (call.voice? state) (stateAfter state call).1.pool := by
  -- only a note moves the cursor, and only a resize changes the size
  have hsame : ∀ {call : SynthCall}, call.takesVoice = false →
      call.run.Keeps (fun synth => synth.pool = state.1.pool) →
      state.1.pool.Becomes call.IsResize (call.voice? state) (stateAfter state call).1.pool := by
    intro call htakes hkeeps
    rw [voice?, htakes, stateAfter, hkeeps state.1 state.2 rfl]
    exact .same
  have hbench : ∀ action : Synth → Action Unit,
      (ActionOn.onBench action >>= fun _ => (pure none : ActionOn Synth (Option Nat))).Keeps
        (fun synth => synth.pool = state.1.pool) :=
    fun _ => (ActionOn.keeps_onBench _).bind fun _ => ActionOn.keeps_pure none
  cases call with
  | noteOn note velocity volume =>
      rw [stateAfter, Synth.pool_stateAfter_noteOn]
      exact .advanced
  | setVoiceCount voices =>
      rw [stateAfter, run, stateAfter_bind_pure, Synth.setVoiceCount, Synth.stateAfter_onPool]
      exact (VoicePool.becomes_resize hcursor voices state.2).imp fun _ => ⟨voices, rfl⟩
  | noteOff voice note => exact hsame rfl (hbench _)
  | pitchBend voice value => exact hsame rfl (hbench _)
  | voiceVolume voice volume => exact hsame rfl (hbench _)
  | change update => exact hsame rfl (Synth.change_keeps_pool update)
  | updateSettings => exact hsame rfl (hbench _)
  | session call => exact hsame rfl (hbench _)
  | engine call => exact hsame rfl (ActionOn.keeps_onBench _)

end SynthCall

/-! ## Notes -/

/-- The call gives the voice its turn, whatever the engine accepts. It delivers the three messages
for that voice, as many as the engine has room for, and yields the voice exactly if these are all. -/
structure Synth.StartsNote (state : Synth × Bench) (voice : Nat) (note velocity : UInt8)
    (volume : Single) : Prop where
  turn : state.1.pool.GivesTurn voice
    (SynthCall.stateAfter state (.noteOn note velocity volume)).1.pool
  delivers :
    let messages :=
      [Text.spaced [Text.decimal voice, "pitchbend 64".toList],
        Text.spaced [Text.decimal voice, "volume".toList, volume.clampToZero.text],
        Text.spaced [Text.decimal voice, Text.decimal note.toNat, Text.decimal velocity.toNat]]
    let count := state.2.engine.room 3
    (SynthCall.noteOn note velocity volume).DeliversMessages state (messages.take count)
      (if count = 3 then .ok (some voice)
        else .error (.delivery ⟨state.1.session.interpreter, .refused⟩))

/-- The messages that start a note, behind the number of the voice. -/
theorem Synth.addressed_noteMessages (voice : Nat) (note velocity : UInt8) (volume : Single) :
    (noteMessages note velocity volume).map (VoicePool.addressed voice) =
      [Text.spaced [Text.decimal voice, "pitchbend 64".toList],
        Text.spaced [Text.decimal voice, "volume".toList, volume.clampToZero.text],
        Text.spaced [Text.decimal voice, Text.decimal note.toNat, Text.decimal velocity.toNat]] := by
  have hbend : Text.spaced ["pitchbend".toList, centeredBend.text] = "pitchbend 64".toList := by
    decide +kernel
  rw [noteMessages, hbend, List.map_cons, List.map_cons, List.map_singleton,
    VoicePool.addressed_spaced (List.cons_ne_nil _ _),
    VoicePool.addressed_spaced (List.cons_ne_nil _ _)]
  rfl

theorem Synth.startsNote {receiver : Text} {state : Synth × Bench} (h : state.1.IsSound receiver)
    (note velocity : UInt8) (volume : Single) :
    StartsNote state state.1.pool.cursor note velocity volume := by
  have hmakes := (noteOn_makes h.receiver_isName h.cursor_lt note velocity volume).bind_pure some
  have hrow : state.1.noteRow note velocity volume =
      ((noteMessages note velocity volume).map (VoicePool.addressed state.1.pool.cursor)).map
        (state.1.pool.messageDelivery state.1.session) :=
    (List.map_map).symm
  rw [hrow, addressed_noteMessages] at hmakes
  constructor
  · rw [SynthCall.stateAfter, pool_stateAfter_noteOn]
    exact VoicePool.givesTurn_advance h.cursor_lt
  · exact @deliversMessages_of_makes _ (.noteOn note velocity volume) _ _ _ h.receiver_isName hmakes
      state.2

/-! ## Runs -/

/-- **Voices in turn.** Take a started synth, or a pool by itself, after any calls, whatever their
outcomes, and a run of more calls that keeps the size, as every run without a resize does; between the
calls to the pool anything may happen on the bench. The voices that the run takes go round the pool
from the cursor on, so as many in a row as the pool has are all voices, once each, and a voice has its
next turn when all others have had one. Each note takes the voice whose turn it is and moves the
cursor on once, whatever is delivered, and so does each handing out by the pool, which always
succeeds. -/
theorem voices_in_turn {sessionConfig : SessionConfig} {config : SynthConfig} {bench started : Bench}
    {synth : Synth} (hstart : Synth.start sessionConfig config bench = .ok synth started)
    {receiver : Text} {poolConfig : SynthConfig} {pool : VoicePool}
    (hmake : VoicePool.make receiver poolConfig = .ok pool) (opened : Bench) :
    (∀ earlier calls : List SynthCall,
      let reached := SynthCall.after (synth, started) earlier
      let size := reached.1.pool.size
      let first := reached.1.pool.cursor
      let poolOf := fun state : Synth × Bench => state.1.pool
      ((∀ call ∈ calls, ¬ call.IsResize) → KeepsSize SynthCall.stateAfter poolOf reached calls) ∧
      (KeepsSize SynthCall.stateAfter poolOf reached calls →
        RoundRobin size first (handedOut SynthCall.stateAfter SynthCall.voice? reached calls) ∧
        ∀ before note velocity volume later,
          calls = before ++ .noteOn note velocity volume :: later →
            Synth.StartsNote (SynthCall.after reached before)
              ((first + before.countP SynthCall.takesVoice) % size) note velocity volume)) ∧
    ∀ earlier events : List PoolEvent,
      let reached := PoolEvent.after (pool, opened) earlier
      let size := reached.1.size
      let first := reached.1.cursor
      ((∀ event ∈ events, ¬ event.IsResize) →
        KeepsSize PoolEvent.stateAfter Prod.fst reached events) ∧
      (KeepsSize PoolEvent.stateAfter Prod.fst reached events →
        RoundRobin size first (handedOut PoolEvent.stateAfter PoolEvent.voice? reached events) ∧
        ∀ before session later, events = before ++ .onPool session .allocate :: later →
          let state := PoolEvent.after reached before
          let voice := (first + before.countP PoolEvent.allocates) % size
          outcomeOf (PoolCall.allocate.run session) state = .ok (some voice) ∧
            state.1.GivesTurn voice
              (PoolEvent.stateAfter state (.onPool session .allocate)).1) := by
  constructor
  · intro earlier calls reached size first poolOf
    have houtcome : outcomeOf (Synth.start sessionConfig config) bench = .ok synth := by
      rw [outcomeOf, hstart]
    have hsound : reached.1.IsSound synth.pool.receiver :=
      @SynthCall.isSound_after _ (synth, started) (Synth.isSound_of_start houtcome) earlier
    have hstep := fun state call hcursor => @SynthCall.becomes_stateAfter state hcursor call
    refine ⟨keepsSize_of_becomes hstep hsound.cursor_lt, fun hsize => ⟨?_, ?_⟩⟩
    · exact roundRobin_of_becomes hstep hsound.cursor_lt hsize
    · intro before note velocity volume later hcalls
      have hbefore : before <+: calls := ⟨_, hcalls.symm⟩
      obtain ⟨hcursor, -⟩ :=
        cursor_of_becomes hstep hsound.cursor_lt SynthCall.isSome_voice? hsize hbefore
      have hnote := Synth.startsNote (SynthCall.isSound_after hsound before) note velocity volume
      rwa [show (SynthCall.after reached before).1.pool.cursor = _ from hcursor] at hnote
  · intro earlier events reached size first
    obtain ⟨hvoices, rfl⟩ := VoicePool.make_eq_ok_iff.1 hmake
    have hfirst : first < size := (PoolEvent.after_sound (Nat.pos_of_ne_zero hvoices) earlier).1
    have hstep := fun state event hcursor => @PoolEvent.becomes_stateAfter state hcursor event
    refine ⟨keepsSize_of_becomes hstep hfirst, fun hsize => ⟨?_, ?_⟩⟩
    · exact roundRobin_of_becomes hstep hfirst hsize
    · intro before session later hevents
      have hbefore : before <+: events := ⟨_, hevents.symm⟩
      obtain ⟨hcursor, hlt⟩ :=
        cursor_of_becomes hstep hfirst PoolEvent.isSome_voice? hsize hbefore
      have hturn := PoolEvent.allocate_givesTurn hlt session
      rwa [hcursor] at hturn

/-- Of three notes on two voices the second is cut off by a refusal, and the third takes the first
voice again. A pool hands out its voices in turn although a message in between names no voice. -/
theorem voices_in_turn_refused :
    let note : SynthCall := .noteOn 60 100 (Single.ofNat 1)
    let calls : List SynthCall := [note, .engine (.failAfter 1), note, .noteOff 0 60, note]
    let session : Session := ⟨1001, "1001-interpreter".toList⟩
    let events : List PoolEvent :=
      [.onPool session .allocate, .onPool session (.unicast 9 "60 0".toList),
        .other (.onEngine (.failAfter 0)), .onPool session .allocate]
    ∃ synth started pool, Synth.start {} { voices := 2 } Bench.fresh = .ok synth started ∧
      VoicePool.make "1001-channels".toList { voices := 2 } = .ok pool ∧
      RoundRobin 2 0 (handedOut SynthCall.stateAfter SynthCall.voice? (synth, started) calls) ∧
      Synth.StartsNote (SynthCall.after (synth, started) (calls.take 4)) 0 60 100 (Single.ofNat 1) ∧
      RoundRobin 2 0 (handedOut PoolEvent.stateAfter PoolEvent.voice? (pool, Bench.fresh) events) := by
  intro note calls session events
  have hruns : (match Synth.start {} { voices := 2 } Bench.fresh with
      | .ok synth _ => decide (synth.pool.size = 2 ∧ synth.pool.cursor = 0)
      | .error _ _ => false) = true := by
    decide +kernel
  cases hstart : Synth.start {} { voices := 2 } Bench.fresh with
  | error error after =>
      rw [hstart] at hruns
      cases hruns
  | ok synth started =>
      rw [hstart] at hruns
      obtain ⟨hsize, hcursor⟩ := of_decide_eq_true hruns
      have hmake : VoicePool.make "1001-channels".toList { voices := 2 } =
          .ok (Synth.startPool "1001-channels".toList { voices := 2 }) := rfl
      obtain ⟨hsynth, hpool⟩ := voices_in_turn hstart hmake Bench.fresh
      obtain ⟨hkept, hturns⟩ := hsynth [] calls
      obtain ⟨hkept', hturns'⟩ := hpool [] events
      have hcalls : ∀ call ∈ calls, ¬ call.IsResize := by
        simp [calls, note, SynthCall.IsResize]
      have hevents : ∀ event ∈ events, ¬ event.IsResize := by
        simp [events, PoolEvent.IsResize]
      obtain ⟨hrow, hnotes⟩ := hturns (hkept hcalls)
      have hnote := hnotes (calls.take 4) 60 100 (Single.ofNat 1) [] rfl
      dsimp only [SynthCall.after, List.foldl_nil] at hrow hnote
      have hvoice : (0 + (calls.take 4).countP SynthCall.takesVoice) % 2 = 0 := by decide
      rw [hsize, hcursor] at hrow hnote
      rw [hvoice] at hnote
      exact ⟨synth, started, _, rfl, hmake, hrow, hnote, (hturns' (hkept' hevents)).1⟩

end DynamicPatching

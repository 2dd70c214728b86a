import DynamicPatching.Synth.Call
import DynamicPatching.Proofs.Setting.Declaration
import DynamicPatching.Proofs.Synth.Rows

/-!
# Reachable synths

A started synth has voices, a cursor among them, a receiver that is a name, and the declared settings
(`Synth.IsSound`). That the receiver is a name was never tested by itself: the first voice could not
have been loaded otherwise (`VoicePool.isName_of_loadAll`). Every call keeps this, also one that
stops halfway, because a call changes no more than the cursor, the size and the values of settings
(`SynthCall.isSound_stateAfter`). So playing, resizing and sending the settings fail in no reachable
state unless a delivery is refused (`Synth.reachable_isSound`).
-/

namespace DynamicPatching

/-! ## What is kept -/

/-- Whether or not the action succeeds, it keeps the property of the held value. -/
def ActionOn.Keeps {σ α : Type} (kept : σ → Prop) (action : ActionOn σ α) : Prop :=
  ∀ (held : σ) (bench : Bench), kept held → kept (stateAfter action (held, bench)).1

namespace ActionOn

variable {σ α β : Type} {kept : σ → Prop}

theorem keeps_pure (value : α) : Keeps kept (pure value) := fun _ _ hheld => hheld

theorem keeps_onBench (action : σ → Action α) : Keeps kept (onBench action) := by
  intro held bench hheld
  rw [stateAfter_onBench]
  exact hheld

theorem Keeps.bind {first : ActionOn σ α} {next : α → ActionOn σ β} (hfirst : Keeps kept first)
    (hnext : ∀ value, Keeps kept (next value)) : Keeps kept (first >>= next) := by
  intro held bench hheld
  have hmiddle := hfirst held bench hheld
  rw [stateAfter_bind]
  cases outcomeOf first (held, bench) with
  | error error => exact hmiddle
  | ok value => exact hnext value _ _ hmiddle

end ActionOn

/-! ## Pools -/

namespace VoicePool

variable {session : Session} {pool : VoicePool}

theorem make_eq_ok_iff {receiver : Text} {config : SynthConfig} :
    make receiver config = .ok pool ↔
      config.voices ≠ 0 ∧
        pool = ⟨receiver, config.synthType, config.channelLayout, config.voices, 0⟩ := by
  rw [make]
  split
  · simp_all
  · simp_all [eq_comm]

/-- A voice is only loaded for a receiver that is a name. -/
theorem isName_of_loadAll {bench : Bench} (hsize : pool.size ≠ 0)
    (h : outcomeOf (pool.loadAll session) bench = .ok ()) : pool.receiver.IsName := by
  obtain ⟨count, hcount⟩ := Nat.exists_eq_succ_of_ne_zero hsize
  rw [loadAll, hcount, Action.forNumbers] at h
  -- the first load constructed a command for the receiver
  obtain ⟨_, hload, -⟩ := outcomeOf_bind_eq_ok_iff.1 h
  obtain ⟨command, hcommand, -⟩ := outcomeOf_bind_eq_ok_iff.1 hload
  rw [Action.outcomeOf_ofChecked] at hcommand
  exact (Command.requireName_then_eq_ok_iff.1 hcommand).1

/-- However far the row for a target gets, voices are left. -/
theorem resized_size_pos {target k : Nat} (htarget : target ≠ 0) (hsize : 1 ≤ pool.size)
    (hk : k ≤ (pool.resizeRow session target).length) : 1 ≤ (pool.resized target k).size := by
  rw [resizeRow] at hk
  rw [resized]
  split
  · rename_i hle
    rw [if_pos hle, length_deletions] at hk
    change 1 ≤ pool.size - k
    omega
  · change 1 ≤ pool.size + k
    omega

theorem resized_receiver (target k : Nat) : (pool.resized target k).receiver = pool.receiver := by
  rw [resized]
  split <;> rfl

end VoicePool

/-! ## Sound synths -/

namespace Synth

/-- The synth has voices and its cursor is one of them, its receiver is the given one and a name,
and its settings are declared as those of the subtractive voice. -/
structure IsSound (receiver : Text) (synth : Synth) : Prop where
  size_pos : 1 ≤ synth.pool.size
  cursor_lt : synth.pool.cursor < synth.pool.size
  receiver_eq : synth.pool.receiver = receiver
  isName : receiver.IsName
  declarations_eq : synth.settings.declarations = Settings.subtractive.declarations

variable {receiver : Text} {synth : Synth}

theorem IsSound.receiver_isName (h : synth.IsSound receiver) : synth.pool.receiver.IsName := by
  rw [h.receiver_eq]
  exact h.isName

theorem outcomeOf_ofOutcome {α : Type} (outcome : Except Error α) (bench : Bench) :
    outcomeOf (ofOutcome outcome) bench = outcome :=
  Action.outcomeOf_ofChecked ⟨outcome, []⟩ bench

/-- A synth that was started is sound. -/
theorem isSound_of_start {sessionConfig : SessionConfig} {config : SynthConfig} {bench : Bench}
    (h : outcomeOf (start sessionConfig config) bench = .ok synth) :
    synth.IsSound synth.pool.receiver := by
  rw [start_bind] at h
  obtain ⟨handle, -, h⟩ := outcomeOf_bind_eq_ok_iff.1 h
  obtain ⟨_, -, h⟩ := outcomeOf_bind_eq_ok_iff.1 h
  obtain ⟨_, -, h⟩ := outcomeOf_bind_eq_ok_iff.1 h
  obtain ⟨host, -, h⟩ := outcomeOf_bind_eq_ok_iff.1 h
  obtain ⟨_, -, h⟩ := outcomeOf_bind_eq_ok_iff.1 h
  -- behind the host patch come the pool, its loads and the settings
  obtain ⟨pool, hpool, h⟩ := outcomeOf_bind_eq_ok_iff.1 h
  obtain ⟨_, hload, h⟩ := outcomeOf_bind_eq_ok_iff.1 h
  obtain ⟨settings, hsettings, h⟩ := outcomeOf_bind_eq_ok_iff.1 h
  obtain ⟨_, -, h⟩ := outcomeOf_bind_eq_ok_iff.1 h
  obtain rfl := Except.ok.inj h
  rw [outcomeOf_ofOutcome] at hpool hsettings
  obtain ⟨hvoices, rfl⟩ := VoicePool.make_eq_ok_iff.1 hpool
  have hpos : 1 ≤ config.voices := Nat.one_le_iff_ne_zero.2 hvoices
  have hname := VoicePool.isName_of_loadAll hvoices hload
  have hdeclared : settings.declarations = Settings.subtractive.declarations :=
    Settings.declarations_set hsettings
  exact ⟨hpos, hpos, rfl, hname, hdeclared⟩

/-! ## Operations keep soundness -/

theorem allocate_keeps : (onPool fun _ => VoicePool.allocate).Keeps (IsSound receiver) := by
  intro synth bench h
  have hmakes : (onPool fun _ => VoicePool.allocate).Makes synth []
      (fun _ => { synth with pool := synth.pool.advance }) (.ok synth.pool.cursor) :=
    makes_onPool VoicePool.allocate_makes
  rw [hmakes.held_eq]
  exact ⟨h.size_pos, Nat.mod_lt _ h.size_pos, h.receiver_eq, h.isName, h.declarations_eq⟩

theorem setVoiceCount_keeps (voices : Nat) : (setVoiceCount voices).Keeps (IsSound receiver) := by
  intro synth bench h
  by_cases hvoices : voices = 0
  · subst hvoices
    have hmakes : (setVoiceCount 0).Makes synth [] (fun _ => synth)
        (.error (.invalidVoiceCount 0)) :=
      makes_onPool VoicePool.resize_zero_makes
    rw [hmakes.held_eq]
    exact h
  · obtain ⟨k, hk, hheld, -⟩ :=
      (setVoiceCount_makes h.receiver_isName hvoices).accepted_eq bench
    have hsize := VoicePool.resized_size_pos hvoices h.size_pos hk
    rw [hheld]
    refine ⟨hsize, Nat.mod_lt _ hsize, ?_, h.isName, h.declarations_eq⟩
    rw [← h.receiver_eq]
    exact VoicePool.resized_receiver voices k

/-- Storing keeps soundness when a successful update keeps the declarations. -/
theorem store_keeps {update : Settings → Except Error Settings}
    (hupdate : ∀ settings updated, update settings = .ok updated →
      updated.declarations = settings.declarations) :
    (store update).Keeps (IsSound receiver) := by
  intro synth bench h
  rw [(makes_store update).held_eq, afterStoring]
  split
  · rename_i settings hsettings
    refine ⟨h.size_pos, h.cursor_lt, h.receiver_eq, h.isName, ?_⟩
    rw [← h.declarations_eq]
    exact hupdate _ _ hsettings
  · exact h

theorem noteOn_keeps (note velocity : UInt8) (volume : Single) :
    (noteOn note velocity volume).Keeps (IsSound receiver) := by
  refine allocate_keeps.bind fun voice => ?_
  refine (ActionOn.keeps_onBench _).bind fun _ => ?_
  refine (ActionOn.keeps_onBench _).bind fun _ => ?_
  exact (ActionOn.keeps_onBench _).bind fun _ => ActionOn.keeps_pure voice

end Synth

/-! ## Calls -/

namespace SynthCall

variable {receiver : Text}

theorem run_keeps (call : SynthCall) : call.run.Keeps (Synth.IsSound receiver) := by
  cases call with
  | noteOn note velocity volume =>
      exact (Synth.noteOn_keeps note velocity volume).bind fun _ => ActionOn.keeps_pure _
  | noteOff voice note =>
      exact (ActionOn.keeps_onBench _).bind fun _ => ActionOn.keeps_pure _
  | pitchBend voice value =>
      exact (ActionOn.keeps_onBench _).bind fun _ => ActionOn.keeps_pure _
  | voiceVolume voice volume =>
      exact (ActionOn.keeps_onBench _).bind fun _ => ActionOn.keeps_pure _
  | change update =>
      cases update with
      | whole name value =>
          have hstore := @Synth.store_keeps receiver (fun settings => settings.set name value)
            fun _ _ => Settings.declarations_set
          exact (hstore.bind fun _ => ActionOn.keeps_onBench _).bind fun _ => ActionOn.keeps_pure _
      | element name index value =>
          have hstore := @Synth.store_keeps receiver
            (fun settings => settings.setElement name index value)
            fun _ _ => Settings.declarations_setElement
          exact (hstore.bind fun _ => ActionOn.keeps_onBench _).bind fun _ => ActionOn.keeps_pure _
  | setVoiceCount voices =>
      exact (Synth.setVoiceCount_keeps voices).bind fun _ => ActionOn.keeps_pure _
  | updateSettings =>
      exact (ActionOn.keeps_onBench _).bind fun _ => ActionOn.keeps_pure _
  | session call =>
      exact (ActionOn.keeps_onBench _).bind fun _ => ActionOn.keeps_pure _
  | engine call => exact ActionOn.keeps_onBench _

/-- One call keeps a synth sound, whatever its outcome. -/
theorem isSound_stateAfter {state : Synth × Bench} (h : state.1.IsSound receiver)
    (call : SynthCall) : (stateAfter state call).1.IsSound receiver :=
  run_keeps call state.1 state.2 h

/-- So does every row of calls. -/
theorem isSound_after {state : Synth × Bench} (h : state.1.IsSound receiver)
    (calls : List SynthCall) : (after state calls).1.IsSound receiver := by
  induction calls generalizing state with
  | nil => exact h
  | cons call rest ih => exact ih (isSound_stateAfter h call)

end SynthCall

/-! ## Calls in reachable states -/

namespace ActionOn

variable {σ α : Type}

/-- The action fails in no other way than by a refused delivery, and without a limit it succeeds. -/
structure FailsOnlyInDelivery (action : ActionOn σ α) (state : σ × Bench) : Prop where
  error_eq : ∀ error, outcomeOf action state = .error error → ∃ cause, error = .delivery cause
  succeeds : state.2.engine.limit = none → ∃ value, outcomeOf action state = .ok value

theorem Makes.failsOnlyInDelivery {action : ActionOn σ α} {held : σ} {row : List Delivery}
    {heldAfter : Nat → σ} {value : α} (h : action.Makes held row heldAfter (.ok value))
    (bench : Bench) : action.FailsOnlyInDelivery (held, bench) := by
  have houtcome := (h.delivers bench).outcome_eq
  constructor
  · intro error herror
    rw [houtcome] at herror
    cases hrefusal : bench.engine.refusal? row with
    | none =>
        rw [hrefusal] at herror
        cases herror
    | some cause =>
        rw [hrefusal] at herror
        exact ⟨cause, (Except.error.inj herror).symm⟩
  · intro hlimit
    have hroom : bench.engine.room row.length = row.length := by
      rw [Engine.room, hlimit]
    refine ⟨value, ?_⟩
    rw [houtcome, Engine.refusal?_eq_none_iff.2 hroom]
    rfl

/-- The action fails because the pool does not have the voice, and delivers nothing. -/
structure RejectsVoice (action : ActionOn Synth α) (voice : Nat) (state : Synth × Bench) :
    Prop where
  outcome_eq : outcomeOf action state = .error (.voiceOutOfRange voice state.1.pool.size)
  engine_eq : (stateAfter action state).2.engine = state.2.engine

end ActionOn

namespace Synth

variable {synth : Synth}

theorem toVoice_failsOnlyInDelivery (h : synth.pool.receiver.IsName) {voice : Nat}
    (hvoice : voice < synth.pool.size) (message : Text) (bench : Bench) :
    (toVoice voice message).FailsOnlyInDelivery (synth, bench) :=
  (toVoice_makes_of_lt h hvoice message).failsOnlyInDelivery bench

theorem toVoice_rejectsVoice (h : synth.pool.receiver.IsName) {voice : Nat}
    (hvoice : synth.pool.size ≤ voice) (message : Text) (bench : Bench) :
    (toVoice voice message).RejectsVoice voice (synth, bench) := by
  have hrow := (toVoice_makes h voice message).delivers bench
  rw [if_neg (Nat.not_lt.2 hvoice), if_neg (Nat.not_lt.2 hvoice)] at hrow
  obtain ⟨houtcome, hengine⟩ := hrow.of_nil
  exact ⟨houtcome, hengine⟩

/-- **Reachable synths are sound.** Take a synth that was started, and any row of calls to it, its
session and its engine, whatever their outcomes. It has voices, its cursor is one of them, its
receiver is the first one and a name, and its settings are declared as at first. So starting a note,
sending the settings, resizing to at least one voice and the calls for one voice fail only when a
delivery is refused, and the latter reject a voice that the pool does not have. The cursor is never
wrapped into an empty pool. -/
theorem reachable_isSound {sessionConfig : SessionConfig} {config : SynthConfig} {bench : Bench}
    {synth : Synth} {started : Bench} (hstart : start sessionConfig config bench = .ok synth started)
    (calls : List SynthCall) :
    let reached := SynthCall.after (synth, started) calls
    reached.1.IsSound synth.pool.receiver ∧
      (∀ note velocity volume, (noteOn note velocity volume).FailsOnlyInDelivery reached) ∧
      updateSettings.FailsOnlyInDelivery reached ∧
      (∀ voices, 1 ≤ voices → (setVoiceCount voices).FailsOnlyInDelivery reached) ∧
      (∀ voice, voice < reached.1.pool.size →
        (∀ note, (noteOff voice note).FailsOnlyInDelivery reached) ∧
        (∀ value, (pitchBend voice value).FailsOnlyInDelivery reached) ∧
        ∀ volume, (voiceVolume voice volume).FailsOnlyInDelivery reached) ∧
      (∀ voice, reached.1.pool.size ≤ voice →
        (∀ note, (noteOff voice note).RejectsVoice voice reached) ∧
        (∀ value, (pitchBend voice value).RejectsVoice voice reached) ∧
        ∀ volume, (voiceVolume voice volume).RejectsVoice voice reached) ∧
      reached.1.pool.size ≠ 0 ∧
      ∀ voices, voices ≠ 0 →
        (stateAfter (VoicePool.stepTowards reached.1.session voices)
          (reached.1.pool, reached.2)).1.size ≠ 0 := by
  intro reached
  have houtcome : outcomeOf (start sessionConfig config) bench = .ok synth := by
    rw [outcomeOf, hstart]
  have hsound : reached.1.IsSound synth.pool.receiver :=
    @SynthCall.isSound_after _ (synth, started) (isSound_of_start houtcome) calls
  have hname := hsound.receiver_isName
  refine ⟨hsound, ?_, ?_, ?_, ?_, ?_, ?_, ?_⟩
  · intro note velocity volume
    exact (noteOn_makes hname hsound.cursor_lt note velocity volume).failsOnlyInDelivery reached.2
  · exact (updateSettings_makes hname).failsOnlyInDelivery reached.2
  · intro voices hvoices
    exact (setVoiceCount_makes hname (Nat.one_le_iff_ne_zero.1 hvoices)).failsOnlyInDelivery
      reached.2
  · intro voice hvoice
    refine ⟨?_, ?_, ?_⟩
    · intro note
      exact toVoice_failsOnlyInDelivery hname hvoice _ reached.2
    · intro value
      exact toVoice_failsOnlyInDelivery hname hvoice _ reached.2
    · intro volume
      exact toVoice_failsOnlyInDelivery hname hvoice _ reached.2
  · intro voice hvoice
    refine ⟨?_, ?_, ?_⟩
    · intro note
      exact toVoice_rejectsVoice hname hvoice _ reached.2
    · intro value
      exact toVoice_rejectsVoice hname hvoice _ reached.2
    · intro volume
      exact toVoice_rejectsVoice hname hvoice _ reached.2
  · exact Nat.one_le_iff_ne_zero.1 hsound.size_pos
  · intro voices hvoices
    obtain ⟨k, hk, hheld, -⟩ := (VoicePool.stepTowards_makes hname voices).accepted_eq reached.2
    rw [hheld]
    exact Nat.one_le_iff_ne_zero.1 (VoicePool.resized_size_pos hvoices hsound.size_pos hk)

/-- A synth whose resize is interrupted, that steals a voice while deliveries are refused and is given
a value of the wrong variant, can still be resized. -/
theorem reachable_isSound_interrupted :
    let calls : List SynthCall :=
      [.engine (.failAfter 2), .setVoiceCount 5, .noteOn 60 100 (Single.ofNat 1),
        .change (.whole "volume".toList (.symbol "loud".toList)), .engine .recover]
    ∃ synth started, start {} { voices := 2 } Bench.fresh = .ok synth started ∧
      (SynthCall.after (synth, started) calls).1.IsSound synth.pool.receiver ∧
      (setVoiceCount 5).FailsOnlyInDelivery (SynthCall.after (synth, started) calls) := by
  intro calls
  have hstarts : (outcomeOf (start {} { voices := 2 }) Bench.fresh).isOk = true := by
    decide +kernel
  cases hstart : start {} { voices := 2 } Bench.fresh with
  | error error after =>
      rw [outcomeOf, hstart] at hstarts
      cases hstarts
  | ok synth started =>
      obtain ⟨hsound, -, -, hresize, -⟩ := reachable_isSound hstart calls
      exact ⟨synth, started, rfl, hsound, hresize 5 (by decide)⟩

end Synth

end DynamicPatching

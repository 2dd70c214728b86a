import DynamicPatching.Library.Call
import DynamicPatching.Proofs.Synth.Truncation

/-!
# Calls through the interpreter

Apart from direct deliveries, which name their receiver, whatever is called on a session, on a pool
or on a synth reaches the engine as lists to the interpreter of one session, whether or not the call
succeeds (`LibraryCall.run_sends`).
-/

namespace DynamicPatching

/-! ## Yielding a value -/

theorem Action.Sends.bind_pure {α β : Type} {receiver : Text} {action : Action α}
    (h : action.Sends receiver) (result : α → β) :
    Action.Sends receiver (action >>= fun value => pure (result value)) :=
  h.bind fun value => sends_pure (result value)

theorem ActionOn.Sends.bind_pure {σ α β : Type} {receiver : Text} {kept : σ → Prop}
    {action : ActionOn σ α} (h : action.Sends receiver kept) (result : α → β) :
    ActionOn.Sends receiver kept (action >>= fun value => pure (result value)) :=
  h.bind fun value => sends_pure (result value)

/-! ## Sessions and pools -/

namespace Session

variable {session : Session}

/-- Everything that starting a session does once the patch is open. -/
theorem ready_sends (session : Session) :
    Action.Sends session.interpreter (do
      session.execute .reset
      Action.note .sessionReady
      pure session) :=
  (execute_sends .reset).bind fun _ =>
    (Action.sends_note .sessionReady).bind fun _ => Action.sends_pure session

theorem runLines_sends (lines : List Text) :
    (session.runLines lines).Sends session.interpreter := by
  induction lines with
  | nil => exact Action.sends_pure ()
  | cons line rest ih => exact (perform_sends _).bind fun _ => ih

theorem runScript_sends (script : Text) :
    (session.runScript script).Sends session.interpreter :=
  (runLines_sends _).bind fun _ => Action.sends_note .scriptInOrder

end Session

/-- The call is not a direct delivery. -/
def SessionCall.IsInterpreted : SessionCall → Prop
  | .sendMessage _ _ | .sendText _ _ | .deliver _ _ => False
  | _ => True

theorem SessionCall.run_sends {session : Session} {call : SessionCall} (h : call.IsInterpreted) :
    (call.run session).Sends session.interpreter := by
  cases call with
  | runScript script => exact Session.runScript_sends script
  | runCommands commands => exact Session.runCommands_sends commands
  | execute command => exact Session.execute_sends command
  | make parts => exact Session.perform_sends parts.remake
  | send receiver message => exact Session.send_sends receiver message
  | sendMessage receiver message => exact h.elim
  | sendText receiver text => exact h.elim
  | deliver receiver payload => exact h.elim

theorem PoolCall.run_sends {session : Session} (call : PoolCall) :
    (call.run session).Sends session.interpreter fun _ => True := by
  cases call with
  | loadAll =>
      exact (ActionOn.sends_onBench fun _ _ => VoicePool.loadAll_sends).bind_pure _
  | allocate => exact VoicePool.allocate_sends.bind_pure _
  | resize target => exact (VoicePool.resize_sends target).bind_pure _
  | broadcast message =>
      exact (ActionOn.sends_onBench fun _ _ => VoicePool.broadcast_sends message).bind_pure _
  | unicast voice message =>
      exact (ActionOn.sends_onBench fun _ _ => VoicePool.unicast_sends voice message).bind_pure _

/-! ## Synths -/

namespace SynthCall

/-- The call neither reaches through to the engine nor is a direct delivery. -/
def IsInterpreted : SynthCall → Prop
  | .session call => call.IsInterpreted
  | .engine _ => False
  | _ => True

variable {session : Session}

theorem run_sends {call : SynthCall} (h : call.IsInterpreted) :
    call.run.Sends session.interpreter (Synth.PlaysIn session) := by
  cases call with
  | noteOn note velocity volume => exact (Synth.noteOn_sends note velocity volume).bind_pure _
  | noteOff voice note => exact (Synth.toVoice_sends voice _).bind_pure _
  | pitchBend voice value => exact (Synth.toVoice_sends voice _).bind_pure _
  | voiceVolume voice volume => exact (Synth.toVoice_sends voice _).bind_pure _
  | change update =>
      have hstored : ∀ change : Settings → Except Error Settings,
          ActionOn.Sends session.interpreter (Synth.PlaysIn session)
            (do Synth.store change; Synth.broadcastSetting update.name) := by
        intro change
        exact (Synth.store_sends change).bind fun _ => Synth.broadcastSetting_sends update.name
      cases update with
      | whole name value => exact (hstored _).bind_pure _
      | element name index value => exact (hstored _).bind_pure _
  | setVoiceCount voices =>
      exact (Synth.sends_onPool (VoicePool.resize_sends voices)).bind_pure _
  | updateSettings => exact Synth.updateSettings_sends.bind_pure _
  | session call =>
      refine ActionOn.Sends.bind_pure (ActionOn.sends_onBench ?_) _
      intro synth hsession
      obtain rfl : synth.session = session := hsession
      exact SessionCall.run_sends h
  | engine call => exact h.elim

end SynthCall

/-! ## Calls to the engine -/

/-- A call leaves the engine that it leads to, whether or not it succeeds, and notes nothing. -/
theorem EngineCall.stateAfter_engineAction (call : EngineCall) (bench : Bench) :
    stateAfter (SynthCall.engineAction call) bench =
      { bench with engine := (bench.engine.perform call).2 } := by
  simp only [stateAfter, SynthCall.engineAction]
  cases bench.engine.perform call with
  | mk outcome engine => cases outcome <;> rfl

/-! ## Calls of a session -/

section RunFrom

variable {σ α : Type} {held : σ} {action : ActionOn σ α}

theorem outcomeOf_runFrom (bench : Bench) :
    outcomeOf (action.runFrom held) bench = outcomeOf action (held, bench) := by
  simp only [outcomeOf, ActionOn.runFrom]
  cases action (held, bench) <;> rfl

theorem stateAfter_runFrom (bench : Bench) :
    stateAfter (action.runFrom held) bench = (stateAfter action (held, bench)).2 := by
  simp only [stateAfter, ActionOn.runFrom]
  cases action (held, bench) <;> rfl

theorem runFrom_onBench (action : σ → Action α) :
    (ActionOn.onBench action).runFrom held = action held := by
  funext bench
  simp only [ActionOn.runFrom, ActionOn.onBench]
  cases action held bench <;> rfl

theorem runFrom_bind_pure {β : Type} (result : α → β) :
    ActionOn.runFrom held (action >>= fun value => pure (result value)) =
      action.runFrom held >>= fun value => pure (result value) := by
  funext bench
  change ActionOn.runFrom held (EStateM.bind _ _) bench = EStateM.bind _ _ bench
  simp only [ActionOn.runFrom, EStateM.bind]
  cases action (held, bench) <;> rfl

theorem ActionOn.Makes.runFrom {row : List Delivery} {heldAfter : Nat → σ} {ending : Except Error α}
    (h : action.Makes held row heldAfter ending) : (action.runFrom held).Makes row ending := by
  intro bench
  constructor
  · rw [outcomeOf_runFrom]
    exact (h.delivers bench).outcome_eq
  · rw [stateAfter_runFrom]
    exact (h.delivers bench).engine_eq

theorem ActionOn.Sends.runFrom {receiver : Text} {kept : σ → Prop} (h : action.Sends receiver kept)
    (hheld : kept held) : (action.runFrom held).Sends receiver := by
  obtain ⟨row, heldAfter, ending, hlists, -, hmakes⟩ := h held hheld
  exact ⟨row, ending, hlists, hmakes.runFrom⟩

end RunFrom

namespace LibraryCall

/-- The call is one of the session: a script, commands or a construction, or a call of a pool or a
synth that plays in it. Direct deliveries are not. -/
def IsOf (session : Session) : LibraryCall → Prop
  | .onSession held call => held = session ∧ call.IsInterpreted
  | .onPool held _ _ => held = session
  | .onSynth synth call => synth.session = session ∧ call.IsInterpreted
  | _ => False

/-- **A call of a session speaks through its interpreter.** -/
theorem run_sends {session : Session} {call : LibraryCall} (h : call.IsOf session) :
    call.run.Sends session.interpreter := by
  cases call with
  | onSession held call =>
      obtain ⟨rfl, hcall⟩ := h
      exact SessionCall.run_sends hcall
  | onPool held pool call =>
      obtain rfl : held = session := h
      exact (call.run_sends.runFrom trivial).bind_pure _
  | onSynth synth call =>
      obtain ⟨hsession, hcall⟩ := h
      exact ((SynthCall.run_sends hcall).runFrom hsession).bind_pure _
  | _ => exact h.elim

end LibraryCall

end DynamicPatching

import DynamicPatching.Proofs.Engine.Truncation
import DynamicPatching.Proofs.Synth.Rows

/-!
# Pools and synths under an armed limit

Everything that a pool or a synth delivers is a list sent to the interpreter of its session, in a
row that does not depend on what the engine accepts. So for every operation, from every state, a
limit armed before it only cuts the row of its deliveries short (`Synth.limit_truncates`).
-/

namespace DynamicPatching

/-! ## Sessions -/

namespace Session

variable {session : Session}

theorem execute_sends (command : Command) :
    (session.execute command).Sends session.interpreter :=
  (Action.sends_ofChecked _).bind Action.sends_deliver

theorem perform_sends (call : Checked Command) :
    (session.perform call).Sends session.interpreter :=
  (Action.sends_ofChecked call).bind execute_sends

theorem runCommands_sends (commands : List Command) :
    (session.runCommands commands).Sends session.interpreter := by
  induction commands with
  | nil => exact Action.sends_pure ()
  | cons command rest ih => exact (execute_sends command).bind fun _ => ih

theorem send_sends (receiver message : Text) :
    (session.send receiver message).Sends session.interpreter :=
  perform_sends _

end Session

/-! ## Pools -/

namespace VoicePool

variable {session : Session} {pool : VoicePool}

theorem loadAll_sends : (pool.loadAll session).Sends session.interpreter :=
  Action.sends_forNumbers (fun _ => Session.send_sends _ _) 0 pool.size

theorem broadcast_sends (message : Text) :
    (pool.broadcast session message).Sends session.interpreter :=
  (Action.sends_forNumbers (fun _ => Session.send_sends _ _) 0 pool.size).bind fun _ =>
    Action.sends_note .broadcastComplete

theorem unicast_sends (voice : Nat) (message : Text) :
    (pool.unicast session voice message).Sends session.interpreter := by
  rw [unicast]
  split
  · exact Session.send_sends _ _
  · exact Action.sends_throw _

/-- A loop that sends a directive and follows it with the size sends lists only. -/
theorem sends_directive (directive : VoicePool → Text) (update : VoicePool → VoicePool)
    {rest : ActionOn VoicePool Unit} (hrest : rest.Sends session.interpreter fun _ => True) :
    ActionOn.Sends session.interpreter (fun _ => True)
      (do
        ActionOn.onBench fun pool : VoicePool => session.send pool.receiver (directive pool)
        ActionOn.change update
        rest) := by
  apply ActionOn.Sends.bind
  · exact ActionOn.sends_onBench fun pool _ => Session.send_sends _ _
  · intro _
    exact (ActionOn.sends_change fun _ _ => trivial).bind fun _ => hrest

theorem stepTowards_sends (target : Nat) :
    (stepTowards session target).Sends session.interpreter fun _ => True := by
  have hshrink : ∀ count, (shrinkBy session count).Sends session.interpreter fun _ => True := by
    intro count
    induction count with
    | zero => exact ActionOn.sends_pure ()
    | succ count ih => exact sends_directive _ _ ih
  have hgrow : ∀ count, (growBy session count).Sends session.interpreter fun _ => True := by
    intro count
    induction count with
    | zero => exact ActionOn.sends_pure ()
    | succ count ih => exact sends_directive _ _ ih
  apply ActionOn.Sends.bind
  · exact ActionOn.sends_onBench fun pool _ => Action.sends_pure _
  · intro size
    exact (hshrink _).bind fun _ => hgrow _

theorem resize_sends (target : Nat) :
    (resize session target).Sends session.interpreter fun _ => True := by
  intro pool _
  by_cases htarget : target = 0
  · subst htarget
    exact ⟨[], _, _, listsTo_nil, fun _ => trivial, resize_zero_makes⟩
  · obtain ⟨row, stepped, ending, hlists, -, hsteps⟩ := stepTowards_sends target pool trivial
    exact ⟨row, _, ending, hlists, fun _ => trivial,
      resize_makes_of_stepTowards htarget hsteps⟩

theorem allocate_sends : allocate.Sends session.interpreter fun _ => True :=
  fun _ _ => ⟨[], _, _, listsTo_nil, fun _ => trivial, allocate_makes⟩

end VoicePool

/-! ## Synths -/

namespace Synth

variable {session : Session}

/-- The synth plays in the session. -/
def PlaysIn (session : Session) (synth : Synth) : Prop := synth.session = session

theorem sendSettings_sends {pool : VoicePool} (messages : List Text) :
    (sendSettings session pool messages).Sends session.interpreter := by
  induction messages with
  | nil => exact Action.sends_pure ()
  | cons message rest ih => exact (VoicePool.broadcast_sends message).bind fun _ => ih

theorem startOn_sends (config : SynthConfig) :
    (startOn session config).Sends session.interpreter := by
  refine (Session.execute_sends .reset).bind fun _ => ?_
  refine (Action.sends_note .sessionReady).bind fun _ => ?_
  refine (Action.sends_ofChecked _).bind fun host => ?_
  refine (Session.runCommands_sends host).bind fun _ => ?_
  refine (Action.sends_ofChecked _).bind fun pool => ?_
  refine VoicePool.loadAll_sends.bind fun _ => ?_
  refine (Action.sends_ofChecked _).bind fun settings => ?_
  exact (sendSettings_sends settings.messages).bind fun _ => Action.sends_pure _

/-- An action on the pool keeps the session. -/
theorem sends_onPool {α : Type} {action : Session → ActionOn VoicePool α}
    (h : (action session).Sends session.interpreter fun _ => True) :
    (onPool action).Sends session.interpreter (PlaysIn session) := by
  intro synth hsession
  obtain rfl : synth.session = session := hsession
  obtain ⟨row, poolAfter, ending, hlists, -, hmakes⟩ := h synth.pool trivial
  exact ⟨row, fun k => { synth with pool := poolAfter k }, ending, hlists, fun _ => rfl,
    makes_onPool hmakes⟩

theorem toVoice_sends (voice : Nat) (message : Text) :
    (toVoice voice message).Sends session.interpreter (PlaysIn session) := by
  apply ActionOn.sends_onBench
  intro synth hsession
  obtain rfl : synth.session = session := hsession
  exact VoicePool.unicast_sends voice message

theorem noteOn_sends (note velocity : UInt8) (volume : Single) :
    (noteOn note velocity volume).Sends session.interpreter (PlaysIn session) := by
  refine (sends_onPool VoicePool.allocate_sends).bind fun voice => ?_
  refine (toVoice_sends voice _).bind fun _ => ?_
  refine (toVoice_sends voice _).bind fun _ => ?_
  exact (toVoice_sends voice _).bind fun _ => ActionOn.sends_pure voice

theorem updateSettings_sends : updateSettings.Sends session.interpreter (PlaysIn session) := by
  apply ActionOn.sends_onBench
  intro synth hsession
  obtain rfl : synth.session = session := hsession
  exact sendSettings_sends synth.settings.messages

theorem broadcastSetting_sends (name : Text) :
    (broadcastSetting name).Sends session.interpreter (PlaysIn session) := by
  apply ActionOn.sends_onBench
  intro synth hsession
  obtain rfl : synth.session = session := hsession
  exact (Action.sends_ofChecked _).bind VoicePool.broadcast_sends

/-- Storing keeps the session and delivers nothing, whether or not the update succeeds. -/
theorem store_sends (update : Settings → Except Error Settings) :
    (store update).Sends session.interpreter (PlaysIn session) := by
  intro synth hsession
  refine ⟨[], _, _, listsTo_nil, ?_, makes_store update⟩
  intro _
  rw [PlaysIn, afterStoring]
  split
  · exact hsession
  · exact hsession

/-- From every bench, a limit only cuts the row of starting short. -/
theorem start_truncates (sessionConfig : SessionConfig) (config : SynthConfig) (bench : Bench) :
    (start sessionConfig config).Truncates bench (sessionOn sessionConfig bench).interpreter := by
  by_cases hpatch : sessionConfig.patch = []
  · -- no patch is opened, so nothing is delivered
    have hmakes := (Action.openPatch_nil_makes sessionConfig.searchPath).bind_error fun handle =>
      startOn ⟨handle, Session.receiverName handle sessionConfig.interpreterSuffix⟩ config
    rw [← hpatch, ← start_bind] at hmakes
    exact Action.Sends.truncates ⟨[], _, listsTo_nil, hmakes⟩ bench
  · -- opening neither uses the limit nor changes the deliveries, and the handle is the same
    obtain ⟨row, ending, hlists, hmakes⟩ := @startOn_sends (sessionOn sessionConfig bench) config
    have hcut := cutShort_of_delivers hlists
      (hmakes (bench.unlimited.afterOpening sessionConfig.patch sessionConfig.searchPath))
      (fun limit =>
        hmakes ((bench.limitedTo limit).afterOpening sessionConfig.patch sessionConfig.searchPath))
      rfl fun limit => ⟨rfl, rfl⟩
    exact ⟨row, hcut.of_eq (start_eq hpatch config _) (fun limit => start_eq hpatch config _) rfl⟩

/-- **A limit only truncates.** Take any operation of a pool, the start of a synth or any operation of
a synth, and any state. A limit armed before it lets through the deliveries of the free run up to the
limit, and uses that much of it up. The operation then ends as the free run does, if the limit was
not reached, and otherwise in a refusal on behalf of the interpreter. -/
theorem limit_truncates :
    (∀ (pool : VoicePool) (session : Session) (bench : Bench),
      (pool.loadAll session).Truncates bench session.interpreter ∧
      (∀ target, (VoicePool.resize session target).Truncates pool bench session.interpreter) ∧
      (∀ message, (pool.broadcast session message).Truncates bench session.interpreter) ∧
      ∀ voice message, (pool.unicast session voice message).Truncates bench session.interpreter) ∧
    (∀ (sessionConfig : SessionConfig) (config : SynthConfig) (bench : Bench),
      (start sessionConfig config).Truncates bench
        (Session.receiverName bench.engine.nextHandle sessionConfig.interpreterSuffix)) ∧
    ∀ (synth : Synth) (bench : Bench),
      (∀ note velocity volume,
        (noteOn note velocity volume).Truncates synth bench synth.session.interpreter) ∧
      (∀ voice note, (noteOff voice note).Truncates synth bench synth.session.interpreter) ∧
      (∀ voice value, (pitchBend voice value).Truncates synth bench synth.session.interpreter) ∧
      (∀ voice volume, (voiceVolume voice volume).Truncates synth bench synth.session.interpreter) ∧
      (∀ name value, (setParameter name value).Truncates synth bench synth.session.interpreter) ∧
      (∀ name index value,
        (setParameterElement name index value).Truncates synth bench synth.session.interpreter) ∧
      (∀ voices, (setVoiceCount voices).Truncates synth bench synth.session.interpreter) ∧
      updateSettings.Truncates synth bench synth.session.interpreter := by
  refine ⟨?_, start_truncates, ?_⟩
  · intro pool session bench
    refine ⟨VoicePool.loadAll_sends.truncates bench, ?_, ?_, ?_⟩
    · intro target
      exact (VoicePool.resize_sends target).truncates trivial bench
    · intro message
      exact (VoicePool.broadcast_sends message).truncates bench
    · intro voice message
      exact (VoicePool.unicast_sends voice message).truncates bench
  · intro synth bench
    have hsession : PlaysIn synth.session synth := rfl
    refine ⟨?_, ?_, ?_, ?_, ?_, ?_, ?_, updateSettings_sends.truncates hsession bench⟩
    · intro note velocity volume
      exact (noteOn_sends note velocity volume).truncates hsession bench
    · intro voice note
      exact (toVoice_sends voice _).truncates hsession bench
    · intro voice value
      exact (toVoice_sends voice _).truncates hsession bench
    · intro voice volume
      exact (toVoice_sends voice _).truncates hsession bench
    · intro name value
      exact ((store_sends _).bind fun _ => broadcastSetting_sends name).truncates hsession bench
    · intro name index value
      exact ((store_sends _).bind fun _ => broadcastSetting_sends name).truncates hsession bench
    · intro voices
      exact (sends_onPool (VoicePool.resize_sends voices)).truncates hsession bench

end Synth

end DynamicPatching

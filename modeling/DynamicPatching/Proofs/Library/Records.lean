import DynamicPatching.Proofs.Library.Interpreted
import DynamicPatching.Proofs.Library.Notes

/-!
# What actions record

Every action adds to the log the contracts of those of its duties that were fulfilled, and nothing else
(`Records`): pure calls note on the way, deliveries note nothing, and an operation that owes a contract
itself notes it behind its last step, so that every success leads past the note and no error does. The
duties of a long action are found step by step along its text (`Records.bind`), up to those of a whole
call to the library (`LibraryCall.run_records`).
-/

namespace DynamicPatching

variable {ρ α β : Type} {logOf : ρ → ContractLog}

/-! ## Recording -/

/-- From every state the action adds to the log the contracts of those of its duties that are
fulfilled, and nothing else, whatever its outcome. `logOf` finds the log in a state. -/
def Records (logOf : ρ → ContractLog) (action : EStateM Error ρ α) (duties : ρ → List Duty) : Prop :=
  ∀ state contract, contract ∈ (logOf (stateAfter action state)).noted ↔
    contract ∈ (logOf state).noted ∨ Duty.Noted (duties state) contract

namespace Records

variable {first : EStateM Error ρ α} {next : α → EStateM Error ρ β} {duties : ρ → List Duty}
  {others : α → ρ → List Duty}

/-- An action that leaves the log as it is. -/
theorem of_still (h : ∀ state, logOf (stateAfter first state) = logOf state) :
    Records logOf first fun _ => [] := by
  intro state contract
  rw [h state]
  exact (or_iff_left Duty.not_noted_nil).symm

theorem pure (value : α) : Records logOf (Pure.pure value) fun _ => [] := of_still fun _ => rfl

/-- Duties that note the same contracts. -/
theorem congr {duties' : ρ → List Duty} (h : Records logOf first duties)
    (hduties : ∀ state contract, Duty.Noted (duties state) contract ↔
      Duty.Noted (duties' state) contract) : Records logOf first duties' := by
  intro state contract
  rw [h state contract, hduties]

theorem bind (hfirst : Records logOf first duties)
    (hnext : ∀ value, Records logOf (next value) (others value)) :
    Records logOf (first >>= next) (Duty.andThen duties first others) := by
  intro state contract
  have hafter := hfirst state contract
  rw [stateAfter_bind, Duty.andThen, Duty.noted_append_iff, ← or_assoc, ← hafter]
  rw [outcomeOf, stateAfter] at *
  cases first state with
  | ok value after => exact hnext value after contract
  | error error after => exact (or_iff_left Duty.not_noted_nil).symm

/-- What follows leaves the log as it is. -/
theorem bind_still (hfirst : Records logOf first duties)
    (hnext : ∀ value, Records logOf (next value) fun _ => []) :
    Records logOf (first >>= next) duties := by
  refine (hfirst.bind hnext).congr fun state contract => ?_
  rw [Duty.andThen, Duty.noted_append_iff]
  cases first state with
  | ok value after => exact or_iff_left Duty.not_noted_nil
  | error error after => exact or_iff_left Duty.not_noted_nil

theorem bind_pure (hfirst : Records logOf first duties) (result : α → β) :
    Records logOf (first >>= fun value => Pure.pure (result value)) duties :=
  hfirst.bind_still fun value => pure (result value)

/-- An action that owes a contract and notes it behind the success of its body. -/
theorem noting {action : EStateM Error ρ β} {own : ρ → Duty} {contract : Contract}
    (hbody : Records logOf first duties) (hcontract : ∀ state, (own state).contract? = some contract)
    (hown : ∀ state, (own state).Fulfilled ↔ ∃ value, outcomeOf first state = .ok value)
    (hdone : ∀ state value, outcomeOf first state = .ok value →
      logOf (stateAfter action state) = (logOf (stateAfter first state)).note contract)
    (hfailed : ∀ state error, outcomeOf first state = .error error →
      logOf (stateAfter action state) = logOf (stateAfter first state)) :
    Records logOf action fun state => own state :: duties state := by
  intro state other
  rw [Duty.noted_cons_iff, hcontract, hown, or_left_comm, ← hbody state other]
  cases houtcome : outcomeOf first state with
  | ok value =>
      rw [hdone state value houtcome, ContractLog.mem_noted_note, and_iff_left ⟨value, rfl⟩,
        Option.some.injEq, @eq_comm _ other]
  | error error =>
      rw [hfailed state error houtcome]
      exact (or_iff_right fun h => nomatch h.2).symm

end Records

/-! ## Plain actions -/

namespace Action

theorem records_deliver (receiver : Text) (payload : Payload) :
    Records Bench.contracts (deliver receiver payload) fun _ => [] := by
  refine .of_still fun bench => ?_
  simp only [stateAfter, deliver]
  cases bench.engine.deliver ⟨receiver, payload⟩ <;> rfl

theorem records_openPatch (name directory : Text) :
    Records Bench.contracts (openPatch name directory) fun _ => [] := by
  refine .of_still fun bench => ?_
  simp only [stateAfter, openPatch]
  cases bench.engine.openPatch name directory <;> rfl

theorem records_ofChecked {call : Checked α} {duties : List Duty} (h : call.Notes duties) :
    Records Bench.contracts (ofChecked call) fun _ => duties := by
  intro bench contract
  rw [stateAfter_ofChecked, ContractLog.mem_noted_noteAll, h contract, or_comm]

variable {body : Action α} {duties : Bench → List Duty}

/-- A contract noted behind an action is noted exactly when the action succeeds. -/
theorem records_bind_note (hbody : Records Bench.contracts body duties) {own : Bench → Duty}
    {contract : Contract} {result : α → β} (hcontract : ∀ bench, (own bench).contract? = some contract)
    (hown : ∀ bench, (own bench).Fulfilled ↔
      ∃ value, outcomeOf (do let value ← body; note contract; pure (result value)) bench = .ok value) :
    Records Bench.contracts (do let value ← body; note contract; pure (result value))
      fun bench => own bench :: duties bench := by
  refine hbody.noting hcontract ?_ ?_ ?_
  · intro bench
    rw [hown bench, outcomeOf_bind]
    cases outcomeOf body bench with
    | ok value => exact iff_of_true ⟨result value, rfl⟩ ⟨value, rfl⟩
    | error error => exact iff_of_false nofun nofun
  · intro bench value hbody
    rw [stateAfter_bind, hbody]
    rfl
  · intro bench error hbody
    rw [stateAfter_bind, hbody]

end Action

/-! ## Sessions -/

namespace Session

variable {session : Session}

theorem execute_records (command : Command) :
    Records Bench.contracts (session.execute command) fun _ => command.encodeDuties :=
  (Action.records_ofChecked command.encode_notes).bind_still fun _ => Action.records_deliver _ _

theorem perform_records {call : Checked Command} {duties : List Duty} (h : call.Notes duties) :
    Records Bench.contracts (session.perform call) (performDuties duties call) :=
  (Action.records_ofChecked h).bind execute_records

theorem make_records (parts : Command) :
    Records Bench.contracts (session.perform parts.remake) (makeDuties parts) :=
  perform_records parts.remake_notes

theorem send_records (receiver message : Text) :
    Records Bench.contracts (session.send receiver message) (sendDuties receiver message) :=
  make_records (.send receiver message)

/-- Resetting the patch owes nothing. -/
theorem reset_records : Records Bench.contracts (session.execute .reset) fun _ => [] := by
  refine (execute_records .reset).congr fun bench contract => ?_
  have hnone : (Duty.encode .reset).contract? = none := rfl
  rw [Command.encodeDuties, Duty.noted_cons_iff, hnone]
  exact or_iff_right fun h => Option.some_ne_none contract h.1.symm

theorem start_records (config : SessionConfig) :
    Records Bench.contracts (start config) (startDuties config) := by
  let body : Action Session := do
    let handle ← Action.openPatch config.patch config.searchPath
    let session : Session := ⟨handle, receiverName handle config.interpreterSuffix⟩
    session.execute .reset
    pure session
  have hbody : Records Bench.contracts body fun _ => [] :=
    (Action.records_openPatch _ _).bind_still fun handle =>
      reset_records.bind_pure _
  have hstart : start config = (do
      let session ← body
      Action.note .sessionReady
      pure session) := by
    simp only [start, body, bind_assoc, pure_bind]
  rw [hstart]
  refine Action.records_bind_note hbody (fun _ => rfl) fun bench => ?_
  rw [← hstart]
  exact Iff.rfl

theorem runCommands_records (commands : List Command) :
    Records Bench.contracts (session.runCommands commands) (session.runCommandsDuties commands) := by
  induction commands with
  | nil => exact Records.pure ()
  | cons command rest ih => exact (execute_records command).bind fun _ => ih

theorem runLines_records (lines : List Text) :
    Records Bench.contracts (session.runLines lines)
      (Duty.along (fun line => session.perform (Command.ofLine line)) lineDuties lines) := by
  induction lines with
  | nil => exact Records.pure ()
  | cons line rest ih => exact (perform_records (Command.ofLine_notes line)).bind fun _ => ih

theorem runScript_records (script : Text) :
    Records Bench.contracts (session.runScript script) (session.runScriptDuties script) := by
  refine Action.records_bind_note (runLines_records _) (fun _ => rfl) fun bench => ?_
  exact ⟨fun h => ⟨(), h⟩, fun ⟨(), h⟩ => h⟩

end Session

/-- Direct deliveries note nothing but the symbolic selector of a message. -/
theorem SessionCall.run_records (session : Session) (call : SessionCall) :
    Records Bench.contracts (call.run session) (call.duties session) := by
  cases call with
  | runScript script => exact Session.runScript_records script
  | runCommands commands => exact Session.runCommands_records commands
  | execute command => exact Session.execute_records command
  | make parts => exact Session.make_records parts
  | send receiver message => exact Session.send_records receiver message
  | sendMessage receiver message =>
      refine (Action.records_ofChecked (Atom.messageOfText_notes message)).bind_still fun atoms => ?_
      split
      · exact Action.records_deliver _ _
      · exact .of_still fun _ => rfl
  | sendText receiver text => exact Action.records_deliver _ _
  | deliver receiver payload => exact Action.records_deliver _ _

/-! ## Actions on a held value -/

/-- The log of a bench that stands beside a held value. -/
def heldLog {σ : Type} (state : σ × Bench) : ContractLog := state.2.contracts

namespace ActionOn

variable {σ : Type}

theorem records_change (update : σ → σ) : Records heldLog (change update) fun _ => [] :=
  .of_still fun _ => rfl

theorem records_onBench {action : σ → Action α} {duties : σ → Bench → List Duty}
    (h : ∀ held, Records Bench.contracts (action held) (duties held)) :
    Records heldLog (onBench action) fun (held, bench) => duties held bench := by
  rintro ⟨held, bench⟩ contract
  rw [stateAfter_onBench]
  exact h held bench contract

theorem records_runFrom {action : ActionOn σ α} {duties : σ × Bench → List Duty}
    (h : Records heldLog action duties) (held : σ) :
    Records Bench.contracts (action.runFrom held) fun bench => duties (held, bench) := by
  intro bench contract
  rw [stateAfter_runFrom]
  exact h (held, bench) contract

end ActionOn

/-! ## Pools -/

theorem Action.records_forNumbers {step : Nat → Action Unit} {duties : Nat → Bench → List Duty}
    (h : ∀ n, Records Bench.contracts (step n) (duties n)) (first count : Nat) :
    Records Bench.contracts (forNumbers step first count)
      (Duty.along step duties (List.range' first count)) := by
  induction count generalizing first with
  | zero => exact Records.pure ()
  | succ count ih => exact (h first).bind fun _ => ih (first + 1)

namespace VoicePool

variable {session : Session} {pool : VoicePool}

theorem loadAll_records :
    Records Bench.contracts (pool.loadAll session) (pool.loadAllDuties session) :=
  Action.records_forNumbers (fun _ => Session.send_records _ _) 0 pool.size

theorem broadcast_records (message : Text) :
    Records Bench.contracts (pool.broadcast session message)
      (pool.broadcastDuties session message) := by
  have hsend := fun voice => @Session.send_records session pool.receiver (addressed voice message)
  refine Action.records_bind_note (Action.records_forNumbers hsend 0 pool.size) (fun _ => rfl)
    fun bench => ?_
  exact ⟨fun h => ⟨(), h⟩, fun ⟨(), h⟩ => h⟩

theorem unicast_records (voice : Nat) (message : Text) :
    Records Bench.contracts (pool.unicast session voice message)
      (pool.unicastDuties voice message) := by
  rw [unicast, unicastDuties]
  split
  · exact Session.send_records _ _
  · exact .of_still fun _ => rfl

/-- Handing out a voice never fails. -/
theorem allocate_records :
    Records heldLog allocate fun (pool, bench) => [.allocate pool bench] := by
  rintro ⟨pool, bench⟩ contract
  have hdone : (Duty.allocate pool bench).Fulfilled := ⟨pool.cursor, rfl⟩
  have hlog : heldLog (stateAfter allocate (pool, bench)) =
      bench.contracts.note .cursorInPool := rfl
  rw [hlog, ContractLog.mem_noted_note, Duty.noted_cons_iff, and_iff_left hdone,
    or_iff_left Duty.not_noted_nil, or_comm, Duty.contract?, Option.some.injEq, @eq_comm _ contract]
  exact Iff.rfl

theorem directiveStep_records (directive : VoicePool → Text) (update : VoicePool → VoicePool) :
    Records heldLog (directiveStep session directive update)
      fun (pool, bench) => Session.sendDuties pool.receiver (directive pool) bench :=
  (ActionOn.records_onBench fun _ => Session.send_records _ _).bind_still fun _ =>
    ActionOn.records_change update

/-- A loop of directives has the duties of its directives. -/
theorem directives_records {directive : VoicePool → Text} {update : VoicePool → VoicePool}
    {loop : Nat → ActionOn VoicePool Unit} (hzero : loop 0 = pure ())
    (hsucc : ∀ count, loop (count + 1) = do directiveStep session directive update; loop count)
    (count : Nat) :
    Records heldLog (loop count) (directiveDuties session directive update count) := by
  induction count with
  | zero =>
      rw [hzero]
      exact Records.pure ()
  | succ count ih =>
      rw [hsucc]
      exact (directiveStep_records directive update).bind fun _ => ih

theorem shrinkBy_records (count : Nat) :
    Records heldLog (shrinkBy session count) (shrinkDuties session count) := by
  refine directives_records rfl (fun count => ?_) count
  rw [shrinkBy, directiveStep, bind_assoc]

theorem growBy_records (count : Nat) :
    Records heldLog (growBy session count) (growDuties session count) := by
  refine directives_records rfl (fun count => ?_) count
  rw [growBy, directiveStep, bind_assoc]
  rfl

theorem stepTowards_records (target : Nat) :
    Records heldLog (stepTowards session target) fun state =>
      Duty.andThen (shrinkDuties session (state.1.size - target))
        (shrinkBy session (state.1.size - target))
        (fun _ => growDuties session (target - state.1.size)) state := by
  have hsize : Records heldLog (ActionOn.onBench fun pool : VoicePool => pure pool.size)
      fun _ => [] := ActionOn.records_onBench fun pool => Records.pure pool.size
  exact hsize.bind fun size => (shrinkBy_records (size - target)).bind fun _ =>
    growBy_records (target - size)

/-- An interrupted resize notes nothing of its own. -/
theorem resize_records (target : Nat) :
    Records heldLog (resize session target) (resizeDuties session target) := by
  by_cases htarget : target = 0
  · subst htarget
    refine (Records.of_still fun _ => rfl).congr fun state contract => ?_
    rw [resizeDuties, if_pos rfl, Duty.noted_cons_iff]
    exact (or_iff_right fun h => nomatch h.2).symm
  · have hduties : resizeDuties session target = fun state =>
        .resize session target state.1 state.2 ::
          Duty.andThen (shrinkDuties session (state.1.size - target))
            (shrinkBy session (state.1.size - target))
            (fun _ => growDuties session (target - state.1.size)) state := by
      funext state
      rw [resizeDuties, if_neg htarget]
    rw [hduties]
    -- the duty of the resize stands in front of those of its steps, though it is noted behind them
    refine (stepTowards_records target).noting (fun _ => rfl) ?_ ?_ ?_
    · rintro ⟨pool, bench⟩
      simp only [Duty.Fulfilled, outcomeOf, resize, if_neg htarget]
      cases stepTowards session target (pool, bench) <;> simp
    · rintro ⟨pool, bench⟩ value hsteps
      simp only [outcomeOf] at hsteps
      simp only [stateAfter, resize, if_neg htarget]
      cases hstep : stepTowards session target (pool, bench) with
      | ok _ after => rfl
      | error error after =>
          rw [hstep] at hsteps
          cases hsteps
    · rintro ⟨pool, bench⟩ error hsteps
      simp only [outcomeOf] at hsteps
      simp only [stateAfter, resize, if_neg htarget]
      cases hstep : stepTowards session target (pool, bench) with
      | ok _ after =>
          rw [hstep] at hsteps
          cases hsteps
      | error error after => rfl

end VoicePool

theorem PoolCall.run_records (session : Session) (call : PoolCall) :
    Records heldLog (call.run session) (call.duties session) := by
  cases call with
  | loadAll =>
      exact (ActionOn.records_onBench fun _ => VoicePool.loadAll_records).bind_pure _
  | allocate => exact VoicePool.allocate_records.bind_pure _
  | resize target =>
      exact (VoicePool.resize_records target).bind_pure _
  | broadcast message =>
      exact (ActionOn.records_onBench fun _ => VoicePool.broadcast_records message).bind_pure _
  | unicast voice message =>
      exact (ActionOn.records_onBench fun _ => VoicePool.unicast_records voice message).bind_pure _

/-! ## Synths -/

namespace Synth

theorem sendSettings_records {session : Session} {pool : VoicePool} (messages : List Text) :
    Records Bench.contracts (sendSettings session pool messages)
      (sendSettingsDuties session pool messages) := by
  induction messages with
  | nil => exact Records.pure ()
  | cons message rest ih => exact (VoicePool.broadcast_records message).bind fun _ => ih

theorem ofOutcome_records (outcome : Except Error α) :
    Records Bench.contracts (ofOutcome outcome) fun _ => [] :=
  Action.records_ofChecked (Checked.notes_of_eq_nil rfl)

theorem build_hostCalls_notes (channels : Text) :
    (Script.Builder.ofCalls (hostCalls channels)).build.Notes
      (Command.buildDuties (hostParts channels)) := by
  have hcalls : hostCalls channels = (hostParts channels).map Command.remake := rfl
  rw [hcalls]
  exact Script.Builder.build_notes (hostParts channels)

theorem start_records (sessionConfig : SessionConfig) (config : SynthConfig) :
    Records Bench.contracts (start sessionConfig config) (startDuties sessionConfig config) := by
  refine (Session.start_records sessionConfig).bind fun session => ?_
  refine (Action.records_ofChecked (build_hostCalls_notes _)).bind fun host => ?_
  refine (Session.runCommands_records host).bind fun _ => ?_
  refine (ofOutcome_records _).bind fun pool => ?_
  refine VoicePool.loadAll_records.bind fun _ => ?_
  refine (ofOutcome_records _).bind fun settings => ?_
  exact (sendSettings_records settings.messages).bind_pure _

/-- An action on the pool has its duties in the session and on the pool of the synth. -/
theorem onPool_records {action : Session → ActionOn VoicePool α}
    {duties : Session → VoicePool × Bench → List Duty}
    (h : ∀ session, Records heldLog (action session) (duties session)) :
    Records heldLog (onPool action) fun (synth, bench) =>
      duties synth.session (synth.pool, bench) := by
  rintro ⟨synth, bench⟩ contract
  rw [stateAfter_onPool]
  exact h synth.session (synth.pool, bench) contract

theorem toVoice_records (voice : Nat) (message : Text) :
    Records heldLog (toVoice voice message) (toVoiceDuties voice message) :=
  ActionOn.records_onBench fun _ => VoicePool.unicast_records voice message

theorem noteOn_records (note velocity : UInt8) (volume : Single) :
    Records heldLog (noteOn note velocity volume) (noteOnDuties note velocity volume) := by
  refine (onPool_records fun _ => VoicePool.allocate_records).bind fun voice => ?_
  refine (toVoice_records voice _).bind fun _ => ?_
  refine (toVoice_records voice _).bind fun _ => ?_
  exact (toVoice_records voice _).bind_pure _

theorem store_records (update : Settings → Except Error Settings) :
    Records heldLog (store update) fun _ => [] := by
  refine .of_still ?_
  rintro ⟨synth, bench⟩
  simp only [stateAfter, store]
  cases update synth.settings <;> rfl

theorem broadcastSetting_records (name : Text) :
    Records heldLog (broadcastSetting name) (broadcastSettingDuties name) :=
  ActionOn.records_onBench fun _ => (ofOutcome_records _).bind fun message =>
    VoicePool.broadcast_records message

theorem change_records (update : SettingUpdate) :
    Records heldLog (SynthCall.run (.change update)) (changeDuties update) := by
  cases update with
  | whole name value =>
      exact ((store_records _).bind fun _ => broadcastSetting_records name).bind_pure _
  | element name index value =>
      exact ((store_records _).bind fun _ => broadcastSetting_records name).bind_pure _

end Synth

theorem SynthCall.engineAction_records (call : EngineCall) :
    Records Bench.contracts (engineAction call) fun _ => [] := by
  refine .of_still fun bench => ?_
  rw [EngineCall.stateAfter_engineAction]

theorem SynthCall.run_records (call : SynthCall) : Records heldLog call.run call.duties := by
  cases call with
  | noteOn note velocity volume =>
      exact (Synth.noteOn_records note velocity volume).bind_pure _
  | noteOff voice note =>
      exact (Synth.toVoice_records voice _).bind_pure _
  | pitchBend voice value =>
      exact (Synth.toVoice_records voice _).bind_pure _
  | voiceVolume voice volume =>
      exact (Synth.toVoice_records voice _).bind_pure _
  | change update => exact Synth.change_records update
  | setVoiceCount voices =>
      exact (Synth.onPool_records fun _ => VoicePool.resize_records voices).bind_pure _
  | updateSettings =>
      exact (ActionOn.records_onBench fun synth : Synth =>
        Synth.sendSettings_records synth.settings.messages).bind_pure _
  | session call =>
      exact (ActionOn.records_onBench fun synth : Synth =>
        call.run_records synth.session).bind_pure _
  | engine call => exact ActionOn.records_onBench fun _ => engineAction_records call

/-! ## Calls to the library -/

namespace LibraryCall

/-- **A call records what succeeded in it.** -/
theorem run_records (call : LibraryCall) : Records Bench.contracts call.run call.duties := by
  have hchecked : ∀ {α : Type} {checked : Checked α} {duties : List Duty}, checked.Notes duties →
      Records Bench.contracts (do let _ ← Action.ofChecked checked) fun _ => duties := by
    intro α checked duties hnotes
    exact (Action.records_ofChecked hnotes).bind_pure _
  cases call with
  | construct parts => exact hchecked parts.remake_notes
  | build parts => exact hchecked (Script.Builder.build_notes parts)
  | validate command => exact Action.records_ofChecked command.validate_notes
  | encode command => exact hchecked command.encode_notes
  | readLine line => exact hchecked (Command.ofLine_notes line)
  | readScript script => exact hchecked (Script.readLines_notes _)
  | readMessage text => exact hchecked (Atom.messageOfText_notes text)
  | onEngine call =>
      exact (SynthCall.engineAction_records call).bind_pure _
  | startSession config =>
      exact (Session.start_records config).bind_pure _
  | onSession session call => exact call.run_records session
  | onPool session pool call =>
      exact (ActionOn.records_runFrom (call.run_records session) pool).bind_pure _
  | startSynth sessionConfig config =>
      exact (Synth.start_records sessionConfig config).bind_pure _
  | onSynth synth call =>
      exact (ActionOn.records_runFrom call.run_records synth).bind_pure _

end LibraryCall

end DynamicPatching

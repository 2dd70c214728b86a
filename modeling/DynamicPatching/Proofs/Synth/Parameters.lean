import DynamicPatching.Proofs.Engine.Truncation
import DynamicPatching.Proofs.Synth.Mirror

/-!
# Changing settings while deliveries fail

A change of a setting is stored before the first voice is told. A change that the table refuses
therefore changes nothing at all, and one that it accepts is kept even if a delivery is refused, in
which case just the voices before the refusal have the new value. Nothing has to be undone: the table
takes the same change again (`Settings.update_again`), and sending the settings sends what is stored,
so once deliveries get through again, either call tells every voice (`Synth.change_exact`).
-/

namespace DynamicPatching

/-! ## Changes made twice -/

/-- A change that was made stores the same value again. -/
theorem SettingUpdate.Turns.again {change : SettingUpdate} {declared value : SettingValue}
    (h : change.Turns declared value) : change.Turns value value := by
  cases h with
  | whole => exact .whole rfl
  | @element name index value values inside =>
      have hagain : (SettingUpdate.element name index value).Turns (.list (values.set index value))
          (.list ((values.set index value).set index value)) :=
        .element (by rwa [List.length_set])
      rwa [List.set_set] at hagain

namespace Settings

variable {settings updated : Settings}

theorem replace_replace (settings : Settings) (name : Text) (value : SettingValue) :
    (settings.replace name value).replace name value = settings.replace name value := by
  have hentries : replaceEntry name value (replaceEntry name value settings.entries) =
      replaceEntry name value settings.entries := by
    rw [replaceEntry, replaceEntry, List.map_map]
    refine List.map_congr_left fun entry _ => ?_
    rw [Function.comp_apply]
    by_cases hname : entry.1 = name
    · simp only [if_pos hname]
    · simp only [if_neg hname]
  simp only [replace, hentries]

/-- A table takes the change that it has just taken, and is left as it is. -/
theorem update_again {change : SettingUpdate} (h : settings.update change = .ok updated) :
    updated.update change = .ok updated := by
  obtain ⟨declared, value, hdeclared, hturns, rfl⟩ := update_eq_ok_iff.1 h
  have hstored := (get?_replace_of_declared hdeclared value).1
  exact update_eq_ok_iff.2 ⟨value, value, hstored, hturns.again, (replace_replace _ _ _).symm⟩

end Settings

/-! ## Calls that send messages -/

namespace SynthCall

/-- The call delivers the messages, each as the command that sends it is encoded, and nothing else,
and it ends as given. -/
structure DeliversMessages (call : SynthCall) (state : Synth × Bench) (messages : List Text)
    (ending : Except Error (Option Nat)) : Prop where
  delivered : ∃ sent, Encodes state.1.session.interpreter
      (messages.map (Command.makeSend state.1.pool.receiver)) sent ∧
    (stateAfter state call).2.engine =
      { state.2.engine with
        accepted := state.2.engine.accepted ++ sent
        limit := state.2.engine.limit.map (· - messages.length) }
  outcome_eq : outcomeOf call.run state = ending

end SynthCall

namespace Synth

variable {synth : Synth} {bench : Bench} {call : SynthCall} {messages : List Text}

/-- A call that makes a row of messages delivers those that the engine has room for. -/
theorem deliversMessages_of_makes {heldAfter : Nat → Synth} {value : Option Nat}
    (h : synth.pool.receiver.IsName)
    (hmakes : call.run.Makes synth (messages.map (synth.pool.messageDelivery synth.session))
      heldAfter (.ok value)) (bench : Bench) :
    call.DeliversMessages (synth, bench) (messages.take (bench.engine.room messages.length))
      (if bench.engine.room messages.length = messages.length then .ok value
        else .error (.delivery ⟨synth.session.interpreter, .refused⟩)) := by
  have hroom := bench.engine.room_le messages.length
  have hdelivers := hmakes.delivers bench
  have hreceiver : ∀ delivery ∈ messages.map (synth.pool.messageDelivery synth.session),
      delivery.receiver = synth.session.interpreter := by
    intro delivery hdelivery
    obtain ⟨message, -, rfl⟩ := List.mem_map.1 hdelivery
    rfl
  constructor
  · refine ⟨_, Session.encodes_messages h _, ?_⟩
    rw [SynthCall.stateAfter, hdelivers.engine_eq, Engine.acceptAll, List.length_map,
      List.length_take, Nat.min_eq_left hroom, List.map_take]
  · rw [hdelivers.outcome_of_receiver hreceiver, List.length_map]

/-- Without a limit it delivers all of them. -/
theorem deliversMessages_unlimited {heldAfter : Nat → Synth} (h : synth.pool.receiver.IsName)
    (hmakes : call.run.Makes synth (messages.map (synth.pool.messageDelivery synth.session))
      heldAfter (.ok none)) (bench : Bench) :
    call.DeliversMessages (synth, bench.unlimited) messages (.ok none) := by
  have hall := deliversMessages_of_makes h hmakes bench.unlimited
  have hroom : bench.unlimited.engine.room messages.length = messages.length := rfl
  rwa [hroom, if_pos rfl, List.take_length] at hall

/-! ## The rows of changes -/

/-- The messages about one setting to the lowest voices are the first of those to all. -/
theorem take_settingMessages {name : Text} {value : SettingValue} {count voices : Nat}
    (h : count ≤ voices) :
    (settingMessages voices [(name, value)]).take count = settingMessages count [(name, value)] := by
  simp only [settingMessages, List.flatMap_singleton]
  rw [← List.map_take, List.take_range, Nat.min_eq_left h]

theorem run_change_makes (h : synth.pool.receiver.IsName) {change : SettingUpdate}
    {settings : Settings} {value : SettingValue} (hupdate : synth.settings.update change = .ok settings)
    (hget : settings.get? change.name = some value) :
    (SynthCall.change change).run.Makes synth
      ((settingMessages synth.pool.size [(change.name, value)]).map
        (synth.pool.messageDelivery synth.session))
      (fun _ => { synth with settings }) (.ok none) := by
  rw [run_change, ← broadcastEntries_eq, List.map_singleton, List.flatMap_singleton]
  exact (makeUpdate_makes h hupdate hget).bind_pure fun _ => none

theorem run_updateSettings_makes (h : synth.pool.receiver.IsName) :
    SynthCall.updateSettings.run.Makes synth
      ((settingMessages synth.pool.size synth.settings.entries).map
        (synth.pool.messageDelivery synth.session)) (fun _ => synth) (.ok none) := by
  rw [← broadcastRows_eq]
  exact (updateSettings_makes h).bind_pure fun _ => none

/-- A change that the table refuses ends before anything is done. -/
theorem run_change_of_error {change : SettingUpdate} {error : Error}
    (h : synth.settings.update change = .error error) (bench : Bench) :
    (SynthCall.change change).run (synth, bench) = .error error (synth, bench) := by
  rw [run_change, makeUpdate]
  change EStateM.bind (EStateM.bind (store _) _) _ _ = _
  simp only [EStateM.bind, store, h]

/-- One change on a sound synth: refused, it does nothing; accepted, it is stored, and it is sent to
the lowest voices, as many as the engine has room for. -/
theorem run_change_cases (h : synth.pool.receiver.IsName) {change : SettingUpdate}
    {updated : Settings} {value : SettingValue} (hupdate : synth.settings.update change = .ok updated)
    (hget : updated.get? change.name = some value) (bench : Bench) :
    let voices := synth.pool.size
    let count := bench.engine.room voices
    (SynthCall.stateAfter (synth, bench) (.change change)).1 = { synth with settings := updated } ∧
      (SynthCall.change change).DeliversMessages (synth, bench)
        (settingMessages count [(change.name, value)])
        (if count = voices then .ok none
          else .error (.delivery ⟨synth.session.interpreter, .refused⟩)) := by
  intro voices count
  have hmakes := run_change_makes h hupdate hget
  have hlength : (settingMessages voices [(change.name, value)]).length = voices := by
    rw [length_settingMessages, List.length_singleton, Nat.one_mul]
  have hdelivers := deliversMessages_of_makes h hmakes bench
  rw [hlength, take_settingMessages (bench.engine.room_le voices)] at hdelivers
  refine ⟨?_, hdelivers⟩
  rw [SynthCall.stateAfter, hmakes.held_eq]

/-- **A change is stored before it is sent.** Take a reachable synth, whatever the engine still
accepts. A change that the table refuses fails with the error of the table and does nothing else. A
change that it accepts replaces the value of its own setting, and nothing else of the synth, whether
or not a delivery is refused; the lowest voices are sent the new value, in order and once each, as
many as the engine has room for, and the call succeeds exactly when these are all voices. When the
limit is lifted, making the same change again and sending the settings again both succeed, and either
sends the stored value to every voice. -/
theorem change_exact {sessionConfig : SessionConfig} {config : SynthConfig} {bench : Bench}
    {synth : Synth} {started : Bench} (hstart : start sessionConfig config bench = .ok synth started)
    (calls : List SynthCall) (change : SettingUpdate) :
    let reached := SynthCall.after (synth, started) calls
    let call := SynthCall.change change
    let voices := reached.1.pool.size
    let count := reached.2.engine.room voices
    (∀ error, reached.1.settings.update change = .error error →
      outcomeOf call.run reached = .error error ∧ SynthCall.stateAfter reached call = reached) ∧
    (∀ updated, reached.1.settings.update change = .ok updated →
      ∃ declared value, reached.1.settings.get? change.name = some declared ∧
        change.Turns declared value ∧ updated.get? change.name = some value ∧
        (∀ other ≠ change.name, updated.get? other = reached.1.settings.get? other) ∧
        (SynthCall.stateAfter reached call).1 = { reached.1 with settings := updated } ∧
        call.DeliversMessages reached (settingMessages count [(change.name, value)])
          (if count = voices then .ok none
            else .error (.delivery ⟨reached.1.session.interpreter, .refused⟩)) ∧
        let recovered := SynthCall.after reached [call, .engine .recover]
        recovered.1 = { reached.1 with settings := updated } ∧
          call.DeliversMessages recovered (settingMessages voices [(change.name, value)])
            (.ok none) ∧
          (SynthCall.stateAfter recovered call).1 = recovered.1 ∧
          SynthCall.updateSettings.DeliversMessages recovered
            (settingMessages voices updated.entries) (.ok none) ∧
          (change.name, value) ∈ updated.entries ∧
          (SynthCall.stateAfter recovered .updateSettings).1 = recovered.1) := by
  intro reached call voices count
  have houtcome : outcomeOf (start sessionConfig config) bench = .ok synth := by
    rw [outcomeOf, hstart]
  have hsound : reached.1.IsSound synth.pool.receiver :=
    @SynthCall.isSound_after _ (synth, started) (isSound_of_start houtcome) calls
  have hname := hsound.receiver_isName
  refine ⟨fun error herror => ?_, fun updated hupdate => ?_⟩
  · have hrun := run_change_of_error herror reached.2
    exact ⟨by rw [outcomeOf, hrun], by rw [SynthCall.stateAfter, stateAfter, hrun]⟩
  · obtain ⟨declared, value, hdeclared, hturns, rfl⟩ := Settings.update_eq_ok_iff.1 hupdate
    obtain ⟨hget, hothers⟩ := Settings.get?_replace_of_declared hdeclared value
    obtain ⟨hheld, hdelivers⟩ := run_change_cases hname hupdate hget reached.2
    refine ⟨declared, value, hdeclared, hturns, hget, hothers, hheld, hdelivers, ?_⟩
    intro recovered
    -- with the limit lifted, the calls start from the synth that the change has left
    let stored : Synth :=
      { reached.1 with settings := reached.1.settings.replace change.name value }
    have hrecovered : recovered = (stored, (SynthCall.stateAfter reached call).2.unlimited) :=
      Prod.ext hheld rfl
    have hstored : stored.pool.receiver.IsName := hname
    have hagain := run_change_makes hstored (Settings.update_again hupdate) hget
    have hsettings := run_updateSettings_makes hstored
    rw [hrecovered]
    refine ⟨rfl, deliversMessages_unlimited hstored hagain _, ?_,
      deliversMessages_unlimited hstored hsettings _, Settings.mem_of_get? hget, ?_⟩
    · rw [SynthCall.stateAfter, hagain.held_eq]
    · rw [SynthCall.stateAfter, hsettings.held_eq]

/-- One of two voices is sent the new release of the envelope, and the second call sends it to both.
The volume takes no symbol. -/
theorem change_exact_interrupted :
    let release : SettingUpdate := .element "envelope".toList 3 (Single.ofNat 300)
    let loud : SettingUpdate := .whole "volume".toList (.symbol "loud".toList)
    ∃ synth started, start {} { voices := 2 } Bench.fresh = .ok synth started ∧
      let limited := SynthCall.after (synth, started) [.engine (.failAfter 1)]
      (∃ value, (SynthCall.change release).DeliversMessages limited
          (settingMessages 1 [("envelope".toList, value)])
          (.error (.delivery ⟨synth.session.interpreter, .refused⟩)) ∧
        (SynthCall.change release).DeliversMessages
          (SynthCall.after limited [.change release, .engine .recover])
          (settingMessages 2 [("envelope".toList, value)]) (.ok none)) ∧
      SynthCall.stateAfter limited (.change loud) = limited := by
  intro release loud
  have hruns : (match start {} { voices := 2 } Bench.fresh with
      | .ok synth _ =>
          match synth.settings.update release, synth.settings.update loud with
          | .ok _, .error _ => decide (synth.pool.size = 2)
          | _, _ => false
      | .error _ _ => false) = true := by
    decide +kernel
  cases hstart : start {} { voices := 2 } Bench.fresh with
  | error error after =>
      rw [hstart] at hruns
      cases hruns
  | ok synth started =>
      rw [hstart] at hruns
      dsimp only at hruns
      obtain ⟨-, hrelease⟩ := change_exact hstart [.engine (.failAfter 1)] release
      obtain ⟨hloud, -⟩ := change_exact hstart [.engine (.failAfter 1)] loud
      split at hruns
      · rename_i updated error hupdated herror
        have hpool : (SynthCall.after (synth, started) [.engine (.failAfter 1)]).1.pool.size = 2 :=
          of_decide_eq_true hruns
        obtain ⟨-, value, -, -, -, -, -, hfirst, -, hagain, -⟩ := hrelease updated hupdated
        rw [hpool] at hfirst hagain
        exact ⟨synth, started, rfl, ⟨value, hfirst, hagain⟩, (hloud error herror).2⟩
      · cases hruns

end Synth

end DynamicPatching

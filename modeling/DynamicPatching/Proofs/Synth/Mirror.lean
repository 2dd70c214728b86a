import DynamicPatching.Proofs.Synth.Records

/-!
# Settings mirrored in the voices

As long as every operation succeeds, the settings of a synth are mirrored in the slots of its channel
object: the last list that a voice was sent about a setting holds the current value. The exceptions
are voices that a resize has added. They are loaded but sent nothing, so such a voice stays without a
setting until the settings are sent again or that setting is changed (`SynthCall.Unsent`). One
operation keeps the mirror (`Synth.Mirrored.after_operation`), and so does a run
(`Synth.mirrored_of_plays`).
-/

namespace DynamicPatching

/-! ## Runs of operations -/

namespace SynthCall

/-- The call is an operation of the synth itself. -/
def IsOperation : SynthCall → Prop
  | .noteOn _ _ _ | .noteOff _ _ | .pitchBend _ _ | .voiceVolume _ _ | .change _
  | .setVoiceCount _ | .updateSettings => True
  | .session _ | .engine _ => False

/-- A row of operations, each of which succeeds, on at most `2 ^ 24` voices throughout. -/
inductive Plays (start : Synth × Bench) : List SynthCall → Prop where
  | nil : start.1.pool.size ≤ 2 ^ 24 → Plays start []
  | snoc {calls : List SynthCall} {call : SynthCall} {result : Option Nat} :
      Plays start calls → call.IsOperation →
      outcomeOf call.run (after start calls) = .ok result →
      (after start (calls ++ [call])).1.pool.size ≤ 2 ^ 24 → Plays start (calls ++ [call])

theorem Plays.start_size_le {start : Synth × Bench} {calls : List SynthCall}
    (h : Plays start calls) : start.1.pool.size ≤ 2 ^ 24 := by
  induction h with
  | nil hsize => exact hsize
  | snoc _ _ _ _ ih => exact ih

/-- The call neither deletes the voice nor sends it the setting. -/
def Leaves (voice : Nat) (name : Text) : SynthCall → Prop
  | .setVoiceCount voices => voice < voices
  | .updateSettings => False
  | .change update => update.name ≠ name
  | .noteOn _ _ _ | .noteOff _ _ | .pitchBend _ _ | .voiceVolume _ _ | .session _ | .engine _ => True

/-- A resize has added the voice, and no later call deletes it or sends it the setting. -/
def Unsent (start : Synth × Bench) (calls : List SynthCall) (voice : Nat) (name : Text) : Prop :=
  ∃ earlier voices later, calls = earlier ++ .setVoiceCount voices :: later ∧
    (after start earlier).1.pool.size ≤ voice ∧ voice < voices ∧
    ∀ call ∈ later, call.Leaves voice name

/-- Whether a voice of the grown pool is without the setting after one more call. -/
def UnsentAfter (size : Nat) (unsent : Prop) (voice : Nat) (name : Text) : SynthCall → Prop
  | .setVoiceCount voices => size ≤ voice ∧ voice < voices ∨ unsent ∧ voice < voices
  | .updateSettings => False
  | .change update => unsent ∧ update.name ≠ name
  | .noteOn _ _ _ | .noteOff _ _ | .pitchBend _ _ | .voiceVolume _ _ | .session _ | .engine _ =>
      unsent

variable {start : Synth × Bench} {calls : List SynthCall} {call : SynthCall} {voice : Nat}
  {name : Text}

theorem after_snoc (start : Synth × Bench) (calls : List SynthCall) (call : SynthCall) :
    after start (calls ++ [call]) = stateAfter (after start calls) call := by
  rw [after, List.foldl_append]
  rfl

/-- The last call of a run adds the voice, or leaves it without the setting. -/
theorem unsent_snoc :
    Unsent start (calls ++ [call]) voice name ↔
      UnsentAfter (after start calls).1.pool.size (Unsent start calls voice name) voice name
        call := by
  -- the resize that added the voice is the last call itself, or stands before it
  have hsplit : Unsent start (calls ++ [call]) voice name ↔
      (∃ voices, call = .setVoiceCount voices ∧ (after start calls).1.pool.size ≤ voice ∧
        voice < voices) ∨ (Unsent start calls voice name ∧ call.Leaves voice name) := by
    constructor
    · rintro ⟨earlier, voices, later, hcalls, hsize, hvoice, hlater⟩
      rcases List.eq_nil_or_concat' later with rfl | ⟨later, last, rfl⟩
      · obtain ⟨rfl, rfl⟩ := List.append_singleton_inj.1 hcalls
        exact .inl ⟨voices, rfl, hsize, hvoice⟩
      · rw [← List.cons_append, ← List.append_assoc] at hcalls
        obtain ⟨rfl, rfl⟩ := List.append_singleton_inj.1 hcalls
        rw [List.forall_mem_append, List.forall_mem_singleton] at hlater
        exact .inr ⟨⟨earlier, voices, later, rfl, hsize, hvoice, hlater.1⟩, hlater.2⟩
    · rintro (⟨voices, rfl, hsize, hvoice⟩ | ⟨hunsent, hcall⟩)
      · exact ⟨calls, voices, [], rfl, hsize, hvoice, fun _ hnil => absurd hnil List.not_mem_nil⟩
      · obtain ⟨earlier, voices, later, rfl, hsize, hvoice, hlater⟩ := hunsent
        refine ⟨earlier, voices, later ++ [call], ?_, hsize, hvoice, ?_⟩
        · rw [List.append_assoc, List.cons_append]
        · rw [List.forall_mem_append, List.forall_mem_singleton]
          exact ⟨hlater, hcall⟩
  rw [hsplit]
  cases call <;> simp [UnsentAfter, Leaves]

end SynthCall

/-! ## Calls that succeed -/

namespace Synth

variable {synth : Synth} {bench : Bench}

/-- A call that succeeds has made the row of its action. -/
theorem effect_of_makes {α : Type} {call : SynthCall} {action : ActionOn Synth α}
    {result : α → Option Nat} {row : List Delivery} {heldAfter : Nat → Synth}
    {ending : Except Error α} {value : Option Nat}
    (hok : outcomeOf call.run (synth, bench) = .ok value)
    (hmakes : action.Makes synth row heldAfter ending)
    (hrun : call.run = action >>= fun found => pure (result found)) :
    (SynthCall.stateAfter (synth, bench) call).1 = heldAfter row.length ∧
      (SynthCall.stateAfter (synth, bench) call).2.engine.accepted =
        bench.engine.accepted ++ row := by
  rw [SynthCall.stateAfter]
  rw [hrun] at hok ⊢
  obtain ⟨found, hfound, -⟩ := outcomeOf_bind_eq_ok_iff.1 hok
  rw [stateAfter_bind_pure]
  exact hmakes.of_ok hfound

/-- No call resizes a synth to nothing. -/
theorem setVoiceCount_zero {value : Option Nat} :
    outcomeOf (SynthCall.setVoiceCount 0).run (synth, bench) ≠ .ok value := by
  intro hok
  obtain ⟨_, hresize, -⟩ := outcomeOf_bind_eq_ok_iff.1 hok
  have hmakes : (setVoiceCount 0).Makes synth [] (fun _ => synth) (.error (.invalidVoiceCount 0)) :=
    makes_onPool VoicePool.resize_zero_makes
  cases ((hmakes.delivers bench).of_ok hresize).1

/-- Stores the outcome of an update and sends the setting to every voice. -/
def makeUpdate (update : SettingUpdate) : ActionOn Synth Unit := do
  store fun settings => settings.update update
  broadcastSetting update.name

theorem run_change (update : SettingUpdate) :
    (SynthCall.change update).run = makeUpdate update >>= fun _ => pure none := by
  cases update <;> rfl

/-- An update that succeeds sends the new value to every voice. -/
theorem makeUpdate_makes (h : synth.pool.receiver.IsName) {update : SettingUpdate}
    {settings : Settings} {value : SettingValue}
    (hupdate : synth.settings.update update = .ok settings)
    (hget : settings.get? update.name = some value) :
    (makeUpdate update).Makes synth
      (synth.pool.broadcastRow synth.session (Settings.messageOf update.name value))
      (fun _ => { synth with settings }) (.ok ()) := by
  have hstore := @makes_store synth fun settings => settings.update update
  have hafter : synth.afterStoring (fun settings => settings.update update) =
      { synth with settings } := by
    rw [afterStoring, hupdate]
  rw [hafter, hupdate] at hstore
  have hmessage : (ofOutcome (settings.message update.name)).Makes []
      (.ok (Settings.messageOf update.name value)) := by
    rw [Settings.message, hget]
    exact makes_ofOutcome _
  have hbroadcast : (broadcastSetting update.name).Makes { synth with settings }
      (synth.pool.broadcastRow synth.session (Settings.messageOf update.name value))
      (fun _ => { synth with settings }) (.ok ()) :=
    ActionOn.makes_onBench _ (hmessage.bind (VoicePool.broadcast_makes h _))
  exact hstore.bind_still hbroadcast

/-- An update that fails makes its call fail. -/
theorem update_of_change {update : SettingUpdate} {value : Option Nat}
    (hok : outcomeOf (SynthCall.change update).run (synth, bench) = .ok value) :
    ∃ settings, synth.settings.update update = .ok settings := by
  rw [run_change] at hok
  obtain ⟨_, hmake, -⟩ := outcomeOf_bind_eq_ok_iff.1 hok
  obtain ⟨_, hstore, -⟩ := outcomeOf_bind_eq_ok_iff.1 hmake
  rw [((makes_store _).delivers bench).outcome_eq] at hstore
  cases hupdate : synth.settings.update update with
  | ok settings => exact ⟨settings, rfl⟩
  | error error =>
      rw [hupdate] at hstore
      cases hstore

end Synth

/-! ## The mirror -/

/-- The slot holds the atoms, or nothing if it is to be without them. -/
def SlotRecord.Mirrors (record : SlotRecord) (unsent : Prop) (atoms : List Atom) : Prop :=
  (unsent → record = .fresh) ∧ (¬ unsent → record = .sent atoms)

namespace SlotRecord.Mirrors

variable {setting : SlotSetting} {record : SlotRecord} {row : List Delivery} {unsent : Prop}
  {atoms old : List Atom}

theorem congr {unsent' : Prop} (h : record.Mirrors unsent atoms) (hunsent : unsent' ↔ unsent) :
    record.Mirrors unsent' atoms := by
  rwa [SlotRecord.Mirrors, hunsent]

theorem keptBy (h : record.Mirrors unsent atoms) (hrow : setting.KeptBy row) :
    (row.foldl setting.step record).Mirrors unsent atoms := by
  rwa [hrow]

/-- A slot that is there takes what it is sent. -/
theorem sentBy (h : record.Mirrors unsent old) (hrow : setting.SentBy atoms row) :
    (row.foldl setting.step record).Mirrors False atoms := by
  refine ⟨False.elim, fun _ => ?_⟩
  rw [hrow]
  by_cases hunsent : unsent
  · rw [h.1 hunsent]
    rfl
  · rw [h.2 hunsent]
    rfl

theorem of_addedBy (hrow : setting.AddedBy row) (hunsent : unsent) :
    (row.foldl setting.step record).Mirrors unsent atoms :=
  ⟨fun _ => hrow record, fun hc => absurd hunsent hc⟩

end SlotRecord.Mirrors

namespace Synth

/-- The records of the tracked settings of every voice, replayed from the deliveries since `before`,
mirror the settings of the synth. -/
structure Mirrored (first : Synth) (before deliveries : List Delivery)
    (unsent : Nat → Text → Prop) (state : Synth × Bench) : Prop where
  session_eq : state.1.session = first.session
  receiver_eq : state.1.pool.receiver = first.pool.receiver
  isBounded : state.1.IsBounded
  accepted_eq : state.2.engine.accepted = before ++ deliveries
  mirrors : ∀ voice name value, IsTracked name → voice < state.1.pool.size →
    state.1.settings.get? name = some value →
    ((first.voiceSetting voice name).replay deliveries).Mirrors (unsent voice name)
      (first.pool.messageAtoms voice (Settings.messageOf name value))

namespace Mirrored

variable {first : Synth} {before deliveries row : List Delivery}
  {unsent unsent' : Nat → Text → Prop}

/-- A row that mirrors the settings it leaves keeps the mirror. -/
theorem append {state state' : Synth × Bench} (h : Mirrored first before deliveries unsent state)
    (hsession : state'.1.session = state.1.session)
    (hreceiver : state'.1.pool.receiver = state.1.pool.receiver) (hbounded : state'.1.IsBounded)
    (haccepted : state'.2.engine.accepted = state.2.engine.accepted ++ row)
    (hmirrors : ∀ voice name value, IsTracked name → voice < state'.1.pool.size →
      state'.1.settings.get? name = some value →
      (row.foldl (state.1.voiceSetting voice name).step
        ((state.1.voiceSetting voice name).replay deliveries)).Mirrors (unsent' voice name)
        (state.1.pool.messageAtoms voice (Settings.messageOf name value))) :
    Mirrored first before (deliveries ++ row) unsent' state' := by
  refine ⟨hsession.trans h.session_eq, hreceiver.trans h.receiver_eq, hbounded, ?_, ?_⟩
  · rw [haccepted, h.accepted_eq, List.append_assoc]
  · intro voice name value htracked hvoice hget
    have hrow := hmirrors voice name value htracked hvoice hget
    rw [voiceSetting, VoicePool.messageAtoms, h.session_eq, h.receiver_eq] at hrow
    rw [SlotSetting.replay_append]
    exact hrow

variable {synth : Synth} {bench : Bench} {call : SynthCall} {result : Option Nat}

theorem mirrors_self {state : Synth × Bench} (h : Mirrored first before deliveries unsent state)
    {voice : Nat} {name : Text} {value : SettingValue} (htracked : IsTracked name)
    (hvoice : voice < state.1.pool.size) (hget : state.1.settings.get? name = some value) :
    ((state.1.voiceSetting voice name).replay deliveries).Mirrors (unsent voice name)
      (state.1.pool.messageAtoms voice (Settings.messageOf name value)) := by
  have hmirrors := h.mirrors voice name value htracked hvoice hget
  rwa [voiceSetting, VoicePool.messageAtoms, ← h.session_eq, ← h.receiver_eq] at hmirrors

/-- A row that leaves every tracked setting alone keeps the mirror of a synth that holds what it
held. -/
theorem append_kept {state' : Synth × Bench} {pool : VoicePool}
    (h : Mirrored first before deliveries unsent (synth, bench))
    (hheld : state'.1 = { synth with pool }) (hreceiver : pool.receiver = synth.pool.receiver)
    (hsize : pool.size = synth.pool.size) (hbounded : state'.1.IsBounded)
    (haccepted : state'.2.engine.accepted = bench.engine.accepted ++ row)
    (hkept : ∀ voice name, IsTracked name → voice < synth.pool.size →
      (synth.voiceSetting voice name).KeptBy row) :
    Mirrored first before (deliveries ++ row) unsent state' := by
  refine h.append ?_ ?_ hbounded haccepted ?_
  · rw [hheld]
  · rw [hheld]
    exact hreceiver
  · rw [hheld]
    dsimp only
    rw [hsize]
    intro voice name value htracked hvoice hget
    exact (h.mirrors_self htracked hvoice hget).keptBy (hkept voice name htracked hvoice)

/-- What a call leaves is bounded as long as its size is. -/
theorem isBounded_stateAfter (h : Mirrored first before deliveries unsent (synth, bench))
    (hsize : (SynthCall.stateAfter (synth, bench) call).1.pool.size ≤ 2 ^ 24) :
    (SynthCall.stateAfter (synth, bench) call).1.IsBounded := by
  have hsound := @SynthCall.isSound_stateAfter _ (synth, bench) h.isBounded.isSound call
  refine ⟨?_, hsize⟩
  rw [hsound.receiver_eq]
  exact hsound

/-- A message to one voice that is about no tracked setting keeps the mirror. -/
theorem after_toVoice (h : Mirrored first before deliveries unsent (synth, bench)) {voice : Nat}
    {message : Text}
    (hok : outcomeOf call.run (synth, bench) = .ok result)
    (hsize : (SynthCall.stateAfter (synth, bench) call).1.pool.size ≤ 2 ^ 24)
    (hmessage : ∀ name, IsTracked name →
      ¬ Atom.listOfText name <+: VoicePool.messageTokens message)
    (hrun : call.run = toVoice voice message >>= fun _ => pure none) :
    ∃ row, Mirrored first before (deliveries ++ row) unsent
      (SynthCall.stateAfter (synth, bench) call) := by
  have hbound : synth.pool.size ≤ 2 ^ 24 := h.isBounded.size_le
  have hmakes := @toVoice_makes synth h.isBounded.isName voice message
  obtain ⟨hheld, haccepted⟩ := effect_of_makes hok hmakes hrun
  refine ⟨_, h.append_kept hheld rfl rfl (h.isBounded_stateAfter hsize) haccepted ?_⟩
  intro other name htracked hother
  split
  · exact keptBy_addressed h.isBounded (by omega) (by omega) (hmessage name htracked)
  · exact fun _ => rfl

/-- A change of a setting mirrors the new value in every voice. -/
theorem after_change (h : Mirrored first before deliveries unsent (synth, bench))
    {update : SettingUpdate} (hok : outcomeOf (SynthCall.change update).run (synth, bench) = .ok result)
    (hsize : (SynthCall.stateAfter (synth, bench) (.change update)).1.pool.size ≤ 2 ^ 24) :
    ∃ row, Mirrored first before (deliveries ++ row)
      (fun voice name => unsent voice name ∧ update.name ≠ name)
      (SynthCall.stateAfter (synth, bench) (.change update)) := by
  have hbound : synth.pool.size ≤ 2 ^ 24 := h.isBounded.size_le
  obtain ⟨settings, hupdate⟩ := update_of_change hok
  obtain ⟨declared, value, hdeclared, -, rfl⟩ := Settings.update_eq_ok_iff.1 hupdate
  have hget : (synth.settings.replace update.name value).get? update.name = some value := by
    rw [Settings.get?_replace, if_pos rfl, hdeclared]
    rfl
  obtain ⟨hheld, haccepted⟩ :=
    effect_of_makes hok (makeUpdate_makes h.isBounded.isName hupdate hget) (run_change update)
  have hbounded := h.isBounded_stateAfter hsize
  have hsettings := hbounded.isSound.declarations_eq
  rw [hheld] at hsettings
  refine ⟨_, h.append ?_ ?_ hbounded haccepted ?_⟩
  · rw [hheld]
  · rw [hheld]
  · rw [hheld]
    intro voice name value' htracked hvoice hvalue
    by_cases hname : update.name = name
    · -- the setting that was changed: every voice holds the new value
      subst hname
      obtain rfl := Option.some.inj (hget.symm.trans hvalue)
      have hsent := (h.mirrors_self htracked hvoice hdeclared).sentBy
        (sentBy_broadcastRow h.isBounded hvoice htracked.isDeclared value)
      exact hsent.congr ⟨fun hc => hc.2 rfl, False.elim⟩
    · have hold : synth.settings.get? name = some value' := by
        rw [← hvalue, Settings.get?_replace, if_neg (Ne.symm hname)]
      have hkept := (h.mirrors_self htracked hvoice hold).keptBy
        (keptBy_broadcastRow h.isBounded (hvoice.le.trans hbound)
          (not_prefix_messageOf htracked hsettings hget hname))
      exact hkept.congr ⟨fun hc => hc.1, fun hc => ⟨hc, hname⟩⟩

/-- A resize keeps the mirror in the voices that stay; the voices it adds are unsent. -/
theorem after_setVoiceCount (h : Mirrored first before deliveries unsent (synth, bench))
    {voices : Nat} (hok : outcomeOf (SynthCall.setVoiceCount voices).run (synth, bench) = .ok result)
    (hsize : (SynthCall.stateAfter (synth, bench) (.setVoiceCount voices)).1.pool.size ≤ 2 ^ 24) :
    ∃ row, Mirrored first before (deliveries ++ row)
      (fun voice name =>
        synth.pool.size ≤ voice ∧ voice < voices ∨ unsent voice name ∧ voice < voices)
      (SynthCall.stateAfter (synth, bench) (.setVoiceCount voices)) := by
  have hbound : synth.pool.size ≤ 2 ^ 24 := h.isBounded.size_le
  have hvoices : voices ≠ 0 := by
    rintro rfl
    exact setVoiceCount_zero hok
  obtain ⟨hheld, haccepted⟩ :=
    effect_of_makes hok (@setVoiceCount_makes synth h.isBounded.isName _ hvoices) rfl
  have hpool :
      (SynthCall.stateAfter (synth, bench) (.setVoiceCount voices)).1.pool.size = voices := by
    rw [hheld]
    exact VoicePool.size_resized voices
  refine ⟨_, h.append ?_ ?_ (h.isBounded_stateAfter hsize) haccepted ?_⟩
  · rw [hheld]
  · rw [hheld]
    exact VoicePool.resized_receiver _ _
  · rw [hpool] at hsize ⊢
    rw [hheld]
    intro voice name value htracked hvoice hget
    -- a voice that was held keeps its slots; an added one is loaded afresh, so nothing was sent to it
    by_cases hold : voice < synth.pool.size
    · have hkept : (synth.voiceSetting voice name).KeptBy
          (synth.pool.resizeRow synth.session voices) :=
        keptBy_resizeRow h.isBounded hsize hold hvoice
      refine ((h.mirrors_self htracked hold hget).keptBy hkept).congr ⟨fun hc => ?_, fun hc => ?_⟩
      · exact (hc.resolve_left fun hadded => Nat.not_le_of_lt hold hadded.1).1
      · exact .inr ⟨hc, hvoice⟩
    · have hadded : (synth.voiceSetting voice name).AddedBy
          (synth.pool.resizeRow synth.session voices) :=
        addedBy_resizeRow h.isBounded hsize (Nat.le_of_not_lt hold) hvoice
      exact .of_addedBy hadded (.inl ⟨Nat.le_of_not_lt hold, hvoice⟩)

/-- Sending the settings mirrors all of them in every voice. -/
theorem after_updateSettings (h : Mirrored first before deliveries unsent (synth, bench))
    (hok : outcomeOf SynthCall.updateSettings.run (synth, bench) = .ok result)
    (hsize : (SynthCall.stateAfter (synth, bench) .updateSettings).1.pool.size ≤ 2 ^ 24) :
    ∃ row, Mirrored first before (deliveries ++ row) (fun _ _ => False)
      (SynthCall.stateAfter (synth, bench) .updateSettings) := by
  obtain ⟨hheld, haccepted⟩ :=
    effect_of_makes hok (updateSettings_makes h.isBounded.isName) rfl
  refine ⟨_, h.append ?_ ?_ (h.isBounded_stateAfter hsize) haccepted ?_⟩
  · rw [hheld]
  · rw [hheld]
  · rw [hheld]
    intro voice name value htracked hvoice hget
    exact (h.mirrors_self htracked hvoice hget).sentBy
      (sentBy_settingsRow h.isBounded htracked hvoice hget)

/-- One operation that succeeds keeps the mirror. -/
theorem after_operation (h : Mirrored first before deliveries unsent (synth, bench))
    (hcall : call.IsOperation) (hok : outcomeOf call.run (synth, bench) = .ok result)
    (hsize : (SynthCall.stateAfter (synth, bench) call).1.pool.size ≤ 2 ^ 24) :
    ∃ row, Mirrored first before (deliveries ++ row)
      (fun voice name =>
        SynthCall.UnsentAfter synth.pool.size (unsent voice name) voice name call)
      (SynthCall.stateAfter (synth, bench) call) := by
  have hbound : synth.pool.size ≤ 2 ^ 24 := h.isBounded.size_le
  cases call with
  | noteOn note velocity volume =>
      have hmakes := @noteOn_makes synth h.isBounded.isName h.isBounded.isSound.cursor_lt note
        velocity volume
      obtain ⟨hheld, haccepted⟩ := effect_of_makes hok hmakes rfl
      refine ⟨_, h.append_kept hheld rfl rfl (h.isBounded_stateAfter hsize) haccepted ?_⟩
      intro voice name htracked hvoice
      exact keptBy_noteRow h.isBounded htracked (hvoice.le.trans hbound) note velocity volume
  | noteOff voice note =>
      refine h.after_toVoice hok hsize ?_ rfl
      intro name htracked
      exact Settings.not_listOfText_prefix_note htracked.isDeclared
        (lt_trans note.toNat_lt (by decide)) _
  | pitchBend voice value =>
      refine h.after_toVoice hok hsize ?_ rfl
      intro name htracked
      exact not_prefix_bend htracked value
  | voiceVolume voice volume =>
      refine h.after_toVoice hok hsize ?_ rfl
      intro name htracked
      exact not_prefix_volume htracked volume.clampToZero
  | change update => exact h.after_change hok hsize
  | setVoiceCount voices => exact h.after_setVoiceCount hok hsize
  | updateSettings => exact h.after_updateSettings hok hsize
  | session call => exact hcall.elim
  | engine call => exact hcall.elim

end Mirrored

/-! ## From the start -/

/-- A synth that was started mirrors its settings in every voice. -/
theorem mirrored_of_start {sessionConfig : SessionConfig} {config : SynthConfig}
    {bench started : Bench} {synth : Synth}
    (hstart : start sessionConfig config bench = .ok synth started)
    (hsize : synth.pool.size ≤ 2 ^ 24) :
    ∃ deliveries, Mirrored synth bench.engine.accepted deliveries
      (SynthCall.Unsent (synth, started) []) (synth, started) := by
  have houtcome : outcomeOf (start sessionConfig config) bench = .ok synth := by
    rw [outcomeOf, hstart]
  have hbounded : synth.IsBounded := ⟨isSound_of_start houtcome, hsize⟩
  refine ⟨_, rfl, rfl, hbounded, start_row hstart, ?_⟩
  intro voice name value htracked (hvoice : voice < synth.pool.size) hget
  have hunsent : ¬ SynthCall.Unsent (synth, started) [] voice name := by
    rintro ⟨earlier, voices, later, hcalls, -⟩
    cases (List.append_eq_nil_iff.1 hcalls.symm).2
  have hopening : ((openingCommands synth.pool.receiver).map synth.session.deliveryOf).foldl
      (synth.voiceSetting voice name).step .absent = .absent := by
    apply foldl_eq_self
    intro delivery hdelivery record
    obtain ⟨command, hcommand, rfl⟩ := List.mem_map.1 hdelivery
    refine SlotSetting.step_command (openingCommands_isWellFormed _ command hcommand) ?_
    have hkeywords : ∀ command ∈ openingCommands synth.pool.receiver, command.keyword ≠ .send := by
      simp [openingCommands, Command.keyword]
    exact hkeywords command hcommand
  have hloads : (synth.pool.loads synth.session 0 synth.pool.size).foldl
      (synth.voiceSetting voice name).step .absent = .fresh := by
    rw [voiceSetting, SlotSetting.foldl_loads hbounded.isName (hvoice.le.trans hsize) (by omega),
      if_pos ⟨Nat.zero_le voice, by omega⟩]
  refine ⟨fun hc => absurd hc hunsent, fun _ => ?_⟩
  rw [SlotSetting.replay, List.foldl_append, List.foldl_append, hopening, hloads,
    sentBy_settingsRow hbounded htracked hvoice hget]
  rfl

/-- A row of operations that succeed keeps the mirror. -/
theorem mirrored_of_plays {first : Synth} {before deliveries : List Delivery}
    {state : Synth × Bench} {calls : List SynthCall}
    (h : Mirrored first before deliveries (SynthCall.Unsent state []) state)
    (hplays : SynthCall.Plays state calls) :
    ∃ deliveries, Mirrored first before deliveries (SynthCall.Unsent state calls)
      (SynthCall.after state calls) := by
  induction hplays with
  | nil _ => exact ⟨deliveries, h⟩
  | @snoc calls call _ _ hcall hok hsize ih =>
      obtain ⟨deliveries, hmirrored⟩ := ih
      have hunsent : SynthCall.Unsent state (calls ++ [call]) = fun voice name =>
          SynthCall.UnsentAfter (SynthCall.after state calls).1.pool.size
            (SynthCall.Unsent state calls voice name) voice name call := by
        funext voice name
        exact propext SynthCall.unsent_snoc
      rw [SynthCall.after_snoc] at hsize ⊢
      obtain ⟨row, hmirrored⟩ := hmirrored.after_operation hcall hok hsize
      refine ⟨deliveries ++ row, ?_⟩
      rw [hunsent]
      exact hmirrored

/-- **Settings are mirrored in the voices.** Take a synth that was started and a row of operations,
each of which succeeds, and replay what the channel receiver has been sent since before the start. Of
every setting that no note drives, each voice of the pool has last been sent what a message to that
voice alone would now deliver, unless a resize has added the voice and the settings have not been sent
since, nor this one been changed: then it has been sent nothing about the setting. -/
theorem settings_mirrored {sessionConfig : SessionConfig} {config : SynthConfig}
    {bench started : Bench} {synth : Synth}
    (hstart : start sessionConfig config bench = .ok synth started) {calls : List SynthCall}
    (hplays : SynthCall.Plays (synth, started) calls) :
    let reached := SynthCall.after (synth, started) calls
    ∃ deliveries, reached.2.engine.accepted = bench.engine.accepted ++ deliveries ∧
      ∀ voice name message, voice < reached.1.pool.size → name ≠ Settings.bendName →
        name ≠ volumeName → reached.1.settings.message name = .ok message →
        let record := (reached.1.voiceSetting voice name).replay deliveries
        ∃ atoms,
          (∀ other, other.engine.limit = none →
            (reached.1.pool.unicast reached.1.session voice message).EndsIn other
              [⟨reached.1.session.interpreter, .list atoms⟩] (.ok ())) ∧
          (SynthCall.Unsent (synth, started) calls voice name → record = .fresh) ∧
          (¬ SynthCall.Unsent (synth, started) calls voice name → record = .sent atoms) := by
  intro reached
  obtain ⟨first, hfirst⟩ := mirrored_of_start hstart hplays.start_size_le
  obtain ⟨deliveries, hmirrored⟩ := mirrored_of_plays hfirst hplays
  refine ⟨deliveries, hmirrored.accepted_eq, ?_⟩
  intro voice name message hvoice hbend hvolume hmessage record
  have hbound : reached.1.pool.size ≤ 2 ^ 24 := hmirrored.isBounded.size_le
  have hname : reached.1.pool.receiver.IsName := hmirrored.isBounded.isName
  obtain ⟨value, hget, rfl⟩ := Settings.get?_of_message hmessage
  have htracked : IsTracked name :=
    ⟨Settings.isDeclared_of_get? hmirrored.isBounded.isSound.declarations_eq hget, hbend, hvolume⟩
  refine ⟨reached.1.pool.messageAtoms voice (Settings.messageOf name value), ?_,
    hmirrored.mirrors_self htracked hvoice hget⟩
  intro other hlimit
  have hmakes := @VoicePool.unicast_makes reached.1.session reached.1.pool hname voice
    (Settings.messageOf name value)
  rw [if_pos hvoice, if_pos hvoice, VoicePool.messageDelivery_addressed hname (by omega)] at hmakes
  exact hmakes.endsIn hlimit

/-- A voice that was added has been sent the setting that was changed since, and no other. -/
theorem settings_mirrored_grown :
    let resize : SynthCall := .setVoiceCount 3
    let change : SynthCall := .change (.element "pan".toList 0 (Single.ofRatio 1 4))
    ∃ synth started, start {} { voices := 2 } Bench.fresh = .ok synth started ∧
      SynthCall.Plays (synth, started) [resize, change] ∧
      let reached := SynthCall.after (synth, started) [resize, change]
      ∃ atoms,
        (reached.1.voiceSetting 2 "pan".toList).replay reached.2.engine.accepted = .sent atoms ∧
        (reached.1.voiceSetting 2 "mix".toList).replay reached.2.engine.accepted = .fresh := by
  intro resize change
  have hruns : (match start {} { voices := 2 } Bench.fresh with
      | .ok synth started =>
          let grown := SynthCall.after (synth, started) [resize]
          let reached := SynthCall.after (synth, started) [resize, change]
          decide ((synth.pool.size = 2 ∧ grown.1.pool.size = 3 ∧ reached.1.pool.size = 3) ∧
            (outcomeOf resize.run (synth, started) = .ok none ∧
              outcomeOf change.run grown = .ok none) ∧
            reached.1.settings.message "pan".toList = .ok "pan 0.25 0".toList ∧
            reached.1.settings.message "mix".toList = .ok "mix 1 0.5".toList)
      | .error _ _ => false) = true := by
    decide +kernel
  cases hstart : start {} { voices := 2 } Bench.fresh with
  | error error after =>
      rw [hstart] at hruns
      cases hruns
  | ok synth started =>
      rw [hstart] at hruns
      obtain ⟨⟨hsize, hgrown, hreached⟩, ⟨hresize, hchange⟩, hpan, hmix⟩ :=
        of_decide_eq_true hruns
      have hnone : SynthCall.Plays (synth, started) [] := .nil (hsize.le.trans (by decide))
      have hone : SynthCall.Plays (synth, started) [resize] :=
        .snoc hnone trivial hresize (hgrown.le.trans (by decide))
      have hplays : SynthCall.Plays (synth, started) [resize, change] :=
        .snoc hone trivial hchange (hreached.le.trans (by decide))
      obtain ⟨deliveries, haccepted, hmirrored⟩ := settings_mirrored hstart hplays
      obtain ⟨atoms, -, -, hsent⟩ :=
        hmirrored 2 _ _ (by omega) (by decide) (by decide) hpan
      obtain ⟨-, -, hfresh, -⟩ := hmirrored 2 _ _ (by omega) (by decide) (by decide) hmix
      refine ⟨synth, started, rfl, hplays, atoms, ?_⟩
      have hall : (SynthCall.after (synth, started) [resize, change]).2.engine.accepted =
          deliveries := haccepted
      rw [hall]
      refine ⟨hsent ?_, hfresh ?_⟩
      · intro hunsent
        exact ((@SynthCall.unsent_snoc _ [resize] change 2 _).1 hunsent).2 rfl
      · have hother : "pan".toList ≠ "mix".toList := by decide
        exact ⟨[], 3, [change], rfl, hsize.le, by decide, List.forall_mem_singleton.2 hother⟩

end Synth

end DynamicPatching

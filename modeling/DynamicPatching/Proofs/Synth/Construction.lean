import DynamicPatching.Proofs.Single.Grammar
import DynamicPatching.Proofs.Setting.Declaration
import DynamicPatching.Proofs.Synth.Rows
import DynamicPatching.Proofs.Text.Bytes
import Mathlib.Data.List.Forall2

/-!
# What starting a synth delivers

A synth is started in one row of deliveries: the patch is cleared and built, every voice is loaded,
and every voice is sent every setting, in the order of the settings' names (`start_delivers`). The
name of the channel receiver comes from the configuration and is first tested by the load of a
voice, and so is the number of voices before it, so a configuration that is not accepted leaves the
host patch behind.
-/

namespace DynamicPatching

/-! ## Names of receivers -/

theorem Session.receiverName_ne_nil (handle : Nat) (suffix : Text) :
    receiverName handle suffix ≠ [] := by
  simp [receiverName]

/-- A receiver name begins with digits and a hyphen, so it is a name unless it holds a blank. -/
theorem Session.receiverName_isName_iff {handle : Nat} {suffix : Text} :
    (receiverName handle suffix).IsName ↔ (receiverName handle suffix).any Text.isBlank = false := by
  have hnumeric : Text.isNumeric (receiverName handle suffix) = false := by
    rw [Text.isNumeric, Text.number?, receiverName,
      Literal.read?_hyphen (Text.isDigits_decimal handle)]
    rfl
  constructor
  · intro h
    exact h.2.1
  · intro h
    exact ⟨receiverName_ne_nil handle suffix, h, hnumeric⟩

theorem Command.makeSend_of_blank {receiver : Text} (hne : receiver ≠ [])
    (hblank : receiver.any Text.isBlank = true) (message : Text) :
    ∃ line, (makeSend receiver message).outcome =
      .error (.malformedCommand line (.blankInName .receiver receiver)) := by
  refine ⟨Text.trim (givenLine .send [receiver, message]), ?_⟩
  rw [makeSend, Checked.outcome_bind, requireName, if_neg hne, if_pos hblank]
  rfl

/-! ## Encoded calls -/

/-- Each call yields a command, and its encoding is delivered to the receiver. -/
def Encodes (receiver : Text) (calls : List (Checked Command)) (deliveries : List Delivery) : Prop :=
  List.Forall₂ (fun call delivery => ∃ command atoms, call.outcome = .ok command ∧
    command.encode.outcome = .ok atoms ∧ delivery = ⟨receiver, .list atoms⟩) calls deliveries

/-- On the bench the action ends as given, and the engine accepts the deliveries and no others. -/
structure Action.EndsIn {α : Type} (action : Action α) (bench : Bench) (deliveries : List Delivery)
    (ending : Except Error α) : Prop where
  outcome_eq : outcomeOf action bench = ending
  accepted_eq : (stateAfter action bench).engine.accepted = bench.engine.accepted ++ deliveries

/-- If the engine has room for the whole row of an action, it is accepted. -/
theorem Action.Makes.endsIn_of_room {α : Type} {action : Action α} {row : List Delivery}
    {ending : Except Error α} (h : action.Makes row ending) {bench : Bench}
    (hroom : bench.engine.room row.length = row.length) : action.EndsIn bench row ending := by
  constructor
  · rw [(h bench).outcome_eq, Engine.refusal?_eq_none_iff.2 hroom]
    rfl
  · rw [(h bench).engine_eq, Engine.acceptAll, hroom, List.take_length]

/-- Without a limit it has. -/
theorem Action.Makes.endsIn {α : Type} {action : Action α} {row : List Delivery}
    {ending : Except Error α} (h : action.Makes row ending) {bench : Bench}
    (hlimit : bench.engine.limit = none) : action.EndsIn bench row ending := by
  apply h.endsIn_of_room
  rw [Engine.room, hlimit]

namespace Session

variable {session : Session}

/-- Well-formed commands are delivered as they are encoded. -/
theorem encodes_commands {commands : List Command}
    (h : ∀ command ∈ commands, command.IsWellFormed) :
    Encodes session.interpreter (commands.map pure) (commands.map session.deliveryOf) := by
  rw [Encodes, List.forall₂_map_left_iff, List.forall₂_map_right_iff, List.forall₂_same]
  intro command hcommand
  exact ⟨command, _, rfl, Command.encode_outcome_of_isWellFormed (h command hcommand), rfl⟩

/-- Messages to a name are delivered as they are encoded. -/
theorem encodes_messages {pool : VoicePool} (h : pool.receiver.IsName) (messages : List Text) :
    Encodes session.interpreter (messages.map (Command.makeSend pool.receiver))
      (messages.map (pool.messageDelivery session)) := by
  rw [Encodes, List.forall₂_map_left_iff, List.forall₂_map_right_iff, List.forall₂_same]
  intro message _
  exact ⟨.send pool.receiver (Text.trim message), _, Command.requireName_then_eq_ok_iff.2 ⟨h, rfl⟩,
    Command.encode_outcome_of_isWellFormed h, rfl⟩

end Session

namespace Synth

variable {session : Session} {config : SynthConfig}

/-! ## The host patch -/

/-- The commands that clear the patch and build the host of a channel receiver. -/
def openingCommands (channels : Text) : List Command :=
  [.reset,
    .object "input".toList (Text.trim (Text.spaced ["r".toList, channels])),
    .object "channels".toList "channels~".toList,
    .object "dac".toList "dac~".toList,
    .object "waveforms".toList "subtractor_waveforms".toList,
    .connect ⟨"input".toList, 0, "channels".toList, 0⟩,
    .connect ⟨"channels".toList, 0, "dac".toList, 0⟩,
    .connect ⟨"channels".toList, 1, "dac".toList, 1⟩]

/-- The definition of the receiving box begins with the word `r`, whatever the receiver. -/
theorem input_definition (channels : Text) :
    Text.trim (Text.spaced ["r".toList, channels]) ≠ [] ∧
      Text.beforeSpace (Text.trim (Text.spaced ["r".toList, channels])) = "r".toList := by
  have hword : Text.trimEnd (' ' :: channels) <+: ' ' :: channels := List.rdropWhile_prefix _ _
  have htrim : Text.trim (Text.spaced ["r".toList, channels]) =
      "r".toList ++ Text.trimEnd (' ' :: channels) := by
    rw [Text.spaced_cons_cons, Text.spaced_singleton]
    exact Text.trim_append (by decide) (by decide) _
  rw [htrim]
  refine ⟨by simp, ?_⟩
  -- what is left behind the word is nothing, or still begins with the space
  rcases List.prefix_cons_iff.1 hword with hnil | ⟨rest, hcons, -⟩
  · rw [hnil]
    rfl
  · rw [hcons]
    exact Text.beforeSpace_append (by decide) rest

theorem openingCommands_isWellFormed (channels : Text) :
    ∀ command ∈ openingCommands channels, command.IsWellFormed := by
  have hdefinition : Text.trim (Text.trim (Text.spaced ["r".toList, channels])) ≠ [] := by
    rw [Text.trim_trim]
    exact (input_definition channels).1
  have hkey : Text.IsName "input".toList := by decide
  simp only [openingCommands, List.forall_mem_cons]
  refine ⟨trivial, ⟨hkey, hdefinition⟩, ?_⟩
  decide

/-- The calls that build the host patch yield its commands. -/
theorem build_hostCalls (channels : Text) :
    (Script.Builder.ofCalls (hostCalls channels)).build.outcome =
      .ok (openingCommands channels).tail := by
  have hinput : (Command.makeObject "input".toList (Text.spaced ["r".toList, channels])).outcome =
      .ok (.object "input".toList (Text.trim (Text.spaced ["r".toList, channels]))) := by
    obtain ⟨hne, hword⟩ := input_definition channels
    refine Command.makeObject_outcome_eq_ok_iff.2 ⟨by decide, hne, ?_⟩
    apply Command.boxOfDefinition_eq_object
    rw [hword]
    decide
  rw [Script.Builder.build_outcome, settled_eq_ok_iff, leading_eq_none_iff]
  exact List.cons_eq_cons.2 ⟨hinput, rfl⟩

/-! ## The voices -/

/-- What starting does once the host patch is built. -/
def startVoices (session : Session) (config : SynthConfig) : Action Synth := do
  let pool ← ofOutcome (VoicePool.make (session.localReceiver config.channelsSuffix) config)
  pool.loadAll session
  let settings ←
    ofOutcome (Settings.subtractive.set bendRangeName (.number config.pitchbendRange))
  sendSettings session pool settings.messages
  pure ⟨session, pool, settings⟩

/-- The pool of a synth that is started for a channel receiver. -/
def startPool (channels : Text) (config : SynthConfig) : VoicePool :=
  ⟨channels, config.synthType, config.channelLayout, config.voices, 0⟩

/-- The messages that load the voices, lowest first. -/
def loadMessages (config : SynthConfig) : List Text :=
  (List.range config.voices).map fun voice =>
    Text.spaced ["init".toList, Text.decimal voice, config.channelLayout, config.synthType]

/-- The messages that send each setting to every voice, lowest voice first. -/
def settingMessages (voices : Nat) (entries : List (Text × SettingValue)) : List Text :=
  entries.flatMap fun entry => (List.range voices).map fun voice =>
    Text.spaced [Text.decimal voice, entry.1, entry.2.text]

/-- The declarations of the subtractive voice, with the configured range of the pitch bend. -/
def startValues (range : Single) : List (Text × SettingValue) :=
  Settings.subtractiveDeclarations.map fun entry =>
    if entry.1 = bendRangeName then (entry.1, .number range) else entry

/-- The first settings are the declared ones, with the configured range of the pitch bend. -/
theorem exists_startSettings (range : Single) :
    ∃ settings, Settings.subtractive.set bendRangeName (.number range) = .ok settings ∧
      settings.entries.Perm (startValues range) := by
  have hdeclared : (bendRangeName, SettingValue.number (Single.ofNat 12)) ∈
      Settings.subtractiveDeclarations := List.mem_of_getElem? (i := 18) rfl
  have hmem := Settings.perm_subtractive.mem_iff.2 hdeclared
  have hperm : (Settings.replaceEntry bendRangeName (.number range)
      Settings.subtractive.entries).Perm (startValues range) := by
    rw [Settings.replaceEntry, startValues]
    exact Settings.perm_subtractive.map _
  exact ⟨_, Settings.set_number (Settings.get?_of_mem hmem) range, hperm⟩

theorem length_startValues (range : Single) : (startValues range).length = 22 := by
  rw [startValues, List.length_map]
  rfl

theorem loads_eq (channels : Text) :
    (startPool channels config).loads session 0 config.voices =
      (loadMessages config).map ((startPool channels config).messageDelivery session) := by
  rw [VoicePool.loads, ← List.range_eq_range', loadMessages, List.map_map]
  rfl

/-- The messages about entries to every voice are the entries behind the numbers of the voices. -/
theorem broadcastEntries_eq (pool : VoicePool) (entries : List (Text × SettingValue)) :
    (entries.map fun entry => Settings.messageOf entry.1 entry.2).flatMap
        (pool.broadcastRow session) =
      (settingMessages pool.size entries).map (pool.messageDelivery session) := by
  rw [List.flatMap_map, settingMessages, List.map_flatMap]
  apply List.flatMap_congr
  intro entry _
  rw [VoicePool.broadcastRow, ← List.range_eq_range', List.map_map]
  apply List.map_congr_left
  intro voice _
  exact congrArg (pool.messageDelivery session)
    (VoicePool.addressed_spaced (List.cons_ne_nil _ _) voice)

theorem broadcastRows_eq (pool : VoicePool) (settings : Settings) :
    settings.messages.flatMap (pool.broadcastRow session) =
      (settingMessages pool.size settings.entries).map (pool.messageDelivery session) :=
  broadcastEntries_eq pool settings.entries

theorem length_loadMessages : (loadMessages config).length = config.voices := by
  rw [loadMessages, List.length_map, List.length_range]

theorem length_settingMessages (voices : Nat) (entries : List (Text × SettingValue)) :
    (settingMessages voices entries).length = entries.length * voices := by
  simp [settingMessages, List.length_flatMap]

theorem makes_ofOutcome {α : Type} (outcome : Except Error α) : (ofOutcome outcome).Makes [] outcome :=
  Action.makes_ofChecked ⟨outcome, []⟩

section Voices

variable {channels : Text} (hchannels : session.localReceiver config.channelsSuffix = channels)

theorem startPool_makes (hvoices : config.voices ≠ 0) :
    (ofOutcome (VoicePool.make channels config)).Makes [] (.ok (startPool channels config)) := by
  rw [VoicePool.make, if_neg hvoices]
  exact makes_ofOutcome _

include hchannels

/-- A configuration with voices and a name for the receiver is accepted. -/
theorem startVoices_makes (hname : channels.IsName) (hvoices : config.voices ≠ 0) :
    ∃ settings : Settings, settings.entries.Perm (startValues config.pitchbendRange) ∧
      (startVoices session config).Makes
        ((startPool channels config).loads session 0 config.voices ++
          settings.messages.flatMap ((startPool channels config).broadcastRow session))
        (.ok ⟨session, startPool channels config, settings⟩) := by
  obtain ⟨settings, hset, hperm⟩ := exists_startSettings config.pitchbendRange
  have hsettings : (ofOutcome (Settings.subtractive.set bendRangeName
      (.number config.pitchbendRange))).Makes [] (.ok settings) := by
    rw [hset]
    exact makes_ofOutcome _
  have hloads := @VoicePool.loadAll_makes session (startPool channels config) hname
  have hsent := @sendSettings_makes session (startPool channels config) hname settings.messages
  refine ⟨settings, hperm, ?_⟩
  rw [startVoices, hchannels]
  refine (startPool_makes hvoices).bind (hloads.bind ?_)
  rw [← List.append_nil (List.flatMap _ _)]
  exact hsettings.bind (hsent.bind (Action.makes_pure _))

/-- A configuration without voices is found out when the pool is made. -/
theorem startVoices_makes_none (hvoices : config.voices = 0) :
    (startVoices session config).Makes [] (.error (.invalidVoiceCount 0)) := by
  have hpool : (ofOutcome (VoicePool.make channels config)).Makes []
      (.error (.invalidVoiceCount 0)) := by
    rw [VoicePool.make, if_pos hvoices]
    exact makes_ofOutcome _
  rw [startVoices, hchannels]
  exact hpool.bind_error _

/-- A receiver with a blank in its name is found out when the first voice is loaded. -/
theorem startVoices_makes_blank (hvoices : config.voices ≠ 0) (hne : channels ≠ [])
    (hblank : channels.any Text.isBlank = true) :
    ∃ line, (startVoices session config).Makes []
      (.error (.malformedCommand line (.blankInName .receiver channels))) := by
  obtain ⟨count, hcount⟩ := Nat.exists_eq_succ_of_ne_zero hvoices
  obtain ⟨line, hsend⟩ := Command.makeSend_of_blank hne hblank
    ((startPool channels config).loadDirective 0)
  have hload : ((startPool channels config).loadVoice session 0).Makes []
      (.error (.malformedCommand line (.blankInName .receiver channels))) :=
    Session.perform_makes_error hsend
  have hloads : ((startPool channels config).loadAll session).Makes []
      (.error (.malformedCommand line (.blankInName .receiver channels))) := by
    rw [VoicePool.loadAll, show (startPool channels config).size = count + 1 from hcount,
      Action.forNumbers]
    exact hload.bind_error _
  refine ⟨line, ?_⟩
  rw [startVoices, hchannels]
  exact (startPool_makes hvoices).bind (hloads.bind_error _)

end Voices

/-! ## Starting -/

/-- Everything after the opening of the patch is the row of the host patch and what follows it. -/
theorem startOn_makes {row : List Delivery} {ending : Except Error Synth}
    (h : (startVoices session config).Makes row ending) :
    (startOn session config).Makes
      ((openingCommands (session.localReceiver config.channelsSuffix)).map session.deliveryOf ++ row)
      ending := by
  have hformed := openingCommands_isWellFormed (session.localReceiver config.channelsSuffix)
  have hbuild := Action.makes_ofChecked
    (Script.Builder.ofCalls (hostCalls (session.localReceiver config.channelsSuffix))).build
  rw [build_hostCalls] at hbuild
  have hhost := @Session.runCommands_makes session
    (openingCommands (session.localReceiver config.channelsSuffix)).tail
  rw [Session.leading_validated fun command hcommand => hformed command (List.mem_of_mem_tail hcommand)]
    at hhost
  have hreset : (session.execute .reset).Makes [session.deliveryOf .reset] (.ok ()) :=
    Session.execute_makes trivial
  rw [startOn]
  exact hreset.bind ((Action.makes_note .sessionReady).bind (hbuild.bind (hhost.bind h)))

/-- On an engine without a limit, starting ends as the row behind the open patch does. -/
theorem start_endsIn {sessionConfig : SessionConfig} (hpatch : sessionConfig.patch ≠ [])
    {bench : Bench} (hlimit : bench.engine.limit = none) {row : List Delivery}
    {ending : Except Error Synth} (h : (startOn (sessionOn sessionConfig bench) config).Makes row ending) :
    (start sessionConfig config).EndsIn bench row ending := by
  have hafter : (bench.afterOpening sessionConfig.patch sessionConfig.searchPath).engine.limit = none :=
    hlimit
  have hopened := h.endsIn hafter
  constructor
  · rw [outcomeOf, start_eq hpatch]
    exact hopened.outcome_eq
  · rw [stateAfter, start_eq hpatch]
    exact hopened.accepted_eq

/-- A patch without a name is not opened. -/
theorem start_nil_makes {sessionConfig : SessionConfig} (h : sessionConfig.patch = []) :
    (start sessionConfig config).Makes [] (.error (.delivery ⟨[], .emptyPatchName⟩)) := by
  have hopen := Action.openPatch_nil_makes sessionConfig.searchPath
  rw [← h] at hopen ⊢
  rw [start_bind]
  exact hopen.bind_error _

/-- A synth that was started has been sent the host patch, its loads and its settings. -/
theorem start_row {sessionConfig : SessionConfig} {bench started : Bench} {synth : Synth}
    (h : start sessionConfig config bench = .ok synth started) :
    started.engine.accepted = bench.engine.accepted ++
      ((openingCommands synth.pool.receiver).map synth.session.deliveryOf ++
        (synth.pool.loads synth.session 0 synth.pool.size ++
          synth.settings.messages.flatMap (synth.pool.broadcastRow synth.session))) := by
  have houtcome : outcomeOf (start sessionConfig config) bench = .ok synth := by
    rw [outcomeOf, h]
  by_cases hpatch : sessionConfig.patch = []
  · cases ((start_nil_makes hpatch bench).of_ok houtcome).1
  have hchannels : (sessionOn sessionConfig bench).localReceiver config.channelsSuffix =
      Session.receiverName bench.engine.nextHandle config.channelsSuffix := rfl
  -- the row is found behind the open patch, whatever the configuration
  have hrow : ∀ {row : List Delivery} {ending : Except Error Synth},
      (startVoices (sessionOn sessionConfig bench) config).Makes row ending →
      ending = .ok synth ∧ started.engine.accepted = bench.engine.accepted ++
        ((openingCommands (Session.receiverName bench.engine.nextHandle config.channelsSuffix)).map
          (sessionOn sessionConfig bench).deliveryOf ++ row) := by
    intro row ending hvoices
    have hok : outcomeOf (startOn (sessionOn sessionConfig bench) config)
        (bench.afterOpening sessionConfig.patch sessionConfig.searchPath) = .ok synth := by
      rw [outcomeOf, ← start_eq hpatch, h]
    have hafter := (startOn_makes hvoices
      (bench.afterOpening sessionConfig.patch sessionConfig.searchPath)).of_ok hok
    rw [stateAfter, ← start_eq hpatch, h] at hafter
    exact ⟨hafter.1, hafter.2.2⟩
  by_cases hvoices : config.voices = 0
  · cases (hrow (startVoices_makes_none hchannels hvoices)).1
  by_cases hname : (Session.receiverName bench.engine.nextHandle config.channelsSuffix).IsName
  · obtain ⟨settings, -, hmakes⟩ := startVoices_makes hchannels hname hvoices
    obtain ⟨hending, haccepted⟩ := hrow hmakes
    obtain rfl := Except.ok.inj hending
    exact haccepted
  · rw [Session.receiverName_isName_iff, Bool.not_eq_false] at hname
    obtain ⟨line, hmakes⟩ := startVoices_makes_blank hchannels hvoices
      (Session.receiverName_ne_nil _ _) hname
    cases (hrow hmakes).1

/-- **Starting a synth delivers one sequence.** On an engine without a limit, a synth whose patch has
a name is started by lists to its interpreter: those of the host patch, then one load for each voice,
then each of the 22 settings for each voice, in the order of the UTF-8 bytes of the settings' names.
A configuration without voices, or with a blank in the name of the channel receiver, fails behind
the host patch. A patch without a name fails before anything is delivered. -/
theorem start_delivers (sessionConfig : SessionConfig) (config : SynthConfig) (bench : Bench)
    (hlimit : bench.engine.limit = none) :
    let interpreter :=
      Session.receiverName bench.engine.nextHandle sessionConfig.interpreterSuffix
    let channels := Session.receiverName bench.engine.nextHandle config.channelsSuffix
    (sessionConfig.patch ≠ [] →
      ∃ opening, opening.length = 8 ∧
        Encodes interpreter ((openingCommands channels).map pure) opening ∧
        (config.voices ≠ 0 → channels.any Text.isBlank = false →
          ∃ entries synth rest, entries.Perm (startValues config.pitchbendRange) ∧
            entries.length = 22 ∧
            (entries.Pairwise fun a b => Text.utf8 a.1 < Text.utf8 b.1) ∧
            Encodes interpreter
              ((loadMessages config ++ settingMessages config.voices entries).map
                (Command.makeSend channels)) rest ∧
            (opening ++ rest).length = 8 + 23 * config.voices ∧
            (start sessionConfig config).EndsIn bench (opening ++ rest) (.ok synth)) ∧
        (config.voices = 0 →
          (start sessionConfig config).EndsIn bench opening (.error (.invalidVoiceCount 0))) ∧
        (config.voices ≠ 0 → channels.any Text.isBlank = true →
          ∃ line, (start sessionConfig config).EndsIn bench opening
            (.error (.malformedCommand line (.blankInName .receiver channels))))) ∧
    (sessionConfig.patch = [] →
      (start sessionConfig config).EndsIn bench [] (.error (.delivery ⟨[], .emptyPatchName⟩))) := by
  intro interpreter channels
  let session := sessionOn sessionConfig bench
  have hchannels : session.localReceiver config.channelsSuffix = channels := rfl
  refine ⟨fun hpatch => ?_, fun hpatch => ?_⟩
  · have hopening := @Session.encodes_commands session _ (openingCommands_isWellFormed channels)
    refine ⟨(openingCommands channels).map session.deliveryOf, rfl, hopening, ?_, ?_, ?_⟩
    · intro hvoices hblank
      have hname : channels.IsName := Session.receiverName_isName_iff.2 hblank
      obtain ⟨settings, hperm, hrow⟩ := startVoices_makes hchannels hname hvoices
      have hlength : settings.entries.length = 22 := by
        rw [hperm.length_eq, length_startValues]
      rw [loads_eq, broadcastRows_eq, ← List.map_append] at hrow
      refine ⟨settings.entries, _, _, hperm, hlength, settings.sorted.imp Text.utf8_lt,
        @Session.encodes_messages session (startPool channels config) hname _, ?_,
        start_endsIn hpatch hlimit (startOn_makes hrow)⟩
      rw [List.length_append, List.length_map, List.length_map, List.length_append,
        length_loadMessages, length_settingMessages, hlength]
      have height : (openingCommands channels).length = 8 := rfl
      have hpool : (startPool channels config).size = config.voices := rfl
      omega
    · intro hvoices
      have hrow := startOn_makes (startVoices_makes_none hchannels hvoices)
      rw [List.append_nil] at hrow
      exact start_endsIn hpatch hlimit hrow
    · intro hvoices hblank
      obtain ⟨line, hvoice⟩ := startVoices_makes_blank hchannels hvoices
        (Session.receiverName_ne_nil _ _) hblank
      have hrow := startOn_makes hvoice
      rw [List.append_nil] at hrow
      exact ⟨line, start_endsIn hpatch hlimit hrow⟩
  · exact (start_nil_makes hpatch).endsIn hlimit

/-- Two voices, no voices, and a receiver with a blank in its name. -/
theorem start_delivers_two :
    (∃ opening rest synth, opening.length = 8 ∧ (opening ++ rest).length = 54 ∧
      (start {} { voices := 2 }).EndsIn Bench.fresh (opening ++ rest) (.ok synth)) ∧
    (∃ opening, opening.length = 8 ∧
      (start {} { voices := 0 }).EndsIn Bench.fresh opening (.error (.invalidVoiceCount 0))) ∧
    (∃ opening line, opening.length = 8 ∧
      (start {} { channelsSuffix := "a b".toList }).EndsIn Bench.fresh opening
        (.error (.malformedCommand line (.blankInName .receiver "1001-a b".toList)))) ∧
    (start { patch := [] } {}).EndsIn Bench.fresh []
      (.error (.delivery ⟨[], .emptyPatchName⟩)) := by
  refine ⟨?_, ?_, ?_, ?_⟩
  · obtain ⟨opening, hlength, -, hstarts, -⟩ :=
      (start_delivers {} { voices := 2 } Bench.fresh rfl).1 (by decide)
    obtain ⟨entries, synth, rest, -, -, -, -, hrow, hends⟩ := hstarts (by decide) (by decide)
    exact ⟨opening, rest, synth, hlength, hrow, hends⟩
  · obtain ⟨opening, hlength, -, -, hnone, -⟩ :=
      (start_delivers {} { voices := 0 } Bench.fresh rfl).1 (by decide)
    exact ⟨opening, hlength, hnone rfl⟩
  · obtain ⟨opening, hlength, -, -, -, hblank⟩ :=
      (start_delivers {} { channelsSuffix := "a b".toList } Bench.fresh rfl).1 (by decide)
    obtain ⟨line, hends⟩ := hblank (by decide) (by decide)
    exact ⟨opening, line, hlength, hends⟩
  · exact (start_delivers { patch := [] } {} Bench.fresh rfl).2 rfl

end Synth

end DynamicPatching

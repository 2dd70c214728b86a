import DynamicPatching.Proofs.Synth.Construction
import DynamicPatching.Proofs.Synth.Messages
import DynamicPatching.Proofs.Synth.Reachable

/-!
# Rows of a synth and what its voices have been sent

Each row of a synth leaves the setting of a voice alone, sends it, or adds the voice with nothing
sent. Notes are played with the bend of the pitch and the volume; every other setting is tracked
(`Synth.IsTracked`), and is left alone by notes and by the messages of other settings.
-/

namespace DynamicPatching

/-! ## What a row does to a record -/

namespace SlotSetting

variable {setting : SlotSetting} {row others : List Delivery} {atoms : List Atom}

/-- The row changes no record of the setting. -/
def KeptBy (setting : SlotSetting) (row : List Delivery) : Prop :=
  ∀ record, row.foldl setting.step record = record

/-- The row sends the slot the atoms last. -/
def SentBy (setting : SlotSetting) (atoms : List Atom) (row : List Delivery) : Prop :=
  ∀ record, row.foldl setting.step record = record.update atoms

/-- The row adds the slot, and sends it nothing about the setting. -/
def AddedBy (setting : SlotSetting) (row : List Delivery) : Prop :=
  ∀ record, row.foldl setting.step record = .fresh

theorem keptBy_of_forall (h : ∀ delivery ∈ row, ∀ record, setting.step record delivery = record) :
    setting.KeptBy row := foldl_eq_self h

theorem replay_append (deliveries row : List Delivery) :
    setting.replay (deliveries ++ row) = row.foldl setting.step (setting.replay deliveries) :=
  List.foldl_append

end SlotSetting

namespace Synth

variable {synth : Synth} {receiver : Text} {name message : Text} {voice other : Nat}
  {value : SettingValue}

/-- The name of the setting that holds the volume. -/
def volumeName : Text := "volume".toList

/-- The setting of a voice of the synth. -/
def voiceSetting (synth : Synth) (voice : Nat) (name : Text) : SlotSetting :=
  .ofVoice synth.session synth.pool.receiver voice name

/-- The name is that of a setting which no note drives. -/
structure IsTracked (name : Text) : Prop where
  isDeclared : Settings.IsDeclared name
  ne_bend : name ≠ Settings.bendName
  ne_volume : name ≠ volumeName

/-- The synth is sound for its receiver, and its voices have exact numbers. -/
structure IsBounded (synth : Synth) : Prop where
  isSound : synth.IsSound synth.pool.receiver
  size_le : synth.pool.size ≤ 2 ^ 24

theorem IsBounded.isName (h : synth.IsBounded) : synth.pool.receiver.IsName := h.isSound.isName

/-! ## Rows of operations -/

/-- A message that does not begin with the tokens of a name leaves the setting alone. -/
theorem keptBy_addressed (h : synth.IsBounded) (hvoice : voice ≤ 2 ^ 24) (hother : other ≤ 2 ^ 24)
    (hmessage : ¬ Atom.listOfText name <+: VoicePool.messageTokens message) :
    (synth.voiceSetting voice name).KeptBy
      [synth.pool.messageDelivery synth.session (VoicePool.addressed other message)] := by
  apply SlotSetting.keptBy_of_forall
  intro delivery hdelivery record
  rw [List.mem_singleton.1 hdelivery, voiceSetting,
    SlotSetting.step_addressed h.isName hvoice hother, if_neg fun hc => hmessage hc.2]

/-- A bend of the pitch is about no tracked setting. -/
theorem not_prefix_bend (h : IsTracked name) (x : Single) :
    ¬ Atom.listOfText name <+: VoicePool.messageTokens (Text.spaced ["pitchbend".toList, x.text]) := by
  have hbend : Settings.IsDeclared Settings.bendName := by decide
  exact @Settings.not_listOfText_prefix name Settings.bendName (.number x) h.isDeclared hbend
    h.ne_bend.symm h.ne_bend fun _ => rfl

/-- A volume is about no tracked setting. -/
theorem not_prefix_volume (h : IsTracked name) (x : Single) :
    ¬ Atom.listOfText name <+: VoicePool.messageTokens (Text.spaced ["volume".toList, x.text]) := by
  have hvolume : Settings.IsDeclared volumeName := by decide
  exact @Settings.not_listOfText_prefix name volumeName (.number x) h.isDeclared hvolume
    h.ne_volume.symm h.ne_bend fun _ => rfl

/-- A message that starts a note is about no tracked setting. -/
theorem not_prefix_of_mem_noteMessages (h : IsTracked name) {note velocity : UInt8} {volume : Single}
    (hmessage : message ∈ noteMessages note velocity volume) :
    ¬ Atom.listOfText name <+: VoicePool.messageTokens message := by
  rw [noteMessages, List.mem_cons, List.mem_cons, List.mem_singleton] at hmessage
  rcases hmessage with rfl | rfl | rfl
  · exact not_prefix_bend h centeredBend
  · exact not_prefix_volume h volume.clampToZero
  · exact Settings.not_listOfText_prefix_note h.isDeclared (lt_trans note.toNat_lt (by decide)) _

/-- The message of one setting is about no other that is tracked. -/
theorem not_prefix_messageOf (h : IsTracked name) {settings : Settings} {changed : Text}
    (hsettings : settings.declarations = Settings.subtractive.declarations)
    (hget : settings.get? changed = some value) (hne : changed ≠ name) :
    ¬ Atom.listOfText name <+: VoicePool.messageTokens (Settings.messageOf changed value) := by
  refine Settings.not_listOfText_prefix h.isDeclared (Settings.isDeclared_of_get? hsettings hget) hne
    h.ne_bend ?_
  rintro rfl
  exact Settings.kind_bend hsettings hget

/-- A note is about no tracked setting. -/
theorem keptBy_noteRow (h : synth.IsBounded) (htracked : IsTracked name) (hvoice : voice ≤ 2 ^ 24)
    (note velocity : UInt8) (volume : Single) :
    (synth.voiceSetting voice name).KeptBy (synth.noteRow note velocity volume) := by
  have hcursor := h.isSound.cursor_lt
  have hsize := h.size_le
  apply SlotSetting.keptBy_of_forall
  intro delivery hdelivery record
  obtain ⟨message, hmessage, rfl⟩ := List.mem_map.1 hdelivery
  exact keptBy_addressed h hvoice (by omega) (not_prefix_of_mem_noteMessages htracked hmessage) record

/-- A message to all voices that is about another setting leaves the setting alone. -/
theorem keptBy_broadcastRow (h : synth.IsBounded) (hvoice : voice ≤ 2 ^ 24)
    (hmessage : ¬ Atom.listOfText name <+: VoicePool.messageTokens message) :
    (synth.voiceSetting voice name).KeptBy (synth.pool.broadcastRow synth.session message) := by
  intro record
  rw [voiceSetting, SlotSetting.foldl_broadcastRow h.isName hvoice h.size_le,
    if_neg fun hc => hmessage hc.2]

/-- The message of a setting to all voices sends it to each. -/
theorem sentBy_broadcastRow (h : synth.IsBounded) (hvoice : voice < synth.pool.size)
    (hname : Settings.IsDeclared name) (value : SettingValue) :
    (synth.voiceSetting voice name).SentBy
      (synth.pool.messageAtoms voice (Settings.messageOf name value))
      (synth.pool.broadcastRow synth.session (Settings.messageOf name value)) := by
  intro record
  have hsize := h.size_le
  rw [voiceSetting, SlotSetting.foldl_broadcastRow h.isName (by omega) hsize,
    if_pos ⟨hvoice, Settings.listOfText_prefix hname value⟩]

/-- All settings to all voices: each voice is sent the setting once. -/
theorem sentBy_settingsRow (h : synth.IsBounded) (htracked : IsTracked name)
    (hvoice : voice < synth.pool.size) (hget : synth.settings.get? name = some value) :
    (synth.voiceSetting voice name).SentBy
      (synth.pool.messageAtoms voice (Settings.messageOf name value))
      (synth.settings.messages.flatMap (synth.pool.broadcastRow synth.session)) := by
  intro record
  have hsize := h.size_le
  have hmem := Settings.mem_of_get? hget
  have hnodup : synth.settings.entries.Nodup := by
    refine synth.settings.sorted.imp ?_
    rintro a _ hlt rfl
    exact List.lt_irrefl _ hlt
  -- the entries of other names leave the record as it is
  have hothers : ∀ entry ∈ synth.settings.entries, entry ≠ (name, value) → ∀ record,
      (synth.pool.broadcastRow synth.session (Settings.messageOf entry.1 entry.2)).foldl
        (synth.voiceSetting voice name).step record = record := by
    intro entry hentry hne
    have hentry' := Settings.get?_of_mem hentry
    refine keptBy_broadcastRow h (by omega)
      (not_prefix_messageOf htracked h.isSound.declarations_eq hentry' ?_)
    rintro rfl
    rw [hget] at hentry'
    exact hne (Prod.ext rfl (Option.some.inj hentry').symm)
  rw [Settings.messages, List.flatMap_map, List.foldl_flatMap, foldl_eq_of_nodup hnodup hothers,
    if_pos hmem]
  exact sentBy_broadcastRow h hvoice htracked.isDeclared value record

/-- A resize leaves the voices below both sizes alone. -/
theorem keptBy_resizeRow (h : synth.IsBounded) {voices : Nat} (hvoices : voices ≤ 2 ^ 24)
    (hvoice : voice < synth.pool.size) (hvoice' : voice < voices) :
    (synth.voiceSetting voice name).KeptBy (synth.pool.resizeRow synth.session voices) := by
  intro record
  have hsize := h.size_le
  rw [VoicePool.resizeRow, voiceSetting]
  split
  · exact SlotSetting.foldl_deletions h.isName (by omega) hsize
  · rw [SlotSetting.foldl_loads h.isName (by omega) (by omega), if_neg (by omega)]

/-- A resize adds the voices above the top. -/
theorem addedBy_resizeRow (h : synth.IsBounded) {voices : Nat} (hvoices : voices ≤ 2 ^ 24)
    (hvoice : synth.pool.size ≤ voice) (hvoice' : voice < voices) :
    (synth.voiceSetting voice name).AddedBy (synth.pool.resizeRow synth.session voices) := by
  intro record
  rw [VoicePool.resizeRow, voiceSetting, if_neg (by omega),
    SlotSetting.foldl_loads h.isName (by omega) (by omega), if_pos (by omega)]

end Synth

end DynamicPatching

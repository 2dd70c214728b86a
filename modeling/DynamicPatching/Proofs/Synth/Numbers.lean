import DynamicPatching.Proofs.Synth.Parameters
import DynamicPatching.Proofs.Voice.Payloads

/-!
# Numbers on the wire

A number is written, put into a message, cut out of it and read again before it is sent. A finite one
comes out with the same bits, because its text reads back; one that is not finite is written as a word
that denotes no number, and is sent as that symbol (`Single.wireAtom`). A volume is clamped before it
is written, so what is not a number is silence, and no negative number is sent as a volume
(`Single.volumeAtom`, `Synth.numbers_delivered`).
-/

namespace DynamicPatching

/-! ## Numbers as atoms -/

namespace Single

/-- The atom that a number is sent as. -/
def wireAtom (x : Single) : Atom :=
  if x.isFinite then .number x
  else if x.isNaN then .symbol "NaN".toList
  else if x.negative then .symbol "-inf".toList
  else .symbol "inf".toList

/-- The atom that a volume is sent as. -/
def volumeAtom (x : Single) : Atom :=
  if x.isNaN || x.negative then .number zero
  else if x.isFinite then .number x
  else .symbol "inf".toList

/-- The text of a number denotes the atom that it is sent as. -/
theorem ofToken_text (x : Single) : Atom.ofToken x.text = x.wireAtom := by
  rw [wireAtom]
  by_cases hfinite : x.isFinite = true
  · rw [if_pos hfinite, Atom.ofToken, x.number?_text hfinite]
  · rw [if_neg hfinite, text, if_neg hfinite]
    -- no word for what is not finite denotes a number
    split
    · decide
    · cases x.negative <;> decide

theorem wireAtom_clampToZero (x : Single) : x.clampToZero.wireAtom = x.volumeAtom := by
  rw [clampToZero, volumeAtom]
  by_cases hclamped : (x.isNaN || x.negative) = true
  · rw [if_pos hclamped, if_pos hclamped]
    rfl
  · obtain ⟨hnumber, hnegative⟩ := Bool.or_eq_false_iff.1 (Bool.eq_false_iff.2 hclamped)
    rw [if_neg hclamped, if_neg hclamped, wireAtom, hnumber, hnegative]
    rfl

/-- A volume that is sent as a number is not negative. -/
theorem atLeastZero_of_volumeAtom {x y : Single} (h : x.volumeAtom = .number y) :
    y.atLeastZero = true := by
  rw [volumeAtom] at h
  split at h
  · obtain rfl := Atom.number.inj h
    rfl
  · rename_i hclamped
    obtain ⟨hnumber, hnegative⟩ := Bool.or_eq_false_iff.1 (Bool.eq_false_iff.2 hclamped)
    split at h
    · obtain rfl := Atom.number.inj h
      rw [atLeastZero, hnumber, hnegative]
      rfl
    · cases h

end Single

/-! ## Messages that hold numbers -/

namespace Settings

variable {name : Text}

/-- The atoms of a message about a setting are those of its name and those of its numbers. -/
theorem textAtoms_messageOf (h : IsDeclared name) {value : SettingValue} {numbers : List Single}
    (hne : numbers ≠ []) (hvalue : value.text = Text.spaced (numbers.map Single.text)) :
    VoicePool.textAtoms (messageOf name value) =
      Atom.listOfText name ++ numbers.map Single.wireAtom := by
  have hwords : ∀ word ∈ Text.pieces name ++ numbers.map Single.text, word.IsWord := by
    intro word hword
    rcases List.mem_append.1 hword with hpiece | hnumber
    · exact (h.isName word hpiece).isWord
    · obtain ⟨x, -, rfl⟩ := List.mem_map.1 hnumber
      exact x.isWord_text
  have hmore : numbers.map Single.text ≠ [] := mt List.map_eq_nil_iff.1 hne
  rw [messageOf_spaced name hmore hvalue,
    VoicePool.textAtoms_words (fun hc => hmore (List.append_eq_nil_iff.1 hc).2) hwords,
    List.map_append, List.map_map]
  exact congrArg _ (List.map_congr_left fun x _ => x.ofToken_text)

end Settings

/-- The atoms of a message that is one word and a number. -/
theorem VoicePool.textAtoms_number {word : Text} (h : word.IsName) (x : Single) :
    textAtoms (Text.spaced [word, x.text]) = [.symbol word, x.wireAtom] := by
  have hwords : ∀ text ∈ [word, x.text], text.IsWord :=
    List.forall_mem_cons.2 ⟨h.isWord, List.forall_mem_singleton.2 x.isWord_text⟩
  rw [textAtoms_words (List.cons_ne_nil _ _) hwords, List.map_cons, List.map_singleton,
    Atom.ofToken_name h, x.ofToken_text]

/-! ## Calls that send lists -/

/-- If the engine accepts that many deliveries, the call succeeds and delivers the lists to the
interpreter, in order, and nothing else. -/
def SynthCall.DeliversLists (call : SynthCall) (state : Synth × Bench) (lists : List (List Atom)) :
    Prop :=
  state.2.engine.room lists.length = lists.length →
    outcomeOf call.run state = .ok none ∧
      (stateAfter state call).2.engine.accepted =
        state.2.engine.accepted ++
          lists.map fun atoms => ⟨state.1.session.interpreter, .list atoms⟩

namespace Synth

variable {synth : Synth} {call : SynthCall}

theorem deliversLists_of_makes {lists : List (List Atom)} {heldAfter : Nat → Synth}
    (hmakes : call.run.Makes synth
      (lists.map fun atoms => ⟨synth.session.interpreter, .list atoms⟩) heldAfter (.ok none))
    (bench : Bench) : call.DeliversLists (synth, bench) lists := by
  intro hroom
  have hdelivers := hmakes.delivers bench
  rw [← List.length_map (fun atoms => (⟨synth.session.interpreter, .list atoms⟩ : Delivery))] at hroom
  have hok : outcomeOf call.run (synth, bench) = .ok none := by
    rw [hdelivers.outcome_eq, Engine.refusal?_eq_none_iff.2 hroom]
    rfl
  rw [SynthCall.stateAfter]
  exact ⟨hok, (hmakes.of_ok hok).2⟩

/-- A message to one voice. -/
theorem toVoice_deliversLists (h : synth.pool.receiver.IsName) {voice : Nat}
    (hvoice : voice < synth.pool.size) (hbound : voice < 2 ^ 64) {message : Text}
    (hrun : call.run = toVoice voice message >>= fun _ => pure none) (bench : Bench) :
    call.DeliversLists (synth, bench) [VoicePool.voiceList synth.pool.receiver voice message] := by
  have hmakes := (toVoice_makes_of_lt h hvoice message).bind_pure fun _ => (none : Option Nat)
  rw [← hrun, VoicePool.messageDelivery_voiceList h hbound] at hmakes
  exact deliversLists_of_makes hmakes bench

/-- A change of a setting that holds numbers. -/
theorem change_deliversLists (h : synth.pool.receiver.IsName) (hsize : synth.pool.size < 2 ^ 64)
    {change : SettingUpdate} {settings : Settings} {value : SettingValue} {numbers : List Single}
    (hdeclared : Settings.IsDeclared change.name)
    (hupdate : synth.settings.update change = .ok settings)
    (hget : settings.get? change.name = some value) (hne : numbers ≠ [])
    (hvalue : value.text = Text.spaced (numbers.map Single.text)) (bench : Bench) :
    (SynthCall.change change).DeliversLists (synth, bench)
      ((List.range synth.pool.size).map fun voice =>
        [.symbol "send".toList, .symbol synth.pool.receiver, .number (Single.ofNat voice)] ++
          Atom.listOfText change.name ++ numbers.map Single.wireAtom) := by
  have hmakes := (makeUpdate_makes h hupdate hget).bind_pure fun _ => (none : Option Nat)
  have hlist : ∀ voice, VoicePool.voiceList synth.pool.receiver voice
      (Settings.messageOf change.name value) =
        [.symbol "send".toList, .symbol synth.pool.receiver, .number (Single.ofNat voice)] ++
          Atom.listOfText change.name ++ numbers.map Single.wireAtom := by
    intro voice
    rw [VoicePool.voiceList, Settings.textAtoms_messageOf hdeclared hne hvalue, List.append_assoc]
  rw [← run_change, VoicePool.broadcastRow_eq h hsize] at hmakes
  simp only [hlist] at hmakes
  apply deliversLists_of_makes
  rw [List.map_map]
  exact hmakes

/-- **Numbers on the wire.** Take a reachable synth with at most `2 ^ 24` voices, and an engine that
accepts the deliveries of a call. A bend of a voice's pitch delivers `pitchbend` and the number, a
volume, other than the negative zero, `volume` and the number or silence, which is no negative number;
both behind the word `send`, the receiver and the index of the voice. A change of a number, and of one
position of a list, delivers to every voice, lowest first, the name of the setting and its numbers. A
finite number has the same bits on the wire, and one that is not finite is sent as a symbol. -/
theorem numbers_delivered {sessionConfig : SessionConfig} {config : SynthConfig}
    {bench started : Bench} {synth : Synth}
    (hstart : start sessionConfig config bench = .ok synth started) (calls : List SynthCall) :
    let reached := SynthCall.after (synth, started) calls
    let size := reached.1.pool.size
    let front := fun voice : Nat =>
      [Atom.symbol "send".toList, .symbol reached.1.pool.receiver, .number (Single.ofNat voice)]
    size ≤ 2 ^ 24 →
      (∀ voice < size, (Single.ofNat voice).value = voice ∧ ∀ x : Single,
        (SynthCall.pitchBend voice x).DeliversLists reached
            [front voice ++ [.symbol "pitchbend".toList, x.wireAtom]] ∧
          (x ≠ ⟨true, 0, by decide⟩ →
            (SynthCall.voiceVolume voice x).DeliversLists reached
              [front voice ++ [.symbol "volume".toList, x.volumeAtom]] ∧
            ∀ y, x.volumeAtom = .number y → y.atLeastZero = true)) ∧
      ∀ name value, reached.1.settings.get? name = some value →
        (∀ declared x : Single, value = .number declared →
          (SynthCall.change (.whole name (.number x))).DeliversLists reached
            ((List.range size).map fun voice =>
              front voice ++ Atom.listOfText name ++ [x.wireAtom])) ∧
        ∀ (numbers : List Single) (index : Nat) (x : Single), value = .list numbers →
          index < numbers.length →
          (SynthCall.change (.element name index x)).DeliversLists reached
            ((List.range size).map fun voice =>
              front voice ++ Atom.listOfText name ++
                (numbers.set index x).map Single.wireAtom) := by
  intro reached size front hsize
  have houtcome : outcomeOf (start sessionConfig config) bench = .ok synth := by
    rw [outcomeOf, hstart]
  have hsound : reached.1.IsSound synth.pool.receiver :=
    @SynthCall.isSound_after _ (synth, started) (isSound_of_start houtcome) calls
  have hname := hsound.receiver_isName
  have hbound : size < 2 ^ 64 := by omega
  constructor
  · intro voice hvoice
    have hindex : voice < 2 ^ 64 := hvoice.trans hbound
    refine ⟨Single.value_ofNat (hvoice.le.trans hsize), fun x => ⟨?_, fun _ => ⟨?_, ?_⟩⟩⟩
    · have hlist : (SynthCall.pitchBend voice x).DeliversLists reached _ :=
        toVoice_deliversLists hname hvoice hindex rfl reached.2
      rwa [VoicePool.voiceList, VoicePool.textAtoms_number (by decide)] at hlist
    · have hlist : (SynthCall.voiceVolume voice x).DeliversLists reached _ :=
        toVoice_deliversLists hname hvoice hindex rfl reached.2
      rwa [VoicePool.voiceList, VoicePool.textAtoms_number (by decide),
        Single.wireAtom_clampToZero] at hlist
    · exact fun y => Single.atLeastZero_of_volumeAtom
  · intro name value hget
    have hdeclared := Settings.isDeclared_of_get? hsound.declarations_eq hget
    refine ⟨?_, ?_⟩
    · rintro declared x rfl
      have hupdate : reached.1.settings.update (.whole name (.number x)) = .ok _ :=
        Settings.set_number hget x
      have hstored := (Settings.get?_replace_of_declared hget (.number x)).1
      exact @change_deliversLists _ hname hbound (.whole name (.number x)) _ _ _ hdeclared hupdate
        hstored (List.cons_ne_nil x []) (Text.spaced_singleton x.text).symm reached.2
    · rintro numbers index x rfl hindex
      have hupdate : reached.1.settings.update (.element name index x) = .ok _ :=
        Settings.setElement_eq_ok_iff.2 ⟨numbers, hget, hindex, rfl⟩
      have hstored := (Settings.get?_replace_of_declared hget (.list (numbers.set index x))).1
      have hne : numbers.set index x ≠ [] := by
        rw [← List.length_pos_iff, List.length_set]
        exact Nat.zero_lt_of_lt hindex
      exact @change_deliversLists _ hname hbound (.element name index x) _ _ _ hdeclared hupdate
        hstored hne rfl reached.2

/-- The second of two voices is silenced by a negative volume, and bent by no number. The panorama is
sent to both voices. -/
theorem numbers_delivered_clamped :
    let nan : Single := ⟨false, 0x7FC00000, by decide⟩
    let quarter : Single := Single.ofRatio 1 4
    let negative : Single := { quarter with negative := true }
    ∃ synth started, start {} { voices := 2 } Bench.fresh = .ok synth started ∧
      let front := fun voice : Nat =>
        [Atom.symbol "send".toList, .symbol synth.pool.receiver, .number (Single.ofNat voice)]
      (SynthCall.pitchBend 1 nan).DeliversLists (synth, started)
          [front 1 ++ [.symbol "pitchbend".toList, .symbol "NaN".toList]] ∧
        (SynthCall.voiceVolume 1 negative).DeliversLists (synth, started)
          [front 1 ++ [.symbol "volume".toList, .number Single.zero]] ∧
        (SynthCall.change (.element "pan".toList 0 quarter)).DeliversLists (synth, started)
          ((List.range 2).map fun voice =>
            front voice ++ Atom.listOfText "pan".toList ++
              ([Single.ofRatio 1 2, Single.zero].set 0 quarter).map Single.wireAtom) := by
  intro nan quarter negative
  have hruns : (match start {} { voices := 2 } Bench.fresh with
      | .ok synth _ =>
          decide (synth.pool.size = 2 ∧
            synth.settings.get? "pan".toList = some (.list [Single.ofRatio 1 2, Single.zero]))
      | .error _ _ => false) = true := by
    decide +kernel
  cases hstart : start {} { voices := 2 } Bench.fresh with
  | error error after =>
      rw [hstart] at hruns
      cases hruns
  | ok synth started =>
      rw [hstart] at hruns
      obtain ⟨hsize, hpan⟩ := of_decide_eq_true hruns
      obtain ⟨hvoices, hsettings⟩ := numbers_delivered hstart [] (hsize.le.trans (by decide))
      obtain ⟨-, hvoice⟩ := hvoices 1 (hsize ▸ Nat.one_lt_two)
      have hvolume := (hvoice negative).2 (by decide +kernel)
      have hchange := (hsettings _ _ hpan).2 _ 0 quarter rfl (by decide)
      dsimp only [SynthCall.after, List.foldl_nil] at hchange
      rw [hsize] at hchange
      exact ⟨synth, started, rfl, (hvoice nan).1, hvolume.1, hchange⟩

end Synth

end DynamicPatching

import DynamicPatching.Engine.Basic
import DynamicPatching.Proofs.Command.Grammar
import DynamicPatching.Proofs.Command.Layout
import DynamicPatching.Proofs.Single.Numeral

/-!
# Replaying recorded lines

What the engine records of a command is the text of its encoding. This is not the line that was read:
numbers were rounded and are written with the fewest digits, and doubled spaces became empty symbols.
Yet reading it yields a command of the same encoding (`recorded_replays`). Free text stays trimmed and
begins with the same word or with a number, so it is cut and dispatched as before
(`Atom.trim_rewritten`, `Atom.beforeSpace_rewritten`), and rounded indices are written as numerals of
indices that are rounded alike. The one exception are the indices from `4294967168` on. These are
rounded to `2 ^ 32`, and no index is that large.
-/

namespace DynamicPatching

/-! ## Sequences that fail -/

namespace Checked

variable {α β : Type} {first : Checked α} {next : α → Checked β}

/-- A sequence whose first part fails ends in its error. -/
theorem outcome_bind_of_error {error : Error} (h : first.outcome = .error error) :
    (first >>= next).outcome = .error error := by
  rw [outcome_bind, h]
  rfl

theorem outcome_bind_of_ok {value : α} (h : first.outcome = .ok value) :
    (first >>= next).outcome = (next value).outcome := by
  rw [outcome_bind, h]
  rfl

end Checked

/-! ## Rewritten text -/

namespace Atom

/-- The text that is written for what was read from a text. -/
def rewritten (text : Text) : Text := textOfList (listOfText text)

variable {text : Text}

theorem rewritten_eq (text : Text) :
    rewritten text = Text.spaced ((Text.pieces text).map fun piece => (ofToken piece).text) := by
  rw [rewritten, textOfList, listOfText, List.map_map]
  rfl

/-- A token is written as it was read, or as the word of a number. -/
theorem text_ofToken (token : Text) :
    (ofToken token).text = token ∨ (ofToken token).text.IsWord := by
  rw [ofToken]
  split
  · exact Or.inr (Single.isWord_text _)
  · exact Or.inl rfl

/-- A token that is written as a word without a number was that word. -/
theorem text_ofToken_eq {token word : Text} (hword : Text.number? word = none)
    (h : (ofToken token).text = word) : token = word := by
  rw [ofToken] at h
  split at h
  · rename_i value hnumber
    -- the word of a number denotes the number
    have hvalue : value.text = word := h
    rw [← hvalue, Single.number?_text (Single.isFinite_of_number? hnumber)] at hword
    cases hword
  · exact h

/-- Reading rewritten text yields the same atoms. -/
theorem listOfText_rewritten (text : Text) : listOfText (rewritten text) = listOfText text :=
  listOfText_textOfList_of_isReadable (listOfText_ne_nil text) fun _ => isReadable_of_mem_listOfText

/-- Rewritten text is trimmed if the text was. -/
theorem trim_rewritten (hne : text ≠ []) (htrim : Text.trim text = text) :
    Text.trim (rewritten text) = rewritten text ∧ rewritten text ≠ [] := by
  have hspaced := Text.spaced_pieces text
  rw [rewritten_eq]
  apply Text.trim_spaced_map text_ofToken
  · rwa [hspaced]
  · rwa [hspaced]

/-- The first piece of rewritten text is the first piece of the text, written anew. -/
theorem beforeSpace_rewritten (text : Text) :
    Text.beforeSpace (rewritten text) = (ofToken (Text.beforeSpace text)).text := by
  have hspace : ∀ piece ∈ Text.pieces text, ' ' ∉ (ofToken piece).text := fun piece hpiece =>
    space_notMem_text (isReadable_ofToken (Text.space_notMem_of_mem_pieces hpiece))
  obtain ⟨first, rest, hpieces⟩ : ∃ first rest, Text.pieces text = first :: rest :=
    List.exists_cons_of_ne_nil (Text.pieces_ne_nil text)
  have hfirst : ' ' ∉ first :=
    Text.space_notMem_of_mem_pieces (hpieces ▸ List.mem_cons_self)
  have htext := Text.spaced_pieces text
  rw [hpieces] at hspace htext
  have hhead := congrArg Prod.fst (Text.splitFirst_spaced hfirst rest)
  have hhead' := congrArg Prod.fst (Text.splitFirst_spaced (hspace first List.mem_cons_self)
    (rest.map fun piece => (ofToken piece).text))
  rw [htext] at hhead
  rw [rewritten_eq, hpieces, List.map_cons]
  exact hhead'.trans (congrArg (fun piece => (ofToken piece).text) hhead.symm)

end Atom

/-! ## Recorded lines -/

namespace Command

variable {command : Command}

/-- The text that the engine records of an encoded command, with the keyword of a script. -/
def recordedLine (command : Command) (atoms : List Atom) : Text :=
  if command = .reset then Keyword.reset.word else (Payload.list atoms).text

/-- Another command has the line and the encoding. -/
structure ReplaysAs (command again : Command) : Prop where
  isWellFormed : again.IsWellFormed
  isCanonical : again.IsCanonical
  scriptLine_eq : again.scriptLine = command.recordedLine command.layout
  layout_eq : again.layout = command.layout

theorem recordedLine_of_ne (h : command ≠ .reset) (atoms : List Atom) :
    command.recordedLine atoms = Text.spaced (atoms.map Atom.text) := if_neg h

/-- Behind a row of words the atoms of a text are recorded as the rewritten text. -/
theorem spaced_atoms {words : List Text} (hwords : words ≠ []) (text : Text) :
    Text.spaced (words ++ (Atom.listOfText text).map Atom.text) =
      Text.spaced (words ++ [Atom.rewritten text]) := by
  have htext : (Atom.listOfText text).map Atom.text ≠ [] := by
    simpa using Atom.listOfText_ne_nil text
  rw [Text.spaced_append hwords htext, Text.spaced_append hwords (List.cons_ne_nil _ _),
    Text.spaced_singleton]
  rfl

/-! ## Free text -/

section FreeText

variable {text : Text} (htrim : Text.trim text = text)
include htrim

/-- Text that may be left out is left out again, and otherwise stays trimmed. -/
theorem trim_rewritten_optional : Text.trim (Atom.rewritten text) = Atom.rewritten text := by
  by_cases hempty : text = []
  · rw [hempty]
    decide
  · exact (Atom.trim_rewritten hempty htrim).1

theorem optionalAtoms_rewritten : optionalAtoms (Atom.rewritten text) = optionalAtoms text := by
  by_cases hempty : text = []
  · rw [hempty]
    decide
  · rw [optionalAtoms, optionalAtoms, if_neg hempty, if_neg (Atom.trim_rewritten hempty htrim).2,
      Atom.listOfText_rewritten]

theorem spaced_optionalAtoms {words : List Text} (hwords : words ≠ []) :
    Text.spaced (words ++ (optionalAtoms text).map Atom.text) =
      Text.spaced (words ++ optionalOperand (Atom.rewritten text)) := by
  by_cases hempty : text = []
  · rw [hempty]
    rfl
  · rw [optionalAtoms, optionalOperand, if_neg hempty, if_neg (Atom.trim_rewritten hempty htrim).2]
    exact spaced_atoms hwords text

end FreeText

/-! ## Connections -/

/-- Before the midpoint both indices are recorded as numerals of indices that are rounded alike. -/
theorem exists_connection {connection : Connection}
    (h : ∀ index ∈ [connection.outlet, connection.inlet], index.toNat < 4294967168) :
    ∃ again : Connection, again.outletKey = connection.outletKey ∧
      again.inletKey = connection.inletKey ∧
      connectionOperands again = (connectionAtoms connection).map Atom.text ∧
      connectionAtoms again = connectionAtoms connection := by
  obtain ⟨outlet, houtlet, houtletAgain⟩ := Single.exists_index_text (h connection.outlet (by simp))
  obtain ⟨inlet, hinlet, hinletAgain⟩ := Single.exists_index_text (h connection.inlet (by simp))
  refine ⟨⟨connection.outletKey, outlet, connection.inletKey, inlet⟩, rfl, rfl, ?_, ?_⟩
  · simp [connectionOperands, connectionAtoms, Atom.text, houtlet, hinlet]
  · simp [connectionAtoms, houtletAgain, hinletAgain]

theorem readIndex_late {index : UInt32} (h : 4294967168 ≤ index.toNat) (line : Text) :
    (readIndex line (Single.ofNat index.toNat).text).outcome =
      .error (.malformedCommand line (.indexTooLarge "4294967300".toList)) := by
  have hinteger : Text.isInteger "4294967300".toList = true := by decide
  have hindex : Text.index? "4294967300".toList = none := by decide +kernel
  rw [Single.ofNat_of_late_index h, Single.text_ofNat_two_pow, readIndex, if_pos hinteger, hindex]
  rfl

/-- Of two indices the first one from the midpoint on is found to be too large. -/
theorem readConnection_late {connection : Connection}
    (h : ∃ index ∈ [connection.outlet, connection.inlet], 4294967168 ≤ index.toNat) (line : Text) :
    (readConnection line ((connectionAtoms connection).map Atom.text)).outcome =
      .error (.malformedCommand line (.indexTooLarge "4294967300".toList)) := by
  have hwords : (connectionAtoms connection).map Atom.text =
      [connection.outletKey, (Single.ofNat connection.outlet.toNat).text, connection.inletKey,
        (Single.ofNat connection.inlet.toNat).text] := rfl
  rw [hwords, readConnection]
  rcases Nat.lt_or_ge connection.outlet.toNat 4294967168 with hsmall | hlate
  · have hlate : 4294967168 ≤ connection.inlet.toNat := by
      obtain ⟨index, hindex, hlate⟩ := h
      rcases List.mem_pair.1 hindex with rfl | rfl
      · omega
      · exact hlate
    obtain ⟨outlet, houtlet, -⟩ := Single.exists_index_text hsmall
    rw [houtlet, Checked.outcome_bind_of_ok (readIndex_decimal line outlet)]
    exact Checked.outcome_bind_of_error (readIndex_late hlate line)
  · exact Checked.outcome_bind_of_error (readIndex_late hlate line)

/-- What is malformed about the words of a connection is malformed about its line. -/
theorem ofLine_of_readConnection {keyword : Keyword} {words : List Text} {fault : CommandFault}
    (hkeyword : keyword = .connect ∨ keyword = .disconnect) (hwords : ∀ word ∈ words, word.IsWord)
    (hread : ∀ line, (readConnection line words).outcome = .error (.malformedCommand line fault)) :
    (ofLine (Text.spaced (keyword.word :: words))).outcome =
      .error (.malformedCommand (Text.spaced (keyword.word :: words)) fault) := by
  have htrimmed : ∀ word ∈ words, word ≠ [] ∧ Text.trim word = word :=
    fun word hword => (hwords word hword).trimmed
  have hline : Text.trim (Text.spaced (keyword.word :: words)) =
      Text.spaced (keyword.word :: words) :=
    (Text.trim_spaced (List.forall_mem_cons.2 ⟨keyword.word_isName.isWord.trimmed, htrimmed⟩)).1
  have hsplit : Text.splitFirst (Text.trim (Text.spaced (keyword.word :: words))) =
      (keyword.word, Text.spaced words) := by
    rw [hline, Text.splitFirst_spaced keyword.word_isName.isWord.space_notMem,
      (Text.trim_spaced htrimmed).1]
  have hall : Text.words (Text.spaced words) = words :=
    Text.words_spaced fun word hword => (hwords word hword).words_eq
  rw [ofLine_of_keyword hsplit, hline]
  rcases hkeyword with rfl | rfl
  · rw [readArguments, hall, Checked.outcome_bind_of_error (hread _)]
    rfl
  · rw [readArguments, hall, Checked.outcome_bind_of_error (hread _)]
    rfl

/-! ## Recorded lines of commands -/

/-- The line of free text behind a name replays as the line of the rewritten text. -/
theorem replaysAs_rewritten {text : Text} {build : Text → Command} {words : List Text}
    (htrim : Text.trim text = text) (hwords : words ≠ [])
    (hline : ∀ text, (build text).scriptLine = Text.spaced (words ++ optionalOperand text))
    (hlayout : ∀ text, (build text).layout = words.map Atom.symbol ++ optionalAtoms text)
    (hformed : ∀ text, (build text).IsWellFormed)
    (hcanonical : ∀ text, Text.trim text = text → (build text).IsCanonical)
    (hne : build text ≠ .reset) : (build text).ReplaysAs (build (Atom.rewritten text)) := by
  have hsymbols : (words.map Atom.symbol).map Atom.text = words := by
    rw [List.map_map]
    exact List.map_id words
  refine ⟨hformed _, hcanonical _ (trim_rewritten_optional htrim), ?_, ?_⟩
  · rw [recordedLine_of_ne hne, hline, hlayout, List.map_append, hsymbols,
      spaced_optionalAtoms htrim hwords]
  · rw [hlayout, hlayout, optionalAtoms_rewritten htrim]

/-- Before the midpoint the line of a connection replays as the line of other indices. -/
theorem exists_replaysAs_connection {connection : Connection} {build : Connection → Command}
    {word : Text}
    (hline : ∀ ends, (build ends).scriptLine = Text.spaced (word :: connectionOperands ends))
    (hlayout : ∀ ends, (build ends).layout = .symbol word :: connectionAtoms ends)
    (hnames : ∀ ends : Connection,
      (build ends).IsWellFormed ↔ ends.outletKey.IsName ∧ ends.inletKey.IsName)
    (hcanonical : ∀ ends, (build ends).IsCanonical) (hne : build connection ≠ .reset)
    (hformed : (build connection).IsWellFormed)
    (h : ∀ index ∈ [connection.outlet, connection.inlet], index.toNat < 4294967168) :
    ∃ again, (build connection).ReplaysAs again := by
  obtain ⟨again, houtletKey, hinletKey, hoperands, hatoms⟩ := exists_connection h
  refine ⟨build again, ?_, hcanonical again, ?_, ?_⟩
  · rw [hnames, houtletKey, hinletKey]
    exact (hnames connection).1 hformed
  · rw [recordedLine_of_ne hne, hline, hlayout, hoperands]
    rfl
  · rw [hlayout, hlayout, hatoms]

/-- Without an index from the midpoint on, the recorded line of a well-formed canonical command is the
line of another one with its encoding. -/
theorem exists_replaysAs (hformed : command.IsWellFormed) (hcanonical : command.IsCanonical)
    (h : ∀ index ∈ command.indices, index.toNat < 4294967168) :
    ∃ again, command.ReplaysAs again := by
  cases command with
  | object key definition =>
      obtain ⟨hkey, hdefinition⟩ := hformed
      obtain ⟨htrim, hword⟩ := hcanonical
      rw [htrim] at hdefinition
      obtain ⟨htrim', hne⟩ := Atom.trim_rewritten hdefinition htrim
      refine ⟨.object key (Atom.rewritten definition), ⟨hkey, by rwa [htrim']⟩, ⟨htrim', ?_⟩, ?_, ?_⟩
      · -- the first word is written anew, and no number is written as the word of a box
        intro hbox
        rw [Atom.beforeSpace_rewritten] at hbox
        have hnone : ∀ word ∈ boxWords, Text.number? word = none := by decide +kernel
        have hsame := Atom.text_ofToken_eq (hnone _ hbox) rfl
        rw [← hsame] at hbox
        exact hword hbox
      · rw [recordedLine_of_ne (by simp)]
        exact (@spaced_atoms ["obj".toList, key] (List.cons_ne_nil _ _) definition).symm
      · rw [layout, layout, Atom.listOfText_rewritten]
  | message key text =>
      exact ⟨_, @replaysAs_rewritten text (.message key) ["msg".toList, key] hcanonical
        (List.cons_ne_nil _ _) (fun _ => rfl) (fun _ => rfl) (fun _ => hformed) (fun _ => id)
        (by simp)⟩
  | floatAtom key arguments =>
      exact ⟨_, @replaysAs_rewritten arguments (.floatAtom key) ["floatatom".toList, key] hcanonical
        (List.cons_ne_nil _ _) (fun _ => rfl) (fun _ => rfl) (fun _ => hformed) (fun _ => id)
        (by simp)⟩
  | symbolAtom key arguments =>
      exact ⟨_, @replaysAs_rewritten arguments (.symbolAtom key) ["symbolatom".toList, key]
        hcanonical (List.cons_ne_nil _ _) (fun _ => rfl) (fun _ => rfl) (fun _ => hformed)
        (fun _ => id) (by simp)⟩
  | send receiver text =>
      exact ⟨_, @replaysAs_rewritten text (.send receiver) ["send".toList, receiver] hcanonical
        (List.cons_ne_nil _ _) (fun _ => rfl) (fun _ => rfl) (fun _ => hformed) (fun _ => id)
        (by simp)⟩
  | connect connection =>
      exact @exists_replaysAs_connection _ .connect "connect".toList (fun _ => rfl) (fun _ => rfl)
        (fun _ => Iff.rfl) (fun _ => trivial) (by simp) hformed h
  | disconnect connection =>
      exact @exists_replaysAs_connection _ .disconnect "disconnect".toList (fun _ => rfl)
        (fun _ => rfl) (fun _ => Iff.rfl) (fun _ => trivial) (by simp) hformed h
  | delete key => exact ⟨.delete key, hformed, hcanonical, rfl, rfl⟩
  | target subpatch => exact ⟨.target subpatch, hformed, hcanonical, rfl, rfl⟩
  | loadbang => exact ⟨.loadbang, hformed, hcanonical, rfl, rfl⟩
  | reset => exact ⟨.reset, hformed, hcanonical, rfl, rfl⟩

/-- The words of a recorded connection. -/
theorem isWord_connectionAtoms {connection : Connection}
    (h : connection.outletKey.IsName ∧ connection.inletKey.IsName) :
    ∀ word ∈ (connectionAtoms connection).map Atom.text, word.IsWord := by
  simp only [connectionAtoms, List.map_cons, List.map_nil, List.forall_mem_cons, Atom.text]
  exact ⟨h.1.isWord, Single.isWord_text _, h.2.isWord, Single.isWord_text _,
    fun _ hnil => absurd hnil List.not_mem_nil⟩

/-- A recorded index from the midpoint on is out of range. -/
theorem ofLine_recorded_late (hformed : command.IsWellFormed)
    (h : ∃ index ∈ command.indices, 4294967168 ≤ index.toNat) :
    (ofLine (command.recordedLine command.layout)).outcome =
      .error (.malformedCommand (command.recordedLine command.layout)
        (.indexTooLarge "4294967300".toList)) := by
  cases command with
  | connect connection =>
      rw [recordedLine_of_ne (by simp)]
      exact @ofLine_of_readConnection .connect _ _ (Or.inl rfl) (isWord_connectionAtoms hformed)
        (readConnection_late h)
  | disconnect connection =>
      rw [recordedLine_of_ne (by simp)]
      exact @ofLine_of_readConnection .disconnect _ _ (Or.inr rfl) (isWord_connectionAtoms hformed)
        (readConnection_late h)
  | _ => simp [indices] at h

/-- The indices of a command are numbers of its layout. -/
theorem mem_layout_of_mem_indices {index : UInt32} (h : index ∈ command.indices) :
    Atom.number (Single.ofNat index.toNat) ∈ command.layout := by
  cases command with
  | connect connection =>
      rcases List.mem_pair.1 h with rfl | rfl <;> simp [layout, connectionAtoms]
  | disconnect connection =>
      rcases List.mem_pair.1 h with rfl | rfl <;> simp [layout, connectionAtoms]
  | _ => simp [indices] at h

/-- **Recorded lines replay.** A command that was read or constructed is encoded, and the line that is
recorded of it, with `reset` for the `init` of the wire, is read as a command of the same encoding. The
exception is exactly a connection with an index from `4294967168` on: the index is recorded as
`2 ^ 32`, its text is above every index, and the line is rejected for it. -/
theorem recorded_replays {command : Command}
    (h : (∃ line, (ofLine line).outcome = .ok command) ∨
      ∃ parts : Command, parts.remake.outcome = .ok command) :
    ∃ atoms, command.encode.outcome = .ok atoms ∧
      ((∃ again, (ofLine (command.recordedLine atoms)).outcome = .ok again ∧
          again.encode.outcome = .ok atoms) ↔
        ∀ index ∈ command.indices, index.toNat < 4294967168) ∧
      ∀ index ∈ command.indices, 4294967168 ≤ index.toNat →
        Atom.number (Single.ofNat index.toNat) ∈ atoms ∧
          (Single.ofNat index.toNat).value = 2 ^ 32 ∧
          (Single.ofNat index.toNat).text = "4294967300".toList ∧
          (ofLine (command.recordedLine atoms)).outcome =
            .error (.malformedCommand (command.recordedLine atoms)
              (.indexTooLarge "4294967300".toList)) := by
  obtain ⟨hformed, hcanonical⟩ : command.IsWellFormed ∧ command.IsCanonical := by
    rcases h with ⟨line, hread⟩ | ⟨parts, hmake⟩
    · exact isCanonical_of_ofLine hread
    · exact isCanonical_of_remake hmake
  have hencode : ∀ {command : Command}, command.IsWellFormed →
      command.encode.outcome = .ok command.layout := by
    intro command hformed
    rw [encode_outcome_of_isWellFormed hformed, listOfText_wireLine hformed]
  refine ⟨command.layout, hencode hformed, ⟨?_, ?_⟩, ?_⟩
  · rintro ⟨again, hagain, -⟩ index hindex
    by_contra hlate
    rw [ofLine_recorded_late hformed ⟨index, hindex, Nat.le_of_not_lt hlate⟩] at hagain
    cases hagain
  · intro hsmall
    obtain ⟨again, hreplays⟩ := exists_replaysAs hformed hcanonical hsmall
    refine ⟨again, ?_, ?_⟩
    · rw [← hreplays.scriptLine_eq]
      exact ofLine_scriptLine hreplays.isWellFormed hreplays.isCanonical
    · rw [hencode hreplays.isWellFormed, hreplays.layout_eq]
  · intro index hindex hlate
    refine ⟨mem_layout_of_mem_indices hindex, ?_, ?_,
      ofLine_recorded_late hformed ⟨index, hindex, hlate⟩⟩
    · rw [Single.ofNat_of_late_index hlate, Single.value_ofNat_two_pow]
    · rw [Single.ofNat_of_late_index hlate, Single.text_ofNat_two_pow]

/-- The index of the first line is rounded to `16777216`, and the one of the second to `2 ^ 32`. -/
theorem recorded_replays_rounded :
    let odd : Command := .connect ⟨"a".toList, 16777217, "b".toList, 3⟩
    let last : Command := .disconnect ⟨"a".toList, 4294967295, "b".toList, 3⟩
    (ofLine "connect a 16777217 b 3".toList).outcome = .ok odd ∧ last.remake.outcome = .ok last ∧
      (∃ atoms again, odd.encode.outcome = .ok atoms ∧
        (ofLine (odd.recordedLine atoms)).outcome = .ok again ∧
        again.encode.outcome = .ok atoms) ∧
      ∃ atoms, last.encode.outcome = .ok atoms ∧
        (ofLine (last.recordedLine atoms)).outcome =
          .error (.malformedCommand (last.recordedLine atoms)
            (.indexTooLarge "4294967300".toList)) := by
  intro odd last
  have hread : (ofLine "connect a 16777217 b 3".toList).outcome = .ok odd := by decide +kernel
  have hmake : last.remake.outcome = .ok last := by decide +kernel
  obtain ⟨atoms, hencode, hreplays, -⟩ := recorded_replays (Or.inl ⟨_, hread⟩)
  obtain ⟨again, hagain, hagainEncode⟩ := hreplays.2 (by simp [odd, indices])
  obtain ⟨lastAtoms, hlastEncode, -, hlate⟩ := recorded_replays (Or.inr ⟨last, hmake⟩)
  obtain ⟨-, -, -, hrejected⟩ := hlate 4294967295 (by simp [last, indices]) (by simp)
  exact ⟨hread, hmake, ⟨atoms, again, hencode, hagain, hagainEncode⟩,
    lastAtoms, hlastEncode, hrejected⟩

end Command

end DynamicPatching

import DynamicPatching.Proofs.Command.Connection

/-!
# Lines and their grammar

A line is read as a command exactly when the text behind its keyword is written as that command
(`readArguments_outcome_eq_ok_iff`). A line without a keyword is an unknown command. Every other line
that is not written as a command is malformed, and although the error is raised by a test of a single
name or word, it names the whole trimmed line (`readArguments_failsMalformed`, `ofLine_grammar`).
-/

namespace DynamicPatching

/-! ## Malformed calls -/

/-- If the call fails, it finds some line malformed. -/
def Checked.FailsMalformed {α : Type} (call : Checked α) : Prop :=
  ∀ error, call.outcome = .error error → ∃ line fault, error = .malformedCommand line fault

namespace Checked

variable {α β : Type}

theorem failsMalformed_pure (value : α) : FailsMalformed (pure value) := by
  intro error h
  cases h

theorem failsMalformed_fail (line : Text) (fault : CommandFault) :
    FailsMalformed (fail (.malformedCommand line fault) : Checked α) := by
  intro error h
  obtain rfl := Except.error.inj h
  exact ⟨line, fault, rfl⟩

theorem FailsMalformed.bind {first : Checked α} {next : α → Checked β}
    (hfirst : first.FailsMalformed) (hnext : ∀ value, (next value).FailsMalformed) :
    (first >>= next).FailsMalformed := by
  intro error h
  rw [outcome_bind] at h
  cases houtcome : first.outcome with
  | error other =>
      rw [houtcome] at h
      obtain rfl := Except.error.inj h
      exact hfirst other houtcome
  | ok value =>
      rw [houtcome] at h
      exact hnext value error h

end Checked

theorem requireName_failsMalformed (line : Text) (role : NameRole) (name : Text) :
    (requireName line role name).FailsMalformed := by
  intro error h
  rw [requireName] at h
  split at h
  · exact Checked.failsMalformed_fail _ _ error h
  · split at h
    · exact Checked.failsMalformed_fail _ _ error h
    · split at h
      · exact Checked.failsMalformed_fail _ _ error h
      · cases h

namespace Command

variable {line word rest key definition text : Text} {keyword : Keyword} {command : Command}

theorem requireName_then_failsMalformed {role : NameRole} {name : Text} :
    (requireName line role name >>= fun _ => pure command : Checked Command).FailsMalformed :=
  (requireName_failsMalformed line role name).bind fun _ => Checked.failsMalformed_pure command

theorem makeObject_failsMalformed (key definition : Text) :
    (makeObject key definition).FailsMalformed := by
  refine (requireName_failsMalformed _ _ _).bind fun _ => ?_
  dsimp only
  split
  · exact Checked.failsMalformed_fail _ _
  · exact Checked.failsMalformed_pure _

theorem readIndex_failsMalformed (line token : Text) : (readIndex line token).FailsMalformed := by
  rw [readIndex]
  split
  · split
    · exact Checked.failsMalformed_pure _
    · exact Checked.failsMalformed_fail _ _
  · exact Checked.failsMalformed_fail _ _

theorem joinEnds_failsMalformed (line outletKey : Text) (outlet : UInt32) (inletKey : Text)
    (inlet : UInt32) : (joinEnds line outletKey outlet inletKey inlet).FailsMalformed := by
  refine Checked.FailsMalformed.bind ?_ fun _ => Checked.failsMalformed_pure _
  exact (requireName_failsMalformed _ _ _).bind fun _ => requireName_failsMalformed _ _ _

theorem readConnection_failsMalformed (line : Text) (words : List Text) :
    (readConnection line words).FailsMalformed := by
  rw [readConnection.eq_def]
  split
  · exact joinEnds_failsMalformed _ _ _ _ _
  · split
    · exact (readIndex_failsMalformed _ _).bind fun _ => joinEnds_failsMalformed _ _ _ _ _
    · exact (readIndex_failsMalformed _ _).bind fun _ => joinEnds_failsMalformed _ _ _ _ _
  · refine (readIndex_failsMalformed _ _).bind fun _ => ?_
    exact (readIndex_failsMalformed _ _).bind fun _ => joinEnds_failsMalformed _ _ _ _ _
  · exact Checked.failsMalformed_fail _ _

theorem readSingle_failsMalformed (line rest : Text) (role : NameRole) :
    (readSingle line rest role).FailsMalformed := by
  rw [readSingle]
  split
  · exact Checked.failsMalformed_fail _ _
  · exact Checked.failsMalformed_pure _
  · exact Checked.failsMalformed_fail _ _

theorem requireNone_failsMalformed (line rest : Text) : (requireNone line rest).FailsMalformed := by
  rw [requireNone]
  split
  · exact Checked.failsMalformed_pure _
  · exact Checked.failsMalformed_fail _ _

/-- Arguments that are not read are found malformed. -/
theorem readArguments_failsMalformed (line rest : Text) (keyword : Keyword) :
    (readArguments line rest keyword).FailsMalformed := by
  cases keyword with
  | object => exact makeObject_failsMalformed _ _
  | message => exact requireName_then_failsMalformed
  | floatAtom => exact requireName_then_failsMalformed
  | symbolAtom => exact requireName_then_failsMalformed
  | send => exact requireName_then_failsMalformed
  | delete => exact (readSingle_failsMalformed _ _ _).bind fun _ => requireName_then_failsMalformed
  | target => exact (readSingle_failsMalformed _ _ _).bind fun _ => requireName_then_failsMalformed
  | connect =>
      exact (readConnection_failsMalformed _ _).bind fun _ => Checked.failsMalformed_pure _
  | disconnect =>
      exact (readConnection_failsMalformed _ _).bind fun _ => Checked.failsMalformed_pure _
  | loadbang => exact (requireNone_failsMalformed _ _).bind fun _ => Checked.failsMalformed_pure _
  | reset => exact (requireNone_failsMalformed _ _).bind fun _ => Checked.failsMalformed_pure _

/-! ## Names and free text -/

theorem space_notMem_of_splitFirst (h : Text.splitFirst rest = (key, text)) : ' ' ∉ key := by
  obtain ⟨rfl, -⟩ := Prod.mk.inj h
  exact Text.space_notMem_beforeSpace rest

theorem trim_of_splitFirst (h : Text.splitFirst rest = (key, text)) : Text.trim text = text := by
  obtain ⟨-, rfl⟩ := Prod.mk.inj h
  exact Text.trim_trim _

/-- Nothing has no first word. -/
theorem ne_nil_of_splitFirst (h : Text.splitFirst definition = (keyword.word, text)) :
    definition ≠ [] := by
  rintro rfl
  exact keyword.word_isName.1 (Prod.mk.inj h).1.symm

/-- A part without a space and a trimmed text are the parts of what they are joined to. -/
theorem splitFirst_pair (hkey : ' ' ∉ key) (htext : Text.trim text = text) :
    Text.splitFirst (Text.spaced [key, text]) = (key, text) := by
  rw [Text.splitFirst_spaced hkey, Text.spaced_singleton, htext]

/-! ## Boxes -/

theorem boxWord_cases (h : keyword.word ∈ boxWords) :
    keyword = .message ∨ keyword = .floatAtom ∨ keyword = .symbolAtom := by
  have hself := Keyword.ofWord?_eq_some_iff.2 (Eq.refl keyword.word)
  simpa [mem_boxWords_iff, hself] using h

theorem exists_keyword_of_mem_boxWords (h : word ∈ boxWords) :
    ∃ keyword : Keyword, keyword.word = word := by
  simp only [mem_boxWords_iff, Keyword.ofWord?_eq_some_iff] at h
  rcases h with hmessage | hfloatAtom | hsymbolAtom
  · exact ⟨_, hmessage⟩
  · exact ⟨_, hfloatAtom⟩
  · exact ⟨_, hsymbolAtom⟩

/-- Behind the word of a box stand the name and the free text of the box. -/
theorem written_box_iff (hword : keyword.word ∈ boxWords)
    (hrest : Text.splitFirst rest = (key, text))
    (hdefinition : Text.splitFirst definition = (keyword.word, text)) :
    Written keyword rest command ↔ key.IsName ∧ boxOfDefinition key definition = command := by
  rw [boxOfDefinition, hdefinition]
  rcases boxWord_cases hword with rfl | rfl | rfl
  · constructor
    · rintro (_ | _ | ⟨hsplit, hkey⟩)
      obtain ⟨rfl, rfl⟩ := Prod.mk.inj (hrest.symm.trans hsplit)
      exact ⟨hkey, rfl⟩
    · rintro ⟨hkey, rfl⟩
      exact .message hrest hkey
  · constructor
    · rintro (_ | _ | _ | ⟨hsplit, hkey⟩)
      obtain ⟨rfl, rfl⟩ := Prod.mk.inj (hrest.symm.trans hsplit)
      exact ⟨hkey, rfl⟩
    · rintro ⟨hkey, rfl⟩
      exact .floatAtom hrest hkey
  · constructor
    · rintro (_ | _ | _ | _ | ⟨hsplit, hkey⟩)
      obtain ⟨rfl, rfl⟩ := Prod.mk.inj (hrest.symm.trans hsplit)
      exact ⟨hkey, rfl⟩
    · rintro ⟨hkey, rfl⟩
      exact .symbolAtom hrest hkey

/-- An object is written by its name and the definition of the box it stands for. -/
theorem written_object_iff (hrest : Text.splitFirst rest = (key, definition)) :
    Written .object rest command ↔
      key.IsName ∧ definition ≠ [] ∧ boxOfDefinition key definition = command := by
  constructor
  · intro h
    cases h with
    | object hsplit hkey hne hword =>
        obtain ⟨rfl, rfl⟩ := Prod.mk.inj (hrest.symm.trans hsplit)
        exact ⟨hkey, hne, boxOfDefinition_eq_object hword⟩
    | box hsplit hdefinition hword hbox =>
        obtain ⟨rfl, rfl⟩ := Prod.mk.inj (hrest.symm.trans hsplit)
        have hpair := splitFirst_pair (space_notMem_of_splitFirst hrest)
          (trim_of_splitFirst hdefinition)
        obtain ⟨hkey, hcommand⟩ := (written_box_iff hword hpair hdefinition).1 hbox
        exact ⟨hkey, ne_nil_of_splitFirst hdefinition, hcommand⟩
  · rintro ⟨hkey, hne, rfl⟩
    by_cases hword : Text.beforeSpace definition ∈ boxWords
    · obtain ⟨keyword, hkeyword⟩ := exists_keyword_of_mem_boxWords hword
      have hdefinition : Text.splitFirst definition =
          (keyword.word, Text.trim (Text.afterSpace definition)) := by
        rw [hkeyword]
        rfl
      rw [← hkeyword] at hword
      have hpair := splitFirst_pair (space_notMem_of_splitFirst hrest)
        (trim_of_splitFirst hdefinition)
      exact .box hrest hdefinition hword
        ((written_box_iff hword hpair hdefinition).2 ⟨hkey, rfl⟩)
    · rw [boxOfDefinition_eq_object hword]
      exact .object hrest hkey hne hword

/-! ## Arguments -/

/-- What is read as a single name is the whole text. -/
theorem eq_of_readSingle {role : NameRole} {name : Text}
    (h : (readSingle line rest role).outcome = .ok name) : rest = name := by
  rw [readSingle] at h
  split at h
  · cases h
  · exact Except.ok.inj h
  · cases h

theorem eq_nil_of_requireNone (h : (requireNone line rest).outcome = .ok ()) : rest = [] := by
  rw [requireNone] at h
  split at h
  · assumption
  · cases h

theorem written_of_readConnection {connection : Connection}
    (h : (readConnection line (Text.words rest)).outcome = .ok connection) :
    Connection.Written (Text.words rest) connection :=
  (readConnection_outcome_eq_ok_iff fun _ => Text.isWord_of_mem_words).1 h

/-- What is read is written. -/
theorem written_of_readArguments (h : (readArguments line rest keyword).outcome = .ok command) :
    Written keyword rest command := by
  have hsplit : Text.splitFirst rest = ((Text.splitFirst rest).1, (Text.splitFirst rest).2) := rfl
  have htext := trim_of_splitFirst hsplit
  cases keyword with
  | object =>
      rw [readArguments, makeObject_outcome_eq_ok_iff, htext] at h
      exact (written_object_iff hsplit).2 h
  | message =>
      obtain ⟨hkey, rfl⟩ := requireName_then_eq_ok_iff.1 h
      rw [htext]
      exact .message hsplit hkey
  | floatAtom =>
      obtain ⟨hkey, rfl⟩ := requireName_then_eq_ok_iff.1 h
      rw [htext]
      exact .floatAtom hsplit hkey
  | symbolAtom =>
      obtain ⟨hkey, rfl⟩ := requireName_then_eq_ok_iff.1 h
      rw [htext]
      exact .symbolAtom hsplit hkey
  | send =>
      obtain ⟨hreceiver, rfl⟩ := requireName_then_eq_ok_iff.1 h
      rw [htext]
      exact .send hsplit hreceiver
  | delete =>
      obtain ⟨key, hread, hmake⟩ := Checked.outcome_bind_eq_ok_iff.1 h
      obtain ⟨hkey, rfl⟩ := requireName_then_eq_ok_iff.1 hmake
      rw [eq_of_readSingle hread]
      exact .delete hkey
  | target =>
      obtain ⟨subpatch, hread, hmake⟩ := Checked.outcome_bind_eq_ok_iff.1 h
      obtain ⟨hsubpatch, rfl⟩ := requireName_then_eq_ok_iff.1 hmake
      rw [eq_of_readSingle hread]
      exact .target hsubpatch
  | connect =>
      obtain ⟨connection, hread, hresult⟩ := Checked.outcome_bind_eq_ok_iff.1 h
      obtain rfl := Except.ok.inj hresult
      exact .connect (written_of_readConnection hread)
  | disconnect =>
      obtain ⟨connection, hread, hresult⟩ := Checked.outcome_bind_eq_ok_iff.1 h
      obtain rfl := Except.ok.inj hresult
      exact .disconnect (written_of_readConnection hread)
  | loadbang =>
      obtain ⟨_, hnone, hresult⟩ := Checked.outcome_bind_eq_ok_iff.1 h
      obtain rfl := Except.ok.inj hresult
      rw [eq_nil_of_requireNone hnone]
      exact .loadbang
  | reset =>
      obtain ⟨_, hnone, hresult⟩ := Checked.outcome_bind_eq_ok_iff.1 h
      obtain rfl := Except.ok.inj hresult
      rw [eq_nil_of_requireNone hnone]
      exact .reset

/-- What is written is read. -/
theorem readArguments_of_written (h : Written keyword rest command) :
    (readArguments line rest keyword).outcome = .ok command := by
  -- a name with free text is tested, and its text is trimmed already
  have hnamed : ∀ {given name text : Text} {role : NameRole} {build : Text → Text → Command},
      Text.splitFirst rest = (name, text) → name.IsName →
      (requireName given role name >>= fun _ =>
        pure (build name (Text.trim text)) : Checked Command).outcome = .ok (build name text) := by
    intro given name text role build hsplit hname
    rw [trim_of_splitFirst hsplit]
    exact requireName_then_eq_ok_iff.2 ⟨hname, rfl⟩
  cases h with
  | object hsplit hkey hne hword =>
      rw [readArguments, makeObject_outcome_eq_ok_iff, hsplit, trim_of_splitFirst hsplit]
      exact ⟨hkey, hne, boxOfDefinition_eq_object hword⟩
  | box hsplit hdefinition hword hbox =>
      rw [readArguments, makeObject_outcome_eq_ok_iff, hsplit, trim_of_splitFirst hsplit]
      exact (written_object_iff hsplit).1 (.box hsplit hdefinition hword hbox)
  | message hsplit hkey =>
      rw [readArguments, hsplit]
      exact hnamed hsplit hkey
  | floatAtom hsplit hkey =>
      rw [readArguments, hsplit]
      exact hnamed hsplit hkey
  | symbolAtom hsplit hkey =>
      rw [readArguments, hsplit]
      exact hnamed hsplit hkey
  | send hsplit hreceiver =>
      rw [readArguments, hsplit]
      exact hnamed hsplit hreceiver
  | delete hkey =>
      have hread := @readSingle_name line rest .key hkey
      rw [Text.spaced_singleton] at hread
      rw [readArguments, Checked.outcome_bind_eq_ok_iff]
      exact ⟨rest, hread, requireName_then_eq_ok_iff.2 ⟨hkey, rfl⟩⟩
  | target hsubpatch =>
      have hread := @readSingle_name line rest .subpatch hsubpatch
      rw [Text.spaced_singleton] at hread
      rw [readArguments, Checked.outcome_bind_eq_ok_iff]
      exact ⟨rest, hread, requireName_then_eq_ok_iff.2 ⟨hsubpatch, rfl⟩⟩
  | connect hwritten =>
      rw [readArguments, Checked.outcome_bind_eq_ok_iff]
      exact ⟨_, (readConnection_outcome_eq_ok_iff fun _ => Text.isWord_of_mem_words).2 hwritten, rfl⟩
  | disconnect hwritten =>
      rw [readArguments, Checked.outcome_bind_eq_ok_iff]
      exact ⟨_, (readConnection_outcome_eq_ok_iff fun _ => Text.isWord_of_mem_words).2 hwritten, rfl⟩
  | loadbang => rfl
  | reset => rfl

/-- **Arguments are read exactly as they are written.** -/
theorem readArguments_outcome_eq_ok_iff :
    (readArguments line rest keyword).outcome = .ok command ↔ Written keyword rest command :=
  ⟨written_of_readArguments, readArguments_of_written⟩

theorem isWellFormed_of_written (h : Written keyword rest command) : command.IsWellFormed := by
  have hread : (readArguments [] rest keyword).outcome = .ok command := readArguments_of_written h
  exact (isCanonical_of_readArguments hread).1

/-! ## Lines -/

/-- A line that begins with no keyword is an unknown command. -/
theorem ofLine_of_unknown (hline : Text.splitFirst (Text.trim line) = (word, rest))
    (h : ∀ keyword : Keyword, keyword.word ≠ word) :
    (ofLine line).outcome = .error (.unknownCommand (Text.trim line)) := by
  have hnone : Keyword.ofWord? word = none := by
    cases hword : Keyword.ofWord? word with
    | none => rfl
    | some keyword => exact absurd (Keyword.ofWord?_eq_some_iff.1 hword) (h keyword)
  dsimp only [ofLine]
  rw [hline, hnone]
  rfl

/-- Behind a keyword the arguments are read, and an error about them names the trimmed line. -/
theorem ofLine_of_keyword (hline : Text.splitFirst (Text.trim line) = (keyword.word, rest)) :
    (ofLine line).outcome =
      (readArguments (Text.trim line) rest keyword).outcome.mapError
        (Error.atLine (Text.trim line)) := by
  dsimp only [ofLine]
  rw [hline, Keyword.ofWord?_eq_some_iff.2 (Eq.refl keyword.word)]
  rfl

/-- Behind a keyword, what is read is what is written. -/
theorem ofLine_outcome_eq_ok_iff (hline : Text.splitFirst (Text.trim line) = (keyword.word, rest)) :
    (ofLine line).outcome = .ok command ↔ Written keyword rest command := by
  rw [ofLine_of_keyword hline, ← @readArguments_outcome_eq_ok_iff (Text.trim line)]
  cases (readArguments (Text.trim line) rest keyword).outcome with
  | ok command' => exact Iff.rfl
  | error error =>
      constructor
      · intro h
        cases h
      · intro h
        cases h

/-- Behind a keyword, arguments that are not written make the trimmed line malformed. -/
theorem ofLine_malformed (hline : Text.splitFirst (Text.trim line) = (keyword.word, rest))
    (h : ∀ command, ¬ Written keyword rest command) :
    ∃ fault, (ofLine line).outcome = .error (.malformedCommand (Text.trim line) fault) := by
  rw [ofLine_of_keyword hline]
  cases hread : (readArguments (Text.trim line) rest keyword).outcome with
  | ok command => exact absurd (written_of_readArguments hread) (h command)
  | error error =>
      obtain ⟨_, fault, rfl⟩ := readArguments_failsMalformed _ _ _ error hread
      exact ⟨fault, rfl⟩

/-- Behind a keyword a line is no unknown command. -/
theorem ofLine_ne_unknown (hline : Text.splitFirst (Text.trim line) = (keyword.word, rest)) :
    (ofLine line).outcome ≠ .error (.unknownCommand (Text.trim line)) := by
  intro h
  by_cases hwritten : ∃ command, Written keyword rest command
  · obtain ⟨command, hcommand⟩ := hwritten
    rw [(ofLine_outcome_eq_ok_iff hline).2 hcommand] at h
    cases h
  · obtain ⟨fault, hfault⟩ := ofLine_malformed hline (not_exists.1 hwritten)
    rw [hfault] at h
    cases h

/-- A line that is read is a keyword with arguments written for the command. -/
theorem written_of_ofLine (h : (ofLine line).outcome = .ok command) :
    ∃ (keyword : Keyword) (rest : Text),
      Text.splitFirst (Text.trim line) = (keyword.word, rest) ∧ Written keyword rest command := by
  obtain ⟨word, rest, hline⟩ : ∃ word rest, Text.splitFirst (Text.trim line) = (word, rest) :=
    ⟨_, _, rfl⟩
  by_cases hword : ∃ keyword : Keyword, keyword.word = word
  · obtain ⟨keyword, rfl⟩ := hword
    exact ⟨keyword, rest, hline, (ofLine_outcome_eq_ok_iff hline).1 h⟩
  · rw [ofLine_of_unknown hline (not_exists.1 hword)] at h
    cases h

/-- The space in front of a text that is left out is trimmed away. -/
theorem trim_spaced_optionalOperand (word key text : Text) :
    Text.trim (Text.spaced [word, key, text]) =
      Text.trim (Text.spaced (word :: key :: optionalOperand text)) := by
  rw [optionalOperand]
  split
  · rename_i hempty
    have hsplit : [word, key, []] = [word, key] ++ [[]] := rfl
    rw [hempty, hsplit, Text.spaced_append (List.cons_ne_nil _ _) (List.cons_ne_nil _ _),
      Text.spaced_singleton, Text.trim_concat (by decide)]
  · rfl

theorem trim_spaced_triple (hword : word.IsWord) (hkey : key.IsWord)
    (htext : Text.trim text = text) :
    Text.trim (Text.spaced [word, key, text]) =
      Text.spaced (word :: key :: optionalOperand text) := by
  rw [trim_spaced_optionalOperand]
  exact (Text.trim_spaced (List.forall_mem_cons.2 ⟨hword.trimmed,
    List.forall_mem_cons.2 ⟨hkey.trimmed, optionalOperand_trimmed htext⟩⟩)).1

/-- An object that describes a box is read as the line of that box. -/
theorem ofLine_box (hline : Text.splitFirst (Text.trim line) = (Keyword.object.word, rest))
    (hrest : Text.splitFirst rest = (key, definition))
    (hdefinition : Text.splitFirst definition = (word, text)) (hword : word ∈ boxWords)
    (hkey : key.IsName) :
    (ofLine line).outcome = .ok command ↔
      (ofLine (Text.spaced [word, key, text])).outcome = .ok command := by
  obtain ⟨keyword, rfl⟩ := exists_keyword_of_mem_boxWords hword
  have htext : Text.trim text = text := trim_of_splitFirst hdefinition
  have hoperands : Text.splitFirst (Text.spaced (key :: optionalOperand text)) = (key, text) :=
    splitFirst_name_optionalOperand hkey htext
  have hbox : Text.splitFirst (Text.trim (Text.spaced [keyword.word, key, text])) =
      (keyword.word, Text.spaced (key :: optionalOperand text)) := by
    rw [trim_spaced_triple keyword.word_isName.isWord hkey.isWord htext,
      Text.splitFirst_spaced keyword.word_isName.isWord.space_notMem,
      (Text.trim_spaced (List.forall_mem_cons.2
        ⟨hkey.isWord.trimmed, optionalOperand_trimmed htext⟩)).1]
  rw [ofLine_outcome_eq_ok_iff hline, ofLine_outcome_eq_ok_iff hbox,
    written_box_iff hword hoperands hdefinition, written_object_iff hrest]
  exact ⟨fun h => ⟨h.1, h.2.2⟩, fun h => ⟨h.1, ne_nil_of_splitFirst hdefinition, h.2⟩⟩

/-- **A line is read exactly as its grammar has it, and a line that is not read is named.** The
trimmed line is cut at its first space. It is an unknown command exactly when its first word is no
keyword, as in a blank line and behind `init`; otherwise it is read as the commands its rest is
written for, and is malformed if there is none. An object that describes a message, number or symbol
box is read as the line that begins with that word. -/
theorem ofLine_grammar (line : Text) :
    ∃ word rest, Text.splitFirst (Text.trim line) = (word, rest) ∧
      ((ofLine line).outcome = .error (.unknownCommand (Text.trim line)) ↔
        ∀ keyword : Keyword, keyword.word ≠ word) ∧
      (Text.trim line = [] ∨ word = "init".toList → ∀ keyword : Keyword, keyword.word ≠ word) ∧
      ∀ keyword : Keyword, keyword.word = word →
        (∀ command, (ofLine line).outcome = .ok command ↔ Written keyword rest command) ∧
        ((∀ command, ¬ Written keyword rest command) →
          ∃ fault, (ofLine line).outcome = .error (.malformedCommand (Text.trim line) fault)) ∧
        (keyword = .object → ∀ key definition box text,
          Text.splitFirst rest = (key, definition) → key.IsName →
          Text.splitFirst definition = (box, text) → box ∈ boxWords →
          ∀ command, (ofLine line).outcome = .ok command ↔
            (ofLine (Text.spaced [box, key, text])).outcome = .ok command) := by
  obtain ⟨word, rest, hline⟩ : ∃ word rest, Text.splitFirst (Text.trim line) = (word, rest) :=
    ⟨_, _, rfl⟩
  refine ⟨word, rest, hline, ⟨?_, ofLine_of_unknown hline⟩, ?_, ?_⟩
  · rintro hunknown keyword rfl
    exact ofLine_ne_unknown hline hunknown
  · rintro (hblank | rfl) keyword
    · rw [hblank] at hline
      obtain ⟨rfl, -⟩ := Prod.mk.inj hline
      exact keyword.word_isName.1
    · cases keyword <;> decide
  · rintro keyword rfl
    refine ⟨fun _ => ofLine_outcome_eq_ok_iff hline, ofLine_malformed hline, ?_⟩
    rintro rfl key definition box text hrest hkey hdefinition hbox command
    exact ofLine_box hline hrest hdefinition hbox hkey

/-- A box read through the object line, a number that is no key, and a line of the engine's own. -/
theorem ofLine_grammar_boxes :
    (ofLine "  obj a msg hi there ".toList).outcome = .ok (.message "a".toList "hi there".toList) ∧
      (∃ fault, (ofLine "delete 7".toList).outcome =
        .error (.malformedCommand "delete 7".toList fault)) ∧
      (ofLine "init".toList).outcome = .error (.unknownCommand "init".toList) := by
  refine ⟨?_, ?_, ?_⟩
  · obtain ⟨word, rest, hline, -, -, hread⟩ := ofLine_grammar "  obj a msg hi there ".toList
    obtain ⟨rfl, rfl⟩ := Prod.mk.inj hline
    rw [(hread .object (by decide)).2.2 rfl "a".toList "msg hi there".toList "msg".toList
      "hi there".toList (by decide) (by decide) (by decide) (by decide)]
    obtain ⟨word, rest, hline, -, -, hread⟩ := ofLine_grammar "msg a hi there".toList
    obtain ⟨rfl, rfl⟩ := Prod.mk.inj hline
    exact ((hread .message (by decide)).1 _).2 (.message (by decide) (by decide))
  · obtain ⟨word, rest, hline, -, -, hread⟩ := ofLine_grammar "delete 7".toList
    obtain ⟨rfl, rfl⟩ := Prod.mk.inj hline
    refine (hread .delete (by decide)).2.1 fun command hwritten => ?_
    cases hwritten with
    | delete hkey => exact absurd hkey (by decide)
  · obtain ⟨word, rest, hline, hunknown, hword, -⟩ := ofLine_grammar "init".toList
    obtain ⟨rfl, rfl⟩ := Prod.mk.inj hline
    exact hunknown.2 (hword (.inr (by decide)))

end Command

end DynamicPatching

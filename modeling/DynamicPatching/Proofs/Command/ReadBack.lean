import DynamicPatching.Script.Basic
import DynamicPatching.Proofs.Command.Validation
import DynamicPatching.Proofs.Text.Decimal

/-!
# Reading a line back

Reading and building yield well-formed canonical commands only (`isCanonical_of_ofLine`,
`isCanonical_of_remake`), because names are tested and free text is trimmed on the way. Conversely
the line of such a command is a row of trimmed operands with no space inside the first two, so each
step of the reader takes off exactly what the writer put on, and the line reads back as the command
(`ofLine_scriptLine`).
-/

namespace DynamicPatching.Command

/-! ## What construction yields -/

/-- A construction that tests one name succeeds exactly on names. -/
theorem requireName_then_eq_ok_iff {line : Text} {role : NameRole} {name : Text}
    {command result : Command} :
    (requireName line role name >>= fun _ => pure command : Checked Command).outcome = .ok result ↔
      name.IsName ∧ command = result := by
  rw [Checked.outcome_bind_eq_ok_iff]
  constructor
  · rintro ⟨_, hname, hresult⟩
    exact ⟨requireName_outcome_eq_ok_iff.1 hname, Except.ok.inj hresult⟩
  · rintro ⟨hname, rfl⟩
    exact ⟨(), requireName_outcome_eq_ok_iff.2 hname, rfl⟩

theorem requireKeys_then_eq_ok_iff {α : Type} {line : Text} {connection : Connection}
    {value result : α} :
    (requireKeys line connection >>= fun _ => pure value : Checked α).outcome = .ok result ↔
      (connection.outletKey.IsName ∧ connection.inletKey.IsName) ∧ value = result := by
  rw [Checked.outcome_bind_eq_ok_iff]
  constructor
  · rintro ⟨_, hkeys, hresult⟩
    exact ⟨requireKeys_outcome_eq_ok_iff.1 hkeys, Except.ok.inj hresult⟩
  · rintro ⟨hkeys, rfl⟩
    exact ⟨(), requireKeys_outcome_eq_ok_iff.2 hkeys, rfl⟩

theorem makeObject_outcome_eq_ok_iff {key definition : Text} {result : Command} :
    (makeObject key definition).outcome = .ok result ↔
      key.IsName ∧ Text.trim definition ≠ [] ∧
        boxOfDefinition key (Text.trim definition) = result := by
  rw [makeObject, Checked.outcome_bind_eq_ok_iff]
  constructor
  · rintro ⟨_, hkey, hresult⟩
    refine ⟨requireName_outcome_eq_ok_iff.1 hkey, ?_⟩
    by_cases hblank : Text.trim definition = []
    · rw [if_pos hblank] at hresult
      cases hresult
    · rw [if_neg hblank] at hresult
      exact ⟨hblank, Except.ok.inj hresult⟩
  · rintro ⟨hkey, hdefinition, rfl⟩
    refine ⟨(), requireName_outcome_eq_ok_iff.2 hkey, ?_⟩
    rw [if_neg hdefinition]
    rfl

theorem mem_boxWords_iff {word : Text} :
    word ∈ boxWords ↔
      Keyword.ofWord? word = some .message ∨ Keyword.ofWord? word = some .floatAtom ∨
        Keyword.ofWord? word = some .symbolAtom := by
  have hwords : boxWords =
      [Keyword.message.word, Keyword.floatAtom.word, Keyword.symbolAtom.word] := rfl
  simp only [hwords, Keyword.ofWord?_eq_some_iff, List.mem_cons, List.not_mem_nil, or_false,
    @eq_comm _ word]

/-- A definition that begins with no box word describes an object. -/
theorem boxOfDefinition_eq_object {key definition : Text}
    (h : Text.beforeSpace definition ∉ boxWords) :
    boxOfDefinition key definition = .object key definition := by
  rw [mem_boxWords_iff, not_or, not_or] at h
  obtain ⟨hmessage, hfloatAtom, hsymbolAtom⟩ := h
  dsimp only [boxOfDefinition, Text.splitFirst]
  split
  · exact absurd ‹_› hmessage
  · exact absurd ‹_› hfloatAtom
  · exact absurd ‹_› hsymbolAtom
  · rfl

/-- The box that a trimmed definition describes is well formed and canonical. -/
theorem isCanonical_boxOfDefinition {key definition : Text} (hkey : key.IsName)
    (htrim : Text.trim definition = definition) (hne : definition ≠ []) :
    (boxOfDefinition key definition).IsWellFormed ∧ (boxOfDefinition key definition).IsCanonical := by
  dsimp only [boxOfDefinition, Text.splitFirst]
  split
  · exact ⟨hkey, Text.trim_trim _⟩
  · exact ⟨hkey, Text.trim_trim _⟩
  · exact ⟨hkey, Text.trim_trim _⟩
  · -- the other boxes are taken away, so the definition begins with no box word
    rename_i hmessage hfloatAtom hsymbolAtom
    refine ⟨⟨hkey, by rwa [htrim]⟩, htrim, ?_⟩
    rw [mem_boxWords_iff]
    rintro (h | h | h)
    · exact hmessage h
    · exact hfloatAtom h
    · exact hsymbolAtom h

theorem isCanonical_of_makeObject {key definition : Text} {command : Command}
    (h : (makeObject key definition).outcome = .ok command) :
    command.IsWellFormed ∧ command.IsCanonical := by
  obtain ⟨hkey, hdefinition, rfl⟩ := makeObject_outcome_eq_ok_iff.1 h
  exact isCanonical_boxOfDefinition hkey (Text.trim_trim definition) hdefinition

/-- Checked construction yields well-formed canonical commands. -/
theorem isCanonical_of_remake {parts command : Command}
    (h : parts.remake.outcome = .ok command) : command.IsWellFormed ∧ command.IsCanonical := by
  cases parts with
  | object key definition => exact isCanonical_of_makeObject h
  | message key text =>
      obtain ⟨hkey, rfl⟩ := requireName_then_eq_ok_iff.1 h
      exact ⟨hkey, Text.trim_trim text⟩
  | floatAtom key arguments =>
      obtain ⟨hkey, rfl⟩ := requireName_then_eq_ok_iff.1 h
      exact ⟨hkey, Text.trim_trim arguments⟩
  | symbolAtom key arguments =>
      obtain ⟨hkey, rfl⟩ := requireName_then_eq_ok_iff.1 h
      exact ⟨hkey, Text.trim_trim arguments⟩
  | delete key =>
      obtain ⟨hkey, rfl⟩ := requireName_then_eq_ok_iff.1 h
      exact ⟨hkey, trivial⟩
  | connect connection =>
      obtain ⟨hkeys, rfl⟩ := requireKeys_then_eq_ok_iff.1 h
      exact ⟨hkeys, trivial⟩
  | disconnect connection =>
      obtain ⟨hkeys, rfl⟩ := requireKeys_then_eq_ok_iff.1 h
      exact ⟨hkeys, trivial⟩
  | target subpatch =>
      obtain ⟨hsubpatch, rfl⟩ := requireName_then_eq_ok_iff.1 h
      exact ⟨hsubpatch, trivial⟩
  | send receiver text =>
      obtain ⟨hreceiver, rfl⟩ := requireName_then_eq_ok_iff.1 h
      exact ⟨hreceiver, Text.trim_trim text⟩
  | loadbang =>
      obtain rfl := Except.ok.inj h
      exact ⟨trivial, trivial⟩
  | reset =>
      obtain rfl := Except.ok.inj h
      exact ⟨trivial, trivial⟩

/-! ## What reading yields -/

theorem joinEnds_eq_ok_iff {line outletKey inletKey : Text} {outlet inlet : UInt32}
    {connection : Connection} :
    (joinEnds line outletKey outlet inletKey inlet).outcome = .ok connection ↔
      (outletKey.IsName ∧ inletKey.IsName) ∧ ⟨outletKey, outlet, inletKey, inlet⟩ = connection :=
  requireKeys_then_eq_ok_iff

/-- The keys of a connection that was read are names. -/
theorem names_of_readConnection {line : Text} {words : List Text} {connection : Connection}
    (h : (readConnection line words).outcome = .ok connection) :
    connection.outletKey.IsName ∧ connection.inletKey.IsName := by
  simp only [readConnection] at h
  -- two, three or four words; however the indices are found, the keys are tested together
  split at h
  · obtain ⟨hkeys, rfl⟩ := joinEnds_eq_ok_iff.1 h
    exact hkeys
  · split at h
    · obtain ⟨outlet, -, hjoin⟩ := Checked.outcome_bind_eq_ok_iff.1 h
      obtain ⟨hkeys, rfl⟩ := joinEnds_eq_ok_iff.1 hjoin
      exact hkeys
    · obtain ⟨inlet, -, hjoin⟩ := Checked.outcome_bind_eq_ok_iff.1 h
      obtain ⟨hkeys, rfl⟩ := joinEnds_eq_ok_iff.1 hjoin
      exact hkeys
  · obtain ⟨outlet, -, hrest⟩ := Checked.outcome_bind_eq_ok_iff.1 h
    obtain ⟨inlet, -, hjoin⟩ := Checked.outcome_bind_eq_ok_iff.1 hrest
    obtain ⟨hkeys, rfl⟩ := joinEnds_eq_ok_iff.1 hjoin
    exact hkeys
  · cases h

theorem isCanonical_of_readArguments {line rest : Text} {keyword : Keyword} {command : Command}
    (h : (readArguments line rest keyword).outcome = .ok command) :
    command.IsWellFormed ∧ command.IsCanonical := by
  -- a line with free text is read by the checked construction of its own variant
  cases keyword with
  | object => exact isCanonical_of_makeObject h
  | message => exact @isCanonical_of_remake (.message _ _) _ h
  | floatAtom => exact @isCanonical_of_remake (.floatAtom _ _) _ h
  | symbolAtom => exact @isCanonical_of_remake (.symbolAtom _ _) _ h
  | send => exact @isCanonical_of_remake (.send _ _) _ h
  | delete =>
      obtain ⟨key, -, hmake⟩ := Checked.outcome_bind_eq_ok_iff.1 h
      exact @isCanonical_of_remake (.delete key) _ hmake
  | target =>
      obtain ⟨subpatch, -, hmake⟩ := Checked.outcome_bind_eq_ok_iff.1 h
      exact @isCanonical_of_remake (.target subpatch) _ hmake
  | connect =>
      obtain ⟨connection, hread, hresult⟩ := Checked.outcome_bind_eq_ok_iff.1 h
      obtain rfl := Except.ok.inj hresult
      exact ⟨names_of_readConnection hread, trivial⟩
  | disconnect =>
      obtain ⟨connection, hread, hresult⟩ := Checked.outcome_bind_eq_ok_iff.1 h
      obtain rfl := Except.ok.inj hresult
      exact ⟨names_of_readConnection hread, trivial⟩
  | loadbang =>
      obtain ⟨_, -, hresult⟩ := Checked.outcome_bind_eq_ok_iff.1 h
      obtain rfl := Except.ok.inj hresult
      exact ⟨trivial, trivial⟩
  | reset =>
      obtain ⟨_, -, hresult⟩ := Checked.outcome_bind_eq_ok_iff.1 h
      obtain rfl := Except.ok.inj hresult
      exact ⟨trivial, trivial⟩

/-- A line that is read yields a well-formed canonical command. -/
theorem isCanonical_of_ofLine {text : Text} {command : Command}
    (h : (ofLine text).outcome = .ok command) : command.IsWellFormed ∧ command.IsCanonical := by
  dsimp only [ofLine] at h
  split at h
  · rename_i keyword _
    -- putting the line into an error does not touch a command that was read
    rw [Checked.outcome_mapError] at h
    cases hread : (readArguments (Text.trim text) (Text.splitFirst (Text.trim text)).2
        keyword).outcome with
    | error error =>
        rw [hread] at h
        cases h
    | ok command' =>
        rw [hread] at h
        obtain rfl := Except.ok.inj h
        exact isCanonical_of_readArguments hread
  · cases h

/-! ## The line of a well-formed canonical command -/

theorem optionalOperand_trimmed {text : Text} (h : Text.trim text = text) :
    ∀ operand ∈ optionalOperand text, operand ≠ [] ∧ Text.trim operand = operand := by
  intro operand hoperand
  rw [optionalOperand] at hoperand
  split at hoperand
  · cases hoperand
  · rename_i hne
    obtain rfl := List.mem_singleton.1 hoperand
    exact ⟨hne, h⟩

theorem spaced_optionalOperand (text : Text) : Text.spaced (optionalOperand text) = text := by
  rw [optionalOperand]
  split
  · rename_i hempty
    rw [hempty, Text.spaced_nil]
  · exact Text.spaced_singleton text

/-- Each operand of a well-formed canonical command is a trimmed text. -/
theorem operands_trimmed {command : Command} (hformed : command.IsWellFormed)
    (hcanonical : command.IsCanonical) :
    ∀ operand ∈ command.operands, operand ≠ [] ∧ Text.trim operand = operand := by
  -- most commands are a name with free text behind it, or two keys with an index behind each
  have hnamed : ∀ {name text : Text}, name.IsName → Text.trim text = text →
      ∀ operand ∈ name :: optionalOperand text, operand ≠ [] ∧ Text.trim operand = operand := by
    intro name text hname htext
    exact List.forall_mem_cons.2 ⟨hname.isWord.trimmed, optionalOperand_trimmed htext⟩
  have hjoined : ∀ {connection : Connection},
      connection.outletKey.IsName ∧ connection.inletKey.IsName →
      ∀ operand ∈ connectionOperands connection, operand ≠ [] ∧ Text.trim operand = operand := by
    intro connection hkeys
    simp only [connectionOperands, List.forall_mem_cons]
    exact ⟨hkeys.1.isWord.trimmed, (Text.isWord_decimal _).trimmed, hkeys.2.isWord.trimmed,
      (Text.isWord_decimal _).trimmed,
      fun _ hnil => absurd hnil List.not_mem_nil⟩
  cases command with
  | object key definition =>
      obtain ⟨hkey, hdefinition⟩ := hformed
      obtain ⟨htrim, -⟩ := hcanonical
      rw [htrim] at hdefinition
      exact List.forall_mem_cons.2 ⟨hkey.isWord.trimmed, List.forall_mem_singleton.2 ⟨hdefinition, htrim⟩⟩
  | message key text => exact hnamed hformed hcanonical
  | floatAtom key arguments => exact hnamed hformed hcanonical
  | symbolAtom key arguments => exact hnamed hformed hcanonical
  | send receiver text => exact hnamed hformed hcanonical
  | delete key =>
      have hkey : key.IsName := hformed
      exact List.forall_mem_singleton.2 hkey.isWord.trimmed
  | target subpatch =>
      have hsubpatch : subpatch.IsName := hformed
      exact List.forall_mem_singleton.2 hsubpatch.isWord.trimmed
  | connect connection => exact hjoined hformed
  | disconnect connection => exact hjoined hformed
  | loadbang => exact fun _ hnil => absurd hnil List.not_mem_nil
  | reset => exact fun _ hnil => absurd hnil List.not_mem_nil

/-- The line of a well-formed canonical command is trimmed. -/
theorem trim_scriptLine {command : Command} (hformed : command.IsWellFormed)
    (hcanonical : command.IsCanonical) : Text.trim command.scriptLine = command.scriptLine :=
  (Text.trim_spaced (List.forall_mem_cons.2
    ⟨command.keyword.word_isName.isWord.trimmed, operands_trimmed hformed hcanonical⟩)).1

/-- The first space of a well-formed canonical command's line ends its keyword. -/
theorem splitFirst_scriptLine {command : Command} (hformed : command.IsWellFormed)
    (hcanonical : command.IsCanonical) :
    Text.splitFirst command.scriptLine = (command.keyword.word, Text.spaced command.operands) := by
  rw [scriptLine, Text.splitFirst_spaced command.keyword.word_isName.isWord.space_notMem,
    (Text.trim_spaced (operands_trimmed hformed hcanonical)).1]

/-! ## Reading the line back -/

/-- A name and free text behind it are taken apart again. -/
theorem splitFirst_name_optionalOperand {name text : Text} (hname : name.IsName)
    (htext : Text.trim text = text) :
    Text.splitFirst (Text.spaced (name :: optionalOperand text)) = (name, text) := by
  rw [Text.splitFirst_spaced hname.isWord.space_notMem, spaced_optionalOperand, htext]

theorem readSingle_name {line name : Text} {role : NameRole} (h : name.IsName) :
    (readSingle line (Text.spaced [name]) role).outcome = .ok name := by
  rw [readSingle, Text.spaced_singleton, h.isWord.words_eq]
  rfl

theorem readIndex_decimal (line : Text) (index : UInt32) :
    (readIndex line (Text.decimal index.toNat)).outcome = .ok index := by
  rw [readIndex, if_pos (Text.isInteger_decimal _), Text.index?_decimal]
  rfl

/-- A connection reads back from its operands. -/
theorem readConnection_connectionOperands {line : Text} {connection : Connection}
    (h : connection.outletKey.IsName ∧ connection.inletKey.IsName) :
    (readConnection line (Text.words (Text.spaced (connectionOperands connection)))).outcome =
      .ok connection := by
  have hwords : ∀ operand ∈ connectionOperands connection, Text.words operand = [operand] := by
    simp only [connectionOperands, List.forall_mem_cons]
    exact ⟨h.1.isWord.words_eq, (Text.isWord_decimal _).words_eq, h.2.isWord.words_eq,
      (Text.isWord_decimal _).words_eq,
      fun _ hnil => absurd hnil List.not_mem_nil⟩
  rw [Text.words_spaced hwords, connectionOperands, readConnection,
    Checked.outcome_bind_eq_ok_iff]
  refine ⟨connection.outlet, readIndex_decimal line _, ?_⟩
  rw [Checked.outcome_bind_eq_ok_iff]
  exact ⟨connection.inlet, readIndex_decimal line _, joinEnds_eq_ok_iff.2 ⟨h, rfl⟩⟩

/-- The reader takes off the operands of a well-formed canonical command. -/
theorem readArguments_operands {line : Text} {command : Command} (hformed : command.IsWellFormed)
    (hcanonical : command.IsCanonical) :
    (readArguments line (Text.spaced command.operands) command.keyword).outcome = .ok command := by
  cases command with
  | object key definition =>
      obtain ⟨hkey, hdefinition⟩ := hformed
      obtain ⟨htrim, hword⟩ := hcanonical
      -- an object without a definition is not well formed, so its text is never left out
      have hsplit : Text.splitFirst (Text.spaced [key, definition]) = (key, definition) := by
        rw [Text.splitFirst_spaced hkey.isWord.space_notMem, Text.spaced_singleton, htrim]
      rw [keyword, operands, readArguments, hsplit, makeObject_outcome_eq_ok_iff, htrim]
      rw [htrim] at hdefinition
      exact ⟨hkey, hdefinition, boxOfDefinition_eq_object hword⟩
  | message key text =>
      have htext : Text.trim text = text := hcanonical
      rw [keyword, operands, readArguments, splitFirst_name_optionalOperand hformed htext]
      exact requireName_then_eq_ok_iff.2 ⟨hformed, congrArg (message key) htext⟩
  | floatAtom key arguments =>
      have htext : Text.trim arguments = arguments := hcanonical
      rw [keyword, operands, readArguments, splitFirst_name_optionalOperand hformed htext]
      exact requireName_then_eq_ok_iff.2 ⟨hformed, congrArg (floatAtom key) htext⟩
  | symbolAtom key arguments =>
      have htext : Text.trim arguments = arguments := hcanonical
      rw [keyword, operands, readArguments, splitFirst_name_optionalOperand hformed htext]
      exact requireName_then_eq_ok_iff.2 ⟨hformed, congrArg (symbolAtom key) htext⟩
  | send receiver text =>
      have htext : Text.trim text = text := hcanonical
      rw [keyword, operands, readArguments, splitFirst_name_optionalOperand hformed htext]
      exact requireName_then_eq_ok_iff.2 ⟨hformed, congrArg (send receiver) htext⟩
  | delete key =>
      rw [keyword, operands, readArguments, Checked.outcome_bind_eq_ok_iff]
      exact ⟨key, readSingle_name hformed, requireName_then_eq_ok_iff.2 ⟨hformed, rfl⟩⟩
  | target subpatch =>
      rw [keyword, operands, readArguments, Checked.outcome_bind_eq_ok_iff]
      exact ⟨subpatch, readSingle_name hformed, requireName_then_eq_ok_iff.2 ⟨hformed, rfl⟩⟩
  | connect connection =>
      rw [keyword, operands, readArguments, Checked.outcome_bind_eq_ok_iff]
      exact ⟨connection, readConnection_connectionOperands hformed, rfl⟩
  | disconnect connection =>
      rw [keyword, operands, readArguments, Checked.outcome_bind_eq_ok_iff]
      exact ⟨connection, readConnection_connectionOperands hformed, rfl⟩
  | loadbang => rfl
  | reset => rfl

/-- **The line of a well-formed canonical command reads back as the command.** -/
theorem ofLine_scriptLine {command : Command} (hformed : command.IsWellFormed)
    (hcanonical : command.IsCanonical) : (ofLine command.scriptLine).outcome = .ok command := by
  dsimp only [ofLine]
  rw [trim_scriptLine hformed hcanonical, splitFirst_scriptLine hformed hcanonical,
    Keyword.ofWord?_eq_some_iff.2 rfl]
  dsimp only
  rw [Checked.outcome_mapError, readArguments_operands hformed hcanonical]
  rfl

end DynamicPatching.Command

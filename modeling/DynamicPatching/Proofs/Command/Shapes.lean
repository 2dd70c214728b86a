import DynamicPatching.Proofs.Command.Grammar

/-!
# The shapes of a connection

A connection is written in one of four shapes, rows of keys and indices. Keys denote no number and
indices do, so no word can be taken for both (`Part.Fits.unique`), a row of words has at most one
shape, and it is written as at most one connection. A line of either connection keyword is read
exactly when the words behind the keyword have a shape, and otherwise it is malformed
(`connection_shapes`).

Only the words matter. Two lines with the same words behind the keyword end alike, whatever blanks
stand between the words, except that an error names its own line (`Checked.Alike`).
-/

namespace DynamicPatching

/-! ## Shapes -/

namespace Connection

/-- What a word of a connection stands for. -/
inductive Part where
  | key
  | index
deriving DecidableEq

/-- The word can stand for the part. -/
def Part.Fits : Part → Text → Prop
  | .key, word => word.IsKey
  | .index, word => ∃ index, word.IsIndex index

/-- The shapes of a connection. -/
def shapes : List (List Part) :=
  [[.key, .key], [.key, .index, .key], [.key, .key, .index], [.key, .index, .key, .index]]

/-- The words can stand for the parts of the shape, one for each in order. -/
def HasShape (shape : List Part) (words : List Text) : Prop := List.Forall₂ Part.Fits shape words

variable {part other : Part} {shape : List Part} {word : Text} {words : List Text}
  {connection : Connection}

theorem not_isKey_of_isIndex {index : UInt32} (h : word.IsIndex index) : ¬ word.IsKey := by
  intro hkey
  have hnumeric := Text.isNumeric_of_isIndex h
  rw [hkey] at hnumeric
  cases hnumeric

/-- No word is both a key and an index. -/
theorem Part.Fits.unique (h : part.Fits word) (h' : other.Fits word) : part = other := by
  cases part with
  | key =>
      cases other with
      | key => rfl
      | index =>
          obtain ⟨index, hindex⟩ := h'
          exact absurd h (not_isKey_of_isIndex hindex)
  | index =>
      obtain ⟨index, hindex⟩ := h
      cases other with
      | key => exact absurd h' (not_isKey_of_isIndex hindex)
      | index => rfl

/-- A row of words has at most one shape. -/
theorem HasShape.unique {others : List Part} (h : HasShape shape words)
    (h' : HasShape others words) : shape = others := by
  induction h generalizing others with
  | nil =>
      cases h'
      rfl
  | cons hfits _ ih =>
      cases h' with
      | cons hfits' hrest' => rw [hfits.unique hfits', ih hrest']

/-- A row of words is written as a connection exactly when it has one of the shapes. -/
theorem exists_written_iff :
    (∃ connection, Written words connection) ↔ ∃ shape ∈ shapes, HasShape shape words := by
  constructor
  · rintro ⟨connection, hwritten⟩
    cases hwritten with
    | keys houtlet hinlet =>
        exact ⟨[.key, .key], by decide, .cons houtlet (.cons hinlet .nil)⟩
    | outletIndex houtlet hindex hinlet =>
        exact ⟨[.key, .index, .key], by decide,
          .cons houtlet (.cons ⟨_, hindex⟩ (.cons hinlet .nil))⟩
    | inletIndex houtlet hinlet hindex =>
        exact ⟨[.key, .key, .index], by decide,
          .cons houtlet (.cons hinlet (.cons ⟨_, hindex⟩ .nil))⟩
    | bothIndices houtlet hfirst hinlet hsecond =>
        exact ⟨[.key, .index, .key, .index], by decide,
          .cons houtlet (.cons ⟨_, hfirst⟩ (.cons hinlet (.cons ⟨_, hsecond⟩ .nil)))⟩
  · rintro ⟨shape, hshape, hwords⟩
    simp only [shapes, List.mem_cons, List.not_mem_nil, or_false] at hshape
    -- each shape fixes the length of the row and what its words stand for
    rcases hshape with rfl | rfl | rfl | rfl
    · obtain _ | ⟨houtlet, _ | ⟨hinlet, ⟨⟩⟩⟩ := hwords
      exact ⟨_, .keys houtlet hinlet⟩
    · obtain _ | ⟨houtlet, _ | ⟨⟨index, hindex⟩, _ | ⟨hinlet, ⟨⟩⟩⟩⟩ := hwords
      exact ⟨_, .outletIndex houtlet hindex hinlet⟩
    · obtain _ | ⟨houtlet, _ | ⟨hinlet, _ | ⟨⟨index, hindex⟩, ⟨⟩⟩⟩⟩ := hwords
      exact ⟨_, .inletIndex houtlet hinlet hindex⟩
    · obtain _ | ⟨houtlet, _ | ⟨⟨index, hfirst⟩, _ | ⟨hinlet, _ | ⟨⟨index', hsecond⟩, ⟨⟩⟩⟩⟩⟩ := hwords
      exact ⟨_, .bothIndices houtlet hfirst hinlet hsecond⟩

theorem index_unique {index index' : UInt32} (h : word.IsIndex index) (h' : word.IsIndex index') :
    index = index' :=
  UInt32.toNat_inj.1 (h.2.symm.trans h'.2)

/-- A row of words is written as at most one connection. -/
theorem Written.unique {connection' : Connection} (h : Written words connection)
    (h' : Written words connection') : connection = connection' := by
  -- two and four words have one shape; of three words the index decides which key it follows
  cases h with
  | keys _ _ =>
      cases h' with
      | keys _ _ => rfl
  | outletIndex _ hindex _ =>
      cases h' with
      | outletIndex _ hindex' _ => rw [index_unique hindex hindex']
      | inletIndex _ hkey _ => exact absurd hkey (not_isKey_of_isIndex hindex)
  | inletIndex _ hkey hindex =>
      cases h' with
      | outletIndex _ hindex' _ => exact absurd hkey (not_isKey_of_isIndex hindex')
      | inletIndex _ _ hindex' => rw [index_unique hindex hindex']
  | bothIndices _ hfirst _ hsecond =>
      cases h' with
      | bothIndices _ hfirst' _ hsecond' =>
          rw [index_unique hfirst hfirst', index_unique hsecond hsecond']

end Connection

/-! ## Calls that end alike -/

namespace Checked

/-- The calls end alike, except that an error about a malformed command may name another line. -/
def Alike {α : Type} (call other : Checked α) : Prop :=
  ∀ line, call.outcome.mapError (Error.atLine line) = other.outcome.mapError (Error.atLine line)

variable {α β : Type}

theorem Alike.refl (call : Checked α) : call.Alike call := fun _ => rfl

theorem Alike.bind {first other : Checked α} {next next' : α → Checked β} (h : first.Alike other)
    (hnext : ∀ value, (next value).Alike (next' value)) :
    (first >>= next).Alike (other >>= next') := by
  intro line
  have hfirst := h line
  rw [outcome_bind, outcome_bind]
  cases hcall : first.outcome with
  | ok value =>
      cases hother : other.outcome with
      | ok value' =>
          -- a value holds no line, so both calls go on with the same one
          rw [hcall, hother] at hfirst
          obtain rfl := Except.ok.inj hfirst
          exact hnext value line
      | error error =>
          rw [hcall, hother] at hfirst
          cases hfirst
  | error error =>
      cases hother : other.outcome with
      | ok value' =>
          rw [hcall, hother] at hfirst
          cases hfirst
      | error error' =>
          rw [hcall, hother] at hfirst
          obtain herror := Except.error.inj hfirst
          exact congrArg Except.error herror

theorem alike_fail (line line' : Text) (fault : CommandFault) :
    (fail (.malformedCommand line fault) : Checked α).Alike (fail (.malformedCommand line' fault)) :=
  fun _ => rfl

end Checked

theorem requireName_alike (line line' : Text) (role : NameRole) (name : Text) :
    (requireName line role name).Alike (requireName line' role name) := by
  rw [requireName, requireName]
  split
  · exact Checked.alike_fail _ _ _
  · split
    · exact Checked.alike_fail _ _ _
    · split
      · exact Checked.alike_fail _ _ _
      · exact Checked.Alike.refl _

namespace Command

variable {line rest : Text} {keyword : Keyword} {command : Command}

theorem readIndex_alike (line line' token : Text) :
    (readIndex line token).Alike (readIndex line' token) := by
  rw [readIndex, readIndex]
  split
  · split
    · exact Checked.Alike.refl _
    · exact Checked.alike_fail _ _ _
  · exact Checked.alike_fail _ _ _

theorem joinEnds_alike (line line' outletKey : Text) (outlet : UInt32) (inletKey : Text)
    (inlet : UInt32) :
    (joinEnds line outletKey outlet inletKey inlet).Alike
      (joinEnds line' outletKey outlet inletKey inlet) := by
  refine Checked.Alike.bind ?_ fun _ => Checked.Alike.refl _
  exact (requireName_alike _ _ _ _).bind fun _ => requireName_alike _ _ _ _

/-- What is read from a row of words depends on the line only where an error names it. -/
theorem readConnection_alike (line line' : Text) (words : List Text) :
    (readConnection line words).Alike (readConnection line' words) := by
  rw [readConnection.eq_def, readConnection.eq_def]
  split
  · exact joinEnds_alike _ _ _ _ _ _
  · split
    · exact (readIndex_alike _ _ _).bind fun _ => joinEnds_alike _ _ _ _ _ _
    · exact (readIndex_alike _ _ _).bind fun _ => joinEnds_alike _ _ _ _ _ _
  · refine (readIndex_alike _ _ _).bind fun _ => ?_
    exact (readIndex_alike _ _ _).bind fun _ => joinEnds_alike _ _ _ _ _ _
  · exact Checked.alike_fail _ _ _

/-! ## Lines of connections -/

/-- The keywords of connections, each with the command that it makes of a connection. -/
inductive Joins : Keyword → (Connection → Command) → Prop where
  | connect : Joins .connect .connect
  | disconnect : Joins .disconnect .disconnect

variable {make : Connection → Command}

theorem Joins.readArguments_eq (h : Joins keyword make) (line rest : Text) :
    readArguments line rest keyword =
      (readConnection line (Text.words rest) >>= fun connection => pure (make connection)) := by
  cases h <;> rfl

theorem Joins.written_iff (h : Joins keyword make) :
    Written keyword rest command ↔
      ∃ connection, Connection.Written (Text.words rest) connection ∧ command = make connection := by
  cases h with
  | connect =>
      constructor
      · intro hwritten
        cases hwritten with
        | connect hconnection => exact ⟨_, hconnection, rfl⟩
      · rintro ⟨connection, hconnection, rfl⟩
        exact .connect hconnection
  | disconnect =>
      constructor
      · intro hwritten
        cases hwritten with
        | disconnect hconnection => exact ⟨_, hconnection, rfl⟩
      · rintro ⟨connection, hconnection, rfl⟩
        exact .disconnect hconnection

/-- The line is read as what its words are written for. -/
theorem Joins.ofLine_eq_ok_iff (h : Joins keyword make)
    (hline : Text.splitFirst (Text.trim line) = (keyword.word, rest)) :
    (ofLine line).outcome = .ok command ↔
      ∃ connection, Connection.Written (Text.words rest) connection ∧ command = make connection := by
  rw [ofLine_outcome_eq_ok_iff hline, h.written_iff]

theorem Joins.exists_ofLine_iff (h : Joins keyword make)
    (hline : Text.splitFirst (Text.trim line) = (keyword.word, rest)) :
    (∃ command, (ofLine line).outcome = .ok command) ↔
      ∃ shape ∈ Connection.shapes, Connection.HasShape shape (Text.words rest) := by
  rw [← Connection.exists_written_iff]
  simp only [h.ofLine_eq_ok_iff hline]
  constructor
  · rintro ⟨_, connection, hwritten, -⟩
    exact ⟨connection, hwritten⟩
  · rintro ⟨connection, hwritten⟩
    exact ⟨_, connection, hwritten, rfl⟩

/-- A line whose words have no shape is malformed. -/
theorem Joins.ofLine_malformed (h : Joins keyword make)
    (hline : Text.splitFirst (Text.trim line) = (keyword.word, rest))
    (hshape : ∀ shape ∈ Connection.shapes, ¬ Connection.HasShape shape (Text.words rest)) :
    ∃ fault, (ofLine line).outcome = .error (.malformedCommand (Text.trim line) fault) := by
  refine Command.ofLine_malformed hline fun command hwritten => ?_
  obtain ⟨connection, hconnection, -⟩ := h.written_iff.1 hwritten
  obtain ⟨shape, hmem, hwords⟩ := Connection.exists_written_iff.1 ⟨connection, hconnection⟩
  exact hshape shape hmem hwords

/-- Lines with the same words behind a connection's keyword end alike. -/
theorem Joins.ofLine_alike (h : Joins keyword make) {text other : Text}
    (hwords : Text.words text = Text.words other) :
    (ofLine (keyword.word ++ ' ' :: text)).Alike (ofLine (keyword.word ++ ' ' :: other)) := by
  intro line
  -- each line is cut behind its keyword, and naming the line once more forgets the first name
  have hread : ∀ text, (ofLine (keyword.word ++ ' ' :: text)).outcome.mapError (Error.atLine line) =
      ((readConnection [] (Text.words text) >>= fun connection =>
        pure (make connection)).outcome.mapError (Error.atLine line)) := by
    intro text
    obtain ⟨rest, hline, hrest⟩ := Text.splitFirst_trim_word keyword.word_isName.isWord text
    have halike := (readConnection_alike (Text.trim (keyword.word ++ ' ' :: text)) []
      (Text.words text)).bind fun connection => Checked.Alike.refl (pure (make connection))
    rw [ofLine_of_keyword hline, h.readArguments_eq, hrest, ← halike line]
    cases (readConnection (Text.trim (keyword.word ++ ' ' :: text)) (Text.words text) >>=
      fun connection => pure (make connection)).outcome with
    | ok command => rfl
    | error error => cases error <;> rfl
  rw [hread, hread, hwords]

/-- **Connections are read without ambiguity.** No word is both a key and an index, so a row of words
has at most one of the four shapes and is written as at most one connection. A line of a connection's
keyword is read exactly when the words behind the keyword have a shape, as the connection of the keys
and indices written there, with zero for an index that is missing; any other line of the keyword is
malformed. Behind the keyword and a space only the words matter, not the blanks around them. -/
theorem connection_shapes :
    (∀ word, ¬ (Connection.Part.key.Fits word ∧ Connection.Part.index.Fits word)) ∧
    (∀ words, ∀ shape ∈ Connection.shapes, ∀ other ∈ Connection.shapes,
      Connection.HasShape shape words → Connection.HasShape other words → shape = other) ∧
    (∀ words connection connection', Connection.Written words connection →
      Connection.Written words connection' → connection = connection') ∧
    ∀ keyword make, Joins keyword make →
      (∀ line rest, Text.splitFirst (Text.trim line) = (keyword.word, rest) →
        ((∃ command, (ofLine line).outcome = .ok command) ↔
          ∃ shape ∈ Connection.shapes, Connection.HasShape shape (Text.words rest)) ∧
        (∀ command, (ofLine line).outcome = .ok command ↔
          ∃ connection, Connection.Written (Text.words rest) connection ∧
            command = make connection) ∧
        ((∀ shape ∈ Connection.shapes, ¬ Connection.HasShape shape (Text.words rest)) →
          ∃ fault, (ofLine line).outcome = .error (.malformedCommand (Text.trim line) fault))) ∧
      (∀ text other, Text.words text = Text.words other →
        (ofLine (keyword.word ++ ' ' :: text)).Alike (ofLine (keyword.word ++ ' ' :: other))) := by
  refine ⟨?_, fun words shape _ other _ => Connection.HasShape.unique,
    fun words connection connection' => Connection.Written.unique, fun keyword make h => ⟨?_, ?_⟩⟩
  · rintro word ⟨hkey, hindex⟩
    cases hkey.unique hindex
  · intro line rest hline
    exact ⟨h.exists_ofLine_iff hline, fun command => h.ofLine_eq_ok_iff hline,
      h.ofLine_malformed hline⟩
  · intro text other
    exact h.ofLine_alike

/-- An index with a plus sign between wide blanks, a numeral that is a key because it is too large for a
number, and an index with a minus sign. -/
theorem connection_shapes_signed :
    let wide : Text := "a \t+1\u2003 b ".toList
    let large : Text := "340282366920938463463374607431768211456".toList
    (Joins .connect .connect ∧
      (ofLine ("connect ".toList ++ wide)).outcome = .ok (.connect ⟨"a".toList, 1, "b".toList, 0⟩) ∧
      Text.words wide = Text.words "a +1 b".toList ∧
      (ofLine ("connect ".toList ++ wide)).Alike (ofLine "connect a +1 b".toList)) ∧
    (Joins .disconnect .disconnect ∧
      (ofLine ("disconnect a ".toList ++ large ++ " 2".toList)).outcome =
        .ok (.disconnect ⟨"a".toList, 0, large, 2⟩)) ∧
    (∃ fault, (ofLine "connect foo -1 bar 0".toList).outcome =
      .error (.malformedCommand "connect foo -1 bar 0".toList fault)) := by
  intro wide large
  obtain ⟨-, -, -, hread⟩ := connection_shapes
  obtain ⟨hconnect, halike⟩ := hread _ _ .connect
  obtain ⟨hdisconnect, -⟩ := hread _ _ .disconnect
  have ha : Text.IsKey "a".toList := (by decide : Text.isNumeric _ = false)
  have hb : Text.IsKey "b".toList := (by decide : Text.isNumeric _ = false)
  have hlarge : large.IsKey := (by decide +kernel : Text.isNumeric large = false)
  have hwords : Text.words wide = Text.words "a +1 b".toList := by decide
  refine ⟨⟨.connect, ?_, hwords, halike _ _ hwords⟩, ⟨.disconnect, ?_⟩, ?_⟩
  · refine ((hconnect _ wide.trim (by decide)).2.1 _).2 ⟨_, ?_, rfl⟩
    have hrow : wide.trim.words = ["a".toList, "+1".toList, "b".toList] := by decide
    rw [hrow]
    exact .outletIndex ha ⟨by decide, by decide⟩ hb
  · refine ((hdisconnect _ ("a ".toList ++ large ++ " 2".toList) (by decide)).2.1 _).2 ⟨_, ?_, rfl⟩
    have hrow : Text.words ("a ".toList ++ large ++ " 2".toList) =
        ["a".toList, large, "2".toList] := by decide
    rw [hrow]
    exact .inletIndex ha hlarge ⟨by decide, by decide⟩
  · refine (hconnect "connect foo -1 bar 0".toList "foo -1 bar 0".toList (by decide)).2.2 ?_
    have hrow : Text.words "foo -1 bar 0".toList =
        ["foo".toList, "-1".toList, "bar".toList, "0".toList] := by decide
    rw [hrow]
    rintro shape hshape hwords
    simp only [Connection.shapes, List.mem_cons, List.not_mem_nil, or_false] at hshape
    -- only the last shape has four parts, and its second is an index
    rcases hshape with rfl | rfl | rfl | rfl
    · obtain _ | ⟨-, _ | ⟨-, ⟨⟩⟩⟩ := hwords
    · obtain _ | ⟨-, _ | ⟨-, _ | ⟨-, ⟨⟩⟩⟩⟩ := hwords
    · obtain _ | ⟨-, _ | ⟨-, _ | ⟨-, ⟨⟩⟩⟩⟩ := hwords
    · obtain _ | ⟨-, _ | ⟨⟨index, hdigits, -⟩, -⟩⟩ := hwords
      exact absurd hdigits (by decide)

end Command

end DynamicPatching

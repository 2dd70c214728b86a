import DynamicPatching.Proofs.Command.Grammar
import Mathlib.Tactic.TFAE

/-!
# Construction, validation and reading

A command can be built by checked construction, assembled from fields and validated, or read from a
line, and the three apply the same rules. Validation accepts fields exactly when construction does,
and both reject them with the same fault and, but for an object without a type, on behalf of the same
line (`validate_agrees_remake`). The lines differ at most in a blank at the end, which the test of a
name trims.

Construction and reading also yield the same commands, the well-formed canonical ones, and these are
the commands whose line reads back as the command (`canonical_tfae`).
-/

namespace DynamicPatching

/-- Testing a name looks at the trimmed line only. -/
theorem requireName_congr {line other : Text} (h : Text.trim line = Text.trim other)
    (role : NameRole) (name : Text) : requireName line role name = requireName other role name := by
  rw [requireName, requireName, h]

namespace Command

variable {command : Command} {key definition : Text}

/-! ## The lines that are named -/

/-- An object without a type is given for a line that ends in a blank. -/
theorem trim_givenLine_object_ne (h : Text.trim definition = []) :
    Text.trim (givenLine .object [key, definition]) ≠ givenLine .object [key, definition] := by
  have hsplit : [Keyword.object.word, key, definition] =
      [Keyword.object.word, key] ++ [definition] := rfl
  rw [givenLine, hsplit, Text.spaced_append (List.cons_ne_nil _ _) (List.cons_ne_nil _ _),
    Text.spaced_singleton]
  have hblank : ∀ c ∈ ' ' :: definition, Text.isBlank c = true :=
    List.forall_mem_cons.2 ⟨by decide, Text.isBlank_of_trim_eq_nil h⟩
  exact Text.trim_append_ne (List.cons_ne_nil _ _) hblank _

/-! ## Rejecting fields -/

/-- The command is an object whose key passes and whose definition is blank. -/
def LacksType : Command → Prop
  | .object key definition => key.IsName ∧ Text.trim definition = []
  | _ => False

/-- Validation of an object works on the line that construction is given for. -/
theorem validate_object (key definition : Text) :
    validate (.object key definition) =
      (requireName (givenLine .object [key, definition]) .key key >>= fun _ =>
        if Text.trim definition = [] then
          .fail (.malformedCommand (Text.trim (givenLine .object [key, definition]))
            .missingObjectType)
        else pure ()) := rfl

/-- Making a command behind a test rejects what the test rejects. -/
theorem outcome_test_then (test : Checked Unit) (made : Command) :
    (test >>= fun _ => pure made : Checked Command).outcome.map (fun _ => ()) = test.outcome := by
  rw [Checked.outcome_bind]
  cases test.outcome <;> rfl

/-- The construction of a name and free text tests the name as validation does. -/
theorem outcome_requireName_then (keyword : Keyword) (role : NameRole) (name text : Text)
    (made : Command) :
    (requireName (givenLine keyword [name, text]) role name >>= fun _ => pure made :
        Checked Command).outcome.map (fun _ => ()) =
      (requireName (Text.spaced (keyword.word :: name :: optionalOperand text)) role
        name).outcome := by
  have hline : Text.trim (givenLine keyword [name, text]) =
      Text.trim (Text.spaced (keyword.word :: name :: optionalOperand text)) :=
    trim_spaced_optionalOperand keyword.word name text
  rw [outcome_test_then, requireName_congr hline]

/-- But for a missing type, construction rejects fields as validation does. -/
theorem remake_outcome_map (h : ¬ command.LacksType) :
    command.remake.outcome.map (fun _ => ()) = command.validate.outcome := by
  cases command with
  | object key definition =>
      rw [remake, makeObject, validate_object, Checked.outcome_bind, Checked.outcome_bind]
      cases hkey : (requireName (givenLine .object [key, definition]) .key key).outcome with
      | error error => rfl
      | ok _ =>
          -- the key passes, so there is a type, and neither has anything left to reject
          have hname := requireName_outcome_eq_ok_iff.1 hkey
          have hdefinition : Text.trim definition ≠ [] := fun hblank => h ⟨hname, hblank⟩
          simp only [if_neg hdefinition]
          rfl
  | message key text => exact outcome_requireName_then _ _ _ _ _
  | floatAtom key arguments => exact outcome_requireName_then _ _ _ _ _
  | symbolAtom key arguments => exact outcome_requireName_then _ _ _ _ _
  | send receiver text => exact outcome_requireName_then _ _ _ _ _
  | delete key => exact outcome_test_then _ _
  | connect connection => exact outcome_test_then _ _
  | disconnect connection => exact outcome_test_then _ _
  | target subpatch => exact outcome_test_then _ _
  | loadbang => rfl
  | reset => rfl

/-- Both find the type missing, construction on behalf of the line as it is given and validation on
behalf of the trimmed line. -/
theorem outcomes_of_lacksType (h : LacksType (.object key definition)) :
    (remake (.object key definition)).outcome =
        .error (.malformedCommand (givenLine .object [key, definition]) .missingObjectType) ∧
      (validate (.object key definition)).outcome =
        .error (.malformedCommand (Text.trim (givenLine .object [key, definition]))
          .missingObjectType) := by
  obtain ⟨hkey, hblank⟩ := h
  have htest : (requireName (givenLine .object [key, definition]) .key key).outcome = .ok () :=
    requireName_outcome_eq_ok_iff.2 hkey
  constructor
  · rw [remake, makeObject, Checked.outcome_bind, htest]
    simp only [if_pos hblank]
    rfl
  · rw [validate_object, Checked.outcome_bind, htest]
    simp only [if_pos hblank]
    rfl

theorem remake_failsMalformed (command : Command) : command.remake.FailsMalformed := by
  have hkeys : ∀ (line : Text) (connection : Connection),
      (requireKeys line connection).FailsMalformed :=
    fun _ _ => (requireName_failsMalformed _ _ _).bind fun _ => requireName_failsMalformed _ _ _
  cases command with
  | object key definition => exact makeObject_failsMalformed key definition
  | message key text => exact requireName_then_failsMalformed
  | floatAtom key arguments => exact requireName_then_failsMalformed
  | symbolAtom key arguments => exact requireName_then_failsMalformed
  | send receiver text => exact requireName_then_failsMalformed
  | delete key => exact requireName_then_failsMalformed
  | target subpatch => exact requireName_then_failsMalformed
  | connect connection => exact (hkeys _ _).bind fun _ => Checked.failsMalformed_pure _
  | disconnect connection => exact (hkeys _ _).bind fun _ => Checked.failsMalformed_pure _
  | loadbang => exact Checked.failsMalformed_pure _
  | reset => exact Checked.failsMalformed_pure _

theorem not_lacksType_of_isWellFormed (h : command.IsWellFormed) : ¬ command.LacksType := by
  intro hlacks
  cases command with
  | object key definition => exact h.2 hlacks.2
  | _ => exact hlacks

theorem exists_remake_iff :
    (∃ made, command.remake.outcome = .ok made) ↔ command.validate.outcome = .ok () := by
  constructor
  · rintro ⟨made, hmade⟩
    have hkept : ¬ command.LacksType := by
      intro hlacks
      cases command with
      | object key definition =>
          rw [(outcomes_of_lacksType hlacks).1] at hmade
          cases hmade
      | _ => exact hlacks
    rw [← remake_outcome_map hkept, hmade]
    rfl
  · intro hvalid
    have hkept := not_lacksType_of_isWellFormed (validate_outcome_eq_ok_iff.1 hvalid)
    rw [← remake_outcome_map hkept] at hvalid
    cases hremake : command.remake.outcome with
    | ok made => exact ⟨made, rfl⟩
    | error error =>
        rw [hremake] at hvalid
        cases hvalid

/-- Where no type is missing the errors are the same. -/
theorem remake_error_iff {error : Error} (h : ¬ command.LacksType) :
    command.remake.outcome = .error error ↔ command.validate.outcome = .error error := by
  rw [← remake_outcome_map h]
  cases command.remake.outcome with
  | ok made => constructor <;> rintro ⟨⟩
  | error other => simp [Except.map]

/-- **Construction and validation apply the same rules.** Validation accepts fields exactly when their
construction does. Both only ever find a line malformed, and they reject with the same error, except
that for an object whose key passes and whose definition is blank construction names the line as it
is given and validation the trimmed line. The commands without fields are always accepted. -/
theorem validate_agrees_remake (command : Command) :
    (command.validate.outcome = .ok () ↔ ∃ made, command.remake.outcome = .ok made) ∧
      (command.validate.FailsMalformed ∧ command.remake.FailsMalformed) ∧
      (¬ command.LacksType → ∀ error,
        command.remake.outcome = .error error ↔ command.validate.outcome = .error error) ∧
      (∀ key definition, command = .object key definition → command.LacksType →
        let line := Text.spaced ["obj".toList, key, definition]
        command.remake.outcome = .error (.malformedCommand line .missingObjectType) ∧
          command.validate.outcome = .error (.malformedCommand (Text.trim line) .missingObjectType) ∧
          Text.trim line ≠ line) ∧
      (command = .loadbang ∨ command = .reset → command.validate.outcome = .ok ()) := by
  refine ⟨exists_remake_iff.symm, ⟨?_, remake_failsMalformed command⟩,
    fun hkept error => remake_error_iff hkept, ?_, ?_⟩
  · intro error herror
    by_cases hlacks : command.LacksType
    · cases command with
      | object key definition =>
          rw [(outcomes_of_lacksType hlacks).2] at herror
          exact ⟨_, _, (Except.error.inj herror).symm⟩
      | _ => exact hlacks.elim
    · exact remake_failsMalformed command error ((remake_error_iff hlacks).2 herror)
  · rintro key definition rfl hlacks
    obtain ⟨hremake, hvalidate⟩ := outcomes_of_lacksType hlacks
    exact ⟨hremake, hvalidate, trim_givenLine_object_ne hlacks.2⟩
  · rintro (rfl | rfl) <;> rfl

/-- An object without a type, whose two lines differ, and a key with a blank, whose lines agree although
construction puts a space behind it. -/
theorem validate_agrees_remake_blank :
    let untyped := Command.object "foo".toList " ".toList
    let unnamed := Command.message "a b".toList []
    let error := Error.malformedCommand "msg a b".toList (.blankInName .key "a b".toList)
    (untyped.LacksType ∧
      untyped.remake.outcome = .error (.malformedCommand "obj foo  ".toList .missingObjectType) ∧
      untyped.validate.outcome = .error (.malformedCommand "obj foo".toList .missingObjectType)) ∧
    (¬ unnamed.LacksType ∧ unnamed.remake.outcome = .error error ∧
      unnamed.validate.outcome = .error error) ∧
    (Command.reset = .loadbang ∨ Command.reset = .reset) ∧ reset.validate.outcome = .ok () := by
  intro untyped unnamed error
  have hlacks : untyped.LacksType := ⟨by decide, by decide⟩
  have hnamed : ¬ unnamed.LacksType := id
  have herror : unnamed.validate.outcome = .error error := by decide
  obtain ⟨-, -, -, huntyped, -⟩ := validate_agrees_remake untyped
  obtain ⟨-, -, hunnamed, -⟩ := validate_agrees_remake unnamed
  obtain ⟨-, -, -, -, hreset⟩ := validate_agrees_remake .reset
  obtain ⟨hremake, hvalidate, -⟩ := huntyped _ _ rfl hlacks
  exact ⟨⟨hlacks, hremake, hvalidate⟩, ⟨hnamed, (hunnamed hnamed error).2 herror, herror⟩, .inr rfl,
    hreset (.inr rfl)⟩

/-! ## Commands that read back -/

/-- A well-formed canonical command is made from its own fields. -/
theorem remake_of_isCanonical (hformed : command.IsWellFormed) (hcanonical : command.IsCanonical) :
    command.remake.outcome = .ok command := by
  cases command with
  | object key definition =>
      obtain ⟨hkey, hdefinition⟩ := hformed
      obtain ⟨htrim, hword⟩ := hcanonical
      rw [remake, makeObject_outcome_eq_ok_iff]
      refine ⟨hkey, hdefinition, ?_⟩
      rw [htrim]
      exact boxOfDefinition_eq_object hword
  | message key text =>
      exact requireName_then_eq_ok_iff.2 ⟨hformed, congrArg (message key) hcanonical⟩
  | floatAtom key arguments =>
      exact requireName_then_eq_ok_iff.2 ⟨hformed, congrArg (floatAtom key) hcanonical⟩
  | symbolAtom key arguments =>
      exact requireName_then_eq_ok_iff.2 ⟨hformed, congrArg (symbolAtom key) hcanonical⟩
  | send receiver text =>
      exact requireName_then_eq_ok_iff.2 ⟨hformed, congrArg (send receiver) hcanonical⟩
  | delete key => exact requireName_then_eq_ok_iff.2 ⟨hformed, rfl⟩
  | target subpatch => exact requireName_then_eq_ok_iff.2 ⟨hformed, rfl⟩
  | connect connection => exact requireKeys_then_eq_ok_iff.2 ⟨hformed, rfl⟩
  | disconnect connection => exact requireKeys_then_eq_ok_iff.2 ⟨hformed, rfl⟩
  | loadbang => rfl
  | reset => rfl

/-- **Reading, construction and validation meet in the same commands.** For every command, whatever its
line holds, it is the same to read back from its own line, to be read from some line, to be made from
some fields, and to be valid and canonical. -/
theorem canonical_tfae (command : Command) :
    List.TFAE [
      (ofLine command.scriptLine).outcome = .ok command,
      ∃ line, (ofLine line).outcome = .ok command,
      ∃ fields : Command, fields.remake.outcome = .ok command,
      command.validate.outcome = .ok () ∧ command.IsCanonical] := by
  tfae_have 1 → 2 := fun hread => ⟨_, hread⟩
  tfae_have 2 → 4 := by
    rintro ⟨line, hread⟩
    obtain ⟨hformed, hcanonical⟩ := isCanonical_of_ofLine hread
    exact ⟨validate_outcome_eq_ok_iff.2 hformed, hcanonical⟩
  tfae_have 3 → 4 := by
    rintro ⟨fields, hmade⟩
    obtain ⟨hformed, hcanonical⟩ := isCanonical_of_remake hmade
    exact ⟨validate_outcome_eq_ok_iff.2 hformed, hcanonical⟩
  tfae_have 4 → 3 := by
    rintro ⟨hvalid, hcanonical⟩
    exact ⟨command, remake_of_isCanonical (validate_outcome_eq_ok_iff.1 hvalid) hcanonical⟩
  tfae_have 4 → 1 := by
    rintro ⟨hvalid, hcanonical⟩
    exact ofLine_scriptLine (validate_outcome_eq_ok_iff.1 hvalid) hcanonical
  tfae_finish

/-- A line that holds the separator of scripts still reads back on its own. -/
example :
    let note := Command.message "a".toList "x, reset".toList
    Script.separator <:+: note.scriptLine ∧ (ofLine note.scriptLine).outcome = .ok note := by
  decide

end Command

end DynamicPatching

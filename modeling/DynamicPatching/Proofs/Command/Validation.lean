import DynamicPatching.Command.Grammar
import DynamicPatching.Proofs.Text.Cutting

/-!
# Names and validation

A name holds no blank, so it is trimmed, it is one piece and one word of a line, and no space inside
it can be taken for the end of a field. Validation accepts exactly the well-formed commands
(`validate_outcome_eq_ok_iff`).
-/

namespace DynamicPatching

/-- A sequence of checked calls succeeds exactly when both parts do. -/
theorem Checked.outcome_bind_eq_ok_iff {α β : Type} {first : Checked α} {next : α → Checked β}
    {result : β} :
    (first >>= next).outcome = .ok result ↔
      ∃ value, first.outcome = .ok value ∧ (next value).outcome = .ok result := by
  rw [outcome_bind]
  cases hfirst : first.outcome with
  | ok value =>
      constructor
      · intro h
        exact ⟨value, rfl, h⟩
      · rintro ⟨value', hvalue, h⟩
        cases hvalue
        exact h
  | error error =>
      constructor
      · intro h
        cases h
      · rintro ⟨value', hvalue, -⟩
        cases hvalue

/-! ## Names -/

namespace Text.IsName

variable {name : Text}

/-- A name is a word, so no blank in it ends a field. -/
theorem isWord (h : name.IsName) : name.IsWord := isWord_of_any_eq_false h.1 h.2.1

theorem number?_eq_none (h : name.IsName) : number? name = none := by
  simpa [isNumeric] using h.2.2

end Text.IsName

theorem Keyword.word_isName (keyword : Keyword) : keyword.word.IsName := by
  cases keyword <;> decide

theorem Keyword.wireWord_isName (keyword : Keyword) : keyword.wireWord.IsName := by
  cases keyword <;> decide

/-! ## Validation -/

namespace Command

theorem requireKeys_outcome_eq_ok_iff {line : Text} {connection : Connection} :
    (requireKeys line connection).outcome = .ok () ↔
      connection.outletKey.IsName ∧ connection.inletKey.IsName := by
  rw [requireKeys, Checked.outcome_bind_eq_ok_iff]
  constructor
  · rintro ⟨_, houtlet, hinlet⟩
    exact ⟨requireName_outcome_eq_ok_iff.1 houtlet, requireName_outcome_eq_ok_iff.1 hinlet⟩
  · rintro ⟨houtlet, hinlet⟩
    exact ⟨(), requireName_outcome_eq_ok_iff.2 houtlet, requireName_outcome_eq_ok_iff.2 hinlet⟩

/-- Validation accepts exactly the well-formed commands. -/
theorem validate_outcome_eq_ok_iff {command : Command} :
    command.validate.outcome = .ok () ↔ command.IsWellFormed := by
  cases command with
  | object key definition =>
      -- only an object has a second test behind the one of its name
      rw [validate, Checked.outcome_bind_eq_ok_iff]
      simp only [IsWellFormed]
      constructor
      · rintro ⟨_, hkey, hdefinition⟩
        refine ⟨requireName_outcome_eq_ok_iff.1 hkey, ?_⟩
        intro hblank
        rw [if_pos hblank] at hdefinition
        cases hdefinition
      · rintro ⟨hkey, hdefinition⟩
        refine ⟨(), requireName_outcome_eq_ok_iff.2 hkey, ?_⟩
        rw [if_neg hdefinition]
        rfl
  | message key text => exact requireName_outcome_eq_ok_iff
  | floatAtom key arguments => exact requireName_outcome_eq_ok_iff
  | symbolAtom key arguments => exact requireName_outcome_eq_ok_iff
  | delete key => exact requireName_outcome_eq_ok_iff
  | connect connection => exact requireKeys_outcome_eq_ok_iff
  | disconnect connection => exact requireKeys_outcome_eq_ok_iff
  | target subpatch => exact requireName_outcome_eq_ok_iff
  | send receiver text => exact requireName_outcome_eq_ok_iff
  | loadbang => exact ⟨fun _ => trivial, fun _ => rfl⟩
  | reset => exact ⟨fun _ => trivial, fun _ => rfl⟩

/-- Encoding succeeds exactly where validation does, with the atoms of the wire line, and fails with
the error of validation. -/
theorem encode_outcome (command : Command) :
    command.encode.outcome =
      command.validate.outcome.map fun _ => Atom.listOfText command.wireLine := by
  rw [encode, Checked.outcome_bind]
  cases command.validate.outcome <;> rfl

theorem encode_outcome_of_isWellFormed {command : Command} (h : command.IsWellFormed) :
    command.encode.outcome = .ok (Atom.listOfText command.wireLine) := by
  rw [encode_outcome, validate_outcome_eq_ok_iff.2 h]
  rfl

end Command

end DynamicPatching

import DynamicPatching.Proofs.Command.Connection
import DynamicPatching.Proofs.Library.Duties

/-!
# What checked calls note

Constructing, validating, encoding and reading note the contracts of exactly those of their tests and
encodings that succeed (`Checked.Notes`), also when the call fails behind them. A sequence notes what
its first part notes and, behind the success of that, what the second part notes.
-/

namespace DynamicPatching

/-! ## Duties that were fulfilled -/

namespace Duty

variable {duties others : List Duty} {duty : Duty} {contract : Contract}

/-- One of the calls succeeded and owed the contract. -/
def Noted (duties : List Duty) (contract : Contract) : Prop :=
  ∃ duty ∈ duties, duty.contract? = some contract ∧ duty.Fulfilled

theorem not_noted_nil : ¬ Noted [] contract := by
  rintro ⟨duty, hduty, -⟩
  exact List.not_mem_nil hduty

theorem noted_cons_iff :
    Noted (duty :: duties) contract ↔
      (duty.contract? = some contract ∧ duty.Fulfilled) ∨ Noted duties contract :=
  List.exists_mem_cons_iff _ _ _

theorem noted_append_iff :
    Noted (duties ++ others) contract ↔ Noted duties contract ∨ Noted others contract := by
  simp only [Noted, List.mem_append, or_and_right, exists_or]

theorem fulfilled_testName_iff {name : Text} : (testName name).Fulfilled ↔ name.IsName := by
  constructor
  · rintro ⟨line, role, h⟩
    exact requireName_outcome_eq_ok_iff.1 h
  · intro h
    exact ⟨[], .key, requireName_outcome_eq_ok_iff.2 h⟩

end Duty

/-! ## Sequences -/

namespace Checked

variable {α β : Type} {first : Checked α} {next : α → Checked β} {duties others : List Duty}

/-- The call notes exactly the contracts of those of the duties that are fulfilled. -/
def Notes (call : Checked α) (duties : List Duty) : Prop :=
  ∀ contract, contract ∈ call.notes ↔ Duty.Noted duties contract

theorem notes_of_eq_nil {call : Checked α} (h : call.notes = []) : call.Notes [] := by
  intro contract
  rw [h]
  exact iff_of_false List.not_mem_nil Duty.not_noted_nil

theorem notes_bind (first : Checked α) (next : α → Checked β) :
    (first >>= next).notes = first.notes ++
      match first.outcome with
      | .ok value => (next value).notes
      | .error _ => [] := by
  change (Checked.bind first next).notes = _
  unfold Checked.bind
  cases first.outcome with
  | ok value => rfl
  | error error => exact (List.append_nil _).symm

theorem Notes.bind (hfirst : first.Notes duties) (hnext : ∀ value, (next value).Notes others) :
    (first >>= next).Notes (duties ++ Duty.behind first.outcome others) := by
  intro contract
  rw [notes_bind, List.mem_append, Duty.noted_append_iff, hfirst contract]
  cases first.outcome with
  | ok value => exact or_congr_right (hnext value contract)
  | error error => exact or_congr_right (iff_of_false List.not_mem_nil Duty.not_noted_nil)

theorem Notes.bind_still (hfirst : first.Notes duties) (hnext : ∀ value, (next value).notes = []) :
    (first >>= next).Notes duties := by
  have hbind := hfirst.bind fun value => notes_of_eq_nil (hnext value)
  have hnone : Duty.behind first.outcome [] = [] := by
    cases first.outcome <;> rfl
  rwa [hnone, List.append_nil] at hbind

end Checked

/-! ## Names -/

theorem requireName_notes_eq (line : Text) (role : NameRole) (name : Text) :
    (requireName line role name).notes = if name.IsName then [.nameSymbolic] else [] := by
  unfold requireName
  by_cases empty : name = []
  · simp [Text.IsName, empty, Checked.fail]
  · cases blank : name.any Text.isBlank <;> cases numeric : Text.isNumeric name <;>
      simp [Text.IsName, empty, blank, numeric, Checked.fail, Checked.note]

theorem requireName_notes (line : Text) (role : NameRole) (name : Text) :
    (requireName line role name).Notes (Duty.names [name]) := by
  intro contract
  have hrest : (if name.IsName then Duty.names [] else []) = ([] : List Duty) := ite_self _
  rw [requireName_notes_eq, Duty.names, hrest, Duty.noted_cons_iff, Duty.fulfilled_testName_iff,
    or_iff_left Duty.not_noted_nil]
  by_cases h : name.IsName
  · rw [if_pos h, List.mem_singleton, and_iff_left h]
    exact ⟨fun heq => congrArg some heq.symm, fun heq => (Option.some.inj heq).symm⟩
  · rw [if_neg h]
    exact iff_of_false List.not_mem_nil fun hname => h hname.2

/-- What follows the test of a name is reached when it is one. -/
theorem Checked.Notes.requireName_then {α : Type} {line : Text} {role : NameRole} {name : Text}
    {rest : List Text} {next : Unit → Checked α} (h : ∀ value, (next value).Notes (Duty.names rest)) :
    (requireName line role name >>= next).Notes (Duty.names (name :: rest)) := by
  have hbind := (requireName_notes line role name).bind h
  have hfirst : Duty.names [name] = [.testName name] := congrArg (List.cons _) (ite_self _)
  have hrest : Duty.behind (requireName line role name).outcome (Duty.names rest) =
      if name.IsName then Duty.names rest else [] := by
    by_cases hname : name.IsName
    · rw [if_pos hname, requireName_outcome_eq_ok_iff.2 hname]
      rfl
    · rw [if_neg hname]
      cases houtcome : (requireName line role name).outcome with
      | ok value => exact absurd (requireName_outcome_eq_ok_iff.1 houtcome) hname
      | error error => rfl
  rwa [hrest, hfirst] at hbind

namespace Command

theorem requireKeys_notes (line : Text) (connection : Connection) :
    (requireKeys line connection).Notes
      (Duty.names [connection.outletKey, connection.inletKey]) :=
  Checked.Notes.requireName_then fun _ => requireName_notes _ _ _

/-! ## Construction and encoding -/

/-- A checked construction tests the names among its parts. -/
theorem remake_notes (parts : Command) : parts.remake.Notes (Duty.names parts.names) := by
  cases parts with
  | object key definition =>
      refine Checked.Notes.requireName_then fun _ => Checked.notes_of_eq_nil ?_
      by_cases hblank : Text.trim definition = []
      · simp only [if_pos hblank, Checked.fail]
      · simp only [if_neg hblank]
        rfl
  | message key text => exact (requireName_notes _ _ _).bind_still fun _ => rfl
  | floatAtom key arguments => exact (requireName_notes _ _ _).bind_still fun _ => rfl
  | symbolAtom key arguments => exact (requireName_notes _ _ _).bind_still fun _ => rfl
  | delete key => exact (requireName_notes _ _ _).bind_still fun _ => rfl
  | connect connection => exact (requireKeys_notes _ _).bind_still fun _ => rfl
  | disconnect connection => exact (requireKeys_notes _ _).bind_still fun _ => rfl
  | target subpatch => exact (requireName_notes _ _ _).bind_still fun _ => rfl
  | send receiver text => exact (requireName_notes _ _ _).bind_still fun _ => rfl
  | loadbang => exact Checked.notes_of_eq_nil rfl
  | reset => exact Checked.notes_of_eq_nil rfl

/-- Validation tests the names of the command. -/
theorem validate_notes (command : Command) :
    command.validate.Notes (Duty.names command.names) := by
  cases command with
  | object key definition =>
      refine Checked.Notes.requireName_then fun _ => Checked.notes_of_eq_nil ?_
      by_cases hblank : Text.trim definition = []
      · simp only [if_pos hblank, Checked.fail]
      · simp only [if_neg hblank]
        rfl
  | message key text => exact requireName_notes _ _ _
  | floatAtom key arguments => exact requireName_notes _ _ _
  | symbolAtom key arguments => exact requireName_notes _ _ _
  | delete key => exact requireName_notes _ _ _
  | connect connection => exact requireKeys_notes _ _
  | disconnect connection => exact requireKeys_notes _ _
  | target subpatch => exact requireName_notes _ _ _
  | send receiver text => exact requireName_notes _ _ _
  | loadbang => exact Checked.notes_of_eq_nil rfl
  | reset => exact Checked.notes_of_eq_nil rfl

theorem mem_encodingNotes_iff {command : Command} {contract : Contract} :
    contract ∈ command.encodingNotes ↔ (Duty.encode command).contract? = some contract := by
  cases command <;> simp [encodingNotes, Duty.contract?, eq_comm]

/-- Encoding also notes that a connection is complete, if it is accepted. -/
theorem encode_notes (command : Command) : command.encode.Notes command.encodeDuties := by
  intro contract
  rw [encodeDuties, Duty.noted_cons_iff, encode, Checked.notes_bind, List.mem_append,
    command.validate_notes contract, or_comm]
  apply or_congr_left
  rw [← mem_encodingNotes_iff, Duty.Fulfilled, encode_outcome]
  cases command.validate.outcome with
  | ok value => simp [Except.map]
  | error error => simp [Except.map]

/-! ## Reading -/

section Reading

variable {line : Text}

theorem readIndex_bind_notes {α : Type} {token : Text} {next : UInt32 → Checked α}
    {tested : List Text} (h : ∀ index, (next index).Notes (Duty.names tested)) :
    (readIndex line token >>= next).Notes
      (Duty.names (if (Text.index? token).isSome then tested else [])) := by
  have hnotes : (readIndex line token).notes = [] := by
    rw [readIndex]
    split
    · split
      · rfl
      · rfl
    · rfl
  have hbind := (Checked.notes_of_eq_nil hnotes).bind h
  cases hindex : Text.index? token with
  | some index =>
      rw [readIndex_outcome_eq_ok_iff.2 (Text.index?_eq_some_iff.1 hindex)] at hbind
      exact hbind
  | none =>
      cases houtcome : (readIndex line token).outcome with
      | ok index =>
          rw [Text.index?_eq_some_iff.2 (readIndex_outcome_eq_ok_iff.1 houtcome)] at hindex
          cases hindex
      | error error =>
          rw [houtcome] at hbind
          exact hbind

theorem joinEnds_notes (outletKey inletKey : Text) (outlet inlet : UInt32) :
    (joinEnds line outletKey outlet inletKey inlet).Notes (Duty.names [outletKey, inletKey]) :=
  (requireKeys_notes _ _).bind_still fun _ => rfl

/-- Reading a connection tests the keys behind the reading of the indices. -/
theorem readConnection_notes (words : List Text) :
    (readConnection line words).Notes (Duty.names (keysOfWords words)) := by
  match words with
  | [] => exact Checked.notes_of_eq_nil rfl
  | [_] => exact Checked.notes_of_eq_nil rfl
  | [outletKey, inletKey] => exact joinEnds_notes _ _ _ _
  | [outletKey, second, third] =>
      rw [readConnection, keysOfWords]
      split
      · exact readIndex_bind_notes fun _ => joinEnds_notes _ _ _ _
      · exact readIndex_bind_notes fun _ => joinEnds_notes _ _ _ _
  | [outletKey, second, inletKey, fourth] =>
      exact readIndex_bind_notes fun _ => readIndex_bind_notes fun _ => joinEnds_notes _ _ _ _
  | _ :: _ :: _ :: _ :: _ :: _ => exact Checked.notes_of_eq_nil rfl

/-- Arguments that are one name test it, whatever the name is for. -/
theorem readSingle_bind_notes {rest : Text} {role : NameRole} {next : Text → Checked Command}
    (h : ∀ name, (next name).Notes (Duty.names [name])) :
    (readSingle line rest role >>= next).Notes (Duty.names (namesOfArguments rest .delete)) := by
  rw [readSingle, namesOfArguments]
  cases Text.words rest with
  | nil => exact Checked.notes_of_eq_nil rfl
  | cons word others =>
      cases others with
      | nil => exact h rest
      | cons other more => exact Checked.notes_of_eq_nil rfl

theorem requireNone_notes (rest : Text) : (requireNone line rest).Notes [] := by
  rw [requireNone]
  split
  · exact Checked.notes_of_eq_nil rfl
  · exact Checked.notes_of_eq_nil rfl

theorem readArguments_notes (rest : Text) (keyword : Keyword) :
    (readArguments line rest keyword).Notes (Duty.names (namesOfArguments rest keyword)) := by
  cases keyword with
  | object => exact remake_notes (.object _ _)
  | message => exact remake_notes (.message _ _)
  | floatAtom => exact remake_notes (.floatAtom _ _)
  | symbolAtom => exact remake_notes (.symbolAtom _ _)
  | delete => exact readSingle_bind_notes fun name => remake_notes (.delete name)
  | connect => exact (readConnection_notes _).bind_still fun _ => rfl
  | disconnect => exact (readConnection_notes _).bind_still fun _ => rfl
  | target => exact readSingle_bind_notes fun name => remake_notes (.target name)
  | send => exact remake_notes (.send _ _)
  | loadbang => exact (requireNone_notes rest).bind_still fun _ => rfl
  | reset => exact (requireNone_notes rest).bind_still fun _ => rfl

end Reading

/-- Reading a line tests names only where it reads arguments. -/
theorem ofLine_notes (text : Text) : (ofLine text).Notes (Duty.names (namesOfLine text)) := by
  rw [ofLine, namesOfLine]
  cases Keyword.ofWord? (Text.splitFirst (Text.trim text)).1 with
  | some keyword => exact readArguments_notes _ keyword
  | none => exact Checked.notes_of_eq_nil rfl

end Command

/-! ## Scripts and messages -/

theorem Script.readLines_notes (lines : List Text) :
    (readLines lines).Notes (readDuties lines) := by
  induction lines with
  | nil => exact Checked.notes_of_eq_nil rfl
  | cons line rest ih =>
      refine (Command.ofLine_notes line).bind fun command => ?_
      exact ih.bind_still fun commands => rfl

/-- A builder keeps the notes of every call, also behind the first that fails. -/
theorem Script.Builder.notes_foldl_add (calls : List (Checked Command)) (builder : Builder) :
    (calls.foldl add builder).notes = builder.notes ++ calls.flatMap Checked.notes := by
  induction calls generalizing builder with
  | nil => exact (List.append_nil _).symm
  | cons call rest ih =>
      rw [List.foldl_cons, ih, List.flatMap_cons, ← List.append_assoc]
      rfl

theorem Script.Builder.build_notes (parts : List Command) :
    (ofCalls (parts.map Command.remake)).build.Notes (Command.buildDuties parts) := by
  intro contract
  have hnotes : (ofCalls (parts.map Command.remake)).build.notes =
      parts.flatMap fun command => command.remake.notes := by
    rw [← List.flatMap_map]
    exact notes_foldl_add _ empty
  rw [hnotes, List.mem_flatMap]
  simp only [fun command => Command.remake_notes command contract, Duty.Noted, Command.buildDuties,
    List.mem_flatMap]
  constructor
  · rintro ⟨command, hcommand, duty, hduty, hkept⟩
    exact ⟨duty, ⟨command, hcommand, hduty⟩, hkept⟩
  · rintro ⟨duty, ⟨command, hcommand, hduty⟩, hkept⟩
    exact ⟨command, hcommand, duty, hduty, hkept⟩

theorem Atom.messageOfText_notes (text : Text) :
    (messageOfText text).Notes [.readMessage text] := by
  intro contract
  rw [Duty.noted_cons_iff, or_iff_left Duty.not_noted_nil, Duty.Fulfilled, messageOfText]
  split
  · simp [Checked.fail]
  · simp [Duty.contract?, eq_comm]

end DynamicPatching

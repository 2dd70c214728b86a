import DynamicPatching.Script.Basic

/-!
# The leading successes of a row

Reading a script, building one by calls and running one all go through a row of outcomes and stop
at its first error. `leading` takes such a row apart into the values before the first error and that
error, if there is one (`leading_eq_none_iff`, `leading_eq_some_iff`). A reader and a builder yield
the leading values exactly when no error follows them, and otherwise fail with it
(`readLines_outcome`, `build_outcome`).
-/

namespace DynamicPatching

/-- The values before the first error of a row of outcomes, and that error. -/
def leading {α : Type} : List (Except Error α) → List α × Option Error
  | [] => ([], none)
  | .ok value :: rest => (value :: (leading rest).1, (leading rest).2)
  | .error error :: _ => ([], some error)

/-- The outcome of a row that is done up to its first error. -/
def endingOf : Option Error → Except Error Unit
  | some error => .error error
  | none => .ok ()

/-- The leading values of a row, if no error follows them. -/
def settled {α : Type} (outcomes : List (Except Error α)) : Except Error (List α) :=
  (endingOf (leading outcomes).2).map fun _ => (leading outcomes).1

/-! ## Rows and their leading values -/

section Leading

variable {α : Type} {outcomes : List (Except Error α)} {values : List α}

theorem mem_of_mem_leading {value : α} (h : value ∈ (leading outcomes).1) :
    .ok value ∈ outcomes := by
  induction outcomes with
  | nil => cases h
  | cons outcome rest ih =>
      cases outcome with
      | error error => cases h
      | ok first =>
          rcases List.mem_cons.1 h with rfl | hrest
          · exact List.mem_cons_self
          · exact List.mem_cons_of_mem _ (ih hrest)

/-- No error follows the leading values exactly when they are the whole row. -/
theorem leading_eq_none_iff : leading outcomes = (values, none) ↔ outcomes = values.map .ok := by
  constructor
  · intro h
    induction outcomes generalizing values with
    | nil =>
        obtain rfl : [] = values := congrArg Prod.fst h
        rfl
    | cons outcome rest ih =>
        cases outcome with
        | error error => cases congrArg Prod.snd h
        | ok value =>
            obtain rfl : value :: (leading rest).1 = values := congrArg Prod.fst h
            have hnone : (leading rest).2 = none := congrArg Prod.snd h
            rw [List.map_cons, ← ih (Prod.ext rfl hnone)]
  · rintro rfl
    induction values with
    | nil => rfl
    | cons value rest ih => rw [List.map_cons, leading, ih]

/-- An error follows the leading values exactly when it stands right behind them in the row. -/
theorem leading_eq_some_iff {error : Error} :
    leading outcomes = (values, some error) ↔
      ∃ rest, outcomes = values.map .ok ++ .error error :: rest := by
  constructor
  · intro h
    induction outcomes generalizing values with
    | nil => cases congrArg Prod.snd h
    | cons outcome others ih =>
        cases outcome with
        | error other =>
            obtain rfl : [] = values := congrArg Prod.fst h
            obtain rfl : other = error := Option.some.inj (congrArg Prod.snd h)
            exact ⟨others, rfl⟩
        | ok value =>
            obtain rfl : value :: (leading others).1 = values := congrArg Prod.fst h
            have hsome : (leading others).2 = some error := congrArg Prod.snd h
            obtain ⟨rest, hrest⟩ := ih (Prod.ext rfl hsome)
            refine ⟨rest, ?_⟩
            rw [List.map_cons, List.cons_append, ← hrest]
  · rintro ⟨rest, rfl⟩
    induction values with
    | nil => rfl
    | cons value others ih => rw [List.map_cons, List.cons_append, leading, ih]

/-- Behind a row without an error the next row goes on; behind an error it does not count. -/
theorem leading_append (outcomes others : List (Except Error α)) :
    leading (outcomes ++ others) =
      match (leading outcomes).2 with
      | some error => ((leading outcomes).1, some error)
      | none => ((leading outcomes).1 ++ (leading others).1, (leading others).2) := by
  induction outcomes with
  | nil => rfl
  | cons outcome rest ih =>
      cases outcome with
      | error error => rfl
      | ok value =>
          rw [List.cons_append, leading, leading, ih]
          cases (leading rest).2 <;> rfl

/-- The leading values of two rows are those of both, unless an error follows in one of them. -/
theorem settled_append (outcomes others : List (Except Error α)) :
    settled (outcomes ++ others) =
      (do
        let first ← settled outcomes
        let second ← settled others
        pure (first ++ second)) := by
  simp only [settled, leading_append]
  cases (leading outcomes).2 with
  | some error => rfl
  | none => cases (leading others).2 <;> rfl

theorem settled_eq_ok_iff : settled outcomes = .ok values ↔ leading outcomes = (values, none) := by
  rw [settled]
  rcases leading outcomes with ⟨first, _ | error⟩
  · simp [endingOf, Except.map]
  · simp [endingOf, Except.map]

theorem settled_eq_error_iff {error : Error} :
    settled outcomes = .error error ↔ ∃ values, leading outcomes = (values, some error) := by
  rw [settled]
  rcases leading outcomes with ⟨first, _ | other⟩
  · simp [endingOf, Except.map]
  · simp [endingOf, Except.map]

end Leading

/-! ## Reading and building -/

namespace Script

/-- What the lines of a script read as. -/
def outcomes (script : Text) : List (Except Error Command) :=
  (lines script).map fun line => (Command.ofLine line).outcome

/-- A script is read when every line is, and fails with the first error. -/
theorem readLines_outcome (texts : List Text) :
    (readLines texts).outcome =
      settled (texts.map fun line => (Command.ofLine line).outcome) := by
  induction texts with
  | nil => rfl
  | cons line rest ih =>
      rw [readLines, Checked.outcome_bind, List.map_cons]
      cases hline : (Command.ofLine line).outcome with
      | error error => rfl
      | ok command =>
          change (readLines rest >>= fun commands => pure (command :: commands)).outcome = _
          rw [Checked.outcome_bind, ih, settled, settled, leading]
          cases (leading (rest.map fun line => (Command.ofLine line).outcome)).2 <;> rfl

namespace Builder

/-- Calls add their leading commands to those of a builder, unless an error follows them. -/
theorem collected_foldl_add (builder : Builder) (calls : List (Checked Command)) :
    (calls.foldl add builder).collected =
      builder.collected >>= fun before =>
        (settled (calls.map Checked.outcome)).map fun added => before ++ added := by
  induction calls generalizing builder with
  | nil =>
      change builder.collected = _
      cases builder.collected with
      | error error => rfl
      | ok before => exact congrArg Except.ok (List.append_nil before).symm
  | cons call rest ih =>
      rw [List.foldl_cons, ih, List.map_cons]
      -- the first call adds its command, or its error if the builder holds none yet
      simp only [add]
      cases builder.collected with
      | error error => rfl
      | ok before =>
          cases call.outcome with
          | error error => rfl
          | ok command =>
              change (settled (rest.map Checked.outcome)).map (fun added =>
                before ++ [command] ++ added) = _
              rw [settled, settled, leading]
              cases (leading (rest.map Checked.outcome)).2 with
              | some error => rfl
              | none => exact congrArg Except.ok (List.append_assoc _ _ _)

/-- A builder yields the commands of its calls when every call passes, and otherwise the error of
the first that fails. -/
theorem build_outcome (calls : List (Checked Command)) :
    (ofCalls calls).build.outcome = settled (calls.map Checked.outcome) := by
  change (ofCalls calls).collected = _
  rw [ofCalls, collected_foldl_add]
  change (settled (calls.map Checked.outcome)).map (fun added => [] ++ added) = _
  cases settled (calls.map Checked.outcome) <;> rfl

end Builder

end Script

end DynamicPatching

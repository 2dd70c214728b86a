import DynamicPatching.Session.Edit
import DynamicPatching.Proofs.Script.ReadBack
import DynamicPatching.Proofs.Session.Running

/-!
# Edits, builders and scripts

An edit is made on a session, collected by a builder, or read from a line of the script that the
builder renders. Each way constructs the same command from the same parts, so a row of edits has the
effect of running what its edits construct, up to the first that fails (`runEdits_runs`). A builder
collects exactly these commands, and fails with exactly this error (`Edit.edits_agree`).
-/

namespace DynamicPatching

namespace Edit

variable {session : Session}

/-! ## One edit -/

/-- Every edit is the checked construction of some parts. -/
theorem exists_remake_eq (edit : Edit) : ∃ parts : Command, edit.construct = parts.remake := by
  cases edit with
  | object key definition => exact ⟨.object key definition, rfl⟩
  | message key text => exact ⟨.message key text, rfl⟩
  | floatAtom key arguments => exact ⟨.floatAtom key arguments, rfl⟩
  | symbolAtom key arguments => exact ⟨.symbolAtom key arguments, rfl⟩
  | delete key => exact ⟨.delete key, rfl⟩
  | connect outletKey inletKey => exact ⟨.connect (leftmost outletKey inletKey), rfl⟩
  | connectPorts connection => exact ⟨.connect connection, rfl⟩
  | disconnect outletKey inletKey => exact ⟨.disconnect (leftmost outletKey inletKey), rfl⟩
  | disconnectPorts connection => exact ⟨.disconnect connection, rfl⟩
  | target subpatch => exact ⟨.target subpatch, rfl⟩
  | send receiver text => exact ⟨.send receiver text, rfl⟩
  | loadbang => exact ⟨.loadbang, rfl⟩
  | reset => exact ⟨.reset, rfl⟩

theorem isCanonical_of_construct {edit : Edit} {command : Command}
    (h : edit.construct.outcome = .ok command) : command.IsWellFormed ∧ command.IsCanonical := by
  obtain ⟨parts, hparts⟩ := edit.exists_remake_eq
  rw [hparts] at h
  exact Command.isCanonical_of_remake h

/-- Making an edit performs the construction that a builder collects. -/
theorem run_eq_perform (edit : Edit) : edit.run session = session.perform edit.construct := by
  -- clearing and firing skip the construction, which notes nothing
  cases edit <;> rfl

/-! ## Rows of edits -/

/-- The outcomes of the constructions of a row of edits. -/
def outcomes (edits : List Edit) : List (Except Error Command) :=
  edits.map fun edit => edit.construct.outcome

theorem isCanonical_of_mem_leading {edits : List Edit} {command : Command}
    (h : command ∈ (leading (outcomes edits)).1) : command.IsWellFormed ∧ command.IsCanonical := by
  obtain ⟨edit, -, hconstruct⟩ := List.mem_map.1 (mem_of_mem_leading h)
  exact isCanonical_of_construct hconstruct

theorem runEdits_eq_performAll (edits : List Edit) :
    session.runEdits edits = session.performAll (edits.map construct) := by
  induction edits with
  | nil => rfl
  | cons edit rest ih =>
      rw [Session.runEdits, ih, run_eq_perform, List.map_cons, Session.performAll]

/-- **A row of edits** delivers the commands of those before the first that fails. -/
theorem runEdits_runs (edits : List Edit) (bench : Bench) :
    session.Runs (session.runEdits edits) (outcomes edits) bench := by
  have houtcomes : outcomes edits = (edits.map construct).map Checked.outcome := by
    rw [List.map_map]
    rfl
  apply Session.runs_of_makes
  · intro command hcommand
    exact (isCanonical_of_mem_leading hcommand).1
  · rw [houtcomes, runEdits_eq_performAll]
    apply Session.performAll_makes
    intro call hcall command hconstruct
    obtain ⟨edit, -, rfl⟩ := List.mem_map.1 hcall
    exact (isCanonical_of_construct hconstruct).1

theorem build_outcome_ofEdits (edits : List Edit) :
    (Script.Builder.ofEdits edits).build.outcome = settled (outcomes edits) := by
  rw [Script.Builder.ofEdits, Script.Builder.build_outcome, List.map_map]
  rfl

/-! ## Builders and sessions -/

/-- The commands of a builder are well formed and canonical, and no error follows them. -/
theorem leading_of_build {edits : List Edit} {commands : List Command}
    (h : (Script.Builder.ofEdits edits).build.outcome = .ok commands) :
    leading (outcomes edits) = (commands, none) ∧
      ∀ command ∈ commands, command.IsWellFormed ∧ command.IsCanonical := by
  rw [build_outcome_ofEdits, settled_eq_ok_iff] at h
  refine ⟨h, ?_⟩
  intro command hcommand
  apply @isCanonical_of_mem_leading edits
  rw [h]
  exact hcommand

/-- The leading commands of a row are those of the edits before the first that fails. -/
theorem leading_outcomes_append {before : List Edit} {commands : List Command} {first : Edit}
    {error : Error} (hbefore : outcomes before = commands.map .ok)
    (hfirst : first.construct.outcome = .error error) (after : List Edit) :
    leading (outcomes (before ++ first :: after)) = (commands, some error) := by
  have hrow : outcomes (before ++ first :: after) =
      outcomes before ++ first.construct.outcome :: outcomes after := by
    rw [outcomes, List.map_append, List.map_cons]
    rfl
  rw [hrow, hbefore, hfirst]
  exact leading_eq_some_iff.2 ⟨outcomes after, rfl⟩

/-- A builder fails exactly with the error of the first edit that fails. -/
theorem build_eq_error_iff {edits : List Edit} {error : Error} :
    (Script.Builder.ofEdits edits).build.outcome = .error error ↔
      ∃ (before : List Edit) (first : Edit) (after : List Edit) (commands : List Command),
        edits = before ++ first :: after ∧ outcomes before = commands.map .ok ∧
          first.construct.outcome = .error error := by
  rw [build_outcome_ofEdits, settled_eq_error_iff]
  constructor
  · rintro ⟨commands, hleading⟩
    obtain ⟨rest, hrest⟩ := leading_eq_some_iff.1 hleading
    -- the row of outcomes is split where the row of edits is
    obtain ⟨before, others, rfl, hbefore, hothers⟩ := List.map_eq_append_iff.1 hrest
    obtain ⟨first, after, rfl, hfirst, -⟩ := List.map_eq_cons_iff.1 hothers
    exact ⟨before, first, after, commands, rfl, hbefore, hfirst⟩
  · rintro ⟨before, first, after, commands, rfl, hbefore, hfirst⟩
    exact ⟨commands, leading_outcomes_append hbefore hfirst after⟩

/-- **Edits, commands and scripts agree.** When a builder yields commands, making the edits on a
session has the effect of running the commands, and so has running the builder's script, if no line
of it holds the separator. When a builder fails, it does so with the error of the first edit that
fails, whatever edits follow it; and without a limit the edits made on a session deliver the commands
of those before it and end in that error. -/
theorem edits_agree :
    (∀ (session : Session) (edits : List Edit) (commands : List Command) (bench : Bench),
      (Script.Builder.ofEdits edits).build.outcome = .ok commands →
        (outcomeOf (session.runEdits edits) bench =
            outcomeOf (session.runCommands commands) bench ∧
          (stateAfter (session.runEdits edits) bench).engine =
            (stateAfter (session.runCommands commands) bench).engine) ∧
        ((∀ command ∈ commands, ¬ Script.separator <:+: command.scriptLine) →
          ∃ script, (Script.Builder.ofEdits edits).script.outcome = .ok script ∧
            outcomeOf (session.runScript script) bench =
              outcomeOf (session.runCommands commands) bench ∧
            (stateAfter (session.runScript script) bench).engine =
              (stateAfter (session.runCommands commands) bench).engine)) ∧
    (∀ (edits : List Edit) (error : Error),
      (Script.Builder.ofEdits edits).build.outcome = .error error →
        ∃ (before : List Edit) (first : Edit) (after : List Edit) (commands : List Command),
          edits = before ++ first :: after ∧
          before.map (fun edit => edit.construct.outcome) = commands.map .ok ∧
          first.construct.outcome = .error error ∧
          (∀ later, (Script.Builder.ofEdits (before ++ first :: later)).build.outcome =
            .error error) ∧
          (∀ command ∈ commands,
            command.encode.outcome = .ok (Atom.listOfText command.wireLine)) ∧
          ∀ (session : Session) (bench : Bench), bench.engine.limit = none →
            outcomeOf (session.runEdits edits) bench = .error error ∧
            (stateAfter (session.runEdits edits) bench).engine =
              { bench.engine with
                accepted := bench.engine.accepted ++ commands.map session.deliveryOf }) := by
  constructor
  · intro session edits commands bench hbuild
    obtain ⟨hleading, hcanonical⟩ := leading_of_build hbuild
    have hvalidated : leading (commands.map Command.validated) = (commands, none) :=
      Session.leading_validated fun command hcommand => (hcanonical command hcommand).1
    have hcommands := @Session.runCommands_runs session commands bench
    refine ⟨?_, ?_⟩
    · apply (runEdits_runs edits bench).congr hcommands
      rw [hleading, hvalidated]
    · intro hseparator
      refine ⟨Script.render commands, Script.Builder.script_outcome hbuild, ?_⟩
      have hread : (Script.read (Script.render commands)).outcome = .ok commands := by
        rw [Script.read_render_eq_ok_iff]
        intro command hcommand
        obtain ⟨hformed, hcommandCanonical⟩ := hcanonical command hcommand
        exact ⟨hformed, hcommandCanonical, hseparator command hcommand⟩
      apply (Session.runScript_runs (Script.render commands) bench).congr hcommands
      rw [Session.leading_outcomes_of_read hread, hvalidated]
  · intro edits error hbuild
    obtain ⟨before, first, after, commands, rfl, hbefore, hfirst⟩ := build_eq_error_iff.1 hbuild
    have hleading := leading_outcomes_append hbefore hfirst after
    refine ⟨before, first, after, commands, rfl, hbefore, hfirst, ?_, ?_, ?_⟩
    · intro later
      exact build_eq_error_iff.2 ⟨before, first, later, commands, rfl, hbefore, hfirst⟩
    · intro command hcommand
      apply Command.encode_outcome_of_isWellFormed
      apply (@isCanonical_of_mem_leading (before ++ first :: after) command _).1
      rw [hleading]
      exact hcommand
    · intro session bench hlimit
      have heffect := (@runEdits_runs session (before ++ first :: after) bench).of_unlimited hlimit
      rw [hleading] at heffect
      exact heffect

/-- A message with blanks around it is made, collected and read back as one command, and an edit
with a numeric key stops a builder and a session alike. -/
theorem edits_agree_trimmed :
    let session : Session := ⟨1001, "1001-interpreter".toList⟩
    let bench : Bench := ⟨{ Engine.fresh with limit := some 1 }, ContractLog.empty⟩
    let edits : List Edit :=
      [.object "note".toList " msg  coffee ".toList, .connect "note".toList "out".toList, .reset]
    let commands : List Command :=
      [.message "note".toList "coffee".toList, .connect ⟨"note".toList, 0, "out".toList, 0⟩, .reset]
    let failing : List Edit := [.loadbang, .delete "7".toList, .target " ".toList]
    outcomeOf (session.runEdits edits) bench = outcomeOf (session.runCommands commands) bench ∧
      (∃ script, (Script.Builder.ofEdits edits).script.outcome = .ok script ∧
        outcomeOf (session.runScript script) bench =
          outcomeOf (session.runCommands commands) bench) ∧
      ∃ error, (Script.Builder.ofEdits failing).build.outcome = .error error ∧
        outcomeOf (session.runEdits failing) Bench.fresh = .error error := by
  intro session bench edits commands failing
  obtain ⟨hbuilt, hfailed⟩ := edits_agree
  have hbuild : (Script.Builder.ofEdits edits).build.outcome = .ok commands := rfl
  have hseparator : ∀ command ∈ commands, ¬ Script.separator <:+: command.scriptLine := by
    decide +kernel
  obtain ⟨⟨hmade, -⟩, hscript⟩ := hbuilt session edits commands bench hbuild
  obtain ⟨script, hrendered, hran, -⟩ := hscript hseparator
  refine ⟨hmade, ⟨script, hrendered, hran⟩, ?_⟩
  have herror : (Script.Builder.ofEdits failing).build.outcome =
      .error (.malformedCommand "delete 7".toList (.numericName .key "7".toList)) := rfl
  obtain ⟨before, first, after, commands, -, -, -, -, -, hran⟩ := hfailed failing _ herror
  exact ⟨_, herror, (hran session Bench.fresh rfl).1⟩

end Edit

end DynamicPatching

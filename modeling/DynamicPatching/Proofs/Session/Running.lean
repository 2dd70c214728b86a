import DynamicPatching.Session.Basic
import DynamicPatching.Proofs.Command.ReadBack
import DynamicPatching.Proofs.Engine.Delivering
import DynamicPatching.Proofs.Script.Leading
import DynamicPatching.Proofs.Script.Segments

/-!
# Running scripts and commands

A script run reads, tests and delivers line by line, so it can fail in two ways at any line. Its
effect is nevertheless that of one row of deliveries: those of the commands before the first line
that is not read (`leading`), because a command that was read is well formed and always passes the
test of the encoding. The row gets through up to the limit of the engine, and the error of the line
is reached only behind the whole row (`Session.Runs`). Running commands that were assembled by hand
follows the same law, with validation in the place of reading.

Two scripts with a separator between them are one script, whatever they begin and end with: no
separator lies across the seam, so the lines of the joined script are those of both
(`Script.lines_append`). Reading it is reading both, and running it is running one after the other,
the second only behind the success of the first (`Session.runScript_joined`).
-/

namespace DynamicPatching

/-! ## Testing -/

/-- A command, if validation accepts it. -/
def Command.validated (command : Command) : Except Error Command :=
  command.validate.outcome.map fun _ => command

theorem Command.validated_eq_ok_iff {command other : Command} :
    command.validated = .ok other ↔ command.IsWellFormed ∧ command = other := by
  rw [Command.validated, ← Command.validate_outcome_eq_ok_iff]
  cases hvalidate : command.validate.outcome with
  | error error => simp [Except.map]
  | ok _ => simp [Except.map]

theorem Command.validated_eq_error_iff {command : Command} {error : Error} :
    command.validated = .error error ↔ command.validate.outcome = .error error := by
  rw [Command.validated]
  cases hvalidate : command.validate.outcome with
  | error error => simp [Except.map]
  | ok _ => simp [Except.map]

namespace Session

variable {session : Session}

/-! ## Rows of the session -/

/-- The delivery of a command's wire line to the interpreter of the session. -/
def deliveryOf (session : Session) (command : Command) : Delivery :=
  ⟨session.interpreter, .list (Atom.listOfText command.wireLine)⟩

theorem execute_makes {command : Command} (h : command.IsWellFormed) :
    (session.execute command).Makes [session.deliveryOf command] (.ok ()) := by
  have hencode := Action.makes_ofChecked command.encode
  rw [Command.encode_outcome_of_isWellFormed h] at hencode
  exact hencode.bind (Action.makes_deliver _ _)

theorem execute_makes_error {command : Command} {error : Error}
    (h : command.validate.outcome = .error error) :
    (session.execute command).Makes [] (.error error) := by
  have hencode := Action.makes_ofChecked command.encode
  rw [Command.encode_outcome, h] at hencode
  exact hencode.bind_error _

/-- A checked construction or reading that yields a well-formed command delivers it. -/
theorem perform_makes {call : Checked Command} {command : Command}
    (hcall : call.outcome = .ok command) (h : command.IsWellFormed) :
    (session.perform call).Makes [session.deliveryOf command] (.ok ()) := by
  have hchecked := Action.makes_ofChecked call
  rw [hcall] at hchecked
  exact hchecked.bind (execute_makes h)

theorem perform_makes_error {call : Checked Command} {error : Error}
    (hcall : call.outcome = .error error) : (session.perform call).Makes [] (.error error) := by
  have hchecked := Action.makes_ofChecked call
  rw [hcall] at hchecked
  exact hchecked.bind_error _

/-- Performs checked calls in order, up to the first error. -/
def performAll (session : Session) : List (Checked Command) → Action Unit
  | [] => pure ()
  | call :: rest => do
      session.perform call
      session.performAll rest

/-- Sending to a name delivers the message without the blanks around it. -/
theorem send_makes {receiver : Text} (h : receiver.IsName) (message : Text) :
    (session.send receiver message).Makes
      [session.deliveryOf (.send receiver (Text.trim message))] (.ok ()) :=
  perform_makes (Command.requireName_then_eq_ok_iff.2 ⟨h, rfl⟩) h

/-- Running commands makes the deliveries of those before the first one that is not accepted. -/
theorem runCommands_makes (commands : List Command) :
    (session.runCommands commands).Makes
      ((leading (commands.map Command.validated)).1.map session.deliveryOf)
      (endingOf (leading (commands.map Command.validated)).2) := by
  induction commands with
  | nil => exact Action.makes_pure ()
  | cons command rest ih =>
      rw [List.map_cons]
      cases hvalidated : command.validated with
      | error error =>
          -- the error keeps the rest of the row from starting
          have herror := Command.validated_eq_error_iff.1 hvalidated
          exact (execute_makes_error herror).bind_error _
      | ok other =>
          obtain ⟨hformed, rfl⟩ := Command.validated_eq_ok_iff.1 hvalidated
          exact (execute_makes hformed).bind ih

/-- Performing checked calls that yield well-formed commands only makes the deliveries of those before
the first one that fails. -/
theorem performAll_makes {calls : List (Checked Command)}
    (h : ∀ call ∈ calls, ∀ command, call.outcome = .ok command → command.IsWellFormed) :
    (session.performAll calls).Makes
      ((leading (calls.map Checked.outcome)).1.map session.deliveryOf)
      (endingOf (leading (calls.map Checked.outcome)).2) := by
  induction calls with
  | nil => exact Action.makes_pure ()
  | cons call rest ih =>
      obtain ⟨hcall, hrest⟩ := List.forall_mem_cons.1 h
      rw [List.map_cons]
      cases houtcome : call.outcome with
      | error error =>
          -- the error keeps the rest of the row from starting
          exact (perform_makes_error houtcome).bind_error _
      | ok command => exact (perform_makes houtcome (hcall command houtcome)).bind (ih hrest)

/-- Running lines performs their readings. -/
theorem runLines_eq_performAll (lines : List Text) :
    session.runLines lines = session.performAll (lines.map Command.ofLine) := by
  induction lines with
  | nil => rfl
  | cons line rest ih => rw [runLines, ih, List.map_cons, performAll]

/-- Running a script makes the deliveries of the lines before the first one that is not read. -/
theorem runScript_makes (script : Text) :
    (session.runScript script).Makes
      ((leading (Script.outcomes script)).1.map session.deliveryOf)
      (endingOf (leading (Script.outcomes script)).2) := by
  have hlines : (session.performAll ((Script.lines script).map Command.ofLine)).Makes
      ((leading (Script.outcomes script)).1.map session.deliveryOf)
      (endingOf (leading (Script.outcomes script)).2) := by
    have houtcomes : Script.outcomes script =
        ((Script.lines script).map Command.ofLine).map Checked.outcome := by
      rw [List.map_map]
      rfl
    rw [houtcomes]
    apply performAll_makes
    intro call hcall command hread
    obtain ⟨line, -, rfl⟩ := List.mem_map.1 hcall
    -- a command that was read passes the second test
    exact (Command.isCanonical_of_ofLine hread).1
  rw [← runLines_eq_performAll] at hlines
  exact hlines.bind_note .scriptInOrder

/-! ## The effect of a run -/

/-- The effect on a bench of running what a row of outcomes stands for. The commands before the
first error are encoded and delivered to the interpreter in order, as many as the engine has room
for, and nothing else is. The run ends in a refusal if there was not room for all of them, otherwise
in the first error if there is one. -/
structure Runs (session : Session) (action : Action Unit) (outcomes : List (Except Error Command))
    (bench : Bench) : Prop where
  encoded : ∀ command ∈ (leading outcomes).1,
    command.encode.outcome = .ok (Atom.listOfText command.wireLine)
  engine : (stateAfter action bench).engine =
    { bench.engine with
      accepted := bench.engine.accepted ++
        ((leading outcomes).1.take (bench.engine.room (leading outcomes).1.length)).map
          session.deliveryOf
      limit := bench.engine.limit.map (· - bench.engine.room (leading outcomes).1.length) }
  outcome : outcomeOf action bench =
    if bench.engine.room (leading outcomes).1.length < (leading outcomes).1.length then
      .error (.delivery ⟨session.interpreter, .refused⟩)
    else endingOf (leading outcomes).2

theorem runs_of_makes {action : Action Unit} {outcomes : List (Except Error Command)}
    (hformed : ∀ command ∈ (leading outcomes).1, command.IsWellFormed)
    (h : action.Makes ((leading outcomes).1.map session.deliveryOf)
      (endingOf (leading outcomes).2)) (bench : Bench) : session.Runs action outcomes bench := by
  have hreceiver : ∀ delivery ∈ (leading outcomes).1.map session.deliveryOf,
      delivery.receiver = session.interpreter := by
    intro delivery hdelivery
    obtain ⟨command, -, rfl⟩ := List.mem_map.1 hdelivery
    rfl
  constructor
  · intro command hcommand
    exact Command.encode_outcome_of_isWellFormed (hformed command hcommand)
  · rw [(h bench).engine_eq, Engine.acceptAll, List.length_map, List.map_take]
  · rw [(h bench).outcome_eq, Engine.refusal?_of_receiver hreceiver, List.length_map]
    split
    · rfl
    · rfl

/-- Without a limit the whole row gets through. -/
theorem Runs.of_unlimited {action : Action Unit} {outcomes : List (Except Error Command)}
    {bench : Bench} (h : session.Runs action outcomes bench) (hlimit : bench.engine.limit = none) :
    outcomeOf action bench = endingOf (leading outcomes).2 ∧
      (stateAfter action bench).engine =
        { bench.engine with
          accepted := bench.engine.accepted ++ (leading outcomes).1.map session.deliveryOf } := by
  have hroom : bench.engine.room (leading outcomes).1.length = (leading outcomes).1.length := by
    rw [Engine.room, hlimit]
  constructor
  · rw [h.outcome, hroom, if_neg (Nat.lt_irrefl _)]
  · rw [h.engine, hroom, List.take_length]
    simp only [hlimit, Option.map_none]

theorem runScript_runs (script : Text) (bench : Bench) :
    session.Runs (session.runScript script) (Script.outcomes script) bench := by
  apply runs_of_makes _ (runScript_makes script)
  intro command hcommand
  obtain ⟨line, -, hread⟩ := List.mem_map.1 (mem_of_mem_leading hcommand)
  exact (Command.isCanonical_of_ofLine hread).1

theorem runCommands_runs (commands : List Command) (bench : Bench) :
    session.Runs (session.runCommands commands) (commands.map Command.validated) bench := by
  apply runs_of_makes _ (runCommands_makes commands)
  intro command hcommand
  obtain ⟨other, -, hvalidated⟩ := List.mem_map.1 (mem_of_mem_leading hcommand)
  obtain ⟨hformed, rfl⟩ := Command.validated_eq_ok_iff.1 hvalidated
  exact hformed

/-- The leading commands of a script that is read are its commands. -/
theorem leading_outcomes_of_read {script : Text} {commands : List Command}
    (h : (Script.read script).outcome = .ok commands) :
    leading (Script.outcomes script) = (commands, none) := by
  rw [Script.read, Script.readLines_outcome] at h
  exact settled_eq_ok_iff.1 h

/-- Validation accepts a row of well-formed commands as it stands. -/
theorem leading_validated {commands : List Command}
    (h : ∀ command ∈ commands, command.IsWellFormed) :
    leading (commands.map Command.validated) = (commands, none) := by
  have hvalidated : commands.map Command.validated = commands.map .ok := by
    apply List.map_congr_left
    intro command hcommand
    exact Command.validated_eq_ok_iff.2 ⟨h command hcommand, rfl⟩
  exact leading_eq_none_iff.2 hvalidated

theorem leading_validated_of_read {script : Text} {commands : List Command}
    (h : (Script.read script).outcome = .ok commands) :
    leading (commands.map Command.validated) = (commands, none) := by
  apply leading_validated
  intro command hcommand
  -- every line was read, so every command is among the leading ones
  have hleading : command ∈ (leading (Script.outcomes script)).1 := by
    rw [leading_outcomes_of_read h]
    exact hcommand
  obtain ⟨line, -, hread⟩ := List.mem_map.1 (mem_of_mem_leading hleading)
  exact (Command.isCanonical_of_ofLine hread).1

/-- Actions with the same leading commands and the same first error have the same effect. -/
theorem Runs.congr {action other : Action Unit} {outcomes others : List (Except Error Command)}
    {bench : Bench} (h : session.Runs action outcomes bench)
    (h' : session.Runs other others bench) (heq : leading outcomes = leading others) :
    outcomeOf action bench = outcomeOf other bench ∧
      (stateAfter action bench).engine = (stateAfter other bench).engine := by
  rw [h.outcome, h'.outcome, h.engine, h'.engine, heq]
  exact ⟨rfl, rfl⟩

/-- **The effect of running scripts and commands.** A script delivers the commands before its first
line that is not read, a row of commands those before the first that validation rejects. A script
that is read has the effect of running the commands it reads as, and without a limit a script that
is not read fails with the error of reading it. -/
theorem run_delivers_leading :
    (∀ (session : Session) (script : Text) (bench : Bench),
      session.Runs (session.runScript script) (Script.outcomes script) bench) ∧
    (∀ (session : Session) (script : Text) (commands : List Command) (bench : Bench),
      (Script.read script).outcome = .ok commands →
        outcomeOf (session.runScript script) bench =
            outcomeOf (session.runCommands commands) bench ∧
          (stateAfter (session.runScript script) bench).engine =
            (stateAfter (session.runCommands commands) bench).engine) ∧
    (∀ (session : Session) (script : Text) (error : Error) (bench : Bench),
      (Script.read script).outcome = .error error → bench.engine.limit = none →
        outcomeOf (session.runScript script) bench = .error error) ∧
    (∀ (session : Session) (commands : List Command) (bench : Bench),
      session.Runs (session.runCommands commands) (commands.map Command.validated) bench) := by
  refine ⟨?_, ?_, ?_, ?_⟩
  · intro session script bench
    exact runScript_runs script bench
  · intro session script commands bench hread
    apply (runScript_runs script bench).congr (runCommands_runs commands bench)
    rw [leading_outcomes_of_read hread, leading_validated_of_read hread]
  · intro session script error bench hread hlimit
    -- without a limit the run gets to the line that is not read
    rw [((runScript_runs script bench).of_unlimited hlimit).1]
    rw [Script.read, Script.readLines_outcome] at hread
    obtain ⟨commands, hleading⟩ := settled_eq_error_iff.1 hread
    rw [Script.outcomes, hleading]
    rfl
  · intro session commands bench
    exact runCommands_runs commands bench

/-- Two commands on an engine that accepts one delivery, and a line that is not read. -/
theorem run_delivers_leading_reset :
    let session : Session := ⟨1001, "1001-interpreter".toList⟩
    let bench : Bench := ⟨{ Engine.fresh with limit := some 1 }, ContractLog.empty⟩
    let script : Text := "obj printer print, reset".toList
    let commands : List Command := [.object "printer".toList "print".toList, .reset]
    outcomeOf (session.runScript script) bench = outcomeOf (session.runCommands commands) bench ∧
      outcomeOf (session.runCommands commands) bench =
        .error (.delivery ⟨"1001-interpreter".toList, .refused⟩) ∧
      outcomeOf (session.runScript "reset, oops".toList) Bench.fresh =
        .error (.unknownCommand "oops".toList) := by
  intro session bench script commands
  obtain ⟨-, hread, herror, hcommands⟩ := run_delivers_leading
  refine ⟨(hread session script commands bench rfl).1, ?_,
    herror session "reset, oops".toList _ Bench.fresh rfl rfl⟩
  rw [(hcommands session commands bench).outcome]
  rfl

end Session

/-! ## Joined scripts -/

theorem Script.outcomes_append (left right : Text) :
    outcomes (left ++ separator ++ right) = outcomes left ++ outcomes right := by
  rw [outcomes, lines_append, List.map_append]
  rfl

/-- A joined script reads as both scripts, or fails with the first error of either. -/
theorem Script.read_append (left right : Text) :
    (read (left ++ separator ++ right)).outcome =
      (do
        let first ← (read left).outcome
        let second ← (read right).outcome
        pure (first ++ second)) := by
  simp only [read, readLines_outcome]
  exact (congrArg settled (outcomes_append left right)).trans (settled_append _ _)

/-- Actions that make the same row and end alike have the same effect on the engine. -/
theorem Action.Makes.congr {α : Type} {action other : Action α} {row : List Delivery}
    {ending : Except Error α} (h : action.Makes row ending) (h' : other.Makes row ending)
    (bench : Bench) :
    outcomeOf action bench = outcomeOf other bench ∧
      (stateAfter action bench).engine = (stateAfter other bench).engine := by
  rw [(h bench).outcome_eq, (h' bench).outcome_eq, (h bench).engine_eq, (h' bench).engine_eq]
  exact ⟨rfl, rfl⟩

namespace Session

variable {session : Session}

/-- Two scripts run one after the other make the row of the joined script. -/
theorem runScript_bind_makes (left right : Text) :
    (session.runScript left >>= fun _ => session.runScript right).Makes
      ((leading (Script.outcomes (left ++ Script.separator ++ right))).1.map session.deliveryOf)
      (endingOf (leading (Script.outcomes (left ++ Script.separator ++ right))).2) := by
  have hleft := @runScript_makes session left
  have hright := @runScript_makes session right
  rw [Script.outcomes_append, leading_append]
  cases herror : (leading (Script.outcomes left)).2 with
  | some error =>
      -- the second script is not started
      rw [herror] at hleft
      exact hleft.bind_error _
  | none =>
      rw [herror] at hleft
      rw [List.map_append]
      exact hleft.bind hright

/-- **Running scripts is compositional.** Take two scripts with a separator between them, whatever
the texts. The lines are those of both scripts in order. Reading the whole yields the commands of
both, or the first error of the first script, or else of the second. Running the whole has the result
of running the first and, only behind its success, the second, and leaves the same engine. -/
theorem runScript_joined (session : Session) (left right : Text) (bench : Bench) :
    Script.lines (left ++ Script.separator ++ right) = Script.lines left ++ Script.lines right ∧
      (Script.read (left ++ Script.separator ++ right)).outcome =
        (do
          let first ← (Script.read left).outcome
          let second ← (Script.read right).outcome
          pure (first ++ second)) ∧
      (let inTurn : Action Unit := do
        session.runScript left
        session.runScript right
      outcomeOf (session.runScript (left ++ Script.separator ++ right)) bench =
          outcomeOf inTurn bench ∧
        (stateAfter (session.runScript (left ++ Script.separator ++ right)) bench).engine =
          (stateAfter inTurn bench).engine) := by
  refine ⟨Script.lines_append left right, Script.read_append left right, ?_⟩
  intro inTurn
  exact (runScript_makes _).congr (runScript_bind_makes left right) bench

-- a comma before the seam and a separator behind it
example :
    Script.lines ("obj a print,".toList ++ Script.separator ++ ", reset".toList) =
      ["obj a print,".toList, "reset".toList] := by
  decide

end Session

end DynamicPatching

import DynamicPatching.Proofs.Command.ReadBack
import DynamicPatching.Proofs.Script.Leading
import DynamicPatching.Proofs.Script.Segments
import Mathlib.Data.List.Forall2

/-!
# Reading a script back

The script of a list of commands reads back as the list exactly when each command is well formed and
canonical and its line holds no separator (`read_render`). One direction is the reading of single
lines. The other counts: the lines of a script are the lines of its commands in order, every command
has at least one, and as many commands are read as there are lines, so every command has exactly
one.
-/

namespace DynamicPatching.Script

/-! ## Reading lines -/

/-- Reading succeeds exactly with the commands that the lines read as, one by one. -/
theorem readLines_outcome_eq_ok_iff {texts : List Text} {commands : List Command} :
    (readLines texts).outcome = .ok commands ↔
      List.Forall₂ (fun text command => (Command.ofLine text).outcome = .ok command) texts
        commands := by
  induction texts generalizing commands with
  | nil =>
      rw [List.forall₂_nil_left_iff, readLines, Checked.outcome_pure, Except.ok.injEq, eq_comm]
  | cons text rest ih =>
      rw [readLines, Checked.outcome_bind_eq_ok_iff, List.forall₂_cons_left_iff]
      constructor
      · rintro ⟨command, hcommand, h⟩
        obtain ⟨others, hothers, hresult⟩ := Checked.outcome_bind_eq_ok_iff.1 h
        obtain rfl := Except.ok.inj hresult
        exact ⟨command, others, hcommand, ih.1 hothers, rfl⟩
      · rintro ⟨command, others, hcommand, hothers, rfl⟩
        exact ⟨command, hcommand, Checked.outcome_bind_eq_ok_iff.2 ⟨others, ih.2 hothers, rfl⟩⟩

/-- Every command that was read was read from a line. -/
theorem exists_line_of_readLines {texts : List Text} {commands : List Command}
    (h : (readLines texts).outcome = .ok commands) :
    ∀ command ∈ commands, ∃ text ∈ texts, (Command.ofLine text).outcome = .ok command := by
  have hread := readLines_outcome_eq_ok_iff.1 h
  clear h
  induction hread with
  | nil => exact fun _ hnil => absurd hnil List.not_mem_nil
  | @cons text command rest others hcommand _ ih =>
      refine List.forall_mem_cons.2 ⟨⟨text, List.mem_cons_self, hcommand⟩, ?_⟩
      intro other hother
      obtain ⟨line, hline, hread⟩ := ih other hother
      exact ⟨line, List.mem_cons_of_mem _ hline, hread⟩

/-! ## Lines of commands -/

/-- A line begins with a character of its keyword, which is neither blank nor a comma. -/
theorem scriptLine_eq_cons (command : Command) :
    ∃ (c : Char) (rest : Text), command.scriptLine = c :: rest ∧ Text.isBlank c = false ∧ c ≠ ',' := by
  cases command <;> exact ⟨_, _, rfl, by decide, by decide⟩

theorem lines_scriptLine_ne_nil (command : Command) : lines command.scriptLine ≠ [] := by
  obtain ⟨c, rest, hline, hblank, hcomma⟩ := scriptLine_eq_cons command
  rw [hline]
  apply @lines_ne_nil [] rest c hblank
  intro hbegins
  exact hcomma (separator_prefix_iff.1 hbegins).1

/-- The lines of a script are the lines of its commands, in order. -/
theorem lines_render (commands : List Command) :
    lines (render commands) = commands.flatMap fun command => lines command.scriptLine := by
  induction commands with
  | nil => rfl
  | cons command rest ih =>
      rw [List.flatMap_cons, ← ih]
      cases rest with
      | nil => simp [render, lines, segments, Text.trim_nil]
      | cons other others =>
          rw [render, List.map_cons, List.map_cons, List.intercalate_cons_cons, lines_append]
          rfl

/-- Without a separator in it, the line of a well-formed canonical command stays one line. -/
theorem lines_scriptLine_eq_singleton {command : Command} (hformed : command.IsWellFormed)
    (hcanonical : command.IsCanonical) (h : ¬ separator <:+: command.scriptLine) :
    lines command.scriptLine = [command.scriptLine] := by
  obtain ⟨c, rest, hline, -⟩ := scriptLine_eq_cons command
  have hne : command.scriptLine ≠ [] := by
    rw [hline]
    exact List.cons_ne_nil c rest
  exact lines_eq_singleton hne (Command.trim_scriptLine hformed hcanonical) h

theorem separator_not_infix_scriptLine {command : Command} {line : Text}
    (hformed : command.IsWellFormed) (hcanonical : command.IsCanonical)
    (h : lines command.scriptLine = [line]) : ¬ separator <:+: command.scriptLine := by
  obtain ⟨c, rest, hline, -, hcomma⟩ := scriptLine_eq_cons command
  have htrim := Command.trim_scriptLine hformed hcanonical
  rw [hline] at h htrim ⊢
  exact separator_not_infix hcomma htrim h

/-! ## Counting -/

theorem length_le_length_flatMap {α β : Type} {expand : α → List β} {items : List α}
    (h : ∀ item ∈ items, expand item ≠ []) : items.length ≤ (items.flatMap expand).length := by
  induction items with
  | nil => exact Nat.zero_le _
  | cons item rest ih =>
      have hitem := List.length_pos_iff.2 (h item List.mem_cons_self)
      have hrest := ih fun other hother => h other (List.mem_cons_of_mem _ hother)
      rw [List.flatMap_cons, List.length_append, List.length_cons]
      omega

/-- When every item expands to something and the expansions pair up with the items, every item
expands to its own partner. -/
theorem eq_singleton_of_forall₂_flatMap {α β : Type} {expand : α → List β} {related : β → α → Prop}
    {items : List α} (hne : ∀ item ∈ items, expand item ≠ [])
    (h : List.Forall₂ related (items.flatMap expand) items) :
    ∀ item ∈ items, ∃ partner, expand item = [partner] ∧ related partner item := by
  induction items with
  | nil => exact fun _ hnil => absurd hnil List.not_mem_nil
  | cons item rest ih =>
      have hrest := fun other hother => hne other (List.mem_cons_of_mem _ hother)
      have hlength := h.length_eq
      have hle := length_le_length_flatMap hrest
      have hpos := List.length_pos_iff.2 (hne item List.mem_cons_self)
      rw [List.flatMap_cons, List.length_append, List.length_cons] at hlength
      -- the others need a partner each, so only one is left for the first item
      have hone : (expand item).length = 1 := by omega
      obtain ⟨partner, hpartner⟩ := List.length_eq_one_iff.1 hone
      rw [List.flatMap_cons, hpartner, List.singleton_append, List.forall₂_cons] at h
      exact List.forall_mem_cons.2 ⟨⟨partner, hpartner, h.1⟩, ih hrest h.2⟩

/-- The script of a list of commands reads back as the list exactly when each command is well formed
and canonical and its line holds no separator. -/
theorem read_render_eq_ok_iff {commands : List Command} :
    (read (render commands)).outcome = .ok commands ↔
      ∀ command ∈ commands, command.IsWellFormed ∧ command.IsCanonical ∧
        ¬ separator <:+: command.scriptLine := by
  rw [read, readLines_outcome_eq_ok_iff, lines_render]
  constructor
  · -- a command with two lines would leave a line too many
    intro h command hcommand
    obtain ⟨text, htext, hread⟩ := eq_singleton_of_forall₂_flatMap
      (fun other _ => lines_scriptLine_ne_nil other) h command hcommand
    obtain ⟨hformed, hcanonical⟩ := Command.isCanonical_of_ofLine hread
    exact ⟨hformed, hcanonical, separator_not_infix_scriptLine hformed hcanonical htext⟩
  · intro h
    induction commands with
    | nil => exact List.Forall₂.nil
    | cons command rest ih =>
        obtain ⟨⟨hformed, hcanonical, hseparator⟩, hrest⟩ := List.forall_mem_cons.1 h
        rw [List.flatMap_cons, lines_scriptLine_eq_singleton hformed hcanonical hseparator]
        exact List.Forall₂.cons (Command.ofLine_scriptLine hformed hcanonical) (ih hrest)

/-! ## Built scripts -/

namespace Builder

/-- A builder yields commands exactly when they are the outcomes of its calls, one by one. -/
theorem build_outcome_eq_ok_iff {calls : List (Checked Command)} {commands : List Command} :
    (ofCalls calls).build.outcome = .ok commands ↔
      calls.map Checked.outcome = commands.map .ok := by
  rw [build_outcome, settled_eq_ok_iff, leading_eq_none_iff]

/-- The script of a builder that holds commands is the script of the commands. -/
theorem script_outcome {builder : Builder} {commands : List Command}
    (h : builder.build.outcome = .ok commands) : builder.script.outcome = .ok (render commands) := by
  rw [script, Checked.outcome_bind_eq_ok_iff]
  exact ⟨commands, h, rfl⟩

/-- Calls that construct commands build well-formed canonical commands. -/
theorem isCanonical_of_build {calls : List Command} {commands : List Command}
    (h : (ofCalls (calls.map Command.remake)).build.outcome = .ok commands) :
    ∀ command ∈ commands, command.IsWellFormed ∧ command.IsCanonical := by
  intro command hcommand
  -- the command is the outcome of one of the calls
  have houtcome : .ok command ∈ (calls.map Command.remake).map Checked.outcome := by
    rw [build_outcome_eq_ok_iff.1 h]
    exact List.mem_map_of_mem hcommand
  rw [List.map_map] at houtcome
  obtain ⟨parts, -, hparts⟩ := List.mem_map.1 houtcome
  exact Command.isCanonical_of_remake hparts

end Builder

/-- **Reading scripts back.** The script of any list of commands reads back as the list exactly when
validation accepts each command, each is canonical, and no line holds the separator. Commands built
by calls meet the first two conditions, so a built script reads back exactly when no line holds the
separator. -/
theorem read_render :
    (∀ commands : List Command,
      (read (render commands)).outcome = .ok commands ↔
        ∀ command ∈ commands, command.validate.outcome = .ok () ∧ command.IsCanonical ∧
          ¬ separator <:+: command.scriptLine) ∧
    (∀ calls commands : List Command,
      (Builder.ofCalls (calls.map Command.remake)).build.outcome = .ok commands →
        (∀ command ∈ commands, command.validate.outcome = .ok () ∧ command.IsCanonical) ∧
        ∃ script, (Builder.ofCalls (calls.map Command.remake)).script.outcome = .ok script ∧
          ((read script).outcome = .ok commands ↔
            ∀ command ∈ commands, ¬ separator <:+: command.scriptLine)) := by
  simp only [Command.validate_outcome_eq_ok_iff]
  refine ⟨fun commands => read_render_eq_ok_iff, ?_⟩
  intro calls commands hbuild
  have hcanonical := Builder.isCanonical_of_build hbuild
  refine ⟨hcanonical, render commands, Builder.script_outcome hbuild, ?_⟩
  rw [read_render_eq_ok_iff]
  constructor
  · intro h command hcommand
    exact (h command hcommand).2.2
  · intro h command hcommand
    obtain ⟨hformed, hcommandCanonical⟩ := hcanonical command hcommand
    exact ⟨hformed, hcommandCanonical, h command hcommand⟩

/-- A built script reads back, and the same calls with a comma and a space in the text of a message
build a script that does not. -/
theorem read_render_coffee :
    let calls (text : Text) : List Command :=
      [.object "message".toList (" msg ".toList ++ text), .object "printer".toList "print".toList,
        .connect ⟨"message".toList, 0, "printer".toList, 0⟩, .reset]
    let commands (text : Text) : List Command :=
      [.message "message".toList text, .object "printer".toList "print".toList,
        .connect ⟨"message".toList, 0, "printer".toList, 0⟩, .reset]
    (∃ script,
      (Builder.ofCalls ((calls "coffee".toList).map Command.remake)).script.outcome = .ok script ∧
        (read script).outcome = .ok (commands "coffee".toList)) ∧
    (∃ script,
      (Builder.ofCalls ((calls "tea, reset".toList).map Command.remake)).script.outcome =
          .ok script ∧
        (read script).outcome ≠ .ok (commands "tea, reset".toList)) := by
  intro calls commands
  have hplain : (Builder.ofCalls ((calls "coffee".toList).map Command.remake)).build.outcome =
      .ok (commands "coffee".toList) := rfl
  have hcomma : (Builder.ofCalls ((calls "tea, reset".toList).map Command.remake)).build.outcome =
      .ok (commands "tea, reset".toList) := rfl
  obtain ⟨-, script, hscript, hread⟩ := read_render.2 _ _ hplain
  obtain ⟨-, script', hscript', hread'⟩ := read_render.2 _ _ hcomma
  refine ⟨⟨script, hscript, hread.2 ?_⟩, ⟨script', hscript', fun h => ?_⟩⟩
  · decide +kernel
  · have hseparator := hread'.1 h (.message "message".toList "tea, reset".toList) List.mem_cons_self
    exact hseparator ⟨"msg message tea".toList, "reset".toList, rfl⟩

end DynamicPatching.Script

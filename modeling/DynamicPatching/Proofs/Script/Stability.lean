import DynamicPatching.Proofs.Command.Grammar
import DynamicPatching.Proofs.Script.ReadBack

/-!
# Scripts of commands that were read

A line of a script holds no separator, and most commands render no separator that their line did not
hold: the key and the free text behind it are cut at a space, so joining them with a space restores
what stood between them. The ends of a connection are cut at any blank, and may be followed by an
index that the line left out, so a key that ends in a comma renders a separator
(`separator_infix_scriptLine_iff`). A script that was read therefore reads back from the script of
its commands exactly when it holds no such key (`read_render_of_read`).
-/

namespace DynamicPatching

/-! ## Keys that end in a comma -/

/-- One of the two keys ends in a comma. -/
def Connection.EndsKeyInComma (connection : Connection) : Prop :=
  connection.outletKey.getLast? = some ',' ∨ connection.inletKey.getLast? = some ','

/-- The command makes or removes a connection, one of whose keys ends in a comma. -/
def Command.EndsKeyInComma : Command → Prop
  | .connect connection => connection.EndsKeyInComma
  | .disconnect connection => connection.EndsKeyInComma
  | .object _ _ | .message _ _ | .floatAtom _ _ | .symbolAtom _ _ | .delete _ | .target _
  | .send _ _ | .loadbang | .reset => False

instance (connection : Connection) : Decidable connection.EndsKeyInComma :=
  inferInstanceAs (Decidable (connection.outletKey.getLast? = some ','
    ∨ connection.inletKey.getLast? = some ','))

instance : (command : Command) → Decidable command.EndsKeyInComma
  | .connect connection => inferInstanceAs (Decidable connection.EndsKeyInComma)
  | .disconnect connection => inferInstanceAs (Decidable connection.EndsKeyInComma)
  | .object _ _ | .message _ _ | .floatAtom _ _ | .symbolAtom _ _ | .delete _ | .target _
  | .send _ _ | .loadbang | .reset => .isFalse id

namespace Script

variable {rest key text : Text} {keyword : Keyword} {command : Command}

/-! ## Separators in joined texts -/

/-- A separator in two texts with a space between them lies in one of them, or consists of a comma
that ends the first and the space. -/
theorem separator_infix_append_space_iff {left right : Text} :
    separator <:+: left ++ ' ' :: right ↔
      separator <:+: left ∨ left.getLast? = some ',' ∨ separator <:+: right := by
  induction left with
  | nil =>
      have hspace : ¬ separator <+: ' ' :: right := by
        rw [separator_prefix_iff]
        rintro ⟨hcomma, -⟩
        exact absurd hcomma (by decide)
      have hne : separator ≠ [] := by decide
      simp [List.infix_cons_iff, hspace, hne]
  | cons c tail ih =>
      rw [List.cons_append, List.infix_cons_iff, List.infix_cons_iff, ih, separator_prefix_iff,
        separator_prefix_iff]
      cases tail with
      | nil =>
          have hne : separator ≠ [] := by decide
          simp [hne]
      | cons d others => simp [or_assoc]

/-- A word holds no separator. -/
theorem separator_not_infix_of_space {word : Text} (h : ' ' ∉ word) : ¬ separator <:+: word := by
  intro hinside
  exact h (hinside.subset (by decide))

/-- Cutting a text at its first space and trimming makes no separator, and what stood in front of
the space does not end in a comma. -/
theorem separator_of_splitFirst (hsplit : Text.splitFirst rest = (key, text))
    (h : ¬ separator <:+: rest) :
    ¬ separator <:+: text ∧ (text ≠ [] → key.getLast? ≠ some ',') := by
  obtain ⟨rfl, rfl⟩ := Prod.mk.inj hsplit
  by_cases hspace : ' ' ∈ rest
  · rw [← Text.beforeSpace_append_afterSpace hspace, separator_infix_append_space_iff, not_or,
      not_or] at h
    obtain ⟨-, hcomma, hafter⟩ := h
    exact ⟨fun hinside => hafter (hinside.trans (Text.trim_infix _)), fun _ => hcomma⟩
  · rw [Text.afterSpace_eq_nil hspace]
    exact ⟨by decide, fun hne => absurd Text.trim_nil hne⟩

theorem separator_not_infix_pair (hkey : ' ' ∉ key) (hcomma : key.getLast? ≠ some ',')
    (htext : ¬ separator <:+: text) : ¬ separator <:+: Text.spaced [key, text] := by
  rw [Text.spaced_cons_cons, Text.spaced_singleton, separator_infix_append_space_iff]
  rintro (hinside | hlast | hinside)
  · exact separator_not_infix_of_space hkey hinside
  · exact hcomma hlast
  · exact htext hinside

/-- A key and the free text behind it render no separator that they were not cut from. -/
theorem separator_not_infix_operands (hsplit : Text.splitFirst rest = (key, text))
    (h : ¬ separator <:+: rest) :
    ¬ separator <:+: Text.spaced (key :: Command.optionalOperand text) := by
  have hkey : ' ' ∉ key := Command.space_notMem_of_splitFirst hsplit
  obtain ⟨htext, hcomma⟩ := separator_of_splitFirst hsplit h
  rw [Command.optionalOperand]
  split
  · rw [Text.spaced_singleton]
    exact separator_not_infix_of_space hkey
  · exact separator_not_infix_pair hkey (hcomma ‹_›) htext

/-! ## Separators in connections -/

/-- The operands of a connection hold a separator exactly when a key ends in a comma. -/
theorem separator_infix_connectionOperands_iff {connection : Connection}
    (h : connection.outletKey.IsName ∧ connection.inletKey.IsName) :
    separator <:+: Text.spaced (Command.connectionOperands connection) ↔
      connection.EndsKeyInComma := by
  have hdecimal (n : Nat) :
      ¬ separator <:+: Text.decimal n ∧ (Text.decimal n).getLast? ≠ some ',' := by
    refine ⟨separator_not_infix_of_space (Text.isWord_decimal n).space_notMem, fun hlast => ?_⟩
    have hdigit := Text.isDigit_of_mem_decimal (List.mem_of_getLast? hlast)
    exact absurd hdigit (by decide)
  simp only [Command.connectionOperands, Text.spaced_cons_cons, Text.spaced_singleton,
    separator_infix_append_space_iff, Connection.EndsKeyInComma, hdecimal,
    separator_not_infix_of_space h.1.isWord.space_notMem,
    separator_not_infix_of_space h.2.isWord.space_notMem, false_or, or_false]

/-! ## Separators in commands that were read -/

/-- The operands of a command that was read hold a separator exactly when it joins or parts two
boxes by a key that ends in a comma. -/
theorem separator_infix_operands_iff (hwritten : Command.Written keyword rest command)
    (h : ¬ separator <:+: rest) :
    separator <:+: Text.spaced command.operands ↔ command.EndsKeyInComma := by
  have hnil : ¬ separator <:+: Text.spaced [] := by decide
  induction hwritten with
  | @object rest key definition hsplit _ hne _ =>
      obtain ⟨htext, hcomma⟩ := separator_of_splitFirst hsplit h
      have hkey : ' ' ∉ key := Command.space_notMem_of_splitFirst hsplit
      exact iff_of_false (separator_not_infix_pair hkey (hcomma hne) htext) id
  | @box rest key definition text keyword command hsplit hdefinition _ _ ih =>
      obtain ⟨hbox, hcomma⟩ := separator_of_splitFirst hsplit h
      have hne : definition ≠ [] := Command.ne_nil_of_splitFirst hdefinition
      have hkey : ' ' ∉ key := Command.space_notMem_of_splitFirst hsplit
      exact ih (separator_not_infix_pair hkey (hcomma hne) (separator_of_splitFirst hdefinition hbox).1)
  | message hsplit => exact iff_of_false (separator_not_infix_operands hsplit h) id
  | floatAtom hsplit => exact iff_of_false (separator_not_infix_operands hsplit h) id
  | symbolAtom hsplit => exact iff_of_false (separator_not_infix_operands hsplit h) id
  | send hsplit => exact iff_of_false (separator_not_infix_operands hsplit h) id
  | @delete key =>
      rw [Command.operands, Text.spaced_singleton]
      exact iff_of_false h id
  | @target subpatch =>
      rw [Command.operands, Text.spaced_singleton]
      exact iff_of_false h id
  | connect hconnection =>
      exact separator_infix_connectionOperands_iff
        (Command.isWellFormed_of_written (.connect hconnection))
  | disconnect hconnection =>
      exact separator_infix_connectionOperands_iff
        (Command.isWellFormed_of_written (.disconnect hconnection))
  | loadbang => exact iff_of_false hnil id
  | reset => exact iff_of_false hnil id

/-- The line of a command that was read from a line without a separator holds one exactly when the
command joins or parts two boxes by a key that ends in a comma. -/
theorem separator_infix_scriptLine_iff {line : Text}
    (hread : (Command.ofLine line).outcome = .ok command) (h : ¬ separator <:+: line) :
    separator <:+: command.scriptLine ↔ command.EndsKeyInComma := by
  obtain ⟨keyword, rest, hline, hwritten⟩ := Command.written_of_ofLine hread
  have htrim : ¬ separator <:+: Text.trim line := fun hinside =>
    h (hinside.trans (Text.trim_infix line))
  have hoperands := separator_infix_operands_iff hwritten (separator_of_splitFirst hline htrim).1
  have hword : ¬ separator <:+: command.keyword.word :=
    separator_not_infix_of_space command.keyword.word_isName.isWord.space_notMem
  have hlast : command.keyword.word.getLast? ≠ some ',' := by
    cases command.keyword <;> decide
  rw [← hoperands, Command.scriptLine]
  by_cases hempty : command.operands = []
  · rw [hempty, Text.spaced_singleton]
    exact iff_of_false hword (by decide)
  · rw [Text.spaced_cons _ hempty, separator_infix_append_space_iff]
    simp [hword, hlast]

/-- **Reading, rendering and reading again is stable exactly without keys that end in a comma.** A
script that was read reads back from the script of its commands exactly when no connection among
them has such a key, and no other command renders a line with a separator in it. -/
theorem read_render_of_read (script : Text) (commands : List Command)
    (h : (read script).outcome = .ok commands) :
    ((read (render commands)).outcome = .ok commands ↔
        ∀ command ∈ commands, ¬ command.EndsKeyInComma) ∧
      ∀ command ∈ commands, separator <:+: command.scriptLine ↔ command.EndsKeyInComma := by
  -- every command was read from one of the lines
  have hread : ∀ command ∈ commands, ∃ line,
      (Command.ofLine line).outcome = .ok command ∧ ¬ separator <:+: line := by
    intro command hcommand
    obtain ⟨line, hline, hread⟩ := exists_line_of_readLines h command hcommand
    exact ⟨line, hread, separator_not_infix_line hline⟩
  have hseparator : ∀ command ∈ commands,
      separator <:+: command.scriptLine ↔ command.EndsKeyInComma := by
    intro command hcommand
    obtain ⟨line, hline, hnone⟩ := hread command hcommand
    exact separator_infix_scriptLine_iff hline hnone
  refine ⟨?_, hseparator⟩
  rw [read_render_eq_ok_iff]
  apply forall₂_congr
  intro command hcommand
  obtain ⟨line, hline, -⟩ := hread command hcommand
  obtain ⟨hformed, hcanonical⟩ := Command.isCanonical_of_ofLine hline
  simp [hformed, hcanonical, hseparator command hcommand]

/-- A script of free texts reads back, and one whose key ends in a comma does not. -/
theorem read_render_of_read_comma :
    let texts : Text := "obj a msg one,two, connect a b, msg b 1\t,".toList
    let keys : Text := "connect a b,".toList
    (∃ commands, (read texts).outcome = .ok commands ∧
        (read (render commands)).outcome = .ok commands) ∧
      ∃ commands, (read keys).outcome = .ok commands ∧
        (read (render commands)).outcome ≠ .ok commands := by
  intro texts keys
  have htexts : (read texts).outcome = .ok [.message "a".toList "one,two".toList,
      .connect ⟨"a".toList, 0, "b".toList, 0⟩, .message "b".toList "1\t,".toList] := rfl
  have hkeys : (read keys).outcome = .ok [.connect ⟨"a".toList, 0, "b,".toList, 0⟩] := rfl
  refine ⟨⟨_, htexts, (read_render_of_read _ _ htexts).1.2 ?_⟩, ⟨_, hkeys, fun hread => ?_⟩⟩
  · decide
  · exact (read_render_of_read _ _ hkeys).1.1 hread _ List.mem_cons_self (.inr rfl)

end Script

end DynamicPatching

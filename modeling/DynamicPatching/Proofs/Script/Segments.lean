import DynamicPatching.Script.Basic
import DynamicPatching.Proofs.Text.Cutting

/-!
# Laws of segments and lines

The separator has two different characters, so two of its occurrences never overlap, and joining two
texts with a separator joins their segments (`segments_append`) and their lines (`lines_append`). A
text without the separator is one segment (`segments_eq_singleton`). A character that is not blank
survives cutting and trimming unless it is the comma of a separator (`lines_ne_nil`): this is what
makes the number of lines count the texts that were joined.
-/

namespace DynamicPatching.Script

/-! ## Segments -/

theorem separator_prefix_iff {c : Char} {rest : Text} :
    separator <+: c :: rest ↔ c = ',' ∧ ∃ others, rest = ' ' :: others := by
  have hseparator : separator = [',', ' '] := rfl
  rw [hseparator, List.cons_prefix_cons, eq_comm]
  apply and_congr_right
  intro _
  constructor
  · rintro ⟨others, rfl⟩
    exact ⟨others, rfl⟩
  · rintro ⟨others, rfl⟩
    exact ⟨others, rfl⟩

/-- The condition on the last equation of `segments`. -/
theorem not_separator_prefix_cons {c : Char} {rest : Text}
    (h : ∀ others, c = ',' → rest = ' ' :: others → False) : ¬ separator <+: c :: rest := by
  intro hbegins
  obtain ⟨hc, others, hrest⟩ := separator_prefix_iff.1 hbegins
  exact h others hc hrest

/-- A character that begins no separator belongs to the first segment. -/
theorem segments_cons {c : Char} {rest : Text} (h : ¬ separator <+: c :: rest) :
    segments (c :: rest) = (segments rest).modifyHead (c :: ·) := by
  rw [segments]
  intro others hc hrest
  exact h (separator_prefix_iff.2 ⟨hc, others, hrest⟩)

theorem segments_ne_nil (script : Text) : segments script ≠ [] := by
  induction script using segments.induct with
  | case1 => exact List.cons_ne_nil _ _
  | case2 rest ih => exact List.cons_ne_nil _ _
  | case3 c rest hseparator ih =>
      rw [segments_cons (not_separator_prefix_cons hseparator)]
      simpa using ih

/-- **A separator divides the segments.** -/
theorem segments_append (left right : Text) :
    segments (left ++ separator ++ right) = segments left ++ segments right := by
  induction left using segments.induct with
  | case1 => rfl
  | case2 rest ih => exact congrArg (List.cons []) ih
  | case3 c rest hseparator ih =>
      have hbegins : ¬ separator <+: c :: rest := not_separator_prefix_cons hseparator
      -- the text begins no separator behind `c`, and neither does the separator itself
      have hbegins' : ¬ separator <+: c :: (rest ++ separator ++ right) := by
        rw [separator_prefix_iff]
        rintro ⟨hc, others, hrest⟩
        cases rest with
        | nil => cases hrest
        | cons d tail =>
            obtain ⟨rfl, -⟩ := List.cons.inj hrest
            exact hbegins (separator_prefix_iff.2 ⟨hc, tail, rfl⟩)
      rw [List.cons_append, List.cons_append, segments_cons hbegins', ih, segments_cons hbegins]
      cases hsegments : segments rest with
      | nil => exact absurd hsegments (segments_ne_nil rest)
      | cons segment others => rfl

/-- A text without the separator is one segment. -/
theorem segments_eq_singleton {script : Text} (h : ¬ separator <:+: script) :
    segments script = [script] := by
  induction script with
  | nil => rfl
  | cons c rest ih =>
      have hbegins : ¬ separator <+: c :: rest := fun hc => h hc.isInfix
      have hrest : ¬ separator <:+: rest := fun hc => h (hc.trans (List.suffix_cons c rest).isInfix)
      rw [segments_cons hbegins, ih hrest]
      rfl

theorem segments_head_prefix {script segment : Text} {others : List Text}
    (h : segments script = segment :: others) : segment <+: script := by
  induction script using segments.induct generalizing segment others with
  | case1 =>
      obtain ⟨rfl, -⟩ := List.cons.inj h
      exact List.prefix_rfl
  | case2 rest ih =>
      obtain ⟨rfl, -⟩ := List.cons.inj h
      exact List.nil_prefix
  | case3 c rest hseparator ih =>
      rw [segments_cons (not_separator_prefix_cons hseparator)] at h
      cases hsegments : segments rest with
      | nil => exact absurd hsegments (segments_ne_nil rest)
      | cons first tail =>
          rw [hsegments, List.modifyHead_cons] at h
          obtain ⟨rfl, -⟩ := List.cons.inj h
          exact (List.prefix_cons_inj c).2 (ih hsegments)

/-- No segment holds the separator. -/
theorem separator_not_infix_segment (script : Text) :
    ∀ segment ∈ segments script, ¬ separator <:+: segment := by
  have hnil : ¬ separator <:+: [] := by decide
  induction script using segments.induct with
  | case1 => exact List.forall_mem_singleton.2 hnil
  | case2 rest ih => exact List.forall_mem_cons.2 ⟨hnil, ih⟩
  | case3 c rest hseparator ih =>
      have hbegins : ¬ separator <+: c :: rest := not_separator_prefix_cons hseparator
      rw [segments_cons hbegins]
      cases hsegments : segments rest with
      | nil => exact absurd hsegments (segments_ne_nil rest)
      | cons first others =>
          rw [hsegments, List.forall_mem_cons] at ih
          rw [List.modifyHead_cons]
          refine List.forall_mem_cons.2 ⟨?_, ih.2⟩
          rw [List.infix_cons_iff]
          rintro (hfront | hinside)
          · -- the first segment begins as the text does
            have hfirst : first <+: rest := segments_head_prefix hsegments
            exact hbegins (hfront.trans ((List.prefix_cons_inj c).2 hfirst))
          · exact ih.1 hinside

/-- A character that is not blank and begins no separator lies in a segment. -/
theorem exists_segment {left right : Text} {c : Char} (hblank : Text.isBlank c = false)
    (hbegins : ¬ separator <+: c :: right) :
    ∃ segment ∈ segments (left ++ c :: right), c ∈ segment := by
  induction left using segments.induct with
  | case1 =>
      rw [List.nil_append, segments_cons hbegins]
      cases hsegments : segments right with
      | nil => exact absurd hsegments (segments_ne_nil right)
      | cons segment others => exact ⟨c :: segment, List.mem_cons_self, List.mem_cons_self⟩
  | case2 rest ih =>
      obtain ⟨segment, hsegment, hc⟩ := ih
      exact ⟨segment, List.mem_cons_of_mem _ hsegment, hc⟩
  | case3 d rest hseparator ih =>
      obtain ⟨segment, hsegment, hc⟩ := ih
      -- the character is not blank, so it is not the space of a separator begun by `d`
      have hd : ¬ separator <+: d :: (rest ++ c :: right) := by
        rw [separator_prefix_iff]
        rintro ⟨hd, others, hrest⟩
        cases rest with
        | nil =>
            obtain ⟨rfl, -⟩ := List.cons.inj hrest
            exact absurd hblank (by decide)
        | cons e tail =>
            obtain ⟨rfl, -⟩ := List.cons.inj hrest
            exact hseparator tail hd rfl
      rw [List.cons_append, segments_cons hd]
      cases hsegments : segments (rest ++ c :: right) with
      | nil => exact absurd hsegments (segments_ne_nil _)
      | cons first others =>
          rw [hsegments] at hsegment
          rw [List.modifyHead_cons]
          rcases List.mem_cons.1 hsegment with rfl | hothers
          · exact ⟨d :: segment, List.mem_cons_self, List.mem_cons_of_mem _ hc⟩
          · exact ⟨segment, List.mem_cons_of_mem _ hothers, hc⟩

/-! ## Lines -/

theorem lines_append (left right : Text) :
    lines (left ++ separator ++ right) = lines left ++ lines right := by
  simp only [lines, segments_append, List.map_append, List.filter_append]

/-- No line holds the separator. -/
theorem separator_not_infix_line {script line : Text} (h : line ∈ lines script) :
    ¬ separator <:+: line := by
  obtain ⟨segment, hsegment, rfl⟩ := List.mem_map.1 (List.mem_filter.1 h).1
  intro hinside
  exact separator_not_infix_segment script segment hsegment (hinside.trans (Text.trim_infix segment))

/-- A trimmed text without the separator is one line. -/
theorem lines_eq_singleton {text : Text} (hne : text ≠ []) (htrim : Text.trim text = text)
    (h : ¬ separator <:+: text) : lines text = [text] := by
  simp [lines, segments_eq_singleton h, htrim, hne]

/-- A text with a character that is not blank and begins no separator has a line. -/
theorem lines_ne_nil {left right : Text} {c : Char} (hblank : Text.isBlank c = false)
    (hbegins : ¬ separator <+: c :: right) : lines (left ++ c :: right) ≠ [] := by
  obtain ⟨segment, hsegment, hc⟩ := exists_segment hblank hbegins
  have htrim : Text.trim segment ≠ [] := Text.trim_ne_nil hc hblank
  refine List.ne_nil_of_mem (List.mem_filter.2 ⟨List.mem_map_of_mem hsegment, ?_⟩)
  simpa using htrim

/-- A trimmed text that begins with no comma and has a single line holds no separator: its first
character would lie in a line before the separator, and its last one in a line behind it. -/
theorem separator_not_infix {c : Char} {rest line : Text} (hcomma : c ≠ ',')
    (htrim : Text.trim (c :: rest) = c :: rest) (h : lines (c :: rest) = [line]) :
    ¬ separator <:+: c :: rest := by
  rintro ⟨left, right, htext⟩
  obtain ⟨hfirst, hlast⟩ := Text.trim_eq_self_iff.1 htrim (List.cons_ne_nil c rest)
  have hleft : lines left ≠ [] := by
    cases left with
    | nil =>
        obtain ⟨hc, -⟩ := List.cons.inj htext
        exact absurd hc.symm hcomma
    | cons d others =>
        obtain ⟨rfl, -⟩ := List.cons.inj htext
        apply @lines_ne_nil [] others d hfirst
        intro hbegins
        exact hcomma (separator_prefix_iff.1 hbegins).1
  have hright : lines right ≠ [] := by
    have hend : ∀ d, (left ++ separator ++ right).getLast? = some d → Text.isBlank d = false := by
      intro d hd
      rw [htext, List.getLast?_eq_some_getLast (List.cons_ne_nil c rest)] at hd
      obtain rfl := Option.some.inj hd
      exact hlast
    rcases List.eq_nil_or_concat' right with rfl | ⟨others, d, rfl⟩
    · -- the text would end with the space of the separator
      have hspace : Text.isBlank ' ' = false := by
        apply hend
        rw [List.append_nil, List.getLast?_append]
        rfl
      exact absurd hspace (by decide)
    · have hd : Text.isBlank d = false := hend d (by simp)
      apply lines_ne_nil hd
      intro hbegins
      obtain ⟨-, others, hnil⟩ := separator_prefix_iff.1 hbegins
      cases hnil
  rw [← htext, lines_append] at h
  have hlength := congrArg List.length h
  rw [List.length_append, List.length_singleton] at hlength
  have hleft' := List.length_pos_iff.2 hleft
  have hright' := List.length_pos_iff.2 hright
  omega

end DynamicPatching.Script

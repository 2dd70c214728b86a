import DynamicPatching.Single.Decimal
import DynamicPatching.Proofs.Text.Decimal

/-!
# Reading literals by their grammar

A text is read as a literal exactly when it is written as that literal (`read?_eq_some_iff`). So the
parts of a literal are determined by its text.

The two directions follow the grammar. The reader takes the longest row of digits it finds, and no part
of a literal begins like the one in front of it goes on: the digits begin with no sign, and an exponent
with no digit and no point.
-/

namespace DynamicPatching

namespace Literal

variable {text sign digits rest whole fraction exponentText : Text} {negative : Bool}
  {exponent : Int} {literal : Literal}

/-! ## Written parts are read -/

theorem WrittenSign.readSign_append (h : WrittenSign sign negative)
    (hrest : ∀ c ∈ rest.head?, c ≠ '-' ∧ c ≠ '+') : readSign (sign ++ rest) = (negative, rest) := by
  cases h with
  | absent =>
      rw [List.nil_append, readSign.eq_def]
      split
      · exact absurd rfl (hrest '-' (by simp)).1
      · exact absurd rfl (hrest '+' (by simp)).2
      · rfl
  | plus => rfl
  | minus => rfl

theorem not_sign_of_isDigit {c : Char} (h : c.isDigit = true) : c ≠ '-' ∧ c ≠ '+' := by
  constructor
  · rintro rfl
    exact absurd h (by decide)
  · rintro rfl
    exact absurd h (by decide)

/-- A row of digits, whatever follows it, begins with no sign. -/
theorem not_sign_of_isDigits (h : Text.isDigits digits = true) (rest : Text) :
    ∀ c ∈ (digits ++ rest).head?, c ≠ '-' ∧ c ≠ '+' := by
  obtain ⟨hne, hall⟩ := Text.isDigits_iff.1 h
  intro c hc
  rw [List.head?_append_of_ne_nil _ hne] at hc
  exact not_sign_of_isDigit (hall c (List.mem_of_mem_head? hc))

theorem WrittenDigits.not_sign (h : WrittenDigits digits whole fraction) (rest : Text) :
    ∀ c ∈ (digits ++ rest).head?, c ≠ '-' ∧ c ≠ '+' := by
  cases h with
  | whole hwhole => exact not_sign_of_isDigits hwhole rest
  | point hwhole _ =>
      rw [List.append_assoc]
      exact not_sign_of_isDigits hwhole _
  | fraction _ =>
      intro c hc
      obtain rfl : '.' = c := by simpa using hc
      decide

/-- Neither the digits nor the point go on with an exponent. -/
theorem WrittenExponent.head (h : WrittenExponent exponentText exponent) :
    ∀ c ∈ exponentText.head?, c.isDigit = false ∧ c ≠ '.' := by
  cases h with
  | absent => simp
  | marked hmark _ _ =>
      rintro c hc
      obtain rfl := Option.some.inj hc
      rcases hmark with rfl | rfl <;> decide

theorem readFraction_of_head (h : ∀ c ∈ rest.head?, c ≠ '.') : readFraction rest = ([], rest) := by
  rw [readFraction.eq_def]
  split
  · exact absurd rfl (h '.' (by simp))
  · rfl

theorem WrittenDigits.read (h : WrittenDigits digits whole fraction)
    (hrest : ∀ c ∈ rest.head?, c.isDigit = false ∧ c ≠ '.') :
    (digits ++ rest).takeWhile Char.isDigit = whole ∧
      readFraction ((digits ++ rest).dropWhile Char.isDigit) = (fraction, rest) ∧
      (whole.isEmpty && fraction.isEmpty) = false := by
  have hdigit : ∀ c ∈ rest.head?, c.isDigit = false := fun c hc => (hrest c hc).1
  cases h with
  | whole hwhole =>
      obtain ⟨hne, hall⟩ := Text.isDigits_iff.1 hwhole
      rw [Text.takeWhile_digits_append hall hdigit, Text.dropWhile_digits_append hall hdigit]
      exact ⟨rfl, readFraction_of_head fun c hc => (hrest c hc).2, by simp [hne]⟩
  | point hwhole hfraction =>
      obtain ⟨hne, hall⟩ := Text.isDigits_iff.1 hwhole
      have hpoint : ∀ c ∈ ('.' :: fraction ++ rest).head?, c.isDigit = false := by
        intro c hc
        obtain rfl : '.' = c := by simpa using hc
        rfl
      rw [List.append_assoc, Text.takeWhile_digits_append hall hpoint,
        Text.dropWhile_digits_append hall hpoint, List.cons_append, readFraction,
        Text.takeWhile_digits_append hfraction hdigit, Text.dropWhile_digits_append hfraction hdigit]
      exact ⟨rfl, rfl, by simp [hne]⟩
  | fraction hfraction =>
      obtain ⟨hne, hall⟩ := Text.isDigits_iff.1 hfraction
      have hdrop : ('.' :: fraction ++ rest).dropWhile Char.isDigit = '.' :: (fraction ++ rest) := rfl
      rw [hdrop, readFraction, Text.takeWhile_digits_append hall hdigit,
        Text.dropWhile_digits_append hall hdigit]
      exact ⟨rfl, rfl, by simp [hne]⟩

theorem WrittenExponent.read (h : WrittenExponent exponentText exponent) :
    readExponent? exponentText = some exponent := by
  cases h with
  | absent => rfl
  | marked hmark hsign hdigits =>
      rename_i mark sign digits negative
      have hread : readSign (sign ++ digits) = (negative, digits) := by
        refine hsign.readSign_append ?_
        simpa using not_sign_of_isDigits hdigits []
      rw [readExponent?, if_pos hmark, hread]
      simp only [hdigits, if_true]

/-- What is written is read. -/
theorem read?_of_written (h : Written text literal) : read? text = some literal := by
  cases h with
  | parts hsign hdigits hexponent =>
      -- each part ends where the next one begins, so the reader cuts the text where it was joined
      obtain ⟨hwhole, hfraction, hne⟩ := hdigits.read hexponent.head
      rw [read?, hsign.readSign_append (hdigits.not_sign _)]
      dsimp only
      rw [hwhole, hfraction, hne, hexponent.read]
      rfl

/-! ## What is read is written -/

theorem exists_writtenSign (text : Text) :
    ∃ sign, WrittenSign sign (readSign text).1 ∧ sign ++ (readSign text).2 = text := by
  rw [readSign.eq_def]
  split
  · exact ⟨['-'], .minus, rfl⟩
  · exact ⟨['+'], .plus, rfl⟩
  · exact ⟨[], .absent, rfl⟩

theorem isDigits_takeWhile (h : text.takeWhile Char.isDigit ≠ []) :
    Text.isDigits (text.takeWhile Char.isDigit) = true :=
  Text.isDigits_iff.2 ⟨h, fun _ => List.mem_takeWhile_imp⟩

theorem exists_writtenDigits
    (h : ((text.takeWhile Char.isDigit).isEmpty &&
      (readFraction (text.dropWhile Char.isDigit)).1.isEmpty) = false) :
    ∃ digits, WrittenDigits digits (text.takeWhile Char.isDigit)
        (readFraction (text.dropWhile Char.isDigit)).1 ∧
      digits ++ (readFraction (text.dropWhile Char.isDigit)).2 = text := by
  have htext : text.takeWhile Char.isDigit ++ text.dropWhile Char.isDigit = text :=
    List.takeWhile_append_dropWhile
  generalize text.dropWhile Char.isDigit = tail at h htext ⊢
  by_cases hpoint : tail.head? = some '.'
  · obtain ⟨rest, rfl⟩ := List.head?_eq_some_iff.1 hpoint
    have hrest : rest.takeWhile Char.isDigit ++ rest.dropWhile Char.isDigit = rest :=
      List.takeWhile_append_dropWhile
    rw [readFraction] at h ⊢
    -- digits are needed behind the point only where there are none in front of it
    by_cases hwhole : text.takeWhile Char.isDigit = []
    · rw [hwhole] at htext h ⊢
      refine ⟨_, .fraction (isDigits_takeWhile (by simpa using h)), ?_⟩
      rw [List.cons_append, hrest]
      exact htext
    · refine ⟨_, .point (isDigits_takeWhile hwhole) fun _ => List.mem_takeWhile_imp, ?_⟩
      rw [List.append_assoc, List.cons_append, hrest]
      exact htext
  · rw [readFraction_of_head fun c hc => fun heq => hpoint (heq ▸ hc)] at h ⊢
    exact ⟨_, .whole (isDigits_takeWhile (by simpa using h)), htext⟩

theorem writtenExponent_of_read (h : readExponent? text = some exponent) :
    WrittenExponent text exponent := by
  cases text with
  | nil =>
      obtain rfl := Option.some.inj h
      exact .absent
  | cons mark rest =>
      rw [readExponent?] at h
      split at h
      · rename_i hmark
        obtain ⟨sign, hsign, hrest⟩ := exists_writtenSign rest
        dsimp only at h
        split at h
        · rename_i hdigits
          obtain rfl := Option.some.inj h
          have hwritten := WrittenExponent.marked hmark hsign hdigits
          rwa [hrest] at hwritten
        · cases h
      · cases h

/-- **A text is read as a literal exactly when it is written as that literal.** -/
theorem read?_eq_some_iff : read? text = some literal ↔ Written text literal := by
  refine ⟨fun h => ?_, read?_of_written⟩
  obtain ⟨sign, hsign, htext⟩ := exists_writtenSign text
  rw [read?] at h
  split at h
  · cases h
  · rename_i hne
    obtain ⟨exponent, hexponent, rfl⟩ := Option.map_eq_some_iff.1 h
    obtain ⟨digits, hdigits, hrest⟩ := exists_writtenDigits (by simpa using hne)
    have hwritten := Written.parts hsign hdigits (writtenExponent_of_read hexponent)
    rwa [hrest, htext] at hwritten

/-! ## Literals without exponent -/

/-- The sign in front of a number. -/
def signText (negative : Bool) : Text := if negative then ['-'] else []

theorem writtenSign_signText (negative : Bool) : WrittenSign (signText negative) negative := by
  cases negative with
  | true => exact .minus
  | false => exact .absent

/-- A sign and digits are a literal without exponent. -/
theorem read?_signed (hsign : WrittenSign sign negative)
    (hdigits : WrittenDigits digits whole fraction) :
    read? (sign ++ digits) = some ⟨negative, whole, fraction, 0⟩ := by
  have hwritten := Written.parts hsign hdigits .absent
  rw [List.append_nil] at hwritten
  exact read?_of_written hwritten

/-- A row of digits behind at most one plus sign is a literal without point and exponent. -/
theorem read?_of_isDigits (h : Text.isDigits (Text.dropPlus text) = true) :
    read? text = some ⟨false, Text.dropPlus text, [], 0⟩ := by
  obtain ⟨sign, hsign, htext⟩ : ∃ sign, WrittenSign sign false ∧ sign ++ Text.dropPlus text = text := by
    rw [Text.dropPlus.eq_def]
    split
    · exact ⟨['+'], .plus, rfl⟩
    · exact ⟨[], .absent, rfl⟩
  have hread := read?_signed hsign (.whole h)
  rwa [htext] at hread

/-- Digits with a hyphen behind them are no literal. -/
theorem read?_hyphen (h : Text.isDigits whole = true) (rest : Text) :
    read? (whole ++ '-' :: rest) = none := by
  have hsign : readSign (whole ++ '-' :: rest) = (false, whole ++ '-' :: rest) :=
    WrittenSign.absent.readSign_append (not_sign_of_isDigits h _)
  obtain ⟨hne, hall⟩ := Text.isDigits_iff.1 h
  have hhyphen : ∀ c ∈ ('-' :: rest).head?, c.isDigit = false := by
    intro c hc
    obtain rfl := Option.some.inj hc
    rfl
  rw [read?, hsign]
  dsimp only
  rw [Text.takeWhile_digits_append hall hhyphen, Text.dropWhile_digits_append hall hhyphen]
  simp [readFraction, readExponent?, hne]

end Literal

end DynamicPatching

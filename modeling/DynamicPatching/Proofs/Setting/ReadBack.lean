import DynamicPatching.Setting.Basic
import DynamicPatching.Proofs.Command.Connection
import DynamicPatching.Proofs.Single.ReadBack

/-!
# Reading setting values back

The text of a value does not say which variant it is of, so a value reads back only if the words of
its text decide for the same variant: a number that is finite, a symbol that is one word and no
number, or a list of two and more finite numbers (`IsReadable`). A list of one number reads back as
the number, an empty list has no text, and the texts of other numbers are symbols. Reading yields
readable values only, whatever the text, so these are exactly the values that are read
(`ofText_text`). A text is refused for one of two reasons, and the error names the text as it was
given.
-/

namespace DynamicPatching.SettingValue

variable {text : Text} {words : List Text} {value : SettingValue}

/-- The value is a finite number, a name, or a list of at least two finite numbers. -/
def IsReadable : SettingValue → Prop
  | .number value => value.isFinite = true
  | .symbol name => name.IsName
  | .list values => 2 ≤ values.length ∧ ∀ value ∈ values, value.isFinite = true

instance : DecidablePred IsReadable
  | .number value => inferInstanceAs (Decidable (value.isFinite = true))
  | .symbol name => inferInstanceAs (Decidable name.IsName)
  | .list values =>
      inferInstanceAs (Decidable (2 ≤ values.length ∧ ∀ value ∈ values, value.isFinite = true))

/-! ## Rows of numbers -/

/-- A row of words denotes the numbers that its words denote, one by one. -/
theorem numbers?_eq_some_iff {values : List Single} :
    numbers? words = some values ↔ words.map Text.number? = values.map some := by
  induction words generalizing values with
  | nil => cases values <;> simp [numbers?]
  | cons word rest ih =>
      cases values with
      | nil =>
          cases hword : Text.number? word <;> cases hrest : numbers? rest <;>
            simp [numbers?, hword, hrest]
      | cons value values =>
          rw [List.map_cons, List.map_cons, List.cons_eq_cons, ← ih]
          cases hword : Text.number? word <;> cases hrest : numbers? rest <;>
            simp [numbers?, hword, hrest]

/-- A row of words denotes no numbers exactly when one of them denotes none. -/
theorem numbers?_eq_none_iff :
    numbers? words = none ↔ ∃ word ∈ words, Text.isNumeric word = false := by
  induction words with
  | nil => simp [numbers?]
  | cons word rest ih =>
      rw [List.exists_mem_cons_iff, ← ih, Text.isNumeric]
      cases hword : Text.number? word <;> cases hrest : numbers? rest <;>
        simp [numbers?, hword, hrest]

theorem isFinite_of_numbers? {values : List Single} (h : numbers? words = some values) :
    ∀ value ∈ values, value.isFinite = true := by
  intro value hvalue
  have hmem : some value ∈ words.map Text.number? := by
    rw [numbers?_eq_some_iff.1 h]
    exact List.mem_map_of_mem hvalue
  obtain ⟨word, -, hnumber⟩ := List.mem_map.1 hmem
  exact Single.isFinite_of_number? hnumber

/-! ## Reading by the number of words -/

/-- Two and more words are a list or nothing. -/
theorem ofWords_of_two_le (h : 2 ≤ words.length) :
    ofWords text words =
      match numbers? words with
      | some values => .ok (.list values)
      | none => .error (.invalidSettingValue text .mixedList) := by
  match words, h with
  | _ :: _ :: _, _ => rfl

/-- Reading words yields readable values. -/
theorem isReadable_of_ofWords (hwords : ∀ word ∈ words, word.IsWord)
    (h : ofWords text words = .ok value) : value.IsReadable := by
  match words, h with
  | [], h => cases h
  | [word], h =>
      rw [ofWords] at h
      cases hnumber : Text.number? word with
      | some number =>
          rw [hnumber] at h
          obtain rfl := Except.ok.inj h
          exact Single.isFinite_of_number? hnumber
      | none =>
          rw [hnumber] at h
          obtain rfl := Except.ok.inj h
          have hword := hwords word List.mem_cons_self
          exact hword.isName_iff_isKey.2 (by simp [Text.IsKey, Text.isNumeric, hnumber])
  | first :: second :: rest, h =>
      rw [ofWords_of_two_le (by simp)] at h
      cases hnumbers : numbers? (first :: second :: rest) with
      | none =>
          rw [hnumbers] at h
          cases h
      | some values =>
          rw [hnumbers] at h
          obtain rfl := Except.ok.inj h
          have hlength := congrArg List.length (numbers?_eq_some_iff.1 hnumbers)
          refine ⟨?_, isFinite_of_numbers? hnumbers⟩
          simp only [List.length_map, List.length_cons] at hlength
          omega

/-! ## Reading the text of a value -/

/-- The words of the text of a list are the texts of its numbers. -/
theorem words_text_list (values : List Single) :
    Text.words (SettingValue.list values).text = values.map Single.text := by
  apply Text.words_spaced
  intro word hword
  obtain ⟨value, -, rfl⟩ := List.mem_map.1 hword
  exact (Single.isWord_text value).words_eq

/-- A readable value is what its text denotes. -/
theorem ofText_text_of_isReadable (h : value.IsReadable) : ofText value.text = .ok value := by
  cases value with
  | number value =>
      have hfinite : value.isFinite = true := h
      rw [ofText, SettingValue.text, (Single.isWord_text value).words_eq, ofWords,
        Single.number?_text hfinite]
  | symbol name =>
      obtain ⟨hne, hblank, hnumeric⟩ := h
      have hnone : Text.number? name = none := by simpa [Text.isNumeric] using hnumeric
      rw [ofText, SettingValue.text, (Text.isWord_of_any_eq_false hne hblank).words_eq, ofWords,
        hnone]
  | list values =>
      obtain ⟨hlength, hfinite⟩ := h
      have hnumbers : numbers? (values.map Single.text) = some values := by
        rw [numbers?_eq_some_iff, List.map_map]
        exact List.map_congr_left fun value hvalue => Single.number?_text (hfinite value hvalue)
      rw [ofText, words_text_list, ofWords_of_two_le (by simpa using hlength), hnumbers]

/-- Reading any text yields a readable value or none. -/
theorem isReadable_of_ofText (h : ofText text = .ok value) : value.IsReadable :=
  isReadable_of_ofWords (fun _ => Text.isWord_of_mem_words) h

/-! ## Refused texts -/

/-- The number of words decides how a text is refused. -/
theorem ofWords_eq_error_iff {error : Error} :
    ofWords text words = .error error ↔
      words = [] ∧ error = .invalidSettingValue text .empty ∨
      (2 ≤ words.length ∧ ∃ word ∈ words, Text.isNumeric word = false) ∧
        error = .invalidSettingValue text .mixedList := by
  match words with
  | [] => simp [ofWords, @eq_comm _ error]
  | [word] => cases hnumber : Text.number? word <;> simp [ofWords, hnumber]
  | first :: second :: rest =>
      rw [ofWords_of_two_le (by simp), ← numbers?_eq_none_iff]
      cases numbers? (first :: second :: rest) <;> simp [@eq_comm _ error]

/-- **Reading setting values back.** A value reads back from its text exactly when it is readable, and
the readable values are exactly those that some text denotes. Every other text is blank, or it is a
row of two and more words that are not all numbers; the error then says which, and it holds the text
as it was given. -/
theorem ofText_text :
    (∀ value : SettingValue, ofText value.text = .ok value ↔ value.IsReadable) ∧
    (∀ value : SettingValue, (∃ text, ofText text = .ok value) ↔ value.IsReadable) ∧
    (∀ (text : Text) (error : Error), ofText text = .error error ↔
      (∀ c ∈ text, Text.isBlank c = true) ∧ error = .invalidSettingValue text .empty ∨
      (2 ≤ (Text.words text).length ∧ ∃ word ∈ Text.words text, Text.isNumeric word = false) ∧
        error = .invalidSettingValue text .mixedList) := by
  refine ⟨fun value => ⟨isReadable_of_ofText, ofText_text_of_isReadable⟩, fun value => ⟨?_, ?_⟩,
    fun text error => ?_⟩
  · rintro ⟨text, h⟩
    exact isReadable_of_ofText h
  · intro h
    exact ⟨value.text, ofText_text_of_isReadable h⟩
  · rw [ofText, ofWords_eq_error_iff, Text.words_eq_nil_iff]

end DynamicPatching.SettingValue

import DynamicPatching.Atom
import DynamicPatching.Proofs.Single.ReadBack

/-!
# Reading atoms back

A list of atoms reads back from its wire text exactly when it is not empty and every atom in it is
what its own text denotes (`listOfText_textOfList`): a number that is finite, because the words for
the others are symbols, or a symbol that denotes no number and holds no space, because a space would
cut it. Reading yields only such lists, whatever the text, so a text that was read and written once
is never changed by reading and writing it again.
-/

namespace DynamicPatching.Atom

/-- The atom is a finite number, or a symbol without a space that denotes no number. -/
def IsReadable : Atom → Prop
  | .number value => value.isFinite = true
  | .symbol name => ' ' ∉ name ∧ Text.isNumeric name = false

/-! ## Single atoms -/

/-- A token that denotes no number is a symbol. -/
theorem ofToken_of_not_isNumeric {token : Text} (h : Text.isNumeric token = false) :
    ofToken token = .symbol token := by
  have hnone : Text.number? token = none := by simpa [Text.isNumeric] using h
  rw [ofToken, hnone]

/-- A readable atom is what its text denotes. -/
theorem ofToken_text {atom : Atom} (h : atom.IsReadable) : ofToken atom.text = atom := by
  cases atom with
  | number value =>
      have hfinite : value.isFinite = true := h
      rw [ofToken, text, Single.number?_text hfinite]
  | symbol name =>
      obtain ⟨-, hnumeric⟩ := h
      exact ofToken_of_not_isNumeric hnumeric

theorem space_notMem_text {atom : Atom} (h : atom.IsReadable) : ' ' ∉ atom.text := by
  cases atom with
  | number value => exact (Single.isWord_text value).space_notMem
  | symbol name => exact h.1

/-- A token without a space denotes a readable atom. -/
theorem isReadable_ofToken {token : Text} (h : ' ' ∉ token) : (ofToken token).IsReadable := by
  rw [ofToken]
  cases hnumber : Text.number? token with
  | some value => exact Single.isFinite_of_number? hnumber
  | none => exact ⟨h, by simp [Text.isNumeric, hnumber]⟩

/-! ## Lists of atoms -/

/-- A text without a space is one token. -/
theorem listOfText_token {token : Text} (h : ' ' ∉ token) : listOfText token = [ofToken token] := by
  rw [listOfText, Text.pieces_eq_singleton h, List.map_singleton]

/-- The atoms of joined texts are the atoms of the texts, in order. -/
theorem listOfText_spaced {texts : List Text} (h : texts ≠ []) :
    listOfText (Text.spaced texts) = texts.flatMap listOfText := by
  rw [listOfText, Text.pieces_spaced h, List.map_flatMap]
  rfl

theorem listOfText_ne_nil (text : Text) : listOfText text ≠ [] := by
  rw [listOfText, Ne, List.map_eq_nil_iff]
  exact Text.pieces_ne_nil text

/-- Reading yields readable atoms. -/
theorem isReadable_of_mem_listOfText {text : Text} {atom : Atom} (h : atom ∈ listOfText text) :
    atom.IsReadable := by
  obtain ⟨piece, hpiece, rfl⟩ := List.mem_map.1 h
  exact isReadable_ofToken (Text.space_notMem_of_mem_pieces hpiece)

/-- A list of readable atoms reads back from its text. -/
theorem listOfText_textOfList_of_isReadable {atoms : List Atom} (hne : atoms ≠ [])
    (h : ∀ atom ∈ atoms, atom.IsReadable) : listOfText (textOfList atoms) = atoms := by
  have hspace : ∀ piece ∈ atoms.map text, ' ' ∉ piece := by
    intro piece hpiece
    obtain ⟨atom, hatom, rfl⟩ := List.mem_map.1 hpiece
    exact space_notMem_text (h atom hatom)
  rw [listOfText, textOfList, Text.pieces_spaced_words (by simpa using hne) hspace, List.map_map]
  -- each piece is the text of its atom
  have hatoms : atoms.map (ofToken ∘ text) = atoms.map id :=
    List.map_congr_left fun atom hatom => ofToken_text (h atom hatom)
  rw [hatoms, List.map_id]

/-- **Reading atoms back.** A list of atoms reads back from its text exactly when it is not empty and
each atom is readable. Reading any text yields such a list, which therefore reads back. -/
theorem listOfText_textOfList :
    (∀ atoms : List Atom,
      listOfText (textOfList atoms) = atoms ↔ atoms ≠ [] ∧ ∀ atom ∈ atoms, atom.IsReadable) ∧
    (∀ text : Text, listOfText text ≠ [] ∧ ∀ atom ∈ listOfText text, atom.IsReadable) ∧
    (∀ text : Text, listOfText (textOfList (listOfText text)) = listOfText text) := by
  have hread : ∀ text : Text,
      listOfText text ≠ [] ∧ ∀ atom ∈ listOfText text, atom.IsReadable := by
    intro text
    exact ⟨listOfText_ne_nil text, fun atom => isReadable_of_mem_listOfText⟩
  refine ⟨?_, hread, ?_⟩
  · intro atoms
    constructor
    · intro h
      rw [← h]
      exact hread (textOfList atoms)
    · rintro ⟨hne, hreadable⟩
      exact listOfText_textOfList_of_isReadable hne hreadable
  · intro text
    obtain ⟨hne, hreadable⟩ := hread text
    exact listOfText_textOfList_of_isReadable hne hreadable

end DynamicPatching.Atom

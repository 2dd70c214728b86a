import DynamicPatching.Proofs.Command.ReadBack
import DynamicPatching.Proofs.Single.Whole

/-!
# Reading connections

The reader of a row of words decides by one test, whether the second of three words denotes a number,
and reads indices by another. The two agree on everything that is accepted: an index always denotes a
number (`isNumeric_of_isIndex`), because it fits 32 bits and so is far from overflowing. So the reader
accepts exactly the rows that are written as connections, with the ends they are written with
(`readConnection_outcome_eq_ok_iff`).
-/

namespace DynamicPatching

namespace Text

variable {word : Text} {index : UInt32}

/-! ## Words -/

/-- The words of a text are not empty and hold no blank. -/
theorem isWord_of_mem_words {text : Text} (h : word ∈ words text) : word.IsWord := by
  obtain ⟨hcut, hne⟩ := List.mem_filter.1 h
  exact ⟨by simpa using hne, fun c => isCut_of_mem_splitOnP hcut⟩

/-- A word is a name exactly when it denotes no number. -/
theorem IsWord.isName_iff_isKey (h : word.IsWord) : word.IsName ↔ word.IsKey := by
  have hblank : word.any isBlank = false := by
    rw [List.any_eq_false]
    intro c hc
    simpa using h.2 c hc
  simp [IsName, IsKey, h.1, hblank]

/-! ## Indices -/

theorem index?_eq_some_iff : index? word = some index ↔ word.IsIndex index := by
  simp only [index?, IsIndex]
  constructor
  · intro h
    split at h
    case isTrue hfits =>
        obtain ⟨hdigits, hsmall⟩ : isDigits (dropPlus word) = true ∧
            digitsValue (dropPlus word) < UInt32.size := by simpa using hfits
        obtain rfl := Option.some.inj h
        exact ⟨hdigits, (UInt32.toNat_ofNat_of_lt' hsmall).symm⟩
    case isFalse => cases h
  · rintro ⟨hdigits, hvalue⟩
    have hsmall : index.toNat < UInt32.size := index.toNat_lt_size
    simp [hdigits, hvalue, hsmall]

theorem isInteger_of_isIndex (h : word.IsIndex index) : isInteger word = true := by
  obtain ⟨hdigits, -⟩ := h
  rw [isInteger, dropSign.eq_def]
  rw [dropPlus.eq_def] at hdigits
  -- a word that begins with a minus sign is no row of digits behind a plus sign
  split
  · exact hdigits
  · simp [isDigits] at hdigits
  · rename_i hplus hminus
    split at hdigits
    · exact absurd rfl (hplus _)
    · exact hdigits

/-- An index denotes a number, so it is no key. -/
theorem isNumeric_of_isIndex (h : word.IsIndex index) : isNumeric word = true := by
  obtain ⟨hdigits, hvalue⟩ := h
  have hsmall : digitsValue (dropPlus word) < 2 ^ 64 := by
    rw [hvalue]
    exact lt_trans index.toNat_lt (by decide)
  rw [isNumeric, number?_of_isDigits hdigits hsmall]
  rfl

end Text

namespace Command

variable {line : Text} {words : List Text} {connection : Connection}

theorem readIndex_outcome_eq_ok_iff {token : Text} {index : UInt32} :
    (readIndex line token).outcome = .ok index ↔ token.IsIndex index := by
  rw [← Text.index?_eq_some_iff, readIndex]
  split
  case isTrue =>
      cases Text.index? token <;> simp [malformed]
  case isFalse hinteger =>
      -- the first test is passed by every index
      have hindex : Text.index? token ≠ some index :=
        fun h => hinteger (Text.isInteger_of_isIndex (Text.index?_eq_some_iff.1 h))
      simp [malformed, hindex]

/-- The ends are joined exactly when both keys are names; of words, these are the keys. -/
theorem joinEnds_outcome_eq_ok_iff {outletKey inletKey : Text} {outlet inlet : UInt32}
    (houtlet : outletKey.IsWord) (hinlet : inletKey.IsWord) :
    (joinEnds line outletKey outlet inletKey inlet).outcome = .ok connection ↔
      outletKey.IsKey ∧ inletKey.IsKey ∧ connection = ⟨outletKey, outlet, inletKey, inlet⟩ := by
  rw [joinEnds_eq_ok_iff, houtlet.isName_iff_isKey, hinlet.isName_iff_isKey, and_assoc,
    @eq_comm _ connection]

theorem readConnection_three_iff {first second third : Text} (hfirst : first.IsWord)
    (hsecond : second.IsWord) (hthird : third.IsWord) :
    (readConnection line [first, second, third]).outcome = .ok connection ↔
      Connection.Written [first, second, third] connection := by
  rw [readConnection]
  split
  case isTrue hnumeric =>
      simp only [Checked.outcome_bind_eq_ok_iff, readIndex_outcome_eq_ok_iff,
        joinEnds_outcome_eq_ok_iff hfirst hthird]
      constructor
      · rintro ⟨outlet, hindex, hkey, hinletKey, rfl⟩
        exact .outletIndex hkey hindex hinletKey
      · intro h
        cases h with
        | outletIndex hkey hindex hinletKey => exact ⟨_, hindex, hkey, hinletKey, rfl⟩
        | inletIndex hkey hinletKey hindex =>
            -- the second word would be a key
            rw [hinletKey] at hnumeric
            cases hnumeric
  case isFalse hsymbolic =>
      simp only [Checked.outcome_bind_eq_ok_iff, readIndex_outcome_eq_ok_iff,
        joinEnds_outcome_eq_ok_iff hfirst hsecond]
      constructor
      · rintro ⟨inlet, hindex, hkey, hinletKey, rfl⟩
        exact .inletIndex hkey hinletKey hindex
      · intro h
        cases h with
        | outletIndex hkey hindex hinletKey =>
            exact absurd (Text.isNumeric_of_isIndex hindex) hsymbolic
        | inletIndex hkey hinletKey hindex => exact ⟨_, hindex, hkey, hinletKey, rfl⟩

/-- **The reader accepts exactly the rows that are written as connections.** -/
theorem readConnection_outcome_eq_ok_iff (h : ∀ word ∈ words, word.IsWord) :
    (readConnection line words).outcome = .ok connection ↔ Connection.Written words connection := by
  match words, h with
  | [outletKey, inletKey], h =>
      simp only [List.forall_mem_cons] at h
      obtain ⟨houtlet, hinlet, -⟩ := h
      rw [readConnection, joinEnds_outcome_eq_ok_iff houtlet hinlet]
      constructor
      · rintro ⟨hkey, hinletKey, rfl⟩
        exact .keys hkey hinletKey
      · rintro (_ | _)
        exact ⟨‹_›, ‹_›, rfl⟩
  | [first, second, third], h =>
      simp only [List.forall_mem_cons] at h
      exact readConnection_three_iff h.1 h.2.1 h.2.2.1
  | [outletKey, first, inletKey, second], h =>
      simp only [List.forall_mem_cons] at h
      obtain ⟨houtlet, -, hinlet, -⟩ := h
      simp only [readConnection, Checked.outcome_bind_eq_ok_iff, readIndex_outcome_eq_ok_iff,
        joinEnds_outcome_eq_ok_iff houtlet hinlet]
      constructor
      · rintro ⟨outlet, hfirst, inlet, hsecond, hkey, hinletKey, rfl⟩
        exact .bothIndices hkey hfirst hinletKey hsecond
      · intro h
        cases h with
        | bothIndices hkey hfirst hinletKey hsecond =>
            exact ⟨_, hfirst, _, hsecond, hkey, hinletKey, rfl⟩
  | [], _ => constructor <;> rintro ⟨⟩
  | [_], _ => constructor <;> rintro ⟨⟩
  | _ :: _ :: _ :: _ :: _ :: _, _ => constructor <;> rintro ⟨⟩

end Command

end DynamicPatching

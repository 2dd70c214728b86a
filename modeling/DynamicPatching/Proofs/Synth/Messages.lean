import DynamicPatching.Proofs.Setting.Declaration
import DynamicPatching.Proofs.Voice.Records

/-!
# Messages about settings

The message of a setting begins with the words of its name, and no name of the subtractive voice
begins another one, except that `pitchbend` begins `pitchbend range`. What follows `pitchbend` in a
message is a number, and no number is written `range`, so a message is about the setting of its own
name and, the bend of the pitch apart, about no other (`not_listOfText_prefix`). A note begins with
a number and is about no setting.
-/

namespace DynamicPatching

/-- No number is written as a word that denotes none, other than the words for what is not finite. -/
theorem Single.text_ne {word : Text} (hword : Text.number? word = none)
    (h : word ∉ ["NaN".toList, "inf".toList, "-inf".toList]) (x : Single) : x.text ≠ word := by
  rintro rfl
  by_cases hfinite : x.isFinite = true
  · rw [x.number?_text hfinite] at hword
    cases hword
  · apply h
    rw [Single.text]
    split
    · simp
    · cases x.negative <;> simp

namespace Settings

variable {settings : Settings} {name other : Text} {value : SettingValue}

/-! ## Declared names -/

/-- The subtractive voice has a setting of the name. -/
def IsDeclared (name : Text) : Prop := name ∈ subtractiveDeclarations.map Prod.fst

instance (name : Text) : Decidable (IsDeclared name) :=
  inferInstanceAs (Decidable (name ∈ subtractiveDeclarations.map Prod.fst))

/-- The name of the setting that holds the bend of the pitch. -/
def bendName : Text := "pitchbend".toList

theorem mem_of_get? (h : settings.get? name = some value) : (name, value) ∈ settings.entries := by
  obtain ⟨entry, hentry, rfl⟩ := Option.map_eq_some_iff.1 h
  obtain rfl : entry.1 = name := by simpa using List.find?_some hentry
  exact List.mem_of_find?_eq_some hentry

/-- The message of a setting holds its current value. -/
theorem get?_of_message {message : Text} (h : settings.message name = .ok message) :
    ∃ value, settings.get? name = some value ∧ message = messageOf name value := by
  rw [Settings.message] at h
  cases hget : settings.get? name with
  | none =>
      rw [hget] at h
      cases h
  | some value =>
      rw [hget] at h
      exact ⟨value, rfl, (Except.ok.inj h).symm⟩

/-- A table with the declarations of the subtractive voice has its names and its variants. -/
theorem declared_of_get? (hsettings : settings.declarations = subtractive.declarations)
    (h : settings.get? name = some value) :
    ∃ entry ∈ subtractiveDeclarations, entry.1 = name ∧ entry.2.declaration = value.declaration := by
  have hmem : (name, value.declaration) ∈ subtractive.declarations := by
    rw [← hsettings]
    exact List.mem_map.2 ⟨_, mem_of_get? h, rfl⟩
  obtain ⟨entry, hentry, heq⟩ := List.mem_map.1 hmem
  obtain ⟨hname, hvalue⟩ := Prod.mk.inj heq
  exact ⟨entry, perm_subtractive.mem_iff.1 hentry, hname, hvalue⟩

theorem isDeclared_of_get? (hsettings : settings.declarations = subtractive.declarations)
    (h : settings.get? name = some value) : IsDeclared name := by
  obtain ⟨entry, hentry, rfl, -⟩ := declared_of_get? hsettings h
  exact List.mem_map_of_mem hentry

/-- The bend of the pitch is a number. -/
theorem kind_bend (hsettings : settings.declarations = subtractive.declarations)
    (h : settings.get? bendName = some value) : value.kind = .number := by
  have hbend : ∀ entry ∈ subtractiveDeclarations, entry.1 = bendName → entry.2.kind = .number := by
    decide
  obtain ⟨entry, hentry, hname, hvalue⟩ := declared_of_get? hsettings h
  have hkind : entry.2.kind = value.kind := congrArg Prod.fst hvalue
  rw [← hkind]
  exact hbend entry hentry hname

/-- A declared name is a row of names. -/
theorem IsDeclared.isName (h : IsDeclared name) : ∀ piece ∈ Text.pieces name, piece.IsName := by
  have hall : ∀ name ∈ subtractiveDeclarations.map Prod.fst, ∀ piece ∈ Text.pieces name,
      piece.IsName := by decide +kernel
  exact hall name h

theorem IsDeclared.listOfText_eq (h : IsDeclared name) :
    Atom.listOfText name = (Text.pieces name).map Atom.symbol :=
  List.map_congr_left fun piece hpiece => Atom.ofToken_name (h.isName piece hpiece)

/-- Only `pitchbend` begins another declared name. -/
theorem IsDeclared.eq_of_pieces_prefix (h : IsDeclared name) (hother : IsDeclared other)
    (hbegins : Text.pieces name <+: Text.pieces other) :
    name = other ∨ name = bendName ∧ other = "pitchbend range".toList := by
  have hall : ∀ name ∈ subtractiveDeclarations.map Prod.fst,
      ∀ other ∈ subtractiveDeclarations.map Prod.fst, Text.pieces name <+: Text.pieces other →
        name = other ∨ name = bendName ∧ other = "pitchbend range".toList := by decide +kernel
  exact hall name h other hother hbegins

/-! ## Tokens of messages -/

/-- The message of a setting is the pieces of its name and the words of its value. -/
theorem messageOf_spaced (name : Text) {words : List Text} (hne : words ≠ [])
    (hvalue : value.text = Text.spaced words) :
    messageOf name value = Text.spaced (Text.pieces name ++ words) := by
  rw [Text.spaced_append (Text.pieces_ne_nil name) hne, Text.spaced_pieces, messageOf,
    Text.spaced_cons_cons, Text.spaced_singleton, hvalue]

/-- The message of a setting begins with the tokens of its name. -/
theorem messageTokens_messageOf (h : IsDeclared name) (value : SettingValue) :
    ∃ others, VoicePool.messageTokens (messageOf name value) = Atom.listOfText name ++ others := by
  rw [messageOf_spaced name (List.cons_ne_nil _ _) (Text.spaced_singleton value.text).symm]
  exact VoicePool.messageTokens_words (fun piece hpiece => (h.isName piece hpiece).isWord) _

theorem listOfText_prefix (h : IsDeclared name) (value : SettingValue) :
    Atom.listOfText name <+: VoicePool.messageTokens (messageOf name value) := by
  obtain ⟨others, htokens⟩ := messageTokens_messageOf h value
  exact ⟨others, htokens.symm⟩

/-- A bend of the pitch is not about its range. -/
theorem not_bendRange_prefix (x : Single) :
    ¬ Atom.listOfText "pitchbend range".toList <+:
      VoicePool.messageTokens (messageOf bendName (.number x)) := by
  have hwords : ∀ word ∈ [bendName, x.text], word.IsWord := by
    have hbend : bendName.IsName := by decide
    exact List.forall_mem_cons.2 ⟨hbend.isWord, List.forall_mem_singleton.2 x.isWord_text⟩
  have hrange : Atom.listOfText "pitchbend range".toList =
      [.symbol bendName, .symbol "range".toList] := by decide +kernel
  obtain ⟨others, htokens⟩ := VoicePool.messageTokens_words hwords []
  rw [List.append_nil] at htokens
  rw [messageOf, SettingValue.text, htokens, hrange]
  intro hbegins
  simp only [List.map_cons, List.cons_append, List.cons_prefix_cons] at hbegins
  obtain ⟨-, hvalue, -⟩ := hbegins
  -- the word for the number would be the symbol
  have htext : x.text = "range".toList := by
    rw [Atom.ofToken] at hvalue
    split at hvalue
    · cases hvalue
    · exact (Atom.symbol.inj hvalue).symm
  exact x.text_ne (by decide) (by decide) htext

/-- The message of a setting is about no other, the bend of the pitch apart. -/
theorem not_listOfText_prefix (h : IsDeclared name) (hother : IsDeclared other) (hne : other ≠ name)
    (hbend : name ≠ bendName) (hvalue : other = bendName → value.kind = .number) :
    ¬ Atom.listOfText name <+: VoicePool.messageTokens (messageOf other value) := by
  obtain ⟨others, htokens⟩ := messageTokens_messageOf hother value
  intro hbegins
  have hinjective : Function.Injective Atom.symbol := fun _ _ => Atom.symbol.inj
  -- of the names in front of one message, one begins the other
  have hnames := List.prefix_or_prefix_of_prefix hbegins ⟨others, htokens.symm⟩
  rw [h.listOfText_eq, hother.listOfText_eq, List.prefix_map_iff_of_injective hinjective,
    List.prefix_map_iff_of_injective hinjective] at hnames
  rcases hnames with hfront | hfront
  · rcases h.eq_of_pieces_prefix hother hfront with heq | ⟨heq, -⟩
    · exact hne heq.symm
    · exact hbend heq
  · rcases hother.eq_of_pieces_prefix h hfront with heq | ⟨rfl, rfl⟩
    · exact hne heq
    · cases value with
      | number x => exact not_bendRange_prefix x hbegins
      | symbol word => cases hvalue rfl
      | list values => cases hvalue rfl

/-- A note is about no setting. -/
theorem not_listOfText_prefix_note (h : IsDeclared name) {note : Nat} (hnote : note < 2 ^ 64)
    (text : Text) :
    ¬ Atom.listOfText name <+: VoicePool.messageTokens (Text.spaced [Text.decimal note, text]) := by
  obtain ⟨others, htokens⟩ := VoicePool.messageTokens_words
    (List.forall_mem_singleton.2 (Text.isWord_decimal note)) [text]
  change VoicePool.messageTokens (Text.spaced [Text.decimal note, text]) = _ at htokens
  rw [htokens, List.map_singleton, Atom.ofToken_decimal hnote, h.listOfText_eq]
  cases hpieces : Text.pieces name with
  | nil => exact absurd hpieces (Text.pieces_ne_nil name)
  | cons piece rest =>
      intro hbegins
      cases (List.cons_prefix_cons.1 hbegins).1

end Settings

end DynamicPatching

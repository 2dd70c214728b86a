import DynamicPatching.Proofs.Setting.Declaration
import DynamicPatching.Proofs.Text.Bytes
import DynamicPatching.Proofs.Text.Cutting

/-!
# Settings under rows of updates

One update either changes the value of its own name, and keeps what it declares, or it changes nothing
at all. So the declarations of a table outlive every row of updates, whichever of them fail on the way
(`declarations_after`). The two ways to update agree: a position is set exactly as the whole list is
set with that position replaced (`setElement_eq_set`).
-/

namespace DynamicPatching.Settings

variable {settings : Settings} {name : Text} {value : SettingValue}

/-- A position is set as the whole list is set with that position replaced. -/
theorem setElement_eq_set {index : Nat} {value : Single} {values : List Single}
    (hdeclared : settings.get? name = some (.list values)) (hindex : index < values.length) :
    settings.setElement name index value = settings.set name (.list (values.set index value)) := by
  have helement : settings.setElement name index value =
      .ok (settings.replace name (.list (values.set index value))) :=
    setElement_eq_ok_iff.2 ⟨values, hdeclared, hindex, rfl⟩
  rw [helement, eq_comm, set_eq_ok_iff]
  exact ⟨_, hdeclared, SettingValue.declaration_set values index value, rfl⟩

/-! ## Rows of updates -/

theorem afterUpdate_of_error {change : SettingUpdate} {error : Error}
    (h : settings.update change = .error error) : settings.afterUpdate change = settings := by
  rw [afterUpdate, h]

/-- An update keeps the declarations, whether it succeeds or not. -/
theorem declarations_afterUpdate (settings : Settings) (change : SettingUpdate) :
    (settings.afterUpdate change).declarations = settings.declarations := by
  cases hupdate : settings.update change with
  | error error => rw [afterUpdate_of_error hupdate]
  | ok updated =>
      obtain ⟨declared, value, hdeclared, hturns, rfl⟩ := update_eq_ok_iff.1 hupdate
      rw [afterUpdate, hupdate]
      exact declarations_replace hdeclared hturns.declaration_eq

/-- A row of updates keeps the declarations. -/
theorem declarations_after (settings : Settings) (changes : List SettingUpdate) :
    (settings.after changes).declarations = settings.declarations := by
  induction changes generalizing settings with
  | nil => rfl
  | cons change rest ih =>
      have hrest : settings.after (change :: rest) = (settings.afterUpdate change).after rest := rfl
      rw [hrest, ih, declarations_afterUpdate]

/-! ## Messages -/

theorem messageOf_eq (name : Text) (value : SettingValue) :
    messageOf name value = name ++ ' ' :: value.text := by
  rw [messageOf, Text.spaced_cons_cons, Text.spaced_singleton]

/-- Every entry has the message that its name is asked for. -/
theorem message_of_mem {entry : Text × SettingValue} (h : entry ∈ settings.entries) :
    settings.message entry.1 = .ok (messageOf entry.1 entry.2) := by
  rw [message, get?_of_mem h]

/-- **Settings keep their declarations.** Names, variants and lengths outlive every row of updates. An
update that fails changes nothing. One that succeeds changes the value of its own name only: a whole
value is stored as it is given, a position of a list as the list with that position replaced. Whole
values are accepted for declared names if variant and length agree, positions for declared lists if
they are inside. The messages of a table give its values in the order of the bytes of the names, each
as the message of its name. -/
theorem declarations_kept :
    (∀ (settings : Settings) (changes : List SettingUpdate),
      (settings.after changes).declarations = settings.declarations) ∧
    (∀ (settings : Settings) (change : SettingUpdate) (error : Error),
      settings.update change = .error error → settings.afterUpdate change = settings) ∧
    (∀ (settings : Settings) (name : Text) (value : SettingValue),
      (∃ updated, settings.set name value = .ok updated) ↔
        ∃ declared, settings.get? name = some declared ∧
          value.kind = declared.kind ∧ value.length? = declared.length?) ∧
    (∀ (settings updated : Settings) (name : Text) (value : SettingValue),
      settings.set name value = .ok updated →
        updated.get? name = some value ∧ ∀ other ≠ name, updated.get? other = settings.get? other) ∧
    (∀ (settings : Settings) (name : Text) (index : Nat) (value : Single),
      (∃ updated, settings.setElement name index value = .ok updated) ↔
        ∃ values, settings.get? name = some (.list values) ∧ index < values.length) ∧
    (∀ (settings : Settings) (name : Text) (index : Nat) (value : Single) (values : List Single),
      settings.get? name = some (.list values) → index < values.length →
        settings.setElement name index value =
          settings.set name (.list (values.set index value))) ∧
    (∀ settings : Settings,
      settings.messages = (settings.entries.map fun entry => entry.1 ++ ' ' :: entry.2.text) ∧
      (settings.entries.map fun entry => Text.utf8 entry.1).Pairwise (· < ·) ∧
      ∀ entry ∈ settings.entries,
        settings.message entry.1 = .ok (entry.1 ++ ' ' :: entry.2.text)) := by
  refine ⟨declarations_after, fun _ _ _ => afterUpdate_of_error, fun settings name value => ?_,
    fun settings updated name value h => ?_, fun settings name index value => ?_,
    fun _ _ _ _ _ => setElement_eq_set, fun settings => ⟨?_, ?_, fun entry hentry => ?_⟩⟩
  · simp only [set_eq_ok_iff, SettingValue.declaration, Prod.mk.injEq]
    constructor
    · rintro ⟨updated, declared, hdeclared, hagrees, -⟩
      exact ⟨declared, hdeclared, hagrees⟩
    · rintro ⟨declared, hdeclared, hagrees⟩
      exact ⟨_, declared, hdeclared, hagrees, rfl⟩
  · obtain ⟨declared, hdeclared, -, rfl⟩ := set_eq_ok_iff.1 h
    exact get?_replace_of_declared hdeclared value
  · simp only [setElement_eq_ok_iff]
    constructor
    · rintro ⟨updated, values, hdeclared, hindex, -⟩
      exact ⟨values, hdeclared, hindex⟩
    · rintro ⟨values, hdeclared, hindex⟩
      exact ⟨_, values, hdeclared, hindex, rfl⟩
  · exact List.map_congr_left fun entry _ => messageOf_eq entry.1 entry.2
  · rw [List.pairwise_map]
    exact settings.sorted.imp Text.utf8_lt
  · rw [message_of_mem hentry, messageOf_eq]

/-- In the table of the subtractive voice the volume is set beside the envelope, a position of the
envelope is set as the whole list is, and the volume has no position. -/
theorem declarations_kept_envelope :
    (subtractive.replace "volume".toList (.number Single.zero)).get? "envelope".toList =
      subtractive.get? "envelope".toList ∧
    subtractive.setElement "envelope".toList 3 Single.zero =
      subtractive.set "envelope".toList
        (.list [Single.ofNat 1, Single.ofNat 500, Single.ofNat 1, Single.zero]) ∧
    subtractive.afterUpdate (.element "volume".toList 0 Single.zero) = subtractive := by
  obtain ⟨-, hfail, -, hset, -, helement, -⟩ := declarations_kept
  refine ⟨?_, ?_, ?_⟩
  · exact (hset subtractive _ "volume".toList (.number Single.zero) rfl).2 _ (by decide)
  · exact helement subtractive _ 3 Single.zero ([1, 500, 1, 1].map Single.ofNat) rfl (by decide)
  · exact hfail subtractive _ (.settingMismatch "volume".toList .notAList) rfl

end DynamicPatching.Settings

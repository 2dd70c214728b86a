import DynamicPatching.Setting.Basic

/-!
# Declarations and updates of settings

A table declares names, each with a variant and, for a list, a length. Updates change values only:
a value is stored under a declared name and must agree with the declared variant and length
(`set_eq_ok_iff`, `setElement_eq_ok_iff`), so the declarations of a table outlive every update
(`declarations_set`, `declarations_setElement`).

What an update stores is `SettingUpdate.Turns`, for a whole value and for one position of a list. The
update then replaces the declared value (`update_eq_ok_iff`), and a replacement is seen under its own
name and under no other (`get?_replace`).

Declaring a name that is new adds one entry and moves none out of the table, so a table that was
declared from a row of distinct names holds that row in the order of names (`perm_foldl_declare`).
-/

namespace DynamicPatching

/-! ## Declarations -/

namespace SettingValue

/-- The number of values in a list. -/
def length? : SettingValue → Option Nat
  | .list values => some values.length
  | _ => none

/-- What a value declares: its variant and, for a list, its length. -/
def declaration (value : SettingValue) : SettingKind × Option Nat := (value.kind, value.length?)

/-- A list with one position replaced has the length it had. -/
theorem declaration_set (values : List Single) (index : Nat) (value : Single) :
    (SettingValue.list (values.set index value)).declaration =
      (SettingValue.list values).declaration := by
  rw [declaration, length?, List.length_set]
  rfl

end SettingValue

namespace Settings

variable {settings updated : Settings} {name : Text}

/-- The names of a table in order, each with what its value declares. -/
def declarations (settings : Settings) : List (Text × SettingKind × Option Nat) :=
  settings.entries.map fun entry => (entry.1, entry.2.declaration)

/-- The two tests of an update, first of the lengths and then of the variants, pass exactly when the
value declares the same. -/
theorem disagreement_eq_none_iff {declared given : SettingValue} :
    disagreement declared given = none ↔ given.declaration = declared.declaration := by
  cases declared with
  | number x =>
      cases given <;> simp [disagreement, SettingValue.declaration, SettingValue.kind,
        SettingValue.length?]
  | symbol x =>
      cases given <;> simp [disagreement, SettingValue.declaration, SettingValue.kind,
        SettingValue.length?]
  | list xs =>
      cases given <;> simp [disagreement, SettingValue.declaration, SettingValue.kind,
        SettingValue.length?, eq_comm]

theorem set_eq_ok_iff {value : SettingValue} :
    settings.set name value = .ok updated ↔
      ∃ declared, settings.get? name = some declared ∧
        value.declaration = declared.declaration ∧ updated = settings.replace name value := by
  rw [set]
  cases settings.get? name with
  | none => simp
  | some declared =>
      simp only [Option.some.injEq, exists_eq_left', ← disagreement_eq_none_iff]
      cases disagreement declared value with
      | some fault => simp
      | none => simp [@eq_comm _ updated]

theorem setElement_eq_ok_iff {index : Nat} {value : Single} :
    settings.setElement name index value = .ok updated ↔
      ∃ values, settings.get? name = some (.list values) ∧ index < values.length ∧
        updated = settings.replace name (.list (values.set index value)) := by
  rw [setElement]
  match settings.get? name with
  | none => simp
  | some (.number _) => simp
  | some (.symbol _) => simp
  | some (.list values) =>
      by_cases hindex : index < values.length
      · simp [hindex, @eq_comm _ updated]
      · simp [hindex]

/-- The names are strictly increasing, so an entry is found under its own name. -/
theorem find?_eq_of_mem {entries : List (Text × SettingValue)} {entry : Text × SettingValue}
    (hsorted : entries.Pairwise fun a b => a.1 < b.1) (h : entry ∈ entries) :
    entries.find? (fun other => decide (other.1 = entry.1)) = some entry := by
  induction entries with
  | nil => cases h
  | cons first rest ih =>
      obtain ⟨hfirst, hrest⟩ := List.pairwise_cons.1 hsorted
      rcases List.mem_cons.1 h with rfl | hmem
      · simp
      · have hne : first.1 ≠ entry.1 := by
          intro heq
          have hlt := hfirst entry hmem
          rw [heq] at hlt
          exact List.lt_irrefl _ hlt
        rw [List.find?_cons_of_neg (by simpa using hne)]
        exact ih hrest hmem

theorem get?_of_mem {entry : Text × SettingValue} (h : entry ∈ settings.entries) :
    settings.get? entry.1 = some entry.2 := by
  rw [get?, find?_eq_of_mem settings.sorted h]
  rfl

/-- A new value with the declared variant and length keeps the declarations. -/
theorem declarations_replace {declared value : SettingValue}
    (hname : settings.get? name = some declared)
    (hvalue : value.declaration = declared.declaration) :
    (settings.replace name value).declarations = settings.declarations := by
  change (replaceEntry name value settings.entries).map
    (fun entry => (entry.1, entry.2.declaration)) = _
  rw [replaceEntry, List.map_map]
  apply List.map_congr_left
  intro entry hentry
  rw [Function.comp_apply]
  split
  · -- the entry of the name holds the declared value
    rename_i heq
    have hget := get?_of_mem hentry
    rw [heq, hname] at hget
    rw [hvalue, Option.some.inj hget]
  · rfl

theorem declarations_set {value : SettingValue} (h : settings.set name value = .ok updated) :
    updated.declarations = settings.declarations := by
  obtain ⟨declared, hname, hvalue, rfl⟩ := set_eq_ok_iff.1 h
  exact declarations_replace hname hvalue

theorem declarations_setElement {index : Nat} {value : Single}
    (h : settings.setElement name index value = .ok updated) :
    updated.declarations = settings.declarations := by
  obtain ⟨values, hname, -, rfl⟩ := setElement_eq_ok_iff.1 h
  exact declarations_replace hname (SettingValue.declaration_set values index value)

end Settings

/-! ## What an update changes -/

/-- The update turns the declared value into one of the same variant and length. -/
inductive SettingUpdate.Turns : SettingUpdate → SettingValue → SettingValue → Prop
  | whole {name : Text} {declared value : SettingValue}
      (agrees : value.declaration = declared.declaration) : Turns (.whole name value) declared value
  | element {name : Text} {index : Nat} {value : Single} {values : List Single}
      (inside : index < values.length) :
      Turns (.element name index value) (.list values) (.list (values.set index value))

/-- What an update stores declares the same as the value before it. -/
theorem SettingUpdate.Turns.declaration_eq {change : SettingUpdate} {declared value : SettingValue}
    (h : change.Turns declared value) : value.declaration = declared.declaration := by
  cases h with
  | whole agrees => exact agrees
  | element => exact SettingValue.declaration_set _ _ _

namespace Settings

variable {settings updated : Settings} {name : Text}

/-- A new value is found under its name, and every other name keeps its value. -/
theorem get?_replace (settings : Settings) (name : Text) (value : SettingValue) (other : Text) :
    (settings.replace name value).get? other =
      if other = name then (settings.get? name).map fun _ => value else settings.get? other := by
  have hentries : (settings.replace name value).entries =
      settings.entries.map fun entry => if entry.1 = name then (entry.1, value) else entry := rfl
  -- replacing a value moves no name, so the same entry is found
  have hfind : (fun entry : Text × SettingValue => decide (entry.1 = other)) ∘
        (fun entry => if entry.1 = name then (entry.1, value) else entry) =
      fun entry => decide (entry.1 = other) := by
    funext entry
    rw [Function.comp_apply]
    split <;> rfl
  rw [get?, hentries, List.find?_map, hfind, get?, get?]
  cases hentry : settings.entries.find? fun entry => decide (entry.1 = other) with
  | none =>
      split
      · rename_i heq
        rw [← heq, hentry]
        rfl
      · rfl
  | some entry =>
      have hname : entry.1 = other := by simpa using List.find?_some hentry
      rw [Option.map_some, Option.map_some, hname]
      split
      · rename_i heq
        rw [← heq, hentry]
        rfl
      · rfl

/-- The new value stands under a declared name, and no other name changes its value. -/
theorem get?_replace_of_declared {declared : SettingValue}
    (h : settings.get? name = some declared) (value : SettingValue) :
    (settings.replace name value).get? name = some value ∧
      ∀ other ≠ name, (settings.replace name value).get? other = settings.get? other := by
  refine ⟨?_, fun other hother => ?_⟩
  · rw [get?_replace, if_pos rfl, h, Option.map_some]
  · rw [get?_replace, if_neg hother]

/-- **One update.** It succeeds exactly when its name is declared and it turns the value declared there
into one of the same variant and length, and then it replaces that value. -/
theorem update_eq_ok_iff {change : SettingUpdate} :
    settings.update change = .ok updated ↔
      ∃ declared value, settings.get? change.name = some declared ∧ change.Turns declared value ∧
        updated = settings.replace change.name value := by
  cases change with
  | whole name value =>
      refine set_eq_ok_iff.trans ⟨?_, ?_⟩
      · rintro ⟨declared, hdeclared, hagrees, hupdated⟩
        exact ⟨declared, value, hdeclared, .whole hagrees, hupdated⟩
      · rintro ⟨declared, stored, hdeclared, ⟨hagrees⟩, hupdated⟩
        exact ⟨declared, hdeclared, hagrees, hupdated⟩
  | element name index value =>
      refine setElement_eq_ok_iff.trans ⟨?_, ?_⟩
      · rintro ⟨values, hdeclared, hinside, hupdated⟩
        exact ⟨_, _, hdeclared, .element hinside, hupdated⟩
      · rintro ⟨declared, stored, hdeclared, hturns, hupdated⟩
        cases hturns with
        | element inside => exact ⟨_, hdeclared, inside, hupdated⟩

end Settings

/-! ## The entries of a declared table -/

namespace Settings

variable {name : Text} {value : SettingValue} {entries : List (Text × SettingValue)}

/-- A new name adds an entry. -/
theorem perm_insertEntry (h : name ∉ entries.map Prod.fst) :
    (insertEntry name value entries).Perm ((name, value) :: entries) := by
  induction entries with
  | nil => exact List.Perm.refl _
  | cons first rest ih =>
      rw [List.map_cons, List.mem_cons, not_or] at h
      obtain ⟨hfirst, hrest⟩ := h
      rw [insertEntry]
      split
      · exact List.Perm.refl _
      · split
        · exact ((ih hrest).cons first).trans (List.Perm.swap _ _ _)
        · -- the name is neither below nor above the first one
          rename_i hle hge
          exact absurd (List.le_antisymm hge hle) hfirst

/-- Declaring distinct new names adds just their entries. -/
theorem perm_foldl_declare (settings : Settings)
    (h : ((settings.entries ++ entries).map Prod.fst).Nodup) :
    (entries.foldl (fun settings entry => settings.declare entry.1 entry.2) settings).entries.Perm
      (settings.entries ++ entries) := by
  induction entries generalizing settings with
  | nil => simp
  | cons entry rest ih =>
      have hmiddle : (settings.entries ++ entry :: rest).Perm
          (entry :: settings.entries ++ rest) := List.perm_middle
      have hnodup := (hmiddle.map Prod.fst).nodup_iff.1 h
      have hnew : entry.1 ∉ settings.entries.map Prod.fst := by
        rw [List.cons_append, List.map_cons, List.nodup_cons, List.map_append, List.mem_append,
          not_or] at hnodup
        exact hnodup.1.1
      have hdeclared : ((settings.declare entry.1 entry.2).entries ++ rest).Perm
          (entry :: settings.entries ++ rest) := (perm_insertEntry hnew).append_right rest
      rw [List.foldl_cons]
      refine (ih (settings.declare entry.1 entry.2) ?_).trans (hdeclared.trans hmiddle.symm)
      exact (hdeclared.map Prod.fst).nodup_iff.2 hnodup

/-- The table of the subtractive voice holds its declarations. -/
theorem perm_subtractive : subtractive.entries.Perm subtractiveDeclarations :=
  perm_foldl_declare empty (by decide)

/-- A declared number takes a new number, and every other entry stays. -/
theorem set_number {settings : Settings} {old : Single} (h : settings.get? name = some (.number old))
    (value : Single) :
    settings.set name (.number value) = .ok (settings.replace name (.number value)) := by
  rw [set, h]
  rfl

end Settings

end DynamicPatching

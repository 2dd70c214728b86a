import DynamicPatching.Error
import DynamicPatching.Single.Decimal

/-!
# Settings

A setting is a number, a symbol or a list of numbers. Text is read by its words: one number, one
symbol, or two and more numbers. Text with no word denotes nothing, and neither does a row of words
that are not all numbers.

A table of settings maps names to values. Its entries are listed in strictly increasing order of
their names, where texts are compared by code points; this is also the order of their UTF-8 bytes.
Declaring a setting fixes its variant and, for a list, its length; a later update must agree with
both. An update that fails yields no table, so it changes nothing. `after` makes a row of updates,
each on the table that the one before it left.

The subtractive voice has two oscillators and a noise source, mixed into one filter with an
envelope. Its settings and their first values are `Settings.subtractive`.
-/

namespace DynamicPatching

/-! ## Values -/

/-- The value of a setting. -/
inductive SettingValue where
  | number (value : Single)
  | symbol (name : Text)
  | list (values : List Single)
deriving DecidableEq

namespace SettingValue

/-- The variant of a value. -/
def kind : SettingValue → SettingKind
  | .number _ => .number
  | .symbol _ => .symbol
  | .list _ => .list

/-- The numbers that all words denote, if each denotes one. -/
def numbers? : List Text → Option (List Single)
  | [] => some []
  | word :: rest =>
      match Text.number? word, numbers? rest with
      | some value, some values => some (value :: values)
      | _, _ => none

/-- Reads a value from its words, on behalf of the whole text. -/
def ofWords (text : Text) : List Text → Except Error SettingValue
  | [] => .error (.invalidSettingValue text .empty)
  | [word] =>
      match Text.number? word with
      | some value => .ok (.number value)
      | none => .ok (.symbol word)
  | words =>
      match numbers? words with
      | some values => .ok (.list values)
      | none => .error (.invalidSettingValue text .mixedList)

/-- Reads a value from text. -/
def ofText (text : Text) : Except Error SettingValue := ofWords text (Text.words text)

/-- The text of a value. -/
def text : SettingValue → Text
  | .number value => value.text
  | .symbol name => name
  | .list values => Text.spaced (values.map Single.text)

/-- Equality of values with numbers compared numerically. -/
def sameValue : SettingValue → SettingValue → Bool
  | .number x, .number y => x.sameNumber y
  | .symbol x, .symbol y => decide (x = y)
  | .list xs, .list ys => xs.isEqv ys Single.sameNumber
  | _, _ => false

end SettingValue

/-! ## Tables -/

/-- Settings by name, in strictly increasing order of names. -/
structure Settings where
  entries : List (Text × SettingValue)
  sorted : entries.Pairwise fun a b => a.1 < b.1
deriving DecidableEq

namespace Settings

/-- The table without entries. -/
def empty : Settings := ⟨[], List.Pairwise.nil⟩

instance : Inhabited Settings := ⟨empty⟩

/-! ### Reading -/

/-- The value of a setting, if it is declared. -/
def get? (settings : Settings) (name : Text) : Option SettingValue :=
  (settings.entries.find? fun entry => decide (entry.1 = name)).map Prod.snd

/-- The message that gives a voice the value of a setting. -/
def messageOf (name : Text) (value : SettingValue) : Text := Text.spaced [name, value.text]

/-- The message of a declared setting. -/
def message (settings : Settings) (name : Text) : Except Error Text :=
  match settings.get? name with
  | some value => .ok (messageOf name value)
  | none => .error (.unknownSetting name)

/-- The messages of all settings, in the order of their names. -/
def messages (settings : Settings) : List Text :=
  settings.entries.map fun entry => messageOf entry.1 entry.2

/-- Equality of tables with numbers compared numerically. -/
def sameValues (settings other : Settings) : Bool :=
  settings.entries.isEqv other.entries fun a b => decide (a.1 = b.1) && a.2.sameValue b.2

/-! ### Declaring -/

/-- The entries with one more, in order; an entry of the same name is replaced. -/
def insertEntry (name : Text) (value : SettingValue) :
    List (Text × SettingValue) → List (Text × SettingValue)
  | [] => [(name, value)]
  | entry :: rest =>
      if name < entry.1 then (name, value) :: entry :: rest
      else if entry.1 < name then entry :: insertEntry name value rest
      else (name, value) :: rest

/-- Every entry after an insertion is the new one or an old one. -/
theorem mem_insertEntry {name : Text} {value : SettingValue} {entry : Text × SettingValue}
    {entries : List (Text × SettingValue)} (h : entry ∈ insertEntry name value entries) :
    entry = (name, value) ∨ entry ∈ entries := by
  induction entries with
  | nil => exact Or.inl (List.mem_singleton.1 h)
  | cons first rest ih =>
      unfold insertEntry at h
      split at h
      · exact (List.mem_cons.1 h)
      · split at h
        · rcases List.mem_cons.1 h with rfl | h
          · exact Or.inr List.mem_cons_self
          · exact (ih h).imp id (List.mem_cons_of_mem _)
        · exact (List.mem_cons.1 h).imp id (List.mem_cons_of_mem _)

/-- Insertion keeps the order of names. -/
theorem pairwise_insertEntry {name : Text} {value : SettingValue}
    {entries : List (Text × SettingValue)} (h : entries.Pairwise fun a b => a.1 < b.1) :
    (insertEntry name value entries).Pairwise fun a b => a.1 < b.1 := by
  induction entries with
  | nil => exact List.pairwise_singleton _ _
  | cons first rest ih =>
      obtain ⟨hfirst, hrest⟩ := List.pairwise_cons.1 h
      unfold insertEntry
      split
      case isTrue hlt =>
          refine List.pairwise_cons.2 ⟨fun entry hentry => ?_, h⟩
          rcases List.mem_cons.1 hentry with rfl | hentry
          · exact hlt
          · exact List.lt_trans hlt (hfirst entry hentry)
      case isFalse hle =>
          split
          case isTrue hgt =>
              refine List.pairwise_cons.2 ⟨fun entry hentry => ?_, ih hrest⟩
              rcases mem_insertEntry hentry with rfl | hentry
              · exact hgt
              · exact hfirst entry hentry
          case isFalse hge =>
              have hname : name = first.1 := List.le_antisymm hge hle
              exact List.pairwise_cons.2 ⟨fun entry hentry => hname ▸ hfirst entry hentry, hrest⟩

/-- Adds a setting, or replaces it together with its variant. -/
def declare (settings : Settings) (name : Text) (value : SettingValue) : Settings :=
  ⟨insertEntry name value settings.entries, pairwise_insertEntry settings.sorted⟩

/-! ### Updating -/

/-- The entries with a new value for one name; no name is added or moved. -/
def replaceEntry (name : Text) (value : SettingValue) (entries : List (Text × SettingValue)) :
    List (Text × SettingValue) :=
  entries.map fun entry => if entry.1 = name then (entry.1, value) else entry

/-- Replacing a value keeps every name in its place. -/
theorem map_fst_replaceEntry (name : Text) (value : SettingValue)
    (entries : List (Text × SettingValue)) :
    (replaceEntry name value entries).map Prod.fst = entries.map Prod.fst := by
  simp only [replaceEntry, List.map_map]
  refine List.map_congr_left fun entry _ => ?_
  simp only [Function.comp_apply]
  split <;> rfl

/-- The order of entries is the order of their names. -/
theorem pairwise_iff_map_fst {entries : List (Text × SettingValue)} :
    (entries.Pairwise fun a b => a.1 < b.1) ↔ (entries.map Prod.fst).Pairwise (· < ·) :=
  List.pairwise_map.symm

/-- The table with a new value for one name. -/
def replace (settings : Settings) (name : Text) (value : SettingValue) : Settings :=
  ⟨replaceEntry name value settings.entries, by
    rw [pairwise_iff_map_fst, map_fst_replaceEntry]
    exact pairwise_iff_map_fst.1 settings.sorted⟩

/-- Why a value does not agree with the declared one, if it does not. -/
def disagreement : (declared given : SettingValue) → Option SettingFault
  | .list old, .list new =>
      if old.length = new.length then none else some (.length old.length new.length)
  | declared, given =>
      if declared.kind = given.kind then none else some (.kind declared.kind given.kind)

/-- Updates a declared setting with a value of its variant and length. -/
def set (settings : Settings) (name : Text) (value : SettingValue) : Except Error Settings :=
  match settings.get? name with
  | none => .error (.unknownSetting name)
  | some declared =>
      match disagreement declared value with
      | some fault => .error (.settingMismatch name fault)
      | none => .ok (settings.replace name value)

/-- Updates one position of a declared list. -/
def setElement (settings : Settings) (name : Text) (index : Nat) (value : Single) :
    Except Error Settings :=
  match settings.get? name with
  | none => .error (.unknownSetting name)
  | some (.list values) =>
      if index < values.length then
        .ok (settings.replace name (.list (values.set index value)))
      else
        .error (.settingMismatch name (.position index values.length))
  | some _ => .error (.settingMismatch name .notAList)

end Settings

/-! ## Updates as data -/

/-- One update of a table of settings. -/
inductive SettingUpdate where
  | whole (name : Text) (value : SettingValue)
  | element (name : Text) (index : Nat) (value : Single)
deriving DecidableEq

/-- The name of the setting that an update is about. -/
def SettingUpdate.name : SettingUpdate → Text
  | .whole name _ => name
  | .element name _ _ => name

namespace Settings

/-- The outcome of an update. -/
def update (settings : Settings) : SettingUpdate → Except Error Settings
  | .whole name value => settings.set name value
  | .element name index value => settings.setElement name index value

/-- The table after an update; an update that fails leaves it as it is. -/
def afterUpdate (settings : Settings) (change : SettingUpdate) : Settings :=
  match settings.update change with
  | .ok updated => updated
  | .error _ => settings

/-- The table after a row of updates. -/
def after (settings : Settings) (changes : List SettingUpdate) : Settings :=
  changes.foldl afterUpdate settings

/-! ## Settings of the subtractive voice -/

/-- The declarations of the subtractive voice. -/
def subtractiveDeclarations : List (Text × SettingValue) :=
  let half := Single.ofRatio 1 2
  let whole (n : Nat) : SettingValue := .number (Single.ofNat n)
  [("osc1 semi".toList, whole 0),
    ("osc1 cent".toList, whole 0),
    ("osc1 phase".toList, whole 0),
    ("osc1 set".toList, .symbol "sine_table".toList),
    ("osc1 mode".toList, .symbol "o".toList),
    ("osc1 on".toList, whole 1),
    ("osc2 semi".toList, whole 0),
    ("osc2 cent".toList, whole 10),
    ("osc2 phase".toList, .number half),
    ("osc2 set".toList, .symbol "sawtooth_table".toList),
    ("osc2 mode".toList, .symbol "-".toList),
    ("osc2 on".toList, whole 1),
    ("noise filter".toList, whole 30),
    ("noise adsr".toList, .list ([1, 100, 0, 1].map Single.ofNat)),
    ("noise amount".toList, whole 0),
    ("filter frequency".toList, whole 2000),
    ("envelope".toList, .list ([1, 500, 1, 1].map Single.ofNat)),
    ("pitchbend".toList, whole 64),
    ("pitchbend range".toList, whole 12),
    ("pan".toList, .list [half, Single.ofNat 0]),
    ("mix".toList, .list [Single.ofNat 1, half]),
    ("volume".toList, .number half)]

/-- The table with the settings of the subtractive voice. -/
def subtractive : Settings :=
  subtractiveDeclarations.foldl (fun settings entry => settings.declare entry.1 entry.2) empty

end Settings

end DynamicPatching

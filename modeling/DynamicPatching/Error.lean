import DynamicPatching.Text.Basic

/-!
# Errors

An error says what was wrong with a line, a message, a setting or a delivery. Each kind carries its
cause as data (`CommandFault`, `SettingFault`, `ValueFault`, `DeliveryFault`), and the wording is in
one function for each, so two errors are equal exactly when their causes are. The constructor
`stated` of a cause holds a reason that was worded elsewhere.
-/

namespace DynamicPatching

/-! ## Causes -/

/-- What a name in a command stands for. -/
inductive NameRole where
  | key
  | outletKey
  | inletKey
  | subpatch
  | receiver
deriving DecidableEq

/-- The words for a role in a reason. -/
def NameRole.label : NameRole → Text
  | .key => "key".toList
  | .outletKey => "outlet key".toList
  | .inletKey => "inlet key".toList
  | .subpatch => "subpatch".toList
  | .receiver => "receiver".toList

/-- Why the arguments of a command do not fit its keyword. -/
inductive CommandFault where
  | missingName (role : NameRole)
  | blankInName (role : NameRole) (name : Text)
  | numericName (role : NameRole) (name : Text)
  | missingObjectType
  | severalNames (role : NameRole)
  | unexpectedArguments
  | connectionShape
  | notAnIndex (token : Text)
  | indexTooLarge (token : Text)
  | stated (reason : Text)
deriving DecidableEq

/-- The variants of a setting's value. -/
inductive SettingKind where
  | number
  | symbol
  | list
deriving DecidableEq

/-- The word for a kind in a reason. -/
def SettingKind.label : SettingKind → Text
  | .number => "number".toList
  | .symbol => "symbol".toList
  | .list => "list".toList

/-- Why a value does not fit the declaration of a setting. -/
inductive SettingFault where
  | length (declared given : Nat)
  | kind (declared given : SettingKind)
  | notAList
  | position (index size : Nat)
  | stated (reason : Text)
deriving DecidableEq

/-- Why a text denotes no setting value. -/
inductive ValueFault where
  | empty
  | mixedList
  | stated (reason : Text)
deriving DecidableEq

/-- Why the engine did not accept a call. -/
inductive DeliveryFault where
  | emptyPatchName
  | refused
  | stated (reason : Text)
deriving DecidableEq

/-- A call that the engine did not accept, and the receiver or patch it was addressed to. -/
structure DeliveryError where
  receiver : Text
  fault : DeliveryFault
deriving DecidableEq

/-- Everything that can go wrong in a call of the library. -/
inductive Error where
  | unknownCommand (line : Text)
  | malformedCommand (line : Text) (fault : CommandFault)
  | malformedMessage (message : Text)
  | delivery (cause : DeliveryError)
  | invalidVoiceCount (voices : Nat)
  | voiceOutOfRange (voice voices : Nat)
  | unknownSetting (name : Text)
  | settingMismatch (name : Text) (fault : SettingFault)
  | invalidSettingValue (text : Text) (fault : ValueFault)
deriving DecidableEq

/-- The error with `line` as the line it names, if it is about a malformed command. -/
def Error.atLine (line : Text) : Error → Error
  | .malformedCommand _ fault => .malformedCommand line fault
  | error => error

/-! ## Wording -/

/-- A text between backquotes. -/
def quoted (text : Text) : Text := "`".toList ++ text ++ "`".toList

/-- The words for the cause of a malformed command. -/
def CommandFault.reason : CommandFault → Text
  | .missingName role => "missing ".toList ++ role.label
  | .blankInName role name =>
      role.label ++ " ".toList ++ quoted name ++ " contains whitespace".toList
  | .numericName role name =>
      role.label ++ " ".toList ++ quoted name ++ " must not be a number".toList
  | .missingObjectType => "missing object type".toList
  | .severalNames role => "expected a single ".toList ++ role.label
  | .unexpectedArguments => "takes no arguments".toList
  | .connectionShape => "expected <outletKey> [outlet] <inletKey> [inlet]".toList
  | .notAnIndex token => "index ".toList ++ quoted token ++ " is not an integer".toList
  | .indexTooLarge token => "index ".toList ++ quoted token ++ " is out of range".toList
  | .stated reason => reason

/-- The words for the cause of a setting mismatch. -/
def SettingFault.reason : SettingFault → Text
  | .length declared given =>
      "expected ".toList ++ Text.decimal declared ++ " values, got ".toList ++ Text.decimal given
  | .kind declared given =>
      "expected a ".toList ++ declared.label ++ ", got a ".toList ++ given.label
  | .notAList => "not a list".toList
  | .position index size =>
      "index ".toList ++ Text.decimal index ++ " outside ".toList ++ Text.decimal size
        ++ " values".toList
  | .stated reason => reason

/-- The words for the cause of an invalid setting value. -/
def ValueFault.reason : ValueFault → Text
  | .empty => "empty value".toList
  | .mixedList => "lists must be all numbers".toList
  | .stated reason => reason

/-- The words for the cause of a failed delivery. -/
def DeliveryFault.reason : DeliveryFault → Text
  | .emptyPatchName => "empty patch name".toList
  | .refused => "delivery refused".toList
  | .stated reason => reason

/-- The words for a failed delivery. -/
def DeliveryError.message (error : DeliveryError) : Text :=
  "transport failure at ".toList ++ quoted error.receiver ++ ": ".toList ++ error.fault.reason

/-- The words for an error. -/
def Error.message : Error → Text
  | .unknownCommand line => "unknown command: ".toList ++ quoted line
  | .malformedCommand line fault =>
      "malformed command ".toList ++ quoted line ++ ": ".toList ++ fault.reason
  | .malformedMessage message =>
      "message ".toList ++ quoted message
        ++ " starts with a number; use the list send path instead".toList
  | .delivery cause => cause.message
  | .invalidVoiceCount voices =>
      "voice pool cannot hold ".toList ++ Text.decimal voices ++ " voices".toList
  | .voiceOutOfRange voice voices =>
      "voice ".toList ++ Text.decimal voice ++ " is outside the pool of ".toList
        ++ Text.decimal voices
  | .unknownSetting name => "unknown setting ".toList ++ quoted name
  | .settingMismatch name fault => "setting ".toList ++ quoted name ++ ": ".toList ++ fault.reason
  | .invalidSettingValue text fault =>
      "invalid setting value ".toList ++ quoted text ++ ": ".toList ++ fault.reason

end DynamicPatching

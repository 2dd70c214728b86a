import DynamicPatching.Proofs.Atom.ReadBack
import DynamicPatching.Proofs.Command.Validation
import DynamicPatching.Proofs.Single.Whole

/-!
# The layout of commands on the wire

A command that validation accepts is encoded field by field: its keyword, then its names as one
symbol each, its indices as one number each, and its free text as the atoms of that text
(`layout`). The fields cannot run into each other, because a name is one piece of the wire line and
denotes no number. So the encoding determines the variant of the command, its names, the atoms of
its free text, and its indices up to `2 ^ 24`, from where on neighbouring indices round to one
number.
-/

namespace DynamicPatching

/-- The number is numerically zero or more; a pattern that is not a number is not. -/
def Single.atLeastZero (x : Single) : Bool := !x.isNaN && (!x.negative || decide (x.ordinal = 0))

namespace Command

/-! ## Fields -/

/-- The names in a command, in the order of its line. -/
def names : Command → List Text
  | .object key _ => [key]
  | .message key _ => [key]
  | .floatAtom key _ => [key]
  | .symbolAtom key _ => [key]
  | .delete key => [key]
  | .connect connection => [connection.outletKey, connection.inletKey]
  | .disconnect connection => [connection.outletKey, connection.inletKey]
  | .target subpatch => [subpatch]
  | .send receiver _ => [receiver]
  | .loadbang => []
  | .reset => []

/-- The free text of a command; most commands have none. -/
def freeText : Command → Text
  | .object _ definition => definition
  | .message _ text => text
  | .floatAtom _ arguments => arguments
  | .symbolAtom _ arguments => arguments
  | .send _ text => text
  | _ => []

/-- The outlet and inlet indices in a command. -/
def indices : Command → List UInt32
  | .connect connection => [connection.outlet, connection.inlet]
  | .disconnect connection => [connection.outlet, connection.inlet]
  | _ => []

/-! ## The layout -/

/-- The atoms of a text that may be left out. -/
def optionalAtoms (text : Text) : List Atom := if text = [] then [] else Atom.listOfText text

/-- The atoms of the ends of a connection: each key, and behind it the number nearest to its index.
-/
def connectionAtoms (connection : Connection) : List Atom :=
  [.symbol connection.outletKey, .number (Single.ofNat connection.outlet.toNat),
    .symbol connection.inletKey, .number (Single.ofNat connection.inlet.toNat)]

/-- The atoms of a command, field by field. -/
def layout : Command → List Atom
  | .object key definition =>
      [.symbol "obj".toList, .symbol key] ++ Atom.listOfText definition
  | .message key text => [.symbol "msg".toList, .symbol key] ++ optionalAtoms text
  | .floatAtom key arguments => [.symbol "floatatom".toList, .symbol key] ++ optionalAtoms arguments
  | .symbolAtom key arguments =>
      [.symbol "symbolatom".toList, .symbol key] ++ optionalAtoms arguments
  | .delete key => [.symbol "delete".toList, .symbol key]
  | .connect connection => .symbol "connect".toList :: connectionAtoms connection
  | .disconnect connection => .symbol "disconnect".toList :: connectionAtoms connection
  | .target subpatch => [.symbol "target".toList, .symbol subpatch]
  | .send receiver text => [.symbol "send".toList, .symbol receiver] ++ optionalAtoms text
  | .loadbang => [.symbol "loadbang".toList]
  | .reset => [.symbol "init".toList]

/-- Five atoms, of which the third and the fifth are numbers not below zero. -/
def IsCompleteConnection (atoms : List Atom) : Prop :=
  ∃ (keyword outletKey inletKey : Atom) (outlet inlet : Single),
    atoms = [keyword, outletKey, .number outlet, inletKey, .number inlet] ∧
      outlet.atLeastZero = true ∧ inlet.atLeastZero = true

end Command

/-! ## Atoms of fields -/

namespace Atom

theorem ofToken_name {name : Text} (h : name.IsName) : ofToken name = .symbol name := by
  rw [ofToken, h.number?_eq_none]

/-- A name is one symbol. -/
theorem listOfText_name {name : Text} (h : name.IsName) : listOfText name = [.symbol name] := by
  rw [listOfText_token h.isWord.space_notMem, ofToken_name h]

/-- A numeral is one number. -/
theorem listOfText_decimal {n : Nat} (h : n < 2 ^ 64) :
    listOfText (Text.decimal n) = [.number (Single.ofNat n)] := by
  rw [listOfText_token (Text.isWord_decimal n).space_notMem, ofToken_decimal h]

theorem listOfText_index (index : UInt32) :
    listOfText (Text.decimal index.toNat) = [.number (Single.ofNat index.toNat)] :=
  listOfText_decimal (lt_trans index.toNat_lt (by decide))

end Atom

namespace Command

theorem flatMap_optionalOperand (text : Text) :
    (optionalOperand text).flatMap Atom.listOfText = optionalAtoms text := by
  rw [optionalOperand, optionalAtoms]
  split
  · rfl
  · rw [List.flatMap_singleton]

theorem flatMap_connectionOperands {connection : Connection}
    (h : connection.outletKey.IsName ∧ connection.inletKey.IsName) :
    (connectionOperands connection).flatMap Atom.listOfText = connectionAtoms connection := by
  simp [connectionOperands, connectionAtoms, Atom.listOfText_name h.1, Atom.listOfText_name h.2,
    Atom.listOfText_index]

/-- A name and free text that may be left out. -/
theorem flatMap_name_optionalOperand {name : Text} (h : name.IsName) (text : Text) :
    (name :: optionalOperand text).flatMap Atom.listOfText = .symbol name :: optionalAtoms text := by
  rw [List.flatMap_cons, Atom.listOfText_name h, flatMap_optionalOperand]
  rfl

theorem flatMap_name {name : Text} (h : name.IsName) :
    [name].flatMap Atom.listOfText = [.symbol name] := by
  rw [List.flatMap_singleton, Atom.listOfText_name h]

/-- The atoms of a well-formed command's wire line are its fields. -/
theorem listOfText_wireLine {command : Command} (h : command.IsWellFormed) :
    Atom.listOfText command.wireLine = command.layout := by
  -- the keyword is a name in every variant; what is behind it is found field by field
  rw [wireLine, Atom.listOfText_spaced (List.cons_ne_nil _ _), List.flatMap_cons,
    Atom.listOfText_name (command.keyword.wireWord_isName)]
  cases command with
  | object key definition =>
      obtain ⟨hkey, -⟩ := h
      rw [operands, List.flatMap_cons, Atom.listOfText_name hkey, List.flatMap_singleton]
      rfl
  | message key text =>
      have hkey : key.IsName := h
      rw [operands, flatMap_name_optionalOperand hkey]
      rfl
  | floatAtom key arguments =>
      have hkey : key.IsName := h
      rw [operands, flatMap_name_optionalOperand hkey]
      rfl
  | symbolAtom key arguments =>
      have hkey : key.IsName := h
      rw [operands, flatMap_name_optionalOperand hkey]
      rfl
  | delete key =>
      have hkey : key.IsName := h
      rw [operands, flatMap_name hkey]
      rfl
  | connect connection =>
      rw [operands, flatMap_connectionOperands h]
      rfl
  | disconnect connection =>
      rw [operands, flatMap_connectionOperands h]
      rfl
  | target subpatch =>
      have hsubpatch : subpatch.IsName := h
      rw [operands, flatMap_name hsubpatch]
      rfl
  | send receiver text =>
      have hreceiver : receiver.IsName := h
      rw [operands, flatMap_name_optionalOperand hreceiver]
      rfl
  | loadbang => rfl
  | reset => rfl

/-! ## What the layout determines -/

theorem optionalAtoms_inj {text other : Text} (h : optionalAtoms text = optionalAtoms other) :
    Atom.listOfText text = Atom.listOfText other := by
  rw [optionalAtoms, optionalAtoms] at h
  -- a text that is not left out has an atom, so both are left out or neither is
  by_cases htext : text = []
  · by_cases hother : other = []
    · rw [htext, hother]
    · rw [if_pos htext, if_neg hother] at h
      exact absurd h.symm (Atom.listOfText_ne_nil other)
  · by_cases hother : other = []
    · rw [if_neg htext, if_pos hother] at h
      exact absurd h (Atom.listOfText_ne_nil text)
    · rw [if_neg htext, if_neg hother] at h
      exact h

theorem connectionAtoms_inj {connection other : Connection}
    (h : connectionAtoms connection = connectionAtoms other) :
    [connection.outletKey, connection.inletKey] = [other.outletKey, other.inletKey] ∧
      ((∀ index ∈ [connection.outlet, connection.inlet] ++ [other.outlet, other.inlet],
          index.toNat ≤ 2 ^ 24) →
        [connection.outlet, connection.inlet] = [other.outlet, other.inlet]) := by
  simp only [connectionAtoms, List.cons.injEq, Atom.symbol.injEq, Atom.number.injEq] at h
  obtain ⟨houtletKey, houtlet, hinletKey, hinlet, -⟩ := h
  refine ⟨by rw [houtletKey, hinletKey], ?_⟩
  intro hsmall
  -- rounding keeps indices apart only where both are exact
  have hindex : ∀ index : UInt32, index ∈ [connection.outlet, connection.inlet, other.outlet,
      other.inlet] → index.toNat ≤ 2 ^ 24 := hsmall
  rw [Single.ofNat_inj (hindex _ (by simp)) (hindex _ (by simp)), UInt32.toNat_inj] at houtlet hinlet
  rw [houtlet, hinlet]

theorem head?_layout (command : Command) :
    command.layout.head? = some (.symbol command.keyword.wireWord) := by
  cases command <;> rfl

theorem wireWord_inj {keyword other : Keyword} (h : keyword.wireWord = other.wireWord) :
    keyword = other := by
  revert h
  cases keyword <;> cases other <;> decide

/-- The layout determines the variant, the names, the atoms of the free text, and the indices as far
as they are rounded to different numbers. -/
theorem layout_inj {command other : Command} (h : command.layout = other.layout) :
    command.keyword = other.keyword ∧ command.names = other.names ∧
      Atom.listOfText command.freeText = Atom.listOfText other.freeText ∧
      ((∀ index ∈ command.indices ++ other.indices, index.toNat ≤ 2 ^ 24) →
        command.indices = other.indices) := by
  have hkeyword : command.keyword = other.keyword := by
    apply wireWord_inj
    have hhead := congrArg List.head? h
    rw [head?_layout, head?_layout] at hhead
    simpa using hhead
  refine ⟨hkeyword, ?_⟩
  -- two commands of one variant; the free text is compared by its atoms
  match command, other, hkeyword with
  | .object key definition, .object key' definition', _ =>
      obtain ⟨hkey, htext⟩ : key = key' ∧ Atom.listOfText definition = Atom.listOfText definition' := by
        simpa [layout] using h
      exact ⟨by rw [names, names, hkey], htext, fun _ => rfl⟩
  | .message key text, .message key' text', _ =>
      obtain ⟨hkey, htext⟩ : key = key' ∧ optionalAtoms text = optionalAtoms text' := by
        simpa [layout] using h
      exact ⟨by rw [names, names, hkey], optionalAtoms_inj htext, fun _ => rfl⟩
  | .floatAtom key text, .floatAtom key' text', _ =>
      obtain ⟨hkey, htext⟩ : key = key' ∧ optionalAtoms text = optionalAtoms text' := by
        simpa [layout] using h
      exact ⟨by rw [names, names, hkey], optionalAtoms_inj htext, fun _ => rfl⟩
  | .symbolAtom key text, .symbolAtom key' text', _ =>
      obtain ⟨hkey, htext⟩ : key = key' ∧ optionalAtoms text = optionalAtoms text' := by
        simpa [layout] using h
      exact ⟨by rw [names, names, hkey], optionalAtoms_inj htext, fun _ => rfl⟩
  | .send receiver text, .send receiver' text', _ =>
      obtain ⟨hkey, htext⟩ : receiver = receiver' ∧ optionalAtoms text = optionalAtoms text' := by
        simpa [layout] using h
      exact ⟨by rw [names, names, hkey], optionalAtoms_inj htext, fun _ => rfl⟩
  | .delete key, .delete key', _ =>
      obtain rfl : key = key' := by simpa [layout] using h
      exact ⟨rfl, rfl, fun _ => rfl⟩
  | .target subpatch, .target subpatch', _ =>
      obtain rfl : subpatch = subpatch' := by simpa [layout] using h
      exact ⟨rfl, rfl, fun _ => rfl⟩
  | .connect connection, .connect connection', _ =>
      obtain ⟨hkeys, hindices⟩ := connectionAtoms_inj (List.cons.inj h).2
      exact ⟨hkeys, rfl, hindices⟩
  | .disconnect connection, .disconnect connection', _ =>
      obtain ⟨hkeys, hindices⟩ := connectionAtoms_inj (List.cons.inj h).2
      exact ⟨hkeys, rfl, hindices⟩
  | .loadbang, .loadbang, _ => exact ⟨rfl, rfl, fun _ => rfl⟩
  | .reset, .reset, _ => exact ⟨rfl, rfl, fun _ => rfl⟩

theorem atLeastZero_ofNat (n : Nat) : (Single.ofNat n).atLeastZero = true := by
  have hsign : (Single.ofNat n).negative = false := rfl
  have hordinal : (Single.ofNat n).ordinal ≤ Single.infinityOrdinal := Nat.min_le_right _ _
  have hnumber : (Single.ofNat n).isNaN = false := decide_eq_false (Nat.not_lt.2 hordinal)
  simp [Single.atLeastZero, hsign, hnumber]

theorem isCompleteConnection_connectionAtoms (keyword : Atom) (connection : Connection) :
    IsCompleteConnection (keyword :: connectionAtoms connection) :=
  ⟨keyword, .symbol connection.outletKey, .symbol connection.inletKey, _, _, rfl,
    atLeastZero_ofNat _, atLeastZero_ofNat _⟩

theorem isWellFormed_of_encode {command : Command} {atoms : List Atom}
    (h : command.encode.outcome = .ok atoms) : command.IsWellFormed ∧ atoms = command.layout := by
  rw [encode_outcome] at h
  cases hvalidate : command.validate.outcome with
  | error error =>
      rw [hvalidate] at h
      cases h
  | ok _ =>
      have hformed := validate_outcome_eq_ok_iff.1 hvalidate
      rw [hvalidate] at h
      obtain rfl : Atom.listOfText command.wireLine = atoms := Except.ok.inj h
      exact ⟨hformed, listOfText_wireLine hformed⟩

/-- **The layout of every command.** A command is encoded exactly when validation accepts it, and
then field by field, with every index rounded to its nearest number; up to `2 ^ 24` nothing is lost.
Equal encodings come from commands of one variant with the same names, free text of the same atoms,
and the same indices as far as these are exact. An encoded connection is always complete. -/
theorem encode_layout :
    (∀ command : Command,
      command.encode.outcome = command.validate.outcome.map fun _ => command.layout) ∧
    (∀ index : UInt32,
      (Single.ofNat index.toNat).IsNearest index.toNat ∧
        (index.toNat ≤ 2 ^ 24 → (Single.ofNat index.toNat).value = index.toNat)) ∧
    (∀ (command other : Command) (atoms : List Atom),
      command.encode.outcome = .ok atoms → other.encode.outcome = .ok atoms →
        command.keyword = other.keyword ∧ command.names = other.names ∧
          Atom.listOfText command.freeText = Atom.listOfText other.freeText ∧
          ((∀ index ∈ command.indices ++ other.indices, index.toNat ≤ 2 ^ 24) →
            command.indices = other.indices)) ∧
    (∀ (connection : Connection) (atoms : List Atom),
      (Command.connect connection).encode.outcome = .ok atoms ∨
          (Command.disconnect connection).encode.outcome = .ok atoms →
        IsCompleteConnection atoms) := by
  refine ⟨?_, ?_, ?_, ?_⟩
  · intro command
    rw [encode_outcome]
    cases hvalidate : command.validate.outcome with
    | error error => rfl
    | ok _ =>
        have hlayout := listOfText_wireLine (validate_outcome_eq_ok_iff.1 hvalidate)
        exact congrArg Except.ok hlayout
  · intro index
    exact ⟨Single.isNearest_ofNat (lt_trans index.toNat_lt (by decide)), Single.value_ofNat⟩
  · intro command other atoms hcommand hother
    obtain ⟨-, hlayout⟩ := isWellFormed_of_encode hcommand
    obtain ⟨-, hlayout'⟩ := isWellFormed_of_encode hother
    exact layout_inj (hlayout.symm.trans hlayout')
  · intro connection atoms h
    rcases h with h | h
    · obtain ⟨-, rfl⟩ := isWellFormed_of_encode h
      exact isCompleteConnection_connectionAtoms _ connection
    · obtain ⟨-, rfl⟩ := isWellFormed_of_encode h
      exact isCompleteConnection_connectionAtoms _ connection

/-- Two number boxes whose texts differ and whose atoms agree, and the connection with the largest
index that is exact. -/
theorem encode_layout_boxes :
    let box := Command.floatAtom "n".toList "5 1.0".toList
    let other := Command.floatAtom "n".toList "5 1".toList
    let ends : Connection := ⟨"a".toList, 16777216, "b".toList, 3⟩
    (∃ atoms, box.encode.outcome = .ok atoms ∧ other.encode.outcome = .ok atoms ∧
      box.names = other.names ∧ Atom.listOfText box.freeText = Atom.listOfText other.freeText) ∧
    (Single.ofNat ends.outlet.toNat).value = ends.outlet.toNat ∧
    (∃ atoms, (Command.connect ends).encode.outcome = .ok atoms ∧ IsCompleteConnection atoms) := by
  intro box other ends
  have hbox : box.encode.outcome = .ok (Atom.listOfText box.wireLine) :=
    encode_outcome_of_isWellFormed (by decide +kernel)
  have hother : other.encode.outcome = .ok (Atom.listOfText box.wireLine) := by
    have hatoms : Atom.listOfText other.wireLine = Atom.listOfText box.wireLine := by decide +kernel
    rw [← hatoms]
    exact encode_outcome_of_isWellFormed (by decide +kernel)
  have hends : (Command.connect ends).encode.outcome =
      .ok (Atom.listOfText (Command.connect ends).wireLine) :=
    encode_outcome_of_isWellFormed (by decide +kernel)
  obtain ⟨-, hexact, hequal, hcomplete⟩ := encode_layout
  obtain ⟨-, hnames, htext, -⟩ := hequal box other _ hbox hother
  exact ⟨⟨_, hbox, hother, hnames, htext⟩, (hexact ends.outlet).2 (by decide),
    ⟨_, hends, hcomplete ends _ (Or.inl hends)⟩⟩

end Command

end DynamicPatching

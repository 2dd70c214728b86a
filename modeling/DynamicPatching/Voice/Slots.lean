import DynamicPatching.Engine.Basic

/-!
# Slots of a channel object

The channel object behind a receiver keeps a row of slots. A list that the interpreter passes on to
it may be a directive: `init` and a number adds that slot, `delete` and a number removes it. Every
other list leaves the slots alone. Replaying the lists delivered to an interpreter gives the slots
that the engine holds.

Besides directives, the interpreter passes on messages to the slots of a channel object: the number
of a slot, and behind it the tokens of a setting's name and of its value. A `SlotSetting` is one
setting of one slot. Replaying the lists delivered to an interpreter gives the last list about it
since the slot was added, or that there was none, or that the slot is absent.
-/

namespace DynamicPatching

/-! ## Directives -/

/-- What a list tells a channel object to do with its slots. -/
inductive SlotDirective where
  | load (slot : Single)
  | delete (slot : Single)
deriving DecidableEq

namespace SlotDirective

/-- The directive in the atoms that follow the receiver. -/
def ofArguments? : List Atom → Option SlotDirective
  | .symbol word :: .number slot :: _ =>
      if word = "init".toList then some (.load slot)
      else if word = "delete".toList then some (.delete slot)
      else none
  | _ => none

/-- The directive to a receiver in a list delivered to the interpreter. -/
def ofAtoms? (receiver : Text) : List Atom → Option SlotDirective
  | .symbol word :: .symbol name :: arguments =>
      if word = "send".toList ∧ name = receiver then ofArguments? arguments else none
  | _ => none

/-- The directive to a receiver in a delivery, if it reaches the receiver's interpreter. -/
def ofDelivery? (interpreter receiver : Text) (delivery : Delivery) : Option SlotDirective :=
  match delivery.payload with
  | .list atoms => if delivery.receiver = interpreter then ofAtoms? receiver atoms else none
  | _ => none

/-- The slots after a directive. -/
def apply (slots : List Single) : SlotDirective → List Single
  | .load slot => slots ++ [slot]
  | .delete slot => slots.filter fun other => decide (other ≠ slot)

/-- The slots after a row of deliveries. -/
def replay (interpreter receiver : Text) (slots : List Single) (deliveries : List Delivery) :
    List Single :=
  (deliveries.filterMap (ofDelivery? interpreter receiver)).foldl apply slots

end SlotDirective

/-! ## What a slot has been sent -/

/-- A setting of a slot of the channel object behind a receiver. -/
structure SlotSetting where
  interpreter : Text
  receiver : Text
  slot : Single
  name : Text
deriving DecidableEq

/-- What a slot has been sent about a setting: the last list since the slot was added. -/
inductive SlotRecord where
  | absent
  | fresh
  | sent (atoms : List Atom)
deriving DecidableEq

/-- The record after another list; a slot that is absent is sent nothing. -/
def SlotRecord.update (record : SlotRecord) (atoms : List Atom) : SlotRecord :=
  match record with
  | .absent => .absent
  | .fresh => .sent atoms
  | .sent _ => .sent atoms

namespace SlotSetting

/-- The atoms that every list about the setting begins with. -/
def heading (setting : SlotSetting) : List Atom :=
  .symbol "send".toList :: .symbol setting.receiver :: .number setting.slot ::
    Atom.listOfText setting.name

/-- The list of a delivery, if it is about the setting. -/
def ofDelivery? (setting : SlotSetting) (delivery : Delivery) : Option (List Atom) :=
  match delivery.payload with
  | .list atoms =>
      if delivery.receiver = setting.interpreter ∧ setting.heading <+: atoms then some atoms
      else none
  | _ => none

/-- The record after a delivery. -/
def step (setting : SlotSetting) (record : SlotRecord) (delivery : Delivery) : SlotRecord :=
  match SlotDirective.ofDelivery? setting.interpreter setting.receiver delivery with
  | some (.load slot) => if slot = setting.slot then .fresh else record
  | some (.delete slot) => if slot = setting.slot then .absent else record
  | none =>
      match setting.ofDelivery? delivery with
      | some atoms => record.update atoms
      | none => record

/-- The record after a row of deliveries, the first of which finds no slots. -/
def replay (setting : SlotSetting) (deliveries : List Delivery) : SlotRecord :=
  deliveries.foldl setting.step .absent

end SlotSetting

end DynamicPatching

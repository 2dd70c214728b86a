import DynamicPatching.Atom

/-!
# The recording engine

The engine opens patches and accepts deliveries. A delivery is a payload addressed to a receiver by
name; its text is what the payload looks like on the wire, without the receiver. This engine keeps a
record of both. Every patch it opens gets a handle of its own, counted up from `firstHandle`. A
limit, when one is armed, is the number of deliveries still accepted: each accepted delivery uses
one up, and at zero every delivery is refused. Opening a patch and clearing the record neither use
the limit nor lift it. A call that fails yields no engine, so it changes nothing.

A history of an engine is a list of calls. `perform` makes one call and yields the engine after it,
which is the same engine when the call fails; `after` makes a row of them.

A row of deliveries that stops at the first refusal gets through up to the limit. `room` is the
number that gets through, `acceptAll` the engine afterwards, and `refusal?` the error of the first
delivery that does not get through, if there is one. `deliverAll` makes the row step by step and
agrees with this description (`deliverAll_eq`).
-/

namespace DynamicPatching

/-! ## Deliveries -/

/-- What a delivery carries. -/
inductive Payload where
  | list (atoms : List Atom)
  | message (selector : Text) (arguments : List Atom)
  | bang
  | number (value : Single)
deriving DecidableEq

/-- The wire text of a payload. -/
def Payload.text : Payload → Text
  | .list atoms => Atom.textOfList atoms
  | .message selector [] => selector
  | .message selector arguments => Text.spaced [selector, Atom.textOfList arguments]
  | .bang => "bang".toList
  | .number value => value.text

/-- A payload and the receiver it is addressed to. -/
structure Delivery where
  receiver : Text
  payload : Payload
deriving DecidableEq

/-- The wire text of a delivery. -/
def Delivery.text (delivery : Delivery) : Text := delivery.payload.text

/-! ## The engine -/

/-- A patch that was opened: its name, the directory it was opened from, and its handle. -/
structure OpenedPatch where
  name : Text
  directory : Text
  handle : Nat
deriving DecidableEq

/-- The record of an engine, oldest entries first, and the deliveries it still accepts, if limited.
-/
structure Engine where
  nextHandle : Nat
  opened : List OpenedPatch
  accepted : List Delivery
  limit : Option Nat
deriving DecidableEq

namespace Engine

/-- The handle of the first patch that an engine opens. -/
def firstHandle : Nat := 1001

/-- The engine with an empty record and no limit. -/
def fresh : Engine := ⟨firstHandle, [], [], none⟩

/-! ### Calls -/

/-- Opens a patch and yields its handle; a patch must have a name. -/
def openPatch (engine : Engine) (name directory : Text) : Except DeliveryError (Nat × Engine) :=
  if name = [] then .error ⟨name, .emptyPatchName⟩
  else
    .ok (engine.nextHandle,
      { engine with
        nextHandle := engine.nextHandle + 1
        opened := engine.opened ++ [⟨name, directory, engine.nextHandle⟩] })

/-- Accepts a delivery unless the limit is used up. -/
def deliver (engine : Engine) (delivery : Delivery) : Except DeliveryError Engine :=
  match engine.limit with
  | none => .ok { engine with accepted := engine.accepted ++ [delivery] }
  | some 0 => .error ⟨delivery.receiver, .refused⟩
  | some (remaining + 1) =>
      .ok { engine with accepted := engine.accepted ++ [delivery], limit := some remaining }

/-! ### Limit and record -/

/-- Arms a limit. -/
def failAfter (engine : Engine) (deliveries : Nat) : Engine :=
  { engine with limit := some deliveries }

/-- Lifts the limit. -/
def recover (engine : Engine) : Engine := { engine with limit := none }

/-- Forgets the accepted deliveries. -/
def clear (engine : Engine) : Engine := { engine with accepted := [] }

/-- The texts of the deliveries accepted for a receiver, in order. -/
def linesTo (engine : Engine) (receiver : Text) : List Text :=
  (engine.accepted.filter fun delivery => decide (delivery.receiver = receiver)).map Delivery.text

end Engine

/-! ## Calls as data -/

/-- One call to an engine. -/
inductive EngineCall where
  | openPatch (name directory : Text)
  | deliver (delivery : Delivery)
  | failAfter (deliveries : Nat)
  | recover
  | clear
deriving DecidableEq

namespace Engine

/-- The engine after a call, and the outcome of the call: the handle of a patch that was opened. -/
def perform (engine : Engine) : EngineCall → Except DeliveryError (Option Nat) × Engine
  | .openPatch name directory =>
      match engine.openPatch name directory with
      | .ok (handle, opened) => (.ok (some handle), opened)
      | .error cause => (.error cause, engine)
  | .deliver delivery =>
      match engine.deliver delivery with
      | .ok delivered => (.ok none, delivered)
      | .error cause => (.error cause, engine)
  | .failAfter deliveries => (.ok none, engine.failAfter deliveries)
  | .recover => (.ok none, engine.recover)
  | .clear => (.ok none, engine.clear)

/-- The engine after a row of calls, whatever their outcomes. -/
def after (engine : Engine) (calls : List EngineCall) : Engine :=
  calls.foldl (fun engine call => (engine.perform call).2) engine

/-! ## Rows of deliveries under a limit -/

/-- How many of a number of deliveries the engine accepts. -/
def room (engine : Engine) (count : Nat) : Nat :=
  match engine.limit with
  | none => count
  | some remaining => min remaining count

/-- The engine after it has accepted what it has room for. -/
def acceptAll (engine : Engine) (deliveries : List Delivery) : Engine :=
  { engine with
    accepted := engine.accepted ++ deliveries.take (engine.room deliveries.length)
    limit := engine.limit.map (· - engine.room deliveries.length) }

/-- The refusal of the first delivery that the engine has no room for. -/
def refusal? (engine : Engine) (deliveries : List Delivery) : Option DeliveryError :=
  (deliveries[engine.room deliveries.length]?).map fun delivery => ⟨delivery.receiver, .refused⟩

/-- Makes deliveries in order, up to the first refusal. -/
def deliverAll (engine : Engine) : List Delivery → Option DeliveryError × Engine
  | [] => (none, engine)
  | delivery :: rest =>
      match engine.deliver delivery with
      | .ok delivered => deliverAll delivered rest
      | .error cause => (some cause, engine)

/-- **A row of deliveries gets through exactly up to the limit.** -/
theorem deliverAll_eq (engine : Engine) (deliveries : List Delivery) :
    engine.deliverAll deliveries = (engine.refusal? deliveries, engine.acceptAll deliveries) := by
  induction deliveries generalizing engine with
  | nil =>
      obtain ⟨next, opened, accepted, limit⟩ := engine
      cases limit <;> simp [deliverAll, refusal?, acceptAll, room]
  | cons delivery rest ih =>
      obtain ⟨next, opened, accepted, limit⟩ := engine
      match limit with
      | none =>
          simp only [deliverAll, deliver]
          rw [ih]
          simp [refusal?, acceptAll, room]
      | some 0 =>
          simp [deliverAll, deliver, refusal?, acceptAll, room]
      | some (remaining + 1) =>
          simp only [deliverAll, deliver]
          rw [ih]
          have more : min (remaining + 1) (rest.length + 1) = min remaining rest.length + 1 := by
            omega
          simp [refusal?, acceptAll, room, more]

end Engine

end DynamicPatching

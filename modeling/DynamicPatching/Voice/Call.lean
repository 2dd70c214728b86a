import DynamicPatching.Voice.Pool

/-!
# Calls to a pool as data

A call loads, hands out, adds or removes voices, or sends a message to all of them or to one.
Handing out yields the voice. A step of a run is one of these calls, other than loading once more,
or a change of the limit of the engine (`PoolStep`).
-/

namespace DynamicPatching

/-! ## Calls -/

/-- One call to a pool of voices. -/
inductive PoolCall where
  | loadAll
  | allocate
  | resize (target : Nat)
  | broadcast (message : Text)
  | unicast (voice : Nat) (message : Text)
deriving DecidableEq

/-- The action of a call, made through a session; it yields the voice that was handed out. -/
def PoolCall.run (session : Session) : PoolCall → ActionOn VoicePool (Option Nat)
  | .loadAll => do
      ActionOn.onBench fun pool => pool.loadAll session
      pure none
  | .allocate => do
      let voice ← VoicePool.allocate
      pure (some voice)
  | .resize target => do
      VoicePool.resize session target
      pure none
  | .broadcast message => do
      ActionOn.onBench fun pool => pool.broadcast session message
      pure none
  | .unicast voice message => do
      ActionOn.onBench fun pool => pool.unicast session voice message
      pure none

/-! ## Runs -/

/-- One operation of a pool, or one change of the limit of the engine. -/
inductive PoolStep where
  | allocate
  | resize (target : Nat)
  | broadcast (message : Text)
  | unicast (voice : Nat) (message : Text)
  | failAfter (deliveries : Nat)
  | recover

namespace PoolStep

/-- The pool and the bench after a step, whether or not it succeeds. -/
def perform (session : Session) : PoolStep → VoicePool × Bench → VoicePool × Bench
  | .allocate, state => stateAfter VoicePool.allocate state
  | .resize target, state => stateAfter (VoicePool.resize session target) state
  | .broadcast message, state =>
      stateAfter (ActionOn.onBench fun pool => pool.broadcast session message) state
  | .unicast voice message, state =>
      stateAfter (ActionOn.onBench fun pool => pool.unicast session voice message) state
  | .failAfter deliveries, (pool, bench) =>
      (pool, { bench with engine := bench.engine.failAfter deliveries })
  | .recover, (pool, bench) => (pool, { bench with engine := bench.engine.recover })

/-- The pool and the bench after a row of steps. -/
def run (session : Session) (steps : List PoolStep) (state : VoicePool × Bench) :
    VoicePool × Bench :=
  steps.foldl (fun state step => step.perform session state) state

/-- The step sends a message to voices. -/
def IsMessage : PoolStep → Prop
  | .broadcast _ => True
  | .unicast _ _ => True
  | _ => False

end PoolStep

end DynamicPatching

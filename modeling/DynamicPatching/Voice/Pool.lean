import DynamicPatching.Session.Basic

/-!
# Voice pools

A channel object of the patch holds a number of voices, addressed by their index. A pool knows how
many the engine holds and which one is handed out next. Handing out goes round the pool, and takes
the oldest voice again when it wraps. Messages for a voice carry its index in front and are sent
from inside the patch.

Resizing deletes voices from the top down or loads new ones from the bottom up. The size follows
every delivered directive, so after a failure it is still the number of voices that the engine
holds, and a second call sends only what is left. The cursor is wrapped into the pool either way.
-/

namespace DynamicPatching

/-- The voices of one channel object, and the voice that is handed out next. -/
structure VoicePool where
  receiver : Text
  synthType : Text
  channelLayout : Text
  size : Nat
  cursor : Nat
deriving DecidableEq

namespace VoicePool

/-- The pool of a channel object; a pool holds at least one voice. -/
def make (receiver : Text) (config : SynthConfig) : Except Error VoicePool :=
  if config.voices = 0 then .error (.invalidVoiceCount 0)
  else .ok ⟨receiver, config.synthType, config.channelLayout, config.voices, 0⟩

/-! ## Messages -/

/-- The message for one voice. -/
def addressed (voice : Nat) (message : Text) : Text := Text.spaced [Text.decimal voice, message]

/-- The directive that loads a voice. -/
def loadDirective (pool : VoicePool) (voice : Nat) : Text :=
  Text.spaced ["init".toList, Text.decimal voice, pool.channelLayout, pool.synthType]

/-- The directive that deletes a voice. -/
def deleteDirective (voice : Nat) : Text := Text.spaced ["delete".toList, Text.decimal voice]

/-- Loads one voice. -/
def loadVoice (pool : VoicePool) (session : Session) (voice : Nat) : Action Unit :=
  session.send pool.receiver (pool.loadDirective voice)

/-- Loads every voice, lowest first. -/
def loadAll (pool : VoicePool) (session : Session) : Action Unit :=
  Action.forNumbers (pool.loadVoice session) 0 pool.size

/-- Sends a message to every voice, lowest first. -/
def broadcast (pool : VoicePool) (session : Session) (message : Text) : Action Unit := do
  Action.forNumbers (fun voice => session.send pool.receiver (addressed voice message)) 0 pool.size
  Action.note .broadcastComplete

/-- Sends a message to one voice of the pool. -/
def unicast (pool : VoicePool) (session : Session) (voice : Nat) (message : Text) : Action Unit :=
  if voice < pool.size then
    session.send pool.receiver (addressed voice message)
  else
    throw (.voiceOutOfRange voice pool.size)

/-! ## Allocation -/

/-- The pool with the cursor moved to the next voice. -/
def advance (pool : VoicePool) : VoicePool := { pool with cursor := (pool.cursor + 1) % pool.size }

/-- Hands out the next voice. -/
def allocate : ActionOn VoicePool Nat := do
  let voice ← ActionOn.onBench fun pool => pure pool.cursor
  ActionOn.change advance
  ActionOn.onBench fun _ => Action.note .cursorInPool
  pure voice

/-! ## Resizing -/

/-- Deletes voices from the top, one for each count. -/
def shrinkBy (session : Session) : Nat → ActionOn VoicePool Unit
  | 0 => pure ()
  | count + 1 => do
      ActionOn.onBench fun pool => session.send pool.receiver (deleteDirective (pool.size - 1))
      ActionOn.change fun pool => { pool with size := pool.size - 1 }
      shrinkBy session count

/-- Loads voices above the top, one for each count. -/
def growBy (session : Session) : Nat → ActionOn VoicePool Unit
  | 0 => pure ()
  | count + 1 => do
      ActionOn.onBench fun pool => pool.loadVoice session pool.size
      ActionOn.change fun pool => { pool with size := pool.size + 1 }
      growBy session count

/-- Deletes or loads voices until the pool has the given size. -/
def stepTowards (session : Session) (target : Nat) : ActionOn VoicePool Unit := do
  let size ← ActionOn.onBench fun pool => pure pool.size
  shrinkBy session (size - target)
  growBy session (target - size)

/-- The pool with its cursor wrapped into it. -/
def rewrap (pool : VoicePool) : VoicePool := { pool with cursor := pool.cursor % pool.size }

/-- Gives the pool a new size of at least one. -/
def resize (session : Session) (target : Nat) : ActionOn VoicePool Unit := fun (pool, bench) =>
  if target = 0 then .error (.invalidVoiceCount 0) (pool, bench)
  else
    match stepTowards session target (pool, bench) with
    | .ok _ (stepped, bench) =>
        .ok () (stepped.rewrap, { bench with contracts := bench.contracts.note .resizeExact })
    | .error error (stepped, bench) => .error error (stepped.rewrap, bench)

end VoicePool

end DynamicPatching

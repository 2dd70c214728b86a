import DynamicPatching.Library.Call
import DynamicPatching.Proofs.Command.Construction
import DynamicPatching.Proofs.Synth.Reachable

/-!
# Histories of a pool

A call does one of three things to a pool: it leaves it alone, it hands out the voice at the cursor
and moves the cursor on, or it gives the pool a new size and wraps the cursor into it
(`VoicePool.Becomes`). This holds for every receiver: nothing is ever sent to one that is not a name,
so such a pool keeps its size (`VoicePool.stepTowards_makes_unnamed`). Between the calls, any other
calls to the library may be made on the same bench (`PoolEvent`).
-/

namespace DynamicPatching

/-! ## What becomes of a pool -/

/-- What a call makes of a pool, and the voice that it hands out. Only a call that `resizes` changes
the size. -/
inductive VoicePool.Becomes (pool : VoicePool) (resizes : Prop) : Option Nat → VoicePool → Prop
  | same : Becomes pool resizes none pool
  | advanced : Becomes pool resizes (some pool.cursor) pool.advance
  | resized {size : Nat} (allowed : resizes) (voices : 1 ≤ size) :
      Becomes pool resizes none { pool with size, cursor := pool.cursor % size }

namespace VoicePool.Becomes

variable {pool after : VoicePool} {resizes : Prop} {voice : Option Nat}

theorem receiver_eq (h : pool.Becomes resizes voice after) : after.receiver = pool.receiver := by
  cases h <;> rfl

theorem size_eq (h : pool.Becomes resizes voice after) (hkept : ¬ resizes) :
    after.size = pool.size := by
  cases h with
  | same => rfl
  | advanced => rfl
  | resized allowed voices => exact absurd allowed hkept

theorem imp {others : Prop} (h : pool.Becomes resizes voice after) (himp : resizes → others) :
    pool.Becomes others voice after := by
  cases h with
  | same => exact .same
  | advanced => exact .advanced
  | resized allowed voices => exact .resized (himp allowed) voices

/-- The cursor stays in the pool. -/
theorem cursor_lt (h : pool.Becomes resizes voice after) (hcursor : pool.cursor < pool.size) :
    after.cursor < after.size := by
  cases h with
  | same => exact hcursor
  | advanced => exact Nat.mod_lt _ (Nat.zero_lt_of_lt hcursor)
  | resized allowed voices => exact Nat.mod_lt _ voices

/-- If the size stays, the cursor stays or has moved on from the voice that was handed out. -/
theorem cursor_eq (h : pool.Becomes resizes voice after) (hcursor : pool.cursor < pool.size)
    (hsize : after.size = pool.size) :
    after.cursor = (pool.cursor + voice.toList.length) % pool.size ∧
      ∀ handed ∈ voice, handed = pool.cursor := by
  cases h with
  | same => exact ⟨(Nat.mod_eq_of_lt hcursor).symm, fun _ hnone => absurd hnone (by simp)⟩
  | advanced => exact ⟨rfl, fun _ hsome => (Option.some.inj hsome).symm⟩
  | resized allowed voices =>
      refine ⟨?_, fun _ hnone => absurd hnone (by simp)⟩
      rw [← hsize]
      rfl

end VoicePool.Becomes

/-! ## Receivers that are no names -/

namespace VoicePool

variable {session : Session} {pool : VoicePool}

/-- Nothing is sent to a receiver that is not a name. -/
theorem send_makes_error {receiver : Text} (h : ¬ receiver.IsName) (message : Text) :
    ∃ line fault,
      (session.send receiver message).Makes [] (.error (.malformedCommand line fault)) := by
  cases houtcome : (Command.makeSend receiver message).outcome with
  | ok command => exact absurd (Command.requireName_then_eq_ok_iff.1 houtcome).1 h
  | error error =>
      obtain ⟨line, fault, rfl⟩ := Command.requireName_then_failsMalformed error houtcome
      exact ⟨line, fault, Session.perform_makes_error houtcome⟩

/-- The first step that would be sent to a receiver that is not a name fails. -/
theorem stepTowards_makes_unnamed (h : ¬ pool.receiver.IsName) (target : Nat) :
    ∃ ending, (stepTowards session target).Makes pool [] (fun _ => pool) ending := by
  have hsize : ActionOn.Makes (ActionOn.onBench fun pool : VoicePool => pure pool.size) pool []
      (fun _ => pool) (.ok pool.size) :=
    ActionOn.makes_onBench _ (Action.makes_pure pool.size)
  have hsend : ∀ message : VoicePool → Text, ∃ error, ActionOn.Makes
      (ActionOn.onBench fun pool => session.send pool.receiver (message pool)) pool []
      (fun _ => pool) (.error error) := by
    intro message
    obtain ⟨line, fault, hmakes⟩ := @send_makes_error session _ h (message pool)
    exact ⟨_, ActionOn.makes_onBench _ hmakes⟩
  -- one of the loops has a first step, unless the pool has the size already
  rcases Nat.lt_trichotomy target pool.size with hlt | rfl | hlt
  · obtain ⟨error, herror⟩ := hsend fun pool => deleteDirective (pool.size - 1)
    obtain ⟨count, hcount⟩ := Nat.exists_eq_add_of_lt hlt
    have hfirst : pool.size - target = count + 1 := by omega
    refine ⟨.error error, hsize.bind_still (ActionOn.Makes.bind_error _ ?_)⟩
    rw [hfirst, shrinkBy]
    exact herror.bind_error _
  · refine ⟨.ok (), hsize.bind_still ?_⟩
    rw [Nat.sub_self, shrinkBy, growBy]
    exact ActionOn.makes_pure () pool
  · obtain ⟨error, herror⟩ := hsend fun pool => pool.loadDirective pool.size
    obtain ⟨count, hcount⟩ := Nat.exists_eq_add_of_lt hlt
    have hfirst : target - pool.size = count + 1 := by omega
    refine ⟨.error error, hsize.bind_still ?_⟩
    rw [Nat.sub_eq_zero_of_le hlt.le, shrinkBy, hfirst, growBy]
    exact herror.bind_error _

/-! ## Calls -/

/-- A resize changes the size, and the cursor only to wrap it. -/
theorem rewrap_resized (target count : Nat) :
    (pool.resized target count).rewrap =
      { pool with
        size := (pool.resized target count).size
        cursor := pool.cursor % (pool.resized target count).size } := by
  rw [rewrap, resized]
  split <;> rfl

/-- A resize leaves a pool of at least one voice with its cursor wrapped into it, however far it gets
and whatever the receiver. -/
theorem becomes_resize (hcursor : pool.cursor < pool.size) (target : Nat) (bench : Bench) :
    pool.Becomes True none (stateAfter (resize session target) (pool, bench)).1 := by
  have hpos : 1 ≤ pool.size := Nat.succ_le_of_lt (Nat.zero_lt_of_lt hcursor)
  by_cases htarget : target = 0
  · subst htarget
    exact .same
  by_cases hname : pool.receiver.IsName
  · obtain ⟨k, hk, hheld, -⟩ := (@resize_makes session _ hname _ htarget).accepted_eq bench
    have hsize := resized_size_pos htarget hpos hk
    rw [hheld, rewrap_resized]
    exact .resized trivial hsize
  · obtain ⟨ending, hsteps⟩ := @stepTowards_makes_unnamed session _ hname target
    rw [(resize_makes_of_stepTowards htarget hsteps).held_eq]
    exact .resized trivial hpos

end VoicePool

/-- The voice that a call to a pool has handed out. -/
def handedVoice? (outcome : Except Error (Option Nat)) : Option Nat :=
  match outcome with
  | .ok voice => voice
  | .error _ => none

theorem handedVoice?_bind_none {σ α : Type} (action : ActionOn σ α) (state : σ × Bench) :
    handedVoice? (outcomeOf (action >>= fun _ => pure none) state) = none := by
  rw [outcomeOf_bind]
  cases outcomeOf action state <;> rfl

/-! ## Events -/

/-- A call to a pool through some session, or another call that is made on the same bench. -/
inductive PoolEvent where
  | onPool (session : Session) (call : PoolCall)
  | other (call : LibraryCall)

namespace PoolEvent

/-- The pool and the bench after an event, whatever its outcome. -/
def stateAfter (state : VoicePool × Bench) : PoolEvent → VoicePool × Bench
  | .onPool session call => DynamicPatching.stateAfter (call.run session) state
  | .other call => (state.1, LibraryCall.benchAfter state.2 call)

/-- The pool and the bench after a row of events. -/
def after (state : VoicePool × Bench) (events : List PoolEvent) : VoicePool × Bench :=
  events.foldl stateAfter state

/-- The voice that an event hands out. -/
def voice? (state : VoicePool × Bench) : PoolEvent → Option Nat
  | .onPool session call => handedVoice? (outcomeOf (call.run session) state)
  | .other _ => none

/-- The event resizes the pool. -/
def IsResize (event : PoolEvent) : Prop := ∃ session target, event = .onPool session (.resize target)

/-- What becomes of a pool by an event, whatever its outcome. -/
theorem becomes_stateAfter {state : VoicePool × Bench} (hcursor : state.1.cursor < state.1.size)
    (event : PoolEvent) :
    state.1.Becomes event.IsResize (event.voice? state) (stateAfter state event).1 := by
  -- a call that only sends leaves the pool alone and hands out nothing
  have hsends : ∀ (resizes : Prop) (action : VoicePool → Action Unit),
      let run : ActionOn VoicePool (Option Nat) := ActionOn.onBench action >>= fun _ => pure none
      state.1.Becomes resizes (handedVoice? (outcomeOf run state))
        (DynamicPatching.stateAfter run state).1 := by
    intro resizes action run
    rw [handedVoice?_bind_none, stateAfter_bind_pure, ActionOn.stateAfter_onBench]
    exact .same
  cases event with
  | other call => exact .same
  | onPool session call =>
      rw [voice?, stateAfter]
      cases call with
      | allocate => exact .advanced
      | resize target =>
          rw [PoolCall.run, handedVoice?_bind_none, stateAfter_bind_pure]
          exact (VoicePool.becomes_resize hcursor target state.2).imp fun _ => ⟨session, target, rfl⟩
      | loadAll => exact hsends _ _
      | broadcast message => exact hsends _ _
      | unicast voice message => exact hsends _ _

/-- Along every row of events the cursor stays in the pool and the receiver stays the same. -/
theorem after_sound {state : VoicePool × Bench} (hcursor : state.1.cursor < state.1.size)
    (events : List PoolEvent) :
    (after state events).1.cursor < (after state events).1.size ∧
      (after state events).1.receiver = state.1.receiver := by
  induction events generalizing state with
  | nil => exact ⟨hcursor, rfl⟩
  | cons event rest ih =>
      have hbecomes := becomes_stateAfter hcursor event
      obtain ⟨hlast, hreceiver⟩ := ih (hbecomes.cursor_lt hcursor)
      exact ⟨hlast, hreceiver.trans hbecomes.receiver_eq⟩

end PoolEvent

end DynamicPatching

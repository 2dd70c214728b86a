import DynamicPatching.Voice.Pool
import DynamicPatching.Proofs.Session.Running

/-!
# The rows of a pool

Every operation of a pool makes a row of deliveries to the channel object, one for each voice it is
about. Resizing makes the deletions from the top down or the loads from the bottom up, and the size
follows every delivery that gets through, so it is the size asked for exactly when the whole row
does (`resize_makes`).
-/

namespace DynamicPatching.VoicePool

variable {session : Session} {pool : VoicePool}

/-! ## Rows -/

/-- The delivery of a message to the channel object of the pool. -/
def messageDelivery (pool : VoicePool) (session : Session) (message : Text) : Delivery :=
  session.deliveryOf (.send pool.receiver (Text.trim message))

/-- The loads of `count` voices from `first` on. -/
def loads (pool : VoicePool) (session : Session) (first count : Nat) : List Delivery :=
  (List.range' first count).map fun voice =>
    pool.messageDelivery session (pool.loadDirective voice)

/-- The deletions of the `count` topmost of `size` voices, from the top down. -/
def deletions (pool : VoicePool) (session : Session) (size count : Nat) : List Delivery :=
  (List.range count).map fun k => pool.messageDelivery session (deleteDirective (size - 1 - k))

/-- A descending row begins with the largest number. -/
theorem map_range_descending {α : Type} (f : Nat → α) (top count : Nat) :
    (List.range (count + 1)).map (fun k => f (top - k)) =
      f top :: (List.range count).map fun k => f (top - 1 - k) := by
  rw [List.range_succ_eq_map, List.map_cons, List.map_map]
  apply congrArg (List.cons (f top))
  apply List.map_congr_left
  intro k _
  have hvoice : top - (k + 1) = top - 1 - k := by omega
  rw [Function.comp_apply, Nat.succ_eq_add_one, hvoice]

/-- The row that resizes the pool to the target. -/
def resizeRow (pool : VoicePool) (session : Session) (target : Nat) : List Delivery :=
  if target ≤ pool.size then pool.deletions session pool.size (pool.size - target)
  else pool.loads session pool.size (target - pool.size)

/-- The pool after `count` deliveries of the row that resizes it to the target. -/
def resized (pool : VoicePool) (target count : Nat) : VoicePool :=
  if target ≤ pool.size then { pool with size := pool.size - count }
  else { pool with size := pool.size + count }

/-- The messages to the voices of the pool, lowest voice first. -/
def broadcastRow (pool : VoicePool) (session : Session) (message : Text) : List Delivery :=
  (List.range' 0 pool.size).map fun voice =>
    pool.messageDelivery session (addressed voice message)

theorem length_loads (first count : Nat) : (pool.loads session first count).length = count := by
  rw [loads, List.length_map, List.length_range']

theorem length_deletions (size count : Nat) :
    (pool.deletions session size count).length = count := by
  rw [deletions, List.length_map, List.length_range]

/-- The whole row leaves as many voices as the target. -/
theorem size_resized (target : Nat) :
    (pool.resized target (pool.resizeRow session target).length).size = target := by
  rw [resized, resizeRow]
  split
  · rename_i hle
    rw [length_deletions]
    exact Nat.sub_sub_self hle
  · rename_i hle
    rw [length_loads]
    exact Nat.add_sub_of_le (Nat.le_of_not_le hle)

theorem take_loads {first count k : Nat} (h : k ≤ count) :
    (pool.loads session first count).take k = pool.loads session first k := by
  rw [loads, ← List.map_take, List.take_range'_of_length_ge h]
  rfl

theorem take_deletions {size count k : Nat} (h : k ≤ count) :
    (pool.deletions session size count).take k = pool.deletions session size k := by
  rw [deletions, ← List.map_take, List.take_range, Nat.min_eq_left h]
  rfl

/-- The number of the voice in front of words is one more word. -/
theorem addressed_spaced {words : List Text} (h : words ≠ []) (voice : Nat) :
    addressed voice (Text.spaced words) = Text.spaced (Text.decimal voice :: words) := by
  rw [addressed, Text.spaced_cons_cons, Text.spaced_singleton, Text.spaced_cons _ h]

/-! ## Loading and sending -/

theorem send_makes (h : pool.receiver.IsName) (message : Text) :
    (session.send pool.receiver message).Makes [pool.messageDelivery session message] (.ok ()) :=
  Session.send_makes h message

/-- A message for each of a row of voices. -/
theorem forNumbers_send_makes (h : pool.receiver.IsName) (message : Nat → Text)
    (first count : Nat) :
    (Action.forNumbers (fun voice => session.send pool.receiver (message voice)) first count).Makes
      ((List.range' first count).map fun voice => pool.messageDelivery session (message voice))
      (.ok ()) := by
  rw [List.map_eq_flatMap]
  exact Action.makes_forNumbers (fun voice => send_makes h (message voice)) first count

theorem loadAll_makes (h : pool.receiver.IsName) :
    (pool.loadAll session).Makes (pool.loads session 0 pool.size) (.ok ()) :=
  forNumbers_send_makes h pool.loadDirective 0 pool.size

theorem broadcast_makes (h : pool.receiver.IsName) (message : Text) :
    (pool.broadcast session message).Makes (pool.broadcastRow session message) (.ok ()) :=
  (forNumbers_send_makes h (fun voice => addressed voice message) 0 pool.size).bind_note
    .broadcastComplete

theorem unicast_makes (h : pool.receiver.IsName) (voice : Nat) (message : Text) :
    (pool.unicast session voice message).Makes
      (if voice < pool.size then [pool.messageDelivery session (addressed voice message)] else [])
      (if voice < pool.size then .ok () else .error (.voiceOutOfRange voice pool.size)) := by
  rw [unicast]
  split
  · exact send_makes h _
  · exact Action.makes_throw _

/-! ## Handing out -/

theorem allocate_makes : allocate.Makes pool [] (fun _ => pool.advance) (.ok pool.cursor) :=
  ⟨fun bench => ⟨rfl, bench.engine.acceptAll_nil.symm⟩, fun _ => rfl⟩

/-! ## Resizing -/

/-- One delivery, after which the pool changes, and then the rest of a row. -/
theorem makes_send_change (session : Session) (directive : VoicePool → Text)
    (update : VoicePool → VoicePool)
    {rest : ActionOn VoicePool Unit} {row : List Delivery} {heldAfter : Nat → VoicePool}
    (h : pool.receiver.IsName) (hrest : rest.Makes (update pool) row heldAfter (.ok ())) :
    ActionOn.Makes
      (do
        ActionOn.onBench fun pool => session.send pool.receiver (directive pool)
        ActionOn.change update
        rest)
      pool (pool.messageDelivery session (directive pool) :: row)
      (fun k => if k < 1 then pool else heldAfter (k - 1)) (.ok ()) := by
  have hsend : ActionOn.Makes
      (ActionOn.onBench fun pool => session.send pool.receiver (directive pool)) pool
      [pool.messageDelivery session (directive pool)] (fun _ => pool) (.ok ()) :=
    ActionOn.makes_onBench _ (send_makes h (directive pool))
  exact hsend.bind ((ActionOn.makes_change update pool).bind hrest)

/-- Growing makes the loads above the top, and the size follows them. -/
theorem growBy_makes (h : pool.receiver.IsName) (count : Nat) :
    (growBy session count).Makes pool (pool.loads session pool.size count)
      (fun k => { pool with size := pool.size + k }) (.ok ()) := by
  induction count generalizing pool with
  | zero =>
      apply (ActionOn.makes_pure () pool).congr_held
      intro k hk
      obtain rfl := Nat.le_zero.1 hk
      rfl
  | succ count ih =>
      -- the rest of the loop starts from the pool that the first load has enlarged
      have hrest := @ih { pool with size := pool.size + 1 } h
      have hrow := makes_send_change session (fun pool => pool.loadDirective pool.size)
        (fun pool => { pool with size := pool.size + 1 }) h hrest
      rw [loads, List.range'_succ, List.map_cons]
      apply hrow.congr_held
      intro k _
      cases k with
      | zero => rfl
      | succ k =>
          rw [if_neg (by omega), Nat.add_sub_cancel, Nat.add_right_comm]
          rfl

/-- Shrinking makes the deletions from the top down, and the size follows them. -/
theorem shrinkBy_makes (h : pool.receiver.IsName) (count : Nat) :
    (shrinkBy session count).Makes pool (pool.deletions session pool.size count)
      (fun k => { pool with size := pool.size - k }) (.ok ()) := by
  induction count generalizing pool with
  | zero =>
      apply (ActionOn.makes_pure () pool).congr_held
      intro k hk
      obtain rfl := Nat.le_zero.1 hk
      rfl
  | succ count ih =>
      have hrest := @ih { pool with size := pool.size - 1 } h
      have hrow := makes_send_change session (fun pool => deleteDirective (pool.size - 1))
        (fun pool => { pool with size := pool.size - 1 }) h hrest
      have hdeletions : pool.deletions session pool.size (count + 1) =
          pool.messageDelivery session (deleteDirective (pool.size - 1)) ::
            pool.deletions session (pool.size - 1) count :=
        map_range_descending
          (fun voice => pool.messageDelivery session (deleteDirective voice)) (pool.size - 1) count
      rw [hdeletions]
      apply hrow.congr_held
      intro k _
      cases k with
      | zero => rfl
      | succ k =>
          rw [if_neg (by omega), Nat.add_sub_cancel, Nat.sub_sub, Nat.add_comm 1 k]

/-- Stepping towards a target makes the row that resizes the pool to it. -/
theorem stepTowards_makes (h : pool.receiver.IsName) (target : Nat) :
    (stepTowards session target).Makes pool (pool.resizeRow session target)
      (pool.resized target) (.ok ()) := by
  have hsize : ActionOn.Makes (ActionOn.onBench fun pool : VoicePool => pure pool.size) pool []
      (fun _ => pool) (.ok pool.size) :=
    ActionOn.makes_onBench _ (Action.makes_pure pool.size)
  -- one of the two loops has nothing to do
  by_cases htarget : target ≤ pool.size
  · have hrest : ActionOn.Makes
        (do
          shrinkBy session (pool.size - target)
          growBy session (target - pool.size))
        pool (pool.deletions session pool.size (pool.size - target))
        (fun k => { pool with size := pool.size - k }) (.ok ()) := by
      rw [Nat.sub_eq_zero_of_le htarget, growBy, bind_pure_unit]
      exact shrinkBy_makes h _
    rw [resizeRow, if_pos htarget]
    apply (hsize.bind hrest).congr_held
    intro k _
    rw [resized, if_pos htarget]
    rfl
  · have hrest : ActionOn.Makes
        (do
          shrinkBy session (pool.size - target)
          growBy session (target - pool.size))
        pool (pool.loads session pool.size (target - pool.size))
        (fun k => { pool with size := pool.size + k }) (.ok ()) := by
      rw [Nat.sub_eq_zero_of_le (Nat.le_of_not_le htarget), shrinkBy, pure_bind]
      exact growBy_makes h _
    rw [resizeRow, if_neg htarget]
    apply (hsize.bind hrest).congr_held
    intro k _
    rw [resized, if_neg htarget]
    rfl

/-- Resizing makes the row of the steps towards the target, and wraps the cursor of the pool that the
steps leave. -/
theorem resize_makes_of_stepTowards {target : Nat} {row : List Delivery}
    {stepped : Nat → VoicePool} {ending : Except Error Unit} (htarget : target ≠ 0)
    (hsteps : (stepTowards session target).Makes pool row stepped ending) :
    (resize session target).Makes pool row (fun k => (stepped k).rewrap) ending := by
  -- the cursor is wrapped also when a delivery was refused
  have hresult : ∀ bench : Bench,
      outcomeOf (resize session target) (pool, bench) =
          outcomeOf (stepTowards session target) (pool, bench) ∧
        (stateAfter (resize session target) (pool, bench)).2.engine =
          (stateAfter (stepTowards session target) (pool, bench)).2.engine ∧
        (stateAfter (resize session target) (pool, bench)).1 =
          (stateAfter (stepTowards session target) (pool, bench)).1.rewrap := by
    intro bench
    dsimp only [outcomeOf, stateAfter, resize]
    rw [if_neg htarget]
    cases stepTowards session target (pool, bench) <;> exact ⟨rfl, rfl, rfl⟩
  constructor
  · intro bench
    constructor
    · rw [(hresult bench).1]
      exact (hsteps.delivers bench).outcome_eq
    · rw [(hresult bench).2.1]
      exact (hsteps.delivers bench).engine_eq
  · intro bench
    rw [(hresult bench).2.2, hsteps.held_eq]

/-- No pool is resized to nothing. -/
theorem resize_zero_makes :
    (resize session 0).Makes pool [] (fun _ => pool) (.error (.invalidVoiceCount 0)) :=
  ⟨fun bench => ⟨rfl, bench.engine.acceptAll_nil.symm⟩, fun _ => rfl⟩

/-- **Resizing.** A pool is resized by the row for the target, as far as it gets through; the size
is that of the voices the engine then holds, and the cursor is wrapped into the pool. -/
theorem resize_makes (h : pool.receiver.IsName) {target : Nat} (htarget : target ≠ 0) :
    (resize session target).Makes pool (pool.resizeRow session target)
      (fun k => (pool.resized target k).rewrap) (.ok ()) :=
  resize_makes_of_stepTowards htarget (stepTowards_makes h target)

end DynamicPatching.VoicePool

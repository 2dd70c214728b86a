import DynamicPatching.Proofs.Engine.Truncation
import DynamicPatching.Proofs.Synth.Construction

/-!
# Resizing a pool

A pool is resized by one directive for each voice that is deleted or loaded, and its size follows
every directive that is delivered. What is left of an interrupted row is therefore the row of the
pool that the interruption leaves (`VoicePool.resizeRow_resized`), so a second call sends exactly the
directives that the first one owed (`VoicePool.resize_exact`).
-/

namespace DynamicPatching.VoicePool

variable {session : Session} {pool : VoicePool}

/-! ## Rows of directives -/

/-- The number of voices between the size of the pool and the target. -/
def distance (pool : VoicePool) (target : Nat) : Nat := pool.size - target + (target - pool.size)

/-- The first `count` directives that resize the pool to the target: deletions from the top down, or
loads from the bottom up. -/
def directives (pool : VoicePool) (target count : Nat) : List Text :=
  if target ≤ pool.size then
    (List.range count).map fun k =>
      Text.spaced ["delete".toList, Text.decimal (pool.size - 1 - k)]
  else
    (List.range count).map fun k =>
      Text.spaced ["init".toList, Text.decimal (pool.size + k), pool.channelLayout, pool.synthType]

theorem resizeRow_of_le {target : Nat} (h : target ≤ pool.size) :
    pool.resizeRow session target = pool.deletions session pool.size (pool.size - target) :=
  if_pos h

theorem resizeRow_of_not_le {target : Nat} (h : ¬ target ≤ pool.size) :
    pool.resizeRow session target = pool.loads session pool.size (target - pool.size) :=
  if_neg h

theorem length_resizeRow (target : Nat) :
    (pool.resizeRow session target).length = pool.distance target := by
  rw [distance]
  by_cases hle : target ≤ pool.size
  · rw [resizeRow_of_le hle, length_deletions]
    omega
  · rw [resizeRow_of_not_le hle, length_loads]
    omega

theorem drop_loads (first count k : Nat) :
    (pool.loads session first count).drop k = pool.loads session (first + k) (count - k) := by
  rw [loads, ← List.map_drop, List.drop_range', Nat.mul_one]
  rfl

theorem drop_deletions (size count k : Nat) :
    (pool.deletions session size count).drop k = pool.deletions session (size - k) (count - k) := by
  rw [deletions, deletions, ← List.map_drop, List.range_eq_range', List.drop_range',
    List.range'_eq_map_range, List.map_map]
  apply List.map_congr_left
  intro i _
  have hvoice : size - 1 - (0 + k * 1 + i) = size - k - 1 - i := by omega
  rw [Function.comp_apply, hvoice]

/-- The beginning of a row is made by the first directives. -/
theorem take_resizeRow {target count : Nat} (h : count ≤ pool.distance target) :
    (pool.resizeRow session target).take count =
      (pool.directives target count).map (pool.messageDelivery session) := by
  rw [distance] at h
  rw [resizeRow, directives]
  split
  · rw [take_deletions (by omega), deletions, List.map_map]
    rfl
  · rw [take_loads (by omega), loads, List.range'_eq_map_range, List.map_map, List.map_map]
    rfl

/-- The end of a row is the row of the pool that its beginning leaves. -/
theorem resizeRow_resized {target count : Nat} (h : count ≤ pool.distance target) :
    (pool.resized target count).rewrap.resizeRow session target =
      (pool.resizeRow session target).drop count := by
  rw [distance] at h
  by_cases hle : target ≤ pool.size
  · have hsize : target ≤ pool.size - count := by omega
    have hleft : pool.size - target - count = pool.size - count - target := by omega
    rw [resizeRow_of_le hle, drop_deletions, hleft, resized, if_pos hle]
    exact resizeRow_of_le hsize
  · rw [resizeRow_of_not_le hle, drop_loads, resized, if_neg hle]
    by_cases hsize : target ≤ pool.size + count
    · -- the beginning was the whole row
      have hnone : target - pool.size - count = 0 := by omega
      have hdone : pool.size + count - target = 0 := by omega
      refine (resizeRow_of_le hsize).trans ?_
      change deletions _ session (pool.size + count) (pool.size + count - target) = _
      rw [hnone, hdone, deletions, loads, List.range_zero, List.range'_zero, List.map_nil, List.map_nil]
    · have hleft : target - pool.size - count = target - (pool.size + count) := by omega
      rw [hleft]
      exact resizeRow_of_not_le hsize

theorem rewrap_eq_self (h : pool.cursor < pool.size) : pool.rewrap = pool := by
  rw [rewrap, Nat.mod_eq_of_lt h]

/-! ## One call -/

/-- The effect of resizing on the pool and the engine: the directives there is room for are delivered
as they are encoded, and nothing else is. The size is that of the voices then held, the cursor is
wrapped into them, and the call succeeds exactly when every directive got through. -/
structure ResizesBy (session : Session) (pool : VoicePool) (target count : Nat) (bench : Bench) :
    Prop where
  delivered : ∃ sent, sent.length = count ∧
    Encodes session.interpreter
      ((pool.directives target count).map (Command.makeSend pool.receiver)) sent ∧
    (stateAfter (resize session target) (pool, bench)).2.engine =
      { bench.engine with
        accepted := bench.engine.accepted ++ sent
        limit := bench.engine.limit.map (· - count) }
  pool_eq : (stateAfter (resize session target) (pool, bench)).1 =
    if target ≤ pool.size then
      { pool with size := pool.size - count, cursor := pool.cursor % (pool.size - count) }
    else { pool with size := pool.size + count, cursor := pool.cursor % (pool.size + count) }
  outcome_eq : outcomeOf (resize session target) (pool, bench) =
    if count = pool.distance target then .ok ()
    else .error (.delivery ⟨session.interpreter, .refused⟩)

theorem resize_resizesBy (hname : pool.receiver.IsName) {target : Nat} (htarget : target ≠ 0)
    (bench : Bench) :
    ResizesBy session pool target (bench.engine.room (pool.distance target)) bench := by
  have hmakes := @resize_makes session pool hname target htarget
  have hroom := bench.engine.room_le (pool.distance target)
  have hlength := @length_resizeRow session pool target
  have hreceiver : ∀ delivery ∈ pool.resizeRow session target,
      delivery.receiver = session.interpreter := by
    intro delivery hdelivery
    rw [← List.take_length (l := pool.resizeRow session target), hlength,
      take_resizeRow (Nat.le_refl _)] at hdelivery
    obtain ⟨message, -, rfl⟩ := List.mem_map.1 hdelivery
    rfl
  constructor
  · refine ⟨(pool.resizeRow session target).take (bench.engine.room (pool.distance target)), ?_, ?_,
      ?_⟩
    · rw [List.length_take, hlength]
      exact Nat.min_eq_left hroom
    · rw [take_resizeRow hroom]
      exact Session.encodes_messages hname _
    · rw [(hmakes.delivers bench).engine_eq, Engine.acceptAll, hlength]
  · rw [hmakes.held_eq, hlength, resized]
    split <;> rfl
  · rw [(hmakes.delivers bench).outcome_of_receiver hreceiver, hlength]

theorem accepted_resize (hname : pool.receiver.IsName) {target : Nat} (htarget : target ≠ 0)
    (bench : Bench) :
    (stateAfter (resize session target) (pool, bench)).2.engine.accepted =
      bench.engine.accepted ++
        (pool.resizeRow session target).take (bench.engine.room (pool.distance target)) := by
  have hmakes := @resize_makes session pool hname target htarget
  rw [(hmakes.delivers bench).engine_eq, Engine.acceptAll, length_resizeRow]

/-- A resize to the size of the pool changes nothing. -/
theorem resize_size (hname : pool.receiver.IsName) (hcursor : pool.cursor < pool.size)
    (bench : Bench) :
    outcomeOf (resize session pool.size) (pool, bench) = .ok () ∧
      (stateAfter (resize session pool.size) (pool, bench)).1 = pool ∧
      (stateAfter (resize session pool.size) (pool, bench)).2.engine = bench.engine := by
  have hmakes := @resize_makes session pool hname pool.size (by omega)
  have hrow : pool.resizeRow session pool.size = [] := by
    rw [resizeRow_of_le (Nat.le_refl _), Nat.sub_self]
    rfl
  have hroom : bench.engine.room ([] : List Delivery).length = 0 :=
    Nat.le_zero.1 (bench.engine.room_le 0)
  rw [hrow] at hmakes
  obtain ⟨houtcome, hengine⟩ := (hmakes.delivers bench).of_nil
  refine ⟨houtcome, ?_, hengine⟩
  rw [hmakes.held_eq, hroom, resized, if_pos (Nat.le_refl _)]
  exact rewrap_eq_self hcursor

/-! ## A second call -/

/-- A second call behind an interrupted one, with the limit lifted, makes the rest of the row. -/
theorem resize_resumes (hname : pool.receiver.IsName) {target : Nat} (htarget : target ≠ 0)
    (bench : Bench) :
    let stopped := stateAfter (resize session target) (pool, bench)
    let resumed := stateAfter (resize session target) (stopped.1, stopped.2.unlimited)
    outcomeOf (resize session target) (stopped.1, stopped.2.unlimited) = .ok () ∧
      resumed.1.size = target ∧
      resumed.2.engine.accepted = stopped.2.engine.accepted ++
        (pool.resizeRow session target).drop (bench.engine.room (pool.distance target)) := by
  intro stopped resumed
  have hmakes := @resize_makes session pool hname target htarget
  have hroom := bench.engine.room_le (pool.distance target)
  have hstopped : stopped.1 =
      (pool.resized target (bench.engine.room (pool.distance target))).rewrap := by
    rw [← @length_resizeRow session pool target]
    exact hmakes.held_eq bench
  have hreceiver : stopped.1.receiver.IsName := by
    rw [hstopped, rewrap, resized]
    split <;> exact hname
  -- the second call makes the row of the pool that the first one left, which is the rest of the row
  have hresume := @resize_makes session stopped.1 hreceiver target htarget
  have hok : outcomeOf (resize session target) (stopped.1, stopped.2.unlimited) = .ok () := by
    rw [(hresume.delivers stopped.2.unlimited).outcome_eq]
    have hall : stopped.2.unlimited.engine.room (stopped.1.resizeRow session target).length =
        (stopped.1.resizeRow session target).length := rfl
    rw [Engine.refusal?_eq_none_iff.2 hall]
    rfl
  obtain ⟨hpool, haccepted⟩ := hresume.of_ok hok
  refine ⟨hok, ?_, ?_⟩
  · rw [hpool]
    exact size_resized target
  · rw [haccepted, hstopped, resizeRow_resized hroom]
    rfl

/-- **Resizing is exact, also when it is interrupted.** Take a pool for a receiver that is a name. A
resize to at least one voice delivers the directives for the voices in between, as far as the engine
has room for them, and the size and the cursor follow. When it was interrupted and the limit is
lifted, the same call succeeds with the rest of the directives, so both calls together deliver what
one uninterrupted call does. A resize to no voices is rejected and changes nothing, and one to the
size of the pool delivers nothing. -/
theorem resize_exact {session : Session} {pool : VoicePool} (hname : pool.receiver.IsName)
    (hcursor : pool.cursor < pool.size) (bench : Bench) :
    (∀ target, target ≠ 0 →
      ResizesBy session pool target (bench.engine.room (pool.distance target)) bench) ∧
    (∀ target, target ≠ 0 →
      let stopped := stateAfter (resize session target) (pool, bench)
      let resumed := stateAfter (resize session target) (stopped.1, stopped.2.unlimited)
      let whole := stateAfter (resize session target) (pool, bench.unlimited)
      outcomeOf (resize session target) (stopped.1, stopped.2.unlimited) = .ok () ∧
        resumed.1.size = target ∧
        ∃ first rest, stopped.2.engine.accepted = bench.engine.accepted ++ first ∧
          resumed.2.engine.accepted = stopped.2.engine.accepted ++ rest ∧
          whole.2.engine.accepted = bench.engine.accepted ++ (first ++ rest)) ∧
    (outcomeOf (resize session 0) (pool, bench) = .error (.invalidVoiceCount 0) ∧
      stateAfter (resize session 0) (pool, bench) = (pool, bench)) ∧
    (outcomeOf (resize session pool.size) (pool, bench) = .ok () ∧
      (stateAfter (resize session pool.size) (pool, bench)).1 = pool ∧
      (stateAfter (resize session pool.size) (pool, bench)).2.engine = bench.engine) := by
  refine ⟨fun target htarget => resize_resizesBy hname htarget bench, ?_, ⟨rfl, rfl⟩,
    resize_size hname hcursor bench⟩
  intro target htarget stopped resumed whole
  obtain ⟨hok, hsize, hrest⟩ := @resize_resumes session pool hname target htarget bench
  have hstopped := @accepted_resize session pool hname target htarget bench
  have hwhole := @accepted_resize session pool hname target htarget bench.unlimited
  have hall : bench.unlimited.engine.room (pool.distance target) =
      (pool.resizeRow session target).length := (length_resizeRow target).symm
  refine ⟨hok, hsize, _, _, hstopped, hrest, ?_⟩
  rw [hall, List.take_length] at hwhole
  rw [List.take_append_drop]
  exact hwhole

/-- Two of four deletions are refused, and the cursor is wrapped; the second call makes them. -/
theorem resize_exact_interrupted :
    let session : Session := ⟨1001, "1001-interpreter".toList⟩
    let pool : VoicePool :=
      ⟨"1001-channels".toList, "subtractive_synth".toList, "stereo".toList, 6, 5⟩
    let bench : Bench := ⟨{ Engine.fresh with limit := some 2 }, ContractLog.empty⟩
    (stateAfter (resize session 2) (pool, bench)).1 = { pool with size := 4, cursor := 1 } ∧
      outcomeOf (resize session 2) (pool, bench) =
        .error (.delivery ⟨"1001-interpreter".toList, .refused⟩) ∧
      (stateAfter (resize session 2) ((stateAfter (resize session 2) (pool, bench)).1,
        (stateAfter (resize session 2) (pool, bench)).2.unlimited)).1.size = 2 := by
  intro session pool bench
  have hname : pool.receiver.IsName := by decide +kernel
  obtain ⟨hexact, hresumed, -⟩ := @resize_exact session pool hname (by decide) bench
  have hstopped := hexact 2 (by decide)
  obtain ⟨-, hsize, -⟩ := hresumed 2 (by decide)
  exact ⟨hstopped.pool_eq.trans (by decide), hstopped.outcome_eq.trans (if_neg (by decide)), hsize⟩

end DynamicPatching.VoicePool

import DynamicPatching.Proofs.Engine.Delivering

/-!
# The ledger of an engine

A history of an engine is a row of calls of which some ask for a delivery. `trials` are these, each with
the outcome it had, so they are what the callers of the engine learn. They are settled by the calls alone:
behind a call that arms a limit, the first deliveries up to the limit are accepted and the others are
refused, and without a limit all are accepted (`trials_eq`). Opening patches and clearing the record
take no part in that (`trials_filter`). What the engine holds is what its callers know, since the record
is the row of the accepted trials from the last time it was cleared (`accepted_after`).
-/

namespace DynamicPatching

namespace EngineCall

/-- The delivery that a call asks for, if it asks for one. -/
def delivery? : EngineCall → Option Delivery
  | .deliver delivery => some delivery
  | _ => none

/-- The call arms a limit or lifts it. -/
def setsLimit : EngineCall → Bool
  | .failAfter _ | .recover => true
  | _ => false

/-- The call opens a patch or clears the record. -/
def leavesLimit : EngineCall → Bool
  | .openPatch _ _ | .clear => true
  | _ => false

theorem delivery?_of_leavesLimit {call : EngineCall} (h : call.leavesLimit = true) :
    call.delivery? = none := by
  cases call with
  | deliver delivery => cases h
  | _ => rfl

end EngineCall

namespace Engine

/-- The deliveries that a row of calls asks for, in order, each with its outcome. -/
def trials (engine : Engine) : List EngineCall → List (Delivery × Except DeliveryError (Option Nat))
  | [] => []
  | call :: rest =>
      (call.delivery?.map fun delivery => (delivery, (engine.perform call).1)).toList ++
        (engine.perform call).2.trials rest

/-- The deliveries that were accepted. -/
def acceptedAmong (trials : List (Delivery × Except DeliveryError (Option Nat))) : List Delivery :=
  (trials.filter fun trial => trial.2.isOk).map Prod.fst

/-- The trials of deliveries of which the first `count` are accepted and the others refused. -/
def firstAccepted (count : Nat) (deliveries : List Delivery) :
    List (Delivery × Except DeliveryError (Option Nat)) :=
  (deliveries.take count).map (fun delivery => (delivery, .ok none)) ++
    (deliveries.drop count).map fun delivery => (delivery, .error ⟨delivery.receiver, .refused⟩)

variable {engine : Engine} {call : EngineCall} {calls : List EngineCall}

/-! ## One call -/

/-- A delivery is refused if the limit is used up, and otherwise recorded; it uses up one of a limit. -/
theorem perform_deliver (engine : Engine) (delivery : Delivery) :
    engine.perform (.deliver delivery) =
      if engine.limit = some 0 then (.error ⟨delivery.receiver, .refused⟩, engine)
      else (.ok none, { engine with
        accepted := engine.accepted ++ [delivery]
        limit := engine.limit.map (· - 1) }) := by
  obtain ⟨next, opened, accepted, limit⟩ := engine
  match limit with
  | none => rfl
  | some 0 => rfl
  | some (remaining + 1) => rfl

/-- A call that fails changes nothing. -/
theorem perform_of_error {cause : DeliveryError} (h : (engine.perform call).1 = .error cause) :
    (engine.perform call).2 = engine := by
  -- only an opening and a delivery can fail
  cases call with
  | openPatch name directory =>
      simp only [perform] at h ⊢
      cases hopen : engine.openPatch name directory with
      | ok opened =>
          rw [hopen] at h
          cases h
      | error cause => rfl
  | deliver delivery =>
      rw [perform_deliver] at h ⊢
      split at h
      case isTrue hlimit => rw [if_pos hlimit]
      case isFalse => cases h
  | failAfter deliveries => cases h
  | recover => cases h
  | clear => cases h

/-- Opening a patch and clearing the record do the same under every limit, and leave it. -/
theorem perform_of_leavesLimit (h : call.leavesLimit = true) (limit : Option Nat) :
    { engine with limit }.perform call =
      ((engine.perform call).1, { (engine.perform call).2 with limit }) := by
  cases call with
  | openPatch name directory =>
      by_cases hname : name = []
      · simp [perform, openPatch, hname]
      · simp [perform, openPatch, hname]
  | clear => rfl
  | deliver delivery => cases h
  | failAfter deliveries => cases h
  | recover => cases h

theorem limit_perform_of_leavesLimit (h : call.leavesLimit = true) :
    (engine.perform call).2.limit = engine.limit :=
  congrArg (fun result => result.2.limit) (perform_of_leavesLimit h engine.limit)

/-- The limit alone decides what a call does to the limit, and the outcome of a delivery. -/
theorem perform_congr {other : Engine} (h : engine.limit = other.limit) (call : EngineCall) :
    (engine.perform call).2.limit = (other.perform call).2.limit ∧
      (call.delivery?.map fun delivery => (delivery, (engine.perform call).1)) =
        call.delivery?.map fun delivery => (delivery, (other.perform call).1) := by
  cases call with
  | openPatch name directory =>
      rw [limit_perform_of_leavesLimit rfl, limit_perform_of_leavesLimit rfl]
      exact ⟨h, rfl⟩
  | deliver delivery =>
      rw [perform_deliver, perform_deliver, h]
      split
      case isTrue => exact ⟨h, rfl⟩
      case isFalse => exact ⟨rfl, rfl⟩
  | failAfter deliveries => exact ⟨rfl, rfl⟩
  | recover => exact ⟨rfl, rfl⟩
  | clear => exact ⟨h, rfl⟩

/-! ## Rows of calls -/

theorem after_append (engine : Engine) (calls others : List EngineCall) :
    engine.after (calls ++ others) = (engine.after calls).after others :=
  List.foldl_append

/-- Behind a row of calls that ends in a given one, the engine is as that call leaves it. -/
theorem exists_after_eq (engine : Engine) (h : calls.getLast? = some call) :
    ∃ before : Engine, engine.after calls = (before.perform call).2 := by
  obtain ⟨earlier, rfl⟩ := List.getLast?_eq_some_iff.1 h
  exact ⟨engine.after earlier, engine.after_append earlier [call]⟩

/-- What a call brings about, and held at first, holds behind a row that is empty or ends in the call.
-/
theorem after_of_last {holds : Engine → Prop} (hfirst : holds engine)
    (hcall : ∀ before : Engine, holds (before.perform call).2)
    (h : calls = [] ∨ calls.getLast? = some call) : holds (engine.after calls) := by
  rcases h with rfl | hlast
  · exact hfirst
  · obtain ⟨before, hafter⟩ := engine.exists_after_eq hlast
    rw [hafter]
    exact hcall before

theorem trials_cons (engine : Engine) (call : EngineCall) (rest : List EngineCall) :
    engine.trials (call :: rest) =
      (call.delivery?.map fun delivery => (delivery, (engine.perform call).1)).toList ++
        (engine.perform call).2.trials rest := rfl

/-- The trials depend on nothing of the engine but its limit. -/
theorem trials_congr {other : Engine} (h : engine.limit = other.limit) (calls : List EngineCall) :
    engine.trials calls = other.trials calls := by
  induction calls generalizing engine other with
  | nil => rfl
  | cons call rest ih =>
      obtain ⟨hlimit, hfirst⟩ := perform_congr h call
      rw [trials_cons, trials_cons, hfirst, ih hlimit]

/-- Openings and clearings can be left out of a row: the trials of the others are the same. -/
theorem trials_filter (engine : Engine) (calls : List EngineCall) :
    engine.trials (calls.filter fun call => !call.leavesLimit) = engine.trials calls := by
  induction calls generalizing engine with
  | nil => rfl
  | cons call rest ih =>
      cases hleaves : call.leavesLimit with
      | true =>
          -- the rest begins with other patches or another record, but with the same limit
          rw [List.filter_cons_of_neg (by simp [hleaves]), ih, trials_cons,
            EngineCall.delivery?_of_leavesLimit hleaves]
          exact trials_congr (limit_perform_of_leavesLimit hleaves).symm rest
      | false =>
          rw [List.filter_cons_of_pos (by simp [hleaves]), trials_cons, trials_cons, ih]

/-- An engine has the room that its limit says, and one less behind a delivery that it accepts. -/
theorem room_succ (h : engine.limit ≠ some 0) (count : Nat) (delivery : Delivery) :
    engine.room (count + 1) = (engine.perform (.deliver delivery)).2.room count + 1 := by
  rw [perform_deliver, if_neg h, room, room]
  cases hlimit : engine.limit with
  | none => rfl
  | some limit =>
      cases limit with
      | zero => exact absurd hlimit h
      | succ remaining => exact Nat.succ_min_succ remaining count

/-- While no limit is armed or lifted, the first deliveries are accepted for which there is room. -/
theorem trials_eq (h : ∀ call ∈ calls, call.setsLimit = false) :
    engine.trials calls =
      firstAccepted (engine.room (calls.filterMap EngineCall.delivery?).length)
        (calls.filterMap EngineCall.delivery?) := by
  induction calls generalizing engine with
  | nil => simp [trials, firstAccepted]
  | cons call rest ih =>
      obtain ⟨hcall, hrest⟩ := List.forall_mem_cons.1 h
      cases call with
      | openPatch name directory =>
          rw [trials_cons, ih hrest, room, limit_perform_of_leavesLimit rfl]
          rfl
      | clear =>
          rw [trials_cons, ih hrest]
          rfl
      | deliver delivery =>
          have hrequested : (EngineCall.deliver delivery :: rest).filterMap EngineCall.delivery? =
              delivery :: rest.filterMap EngineCall.delivery? := rfl
          rw [trials_cons, ih hrest, hrequested, List.length_cons]
          by_cases hlimit : engine.limit = some 0
          · -- nothing is accepted, here or later
            rw [perform_deliver, if_pos hlimit, room_of_used_up hlimit, room_of_used_up hlimit]
            rfl
          · -- one is accepted, and the rest finds one less room
            rw [room_succ hlimit _ delivery, perform_deliver, if_neg hlimit]
            rfl
      | failAfter deliveries => cases hcall
      | recover => cases hcall

/-- Under a limit, that many deliveries are accepted. -/
theorem trials_of_armed {count : Nat} (h : ∀ call ∈ calls, call.setsLimit = false)
    (hlimit : engine.limit = some count) :
    engine.trials calls = firstAccepted count (calls.filterMap EngineCall.delivery?) := by
  have hroom : engine.room (calls.filterMap EngineCall.delivery?).length =
      min count (calls.filterMap EngineCall.delivery?).length := by
    rw [room, hlimit]
  rw [trials_eq h, hroom, firstAccepted, ← List.take_eq_take_min, ← List.drop_eq_drop_min]
  rfl

/-- Without a limit every delivery is accepted. -/
theorem trials_of_unlimited (h : ∀ call ∈ calls, call.setsLimit = false)
    (hlimit : engine.limit = none) :
    engine.trials calls =
      (calls.filterMap EngineCall.delivery?).map fun delivery => (delivery, .ok none) := by
  rw [trials_eq h, room, hlimit, firstAccepted, List.take_length, List.drop_length, List.map_nil,
    List.append_nil]

/-! ## The record -/

theorem acceptedAmong_append (trials others : List (Delivery × Except DeliveryError (Option Nat))) :
    acceptedAmong (trials ++ others) = acceptedAmong trials ++ acceptedAmong others := by
  rw [acceptedAmong, List.filter_append, List.map_append]
  rfl

/-- A call other than a clearing adds its own delivery to the record, if that is accepted. -/
theorem accepted_perform (h : call ≠ .clear) (engine : Engine) :
    (engine.perform call).2.accepted = engine.accepted ++
      acceptedAmong
        (call.delivery?.map fun delivery => (delivery, (engine.perform call).1)).toList := by
  cases call with
  | openPatch name directory =>
      by_cases hname : name = []
      · simp [perform, openPatch, hname, EngineCall.delivery?, acceptedAmong]
      · simp [perform, openPatch, hname, EngineCall.delivery?, acceptedAmong]
  | deliver delivery =>
      rw [perform_deliver]
      split
      case isTrue => simp [EngineCall.delivery?, acceptedAmong, Except.isOk, Except.toBool]
      case isFalse => simp [EngineCall.delivery?, acceptedAmong, Except.isOk, Except.toBool]
  | failAfter deliveries => exact (List.append_nil _).symm
  | recover => exact (List.append_nil _).symm
  | clear => exact absurd rfl h

/-- Until it is cleared, the record grows by the accepted trials, in order. -/
theorem accepted_after (h : .clear ∉ calls) :
    (engine.after calls).accepted = engine.accepted ++ acceptedAmong (engine.trials calls) := by
  induction calls generalizing engine with
  | nil => exact (List.append_nil _).symm
  | cons call rest ih =>
      obtain ⟨hcall, hrest⟩ := List.ne_and_not_mem_of_not_mem_cons h
      have hstep : engine.after (call :: rest) = (engine.perform call).2.after rest := rfl
      rw [hstep, ih hrest, accepted_perform hcall.symm, trials_cons, acceptedAmong_append,
        List.append_assoc]

/-! ## Histories -/

/-- **The ledger of an engine.** Take any history of a fresh engine, cut in two. If the first part ends
in arming a limit, and the second arms and lifts none, then of the deliveries of the second part the
first ones up to the limit are accepted, and each later one is refused on behalf of its receiver. If no
limit is in force at the cut, all are accepted. Openings and clearings take no part in that: the
deliveries have the same outcomes without them, and under any limit they do the same and leave it. A
call that fails changes nothing. If the record was cleared at the cut for the last time, or never, it
consists of the accepted deliveries of the second part in order, and the lines of a receiver are the
texts of those among them that are addressed to it. -/
theorem ledger_exact (earlier since : List EngineCall) :
    let engine := fresh.after earlier
    let trials := engine.trials since
    let requested := since.filterMap EngineCall.delivery?
    (∀ count, earlier.getLast? = some (.failAfter count) →
      (∀ call ∈ since, call.setsLimit = false) →
        trials =
          (requested.take count).map (fun delivery => (delivery, .ok none)) ++
            (requested.drop count).map fun delivery =>
              (delivery, .error ⟨delivery.receiver, .refused⟩)) ∧
    (earlier = [] ∨ earlier.getLast? = some .recover →
      (∀ call ∈ since, call.setsLimit = false) →
        trials = requested.map fun delivery => (delivery, .ok none)) ∧
    engine.trials (since.filter fun call => !call.leavesLimit) = trials ∧
    (∀ call : EngineCall, call.leavesLimit = true → ∀ limit : Option Nat,
      { engine with limit }.perform call =
        ((engine.perform call).1, { (engine.perform call).2 with limit })) ∧
    (∀ call cause, (engine.perform call).1 = .error cause → (engine.perform call).2 = engine) ∧
    (earlier = [] ∨ earlier.getLast? = some .clear → .clear ∉ since →
      let kept := (trials.filter fun trial => trial.2.isOk).map Prod.fst
      (engine.after since).accepted = kept ∧
        ∀ receiver, (engine.after since).linesTo receiver =
          (kept.filter fun delivery => decide (delivery.receiver = receiver)).map
            Delivery.text) := by
  intro engine trials requested
  refine ⟨fun count hlast hkept => ?_, fun hlast hkept => ?_, engine.trials_filter since,
    fun call hcall limit => perform_of_leavesLimit hcall limit,
    fun call cause hfail => perform_of_error hfail, fun hlast hkept => ?_⟩
  · obtain ⟨before, hafter⟩ := fresh.exists_after_eq hlast
    have hlimit : engine.limit = some count := congrArg Engine.limit hafter
    exact trials_of_armed hkept hlimit
  · have hlimit : engine.limit = none :=
      @after_of_last fresh _ earlier (fun engine => engine.limit = none) rfl (fun _ => rfl) hlast
    exact trials_of_unlimited hkept hlimit
  · intro kept
    have hempty : engine.accepted = [] :=
      @after_of_last fresh _ earlier (fun engine => engine.accepted = []) rfl (fun _ => rfl) hlast
    have haccepted : (engine.after since).accepted = kept := by
      rw [accepted_after hkept, hempty]
      rfl
    refine ⟨haccepted, fun receiver => ?_⟩
    rw [linesTo, haccepted]

/-- A limit of one is used up by the first delivery behind it, although a patch is opened and the record
cleared in between. Lifting a limit of none lets every delivery through. The record begins anew where it
was cleared, and a limit armed before that still ends it. -/
theorem ledger_exact_rearmed :
    let bang : Delivery := ⟨"a".toList, .bang⟩
    let number : Delivery := ⟨"b".toList, .number (Single.ofRatio 5 2)⟩
    let spent := fresh.after [.deliver number, .failAfter 0]
    let cleared := (fresh.after [.deliver bang, .failAfter 2, .clear]).after
      [.deliver number, .deliver bang, .deliver number]
    (fresh.after [.deliver bang, .failAfter 1]).trials
        [.deliver number, .openPatch "p".toList ".".toList, .clear, .deliver bang] =
      [(number, .ok none), (bang, .error ⟨"a".toList, .refused⟩)] ∧
    (fresh.after [.failAfter 0, .deliver bang, .recover]).trials [.deliver number, .deliver bang] =
      [(number, .ok none), (bang, .ok none)] ∧
    (spent.perform (.deliver bang)).2 = spent ∧
    { spent with limit := none }.perform .clear =
      ((spent.perform .clear).1, { (spent.perform .clear).2 with limit := none }) ∧
    cleared.accepted = [number, bang] ∧
    cleared.linesTo "a".toList = ["bang".toList] := by
  intro bang number spent cleared
  obtain ⟨harmed, -⟩ := ledger_exact [.deliver bang, .failAfter 1]
    [.deliver number, .openPatch "p".toList ".".toList, .clear, .deliver bang]
  obtain ⟨-, hlifted, -⟩ := ledger_exact [.failAfter 0, .deliver bang, .recover]
    [.deliver number, .deliver bang]
  obtain ⟨-, -, -, hleaves, hrefused, -⟩ := ledger_exact [.deliver number, .failAfter 0] []
  obtain ⟨-, -, -, -, -, hrecord⟩ := ledger_exact [.deliver bang, .failAfter 2, .clear]
    [.deliver number, .deliver bang, .deliver number]
  obtain ⟨haccepted, hlines⟩ := hrecord (.inr rfl) (by decide)
  exact ⟨harmed 1 rfl (by decide), hlifted (.inr rfl) (by decide), hrefused _ _ rfl,
    hleaves .clear rfl none, haccepted, hlines "a".toList⟩

end Engine

end DynamicPatching

import DynamicPatching.Engine.Action

/-!
# Actions that make a row of deliveries

Most actions amount to a row of deliveries that is fixed before the first of them. Such an action
makes the row up to the first refusal, and ends in the error of that refusal, or, when the whole row
got through, in an ending of its own (`Action.Makes`). Rows join when actions do, and an action that
ends in an error keeps the next one from starting, so the row of a long action is found step by step
along its text, whatever the engine accepts. An action on a held value makes a row in the same way,
and what it holds afterwards depends only on how many deliveries got through (`ActionOn.Makes`).
-/

namespace DynamicPatching

/-! ## Rows under a limit -/

namespace Engine

/-- A row behind another one is made only when the first got through. -/
theorem deliverAll_append (engine : Engine) (row others : List Delivery) :
    engine.deliverAll (row ++ others) =
      match engine.deliverAll row with
      | (none, delivered) => delivered.deliverAll others
      | (some cause, stopped) => (some cause, stopped) := by
  induction row generalizing engine with
  | nil => rfl
  | cons delivery rest ih =>
      rw [List.cons_append, deliverAll, deliverAll]
      cases engine.deliver delivery with
      | ok delivered => exact ih delivered
      | error cause => rfl

/-- Behind a row that got through, the engine goes on with the next one. -/
theorem append_of_accepted {engine : Engine} {row : List Delivery}
    (h : engine.refusal? row = none) (others : List Delivery) :
    engine.refusal? (row ++ others) = (engine.acceptAll row).refusal? others ∧
      engine.acceptAll (row ++ others) = (engine.acceptAll row).acceptAll others := by
  have happend := engine.deliverAll_append row others
  rw [deliverAll_eq, deliverAll_eq, h] at happend
  dsimp only at happend
  rw [deliverAll_eq] at happend
  -- the refusal and the engine of the joined row are the two halves of the pair
  exact Prod.mk.inj happend

/-- Behind a refusal nothing more is made. -/
theorem append_of_refused {engine : Engine} {row : List Delivery} {cause : DeliveryError}
    (h : engine.refusal? row = some cause) (others : List Delivery) :
    engine.refusal? (row ++ others) = some cause ∧
      engine.acceptAll (row ++ others) = engine.acceptAll row := by
  have happend := engine.deliverAll_append row others
  rw [deliverAll_eq, deliverAll_eq, h] at happend
  exact Prod.mk.inj happend

theorem room_le (engine : Engine) (count : Nat) : engine.room count ≤ count := by
  rw [room]
  split
  · exact Nat.le_refl count
  · exact Nat.min_le_right _ _

theorem room_of_used_up {engine : Engine} (h : engine.limit = some 0) (count : Nat) :
    engine.room count = 0 := by
  rw [room, h]
  exact Nat.zero_min count

/-- An engine without room for any of a row stays as it is. -/
theorem acceptAll_of_room_eq_zero {engine : Engine} {row : List Delivery}
    (h : engine.room row.length = 0) : engine.acceptAll row = engine := by
  obtain ⟨next, opened, accepted, limit⟩ := engine
  rw [acceptAll, h]
  cases limit <;> simp

theorem acceptAll_nil (engine : Engine) : engine.acceptAll [] = engine :=
  acceptAll_of_room_eq_zero (Nat.le_zero.1 (engine.room_le 0))

/-- A row gets through exactly when there is room for all of it. -/
theorem refusal?_eq_none_iff {engine : Engine} {row : List Delivery} :
    engine.refusal? row = none ↔ engine.room row.length = row.length := by
  rw [refusal?, Option.map_eq_none_iff, List.getElem?_eq_none_iff]
  have hle := engine.room_le row.length
  omega

/-- A row to one receiver is refused on behalf of that receiver. -/
theorem refusal?_of_receiver {receiver : Text} {row : List Delivery}
    (h : ∀ delivery ∈ row, delivery.receiver = receiver) (engine : Engine) :
    engine.refusal? row =
      if engine.room row.length < row.length then some ⟨receiver, .refused⟩ else none := by
  split
  case isTrue hlt =>
      rw [refusal?, List.getElem?_eq_getElem hlt, Option.map_some, h _ (List.getElem_mem hlt)]
  case isFalse hle =>
      have hroom := engine.room_le row.length
      exact refusal?_eq_none_iff.2 (by omega)

/-- The limit left by a row that got through is what another row finds. -/
theorem room_append {engine : Engine} {row : List Delivery} (h : engine.refusal? row = none)
    (count : Nat) :
    engine.room (row.length + count) = row.length + (engine.acceptAll row).room count := by
  rw [refusal?_eq_none_iff] at h
  simp only [room, acceptAll] at h ⊢
  cases hlimit : engine.limit with
  | none => rfl
  | some remaining =>
      simp only [hlimit] at h
      simp only [Option.map_some, h]
      omega

theorem room_append_of_refusal {engine : Engine} {row : List Delivery} {cause : DeliveryError}
    (h : engine.refusal? row = some cause) (count : Nat) :
    engine.room (row.length + count) = engine.room row.length ∧
      engine.room row.length < row.length := by
  have hne : engine.room row.length ≠ row.length := by
    intro heq
    rw [refusal?_eq_none_iff.2 heq] at h
    cases h
  have hle := engine.room_le row.length
  simp only [room] at hne hle ⊢
  cases hlimit : engine.limit with
  | none =>
      -- without a limit there is room for every row
      rw [hlimit] at hne
      exact absurd rfl hne
  | some remaining =>
      simp only [hlimit] at hne hle ⊢
      omega

end Engine

/-! ## Rows of one action -/

/-- The outcome of a row of deliveries: its refusal, or the ending behind it. -/
def endingAfter {α : Type} (refusal : Option DeliveryError) (ending : Except Error α) :
    Except Error α :=
  match refusal with
  | some cause => .error (.delivery cause)
  | none => ending

/-- From the state, the action makes the deliveries in order, up to the first refusal; if there is
none, it ends as given. `engineOf` finds the engine in a state. -/
structure Delivers {ρ α : Type} (engineOf : ρ → Engine) (action : EStateM Error ρ α) (state : ρ)
    (row : List Delivery) (ending : Except Error α) : Prop where
  outcome_eq : outcomeOf action state = endingAfter ((engineOf state).refusal? row) ending
  engine_eq : engineOf (stateAfter action state) = (engineOf state).acceptAll row

namespace Delivers

variable {ρ α β : Type} {engineOf : ρ → Engine} {first : EStateM Error ρ α}
  {next : α → EStateM Error ρ β} {state : ρ} {row others : List Delivery}

/-- One row behind another; what the next action does matters only where the first row got through.
-/
theorem bind {value : α} {ending : Except Error β}
    (hfirst : Delivers engineOf first state row (.ok value))
    (hnext : (engineOf state).refusal? row = none →
      Delivers engineOf (next value) (stateAfter first state) others ending) :
    Delivers engineOf (first >>= next) state (row ++ others) ending := by
  cases hrow : (engineOf state).refusal? row with
  | none =>
      -- the next action starts from the state that the whole row leaves
      have hrest := hnext hrow
      obtain ⟨hrefusal, haccepted⟩ := Engine.append_of_accepted hrow others
      constructor
      · rw [outcomeOf_bind, hfirst.outcome_eq, hrow, hrefusal, ← hfirst.engine_eq]
        exact hrest.outcome_eq
      · rw [stateAfter_bind, hfirst.outcome_eq, hrow, haccepted, ← hfirst.engine_eq]
        exact hrest.engine_eq
  | some cause =>
      obtain ⟨hrefusal, hstopped⟩ := Engine.append_of_refused hrow others
      constructor
      · rw [outcomeOf_bind, hfirst.outcome_eq, hrow, hrefusal]
        rfl
      · rw [stateAfter_bind, hfirst.outcome_eq, hrow, hstopped]
        exact hfirst.engine_eq

/-- An action that ends in an error keeps the next one from starting. -/
theorem bind_error {error : Error} (hfirst : Delivers engineOf first state row (.error error)) :
    Delivers engineOf (first >>= next) state row (.error error) := by
  constructor
  · rw [outcomeOf_bind, hfirst.outcome_eq]
    cases (engineOf state).refusal? row <;> rfl
  · rw [stateAfter_bind, hfirst.outcome_eq]
    cases (engineOf state).refusal? row <;> exact hfirst.engine_eq

/-- An action that succeeds has made its whole row. -/
theorem of_ok {value : α} {ending : Except Error α} (h : Delivers engineOf first state row ending)
    (hok : outcomeOf first state = .ok value) :
    ending = .ok value ∧ (engineOf state).room row.length = row.length ∧
      (engineOf (stateAfter first state)).accepted = (engineOf state).accepted ++ row := by
  rw [h.outcome_eq] at hok
  cases hrefusal : (engineOf state).refusal? row with
  | some cause =>
      rw [hrefusal] at hok
      cases hok
  | none =>
      rw [hrefusal] at hok
      have hroom := Engine.refusal?_eq_none_iff.1 hrefusal
      refine ⟨hok, hroom, ?_⟩
      rw [h.engine_eq, Engine.acceptAll, hroom, List.take_length]

/-- A row to one receiver ends as given when all of it got through, and is otherwise refused on behalf
of that receiver. -/
theorem outcome_of_receiver {receiver : Text} {ending : Except Error α}
    (h : Delivers engineOf first state row ending)
    (hreceiver : ∀ delivery ∈ row, delivery.receiver = receiver) :
    outcomeOf first state =
      if (engineOf state).room row.length = row.length then ending
      else .error (.delivery ⟨receiver, .refused⟩) := by
  have hroom := (engineOf state).room_le row.length
  rw [h.outcome_eq, Engine.refusal?_of_receiver hreceiver]
  split
  case isTrue hlt =>
      rw [if_neg (Nat.ne_of_lt hlt)]
      rfl
  case isFalse hle =>
      rw [if_pos (Nat.le_antisymm hroom (Nat.le_of_not_lt hle))]
      rfl

/-- An action that makes no delivery ends as given and leaves the engine as it is. -/
theorem of_nil {ending : Except Error α} (h : Delivers engineOf first state [] ending) :
    outcomeOf first state = ending ∧ engineOf (stateAfter first state) = engineOf state := by
  constructor
  · rw [h.outcome_eq]
    rfl
  · rw [h.engine_eq, Engine.acceptAll_nil]

/-- An engine that is not used up accepts a single delivery. -/
theorem of_accepting {delivery : Delivery} {ending : Except Error α}
    (h : Delivers engineOf first state [delivery] ending) (hlimit : (engineOf state).limit ≠ some 0) :
    outcomeOf first state = ending ∧
      (engineOf (stateAfter first state)).accepted = (engineOf state).accepted ++ [delivery] := by
  have hroom : (engineOf state).room [delivery].length = [delivery].length := by
    rw [Engine.room, List.length_singleton]
    split
    case h_1 => rfl
    case h_2 remaining hsome =>
        have hne : remaining ≠ 0 := fun hzero => hlimit (hzero ▸ hsome)
        omega
  constructor
  · rw [h.outcome_eq, Engine.refusal?_eq_none_iff.2 hroom]
    rfl
  · rw [h.engine_eq, Engine.acceptAll, hroom, List.take_length]

/-- With the limit used up, the first delivery is refused. -/
theorem of_used_up {delivery : Delivery} {ending : Except Error α}
    (h : Delivers engineOf first state (delivery :: row) ending)
    (hlimit : (engineOf state).limit = some 0) :
    outcomeOf first state = .error (.delivery ⟨delivery.receiver, .refused⟩) ∧
      engineOf (stateAfter first state) = engineOf state := by
  have hroom := Engine.room_of_used_up hlimit (delivery :: row).length
  constructor
  · rw [h.outcome_eq, Engine.refusal?, hroom]
    rfl
  · rw [h.engine_eq, Engine.acceptAll_of_room_eq_zero hroom]

end Delivers

/-! ## Rows of actions -/

namespace Action

/-- On every bench the action makes the deliveries in order, up to the first refusal; if there is
none, it ends as given. -/
def Makes {α : Type} (action : Action α) (row : List Delivery) (ending : Except Error α) : Prop :=
  ∀ bench, Delivers Bench.engine action bench row ending

theorem makes_pure {α : Type} (value : α) : Makes (pure value) [] (.ok value) :=
  fun bench => ⟨rfl, bench.engine.acceptAll_nil.symm⟩

theorem makes_throw {α : Type} (error : Error) : Makes (throw error : Action α) [] (.error error) :=
  fun bench => ⟨rfl, bench.engine.acceptAll_nil.symm⟩

theorem makes_note (contract : Contract) : Makes (note contract) [] (.ok ()) :=
  fun bench => ⟨rfl, bench.engine.acceptAll_nil.symm⟩

/-- A pure call makes no delivery and ends as the call does. -/
theorem makes_ofChecked {α : Type} (call : Checked α) : Makes (ofChecked call) [] call.outcome := by
  intro bench
  constructor
  · exact outcomeOf_ofChecked call bench
  · rw [stateAfter_ofChecked, Engine.acceptAll_nil]

theorem makes_deliver (receiver : Text) (payload : Payload) :
    Makes (deliver receiver payload) [⟨receiver, payload⟩] (.ok ()) := by
  intro bench
  -- one delivery is a row of length one
  have hrow := bench.engine.deliverAll_eq [⟨receiver, payload⟩]
  simp only [Engine.deliverAll] at hrow
  obtain ⟨hrefusal, hengine⟩ := Prod.mk.inj hrow.symm
  constructor
  · rw [hrefusal]
    simp only [outcomeOf, deliver]
    cases bench.engine.deliver ⟨receiver, payload⟩ <;> rfl
  · rw [hengine]
    simp only [stateAfter, deliver]
    cases bench.engine.deliver ⟨receiver, payload⟩ <;> rfl

/-- One row behind another. -/
theorem Makes.bind {α β : Type} {first : Action α} {next : α → Action β}
    {row others : List Delivery} {value : α} {ending : Except Error β}
    (hfirst : Makes first row (.ok value)) (hnext : Makes (next value) others ending) :
    Makes (first >>= next) (row ++ others) ending := by
  intro bench
  exact (hfirst bench).bind fun _ => hnext (stateAfter first bench)

theorem Makes.bind_error {α β : Type} {first : Action α} {row : List Delivery} {error : Error}
    (next : α → Action β) (hfirst : Makes first row (.error error)) :
    Makes (first >>= next) row (.error error) := by
  intro bench
  exact (hfirst bench).bind_error

/-- A contract noted at the end changes neither the row nor the ending. -/
theorem Makes.bind_note {first : Action Unit} {row : List Delivery} {ending : Except Error Unit}
    (contract : Contract) (hfirst : Makes first row ending) :
    Makes (first >>= fun _ => note contract) row ending := by
  cases ending with
  | ok _ =>
      have hnoted : Makes (first >>= fun _ => note contract) (row ++ []) (.ok ()) :=
        hfirst.bind (makes_note contract)
      rwa [List.append_nil] at hnoted
  | error error => exact hfirst.bind_error _

/-- The row of a repeated step is the rows of the single steps, in order. -/
theorem makes_forNumbers {step : Nat → Action Unit} {row : Nat → List Delivery}
    (h : ∀ n, Makes (step n) (row n) (.ok ())) (first count : Nat) :
    Makes (forNumbers step first count) ((List.range' first count).flatMap row) (.ok ()) := by
  induction count generalizing first with
  | zero => exact makes_pure ()
  | succ count ih =>
      rw [List.range'_succ, List.flatMap_cons]
      exact (h first).bind (ih (first + 1))

end Action

/-! ## Rows of actions on a held value -/

namespace ActionOn

variable {σ α β : Type}

/-- From the held value, on every bench, the action makes the deliveries in order, up to the first
refusal, and then holds the value for the number of deliveries that got through; if none is refused,
it ends as given. -/
structure Makes (action : ActionOn σ α) (held : σ) (row : List Delivery) (heldAfter : Nat → σ)
    (ending : Except Error α) : Prop where
  delivers : ∀ bench : Bench,
    Delivers (fun state => state.2.engine) action (held, bench) row ending
  held_eq : ∀ bench : Bench,
    (stateAfter action (held, bench)).1 = heldAfter (bench.engine.room row.length)

theorem makes_pure (value : α) (held : σ) :
    Makes (pure value) held [] (fun _ => held) (.ok value) :=
  ⟨fun bench => ⟨rfl, bench.engine.acceptAll_nil.symm⟩, fun _ => rfl⟩

theorem makes_change (update : σ → σ) (held : σ) :
    Makes (change update) held [] (fun _ => update held) (.ok ()) :=
  ⟨fun bench => ⟨rfl, bench.engine.acceptAll_nil.symm⟩, fun _ => rfl⟩

/-- An action that leaves the held value as it is. -/
theorem makes_onBench (action : σ → Action α) {held : σ} {row : List Delivery}
    {ending : Except Error α} (h : (action held).Makes row ending) :
    Makes (onBench action) held row (fun _ => held) ending := by
  constructor
  · intro bench
    constructor
    · rw [outcomeOf_onBench]
      exact (h bench).outcome_eq
    · rw [stateAfter_onBench]
      exact (h bench).engine_eq
  · intro bench
    rw [stateAfter_onBench]

/-- One row behind another: the held value is found along the first row until it got through. -/
theorem Makes.bind {first : ActionOn σ α} {next : α → ActionOn σ β} {held : σ}
    {row others : List Delivery} {heldAfter heldAfter' : Nat → σ} {value : α}
    {ending : Except Error β} (hfirst : Makes first held row heldAfter (.ok value))
    (hnext : Makes (next value) (heldAfter row.length) others heldAfter' ending) :
    Makes (first >>= next) held (row ++ others)
      (fun k => if k < row.length then heldAfter k else heldAfter' (k - row.length)) ending := by
  -- behind the first row the second action starts from the value held there
  have hstate : ∀ bench : Bench, bench.engine.refusal? row = none →
      stateAfter first (held, bench) =
        (heldAfter row.length, (stateAfter first (held, bench)).2) := by
    intro bench hrow
    refine Prod.ext ?_ rfl
    rw [hfirst.held_eq, Engine.refusal?_eq_none_iff.1 hrow]
  constructor
  · intro bench
    refine (hfirst.delivers bench).bind fun hrow => ?_
    rw [hstate bench hrow]
    exact hnext.delivers _
  · intro bench
    rw [stateAfter_bind, (hfirst.delivers bench).outcome_eq, List.length_append]
    cases hrow : bench.engine.refusal? row with
    | none =>
        have hengine := (hfirst.delivers bench).engine_eq
        rw [hstate bench hrow] at hengine
        rw [Engine.room_append hrow, if_neg (by omega), Nat.add_sub_cancel_left, ← hengine,
          hstate bench hrow]
        exact hnext.held_eq _
    | some cause =>
        -- the second action has not started, so the number is within the first row
        obtain ⟨hroom, hlt⟩ := Engine.room_append_of_refusal hrow others.length
        rw [hroom, if_pos hlt]
        exact hfirst.held_eq bench

/-- An action that ends in an error keeps the next one from starting. -/
theorem Makes.bind_error {first : ActionOn σ α} {held : σ} {row : List Delivery}
    {heldAfter : Nat → σ} {error : Error} (next : α → ActionOn σ β)
    (hfirst : Makes first held row heldAfter (.error error)) :
    Makes (first >>= next) held row heldAfter (.error error) := by
  constructor
  · intro bench
    exact (hfirst.delivers bench).bind_error
  · intro bench
    rw [stateAfter_bind, (hfirst.delivers bench).outcome_eq]
    cases bench.engine.refusal? row <;> exact hfirst.held_eq bench

/-- An action on a part of the held value changes that part alone. -/
theorem makes_onPart {τ : Type} (part : σ → τ) (replace : τ → σ → σ) {action : ActionOn τ α}
    {held : σ} {row : List Delivery} {partAfter : Nat → τ} {ending : Except Error α}
    (h : Makes action (part held) row partAfter ending) :
    Makes (onPart part replace action) held row (fun k => replace (partAfter k) held) ending := by
  constructor
  · intro bench
    constructor
    · rw [outcomeOf_onPart]
      exact (h.delivers bench).outcome_eq
    · rw [stateAfter_onPart]
      exact (h.delivers bench).engine_eq
  · intro bench
    rw [stateAfter_onPart, h.held_eq]

/-- Only the held values for numbers of deliveries within the row matter. -/
theorem Makes.congr_held {action : ActionOn σ α} {held : σ} {row : List Delivery}
    {heldAfter heldAfter' : Nat → σ} {ending : Except Error α}
    (h : Makes action held row heldAfter ending)
    (heq : ∀ k ≤ row.length, heldAfter k = heldAfter' k) :
    Makes action held row heldAfter' ending := by
  refine ⟨h.delivers, ?_⟩
  intro bench
  rw [h.held_eq, heq _ (bench.engine.room_le row.length)]

/-- One row behind another, where nothing held changes behind the first action. -/
theorem Makes.bind_still {first : ActionOn σ α} {next : α → ActionOn σ β} {held still : σ}
    {row others : List Delivery} {value : α} {ending : Except Error β}
    (hfirst : Makes first held row (fun _ => still) (.ok value))
    (hnext : Makes (next value) still others (fun _ => still) ending) :
    Makes (first >>= next) held (row ++ others) (fun _ => still) ending := by
  apply (hfirst.bind hnext).congr_held
  intro k _
  exact ite_self still

/-- A value that is only passed on adds nothing to the row. -/
theorem Makes.bind_pure {action : ActionOn σ α} {held still : σ} {row : List Delivery} {value : α}
    (h : Makes action held row (fun _ => still) (.ok value)) (result : α → β) :
    Makes (action >>= fun found => pure (result found)) held row (fun _ => still)
      (.ok (result value)) := by
  have hrow : Makes (action >>= fun found => pure (result found)) held (row ++ [])
      (fun _ => still) (.ok (result value)) := h.bind_still (makes_pure (result value) still)
  rwa [List.append_nil] at hrow

/-- What the engine has accepted and what is held behind an action that succeeds. -/
theorem Makes.of_ok {action : ActionOn σ α} {held : σ} {row : List Delivery} {heldAfter : Nat → σ}
    {ending : Except Error α} (h : Makes action held row heldAfter ending) {bench : Bench} {value : α}
    (hok : outcomeOf action (held, bench) = .ok value) :
    (stateAfter action (held, bench)).1 = heldAfter row.length ∧
      (stateAfter action (held, bench)).2.engine.accepted = bench.engine.accepted ++ row := by
  obtain ⟨-, hroom, haccepted⟩ := (h.delivers bench).of_ok hok
  refine ⟨?_, haccepted⟩
  rw [h.held_eq]
  exact congrArg heldAfter hroom

/-- What the engine has accepted afterwards, and what is held. -/
theorem Makes.accepted_eq {action : ActionOn σ α} {held : σ} {row : List Delivery}
    {heldAfter : Nat → σ} {ending : Except Error α} (h : Makes action held row heldAfter ending)
    (bench : Bench) :
    ∃ k ≤ row.length, (stateAfter action (held, bench)).1 = heldAfter k ∧
      (stateAfter action (held, bench)).2.engine.accepted =
        bench.engine.accepted ++ row.take k := by
  refine ⟨bench.engine.room row.length, bench.engine.room_le _, h.held_eq bench, ?_⟩
  rw [(h.delivers bench).engine_eq]
  rfl

end ActionOn

end DynamicPatching

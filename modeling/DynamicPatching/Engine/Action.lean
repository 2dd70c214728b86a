import DynamicPatching.Engine.Basic

/-!
# Actions

An action works on a bench: the engine, and the log of the contracts kept so far. It ends in a value
or in an error, and in either case in a bench, because what was delivered before an error stays
delivered. Some actions also change a value that is held beside the bench, such as a pool of voices;
`ActionOn` is the type of these, and `onBench` lets them run plain actions.

`outcomeOf` is what an action ends in and `stateAfter` what it leaves. Each is found along a sequence
of actions from those of its parts (`outcomeOf_bind`, `stateAfter_bind`).
-/

namespace DynamicPatching

/-- The engine and the contracts noted so far. -/
structure Bench where
  engine : Engine
  contracts : ContractLog
deriving DecidableEq

/-- The bench with a fresh engine and nothing noted. -/
def Bench.fresh : Bench := ⟨Engine.fresh, ContractLog.empty⟩

/-- A step that ends in a value or an error, and in a new bench either way. -/
abbrev Action (α : Type) := EStateM Error Bench α

/-- An action that also changes a held value, again on success and on failure. -/
abbrev ActionOn (σ : Type) (α : Type) := EStateM Error (σ × Bench) α

/-! ## Results -/

/-- The value or the error that an action ends in. -/
def outcomeOf {ρ α : Type} (action : EStateM Error ρ α) (state : ρ) : Except Error α :=
  match action state with
  | .ok value _ => .ok value
  | .error error _ => .error error

/-- The state that an action leaves, whether or not it succeeds. -/
def stateAfter {ρ α : Type} (action : EStateM Error ρ α) (state : ρ) : ρ :=
  match action state with
  | .ok _ after => after
  | .error _ after => after

theorem outcomeOf_bind {ρ α β : Type} (first : EStateM Error ρ α) (next : α → EStateM Error ρ β)
    (state : ρ) :
    outcomeOf (first >>= next) state =
      outcomeOf first state >>= fun value => outcomeOf (next value) (stateAfter first state) := by
  change outcomeOf (EStateM.bind first next) state = _
  simp only [outcomeOf, stateAfter, EStateM.bind]
  cases first state <;> rfl

theorem stateAfter_bind {ρ α β : Type} (first : EStateM Error ρ α) (next : α → EStateM Error ρ β)
    (state : ρ) :
    stateAfter (first >>= next) state =
      match outcomeOf first state with
      | .ok value => stateAfter (next value) (stateAfter first state)
      | .error _ => stateAfter first state := by
  change stateAfter (EStateM.bind first next) state = _
  simp only [outcomeOf, stateAfter, EStateM.bind]
  cases first state <;> rfl

/-- A value that is only passed on changes no state. -/
theorem stateAfter_bind_pure {ρ α β : Type} (first : EStateM Error ρ α) (result : α → β)
    (state : ρ) :
    stateAfter (first >>= fun found => pure (result found)) state = stateAfter first state := by
  rw [stateAfter_bind]
  cases outcomeOf first state <;> rfl

/-- A sequence of actions succeeds exactly when both parts do. -/
theorem outcomeOf_bind_eq_ok_iff {ρ α β : Type} {first : EStateM Error ρ α}
    {next : α → EStateM Error ρ β} {state : ρ} {result : β} :
    outcomeOf (first >>= next) state = .ok result ↔
      ∃ value, outcomeOf first state = .ok value ∧
        outcomeOf (next value) (stateAfter first state) = .ok result := by
  rw [outcomeOf_bind]
  cases outcomeOf first state with
  | error error => simp [bind, Except.bind]
  | ok value => simp [bind, Except.bind]

namespace Action

/-! ## Single steps -/

/-- Notes a contract. -/
def note (contract : Contract) : Action Unit := fun bench =>
  .ok () { bench with contracts := bench.contracts.note contract }

/-- Makes a pure call; its notes are kept whether or not it succeeds. -/
def ofChecked {α : Type} (call : Checked α) : Action α := fun bench =>
  let noted := { bench with contracts := bench.contracts.noteAll call.notes }
  match call.outcome with
  | .ok value => .ok value noted
  | .error error => .error error noted

theorem outcomeOf_ofChecked {α : Type} (call : Checked α) (bench : Bench) :
    outcomeOf (ofChecked call) bench = call.outcome := by
  simp only [outcomeOf, ofChecked]
  cases call.outcome <;> rfl

theorem stateAfter_ofChecked {α : Type} (call : Checked α) (bench : Bench) :
    stateAfter (ofChecked call) bench =
      { bench with contracts := bench.contracts.noteAll call.notes } := by
  simp only [stateAfter, ofChecked]
  cases call.outcome <;> rfl

/-- Opens a patch and yields its handle. -/
def openPatch (name directory : Text) : Action Nat := fun bench =>
  match bench.engine.openPatch name directory with
  | .ok (handle, engine) => .ok handle { bench with engine }
  | .error cause => .error (.delivery cause) bench

/-- Delivers a payload to a receiver. -/
def deliver (receiver : Text) (payload : Payload) : Action Unit := fun bench =>
  match bench.engine.deliver ⟨receiver, payload⟩ with
  | .ok engine => .ok () { bench with engine }
  | .error cause => .error (.delivery cause) bench

/-! ## Rows of steps -/

/-- The steps for `count` consecutive numbers from `first` on, in order. -/
def forNumbers (step : Nat → Action Unit) : (first count : Nat) → Action Unit
  | _, 0 => pure ()
  | first, count + 1 => do
      step first
      forNumbers step (first + 1) count

end Action

/-! ## Steps on a held value -/

namespace ActionOn

variable {σ τ α : Type}

/-- Runs an action that may depend on the held value and leaves it as it is. -/
def onBench (action : σ → Action α) : ActionOn σ α := fun (held, bench) =>
  match action held bench with
  | .ok value bench => .ok value (held, bench)
  | .error error bench => .error error (held, bench)

theorem outcomeOf_onBench (action : σ → Action α) (held : σ) (bench : Bench) :
    outcomeOf (onBench action) (held, bench) = outcomeOf (action held) bench := by
  simp only [outcomeOf, onBench]
  cases action held bench <;> rfl

theorem stateAfter_onBench (action : σ → Action α) (held : σ) (bench : Bench) :
    stateAfter (onBench action) (held, bench) = (held, stateAfter (action held) bench) := by
  simp only [stateAfter, onBench]
  cases action held bench <;> rfl

/-- Changes the held value. -/
def change (update : σ → σ) : ActionOn σ Unit := fun (held, bench) =>
  .ok () (update held, bench)

/-- Runs an action on a part of the held value. -/
def onPart (part : σ → τ) (replace : τ → σ → σ) (action : ActionOn τ α) :
    ActionOn σ α := fun (held, bench) =>
  match action (part held, bench) with
  | .ok value (part, bench) => .ok value (replace part held, bench)
  | .error error (part, bench) => .error error (replace part held, bench)

theorem outcomeOf_onPart (part : σ → τ) (replace : τ → σ → σ) (action : ActionOn τ α) (held : σ)
    (bench : Bench) :
    outcomeOf (onPart part replace action) (held, bench) = outcomeOf action (part held, bench) := by
  simp only [outcomeOf, onPart]
  cases action (part held, bench) <;> rfl

theorem stateAfter_onPart (part : σ → τ) (replace : τ → σ → σ) (action : ActionOn τ α) (held : σ)
    (bench : Bench) :
    stateAfter (onPart part replace action) (held, bench) =
      (replace (stateAfter action (part held, bench)).1 held,
        (stateAfter action (part held, bench)).2) := by
  simp only [stateAfter, onPart]
  cases action (part held, bench) <;> rfl

end ActionOn

end DynamicPatching

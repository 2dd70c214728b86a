import DynamicPatching.Error

/-!
# Contracts and checked results

A contract is a promise that an operation keeps whenever it succeeds. Each time an operation keeps
one it is noted, and the log holds the contracts noted since it was last cleared. A check names
contracts by their numbers and fails when one of them has not been noted; numbers that belong to no
contract are never noted.

Building, validating and reading commands are pure, and yet note the contracts they keep, also when
a later part of the same call fails. A `Checked` value is the outcome of such a call together with
its notes. Running one call after another joins the notes and stops at the first error; on outcomes
alone that is the sequencing of `Except` (`outcome_bind`).
-/

namespace DynamicPatching

/-! ## Contracts -/

/-- The promises of the library. -/
inductive Contract where
  | sessionReady
  | scriptInOrder
  | connectionComplete
  | selectorSymbolic
  | nameSymbolic
  | cursorInPool
  | resizeExact
  | broadcastComplete
deriving DecidableEq

/-- The number by which a check names a contract. -/
def Contract.number : Contract → Nat
  | .sessionReady => 1
  | .scriptInOrder => 2
  | .connectionComplete => 3
  | .selectorSymbolic => 4
  | .nameSymbolic => 5
  | .cursorInPool => 6
  | .resizeExact => 7
  | .broadcastComplete => 8

/-- The contracts noted so far, each once. -/
structure ContractLog where
  noted : List Contract
deriving DecidableEq

namespace ContractLog

/-! ### Noting -/

/-- The log in which nothing has been noted. -/
def empty : ContractLog := ⟨[]⟩

/-- The log after one more note. -/
def note (log : ContractLog) (contract : Contract) : ContractLog :=
  if contract ∈ log.noted then log else ⟨contract :: log.noted⟩

/-- The log after the given notes, in order. -/
def noteAll (log : ContractLog) (contracts : List Contract) : ContractLog :=
  contracts.foldl note log

/-- A note adds its contract and nothing else. -/
theorem mem_noted_note {log : ContractLog} {contract other : Contract} :
    other ∈ (log.note contract).noted ↔ other = contract ∨ other ∈ log.noted := by
  unfold note
  split
  case isTrue h =>
      constructor
      · exact Or.inr
      · rintro (rfl | hmem)
        · exact h
        · exact hmem
  case isFalse => exact List.mem_cons

/-- A row of notes adds its contracts and nothing else. -/
theorem mem_noted_noteAll {contracts : List Contract} {log : ContractLog} {contract : Contract} :
    contract ∈ (log.noteAll contracts).noted ↔ contract ∈ contracts ∨ contract ∈ log.noted := by
  induction contracts generalizing log with
  | nil => simp [noteAll]
  | cons first rest ih =>
      have step : log.noteAll (first :: rest) = (log.note first).noteAll rest := rfl
      rw [step, ih, mem_noted_note, List.mem_cons]
      constructor
      · rintro (h | h | h)
        · exact Or.inl (Or.inr h)
        · exact Or.inl (Or.inl h)
        · exact Or.inr h
      · rintro ((h | h) | h)
        · exact Or.inr (Or.inl h)
        · exact Or.inl h
        · exact Or.inr (Or.inr h)

/-! ### Checking -/

/-- The contract with the given number has been noted. -/
def holds (log : ContractLog) (number : Nat) : Bool :=
  log.noted.any fun contract => contract.number == number

/-- The numbers of a check that have not been noted, in the order of the check. -/
def missing (log : ContractLog) (numbers : List Nat) : List Nat :=
  numbers.filter fun number => !log.holds number

/-- Numbers between brackets, separated by commas. -/
def bracketed (numbers : List Nat) : Text :=
  "[".toList ++ ", ".toList.intercalate (numbers.map Text.decimal) ++ "]".toList

/-- Checks that every listed contract has been noted; the failure names those that have not. -/
def check (log : ContractLog) (title : Text) (numbers : List Nat) : Except Text Unit :=
  match log.missing numbers with
  | [] => .ok ()
  | unmet =>
      .error ("Contract test '".toList ++ title ++ "' failed: invariants not enforced: ".toList
        ++ bracketed unmet)

end ContractLog

/-! ## Checked results -/

/-- The outcome of a pure call, with the contracts noted on the way to it, oldest first. -/
structure Checked (α : Type) where
  outcome : Except Error α
  notes : List Contract

namespace Checked

/-! ### Building and sequencing -/

/-- A call that fails and notes nothing. -/
def fail {α : Type} (error : Error) : Checked α := ⟨.error error, []⟩

/-- A call that only notes a contract. -/
def note (contract : Contract) : Checked Unit := ⟨.ok (), [contract]⟩

/-- A call that succeeds and notes nothing. -/
protected def pure {α : Type} (value : α) : Checked α := ⟨.ok value, []⟩

/-- One call, and after its success another. -/
protected def bind {α β : Type} (first : Checked α) (next : α → Checked β) : Checked β :=
  match first.outcome with
  | .ok value => ⟨(next value).outcome, first.notes ++ (next value).notes⟩
  | .error error => ⟨.error error, first.notes⟩

instance : Monad Checked where
  pure := Checked.pure
  bind := Checked.bind

/-- The call with every error changed by `change`. -/
def mapError {α : Type} (change : Error → Error) (call : Checked α) : Checked α :=
  ⟨call.outcome.mapError change, call.notes⟩

/-! ### Outcomes of sequences -/

@[simp] theorem outcome_pure {α : Type} (value : α) :
    (pure value : Checked α).outcome = .ok value := rfl

@[simp] theorem outcome_fail {α : Type} (error : Error) :
    (fail error : Checked α).outcome = .error error := rfl

@[simp] theorem outcome_note (contract : Contract) : (note contract).outcome = .ok () := rfl

@[simp] theorem outcome_mapError {α : Type} (change : Error → Error) (call : Checked α) :
    (call.mapError change).outcome = call.outcome.mapError change := rfl

/-- The outcome of a sequence is the sequence of the outcomes. -/
@[simp] theorem outcome_bind {α β : Type} (first : Checked α) (next : α → Checked β) :
    (first >>= next).outcome = first.outcome >>= fun value => (next value).outcome := by
  change (Checked.bind first next).outcome = _
  unfold Checked.bind
  cases first.outcome <;> rfl

end Checked

end DynamicPatching

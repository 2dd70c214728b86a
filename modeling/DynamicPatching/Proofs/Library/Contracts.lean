import DynamicPatching.Proofs.Library.Records

/-!
# The contract log

The log records exactly what succeeded. Along a row of calls, each on an engine of its own, the notes of
the single calls add up (`ContractLog.mem_noted_after`), so a contract is in the log exactly when one of
the calls that owe it was made and succeeded, by itself or on the way of another one, and a check
succeeds exactly when all of its numbers are those of such contracts
(`ContractLog.contracts_recorded`).
-/

namespace DynamicPatching

namespace Duty

variable {made : List Duty}

/-! ## What each contract records -/

/-- What the call is that owes a contract. -/
theorem eq_of_contract? {duty : Duty} {contract : Contract}
    (h : duty.contract? = some contract) :
    match contract with
    | .sessionReady => ∃ config bench, duty = .startSession config bench
    | .scriptInOrder => ∃ session script bench, duty = .runScript session script bench
    | .connectionComplete => ∃ command connection, duty = .encode command ∧
        (command = .connect connection ∨ command = .disconnect connection)
    | .selectorSymbolic => ∃ text, duty = .readMessage text
    | .nameSymbolic => ∃ name, duty = .testName name
    | .cursorInPool => ∃ pool bench, duty = .allocate pool bench
    | .resizeExact => ∃ session target pool bench, duty = .resize session target pool bench
    | .broadcastComplete =>
        ∃ session pool message bench, duty = .broadcast session pool message bench := by
  cases duty with
  | encode command =>
      cases command with
      | connect connection =>
          obtain rfl := Option.some.inj h
          exact ⟨_, connection, rfl, .inl rfl⟩
      | disconnect connection =>
          obtain rfl := Option.some.inj h
          exact ⟨_, connection, rfl, .inr rfl⟩
      | _ => cases h
  | startSession config bench =>
      obtain rfl := Option.some.inj h
      exact ⟨config, bench, rfl⟩
  | runScript session script bench =>
      obtain rfl := Option.some.inj h
      exact ⟨session, script, bench, rfl⟩
  | readMessage text =>
      obtain rfl := Option.some.inj h
      exact ⟨text, rfl⟩
  | testName name =>
      obtain rfl := Option.some.inj h
      exact ⟨name, rfl⟩
  | allocate pool bench =>
      obtain rfl := Option.some.inj h
      exact ⟨pool, bench, rfl⟩
  | resize session target pool bench =>
      obtain rfl := Option.some.inj h
      exact ⟨session, target, pool, bench, rfl⟩
  | broadcast session pool message bench =>
      obtain rfl := Option.some.inj h
      exact ⟨session, pool, message, bench, rfl⟩

theorem noted_sessionReady_iff :
    Noted made .sessionReady ↔ ∃ config bench session, .startSession config bench ∈ made ∧
      outcomeOf (Session.start config) bench = .ok session := by
  constructor
  · rintro ⟨duty, hduty, hcontract, hdone⟩
    obtain ⟨config, bench, rfl⟩ := eq_of_contract? hcontract
    obtain ⟨session, hstarted⟩ := hdone
    exact ⟨config, bench, session, hduty, hstarted⟩
  · rintro ⟨config, bench, session, hduty, hstarted⟩
    exact ⟨_, hduty, rfl, session, hstarted⟩

theorem noted_scriptInOrder_iff :
    Noted made .scriptInOrder ↔ ∃ session script bench, .runScript session script bench ∈ made ∧
      outcomeOf (session.runScript script) bench = .ok () := by
  constructor
  · rintro ⟨duty, hduty, hcontract, hran⟩
    obtain ⟨session, script, bench, rfl⟩ := eq_of_contract? hcontract
    exact ⟨session, script, bench, hduty, hran⟩
  · rintro ⟨session, script, bench, hduty, hran⟩
    exact ⟨_, hduty, rfl, hran⟩

theorem noted_connectionComplete_iff :
    Noted made .connectionComplete ↔ ∃ command connection atoms, .encode command ∈ made ∧
      (command = .connect connection ∨ command = .disconnect connection) ∧
      command.encode.outcome = .ok atoms := by
  constructor
  · rintro ⟨duty, hduty, hcontract, hdone⟩
    obtain ⟨command, connection, rfl, hcommand⟩ := eq_of_contract? hcontract
    obtain ⟨atoms, hencoded⟩ := hdone
    exact ⟨command, connection, atoms, hduty, hcommand, hencoded⟩
  · rintro ⟨command, connection, atoms, hduty, hcommand, hencoded⟩
    have hcontract : (encode command).contract? = some .connectionComplete := by
      obtain rfl | rfl := hcommand
      · rfl
      · rfl
    exact ⟨_, hduty, hcontract, atoms, hencoded⟩

theorem noted_selectorSymbolic_iff :
    Noted made .selectorSymbolic ↔ ∃ text atoms, .readMessage text ∈ made ∧
      (Atom.messageOfText text).outcome = .ok atoms := by
  constructor
  · rintro ⟨duty, hduty, hcontract, hdone⟩
    obtain ⟨text, rfl⟩ := eq_of_contract? hcontract
    obtain ⟨atoms, hread⟩ := hdone
    exact ⟨text, atoms, hduty, hread⟩
  · rintro ⟨text, atoms, hduty, hread⟩
    exact ⟨_, hduty, rfl, atoms, hread⟩

theorem noted_nameSymbolic_iff :
    Noted made .nameSymbolic ↔ ∃ name line role, .testName name ∈ made ∧
      (requireName line role name).outcome = .ok () := by
  constructor
  · rintro ⟨duty, hduty, hcontract, hdone⟩
    obtain ⟨name, rfl⟩ := eq_of_contract? hcontract
    obtain ⟨line, role, haccepted⟩ := hdone
    exact ⟨name, line, role, hduty, haccepted⟩
  · rintro ⟨name, line, role, hduty, haccepted⟩
    exact ⟨_, hduty, rfl, line, role, haccepted⟩

theorem noted_cursorInPool_iff :
    Noted made .cursorInPool ↔ ∃ pool bench voice, .allocate pool bench ∈ made ∧
      outcomeOf VoicePool.allocate (pool, bench) = .ok voice := by
  constructor
  · rintro ⟨duty, hduty, hcontract, hdone⟩
    obtain ⟨pool, bench, rfl⟩ := eq_of_contract? hcontract
    obtain ⟨voice, hvoice⟩ := hdone
    exact ⟨pool, bench, voice, hduty, hvoice⟩
  · rintro ⟨pool, bench, voice, hduty, hvoice⟩
    exact ⟨_, hduty, rfl, voice, hvoice⟩

theorem noted_resizeExact_iff :
    Noted made .resizeExact ↔ ∃ session target pool bench,
      .resize session target pool bench ∈ made ∧
      outcomeOf (VoicePool.resize session target) (pool, bench) = .ok () := by
  constructor
  · rintro ⟨duty, hduty, hcontract, hresized⟩
    obtain ⟨session, target, pool, bench, rfl⟩ := eq_of_contract? hcontract
    exact ⟨session, target, pool, bench, hduty, hresized⟩
  · rintro ⟨session, target, pool, bench, hduty, hresized⟩
    exact ⟨_, hduty, rfl, hresized⟩

theorem noted_broadcastComplete_iff :
    Noted made .broadcastComplete ↔ ∃ session pool message bench,
      .broadcast session pool message bench ∈ made ∧
      outcomeOf (pool.broadcast session message) bench = .ok () := by
  constructor
  · rintro ⟨duty, hduty, hcontract, hsent⟩
    obtain ⟨session, pool, message, bench, rfl⟩ := eq_of_contract? hcontract
    exact ⟨session, pool, message, bench, hduty, hsent⟩
  · rintro ⟨session, pool, message, bench, hduty, hsent⟩
    exact ⟨_, hduty, rfl, hsent⟩

end Duty

namespace ContractLog

variable {log : ContractLog} {contract : Contract}

/-! ## Numbers -/

theorem number_injective : Function.Injective Contract.number := by
  intro first second h
  cases first <;> cases second <;> first | rfl | cases h

theorem holds_iff {number : Nat} :
    log.holds number = true ↔ ∃ contract ∈ log.noted, contract.number = number := by
  simp [holds]

theorem holds_number_iff : log.holds contract.number = true ↔ contract ∈ log.noted := by
  rw [holds_iff]
  constructor
  · rintro ⟨other, hother, hnumber⟩
    rwa [← number_injective hnumber]
  · intro h
    exact ⟨contract, h, rfl⟩

/-- The numbers of contracts are those from one to eight. -/
theorem number_bounds (contract : Contract) : 1 ≤ contract.number ∧ contract.number ≤ 8 := by
  cases contract <;> decide

/-- A check succeeds exactly when every listed contract has been noted. -/
theorem check_eq_ok_iff {title : Text} {numbers : List Nat} :
    log.check title numbers = .ok () ↔ ∀ number ∈ numbers, log.holds number = true := by
  have hmissing : log.missing numbers = [] ↔ ∀ number ∈ numbers, log.holds number = true := by
    simp [missing, List.filter_eq_nil_iff]
  rw [← hmissing, check]
  cases log.missing numbers with
  | nil => exact iff_of_true rfl rfl
  | cons number rest => exact iff_of_false nofun nofun

/-! ## Rows of calls -/

/-- The notes of a row of calls add up. -/
theorem mem_noted_after (log : ContractLog) (steps : List LibraryStep) (contract : Contract) :
    contract ∈ (log.after steps).noted ↔
      contract ∈ log.noted ∨ Duty.Noted (Duty.made log steps) contract := by
  induction steps generalizing log with
  | nil => exact (or_iff_left Duty.not_noted_nil).symm
  | cons step rest ih =>
      have hstep := step.call.run_records ⟨step.engine, log⟩ contract
      rw [← LibraryCall.benchAfter] at hstep
      rw [Duty.made, Duty.noted_append_iff, ← or_assoc, ← hstep]
      exact ih (log.afterStep step)

/-- A row of calls on one engine, each on what the one before it left. -/
def stepsOn (bench : Bench) : List LibraryCall → List LibraryStep
  | [] => []
  | call :: rest => ⟨bench.engine, call⟩ :: stepsOn (LibraryCall.benchAfter bench call) rest

/-- The log of a row of calls on one engine. -/
theorem contracts_after (bench : Bench) (calls : List LibraryCall) :
    (LibraryCall.after bench calls).contracts = bench.contracts.after (stepsOn bench calls) := by
  induction calls generalizing bench with
  | nil => rfl
  | cons call rest ih => exact ih (LibraryCall.benchAfter bench call)

/-- **The contract log records exactly what succeeded.** Take any row of calls to the library since the
log was empty, each on any engine. A check succeeds exactly when each of its numbers is in the log. In
the log is 1 exactly when some session was started, 2 when some script ran to its end, 3 when some
connection or disconnection was encoded, 4 when some direct message was read, 5 when some name was
tested and accepted, 6 when some voice was handed out, 7 when some pool was resized and 8 when some
message was broadcast, by itself or on the way of another call, whatever became of that. No other number
is ever in the log. -/
theorem contracts_recorded (steps : List LibraryStep) :
    let log := empty.after steps
    let made := Duty.made empty steps
    (∀ title numbers,
      log.check title numbers = .ok () ↔ ∀ number ∈ numbers, log.holds number = true) ∧
    (log.holds 1 = true ↔ ∃ config bench session, .startSession config bench ∈ made ∧
      outcomeOf (Session.start config) bench = .ok session) ∧
    (log.holds 2 = true ↔ ∃ session script bench, .runScript session script bench ∈ made ∧
      outcomeOf (session.runScript script) bench = .ok ()) ∧
    (log.holds 3 = true ↔ ∃ command connection atoms, .encode command ∈ made ∧
      (command = .connect connection ∨ command = .disconnect connection) ∧
      command.encode.outcome = .ok atoms) ∧
    (log.holds 4 = true ↔ ∃ text atoms, .readMessage text ∈ made ∧
      (Atom.messageOfText text).outcome = .ok atoms) ∧
    (log.holds 5 = true ↔ ∃ name line role, .testName name ∈ made ∧
      (requireName line role name).outcome = .ok ()) ∧
    (log.holds 6 = true ↔ ∃ pool bench voice, .allocate pool bench ∈ made ∧
      outcomeOf VoicePool.allocate (pool, bench) = .ok voice) ∧
    (log.holds 7 = true ↔ ∃ session target pool bench,
      .resize session target pool bench ∈ made ∧
      outcomeOf (VoicePool.resize session target) (pool, bench) = .ok ()) ∧
    (log.holds 8 = true ↔ ∃ session pool message bench,
      .broadcast session pool message bench ∈ made ∧
      outcomeOf (pool.broadcast session message) bench = .ok ()) ∧
    ∀ number, log.holds number = true → 1 ≤ number ∧ number ≤ 8 := by
  intro log made
  have hnoted : ∀ contract : Contract,
      log.holds contract.number = true ↔ Duty.Noted made contract := by
    intro contract
    rw [holds_number_iff, mem_noted_after]
    exact or_iff_right List.not_mem_nil
  refine ⟨fun title numbers => check_eq_ok_iff, (hnoted _).trans Duty.noted_sessionReady_iff,
    (hnoted _).trans Duty.noted_scriptInOrder_iff, (hnoted _).trans Duty.noted_connectionComplete_iff,
    (hnoted _).trans Duty.noted_selectorSymbolic_iff, (hnoted _).trans Duty.noted_nameSymbolic_iff,
    (hnoted _).trans Duty.noted_cursorInPool_iff, (hnoted _).trans Duty.noted_resizeExact_iff,
    (hnoted _).trans Duty.noted_broadcastComplete_iff, ?_⟩
  intro number hnumber
  obtain ⟨contract, -, rfl⟩ := holds_iff.1 hnumber
  exact number_bounds contract

/-- On an engine that refuses every delivery a connection is encoded all the same, and a script that
fails in its last line is not recorded. -/
theorem contracts_recorded_refused :
    let session : Session := ⟨1001, "1001-dynamicpd".toList⟩
    let steps : List LibraryStep :=
      [⟨Engine.fresh.failAfter 0, .onSession session (.runScript "connect a b".toList)⟩,
        ⟨Engine.fresh, .onSession session (.runScript "obj a print, oops".toList)⟩]
    let log := empty.after steps
    let made := Duty.made empty steps
    log.check "refused".toList [3, 5] = .ok () ∧
      (∃ command connection atoms, .encode command ∈ made ∧
        (command = .connect connection ∨ command = .disconnect connection) ∧
        command.encode.outcome = .ok atoms) ∧
      (¬ ∃ session script bench, .runScript session script bench ∈ made ∧
        outcomeOf (session.runScript script) bench = .ok ()) ∧
      1 ≤ 3 ∧ 3 ≤ 8 := by
  intro session steps log made
  obtain ⟨hcheck, -, hscripts, hconnections, -, -, -, -, -, hbounds⟩ := contracts_recorded steps
  have hconnected : log.holds 3 = true := by decide +kernel
  have hran : log.holds 2 = false := by decide +kernel
  refine ⟨(hcheck _ _).2 (by decide +kernel), hconnections.1 hconnected, ?_, hbounds 3 hconnected⟩
  intro hscript
  rw [hscripts.2 hscript] at hran
  cases hran

end ContractLog

end DynamicPatching

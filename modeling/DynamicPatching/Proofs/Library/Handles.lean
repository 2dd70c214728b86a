import DynamicPatching.Proofs.Library.Interpreted
import DynamicPatching.Proofs.Synth.Reachable

/-!
# Handles

The engine counts the patches that it opens, and a patch that was opened stays counted, whatever
becomes of the call that opened it. So the handles along a history of calls are the numbers from
`Engine.firstHandle` on, one for each opening (`LibraryCall.opens_after`), and a later session has a
larger handle. A receiver name begins with the digits of a handle and a hyphen, so it tells the handle
and the suffix apart (`Session.receiverName_inj`), whatever the suffix holds.
-/

namespace DynamicPatching

/-! ## Receiver names -/

theorem Text.decimal_injective : Function.Injective Text.decimal := by
  intro n m h
  rw [← digitsValue_decimal n, h, digitsValue_decimal]

namespace Session

theorem takeWhile_receiverName (handle : Nat) (suffix : Text) :
    (receiverName handle suffix).takeWhile Char.isDigit = Text.decimal handle := by
  have hdigits : ∀ c ∈ Text.decimal handle, c.isDigit = true := fun _ => Text.isDigit_of_mem_decimal
  have hhyphen : ('-' :: suffix).takeWhile Char.isDigit = [] := rfl
  rw [receiverName, List.takeWhile_append_of_pos hdigits, hhyphen, List.append_nil]

/-- A receiver name has one handle and one suffix. -/
theorem receiverName_inj {handle other : Nat} {suffix suffix' : Text}
    (h : receiverName handle suffix = receiverName other suffix') :
    handle = other ∧ suffix = suffix' := by
  have hdigits : Text.decimal handle = Text.decimal other := by
    rw [← takeWhile_receiverName handle suffix, h, takeWhile_receiverName]
  obtain rfl := Text.decimal_injective hdigits
  exact ⟨rfl, (List.cons.inj (List.append_cancel_left h)).2⟩

/-- The name of one of the session's own receivers. -/
def IsReceiver (session : Session) (name : Text) : Prop :=
  name = session.interpreter ∨ ∃ suffix, name = session.localReceiver suffix

end Session

/-! ## Openings -/

/-- From one engine to the other, the patches with the given names and directories were opened, each
with the next handle, and no others. -/
structure Engine.Opens (patches : List (Text × Text)) (before after : Engine) : Prop where
  opened_eq : after.opened = before.opened ++
    (patches.zipIdx before.nextHandle).map fun (patch, handle) => ⟨patch.1, patch.2, handle⟩
  nextHandle_eq : after.nextHandle = before.nextHandle + patches.length

namespace Engine

theorem opens_nil {before after : Engine} (hopened : after.opened = before.opened)
    (hnext : after.nextHandle = before.nextHandle) : Opens [] before after := by
  constructor
  · rw [hopened, List.zipIdx_nil, List.map_nil, List.append_nil]
  · exact hnext

theorem Opens.trans {patches others : List (Text × Text)} {before middle after : Engine}
    (h : Opens patches before middle) (h' : Opens others middle after) :
    Opens (patches ++ others) before after := by
  constructor
  · rw [h'.opened_eq, h.opened_eq, h.nextHandle_eq, List.zipIdx_append, List.map_append,
      List.append_assoc]
  · rw [h'.nextHandle_eq, h.nextHandle_eq, List.length_append, Nat.add_assoc]

end Engine

/-- What a request for a patch opens: a patch must have a name. -/
def OpenedPatch.opening (name directory : Text) : List (Text × Text) :=
  if name = [] then [] else [(name, directory)]

namespace Action

variable {α β : Type}

/-- On every bench the action opens the given patches and no others, whatever its outcome. -/
def Opens (patches : List (Text × Text)) (action : Action α) : Prop :=
  ∀ bench, Engine.Opens patches bench.engine (stateAfter action bench).engine

/-- Deliveries open no patch. -/
theorem Makes.opens {action : Action α} {row : List Delivery} {ending : Except Error α}
    (h : action.Makes row ending) : action.Opens [] := by
  intro bench
  rw [(h bench).engine_eq]
  exact Engine.opens_nil rfl rfl

theorem Sends.opens {action : Action α} {receiver : Text} (h : action.Sends receiver) :
    action.Opens [] := by
  obtain ⟨row, ending, -, hmakes⟩ := h
  exact hmakes.opens

/-- What follows the opening opens nothing more, and is not reached when nothing was opened. -/
theorem Opens.bind {patches : List (Text × Text)} {first : Action α} {next : α → Action β}
    (hfirst : first.Opens patches) (hnext : ∀ value, (next value).Opens []) :
    (first >>= next).Opens patches := by
  intro bench
  rw [stateAfter_bind]
  cases outcomeOf first bench with
  | error error => exact hfirst bench
  | ok value =>
      rw [← List.append_nil patches]
      exact (hfirst bench).trans (hnext value _)

theorem opens_pure (value : α) : (pure value : Action α).Opens [] := (makes_pure value).opens

theorem opens_openPatch (name directory : Text) :
    (openPatch name directory).Opens (OpenedPatch.opening name directory) := by
  intro bench
  rw [OpenedPatch.opening]
  split
  case isTrue hname =>
      subst hname
      exact (openPatch_nil_makes directory).opens bench
  case isFalse hname =>
      rw [stateAfter, openPatch_eq hname]
      exact ⟨rfl, rfl⟩

theorem outcomeOf_openPatch_eq_ok_iff {name directory : Text} {bench : Bench} {handle : Nat} :
    outcomeOf (openPatch name directory) bench = .ok handle ↔
      name ≠ [] ∧ handle = bench.engine.nextHandle := by
  by_cases hname : name = []
  · subst hname
    constructor
    · intro h
      cases h
    · intro h
      exact absurd rfl h.1
  · rw [outcomeOf, openPatch_eq hname, Except.ok.injEq, eq_comm]
    exact (and_iff_right hname).symm

end Action

/-! ## One call -/

/-- The patch that a call to the engine opens, if it opens one. -/
def EngineCall.opening : EngineCall → List (Text × Text)
  | .openPatch name directory => OpenedPatch.opening name directory
  | _ => []

theorem EngineCall.opens_engineAction (call : EngineCall) :
    (SynthCall.engineAction call).Opens call.opening := by
  intro bench
  rw [EngineCall.stateAfter_engineAction]
  cases call with
  | openPatch name directory =>
      have hengine : (bench.engine.perform (.openPatch name directory)).2 =
          (stateAfter (Action.openPatch name directory) bench).engine := by
        simp only [stateAfter, Engine.perform, Action.openPatch]
        cases bench.engine.openPatch name directory <;> rfl
      rw [hengine]
      exact Action.opens_openPatch name directory bench
  | deliver delivery =>
      have hengine : (bench.engine.perform (.deliver delivery)).2 =
          (stateAfter (Action.deliver delivery.receiver delivery.payload) bench).engine := by
        simp only [stateAfter, Engine.perform, Action.deliver]
        cases bench.engine.deliver delivery <;> rfl
      rw [hengine]
      exact (Action.makes_deliver _ _).opens bench
  | failAfter deliveries => exact Engine.opens_nil rfl rfl
  | recover => exact Engine.opens_nil rfl rfl
  | clear => exact Engine.opens_nil rfl rfl

theorem SessionCall.opens_run (session : Session) (call : SessionCall) :
    (call.run session).Opens [] := by
  by_cases hcall : call.IsInterpreted
  · exact (SessionCall.run_sends hcall).opens
  · cases call with
    | sendMessage receiver message =>
        refine Action.Opens.bind (Action.makes_ofChecked _).opens fun atoms => ?_
        split
        · exact (Action.makes_deliver _ _).opens
        · exact (Action.makes_throw _).opens
    | sendText receiver text => exact (Action.makes_deliver _ _).opens
    | deliver receiver payload => exact (Action.makes_deliver _ _).opens
    | _ => exact absurd trivial hcall

theorem SynthCall.opens_of_isInterpreted {call : SynthCall} (h : call.IsInterpreted) (synth : Synth) :
    (call.run.runFrom synth).Opens [] := by
  have hplays : Synth.PlaysIn synth.session synth := rfl
  exact ((SynthCall.run_sends h).runFrom hplays).opens

theorem Session.opens_start (config : SessionConfig) :
    (Session.start config).Opens (OpenedPatch.opening config.patch config.searchPath) := by
  refine (Action.opens_openPatch _ _).bind fun handle => ?_
  exact (ready_sends ⟨handle, receiverName handle config.interpreterSuffix⟩).opens

theorem Synth.opens_start (sessionConfig : SessionConfig) (config : SynthConfig) :
    (Synth.start sessionConfig config).Opens
      (OpenedPatch.opening sessionConfig.patch sessionConfig.searchPath) := by
  rw [start_bind]
  exact (Action.opens_openPatch _ _).bind fun handle => (startOn_sends config).opens

/-- A synth plays in the session that it was started on. -/
theorem Synth.session_of_startOn {session : Session} {config : SynthConfig} {bench : Bench}
    {synth : Synth} (h : outcomeOf (startOn session config) bench = .ok synth) :
    synth.session = session := by
  obtain ⟨_, -, h⟩ := outcomeOf_bind_eq_ok_iff.1 h
  obtain ⟨_, -, h⟩ := outcomeOf_bind_eq_ok_iff.1 h
  obtain ⟨host, -, h⟩ := outcomeOf_bind_eq_ok_iff.1 h
  obtain ⟨_, -, h⟩ := outcomeOf_bind_eq_ok_iff.1 h
  obtain ⟨pool, -, h⟩ := outcomeOf_bind_eq_ok_iff.1 h
  obtain ⟨_, -, h⟩ := outcomeOf_bind_eq_ok_iff.1 h
  obtain ⟨settings, -, h⟩ := outcomeOf_bind_eq_ok_iff.1 h
  obtain ⟨_, -, h⟩ := outcomeOf_bind_eq_ok_iff.1 h
  obtain rfl := Except.ok.inj h
  rfl

namespace LibraryCall

/-- The patch that a call opens, if it opens one, whether or not the rest of the call succeeds. -/
def opening : LibraryCall → List (Text × Text)
  | .onEngine call => call.opening
  | .startSession config => OpenedPatch.opening config.patch config.searchPath
  | .startSynth config _ => OpenedPatch.opening config.patch config.searchPath
  | .onSynth _ (.engine call) => call.opening
  | _ => []

theorem opens_run (call : LibraryCall) : call.run.Opens call.opening := by
  have hchecked : ∀ {α : Type} (checked : Checked α),
      Action.Opens [] (do let _ ← Action.ofChecked checked) := by
    intro α checked
    exact (Action.makes_ofChecked checked).opens.bind fun _ => Action.opens_pure ()
  cases call with
  | construct parts => exact hchecked parts.remake
  | build parts => exact hchecked _
  | validate command => exact (Action.makes_ofChecked command.validate).opens
  | encode command => exact hchecked command.encode
  | readLine line => exact hchecked (Command.ofLine line)
  | readScript script => exact hchecked (Script.read script)
  | readMessage text => exact hchecked (Atom.messageOfText text)
  | onEngine call => exact call.opens_engineAction.bind fun _ => Action.opens_pure ()
  | startSession config => exact (Session.opens_start config).bind fun _ => Action.opens_pure ()
  | onSession session call => exact call.opens_run session
  | onPool session pool call =>
      exact (call.run_sends.runFrom trivial).opens.bind fun _ => Action.opens_pure ()
  | startSynth sessionConfig config =>
      exact (Synth.opens_start sessionConfig config).bind fun _ => Action.opens_pure ()
  | onSynth synth call =>
      refine Action.Opens.bind ?_ fun _ => Action.opens_pure ()
      cases call with
      | session call =>
          rw [SynthCall.run, runFrom_bind_pure, runFrom_onBench]
          exact (call.opens_run synth.session).bind fun _ => Action.opens_pure none
      | engine call =>
          rw [SynthCall.run, runFrom_onBench]
          exact call.opens_engineAction
      | _ =>
          apply SynthCall.opens_of_isInterpreted
          exact trivial

/-! ## Rows of calls -/

theorem after_append (bench : Bench) (earlier later : List LibraryCall) :
    after bench (earlier ++ later) = after (after bench earlier) later := List.foldl_append

/-- **Handles count openings.** Along a row of calls the patches that were asked for by name are
opened in order, each with the next handle, whatever the outcomes of the calls. -/
theorem opens_after (bench : Bench) (calls : List LibraryCall) :
    Engine.Opens (calls.flatMap opening) bench.engine (after bench calls).engine := by
  induction calls generalizing bench with
  | nil => exact Engine.opens_nil rfl rfl
  | cons call rest ih =>
      have hcall := call.opens_run bench
      rw [← benchAfter] at hcall
      exact hcall.trans (ih (benchAfter bench call))

theorem nextHandle_le_after (bench : Bench) (calls : List LibraryCall) :
    bench.engine.nextHandle ≤ (after bench calls).engine.nextHandle := by
  rw [(opens_after bench calls).nextHandle_eq]
  exact Nat.le_add_right _ _

/-! ## Sessions -/

/-- On the bench the call succeeds in starting the session, by itself or for a synth. -/
def Starts (call : LibraryCall) (bench : Bench) (session : Session) : Prop :=
  match call with
  | .startSession config => outcomeOf (Session.start config) bench = .ok session
  | .startSynth sessionConfig config =>
      ∃ synth, outcomeOf (Synth.start sessionConfig config) bench = .ok synth ∧
        synth.session = session
  | _ => False

/-- A session is started on the patch that its call opens, and named after that patch's handle. -/
theorem Starts.session_eq {call : LibraryCall} {bench : Bench} {session : Session}
    (h : call.Starts bench session) :
    ∃ config : SessionConfig, call.opening = [(config.patch, config.searchPath)] ∧
      session = Synth.sessionOn config bench := by
  cases call with
  | startSession config =>
      obtain ⟨handle, hopen, h⟩ := outcomeOf_bind_eq_ok_iff.1 h
      obtain ⟨hname, rfl⟩ := Action.outcomeOf_openPatch_eq_ok_iff.1 hopen
      obtain ⟨_, -, h⟩ := outcomeOf_bind_eq_ok_iff.1 h
      obtain ⟨_, -, h⟩ := outcomeOf_bind_eq_ok_iff.1 h
      exact ⟨config, if_neg hname, (Except.ok.inj h).symm⟩
  | startSynth sessionConfig config =>
      obtain ⟨synth, h, rfl⟩ := h
      rw [Synth.start_bind] at h
      obtain ⟨handle, hopen, h⟩ := outcomeOf_bind_eq_ok_iff.1 h
      obtain ⟨hname, rfl⟩ := Action.outcomeOf_openPatch_eq_ok_iff.1 hopen
      exact ⟨sessionConfig, if_neg hname, Synth.session_of_startOn h⟩
  | _ => exact h.elim

theorem Starts.handle_eq {call : LibraryCall} {bench : Bench} {session : Session}
    (h : call.Starts bench session) :
    session.handle = bench.engine.nextHandle ∧
      (benchAfter bench call).engine.nextHandle = bench.engine.nextHandle + 1 := by
  obtain ⟨config, hopening, rfl⟩ := h.session_eq
  have hopens := (call.opens_run bench).nextHandle_eq
  rw [hopening, ← benchAfter] at hopens
  exact ⟨rfl, hopens⟩

/-- The history, made on a fresh engine, started the session. -/
def Started (history : List LibraryCall) (session : Session) : Prop :=
  ∃ earlier call later, history = earlier ++ call :: later ∧
    call.Starts (after Bench.fresh earlier) session

theorem Started.append {history : List LibraryCall} {session : Session} (h : Started history session)
    (calls : List LibraryCall) : Started (history ++ calls) session := by
  obtain ⟨earlier, call, later, rfl, hstarts⟩ := h
  refine ⟨earlier, call, later ++ calls, ?_, hstarts⟩
  rw [List.append_assoc, List.cons_append]

/-- The handle of a session is below those that are still to come. -/
theorem Started.handle_lt {history : List LibraryCall} {session : Session}
    (h : Started history session) :
    session.handle < (after Bench.fresh history).engine.nextHandle := by
  obtain ⟨earlier, call, later, rfl, hstarts⟩ := h
  obtain ⟨hhandle, hnext⟩ := hstarts.handle_eq
  have hle := nextHandle_le_after (benchAfter (after Bench.fresh earlier) call) later
  rw [after_append]
  exact lt_of_lt_of_le (by omega) hle

theorem Started.interpreter_eq {history : List LibraryCall} {session : Session}
    (h : Started history session) :
    ∃ suffix, session.interpreter = session.localReceiver suffix := by
  obtain ⟨earlier, call, later, rfl, hstarts⟩ := h
  obtain ⟨config, -, rfl⟩ := hstarts.session_eq
  exact ⟨config.interpreterSuffix, rfl⟩

end LibraryCall

end DynamicPatching

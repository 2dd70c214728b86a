import DynamicPatching.Proofs.Library.Handles

/-!
# Isolated sessions

Sessions on one engine are started on patches of their own, so their handles differ, and with the
handles all their receiver names. A call of one session delivers lists to its own interpreter only, so
no row of calls of other sessions reaches the interpreter of a session
(`LibraryCall.linesTo_of_others`). `LibraryCall.sessions_isolated` says so along every history.
-/

namespace DynamicPatching

/-! ## Deliveries to other receivers -/

/-- What is delivered to one receiver is not among the lines to another. -/
theorem Engine.linesTo_of_listsTo {before after : Engine} {receiver other : Text}
    {row : List Delivery} (hlists : ListsTo receiver row) (hne : receiver ≠ other)
    (h : after.accepted = before.accepted ++ row) : after.linesTo other = before.linesTo other := by
  have hnone : (row.filter fun delivery => decide (delivery.receiver = other)) = [] := by
    rw [List.filter_eq_nil_iff]
    intro delivery hdelivery
    obtain ⟨atoms, rfl⟩ := hlists delivery hdelivery
    rw [decide_eq_true_iff]
    exact hne
  rw [linesTo, linesTo, h, List.filter_append, hnone, List.append_nil]

theorem Action.Sends.accepted_eq {α : Type} {action : Action α} {receiver : Text}
    (h : action.Sends receiver) (bench : Bench) :
    ∃ row, ListsTo receiver row ∧
      (stateAfter action bench).engine.accepted = bench.engine.accepted ++ row := by
  obtain ⟨row, ending, hlists, hmakes⟩ := h
  refine ⟨row.take (bench.engine.room row.length), ?_, ?_⟩
  · intro delivery hdelivery
    exact hlists delivery (List.mem_of_mem_take hdelivery)
  · rw [(hmakes bench).engine_eq]
    rfl

theorem Action.accepted_openPatch (name directory : Text) (bench : Bench) :
    (stateAfter (openPatch name directory) bench).engine.accepted = bench.engine.accepted := by
  by_cases hname : name = []
  · subst hname
    rfl
  · rw [stateAfter, openPatch_eq hname]
    rfl

/-- What follows the opening of a patch, and delivers to a receiver named after its handle, delivers
to the receiver that the next handle names. -/
theorem Action.accepted_openPatch_bind {α : Type} {name directory suffix : Text}
    {next : Nat → Action α} (bench : Bench)
    (hnext : ∀ handle, (next handle).Sends (Session.receiverName handle suffix)) :
    ∃ row, ListsTo (Session.receiverName bench.engine.nextHandle suffix) row ∧
      (stateAfter (openPatch name directory >>= next) bench).engine.accepted =
        bench.engine.accepted ++ row := by
  rw [stateAfter_bind, ← accepted_openPatch name directory bench]
  cases hopen : outcomeOf (openPatch name directory) bench with
  | error error => exact ⟨[], listsTo_nil, (List.append_nil _).symm⟩
  | ok handle =>
      obtain ⟨-, rfl⟩ := outcomeOf_openPatch_eq_ok_iff.1 hopen
      exact (hnext bench.engine.nextHandle).accepted_eq _

/-- Receivers of sessions with different handles have different names. -/
theorem Session.receivers_ne {session other : Session} {name name' : Text}
    (hsession : ∃ suffix, session.interpreter = session.localReceiver suffix)
    (hother : ∃ suffix, other.interpreter = other.localReceiver suffix)
    (hne : session.handle ≠ other.handle) (hname : session.IsReceiver name)
    (hname' : other.IsReceiver name') : name ≠ name' := by
  have hlocal : ∀ {held : Session} {receiver : Text},
      (∃ suffix, held.interpreter = held.localReceiver suffix) → held.IsReceiver receiver →
        ∃ suffix, receiver = held.localReceiver suffix := by
    rintro held receiver hheld (rfl | hreceiver)
    · exact hheld
    · exact hreceiver
  obtain ⟨suffix, rfl⟩ := hlocal hsession hname
  obtain ⟨suffix', rfl⟩ := hlocal hother hname'
  intro h
  exact hne (receiverName_inj h).1

namespace LibraryCall

variable {history : List LibraryCall} {session other : Session} {call : LibraryCall}

/-! ## Calls of other sessions -/

/-- The call starts a session, by itself or for a synth. -/
def IsStart : LibraryCall → Prop
  | .startSession _ | .startSynth _ _ => True
  | _ => False

/-- Behind the history, the call starts a session or is one of a session that the history started,
whose handle is not the given one. -/
def IsOfOther (handle : Nat) (history : List LibraryCall) (call : LibraryCall) : Prop :=
  call.IsStart ∨ ∃ session, Started history session ∧ session.handle ≠ handle ∧ call.IsOf session

theorem IsStart.accepted_eq (h : call.IsStart) (bench : Bench) :
    ∃ suffix row, ListsTo (Session.receiverName bench.engine.nextHandle suffix) row ∧
      (benchAfter bench call).engine.accepted = bench.engine.accepted ++ row := by
  cases call with
  | startSession config =>
      rw [benchAfter, run, Session.start, bind_assoc]
      refine ⟨config.interpreterSuffix, Action.accepted_openPatch_bind bench fun handle => ?_⟩
      have hready :=
        Session.ready_sends ⟨handle, Session.receiverName handle config.interpreterSuffix⟩
      exact hready.bind_pure _
  | startSynth sessionConfig config =>
      rw [benchAfter, run, Synth.start_bind, bind_assoc]
      refine ⟨sessionConfig.interpreterSuffix, Action.accepted_openPatch_bind bench fun handle => ?_⟩
      have hstart := @Synth.startOn_sends
        ⟨handle, Session.receiverName handle sessionConfig.interpreterSuffix⟩ config
      exact hstart.bind_pure _
  | _ => exact h.elim

/-- A call of a session appends lists to its interpreter and nothing else. -/
theorem IsOf.accepted_eq (h : call.IsOf session) (bench : Bench) :
    ∃ row, ListsTo session.interpreter row ∧
      (benchAfter bench call).engine.accepted = bench.engine.accepted ++ row := by
  rw [benchAfter]
  exact (run_sends h).accepted_eq bench

/-- One call of another session leaves the lines of the session as they are. -/
theorem linesTo_of_other (hother : Started history other)
    (h : call.IsOfOther other.handle history) :
    (benchAfter (after Bench.fresh history) call).engine.linesTo other.interpreter =
      (after Bench.fresh history).engine.linesTo other.interpreter := by
  obtain hstart | ⟨session, hsession, hne, hcall⟩ := h
  · -- the patch that is opened now has a larger handle
    obtain ⟨suffix, row, hlists, haccepted⟩ := hstart.accepted_eq (after Bench.fresh history)
    refine Engine.linesTo_of_listsTo hlists ?_ haccepted
    obtain ⟨suffix', hinterpreter⟩ := hother.interpreter_eq
    rw [hinterpreter]
    intro hname
    exact hother.handle_lt.ne' (Session.receiverName_inj hname).1
  · obtain ⟨row, hlists, haccepted⟩ := hcall.accepted_eq (after Bench.fresh history)
    refine Engine.linesTo_of_listsTo hlists ?_ haccepted
    exact Session.receivers_ne hsession.interpreter_eq hother.interpreter_eq hne (.inl rfl) (.inl rfl)

theorem after_snoc (bench : Bench) (calls : List LibraryCall) (call : LibraryCall) :
    after bench (calls ++ [call]) = benchAfter (after bench calls) call := after_append _ _ _

/-- A row of calls of other sessions leaves the lines of the session as they are. -/
theorem linesTo_of_others (hother : Started history other) {calls : List LibraryCall}
    (h : ∀ earlier call later, calls = earlier ++ call :: later →
      call.IsOfOther other.handle (history ++ earlier)) :
    (after Bench.fresh (history ++ calls)).engine.linesTo other.interpreter =
      (after Bench.fresh history).engine.linesTo other.interpreter := by
  induction calls using List.reverseRecOn with
  | nil => rw [List.append_nil]
  | append_singleton calls call ih =>
      have hcalls : ∀ earlier next later, calls = earlier ++ next :: later →
          next.IsOfOther other.handle (history ++ earlier) := by
        rintro earlier next later rfl
        apply h earlier next (later ++ [call])
        rw [List.append_assoc, List.cons_append]
      have hcall := h calls call [] rfl
      rw [← List.append_assoc, after_snoc, linesTo_of_other (hother.append calls) hcall]
      exact ih hcalls

/-! ## Histories -/

/-- **Sessions on one engine are isolated.** Take any history of calls on a fresh engine, whatever
their outcomes. The patches that were opened have the handles 1001, 1002, and so on, and the next patch
or session gets the next handle. Starting a session uses its handle up also when the reset is refused.
So a later session has a larger handle. Sessions with different handles have no receiver name in common,
whatever the suffixes. A call of a session delivers lists to its own interpreter only, and no row of
calls of other sessions, or of starts, changes the lines to the interpreter of a session. -/
theorem sessions_isolated :
    (∀ history : List LibraryCall,
      let reached := after Bench.fresh history
      let openings := history.flatMap opening
      reached.engine.opened = ((openings.zipIdx 1001).map fun (patch, handle) =>
        (⟨patch.1, patch.2, handle⟩ : OpenedPatch)) ∧
      (∀ name directory, name ≠ [] →
        outcomeOf (Action.openPatch name directory) reached = .ok (1001 + openings.length)) ∧
      (∀ (call : LibraryCall) (session : Session), call.Starts reached session →
        session.handle = 1001 + openings.length) ∧
      ∀ config : SessionConfig, config.patch ≠ [] →
        (stateAfter (Session.start config) reached).engine.nextHandle =
          1001 + openings.length + 1) ∧
    (∀ (earlier between : List LibraryCall) (first second : LibraryCall) (session other : Session),
      first.Starts (after Bench.fresh earlier) session →
      second.Starts (after Bench.fresh (earlier ++ first :: between)) other →
        session.handle < other.handle) ∧
    (∀ (history : List LibraryCall) (session other : Session),
      Started history session → Started history other → session.handle ≠ other.handle →
        ∀ name name', session.IsReceiver name → other.IsReceiver name' → name ≠ name') ∧
    (∀ (session : Session) (call : LibraryCall) (bench : Bench), call.IsOf session →
      ∃ row, ListsTo session.interpreter row ∧
        (benchAfter bench call).engine.accepted = bench.engine.accepted ++ row) ∧
    ∀ (history calls : List LibraryCall) (other : Session), Started history other →
      (∀ earlier call later, calls = earlier ++ call :: later →
        call.IsOfOther other.handle (history ++ earlier)) →
      (after Bench.fresh (history ++ calls)).engine.linesTo other.interpreter =
        (after Bench.fresh history).engine.linesTo other.interpreter := by
  refine ⟨?_, ?_, ?_, ?_, ?_⟩
  · intro history reached openings
    have hopens : Engine.Opens openings Engine.fresh reached.engine := opens_after Bench.fresh history
    have hnext : reached.engine.nextHandle = 1001 + openings.length := hopens.nextHandle_eq
    refine ⟨hopens.opened_eq, ?_, ?_, ?_⟩
    · intro name directory hname
      exact Action.outcomeOf_openPatch_eq_ok_iff.2 ⟨hname, hnext.symm⟩
    · intro call session hstarts
      rw [hstarts.handle_eq.1, hnext]
    · intro config hpatch
      have hstart := (Session.opens_start config reached).nextHandle_eq
      rw [OpenedPatch.opening, if_neg hpatch, hnext] at hstart
      exact hstart
  · intro earlier between first second session other hfirst hsecond
    have hstarted : Started (earlier ++ first :: between) session :=
      ⟨earlier, first, between, rfl, hfirst⟩
    rw [hsecond.handle_eq.1]
    exact hstarted.handle_lt
  · intro history session other hsession hother hne name name'
    exact Session.receivers_ne hsession.interpreter_eq hother.interpreter_eq hne
  · intro session call bench hcall
    exact hcall.accepted_eq bench
  · intro history calls other hother hcalls
    exact linesTo_of_others hother hcalls

/-- A start that was refused uses the second handle up, and a script of one of the two sessions that
follow is not among the lines of the other, whose suffix begins like the name of the first. -/
theorem sessions_isolated_refused :
    let history : List LibraryCall :=
      [.onEngine (.openPatch "other.pd".toList ".".toList), .onEngine (.failAfter 0),
        .startSession {}, .onEngine .recover, .startSession {},
        .startSession { interpreterSuffix := "1003-dynamicpd".toList }]
    let session : Session := ⟨1003, "1003-dynamicpd".toList⟩
    let other : Session := ⟨1004, "1004-1003-dynamicpd".toList⟩
    let script : LibraryCall := .onSession session (.runScript "obj printer print".toList)
    (after Bench.fresh history).engine.opened.map OpenedPatch.handle = [1001, 1002, 1003, 1004] ∧
      outcomeOf (Action.openPatch "other.pd".toList []) (after Bench.fresh history) = .ok 1005 ∧
      (stateAfter (Session.start {}) (after Bench.fresh (history.take 2))).engine.nextHandle = 1003 ∧
      session.handle = 1003 ∧ session.handle < other.handle ∧
      session.interpreter ≠ other.interpreter ∧
      (∃ row, ListsTo session.interpreter row ∧
        (after Bench.fresh (history ++ [script])).engine.accepted =
          (after Bench.fresh history).engine.accepted ++ row) ∧
      (after Bench.fresh (history ++ [script])).engine.linesTo other.interpreter = ["init".toList] := by
  intro history session other script
  obtain ⟨hopened, horder, hreceivers, hlists, hlines⟩ := sessions_isolated
  let first : LibraryCall := .startSession {}
  let second : LibraryCall := .startSession { interpreterSuffix := "1003-dynamicpd".toList }
  have hfirst : first.Starts (after Bench.fresh (history.take 4)) session := by
    change outcomeOf (Session.start {}) _ = .ok session
    decide +kernel
  have hsecond : second.Starts (after Bench.fresh (history.take 5)) other := by
    change outcomeOf (Session.start { interpreterSuffix := "1003-dynamicpd".toList }) _ = .ok other
    decide +kernel
  have hsession : Started history session := ⟨history.take 4, first, [second], rfl, hfirst⟩
  have hother : Started history other := ⟨history.take 5, second, [], rfl, hsecond⟩
  have hscript : script.IsOf session := ⟨rfl, trivial⟩
  have hpatch : (SessionConfig.patch {}) ≠ [] := by decide
  refine ⟨?_, (hopened history).2.1 _ _ (by decide), (hopened (history.take 2)).2.2.2 {} hpatch,
    (hopened (history.take 4)).2.2.1 first session hfirst,
    horder (history.take 4) [] first second session other hfirst hsecond,
    hreceivers history session other hsession hother (by decide) _ _ (.inl rfl) (.inl rfl), ?_, ?_⟩
  · rw [(hopened history).1]
    rfl
  · rw [after_snoc]
    exact hlists session script _ hscript
  · rw [hlines history [script] other hother]
    · rfl
    · intro earlier call later hsplit
      obtain ⟨rfl, rfl, rfl⟩ : earlier = [] ∧ call = script ∧ later = [] := by
        cases earlier with
        | nil => simpa using hsplit.symm
        | cons head tail => simp at hsplit
      exact .inr ⟨session, hsession.append [], by decide, hscript⟩

end LibraryCall

end DynamicPatching

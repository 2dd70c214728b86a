import DynamicPatching.Proofs.Synth.Construction
import DynamicPatching.Proofs.Voice.Histories
import DynamicPatching.Proofs.Voice.Records

/-!
# What messages to voices deliver

A message is joined to the number of a voice before it is trimmed, so only its end is: blanks in front
of it are kept, and each space among them is a symbol of its own (`textAtoms_space`). A message of
blanks alone leaves just the number. So a broadcast delivers one list to each voice, and a message to
one voice delivers that voice's list of the broadcast (`VoicePool.messages_delivered`).
-/

namespace DynamicPatching

namespace VoicePool

variable {session : Session} {pool : VoicePool} {receiver message : Text} {voice : Nat}

/-! ## Atoms of a message -/

/-- The atoms of the text of a message; blanks at the end do not count. -/
def textAtoms (message : Text) : List Atom :=
  if message.all Text.isBlank then [] else Atom.listOfText (Text.trimEnd message)

/-- The list that a message to a voice is delivered as. -/
def voiceList (receiver : Text) (voice : Nat) (message : Text) : List Atom :=
  [.symbol "send".toList, .symbol receiver, .number (Single.ofNat voice)] ++ textAtoms message

theorem trimEnd_cons {c : Char} (h : ¬ message.all Text.isBlank = true) :
    Text.trimEnd (c :: message) = c :: Text.trimEnd message := by
  have hkept : (message.reverse.dropWhile Text.isBlank).isEmpty = false := by
    rw [List.isEmpty_eq_false_iff]
    intro hnil
    have hblank := List.dropWhile_eq_nil_iff.1 hnil
    exact h (List.all_eq_true.2 fun c hc => hblank c (List.mem_reverse.2 hc))
  rw [Text.trimEnd_eq_rdropWhile, Text.trimEnd_eq_rdropWhile, List.rdropWhile, List.rdropWhile,
    List.reverse_cons, List.dropWhile_append, hkept]
  simp

theorem trimEnd_eq_nil {text : Text} (h : text.all Text.isBlank = true) : Text.trimEnd text = [] := by
  rw [Text.trimEnd_eq_rdropWhile, List.rdropWhile_eq_nil_iff]
  exact List.all_eq_true.1 h

/-- A space in front of a text is an empty symbol. -/
theorem listOfText_space (text : Text) :
    Atom.listOfText (' ' :: text) = .symbol [] :: Atom.listOfText text := by
  have hpieces : Text.pieces (' ' :: text) = [] :: Text.pieces text :=
    Text.pieces_append_space [] text
  rw [Atom.listOfText, hpieces]
  rfl

/-- The atoms of a message that is a row of words. -/
theorem textAtoms_words {words : List Text} (hne : words ≠ [])
    (h : ∀ word ∈ words, word.IsWord) :
    textAtoms (Text.spaced words) = words.map Atom.ofToken := by
  obtain ⟨htrim, hspaced⟩ := Text.trim_spaced fun word hword => (h word hword).trimmed
  obtain ⟨-, htrimEnd⟩ := Text.trimStart_and_trimEnd_of_trim htrim
  have hblank : ¬ (Text.spaced words).all Text.isBlank = true := by
    intro hc
    rw [trimEnd_eq_nil hc] at htrimEnd
    exact hspaced hne htrimEnd.symm
  rw [textAtoms, if_neg hblank, htrimEnd, Atom.listOfText,
    Text.pieces_spaced_words hne fun word hword => (h word hword).space_notMem]

theorem messageTokens_eq (message : Text) : messageTokens message = textAtoms message := by
  rw [messageTokens, textAtoms]
  by_cases hblank : message.all Text.isBlank = true
  · have hspaced : (' ' :: message).all Text.isBlank = true := by
      rw [List.all_cons, hblank]
      decide
    rw [if_pos hblank, trimEnd_eq_nil hspaced]
  · rw [if_neg hblank, trimEnd_cons hblank]

/-- A space in front of a message that is not blank is sent as an empty symbol. -/
theorem textAtoms_space (h : ¬ message.all Text.isBlank = true) :
    textAtoms (' ' :: message) = .symbol [] :: textAtoms message := by
  have hspaced : ¬ (' ' :: message).all Text.isBlank = true := by
    intro hc
    rw [List.all_cons, Bool.and_eq_true] at hc
    exact h hc.2
  rw [textAtoms, textAtoms, if_neg hspaced, if_neg h, trimEnd_cons h, listOfText_space]

/-! ## Rows -/

/-- The delivery of a message to a voice is that voice's list. -/
theorem messageDelivery_voiceList (h : pool.receiver.IsName) (hvoice : voice < 2 ^ 64)
    (message : Text) :
    pool.messageDelivery session (addressed voice message) =
      ⟨session.interpreter, .list (voiceList pool.receiver voice message)⟩ := by
  rw [messageDelivery_addressed h hvoice, messageAtoms, messageTokens_eq]
  rfl

/-- A message to a voice delivers that voice's list. -/
theorem unicast_makes_voiceList (h : pool.receiver.IsName) (hvoice : voice < pool.size)
    (hbound : voice < 2 ^ 64) (message : Text) :
    (pool.unicast session voice message).Makes
      [⟨session.interpreter, .list (voiceList pool.receiver voice message)⟩] (.ok ()) := by
  have hmakes := @unicast_makes session pool h voice message
  rwa [if_pos hvoice, if_pos hvoice, messageDelivery_voiceList h hbound] at hmakes

theorem broadcastRow_eq (h : pool.receiver.IsName) (hsize : pool.size < 2 ^ 64) (message : Text) :
    pool.broadcastRow session message =
      (List.range pool.size).map fun voice =>
        ⟨session.interpreter, .list (voiceList pool.receiver voice message)⟩ := by
  rw [broadcastRow, ← List.range_eq_range']
  apply List.map_congr_left
  intro voice hvoice
  exact messageDelivery_voiceList h ((List.mem_range.1 hvoice).trans hsize) message

/-- To a receiver that is not a name, the message to the first voice is already malformed. -/
theorem broadcast_makes_unnamed (h : ¬ pool.receiver.IsName) (hsize : 1 ≤ pool.size)
    (message : Text) :
    ∃ line fault,
      (pool.broadcast session message).Makes [] (.error (.malformedCommand line fault)) := by
  obtain ⟨others, hothers⟩ := Nat.exists_eq_add_of_le' hsize
  obtain ⟨line, fault, hfirst⟩ := @send_makes_error session _ h (addressed 0 message)
  refine ⟨line, fault, ?_⟩
  rw [broadcast, hothers, Action.forNumbers]
  exact (hfirst.bind_error _).bind_error _

theorem unicast_makes_unnamed (h : ¬ pool.receiver.IsName) (hvoice : voice < pool.size)
    (message : Text) :
    ∃ line fault,
      (pool.unicast session voice message).Makes [] (.error (.malformedCommand line fault)) := by
  rw [unicast, if_pos hvoice]
  exact send_makes_error h _

theorem unicast_makes_outside (hvoice : pool.size ≤ voice) (message : Text) :
    (pool.unicast session voice message).Makes [] (.error (.voiceOutOfRange voice pool.size)) := by
  rw [unicast, if_neg (Nat.not_lt.2 hvoice)]
  exact Action.makes_throw _

/-! ## Messages in reachable states -/

/-- **What messages to voices deliver.** Take a pool after any row of events, and an engine without a
limit. If the receiver is a name, a broadcast to at most `2 ^ 24` voices delivers one list for each
voice to the interpreter, lowest voice first: the word `send`, the receiver, the number of the voice,
and the atoms of the message with the blanks at its end removed. A message to one of the voices
delivers the list of that voice. If the receiver is not a name, both find a malformed command and
deliver nothing; a voice that the pool does not have is rejected before that. The pool stays as it is.
-/
theorem messages_delivered {config : SynthConfig} (hmake : make receiver config = .ok pool)
    (opened : Bench) (events : List PoolEvent) (session : Session) (message : Text) :
    let reached := (PoolEvent.after (pool, opened) events).1
    let listFor := fun voice : Nat =>
      (⟨session.interpreter, .list (voiceList receiver voice message)⟩ : Delivery)
    (∀ bench : Bench, bench.engine.limit = none →
      (receiver.IsName → reached.size ≤ 2 ^ 24 →
        (reached.broadcast session message).EndsIn bench
            ((List.range reached.size).map listFor) (.ok ()) ∧
          ∀ voice < reached.size, (Single.ofNat voice).value = voice ∧
            (reached.unicast session voice message).EndsIn bench [listFor voice] (.ok ())) ∧
      (¬ receiver.IsName →
        (∃ line fault, (reached.broadcast session message).EndsIn bench []
            (.error (.malformedCommand line fault))) ∧
          ∀ voice < reached.size, ∃ line fault,
            (reached.unicast session voice message).EndsIn bench []
              (.error (.malformedCommand line fault))) ∧
      ∀ voice, reached.size ≤ voice →
        (reached.unicast session voice message).EndsIn bench []
          (.error (.voiceOutOfRange voice reached.size))) ∧
    (¬ message.all Text.isBlank = true →
      textAtoms (' ' :: message) = .symbol [] :: textAtoms message) ∧
    ∀ bench : Bench,
      (stateAfter ((PoolCall.broadcast message).run session) (reached, bench)).1 = reached ∧
        ∀ voice, (stateAfter ((PoolCall.unicast voice message).run session) (reached, bench)).1 =
          reached := by
  intro reached listFor
  obtain ⟨hvoices, rfl⟩ := make_eq_ok_iff.1 hmake
  obtain ⟨hcursor, hreceiver⟩ : reached.cursor < reached.size ∧ reached.receiver = receiver :=
    PoolEvent.after_sound (Nat.pos_of_ne_zero hvoices) events
  have hpos : 1 ≤ reached.size := Nat.succ_le_of_lt (Nat.zero_lt_of_lt hcursor)
  refine ⟨fun bench hlimit => ⟨?_, ?_, ?_⟩, textAtoms_space, fun bench => ⟨?_, fun voice => ?_⟩⟩
  · intro hname hsize
    rw [← hreceiver] at hname
    have hrow := @broadcastRow_eq session reached hname (by omega) message
    rw [hreceiver] at hrow
    refine ⟨hrow ▸ (broadcast_makes hname message).endsIn hlimit, fun voice hvoice => ⟨?_, ?_⟩⟩
    · exact Single.value_ofNat (hvoice.le.trans hsize)
    · have hmakes :=
        @unicast_makes_voiceList session reached voice hname hvoice (by omega) message
      rw [hreceiver] at hmakes
      exact hmakes.endsIn hlimit
  · intro hname
    rw [← hreceiver] at hname
    refine ⟨?_, fun voice hvoice => ?_⟩
    · obtain ⟨line, fault, hmakes⟩ := @broadcast_makes_unnamed session reached hname hpos message
      exact ⟨line, fault, hmakes.endsIn hlimit⟩
    · obtain ⟨line, fault, hmakes⟩ :=
        @unicast_makes_unnamed session reached voice hname hvoice message
      exact ⟨line, fault, hmakes.endsIn hlimit⟩
  · intro voice hvoice
    exact (unicast_makes_outside hvoice message).endsIn hlimit
  · rw [PoolCall.run, stateAfter_bind_pure, ActionOn.stateAfter_onBench]
  · rw [PoolCall.run, stateAfter_bind_pure, ActionOn.stateAfter_onBench]

/-- The second voice is sent a message with a space in front and blanks at its end. -/
theorem messages_delivered_spaced :
    let session : Session := ⟨1001, "1001-interpreter".toList⟩
    let receiver : Text := "1001-channels".toList
    let pool : VoicePool := ⟨receiver, "subtractive_synth".toList, "stereo".toList, 2, 0⟩
    make receiver { voices := 2 } = .ok pool ∧
      (pool.unicast session 1 " gain, 0.5 \u3000".toList).EndsIn Bench.fresh
        [⟨session.interpreter,
          .list [.symbol "send".toList, .symbol receiver, .number (Single.ofNat 1), .symbol [],
            .symbol "gain,".toList, .number (Single.ofRatio 1 2)]⟩] (.ok ()) := by
  intro session receiver pool
  have hmake : make receiver { voices := 2 } = .ok pool := rfl
  have hname : receiver.IsName := by decide +kernel
  obtain ⟨hdelivered, -⟩ :=
    messages_delivered hmake Bench.fresh [] session " gain, 0.5 \u3000".toList
  obtain ⟨hnamed, -⟩ := hdelivered Bench.fresh rfl
  obtain ⟨-, hvoices⟩ := hnamed hname (by decide)
  have hatoms : voiceList receiver 1 " gain, 0.5 \u3000".toList =
      [.symbol "send".toList, .symbol receiver, .number (Single.ofNat 1), .symbol [],
        .symbol "gain,".toList, .number (Single.ofRatio 1 2)] := by
    decide +kernel
  have hvoice := (hvoices 1 (by decide)).2
  dsimp only at hvoice
  rw [hatoms] at hvoice
  exact ⟨hmake, hvoice⟩

end VoicePool

end DynamicPatching

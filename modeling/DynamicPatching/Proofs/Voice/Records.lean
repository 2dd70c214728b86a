import DynamicPatching.Proofs.Voice.Slots

/-!
# Rows of a pool and what its slots have been sent

A load makes the record of its own slot fresh and a deletion makes it absent; a message changes the
record of the one setting of its slot whose tokens it begins with, and every other delivery changes
no record (`SlotSetting.step_load`, `step_delete`, `step_addressed`). In a row that goes to each
voice once, only the delivery to the slot itself counts (`foldl_eq_of_nodup`).
-/

namespace DynamicPatching

/-! ## Rows in which one item counts -/

theorem foldl_eq_self {σ ι : Type} {step : σ → ι → σ} {items : List ι}
    (h : ∀ item ∈ items, ∀ state, step state item = state) (state : σ) :
    items.foldl step state = state := by
  induction items with
  | nil => rfl
  | cons first rest ih =>
      rw [List.foldl_cons, h first List.mem_cons_self]
      exact ih fun item hitem => h item (List.mem_cons_of_mem first hitem)

/-- If only one of distinct items changes the state, the row changes it as this item does. -/
theorem foldl_eq_of_nodup {σ ι : Type} [DecidableEq ι] {step : σ → ι → σ} {item : ι} {items : List ι}
    (hnodup : items.Nodup) (h : ∀ other ∈ items, other ≠ item → ∀ state, step state other = state)
    (state : σ) : items.foldl step state = if item ∈ items then step state item else state := by
  induction items generalizing state with
  | nil => rfl
  | cons first rest ih =>
      obtain ⟨hfirst, hrest⟩ := List.nodup_cons.1 hnodup
      have hothers := fun other hother => h other (List.mem_cons_of_mem first hother)
      rw [List.foldl_cons, ih hrest hothers]
      by_cases heq : first = item
      · subst heq
        rw [if_neg hfirst, if_pos List.mem_cons_self]
      · rw [h first List.mem_cons_self heq]
        simp [Ne.symm heq]

namespace VoicePool

variable {session : Session} {pool : VoicePool} {voice : Nat}

/-! ## Atoms of messages -/

/-- The atoms of a message behind the number of the voice. -/
def messageTokens (message : Text) : List Atom :=
  match Text.trimEnd (' ' :: message) with
  | [] => []
  | _ :: rest => Atom.listOfText rest

/-- The atoms that are delivered when a message is sent to a voice. -/
def messageAtoms (pool : VoicePool) (voice : Nat) (message : Text) : List Atom :=
  .symbol "send".toList :: .symbol pool.receiver :: .number (Single.ofNat voice) ::
    messageTokens message

/-- What is left of a message behind the number is trimmed together with it. -/
theorem optionalAtoms_addressed (hvoice : voice < 2 ^ 64) (message : Text) :
    Command.optionalAtoms (Text.trim (addressed voice message)) =
      .number (Single.ofNat voice) :: messageTokens message := by
  obtain ⟨hne, htrim⟩ := (Text.isWord_decimal voice).trimmed
  have hbegins : Text.trimEnd (' ' :: message) <+: ' ' :: message := List.rdropWhile_prefix _ _
  rw [addressed, Text.spaced_cons_cons, Text.spaced_singleton, Text.trim_append hne htrim,
    messageTokens]
  rcases List.prefix_cons_iff.1 hbegins with hnil | ⟨rest, hcons, -⟩
  · rw [hnil, List.append_nil, Command.optionalAtoms, if_neg hne, Atom.listOfText_decimal hvoice]
  · rw [hcons, Command.optionalAtoms, if_neg (by simp), Atom.listOfText,
      Text.pieces_append_space, List.map_append]
    exact congrArg (· ++ Atom.listOfText rest) (Atom.listOfText_decimal hvoice)

/-- The words that a message begins with are its first atoms. -/
theorem messageTokens_words {words : List Text} (h : ∀ word ∈ words, word.IsWord)
    (rest : List Text) :
    ∃ others, messageTokens (Text.spaced (words ++ rest)) = words.map Atom.ofToken ++ others := by
  by_cases hempty : words = []
  · exact ⟨_, by rw [hempty]; rfl⟩
  have hwords : ∀ word ∈ Text.decimal 0 :: words, word.IsWord :=
    List.forall_mem_cons.2 ⟨Text.isWord_decimal 0, h⟩
  have hmore : words ++ rest ≠ [] := fun hc => hempty (List.append_eq_nil_iff.1 hc).1
  -- the number of a voice in front of the message leaves its atoms as they are
  have haddressed : addressed 0 (Text.spaced (words ++ rest)) =
      Text.spaced (Text.decimal 0 :: words ++ rest) :=
    addressed_spaced hmore 0
  obtain ⟨others, hatoms⟩ :=
    Command.optionalAtoms_trim_words (List.cons_ne_nil _ _) hwords rest
  rw [← haddressed, optionalAtoms_addressed (by decide), List.map_cons, List.cons_append] at hatoms
  exact ⟨others, (List.cons.inj hatoms).2⟩

/-- A message to a voice is delivered to the interpreter as its atoms. -/
theorem messageDelivery_addressed (h : pool.receiver.IsName) (hvoice : voice < 2 ^ 64)
    (message : Text) :
    pool.messageDelivery session (addressed voice message) =
      ⟨session.interpreter, .list (pool.messageAtoms voice message)⟩ := by
  have hformed : (Command.send pool.receiver
      (Text.trim (addressed voice message))).IsWellFormed := h
  rw [messageDelivery, Session.deliveryOf, Command.listOfText_wireLine hformed, Command.layout,
    optionalAtoms_addressed hvoice]
  rfl

end VoicePool

namespace SlotSetting

variable {session : Session} {pool : VoicePool} {name message : Text} {voice other : Nat}
  {record : SlotRecord}

/-- The setting of a voice of a pool that plays in a session. -/
def ofVoice (session : Session) (receiver : Text) (voice : Nat) (name : Text) : SlotSetting :=
  ⟨session.interpreter, receiver, Single.ofNat voice, name⟩

/-! ## Single deliveries -/

/-- A load makes the record of its slot fresh. -/
theorem step_load (h : pool.receiver.IsName) (hvoice : voice ≤ 2 ^ 24) (hother : other ≤ 2 ^ 24) :
    (ofVoice session pool.receiver voice name).step record
        (pool.messageDelivery session (pool.loadDirective other)) =
      if other = voice then .fresh else record := by
  have hload := @SlotDirective.ofDelivery?_load session pool other h (by omega)
  rw [step, ofVoice, hload]
  simp only [Single.ofNat_inj hother hvoice]

/-- A deletion makes the record of its slot absent. -/
theorem step_delete (h : pool.receiver.IsName) (hvoice : voice ≤ 2 ^ 24) (hother : other ≤ 2 ^ 24) :
    (ofVoice session pool.receiver voice name).step record
        (pool.messageDelivery session (VoicePool.deleteDirective other)) =
      if other = voice then .absent else record := by
  have hdelete := @SlotDirective.ofDelivery?_delete session pool other h (by omega)
  rw [step, ofVoice, hdelete]
  simp only [Single.ofNat_inj hother hvoice]

/-- A message to a voice is about the setting of that voice whose tokens it begins with. -/
theorem step_addressed (h : pool.receiver.IsName) (hvoice : voice ≤ 2 ^ 24)
    (hother : other ≤ 2 ^ 24) :
    (ofVoice session pool.receiver voice name).step record
        (pool.messageDelivery session (VoicePool.addressed other message)) =
      if other = voice ∧ Atom.listOfText name <+: VoicePool.messageTokens message then
        record.update (pool.messageAtoms voice message)
      else record := by
  have hnone := @SlotDirective.ofDelivery?_addressed session pool other h (by omega) message
  have hbegins : (ofVoice session pool.receiver voice name).heading <+:
      pool.messageAtoms other message ↔
        other = voice ∧ Atom.listOfText name <+: VoicePool.messageTokens message := by
    simp only [heading, ofVoice, VoicePool.messageAtoms, List.cons_prefix_cons, true_and,
      Atom.number.injEq, Single.ofNat_inj hvoice hother, @eq_comm _ voice]
  rw [step]
  dsimp only [ofVoice] at hbegins ⊢
  rw [hnone, VoicePool.messageDelivery_addressed h (by omega), ofDelivery?]
  simp only [true_and, hbegins]
  by_cases heq : other = voice ∧ Atom.listOfText name <+: VoicePool.messageTokens message
  · rw [if_pos heq, if_pos heq, heq.1]
  · rw [if_neg heq, if_neg heq]

/-- A command that sends no message changes no record. -/
theorem step_command {setting : SlotSetting} {command : Command} (h : command.IsWellFormed)
    (hsend : command.keyword ≠ .send) :
    setting.step record (session.deliveryOf command) = record := by
  have hword : command.keyword.wireWord ≠ "send".toList := by
    intro hc
    exact hsend (Command.wireWord_inj hc)
  obtain ⟨rest, hlayout⟩ := List.head?_eq_some_iff.1 (Command.head?_layout command)
  have hdirective : SlotDirective.ofDelivery? setting.interpreter setting.receiver
      (session.deliveryOf command) = none := by
    rw [Session.deliveryOf, Command.listOfText_wireLine h, hlayout]
    rcases rest with _ | ⟨_ | _, others⟩
    · simp only [SlotDirective.ofDelivery?, SlotDirective.ofAtoms?, ite_self]
    · simp only [SlotDirective.ofDelivery?, SlotDirective.ofAtoms?, ite_self]
    · simp only [SlotDirective.ofDelivery?, SlotDirective.ofAtoms?, hword, false_and, if_false,
        ite_self]
  have hmessage : setting.ofDelivery? (session.deliveryOf command) = none := by
    rw [Session.deliveryOf, Command.listOfText_wireLine h, hlayout]
    simp only [ofDelivery?, heading, List.cons_prefix_cons, Atom.symbol.injEq, hword.symm, false_and,
      and_false, if_false]
  rw [step, hdirective]
  dsimp only
  rw [hmessage]

/-! ## Rows -/

/-- Loads make the records of their slots fresh. -/
theorem foldl_loads (h : pool.receiver.IsName) {first count : Nat} (hvoice : voice ≤ 2 ^ 24)
    (hcount : first + count ≤ 2 ^ 24) :
    (pool.loads session first count).foldl (ofVoice session pool.receiver voice name).step record =
      if first ≤ voice ∧ voice < first + count then .fresh else record := by
  have hstep : ∀ other ∈ List.range' first count, ∀ record,
      (ofVoice session pool.receiver voice name).step record
          (pool.messageDelivery session (pool.loadDirective other)) =
        if other = voice then .fresh else record := by
    intro other hother record
    have hlt := (List.mem_range'_1.1 hother).2
    exact step_load h hvoice (by omega)
  have hothers : ∀ other ∈ List.range' first count, other ≠ voice → ∀ record,
      (ofVoice session pool.receiver voice name).step record
        (pool.messageDelivery session (pool.loadDirective other)) = record := by
    intro other hother hne record
    rw [hstep other hother, if_neg hne]
  rw [VoicePool.loads, List.foldl_map, foldl_eq_of_nodup List.nodup_range' hothers]
  simp only [List.mem_range'_1]
  split
  · rw [hstep voice (List.mem_range'_1.2 ‹_›), if_pos rfl]
  · rfl

/-- Deletions from the top change no record of a slot below them. -/
theorem foldl_deletions (h : pool.receiver.IsName) {size count : Nat} (hvoice : voice < size - count)
    (hsize : size ≤ 2 ^ 24) :
    (pool.deletions session size count).foldl (ofVoice session pool.receiver voice name).step record =
      record := by
  rw [VoicePool.deletions, List.foldl_map]
  apply foldl_eq_self
  intro k hk record
  have hlt := List.mem_range.1 hk
  rw [step_delete h (by omega) (by omega), if_neg (by omega)]

/-- A message to all voices is the one to the slot's own voice. -/
theorem foldl_broadcastRow (h : pool.receiver.IsName) (hvoice : voice ≤ 2 ^ 24)
    (hsize : pool.size ≤ 2 ^ 24) :
    (pool.broadcastRow session message).foldl (ofVoice session pool.receiver voice name).step record =
      if voice < pool.size ∧ Atom.listOfText name <+: VoicePool.messageTokens message then
        record.update (pool.messageAtoms voice message)
      else record := by
  have hstep : ∀ other ∈ List.range' 0 pool.size, ∀ record,
      (ofVoice session pool.receiver voice name).step record
          (pool.messageDelivery session (VoicePool.addressed other message)) =
        if other = voice ∧ Atom.listOfText name <+: VoicePool.messageTokens message then
          record.update (pool.messageAtoms voice message)
        else record := by
    intro other hother record
    have hlt := (List.mem_range'_1.1 hother).2
    exact step_addressed h hvoice (by omega)
  -- the other voices' messages pass the record by, so the fold is its own voice's step
  have hothers : ∀ other ∈ List.range' 0 pool.size, other ≠ voice → ∀ record,
      (ofVoice session pool.receiver voice name).step record
        (pool.messageDelivery session (VoicePool.addressed other message)) = record := by
    intro other hother hne record
    rw [hstep other hother, if_neg fun hc => hne hc.1]
  rw [VoicePool.broadcastRow, List.foldl_map, foldl_eq_of_nodup List.nodup_range' hothers]
  by_cases hlt : voice < pool.size
  · have hmem : voice ∈ List.range' 0 pool.size := List.mem_range'_1.2 (by omega)
    rw [if_pos hmem, hstep voice hmem]
    simp only [true_and, hlt]
  · rw [if_neg fun hmem => hlt (by simpa using hmem), if_neg fun hc => hlt hc.1]

end SlotSetting

end DynamicPatching

import DynamicPatching.Voice.Call
import DynamicPatching.Voice.Slots
import DynamicPatching.Proofs.Command.Layout
import DynamicPatching.Proofs.Voice.Rows

/-!
# A pool and the slots of its engine

The size of a pool stands for the slots `0` to `size - 1` of the channel object behind its receiver.
A load is read as the addition of the next slot and a deletion as the removal of the last one; a
message to a voice begins with a number and is never read as a directive, whatever its text. So each
operation, as far as its row gets through, moves the slots exactly as it moves the size
(`PoolStep.perform_effect`), and the two agree along every run, with refusals at any delivery
(`PoolStep.slots_follow_size`).
-/

namespace DynamicPatching

/-! ## How deliveries are read -/

/-- Words in front of a free text are its first atoms. -/
theorem Command.optionalAtoms_trim_words {words : List Text} (hne : words ≠ [])
    (h : ∀ word ∈ words, word.IsWord) (rest : List Text) :
    ∃ others, optionalAtoms (Text.trim (Text.spaced (words ++ rest))) =
      words.map Atom.ofToken ++ others := by
  obtain ⟨htext, others, hpieces⟩ := Text.pieces_trim_words hne h rest
  refine ⟨others.map Atom.ofToken, ?_⟩
  rw [optionalAtoms, if_neg htext, Atom.listOfText, hpieces, List.map_append]

namespace SlotDirective

variable {session : Session} {pool : VoicePool} {voice : Nat}

/-- A message that begins with words is read by the atoms of these words. -/
theorem ofDelivery?_words (h : pool.receiver.IsName) {words : List Text} (hne : words ≠ [])
    (hwords : ∀ word ∈ words, word.IsWord) (rest : List Text) :
    ∃ others, ofDelivery? session.interpreter pool.receiver
        (pool.messageDelivery session (Text.spaced (words ++ rest))) =
      ofArguments? (words.map Atom.ofToken ++ others) := by
  obtain ⟨others, hatoms⟩ := Command.optionalAtoms_trim_words hne hwords rest
  have hformed : (Command.send pool.receiver
      (Text.trim (Text.spaced (words ++ rest)))).IsWellFormed := h
  refine ⟨others, ?_⟩
  -- the layout has the keyword and the receiver in front of the atoms of the message
  rw [VoicePool.messageDelivery, Session.deliveryOf, Command.listOfText_wireLine hformed,
    Command.layout, hatoms]
  simp [ofDelivery?, ofAtoms?]

/-- The load of a voice adds its slot. -/
theorem ofDelivery?_load (h : pool.receiver.IsName) (hvoice : voice < 2 ^ 64) :
    ofDelivery? session.interpreter pool.receiver
        (pool.messageDelivery session (pool.loadDirective voice)) =
      some (.load (Single.ofNat voice)) := by
  have hword : Text.IsName "init".toList := by decide
  have hdirective : pool.loadDirective voice = Text.spaced
      (["init".toList, Text.decimal voice] ++ [pool.channelLayout, pool.synthType]) := rfl
  obtain ⟨others, hread⟩ := ofDelivery?_words h (List.cons_ne_nil _ _)
    (List.forall_mem_cons.2
      ⟨hword.isWord, List.forall_mem_singleton.2 (Text.isWord_decimal voice)⟩)
    [pool.channelLayout, pool.synthType]
  rw [hdirective, hread, List.map_cons, List.map_singleton, Atom.ofToken_name hword,
    Atom.ofToken_decimal hvoice]
  rfl

/-- The deletion of a voice removes its slot. -/
theorem ofDelivery?_delete (h : pool.receiver.IsName) (hvoice : voice < 2 ^ 64) :
    ofDelivery? session.interpreter pool.receiver
        (pool.messageDelivery session (VoicePool.deleteDirective voice)) =
      some (.delete (Single.ofNat voice)) := by
  have hword : Text.IsName "delete".toList := by decide
  have hdirective : VoicePool.deleteDirective voice = Text.spaced
      (["delete".toList, Text.decimal voice] ++ []) := rfl
  obtain ⟨others, hread⟩ := ofDelivery?_words h (List.cons_ne_nil _ _)
    (List.forall_mem_cons.2
      ⟨hword.isWord, List.forall_mem_singleton.2 (Text.isWord_decimal voice)⟩) []
  rw [hdirective, hread, List.map_cons, List.map_singleton, Atom.ofToken_name hword,
    Atom.ofToken_decimal hvoice]
  rfl

/-- A message to a voice is no directive, whatever its text. -/
theorem ofDelivery?_addressed (h : pool.receiver.IsName) (hvoice : voice < 2 ^ 64)
    (message : Text) :
    ofDelivery? session.interpreter pool.receiver
      (pool.messageDelivery session (VoicePool.addressed voice message)) = none := by
  have hdirective : VoicePool.addressed voice message =
      Text.spaced ([Text.decimal voice] ++ [message]) := rfl
  obtain ⟨others, hread⟩ := ofDelivery?_words h (List.cons_ne_nil _ _)
    (List.forall_mem_singleton.2 (Text.isWord_decimal voice)) [message]
  -- the first atom is a number, so what follows it is never looked at
  rw [hdirective, hread, List.map_singleton, Atom.ofToken_decimal hvoice]
  rfl

/-! ## Orderly rows of directives -/

/-- A load adds a slot that is absent; a deletion removes the highest slot that is present. -/
def Fits (slots : List Single) : SlotDirective → Prop
  | .load slot => slot ∉ slots
  | .delete slot => slot ∈ slots ∧ ∀ other ∈ slots, other.value ≤ slot.value

/-- Each directive of the row fits the slots that the directives before it leave. -/
def Orderly : List Single → List SlotDirective → Prop
  | _, [] => True
  | slots, directive :: rest => directive.Fits slots ∧ Orderly (apply slots directive) rest

theorem orderly_append {slots : List Single} {row others : List SlotDirective}
    (h : Orderly slots row) (h' : Orderly (row.foldl apply slots) others) :
    Orderly slots (row ++ others) := by
  induction row generalizing slots with
  | nil => exact h'
  | cons directive rest ih =>
      obtain ⟨hfits, hrest⟩ := h
      exact ⟨hfits, ih hrest h'⟩

/-- The slots of the voices below `size`. -/
def slotsBelow (size : Nat) : List Single := (List.range size).map Single.ofNat

theorem slotsBelow_succ (size : Nat) :
    slotsBelow (size + 1) = slotsBelow size ++ [Single.ofNat size] := by
  rw [slotsBelow, List.range_succ, List.map_append]
  rfl

/-- Up to `2 ^ 24` the slot above the top is absent. -/
theorem fits_load_top {size : Nat} (h : size ≤ 2 ^ 24) :
    Fits (slotsBelow size) (.load (Single.ofNat size)) := by
  intro hmem
  obtain ⟨voice, hvoice, heq⟩ := List.mem_map.1 hmem
  have hlt := List.mem_range.1 hvoice
  -- two voices share a slot only where their numbers are rounded
  rw [Single.ofNat_inj (hlt.le.trans h) h] at heq
  omega

/-- Up to `2 ^ 24` the topmost slot is the highest. -/
theorem fits_delete_top {top : Nat} (h : top ≤ 2 ^ 24) :
    Fits (slotsBelow (top + 1)) (.delete (Single.ofNat top)) := by
  constructor
  · rw [slotsBelow_succ]
    exact List.mem_append_right _ List.mem_cons_self
  · intro other hother
    obtain ⟨voice, hvoice, rfl⟩ := List.mem_map.1 hother
    have hle : voice ≤ top := Nat.le_of_lt_succ (List.mem_range.1 hvoice)
    rw [Single.value_ofNat (hle.trans h), Single.value_ofNat h]
    exact_mod_cast hle

theorem apply_load_top (size : Nat) :
    apply (slotsBelow size) (.load (Single.ofNat size)) = slotsBelow (size + 1) :=
  (slotsBelow_succ size).symm

/-- Removing the topmost slot leaves the slots below it. -/
theorem apply_delete_top {top : Nat} (h : top ≤ 2 ^ 24) :
    apply (slotsBelow (top + 1)) (.delete (Single.ofNat top)) = slotsBelow top := by
  have hkept : (slotsBelow top).filter (fun other => decide (other ≠ Single.ofNat top)) =
      slotsBelow top := by
    rw [List.filter_eq_self]
    intro other hother
    apply decide_eq_true
    rintro rfl
    exact fits_load_top h hother
  rw [slotsBelow_succ, apply, List.filter_append, hkept]
  simp

/-- The loads of `count` voices above the top. -/
def loadsFrom (size count : Nat) : List SlotDirective :=
  (List.range' size count).map fun voice => .load (Single.ofNat voice)

/-- The deletions of `count` voices from the top. -/
def deletionsFrom (size count : Nat) : List SlotDirective :=
  (List.range count).map fun k => .delete (Single.ofNat (size - 1 - k))

/-- Loads above the top are orderly and leave the slots of the larger size. -/
theorem orderly_loadsFrom {size count : Nat} (h : size + count ≤ 2 ^ 24) :
    Orderly (slotsBelow size) (loadsFrom size count) ∧
      (loadsFrom size count).foldl apply (slotsBelow size) = slotsBelow (size + count) := by
  -- the first load makes the size of the induction hypothesis, so the size is general
  induction count generalizing size with
  | zero => exact ⟨trivial, rfl⟩
  | succ count ih =>
      obtain ⟨horderly, hslots⟩ := @ih (size + 1) (by omega)
      have hrow : loadsFrom size (count + 1) =
          .load (Single.ofNat size) :: loadsFrom (size + 1) count := by
        rw [loadsFrom, List.range'_succ, List.map_cons]
        rfl
      rw [hrow, List.foldl_cons, apply_load_top, Nat.add_comm count, ← Nat.add_assoc]
      refine ⟨⟨fits_load_top (by omega), ?_⟩, hslots⟩
      rw [apply_load_top]
      exact horderly

/-- Deletions from the top are orderly and leave the slots of the smaller size. -/
theorem orderly_deletionsFrom {size count : Nat} (hcount : count ≤ size) (h : size ≤ 2 ^ 24) :
    Orderly (slotsBelow size) (deletionsFrom size count) ∧
      (deletionsFrom size count).foldl apply (slotsBelow size) = slotsBelow (size - count) := by
  induction count generalizing size with
  | zero => exact ⟨trivial, rfl⟩
  | succ count ih =>
      cases size with
      | zero => exact absurd hcount (Nat.not_succ_le_zero count)
      | succ top =>
          have htop : top ≤ 2 ^ 24 := Nat.le_of_succ_le h
          obtain ⟨horderly, hslots⟩ := @ih top (Nat.le_of_succ_le_succ hcount) htop
          have hrow : deletionsFrom (top + 1) (count + 1) =
              .delete (Single.ofNat top) :: deletionsFrom top count :=
            VoicePool.map_range_descending (fun voice => SlotDirective.delete (Single.ofNat voice)) top
              count
          rw [hrow, List.foldl_cons, apply_delete_top htop, Nat.add_sub_add_right]
          refine ⟨⟨fits_delete_top htop, ?_⟩, hslots⟩
          rw [apply_delete_top htop]
          exact horderly

/-! ## The directives of rows -/

/-- The directives in a row of deliveries, in order. -/
def ofRow (interpreter receiver : Text) (row : List Delivery) : List SlotDirective :=
  row.filterMap (ofDelivery? interpreter receiver)

theorem ofRow_loads (h : pool.receiver.IsName) {first count : Nat} (hcount : first + count ≤ 2 ^ 24) :
    ofRow session.interpreter pool.receiver (pool.loads session first count) =
      loadsFrom first count := by
  rw [ofRow, VoicePool.loads, List.filterMap_map, loadsFrom, ← List.filterMap_eq_map]
  apply List.filterMap_congr
  intro voice hvoice
  have hlt := (List.mem_range'_1.1 hvoice).2
  exact ofDelivery?_load h (by omega)

theorem ofRow_deletions (h : pool.receiver.IsName) {size count : Nat} (hsize : size ≤ 2 ^ 24) :
    ofRow session.interpreter pool.receiver (pool.deletions session size count) =
      deletionsFrom size count := by
  rw [ofRow, VoicePool.deletions, List.filterMap_map, deletionsFrom, ← List.filterMap_eq_map]
  apply List.filterMap_congr
  intro k _
  exact ofDelivery?_delete h (by omega)

/-- How a row of directives moves the size of the pool that makes it. -/
inductive Moves : List SlotDirective → Nat → Nat → Prop where
  | stay (size : Nat) : Moves [] size size
  | grow (size count : Nat) : Moves (loadsFrom size count) size (size + count)
  | shrink {size count : Nat} : count ≤ size → Moves (deletionsFrom size count) size (size - count)

/-- A row that moves the size is orderly and moves the slots in the same way. -/
theorem Moves.orderly {row : List SlotDirective} {size size' : Nat} (h : Moves row size size')
    (hsize : size ≤ 2 ^ 24) (hsize' : size' ≤ 2 ^ 24) :
    Orderly (slotsBelow size) row ∧ row.foldl apply (slotsBelow size) = slotsBelow size' := by
  cases h with
  | stay => exact ⟨trivial, rfl⟩
  | grow => exact orderly_loadsFrom hsize'
  | shrink hcount => exact orderly_deletionsFrom hcount hsize

end SlotDirective

/-! ## Runs -/

namespace PoolStep

variable {session : Session} {pool : VoicePool}

open SlotDirective

/-- A message changes no pool, and none of its deliveries is a directive. -/
theorem perform_message {step : PoolStep} (hstep : step.IsMessage) (h : pool.receiver.IsName)
    (hsize : pool.size ≤ 2 ^ 24) (bench : Bench) :
    (step.perform session (pool, bench)).1 = pool ∧
      ∃ sent, (step.perform session (pool, bench)).2.engine.accepted =
          bench.engine.accepted ++ sent ∧
        ∀ delivery ∈ sent,
          ofDelivery? session.interpreter pool.receiver delivery = none := by
  cases step with
  | allocate => exact hstep.elim
  | resize target => exact hstep.elim
  | failAfter deliveries => exact hstep.elim
  | recover => exact hstep.elim
  | broadcast message =>
      have hrow := ActionOn.makes_onBench (fun pool => VoicePool.broadcast pool session message)
        (VoicePool.broadcast_makes h message)
      obtain ⟨k, -, hpool, haccepted⟩ := hrow.accepted_eq bench
      refine ⟨hpool, _, haccepted, ?_⟩
      intro delivery hdelivery
      obtain ⟨voice, hvoice, rfl⟩ := List.mem_map.1 (List.mem_of_mem_take hdelivery)
      have hlt := (List.mem_range'_1.1 hvoice).2
      exact ofDelivery?_addressed h (by omega) message
  | unicast voice message =>
      have hrow := ActionOn.makes_onBench
        (fun pool => VoicePool.unicast pool session voice message)
        (VoicePool.unicast_makes h voice message)
      obtain ⟨k, -, hpool, haccepted⟩ := hrow.accepted_eq bench
      refine ⟨hpool, _, haccepted, ?_⟩
      intro delivery hdelivery
      -- nothing is sent to a voice that the pool does not have
      have hmem := List.mem_of_mem_take hdelivery
      split at hmem
      · obtain rfl := List.mem_singleton.1 hmem
        exact ofDelivery?_addressed h (by omega) message
      · cases hmem

/-- Every step moves the size of the pool by the directives that its deliveries hold. -/
theorem perform_effect (step : PoolStep) (h : pool.receiver.IsName) (hsize : pool.size ≤ 2 ^ 24)
    {bench : Bench} (hsize' : (step.perform session (pool, bench)).1.size ≤ 2 ^ 24) :
    (step.perform session (pool, bench)).1.receiver = pool.receiver ∧
      ∃ sent, (step.perform session (pool, bench)).2.engine.accepted =
          bench.engine.accepted ++ sent ∧
        Moves (ofRow session.interpreter pool.receiver sent) pool.size
          (step.perform session (pool, bench)).1.size := by
  by_cases hstep : step.IsMessage
  · -- the row of a message holds no directive, and the pool is as before
    obtain ⟨hpool, sent, haccepted, hnone⟩ := perform_message hstep h hsize bench
    have hrow : ofRow session.interpreter pool.receiver sent = [] :=
      List.filterMap_eq_nil_iff.2 hnone
    rw [hpool]
    refine ⟨rfl, sent, haccepted, ?_⟩
    rw [hrow]
    exact Moves.stay pool.size
  cases step with
  | broadcast message => exact absurd trivial hstep
  | unicast voice message => exact absurd trivial hstep
  | allocate =>
      obtain ⟨k, -, hpool, haccepted⟩ :=
        (@VoicePool.allocate_makes pool).accepted_eq bench
      rw [perform, hpool]
      refine ⟨rfl, _, haccepted, ?_⟩
      rw [List.take_nil]
      exact Moves.stay pool.size
  | failAfter deliveries => exact ⟨rfl, [], (List.append_nil _).symm, Moves.stay pool.size⟩
  | recover => exact ⟨rfl, [], (List.append_nil _).symm, Moves.stay pool.size⟩
  | resize target =>
      by_cases htarget : target = 0
      · subst htarget
        exact ⟨rfl, [], (List.append_nil _).symm, Moves.stay pool.size⟩
      · obtain ⟨k, hk, hpool, haccepted⟩ :=
          (@VoicePool.resize_makes session pool h target htarget).accepted_eq bench
        rw [perform, hpool] at hsize' ⊢
        -- `k` deliveries got through: the interrupted row is the whole row of a nearer target
        by_cases hle : target ≤ pool.size
        · rw [VoicePool.resizeRow, if_pos hle] at hk haccepted
          rw [VoicePool.length_deletions] at hk
          rw [VoicePool.take_deletions hk] at haccepted
          rw [VoicePool.resized, if_pos hle]
          refine ⟨rfl, _, haccepted, ?_⟩
          rw [ofRow_deletions h hsize]
          exact Moves.shrink (by omega)
        · rw [VoicePool.resizeRow, if_neg hle] at hk haccepted
          rw [VoicePool.length_loads] at hk
          rw [VoicePool.take_loads hk] at haccepted
          rw [VoicePool.resized, if_neg hle] at hsize' ⊢
          refine ⟨rfl, _, haccepted, ?_⟩
          rw [ofRow_loads h hsize']
          exact Moves.grow pool.size k

/-- The pool belongs to the receiver, and the deliveries since `start` are an orderly row that
leaves the slots of its voices. -/
structure Follows (session : Session) (receiver : Text) (start : List Delivery)
    (state : VoicePool × Bench) : Prop where
  receiver_eq : state.1.receiver = receiver
  slots : ∃ deliveries, state.2.engine.accepted = start ++ deliveries ∧
    replay session.interpreter receiver [] deliveries = slotsBelow state.1.size ∧
    Orderly [] (ofRow session.interpreter receiver deliveries)

variable {receiver : Text} {start : List Delivery}

/-- Deliveries that move the size keep the slots in step with it. -/
theorem Follows.append {state state' : VoicePool × Bench} {sent : List Delivery}
    (h : Follows session receiver start state) (hreceiver : state'.1.receiver = receiver)
    (hsize : state.1.size ≤ 2 ^ 24) (hsize' : state'.1.size ≤ 2 ^ 24)
    (haccepted : state'.2.engine.accepted = state.2.engine.accepted ++ sent)
    (hmoves : Moves (ofRow session.interpreter receiver sent) state.1.size state'.1.size) :
    Follows session receiver start state' := by
  obtain ⟨deliveries, hdeliveries, hreplay, horderly⟩ := h.slots
  obtain ⟨hsent, hslots⟩ := hmoves.orderly hsize hsize'
  have hrow : ofRow session.interpreter receiver (deliveries ++ sent) =
      ofRow session.interpreter receiver deliveries ++ ofRow session.interpreter receiver sent :=
    List.filterMap_append
  change (ofRow session.interpreter receiver deliveries).foldl apply [] = _ at hreplay
  -- the new directives are replayed on the slots that the earlier ones leave
  refine ⟨hreceiver, deliveries ++ sent, ?_, ?_, ?_⟩
  · rw [haccepted, hdeliveries, List.append_assoc]
  · change (ofRow session.interpreter receiver (deliveries ++ sent)).foldl apply [] = _
    rw [hrow, List.foldl_append, hreplay, hslots]
  · rw [hrow]
    apply orderly_append horderly
    rw [hreplay]
    exact hsent

/-- One step keeps the slots in step with the size. -/
theorem Follows.perform {state : VoicePool × Bench} (h : Follows session receiver start state)
    (hname : receiver.IsName) (step : PoolStep) (hsize : state.1.size ≤ 2 ^ 24)
    (hsize' : (step.perform session state).1.size ≤ 2 ^ 24) :
    Follows session receiver start (step.perform session state) := by
  obtain ⟨pool, bench⟩ := state
  obtain rfl : pool.receiver = receiver := h.receiver_eq
  obtain ⟨hreceiver, sent, haccepted, hmoves⟩ := perform_effect step hname hsize hsize'
  exact h.append hreceiver hsize hsize' haccepted hmoves

/-- So does every run that stays within `2 ^ 24` voices. -/
theorem Follows.run {state : VoicePool × Bench} (h : Follows session receiver start state)
    (hname : receiver.IsName) {steps : List PoolStep}
    (hsize : ∀ taken, taken <+: steps → (PoolStep.run session taken state).1.size ≤ 2 ^ 24) :
    Follows session receiver start (PoolStep.run session steps state) := by
  -- the last step is taken off, since the bound is on the prefixes of the run
  induction steps using List.reverseRecOn with
  | nil => exact h
  | append_singleton earlier step ih =>
      have hearlier := ih fun taken htaken => hsize taken (htaken.trans (List.prefix_append _ _))
      have hbefore := hsize earlier (List.prefix_append _ _)
      have hafter := hsize (earlier ++ [step]) (List.prefix_refl _)
      have hrun : PoolStep.run session (earlier ++ [step]) state =
          step.perform session (PoolStep.run session earlier state) := by
        rw [PoolStep.run, List.foldl_append]
        rfl
      rw [hrun] at hafter ⊢
      exact hearlier.perform hname step hbefore hafter

/-- A pool whose voices were all loaded starts in step with its slots. -/
theorem follows_loadAll {bench loaded : Bench} (h : pool.receiver.IsName)
    (hload : pool.loadAll session bench = .ok () loaded) (hsize : pool.size ≤ 2 ^ 24) :
    Follows session pool.receiver bench.engine.accepted (pool, loaded) := by
  have hrow := @VoicePool.loadAll_makes session pool h
  have houtcome : outcomeOf (pool.loadAll session) bench = .ok () := by
    rw [outcomeOf, hload]
  have hengine : (stateAfter (pool.loadAll session) bench).engine = loaded.engine := by
    rw [stateAfter, hload]
  have haccepted : bench.engine.refusal? (pool.loads session 0 pool.size) = none := by
    rw [(hrow bench).outcome_eq] at houtcome
    -- a refused load would have been reported
    cases hrefusal : bench.engine.refusal? (pool.loads session 0 pool.size) with
    | none => rfl
    | some cause =>
        rw [hrefusal] at houtcome
        cases houtcome
  have hall : loaded.engine.accepted =
      bench.engine.accepted ++ pool.loads session 0 pool.size := by
    rw [← hengine, (hrow bench).engine_eq, Engine.acceptAll, Engine.refusal?_eq_none_iff.1 haccepted,
      List.take_length]
  -- loading all voices moves the size of an empty pool as growing it would
  have hempty : Follows session pool.receiver bench.engine.accepted ({ pool with size := 0 }, bench) :=
    ⟨rfl, [], (List.append_nil _).symm, rfl, trivial⟩
  refine hempty.append rfl (Nat.zero_le _) hsize hall ?_
  rw [ofRow_loads h (by omega)]
  have hmoves := Moves.grow 0 pool.size
  rwa [Nat.zero_add] at hmoves

/-- **The slots follow the size.** Take a pool for a receiver that is a name, load its voices, and
make any row of operations, with the limit of the engine changed at will between them, while the
pool stays within `2 ^ 24` voices. Whether or not the last operation succeeded, replaying what was
delivered since the loading began gives the slots below the size of the pool; every directive added
an absent slot or removed the highest one; and a message to voices adds no directive. -/
theorem slots_follow_size {receiver : Text} {config : SynthConfig} {pool : VoicePool}
    {session : Session} {bench loaded : Bench} {steps : List PoolStep} (hname : receiver.IsName)
    (hmake : VoicePool.make receiver config = .ok pool)
    (hload : pool.loadAll session bench = .ok () loaded)
    (hsize : ∀ taken, taken <+: steps →
      (PoolStep.run session taken (pool, loaded)).1.size ≤ 2 ^ 24) :
    let reached := PoolStep.run session steps (pool, loaded)
    (∃ deliveries, reached.2.engine.accepted = bench.engine.accepted ++ deliveries ∧
      replay session.interpreter receiver [] deliveries =
        (List.range reached.1.size).map Single.ofNat ∧
      Orderly [] (deliveries.filterMap (ofDelivery? session.interpreter receiver))) ∧
    ∀ step : PoolStep, step.IsMessage →
      ∃ sent, (step.perform session reached).2.engine.accepted =
          reached.2.engine.accepted ++ sent ∧
        ∀ delivery ∈ sent, ofDelivery? session.interpreter receiver delivery = none := by
  intro reached
  obtain rfl : pool.receiver = receiver := by
    rw [VoicePool.make] at hmake
    split at hmake
    · cases hmake
    · obtain rfl := Except.ok.inj hmake
      rfl
  have hstart := follows_loadAll hname hload (hsize [] List.nil_prefix)
  have hreached : Follows session pool.receiver bench.engine.accepted reached :=
    hstart.run hname hsize
  refine ⟨hreached.slots, ?_⟩
  intro step hstep
  have hreceiver := hreached.receiver_eq
  have hbound : reached.1.size ≤ 2 ^ 24 := hsize steps (List.prefix_refl _)
  rw [← hreceiver] at hname ⊢
  exact (perform_message hstep hname hbound reached.2).2

/-- Two voices get a message that looks like a directive, and a resize to five is interrupted behind
its first load. -/
theorem slots_follow_size_interrupted :
    let session : Session := ⟨1001, "1001-interpreter".toList⟩
    let config : SynthConfig := { voices := 2 }
    let pool : VoicePool :=
      ⟨"1001-channels".toList, config.synthType, config.channelLayout, config.voices, 0⟩
    let loaded := stateAfter (pool.loadAll session) Bench.fresh
    let steps : List PoolStep := [.broadcast "init 7".toList, .failAfter 1, .resize 5]
    let reached := PoolStep.run session steps (pool, loaded)
    reached.1.size = 3 ∧
      ∃ deliveries, reached.2.engine.accepted = [] ++ deliveries ∧
        replay session.interpreter pool.receiver [] deliveries =
          (List.range 3).map Single.ofNat := by
  intro session config pool loaded steps reached
  have hname : pool.receiver.IsName := by decide +kernel
  have hload : pool.loadAll session Bench.fresh = .ok () loaded := rfl
  have hsize : ∀ taken, taken <+: steps →
      (PoolStep.run session taken (pool, loaded)).1.size ≤ 2 ^ 24 := by
    intro taken htaken
    have hall : ∀ taken ∈ steps.inits,
        (PoolStep.run session taken (pool, loaded)).1.size ≤ 2 ^ 24 := by decide +kernel
    exact hall taken ((List.mem_inits _ _).2 htaken)
  have hthree : reached.1.size = 3 := by decide +kernel
  have hmake : VoicePool.make pool.receiver config = .ok pool := rfl
  obtain ⟨⟨deliveries, haccepted, hslots, -⟩, -⟩ := slots_follow_size hname hmake hload hsize
  refine ⟨hthree, deliveries, haccepted, ?_⟩
  rw [← hthree]
  exact hslots

end PoolStep

end DynamicPatching

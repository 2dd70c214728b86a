import DynamicPatching.Session.Basic
import DynamicPatching.Proofs.Atom.ReadBack
import DynamicPatching.Proofs.Engine.Delivering

/-!
# Direct messages

A message to a receiver is its text cut at the first space: the part in front is the selector, taken as
it is written, and the atoms of the part behind are the arguments (`Atom.listOfText_eq_cons`). The
selector must denote no number, and that alone decides whether the text is a message. Reading the text
looks at the selector twice, once as the part before the first space and once as the first atom; both
see the same token, so a text that passes the first look is never given up at the second. What is
delivered has a wire text that reads as the message does, even where the two differ, because numbers
are written anew (`Action.sendMessage_exact`).
-/

namespace DynamicPatching

/-! ## Selector and arguments -/

namespace Atom

/-- The atoms of the part of a text behind its first space; none if there is no space. -/
def argumentsOf (text : Text) : List Atom :=
  if ' ' ∈ text then listOfText (Text.afterSpace text) else []

/-- The first atom of a text is that of the part before the first space. -/
theorem listOfText_eq_cons (text : Text) :
    listOfText text = ofToken (Text.beforeSpace text) :: argumentsOf text := by
  rw [listOfText, Text.pieces_eq_cons, List.map_cons, argumentsOf]
  split
  case isTrue => rfl
  case isFalse => rfl

theorem isReadable_of_mem_argumentsOf {text : Text} {atom : Atom} (h : atom ∈ argumentsOf text) :
    atom.IsReadable := by
  have hmem : atom ∈ listOfText text := by
    rw [listOfText_eq_cons]
    exact List.mem_cons_of_mem _ h
  exact isReadable_of_mem_listOfText hmem

end Atom

/-- A message reads back as its selector, taken as a token, and its arguments. -/
theorem Payload.listOfText_text_message {selector : Text} {arguments : List Atom}
    (hselector : ' ' ∉ selector) (harguments : ∀ atom ∈ arguments, atom.IsReadable) :
    Atom.listOfText (Payload.message selector arguments).text =
      Atom.ofToken selector :: arguments := by
  have hread : Atom.listOfText selector = [Atom.ofToken selector] := Atom.listOfText_token hselector
  -- a message without arguments is written as its selector alone, without a space behind it
  cases arguments with
  | nil => exact hread
  | cons first rest =>
      have hreadBack : Atom.listOfText (Atom.textOfList (first :: rest)) = first :: rest :=
        Atom.listOfText_textOfList_of_isReadable (List.cons_ne_nil first rest) harguments
      change Atom.listOfText (Text.spaced [selector, Atom.textOfList (first :: rest)]) = _
      rw [Atom.listOfText_spaced (List.cons_ne_nil _ _), List.flatMap_cons, hread,
        List.flatMap_singleton, hreadBack]
      rfl

/-! ## Sending -/

namespace Action

variable {receiver message : Text}

/-- The delivery of a message text to a receiver. -/
def messageDelivery (receiver message : Text) : Delivery :=
  ⟨receiver, .message (Text.beforeSpace message) (Atom.argumentsOf message)⟩

/-- A text whose first part denotes a number is no message. -/
theorem sendMessage_makes_error (h : Text.isNumeric (Text.beforeSpace message) = true) :
    (sendMessage receiver message).Makes [] (.error (.malformedMessage message)) := by
  have hread : (Atom.messageOfText message).outcome = .error (.malformedMessage message) := by
    rw [Atom.messageOfText, if_pos h, Checked.outcome_fail]
  have hfirst := makes_ofChecked (Atom.messageOfText message)
  rw [hread] at hfirst
  exact hfirst.bind_error _

/-- Any other text is delivered as a selector and arguments: its first atom is a symbol. -/
theorem sendMessage_makes (h : Text.isNumeric (Text.beforeSpace message) = false) :
    (sendMessage receiver message).Makes [messageDelivery receiver message] (.ok ()) := by
  have hread : (Atom.messageOfText message).outcome =
      .ok (.symbol (Text.beforeSpace message) :: Atom.argumentsOf message) := by
    rw [Atom.messageOfText, if_neg (by simp [h]), Atom.listOfText_eq_cons,
      Atom.ofToken_of_not_isNumeric h]
  have hfirst := makes_ofChecked (Atom.messageOfText message)
  rw [hread] at hfirst
  exact hfirst.bind (makes_deliver receiver _)

/-- What ends well or in a refusal does not end in a malformed message. -/
theorem endingAfter_ne_malformed (refusal : Option DeliveryError) (text : Text) :
    endingAfter refusal (.ok ()) ≠ .error (.malformedMessage text) := by
  cases refusal <;> nofun

/-- A text is malformed exactly when its first part denotes a number, and the error carries the text.
-/
theorem sendMessage_eq_malformed_iff {bench : Bench} {text : Text} :
    outcomeOf (sendMessage receiver message) bench = .error (.malformedMessage text) ↔
      Text.isNumeric (Text.beforeSpace message) = true ∧ text = message := by
  cases hnumeric : Text.isNumeric (Text.beforeSpace message) with
  | true =>
      obtain ⟨houtcome, -⟩ := (@sendMessage_makes_error receiver message hnumeric bench).of_nil
      rw [houtcome]
      simp [eq_comm]
  | false =>
      rw [(@sendMessage_makes receiver message hnumeric bench).outcome_eq]
      simp [endingAfter_ne_malformed]

/-- **Direct messages.** A text is malformed as a message exactly when the part before its first space
denotes a number; then the error carries the text, and nothing is delivered. Every other text is
delivered to the receiver as one message, if the engine accepts it: the selector is that part as it is
written, and may be empty, and the arguments are the atoms of the part behind the space, if there is
one. An engine whose limit is used up refuses the message and stays as it is. The wire text of the
message reads as the same atoms as the text it was made from. -/
theorem sendMessage_exact (receiver message : Text) :
    let selector := Text.beforeSpace message
    let arguments := if ' ' ∈ message then Atom.listOfText (Text.afterSpace message) else []
    let delivery : Delivery := ⟨receiver, .message selector arguments⟩
    (∀ (bench : Bench) (text : Text),
      outcomeOf (sendMessage receiver message) bench = .error (.malformedMessage text) ↔
        Text.isNumeric selector = true ∧ text = message) ∧
    (∀ bench : Bench, Text.isNumeric selector = true →
      (stateAfter (sendMessage receiver message) bench).engine = bench.engine) ∧
    (∀ bench : Bench, Text.isNumeric selector = false → bench.engine.limit ≠ some 0 →
      outcomeOf (sendMessage receiver message) bench = .ok () ∧
        (stateAfter (sendMessage receiver message) bench).engine.accepted =
          bench.engine.accepted ++ [delivery]) ∧
    (∀ bench : Bench, Text.isNumeric selector = false → bench.engine.limit = some 0 →
      outcomeOf (sendMessage receiver message) bench = .error (.delivery ⟨receiver, .refused⟩) ∧
        (stateAfter (sendMessage receiver message) bench).engine = bench.engine) ∧
    Atom.listOfText delivery.text = Atom.listOfText message := by
  intro selector arguments delivery
  refine ⟨fun bench text => sendMessage_eq_malformed_iff, fun bench hnumeric => ?_,
    fun bench hsymbolic hlimit => ?_, fun bench hsymbolic hlimit => ?_, ?_⟩
  · exact (sendMessage_makes_error hnumeric bench).of_nil.2
  · exact (sendMessage_makes hsymbolic bench).of_accepting hlimit
  · exact (sendMessage_makes hsymbolic bench).of_used_up hlimit
  · rw [Atom.listOfText_eq_cons message]
    exact Payload.listOfText_text_message (Text.space_notMem_beforeSpace message)
      fun atom => Atom.isReadable_of_mem_argumentsOf

/-- A selector may be empty, and a number too large for one is a symbol among the arguments; the
number behind it is written anew on the wire. An engine that accepts nothing refuses the message. A
text that begins with a number is no message. -/
theorem sendMessage_exact_spaced :
    let message : Text := " 1e999 +2.50".toList
    let delivery : Delivery := ⟨"bar".toList, .message []
      [.symbol "1e999".toList, .number (Single.ofRatio 5 2)]⟩
    let exhausted : Bench := { Bench.fresh with engine := Engine.fresh.failAfter 0 }
    (stateAfter (sendMessage "bar".toList message) Bench.fresh).engine.accepted = [delivery] ∧
      delivery.text = " 1e999 2.5".toList ∧
      Atom.listOfText delivery.text = Atom.listOfText message ∧
      (stateAfter (sendMessage "bar".toList message) exhausted).engine = exhausted.engine ∧
      outcomeOf (sendMessage "bar".toList "5. bar".toList) Bench.fresh =
        .error (.malformedMessage "5. bar".toList) ∧
      (stateAfter (sendMessage "bar".toList "5. bar".toList) Bench.fresh).engine =
        Engine.fresh := by
  intro message delivery exhausted
  obtain ⟨-, -, hdelivered, hrefused, hread⟩ := sendMessage_exact "bar".toList message
  obtain ⟨hmalformed, hkept, -⟩ := sendMessage_exact "bar".toList "5. bar".toList
  have hsymbolic : Text.isNumeric (Text.beforeSpace message) = false := by decide
  have hnumeric : Text.isNumeric (Text.beforeSpace "5. bar".toList) = true := by decide
  -- the token behind the space overflows, so it is a symbol
  have harguments : (if ' ' ∈ message then Atom.listOfText (Text.afterSpace message) else []) =
      [.symbol "1e999".toList, .number (Single.ofRatio 5 2)] := by
    decide +kernel
  rw [harguments] at hdelivered hread
  refine ⟨(hdelivered Bench.fresh hsymbolic (by decide)).2, by decide +kernel, hread,
    (hrefused exhausted hsymbolic rfl).2, ?_, hkept Bench.fresh hnumeric⟩
  exact (hmalformed Bench.fresh _).2 ⟨hnumeric, rfl⟩

end Action

end DynamicPatching

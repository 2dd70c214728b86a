import DynamicPatching.Proofs.Engine.Delivering

/-!
# Actions under an armed limit

An action that fixes its row of deliveries before the first of them makes the same row whatever the
engine accepts. So a limit armed before the action only cuts the row short: the deliveries before
the limit are made, the next one is refused, and a limit that is not reached changes nothing
(`Truncates`). Whether an action is of this kind is read off its text (`Action.Sends`,
`ActionOn.Sends`), because every part of an action is either free of deliveries, a list sent to the
receiver, or a sequence of parts that are.
-/

namespace DynamicPatching

/-- The bench with the limit of its engine lifted. -/
def Bench.unlimited (bench : Bench) : Bench := { bench with engine := bench.engine.recover }

/-- The bench with a limit just armed. -/
def Bench.limitedTo (bench : Bench) (deliveries : Nat) : Bench :=
  { bench with engine := bench.engine.failAfter deliveries }

/-- Every delivery of the row is a list to the receiver. -/
def ListsTo (receiver : Text) (row : List Delivery) : Prop :=
  ∀ delivery ∈ row, ∃ atoms, delivery = ⟨receiver, .list atoms⟩

theorem listsTo_nil {receiver : Text} : ListsTo receiver [] := fun _ hnil => absurd hnil List.not_mem_nil

theorem ListsTo.append {receiver : Text} {row others : List Delivery} (h : ListsTo receiver row)
    (h' : ListsTo receiver others) : ListsTo receiver (row ++ others) :=
  List.forall_mem_append.2 ⟨h, h'⟩

/-! ## Free and limited runs -/

/-- From the free state the action delivers the row, all lists to the receiver. From the state with
a limit it delivers the row up to the limit and uses that much of it up. It ends as the free run
does if the whole row got through, and otherwise in a refusal on behalf of the receiver. -/
structure CutShort {ρ α : Type} (engineOf : ρ → Engine) (action : EStateM Error ρ α) (free : ρ)
    (limited : Nat → ρ) (receiver : Text) (row : List Delivery) : Prop where
  lists : ListsTo receiver row
  whole : (engineOf (stateAfter action free)).accepted = (engineOf free).accepted ++ row
  delivered : ∀ limit, (engineOf (stateAfter action (limited limit))).accepted =
    (engineOf free).accepted ++ row.take (min limit row.length)
  left : ∀ limit, (engineOf (stateAfter action (limited limit))).limit =
    some (limit - min limit row.length)
  same : ∀ limit, row.length ≤ limit → outcomeOf action (limited limit) = outcomeOf action free
  refused : ∀ limit, limit < row.length →
    ∃ cause : DeliveryError, outcomeOf action (limited limit) = .error (.delivery cause) ∧
      cause.receiver = receiver ∧ cause.fault.reason = "delivery refused".toList

/-- An action that makes its row whatever the limit is cut short by it. -/
theorem cutShort_of_delivers {ρ α : Type} {engineOf : ρ → Engine} {action : EStateM Error ρ α}
    {free : ρ} {limited : Nat → ρ} {receiver : Text} {row : List Delivery}
    {ending : Except Error α} (hlists : ListsTo receiver row)
    (hfree : Delivers engineOf action free row ending)
    (hlimited : ∀ limit, Delivers engineOf action (limited limit) row ending)
    (hlift : (engineOf free).limit = none)
    (harm : ∀ limit, (engineOf (limited limit)).limit = some limit ∧
      (engineOf (limited limit)).accepted = (engineOf free).accepted) :
    CutShort engineOf action free limited receiver row := by
  have hreceiver : ∀ delivery ∈ row, delivery.receiver = receiver := by
    intro delivery hdelivery
    obtain ⟨atoms, rfl⟩ := hlists delivery hdelivery
    rfl
  have hroomFree : (engineOf free).room row.length = row.length := by
    rw [Engine.room, hlift]
  have hroom : ∀ limit, (engineOf (limited limit)).room row.length = min limit row.length := by
    intro limit
    rw [Engine.room, (harm limit).1]
  have hending : outcomeOf action free = ending := by
    rw [hfree.outcome_eq, Engine.refusal?_eq_none_iff.2 hroomFree]
    rfl
  constructor
  · exact hlists
  · rw [hfree.engine_eq, Engine.acceptAll, hroomFree, List.take_length]
  · intro limit
    rw [(hlimited limit).engine_eq, Engine.acceptAll, hroom, (harm limit).2]
  · intro limit
    rw [(hlimited limit).engine_eq, Engine.acceptAll, hroom, (harm limit).1]
    rfl
  · intro limit hlimit
    have haccepted : (engineOf (limited limit)).refusal? row = none := by
      rw [Engine.refusal?_eq_none_iff, hroom, Nat.min_eq_right hlimit]
    rw [hending, (hlimited limit).outcome_eq, haccepted]
    rfl
  · intro limit hlimit
    refine ⟨⟨receiver, .refused⟩, ?_, rfl, rfl⟩
    rw [(hlimited limit).outcome_eq, Engine.refusal?_of_receiver hreceiver, hroom,
      Nat.min_eq_left (Nat.le_of_lt hlimit), if_pos hlimit]
    rfl

/-- What is cut short behind a step that neither delivers nor touches the limit is cut short with the
step in front. -/
theorem CutShort.of_eq {ρ α : Type} {engineOf : ρ → Engine} {action rest : EStateM Error ρ α}
    {free free' : ρ} {limited limited' : Nat → ρ} {receiver : Text} {row : List Delivery}
    (h : CutShort engineOf rest free' limited' receiver row) (hfree : action free = rest free')
    (hlimited : ∀ limit, action (limited limit) = rest (limited' limit))
    (haccepted : (engineOf free).accepted = (engineOf free').accepted) :
    CutShort engineOf action free limited receiver row := by
  constructor
  · exact h.lists
  · rw [stateAfter, hfree, haccepted]
    exact h.whole
  · intro limit
    rw [stateAfter, hlimited, haccepted]
    exact h.delivered limit
  · intro limit
    rw [stateAfter, hlimited]
    exact h.left limit
  · intro limit hlimit
    rw [outcomeOf, hlimited, outcomeOf, hfree]
    exact h.same limit hlimit
  · intro limit hlimit
    rw [outcomeOf, hlimited]
    exact h.refused limit hlimit

namespace Action

variable {α β : Type} {receiver : Text}

/-- From the bench, a limit only cuts the action's row of lists to the receiver short. -/
def Truncates (action : Action α) (bench : Bench) (receiver : Text) : Prop :=
  ∃ row, CutShort Bench.engine action bench.unlimited bench.limitedTo receiver row

/-! ## Actions that send lists -/

/-- The action makes some row of lists to the receiver, the same on every bench. -/
def Sends (receiver : Text) (action : Action α) : Prop :=
  ∃ row ending, ListsTo receiver row ∧ action.Makes row ending

theorem Sends.truncates {action : Action α} (h : Sends receiver action) (bench : Bench) :
    action.Truncates bench receiver := by
  obtain ⟨row, ending, hlists, hmakes⟩ := h
  exact ⟨row, cutShort_of_delivers hlists (hmakes _) (fun limit => hmakes _) rfl
    fun limit => ⟨rfl, rfl⟩⟩

theorem sends_pure (value : α) : Sends receiver (pure value) :=
  ⟨[], .ok value, listsTo_nil, makes_pure value⟩

theorem sends_throw (error : Error) : Sends receiver (throw error : Action α) :=
  ⟨[], .error error, listsTo_nil, makes_throw error⟩

theorem sends_note (contract : Contract) : Sends receiver (note contract) :=
  ⟨[], .ok (), listsTo_nil, makes_note contract⟩

theorem sends_ofChecked (call : Checked α) : Sends receiver (ofChecked call) :=
  ⟨[], call.outcome, listsTo_nil, makes_ofChecked call⟩

theorem sends_deliver (atoms : List Atom) : Sends receiver (deliver receiver (.list atoms)) :=
  ⟨[⟨receiver, .list atoms⟩], .ok (), List.forall_mem_singleton.2 ⟨atoms, rfl⟩,
    makes_deliver receiver (.list atoms)⟩

theorem Sends.bind {first : Action α} {next : α → Action β} (hfirst : Sends receiver first)
    (hnext : ∀ value, Sends receiver (next value)) : Sends receiver (first >>= next) := by
  obtain ⟨row, ending, hlists, hmakes⟩ := hfirst
  cases ending with
  | error error => exact ⟨row, .error error, hlists, hmakes.bind_error next⟩
  | ok value =>
      obtain ⟨others, ending, hothers, hrest⟩ := hnext value
      exact ⟨row ++ others, ending, hlists.append hothers, hmakes.bind hrest⟩

theorem sends_forNumbers {step : Nat → Action Unit} (h : ∀ n, Sends receiver (step n))
    (first count : Nat) : Sends receiver (forNumbers step first count) := by
  induction count generalizing first with
  | zero => exact sends_pure ()
  | succ count ih => exact (h first).bind fun _ => ih (first + 1)

end Action

namespace ActionOn

variable {σ τ α β : Type} {receiver : Text} {kept : σ → Prop}

/-- From the held value and the bench, a limit only cuts the action's row of lists to the receiver
short. -/
def Truncates (action : ActionOn σ α) (held : σ) (bench : Bench) (receiver : Text) : Prop :=
  ∃ row, CutShort (fun state : σ × Bench => state.2.engine) action (held, bench.unlimited)
    (fun limit => (held, bench.limitedTo limit)) receiver row

/-- From every held value that has the property, the action makes some row of lists to the receiver,
the same on every bench, and then holds a value with the property, however far the row got. -/
def Sends (receiver : Text) (kept : σ → Prop) (action : ActionOn σ α) : Prop :=
  ∀ held, kept held → ∃ row heldAfter ending, ListsTo receiver row ∧ (∀ k, kept (heldAfter k)) ∧
    action.Makes held row heldAfter ending

theorem Sends.truncates {action : ActionOn σ α} (h : Sends receiver kept action) {held : σ}
    (hheld : kept held) (bench : Bench) : action.Truncates held bench receiver := by
  obtain ⟨row, heldAfter, ending, hlists, -, hmakes⟩ := h held hheld
  exact ⟨row, cutShort_of_delivers hlists (hmakes.delivers _) (fun limit => hmakes.delivers _) rfl
    fun limit => ⟨rfl, rfl⟩⟩

theorem sends_pure (value : α) : Sends receiver kept (pure value) :=
  fun held hheld => ⟨[], _, .ok value, listsTo_nil, fun _ => hheld, makes_pure value held⟩

theorem sends_change {update : σ → σ} (h : ∀ held, kept held → kept (update held)) :
    Sends receiver kept (change update) :=
  fun held hheld => ⟨[], _, .ok (), listsTo_nil, fun _ => h held hheld,
    makes_change update held⟩

theorem sends_onBench {action : σ → Action α}
    (h : ∀ held, kept held → (action held).Sends receiver) :
    Sends receiver kept (onBench action) := by
  intro held hheld
  obtain ⟨row, ending, hlists, hmakes⟩ := h held hheld
  exact ⟨row, fun _ => held, ending, hlists, fun _ => hheld, makes_onBench action hmakes⟩

theorem Sends.bind {first : ActionOn σ α} {next : α → ActionOn σ β}
    (hfirst : Sends receiver kept first) (hnext : ∀ value, Sends receiver kept (next value)) :
    Sends receiver kept (first >>= next) := by
  intro held hheld
  obtain ⟨row, heldAfter, ending, hlists, hkept, hmakes⟩ := hfirst held hheld
  cases ending with
  | error error => exact ⟨row, heldAfter, .error error, hlists, hkept, hmakes.bind_error next⟩
  | ok value =>
      -- the second action starts from the value held behind the whole first row
      obtain ⟨others, heldAfter', ending, hothers, hkept', hrest⟩ :=
        hnext value (heldAfter row.length) (hkept row.length)
      refine ⟨row ++ others, _, ending, hlists.append hothers, ?_, hmakes.bind hrest⟩
      intro k
      split
      · exact hkept k
      · exact hkept' _

end ActionOn

end DynamicPatching

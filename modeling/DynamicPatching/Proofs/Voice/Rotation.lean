import DynamicPatching.Proofs.Voice.Histories
import Mathlib.Data.Int.ModEq
import Mathlib.Data.List.Rotate

/-!
# Voices handed out in turn

In a run that keeps the size of a pool, the voices that are handed out follow each other round the
pool, whatever other calls are made in between and whether or not they succeed
(`roundRobin_of_becomes`). In such a row every voice is handed out once in as many turns as there are
voices (`RoundRobin`).
-/

namespace DynamicPatching

/-! ## Rows of voices -/

/-- The voices of a row go round a pool of the given size, from the first one on. As many consecutive
ones as there are voices are all voices, each once, and the next time that a voice is in the row, all
others have been there once in between. -/
structure RoundRobin (size first : Nat) (voices : List Nat) : Prop where
  turn : ∀ k < voices.length, voices[k]? = some ((first + k) % size)
  window : ∀ k, k + size ≤ voices.length → ((voices.drop k).take size).Perm (List.range size)
  again : ∀ voice i j, i < j → voices[i]? = some voice → voices[j]? = some voice →
    (∀ between, i < between → between < j → voices[between]? ≠ some voice) →
    j = i + size ∧
      ((voices.drop (i + 1)).take (size - 1)).Perm ((List.range size).erase voice)

section Rows

variable {size first : Nat} {voices : List Nat}

/-- As many consecutive turns as there are voices are the voices in order, rotated. -/
theorem window_eq_rotate (hturn : ∀ k < voices.length, voices[k]? = some ((first + k) % size)) {k : Nat}
    (hk : k + size ≤ voices.length) :
    (voices.drop k).take size = (List.range size).rotate (first + k) := by
  apply List.ext_getElem?
  intro i
  by_cases hi : i < size
  · rw [List.getElem?_take_of_lt hi, List.getElem?_drop, hturn _ (by omega),
      List.getElem?_rotate (by rwa [List.length_range]), List.length_range,
      List.getElem?_range (Nat.mod_lt _ (by omega))]
    congr 2
    omega
  · rw [List.getElem?_eq_none (by simp; omega), List.getElem?_eq_none (by simp; omega)]

/-- Two turns of one voice are a multiple of the size apart. -/
theorem add_le_of_turn (hturn : ∀ k < voices.length, voices[k]? = some ((first + k) % size))
    {voice i j : Nat} (hij : i < j) (hi : voices[i]? = some voice) (hj : voices[j]? = some voice) :
    i + size ≤ j := by
  obtain ⟨hjlt, -⟩ := List.getElem?_eq_some_iff.1 hj
  rw [hturn i (by omega)] at hi
  rw [hturn j hjlt] at hj
  have hsame : Nat.ModEq size (first + i) (first + j) := Option.some.inj (hi.trans hj.symm)
  have hdvd : size ∣ j - i := (Nat.modEq_iff_dvd' hij.le).1 (Nat.ModEq.add_left_cancel' first hsame)
  have hle := Nat.le_of_dvd (Nat.sub_pos_of_lt hij) hdvd
  omega

/-- Only the turns have to be known. -/
theorem roundRobin_of_turn (hturn : ∀ k < voices.length, voices[k]? = some ((first + k) % size)) :
    RoundRobin size first voices := by
  have hwindow : ∀ k, k + size ≤ voices.length →
      ((voices.drop k).take size).Perm (List.range size) := by
    intro k hk
    rw [window_eq_rotate hturn hk]
    exact List.rotate_perm _ _
  refine ⟨hturn, hwindow, ?_⟩
  intro voice i j hij hi hj hbetween
  obtain ⟨hilt, hvoice⟩ := List.getElem?_eq_some_iff.1 hi
  obtain ⟨hjlt, -⟩ := List.getElem?_eq_some_iff.1 hj
  have hle := add_le_of_turn hturn hij hi hj
  have hdistance : j = i + size := by
    by_contra hne
    -- the voice has its turn again one round after `i`, which would be before `j`
    refine hbetween (i + size) ?_ (by omega) ?_
    · by_contra hzero
      obtain rfl : size = 0 := by omega
      rw [hturn i hilt, hturn j hjlt] at *
      simp at hi hj
      omega
    · rw [hturn _ (by omega), ← Nat.add_assoc, Nat.add_mod_right, ← hturn i hilt, hi]
  refine ⟨hdistance, ?_⟩
  have hround := hwindow i (by omega)
  rw [List.drop_eq_getElem_cons hilt, hvoice] at hround
  cases size with
  | zero => omega
  | succ others =>
      rw [List.take_succ_cons] at hround
      have hothers := hround.erase voice
      rwa [List.erase_cons_head] at hothers

end Rows

/-! ## Turns -/

/-- The pool gives the voice its turn: the voice is the one at the cursor, and the cursor moves on
round the pool. No number is reached on the way that needs more bits than the size. -/
structure VoicePool.GivesTurn (pool : VoicePool) (voice : Nat) (after : VoicePool) : Prop where
  cursor_eq : pool.cursor = voice
  voice_lt : voice < pool.size
  after_eq : after = { pool with cursor := (voice + 1) % pool.size }
  fits : ∀ bits, pool.size < 2 ^ bits → voice + 1 < 2 ^ bits

theorem VoicePool.givesTurn_advance {pool : VoicePool} (hcursor : pool.cursor < pool.size) :
    pool.GivesTurn pool.cursor pool.advance :=
  ⟨rfl, hcursor, rfl, fun _ hfits => Nat.lt_of_le_of_lt (Nat.succ_le_of_lt hcursor) hfits⟩

/-! ## Runs -/

section Runs

variable {σ ι : Type}

/-- The voices that a run of calls hands out, in order. `voice?` tells which one a call hands out. -/
def handedOut (step : σ → ι → σ) (voice? : σ → ι → Option Nat) : σ → List ι → List Nat
  | _, [] => []
  | state, call :: rest => (voice? state call).toList ++ handedOut step voice? (step state call) rest

/-- After every call of the run the pool has the size that it has at the beginning. -/
def KeepsSize (step : σ → ι → σ) (poolOf : σ → VoicePool) (state : σ) (calls : List ι) : Prop :=
  ∀ taken, taken <+: calls → (poolOf (taken.foldl step state)).size = (poolOf state).size

variable {step : σ → ι → σ} {voice? : σ → ι → Option Nat} {poolOf : σ → VoicePool}
  {resizes : ι → Prop} {state : σ} {calls : List ι}

theorem length_handedOut {takes : ι → Bool}
    (htakes : ∀ state call, (voice? state call).isSome = takes call) (state : σ) (calls : List ι) :
    (handedOut step voice? state calls).length = calls.countP takes := by
  induction calls generalizing state with
  | nil => rfl
  | cons call rest ih =>
      rw [handedOut, List.length_append, ih, List.countP_cons, ← htakes state call, Nat.add_comm]
      cases voice? state call <;> rfl

theorem keepsSize_cons {call : ι} {rest : List ι} :
    KeepsSize step poolOf state (call :: rest) ↔
      (poolOf (step state call)).size = (poolOf state).size ∧
        KeepsSize step poolOf (step state call) rest := by
  constructor
  · intro h
    have hfirst : (poolOf (step state call)).size = (poolOf state).size :=
      h [call] (List.prefix_append [call] rest)
    refine ⟨hfirst, fun taken htaken => ?_⟩
    rw [hfirst]
    exact h (call :: taken) (List.cons_prefix_cons.2 ⟨rfl, htaken⟩)
  · rintro ⟨hfirst, hrest⟩ taken htaken
    rcases List.prefix_cons_iff.1 htaken with rfl | ⟨others, rfl, hothers⟩
    · rfl
    · exact (hrest others hothers).trans hfirst

theorem KeepsSize.of_prefix {earlier : List ι} (h : KeepsSize step poolOf state calls)
    (hearlier : earlier <+: calls) : KeepsSize step poolOf state earlier :=
  fun taken htaken => h taken (htaken.trans hearlier)

variable (hstep : ∀ state call, (poolOf state).cursor < (poolOf state).size →
    (poolOf state).Becomes (resizes call) (voice? state call) (poolOf (step state call)))
  (hcursor : (poolOf state).cursor < (poolOf state).size)

include hstep hcursor

/-- A run without a resize keeps the size. -/
theorem keepsSize_of_becomes (hkept : ∀ call ∈ calls, ¬ resizes call) :
    KeepsSize step poolOf state calls := by
  induction calls generalizing state with
  | nil =>
      intro taken htaken
      rw [List.prefix_nil.1 htaken]
      rfl
  | cons call rest ih =>
      obtain ⟨hfirst, hrest⟩ := List.forall_mem_cons.1 hkept
      have hbecomes := hstep state call hcursor
      exact keepsSize_cons.2 ⟨hbecomes.size_eq hfirst, ih (hbecomes.cursor_lt hcursor) hrest⟩

/-- Along a run that keeps the size, the voices are handed out in turn, and the cursor is where they
leave it. -/
theorem turns_of_becomes (hsize : KeepsSize step poolOf state calls) :
    (∀ k < (handedOut step voice? state calls).length,
      (handedOut step voice? state calls)[k]? =
        some (((poolOf state).cursor + k) % (poolOf state).size)) ∧
    (poolOf (calls.foldl step state)).cursor =
      ((poolOf state).cursor + (handedOut step voice? state calls).length) %
        (poolOf state).size := by
  induction calls generalizing state with
  | nil =>
      refine ⟨fun k hk => absurd hk (Nat.not_lt_zero k), ?_⟩
      exact (Nat.mod_eq_of_lt hcursor).symm
  | cons call rest ih =>
      obtain ⟨hfirst, hrest⟩ := keepsSize_cons.1 hsize
      have hbecomes := hstep state call hcursor
      obtain ⟨hnext, hhanded⟩ := hbecomes.cursor_eq hcursor hfirst
      -- the rest of the run starts at the cursor that the call leaves
      obtain ⟨hturns, hlast⟩ := ih (hbecomes.cursor_lt hcursor) hrest
      rw [hfirst, hnext] at hturns hlast
      simp only [Nat.mod_add_mod, Nat.add_assoc] at hturns hlast
      rw [handedOut, List.length_append]
      refine ⟨?_, hlast⟩
      intro k hk
      cases hvoice : voice? state call with
      | none =>
          rw [hvoice] at hturns hk
          simpa using hturns k (by simpa using hk)
      | some voice =>
          obtain rfl := hhanded voice hvoice
          rw [hvoice] at hturns hk
          cases k with
          | zero => simp [Nat.mod_eq_of_lt hcursor]
          | succ k =>
              have hk' : k < (handedOut step voice? (step state call) rest).length := by
                simpa [Nat.add_comm] using hk
              simpa [Nat.add_comm 1 k] using hturns k hk'

/-- So they go round the pool. -/
theorem roundRobin_of_becomes (hsize : KeepsSize step poolOf state calls) :
    RoundRobin (poolOf state).size (poolOf state).cursor (handedOut step voice? state calls) :=
  roundRobin_of_turn (turns_of_becomes hstep hcursor hsize).1

/-- At every point of the run the cursor has moved on once for each call that has taken a voice. -/
theorem cursor_of_becomes {takes : ι → Bool}
    (htakes : ∀ state call, (voice? state call).isSome = takes call)
    (hsize : KeepsSize step poolOf state calls) {earlier : List ι} (hearlier : earlier <+: calls) :
    (poolOf (earlier.foldl step state)).cursor =
        ((poolOf state).cursor + earlier.countP takes) % (poolOf state).size ∧
      (poolOf (earlier.foldl step state)).cursor < (poolOf (earlier.foldl step state)).size := by
  have hturns := turns_of_becomes hstep hcursor (hsize.of_prefix hearlier)
  have hpos : 0 < (poolOf state).size := Nat.zero_lt_of_lt hcursor
  have hcount := hturns.2
  rw [length_handedOut htakes] at hcount
  refine ⟨hcount, ?_⟩
  rw [hcount, hsize earlier hearlier]
  exact Nat.mod_lt _ hpos

end Runs

/-! ## Handing out by the pool itself -/

namespace PoolEvent

/-- The event hands out a voice. -/
def allocates : PoolEvent → Bool
  | .onPool _ .allocate => true
  | _ => false

theorem isSome_voice? (state : VoicePool × Bench) (event : PoolEvent) :
    (event.voice? state).isSome = event.allocates := by
  cases event with
  | other call => rfl
  | onPool session call =>
      cases call with
      | allocate => rfl
      | loadAll => exact congrArg Option.isSome (handedVoice?_bind_none _ state)
      | resize target => exact congrArg Option.isSome (handedVoice?_bind_none _ state)
      | broadcast message => exact congrArg Option.isSome (handedVoice?_bind_none _ state)
      | unicast voice message => exact congrArg Option.isSome (handedVoice?_bind_none _ state)

/-- Handing out succeeds in every state. -/
theorem allocate_givesTurn {state : VoicePool × Bench} (hcursor : state.1.cursor < state.1.size)
    (session : Session) :
    outcomeOf (PoolCall.allocate.run session) state = .ok (some state.1.cursor) ∧
      state.1.GivesTurn state.1.cursor (stateAfter state (.onPool session .allocate)).1 :=
  ⟨rfl, VoicePool.givesTurn_advance hcursor⟩

end PoolEvent

end DynamicPatching

import DynamicPatching.Proofs.Single.Numeral
import DynamicPatching.Proofs.Voice.Payloads

/-!
# Voices and their addresses

A voice is addressed by the number behind the receiver, and that is a single: the one nearest to the
index. Up to `2 ^ 24` it is the index itself. From there on not every index is a single, so a large
pool has voices that share an address (`VoicePool.addresses_collide`), and two voices are told apart
exactly if their indices are rounded differently (`VoicePool.addresses_rounded`).
-/

namespace DynamicPatching

/-! ## Rounded indices -/

namespace Single

/-- The nearest number is the target itself if any number is. -/
theorem IsNearest.value_eq_iff {x : Single} {target : ℚ} (h : x.IsNearest target) :
    x.value = target ↔ ∃ y : Single, y.isFinite = true ∧ y.value = target := by
  constructor
  · intro hvalue
    exact ⟨x, h.finite, hvalue⟩
  · rintro ⟨y, hy, hvalue⟩
    have hnear := h.nearest y hy
    rw [hvalue, sub_self, abs_zero] at hnear
    exact sub_eq_zero.1 (abs_eq_zero.1 (le_antisymm hnear (abs_nonneg _)))

/-- A whole number below `2 ^ 24` is rounded to the same single as no other. -/
theorem eq_of_ofNat_eq {m n : Nat} (hm : m < 2 ^ 24) (h : ofNat m = ofNat n) : m = n := by
  by_cases hn : n ≤ 2 ^ 24
  · exact (ofNat_inj hm.le hn).1 h
  · -- otherwise the bound itself would be rounded to the same single
    have hbelow : (ofNat m).ordinal ≤ (ofNat (2 ^ 24)).ordinal := ordinal_ofNat_mono hm.le
    have habove : (ofNat (2 ^ 24)).ordinal ≤ (ofNat n).ordinal :=
      ordinal_ofNat_mono (Nat.le_of_not_le hn)
    rw [← h] at habove
    have hbound := ofNat_eq_of_ordinal (Nat.le_antisymm hbelow habove)
    exact absurd ((ofNat_inj hm.le le_rfl).1 hbound) hm.ne

end Single

/-! ## Addresses -/

namespace VoicePool

variable {receiver message : Text} {pool : VoicePool} {voice other : Nat}

/-- Two voices are sent different lists exactly if their indices are rounded differently. -/
theorem voiceList_eq_iff :
    voiceList receiver voice message = voiceList receiver other message ↔
      Single.ofNat voice = Single.ofNat other := by
  simp [voiceList]

theorem getElem?_voiceList :
    (voiceList receiver voice message)[2]? = some (.number (Single.ofNat voice)) := rfl

/-- In a pool of `2 ^ 24 + 2` voices two voices share an address, which is the index of only one of
them. -/
theorem addresses_collide :
    let session : Session := ⟨1001, "1001-dynamicpd".toList⟩
    let receiver : Text := "1001-channels".toList
    let config : SynthConfig := { voices := 16777218 }
    ∃ pool, make receiver config = .ok pool ∧ receiver.IsName ∧ 16777217 < pool.size ∧
      ∃ atoms address,
        (pool.unicast session 16777216 "x".toList).EndsIn Bench.fresh
          [⟨session.interpreter, .list atoms⟩] (.ok ()) ∧
        (pool.unicast session 16777217 "x".toList).EndsIn Bench.fresh
          [⟨session.interpreter, .list atoms⟩] (.ok ()) ∧
        atoms[2]? = some (.number address) ∧ address.value ≠ 16777217 := by
  intro session receiver config
  have hname : receiver.IsName := by decide +kernel
  have hsame : Single.ofNat 16777217 = Single.ofNat 16777216 := by decide +kernel
  have hvalue : (Single.ofNat 16777216).value = 16777216 := by
    exact_mod_cast @Single.value_ofNat 16777216 (by decide)
  have hfirst := @unicast_makes_voiceList session (Synth.startPool receiver config) 16777216 hname
    (by decide) (by decide) "x".toList
  have hsecond := @unicast_makes_voiceList session (Synth.startPool receiver config) 16777217 hname
    (by decide) (by decide) "x".toList
  rw [voiceList_eq_iff.2 hsame] at hsecond
  refine ⟨Synth.startPool receiver config, rfl, hname, by decide, _, Single.ofNat 16777216,
    hfirst.endsIn rfl, hsecond.endsIn rfl, getElem?_voiceList, ?_⟩
  rw [hvalue]
  norm_num

/-- **Addresses of voices.** Take a pool for a name after any row of events, of any size that 64 bits
hold. A message to one of its voices, on an engine that accepts a delivery, delivers one list, whose
third atom is the single nearest to the index. It is the index itself exactly if the index is a single,
as all indices up to `2 ^ 24` are. The lists of two voices are the same exactly if both indices are
rounded to one single, so a voice below `2 ^ 24` shares its list with no other. -/
theorem addresses_rounded {config : SynthConfig} (hmake : make receiver config = .ok pool)
    (hname : receiver.IsName) (opened : Bench) (events : List PoolEvent) (session : Session)
    (message : Text) :
    let reached := (PoolEvent.after (pool, opened) events).1
    reached.size < 2 ^ 64 →
      (∀ voice < reached.size,
        (∀ bench : Bench, bench.engine.room 1 = 1 →
          (reached.unicast session voice message).EndsIn bench
            [⟨session.interpreter, .list (voiceList receiver voice message)⟩] (.ok ())) ∧
        ∃ address : Single,
          (voiceList receiver voice message)[2]? = some (.number address) ∧
            address.IsNearest voice ∧
            (address.value = voice ↔ ∃ y : Single, y.isFinite = true ∧ y.value = voice) ∧
            (voice ≤ 2 ^ 24 → address.value = voice)) ∧
      ∀ voice < reached.size, ∀ other < reached.size,
        (voiceList receiver voice message = voiceList receiver other message ↔
          Single.ofNat voice = Single.ofNat other) ∧
        (voice ≠ other → voice < 2 ^ 24 →
          voiceList receiver voice message ≠ voiceList receiver other message) := by
  intro reached hbound
  obtain ⟨hvoices, rfl⟩ := make_eq_ok_iff.1 hmake
  have hreceiver : reached.receiver = receiver :=
    (PoolEvent.after_sound (Nat.pos_of_ne_zero hvoices) events).2
  constructor
  · intro voice hvoice
    have hindex : voice < 2 ^ 64 := hvoice.trans hbound
    refine ⟨fun bench hroom => ?_, Single.ofNat voice, getElem?_voiceList,
      Single.isNearest_ofNat hindex, (Single.isNearest_ofNat hindex).value_eq_iff,
      Single.value_ofNat⟩
    have hmakes := @unicast_makes_voiceList session reached voice (hreceiver ▸ hname) hvoice hindex
      message
    rw [hreceiver] at hmakes
    exact hmakes.endsIn_of_room hroom
  · intro voice _ other _
    refine ⟨voiceList_eq_iff, fun hne hlt hsame => ?_⟩
    exact hne (Single.eq_of_ofNat_eq hlt (voiceList_eq_iff.1 hsame))

/-- In the pool in which two voices collide, a lower voice is sent a list of its own. -/
theorem addresses_rounded_large :
    let session : Session := ⟨1001, "1001-dynamicpd".toList⟩
    let receiver : Text := "1001-channels".toList
    let pool := Synth.startPool receiver { voices := 16777218 }
    make receiver { voices := 16777218 } = .ok pool ∧ receiver.IsName ∧ pool.size < 2 ^ 64 ∧
      (pool.unicast session 16777215 "x".toList).EndsIn Bench.fresh
        [⟨session.interpreter, .list (voiceList receiver 16777215 "x".toList)⟩] (.ok ()) ∧
      voiceList receiver 16777215 "x".toList ≠ voiceList receiver 16777217 "x".toList := by
  intro session receiver pool
  have hmake : make receiver { voices := 16777218 } = .ok pool := rfl
  have hname : receiver.IsName := by decide +kernel
  have hbound : pool.size < 2 ^ 64 := by decide
  obtain ⟨hlists, hdiffer⟩ :=
    addresses_rounded hmake hname Bench.fresh [] session "x".toList hbound
  obtain ⟨hdelivers, -⟩ := hlists 16777215 (by decide)
  obtain ⟨-, hdistinct⟩ := hdiffer 16777215 (by decide) 16777217 (by decide)
  exact ⟨hmake, hname, hbound, hdelivers Bench.fresh rfl, hdistinct (by decide) (by decide)⟩

end VoicePool

end DynamicPatching

import AssetTracker.Advertiser
import AssetTracker.Lib.Machine
import Mathlib.Tactic.IntervalCases

/-! The loop of `run_advertisement`: one payload a round, with the next sequence number, on the next of
the three advertising channels and on no other. -/
namespace AssetTracker.Advertiser
open Bounded Scanner

/-- All channels are disabled in a new map. -/
structure AdvChannelMap where
  channel37 : Bool
  channel38 : Bool
  channel39 : Bool
deriving DecidableEq

def channelMap (channelNumber : UInt8) : AdvChannelMap :=
  match channelNumber with
  | 37 => ⟨true, false, false⟩
  | 38 => ⟨false, true, false⟩
  | 39 => ⟨false, false, true⟩
  | _ => ⟨false, false, false⟩

def nextChannel (channelNumber : UInt8) : UInt8 :=
  if channelNumber < 39 then channelNumber + 1 else 37

/-- The variables of the loop, whether it waits for its timer, and what is on the air meanwhile. -/
structure Beacon where
  sequence : UInt32
  channelNumber : UInt8
  waiting : Bool
  onAir : Option (List UInt8)

/-- `advertise` is called, and succeeds or not (a failure is not looked at); or the timer runs out. -/
inductive BeaconEvent where
  | advertise (started : Bool)
  | timer

structure Advertised where
  payload : AdvertisementPayload
  channels : AdvChannelMap
  started : Bool

/-- `sequence += 1`, with overflow checks or without. -/
def nextSequence (checks : Bool) (sequence : UInt32) : Option UInt32 :=
  if checks = true ∧ sequence.toNat = 2 ^ 32 - 1 then none else some (sequence + 1)

/-- At the end of a round the advertiser is dropped, which takes its data off the air. -/
def beaconStep (checks : Bool) (tagName : List UInt8) (s : Beacon) :
    BeaconEvent → Option (Beacon × List Advertised)
  | .advertise started =>
    if s.waiting then some (s, [])
    else
      let payload : AdvertisementPayload := ⟨s.sequence, s.channelNumber⟩
      match advData tagName payload with
      | .error _ => none
      | .ok data =>
        some ({ s with waiting := true, onAir := if started then some data else none },
          [⟨payload, channelMap s.channelNumber, started⟩])
  | .timer =>
    if s.waiting then do
      let sequence ← nextSequence checks s.sequence
      pure (⟨sequence, nextChannel s.channelNumber, false, none⟩, [])
    else some (s, [])

def beacon (checks : Bool) (tagName : List UInt8) : Lib.Machine Beacon BeaconEvent Advertised where
  init := ⟨0, 37, false, none⟩
  step := beaconStep checks tagName

/-- The payload of round `n`, counted from 0, and the channel it goes out on. -/
structure OfRound (n : Nat) (a : Advertised) : Prop where
  sequence : a.payload.sequence.toNat = n % 2 ^ 32
  channelNumber : a.payload.channelNumber.toNat = 37 + n % 3
  channels : a.channels = ⟨n % 3 = 0, n % 3 = 1, n % 3 = 2⟩

/-- The round a beacon is in: the one it has advertised, or the next. -/
def roundOf (trace : List Advertised) (s : Beacon) : Nat :=
  if s.waiting then trace.length - 1 else trace.length

structure RoundInv (checks : Bool) (trace : List Advertised) (s : Beacon) : Prop where
  sequence : s.sequence.toNat = roundOf trace s % 2 ^ 32
  channelNumber : s.channelNumber.toNat = 37 + roundOf trace s % 3
  counted : s.waiting = true → trace ≠ []
  checked : checks = true → roundOf trace s < 2 ^ 32

variable {checks : Bool} {tagName : List UInt8} {s s' : Beacon} {obs trace : List Advertised}

theorem beacon_cases {e : BeaconEvent} (h : beaconStep checks tagName s e = some (s', obs)) :
    (s' = s ∧ obs = []) ∨
    (∃ started data, s.waiting = false ∧ advData tagName ⟨s.sequence, s.channelNumber⟩ = .ok data ∧
      s' = { s with waiting := true, onAir := if started then some data else none } ∧
      obs = [⟨⟨s.sequence, s.channelNumber⟩, channelMap s.channelNumber, started⟩]) ∨
    (∃ sequence, s.waiting = true ∧ nextSequence checks s.sequence = some sequence ∧
      s' = ⟨sequence, nextChannel s.channelNumber, false, none⟩ ∧ obs = []) := by
  cases e with
  | advertise started =>
    by_cases hw : s.waiting = true
    · rw [beaconStep, if_pos hw] at h
      cases h
      exact .inl ⟨rfl, rfl⟩
    · rw [beaconStep, if_neg hw] at h
      cases hdata : advData tagName ⟨s.sequence, s.channelNumber⟩ with
      | error e =>
        simp only [hdata] at h
        cases h
      | ok data =>
        simp only [hdata] at h
        cases h
        exact .inr (.inl ⟨started, data, by simpa using hw, rfl, rfl, rfl⟩)
  | timer =>
    by_cases hw : s.waiting = true
    · rw [beaconStep, if_pos hw] at h
      obtain ⟨sequence, hsequence, h⟩ := Option.bind_eq_some_iff.mp h
      cases h
      exact .inr (.inr ⟨sequence, hw, hsequence, rfl, rfl⟩)
    · rw [beaconStep, if_neg hw] at h
      cases h
      exact .inl ⟨rfl, rfl⟩

theorem nextSequence_some {sequence sequence' : UInt32}
    (h : nextSequence checks sequence = some sequence') :
    sequence'.toNat = (sequence.toNat + 1) % 2 ^ 32 ∧
      (checks = true → sequence.toNat ≠ 2 ^ 32 - 1) := by
  unfold nextSequence at h
  split_ifs at h with hmax
  cases h
  refine ⟨?_, ?_⟩
  · rw [UInt32.toNat_add]
    rfl
  · intro hchecks heq
    exact hmax ⟨hchecks, heq⟩

theorem nextChannel_toNat {c : UInt8} {n : Nat} (h : c.toNat = 37 + n % 3) :
    (nextChannel c).toNat = 37 + (n + 1) % 3 := by
  have hlt : c < 39 ↔ c.toNat < 39 := UInt8.lt_iff_toNat_lt
  unfold nextChannel
  by_cases hc : c < 39
  · rw [if_pos hc, UInt8.toNat_add]
    have hc' := hlt.mp hc
    change (c.toNat + 1) % 256 = _
    omega
  · rw [if_neg hc]
    have hc' : ¬ c.toNat < 39 := fun hlt' => hc (hlt.mpr hlt')
    change 37 = _
    omega

theorem channelMap_eq {c : UInt8} {n : Nat} (h : c.toNat = 37 + n % 3) :
    channelMap c = ⟨n % 3 = 0, n % 3 = 1, n % 3 = 2⟩ := by
  have hlt := Nat.mod_lt n (show 0 < 3 by decide)
  have hc : c = UInt8.ofNat (37 + n % 3) := by
    rw [← h, UInt8.ofNat_toNat]
  rw [hc]
  interval_cases n % 3 <;> rfl

theorem roundInv_step (hs : RoundInv checks trace s) {e : BeaconEvent}
    (h : beaconStep checks tagName s e = some (s', obs)) : RoundInv checks (obs ++ trace) s' := by
  obtain hidle | hadvertised | htimer := beacon_cases h
  · obtain ⟨rfl, rfl⟩ := hidle
    exact hs
  · obtain ⟨started, data, hw, _, rfl, rfl⟩ := hadvertised
    have hround : roundOf trace s = trace.length := by simp [roundOf, hw]
    obtain ⟨hsequence, hchannel, _, hchecked⟩ := hs
    rw [hround] at hsequence hchannel hchecked
    exact ⟨hsequence, hchannel, by simp, hchecked⟩
  · obtain ⟨sequence, hw, hsequence, rfl, rfl⟩ := htimer
    obtain ⟨hnext, hmax⟩ := nextSequence_some hsequence
    have hlen := List.length_pos_iff.mpr (hs.counted hw)
    have hround : trace.length = roundOf trace s + 1 := by
      simp [roundOf, hw]
      omega
    have hnow : roundOf ([] ++ trace) ⟨sequence, nextChannel s.channelNumber, false, none⟩ =
        roundOf trace s + 1 := hround
    refine ⟨?_, ?_, by simp, ?_⟩
    · rw [hnow, hnext, hs.sequence]
      omega
    · rw [hnow]
      exact nextChannel_toNat hs.channelNumber
    · intro hchecks
      have hlt := hs.checked hchecks
      have hne := hmax hchecks
      rw [hs.sequence] at hne
      rw [hnow]
      omega

theorem roundInv_run (h : (beacon checks tagName).Run trace s) : RoundInv checks trace s := by
  have hinit : RoundInv checks [] (beacon checks tagName).init :=
    ⟨rfl, rfl, by simp [beacon], by simp [roundOf, beacon]⟩
  exact h.invariant (P := RoundInv checks) hinit fun _ hs hstep => roundInv_step hs hstep

theorem rounds_run (h : (beacon checks tagName).Run trace s) :
    Lib.Everywhere (fun before a => OfRound before.length a) trace := by
  refine h.invariant (P := fun trace _ => Lib.Everywhere _ trace) trivial ?_
  intro trace s e s' obs hr hi hs
  obtain hidle | hadvertised | htimer := beacon_cases hs
  · obtain ⟨_, rfl⟩ := hidle
    exact hi
  · obtain ⟨started, data, hw, _, _, rfl⟩ := hadvertised
    obtain ⟨hsequence, hchannel, _, _⟩ := roundInv_run hr
    have hround : roundOf trace s = trace.length := by simp [roundOf, hw]
    rw [hround] at hsequence hchannel
    exact ⟨⟨hsequence, hchannel, channelMap_eq hchannel⟩, hi⟩
  · obtain ⟨_, _, _, _, rfl⟩ := htimer
    exact hi

/-- The advertisements of a run are numbered from 0, modulo 2^32, and go round the three channels, each
with one channel enabled. A program with overflow checks never numbers two alike. -/
theorem advertisements_numbered (h : (beacon checks tagName).Run trace s) :
    Lib.Everywhere (fun before a => OfRound before.length a) trace ∧
      (checks = true → trace.length ≤ 2 ^ 32) := by
  refine ⟨rounds_run h, ?_⟩
  intro hchecks
  have hlt := (roundInv_run h).checked hchecks
  unfold roundOf at hlt
  split_ifs at hlt with hw
  · omega
  · omega

/- A tag named "T", with its channel refused in the second round. -/
def demoBeaconEvents : List BeaconEvent := [.advertise true, .timer, .advertise false, .timer]

theorem advertisements_numbered_twice : OfRound 1 ⟨⟨1, 38⟩, ⟨false, true, false⟩, false⟩ :=
  have hrun := Lib.Machine.run_of_exec (M := beacon true [84]) demoBeaconEvents rfl
  (advertisements_numbered hrun).1.1

def OnAir (tagName : List UInt8) (trace : List Advertised) (s : Beacon) : Prop :=
  ∀ data, s.onAir = some data →
    ∃ a before, trace = a :: before ∧ advData tagName a.payload = .ok data

theorem onAir_run (h : (beacon checks tagName).Run trace s) : OnAir tagName trace s := by
  have hinit : OnAir tagName [] (beacon checks tagName).init := by
    intro data hdata
    cases hdata
  refine h.invariant (P := OnAir tagName) hinit ?_
  intro trace s e s' obs _ hi hs
  obtain hidle | hadvertised | htimer := beacon_cases hs
  · obtain ⟨rfl, rfl⟩ := hidle
    exact hi
  · obtain ⟨started, data, _, hdata, rfl, rfl⟩ := hadvertised
    intro data' hair
    cases started with
    | false => cases hair
    | true =>
      cases hair
      exact ⟨_, trace, rfl, hdata⟩
  · obtain ⟨sequence, _, _, rfl, _⟩ := htimer
    intro data hair
    cases hair

theorem sequence_le_last {a b : Advertised} {before : List Advertised}
    (h : (beacon checks tagName).Run (a :: before) s) (hcount : (a :: before).length ≤ 2 ^ 32)
    (hb : b ∈ a :: before) : b.payload.sequence ≤ a.payload.sequence := by
  have hnumbered := rounds_run h
  have hlast := hnumbered.1.sequence
  obtain ⟨later, earlier, hsplit⟩ := List.append_of_mem hb
  rw [hsplit] at hnumbered
  have hround := hnumbered.at_split.sequence
  have hlen := congrArg List.length hsplit
  simp only [List.length_append, List.length_cons] at hlen hcount
  rw [UInt32.le_iff_toNat_le, hround, hlast]
  omega

theorem encodeSlice_eq_error {capacity : Nat} (l : List AdStructure) {written : List UInt8}
    (h : capacity < written.length + (l.flatMap encode).length) (hw : written.length ≤ capacity) :
    encodeSlice capacity l written = .error .insufficientSpace := by
  induction l generalizing written with
  | nil =>
    simp only [List.flatMap_nil, List.length_nil, Nat.add_zero] at h
    omega
  | cons a l ih =>
    simp only [List.flatMap_cons, List.length_append] at h
    by_cases hfits : written.length + (encode a).length ≤ capacity
    · rw [encodeSlice, if_pos hfits]
      exact ih (by rw [List.length_append]; omega) (by rw [List.length_append]; omega)
    · rw [encodeSlice, if_neg hfits]

theorem advData_eq_error (h : 17 < tagName.length) (payload : AdvertisementPayload) :
    advData tagName payload = .error .insufficientSpace := by
  apply encodeSlice_eq_error
  · simp [advStructures, encode, adData, flags, toBytes_length]
    omega
  · simp

theorem beaconStep_eq_none {e : BeaconEvent} (hlen : tagName.length ≤ 17)
    (h : beaconStep checks tagName s e = none) :
    s.waiting = true ∧ checks = true ∧ s.sequence.toNat = 2 ^ 32 - 1 := by
  cases e with
  | advertise started =>
    by_cases hw : s.waiting = true
    · rw [beaconStep, if_pos hw] at h
      cases h
    · rw [beaconStep, if_neg hw] at h
      simp only [advData_eq_ok hlen] at h
      cases h
  | timer =>
    by_cases hw : s.waiting = true
    · rw [beaconStep, if_pos hw] at h
      have hnone : nextSequence checks s.sequence = none := by
        cases hn : nextSequence checks s.sequence with
        | none => rfl
        | some sequence =>
          rw [hn] at h
          cases h
      unfold nextSequence at hnone
      split_ifs at hnone with hmax
      exact ⟨hw, hmax⟩
    · rw [beaconStep, if_neg hw] at h
      cases h

theorem advertise_succeeds (hlen : tagName.length ≤ 17) (hw : s.waiting = false) :
    (beacon checks tagName).step s (.advertise false) =
      some ({ s with waiting := true, onAir := none },
        [⟨⟨s.sequence, s.channelNumber⟩, channelMap s.channelNumber, false⟩]) := by
  simp [beacon, beaconStep, hw, advData_eq_ok hlen]

theorem round_reached (hlen : tagName.length ≤ 17) {n : Nat} (hn : n < 2 ^ 32) :
    ∃ trace s, (beacon checks tagName).Run trace s ∧ s.waiting = false ∧ s.sequence.toNat = n := by
  induction n with
  | zero => exact ⟨[], _, .start, rfl, rfl⟩
  | succ n ih =>
    obtain ⟨trace, s, hrun, hw, hsequence⟩ := ih (by omega)
    have hnext : nextSequence checks s.sequence = some (s.sequence + 1) := by
      rw [nextSequence, if_neg]
      omega
    have htimer : (beacon checks tagName).step { s with waiting := true, onAir := none } .timer =
        some (⟨s.sequence + 1, nextChannel s.channelNumber, false, none⟩, []) := by
      simp [beacon, beaconStep, hnext]
    refine ⟨_, _, (hrun.next (advertise_succeeds hlen hw)).next htimer, rfl, ?_⟩
    rw [(nextSequence_some hnext).1, hsequence]
    omega

/-- The advertiser can panic only for a name of more than 17 bytes, or with overflow checks; then after
2^32 advertisements, not before. -/
theorem beacon_panics_iff (checks : Bool) (tagName : List UInt8) :
    ((∃ trace s e, (beacon checks tagName).Run trace s ∧ beaconStep checks tagName s e = none) ↔
      17 < tagName.length ∨ checks = true) ∧
    ∀ trace s e, tagName.length ≤ 17 → (beacon checks tagName).Run trace s →
      beaconStep checks tagName s e = none → trace.length = 2 ^ 32 := by
  refine ⟨⟨?_, ?_⟩, ?_⟩
  · intro h
    obtain ⟨trace, s, e, _, hnone⟩ := h
    by_cases hlen : tagName.length ≤ 17
    · exact .inr (beaconStep_eq_none hlen hnone).2.1
    · exact .inl (Nat.lt_of_not_le hlen)
  · intro h
    by_cases hlen : tagName.length ≤ 17
    · have hchecks := h.resolve_left (Nat.not_lt.mpr hlen)
      have hlast : 2 ^ 32 - 1 < 2 ^ 32 := by decide
      obtain ⟨trace, s, hrun, hw, hsequence⟩ := @round_reached checks tagName hlen _ hlast
      refine ⟨_, _, .timer, hrun.next (advertise_succeeds hlen hw), ?_⟩
      simp [beaconStep, nextSequence, hchecks, hsequence]
    · refine ⟨[], _, .advertise false, .start, ?_⟩
      simp [beaconStep, beacon, advData_eq_error (Nat.lt_of_not_le hlen)]
  · intro trace s e hlen hrun hnone
    obtain ⟨hw, hchecks, hmax⟩ := beaconStep_eq_none hlen hnone
    have hi := roundInv_run hrun
    have hlt := hi.checked hchecks
    have hpos := List.length_pos_iff.mpr (hi.counted hw)
    have hsequence := hi.sequence
    simp only [roundOf, hw, if_true] at hlt hsequence
    omega

end AssetTracker.Advertiser

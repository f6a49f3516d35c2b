import AssetTracker.Link.RoundTrip
import AssetTracker.Gateway.Update

/-! The age of a tag on its whole way: measured on the scanner when the frame is built, carried over
the line, and increased on the gateway once the network is up. Both conversions saturate; their sum
does not. -/
namespace AssetTracker.Link
open Bounded Gateway Scanner Wire

/-- The age a report should carry: the sum of two saturated waits, saturated. -/
def totalAge (scannerHz gatewayHz heard sent decoded aged : Nat) : Nat :=
  min 65535 (min 65535 ((sent - heard) / scannerHz) + min 65535 ((aged - decoded) / gatewayHz))

/-- What a report of the tags `t`, sent by the scanner in state `s`, should satisfy. -/
structure AgesSaturate (p : Platform) (s : State) (checks : Bool) (tickHz : Nat)
    (deviceId : BString tagNameMaxLen) (location : Option Location) (t : TagsSeen)
    (decoded aged : Nat) : Prop where
  ages : ∃ u, gatewayUpdate checks tickHz deviceId location t decoded aged = some u ∧
    reportedAges u = s.seen.entries.map fun e =>
      totalAge p.tickHz tickHz e.2.timestamp s.clock decoded aged
  noOverflow : ∀ tag ∈ t.tags.toList,
    tag.age.toNat + (saturatedSecs ((aged - decoded) / tickHz)).toNat < 2 ^ 16
  monotone : ∀ earlier, decoded ≤ earlier → earlier ≤ aged → ∃ u u',
    gatewayUpdate checks tickHz deviceId location t decoded earlier = some u ∧
    gatewayUpdate checks tickHz deviceId location t decoded aged = some u' ∧
    List.Forall₂ (· ≤ ·) (reportedAges u) (reportedAges u')

theorem snapshot_ages (p : Platform) (s : State) (wait : Nat) :
    ((snapshotTags p s.clock s.seen).tags.toList.map fun tag =>
      min 65535 (tag.age.toNat + wait)) =
    s.seen.entries.map fun e =>
      min 65535 (min 65535 ((s.clock - e.2.timestamp) / p.tickHz) + wait) := by
  simp only [snapshotTags, List.map_map]
  apply List.map_congr_left
  intro e _
  simp only [Function.comp_apply, tagOf, saturatedSecs_toNat]

theorem snapshot_forall (p : Platform) (s : State) (wait : Nat) :
    (∀ tag ∈ (snapshotTags p s.clock s.seen).tags.toList, tag.age.toNat + wait ≤ 65535) ↔
    ∀ e ∈ s.seen.entries,
      min 65535 ((s.clock - e.2.timestamp) / p.tickHz) + wait ≤ 65535 := by
  simp only [snapshotTags, List.forall_mem_map, tagOf, saturatedSecs_toNat]

theorem wait_mono {earlier aged : Nat} (h : earlier ≤ aged) (decoded tickHz : Nat) :
    min 65535 ((earlier - decoded) / tickHz) ≤ min 65535 ((aged - decoded) / tickHz) := by
  have hdiv := Nat.div_le_div_right (c := tickHz) (Nat.sub_le_sub_right h decoded)
  omega

theorem reportedAges_mono {checks : Bool} {tickHz decoded earlier aged : Nat}
    (hfrom : decoded ≤ earlier) (hto : earlier ≤ aged) (deviceId : BString tagNameMaxLen)
    (location : Option Location) {t : TagsSeen}
    (hsum : ∀ tag ∈ t.tags.toList,
      tag.age.toNat + min 65535 ((aged - decoded) / tickHz) ≤ 65535) :
    ∃ u u', gatewayUpdate checks tickHz deviceId location t decoded earlier = some u ∧
      gatewayUpdate checks tickHz deviceId location t decoded aged = some u' ∧
      List.Forall₂ (· ≤ ·) (reportedAges u) (reportedAges u') := by
  have hwait := wait_mono hto decoded tickHz
  have hearly : ∀ tag ∈ t.tags.toList,
      tag.age.toNat + min 65535 ((earlier - decoded) / tickHz) ≤ 65535 := by
    intro tag htag
    have hle := hsum tag htag
    omega
  obtain ⟨u, hu, hages⟩ := (reportedAges_iff checks tickHz hfrom deviceId location t).mpr hearly
  obtain ⟨u', hu', hages'⟩ :=
    (reportedAges_iff checks tickHz (hfrom.trans hto) deviceId location t).mpr hsum
  refine ⟨u, u', hu, hu', ?_⟩
  rw [hages, hages', List.forall₂_map_left_iff, List.forall₂_map_right_iff, List.forall₂_same]
  intro tag _
  omega

/-- For what a reachable scanner sends and the gateway decodes, the ages in the report saturate exactly
when for every tag the two waits, each saturated on its own, add up to at most 65535 seconds. -/
theorem ages_saturate_iff (p : Platform) {trace : List Obs} {s : State}
    (h : (scanner p).Run trace s) (checks : Bool) (tickHz : Nat)
    (deviceId : BString tagNameMaxLen) (location : Option Location) {decoded aged : Nat}
    (hle : decoded ≤ aged) :
    ∃ t, step p s .sendScanData = some (s, [.frame s.clock t (some (frame t))]) ∧
      (∀ uart, bytesOf (readsOf uart) = frame t →
        waitForDecodedMessage .empty [] uart = .returned t (readsOf uart)) ∧
      (AgesSaturate p s checks tickHz deviceId location t decoded aged ↔
        ∀ e ∈ s.seen.entries, min 65535 ((s.clock - e.2.timestamp) / p.tickHz) +
          min 65535 ((aged - decoded) / tickHz) ≤ 65535) := by
  refine ⟨snapshotTags p s.clock s.seen, step_sendScanData (storeInv_run h).seenPast, ?_, ?_⟩
  · intro uart huart
    rw [wait_eq_receive]
    exact receive_frame huart
  have hiff := reportedAges_iff checks tickHz hle deviceId location (snapshotTags p s.clock s.seen)
  rw [snapshot_ages, snapshot_forall] at hiff
  constructor
  · intro hages
    exact hiff.mp hages.ages
  · intro hsum
    have htags := (snapshot_forall p s _).mpr hsum
    refine ⟨hiff.mpr hsum, ?_, ?_⟩
    · intro tag htag
      have hle := htags tag htag
      rw [saturatedSecs_toNat]
      omega
    · intro earlier hfrom hto
      exact reportedAges_mono hfrom hto deviceId location htags

/- The demo tag one second after it was heard. -/
def secondState : State := { demoState with clock := 32768 }

theorem secondRun : (scanner demoPlatform).Run [.dequeued demoTag] secondState :=
  Lib.Machine.run_of_exec [.onAdvReports [some demoReport], .receiveTags, .tick 32768] rfl

def demoId : BString tagNameMaxLen := ⟨"tracker", by decide⟩

/-- A minute's wait is reported right. -/
theorem ages_saturate_minute : ∃ t,
    AgesSaturate demoPlatform secondState true 32768 demoId none t 0 (60 * 32768) := by
  obtain ⟨t, -, -, hiff⟩ := ages_saturate_iff demoPlatform secondRun true 32768 demoId none
    (Nat.zero_le (60 * 32768))
  exact ⟨t, hiff.mpr (by decide)⟩

/-- One second on the scanner and 65535 on the gateway are reported as no time at all, or not at all
in a build with overflow checks. -/
theorem ages_overflow : ¬ ∀ (p : Platform) (trace : List Obs) (s : State),
    (scanner p).Run trace s → ∀ checks tickHz deviceId location decoded aged, decoded ≤ aged →
      AgesSaturate p s checks tickHz deviceId location (snapshotTags p s.clock s.seen)
        decoded aged := by
  intro hall
  obtain ⟨u, hu, hages⟩ := (hall demoPlatform _ _ secondRun false 32768 demoId none 0
    (65535 * 32768) (Nat.zero_le _)).ages
  have hzero : (gatewayUpdate false 32768 demoId none
      (snapshotTags demoPlatform secondState.clock secondState.seen) 0 (65535 * 32768)).map
      reportedAges = some [0] := rfl
  have htotal : (secondState.seen.entries.map fun e =>
      totalAge demoPlatform.tickHz 32768 e.2.timestamp secondState.clock 0 (65535 * 32768)) =
      [65535] := by decide
  rw [hu, Option.map_some, hages, htotal] at hzero
  cases hzero

end AssetTracker.Link

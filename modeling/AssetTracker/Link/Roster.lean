import AssetTracker.Link.Elapsed
import AssetTracker.Scanner.Prefix
import AssetTracker.Scanner.Retention

/-! What an update leaves out. Together with the ages this makes an update a full account of the devices
the scanner has heard. -/
namespace AssetTracker.Link.Elapsed
open Bounded Gateway Scanner

variable {p : Platform} {cfg : Updates.Config} {s : Tracker.State} {trace : List Tracker.Obs}

theorem reported_addrs {tr : List Scanner.Obs} {sc : Scanner.State} (h : (scanner p).Run tr sc)
    (decodedAt builtAt : Nat) :
    ((sc.seen.entries.map fun e => reported p sc.clock decodedAt builtAt e.2).map
      DetectedTag.addr).Nodup := by
  have hmap : (sc.seen.entries.map fun e => reported p sc.clock decodedAt builtAt e.2).map
      DetectedTag.addr = (sc.seen.entries.map fun e => e.2.addr).map (addrText p.upperHex) := by
    rw [List.map_map, List.map_map]
    rfl
  rw [hmap]
  exact (addr_nodup (storeInv_run h)).map fun addr addr' => addrText_inj p.upperHex

/-- On an undisturbed line an update has one entry for every device heard, with an accurate age, unless
the last report of the device was ten minutes old or the store was full of devices heard no earlier when
the frame was sent. -/
theorem updates_complete (h : (timed p cfg).Run trace s) (hline : Tracker.Undisturbed trace)
    {builtAt : Nat} {update : GatewayUpdate} {later before : List Tracker.Obs}
    (htrace : trace = later ++ .gateway builtAt (.built update) :: before) :
    ∃ sentAt decodedAt tags data connecting frames older,
      before = connecting ++ .decoded decodedAt tags ::
        (frames ++ .scanner (.frame sentAt tags data) :: older) ∧
      Tracker.SameWait (connecting ++ frames) ∧
      (update.detectedTags.toList.map DetectedTag.addr).Nodup ∧
      ∀ addr r, lastDequeued (older.filterMap Tracker.scannerObs) addr = some r →
        (∃ t ∈ update.detectedTags.toList, Aged p older sentAt decodedAt builtAt t r) ∨
        r.timestamp + scanInterval p.tickHz * 10 ≤ sentAt ∨
        Crowded (older.filterMap Tracker.scannerObs) addr r := by
  obtain ⟨location, decodedAt, sc, connecting, frames, older, hbefore, hwait, hsent, hbuilt, hsc,
    hupdate⟩ := update_origin h hline htrace
  have htags := update_tags hupdate
  refine ⟨sc.clock, decodedAt, _, _, connecting, frames, older, hbefore, hwait, ?_, ?_⟩
  · rw [htags]
    exact reported_addrs hsc decodedAt builtAt
  · intro addr r hlast
    have hinv := retentionInv_run hsc
    cases hinv.accounted addr r hlast with
    | inl hstored =>
      obtain ⟨e, he, hr⟩ := hstored
      refine .inl ⟨reported p sc.clock decodedAt builtAt e.2, ?_, ?_⟩
      · rw [htags]
        exact List.mem_map_of_mem he
      · rw [← hr]
        exact aged_stored hsc hsent hbuilt he
    | inr hgone =>
      cases hgone with
      | inl hexpired =>
        obtain ⟨t, ht, hle⟩ := hexpired
        exact .inr (.inl (hle.trans (hinv.cleanupPast t ht)))
      | inr hcrowded => exact .inr (.inr hcrowded)

/- A tag heard ten minutes after the start, five before its update begins and six before it is built. -/
def youngTag : TagReport := { demoTag with timestamp := 600 * 32768 }

def youngEvents : List Event :=
  [.tick (600 * 32768), .board (.scanner (.onAdvReports [some demoReport])),
    .board (.scanner .receiveTags), .board (.gateway .booted), .tick (300 * 32768),
    .board (.gateway .timer), .board (.gateway (.reading Updates.sampleReading)),
    .board (.scanner .sendScanData), .board (.write 4096), .board (.fillBuf (some 27)),
    .tick (60 * 32768), .board (.gateway (.linkUp true))]

def youngTags : TagsSeen :=
  snapshotTags demoPlatform (900 * 32768) ⟨[([0x11, 0x22, 0x33], youngTag)], by simp, by simp⟩

def youngBefore : List Tracker.Obs :=
  [.listening true, .gateway (900 * 32768) (.announced .readingUart (some .waiting)),
    .gateway (900 * 32768) (.read Updates.sampleReading),
    .gateway (900 * 32768) (.announced .gnssAcquisition (some .waiting)),
    .gateway (900 * 32768) (.started (900 * 32768)),
    .gateway (600 * 32768) (.announced .waiting none), .scanner (.dequeued youngTag)]

def youngTrace : List Tracker.Obs :=
  [.gateway (960 * 32768) (.announced .networkCommunication (some .waiting)),
    .gateway (900 * 32768) (.announced .waitingNetwork (some .waiting)),
    .decoded (900 * 32768) youngTags,
    .scanner (.frame (900 * 32768) youngTags (some (Wire.frame youngTags)))] ++ youngBefore

theorem youngRun : ∃ s update, (timed demoPlatform (Updates.sampleConfig .coap)).Run
    (.gateway (960 * 32768) (.built update) :: youngTrace) s :=
  ⟨_, _, Lib.Machine.run_of_exec youngEvents rfl⟩

theorem young_split {connecting frames older : List Tracker.Obs} {sentAt decodedAt : Nat}
    {tags tags' : TagsSeen} {data : Option (List UInt8)}
    (h : youngTrace = connecting ++ .decoded decodedAt tags ::
      (frames ++ .scanner (.frame sentAt tags' data) :: older)) :
    sentAt = 900 * 32768 ∧ older = youngBefore := by
  simp [youngTrace, youngBefore, List.cons_eq_append_iff, List.append_eq_cons_iff] at h
  obtain ⟨_, _, _, ⟨hsent, _⟩, holder⟩ := h
  exact ⟨hsent, holder⟩

/- The device is in the update: its report is five minutes old, and no other was heard. -/
theorem updates_complete_young : ∃ (s : Tracker.State) (update : GatewayUpdate),
    (timed demoPlatform (Updates.sampleConfig .coap)).Run
      (.gateway (960 * 32768) (.built update) :: youngTrace) s ∧
    ∃ decodedAt, ∃ t ∈ update.detectedTags.toList,
      Aged demoPlatform youngBefore (900 * 32768) decodedAt (960 * 32768) t youngTag := by
  obtain ⟨s, update, hrun⟩ := youngRun
  have hline : Tracker.Undisturbed (.gateway (960 * 32768) (.built update) :: youngTrace) := by
    simp [Tracker.Undisturbed, youngTrace, youngBefore]
  have htrace : Tracker.Obs.gateway (960 * 32768) (.built update) :: youngTrace =
      [] ++ .gateway (960 * 32768) (.built update) :: youngTrace := rfl
  obtain ⟨sentAt, decodedAt, tags, data, connecting, frames, older, hsplit, _, _, haccount⟩ :=
    updates_complete hrun hline htrace
  obtain ⟨hsent, holder⟩ := young_split hsplit
  rw [hsent, holder] at haccount
  have hlast : lastDequeued (youngBefore.filterMap Tracker.scannerObs) demoAddr = some youngTag :=
    lastDequeued_self youngTag []
  refine ⟨s, update, hrun, decodedAt, ?_⟩
  cases haccount demoAddr youngTag hlast with
  | inl hlisted => exact hlisted
  | inr hgone =>
    cases hgone with
    | inl hold => simp [youngTag, demoPlatform, scanInterval] at hold
    | inr hcrowded =>
      have hdevices := hcrowded.devices hlast
      have hone : (devices (youngBefore.filterMap Tracker.scannerObs)).card = 1 := rfl
      rw [hone] at hdevices
      simp [maxSeen] at hdevices

end AssetTracker.Link.Elapsed

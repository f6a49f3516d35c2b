import AssetTracker.Advertiser.Beacon
import AssetTracker.Scanner.Prefix
import AssetTracker.Scanner.StoreInvariant
import Mathlib.Logic.Function.Basic

/-! Tags in the air. Each tag device runs the advertiser on its own, under its own address; other devices
send what they like, under other addresses. A controller keeps what it hears and reports it in that order;
it may miss any of it. -/
namespace AssetTracker.Link.Air
open Bounded Scanner Advertiser

/-- The devices that run the advertiser, with their names, and how it is built. -/
structure Surroundings where
  platform : Platform
  checks : Bool
  tagName : BdAddr → Option (BString 17)

def devicesStep (w : Surroundings) (beacons : BdAddr → Beacon) (addr : BdAddr) (e : BeaconEvent) :
    Option ((BdAddr → Beacon) × List Advertised) :=
  match w.tagName addr with
  | none => some (beacons, [])
  | some name => do
    let (beacon, obs) ← beaconStep w.checks name.bytes (beacons addr) e
    pure (Function.update beacons addr beacon, obs)

/-- A tag can be heard with its data, or with the empty data it answers a scan with. -/
def audible (w : Surroundings) (beacons : BdAddr → Beacon) (report : LeAdvReport) : Bool :=
  match w.tagName report.addr with
  | some _ => report.data = [] ∨ (beacons report.addr).onAir = some report.data
  | none => true

def batch : List Bool → List LeAdvReport → List (Option LeAdvReport) :=
  List.zipWith fun readable report => if readable then some report else none

/-- What a report says of the device it is from, once it is read. -/
structure Sighting where
  addr : BdAddr
  ad : ParsedAdvertisement

def sighting (report : LeAdvReport) : Option Sighting :=
  (parseManufacturerData report.data).map (Sighting.mk report.addr)

def reported (r : TagReport) : Sighting := ⟨r.addr, ⟨r.name, r.sequence, r.channelNumber⟩⟩

theorem tagReport_sighting {tagPrefix : TagPrefix} {instant : Nat} {report : LeAdvReport}
    {r : TagReport} (h : tagReport tagPrefix instant report = some r) :
    sighting report = some (reported r) := by
  unfold tagReport at h
  split_ifs at h with hprefix
  obtain ⟨ad, had, h⟩ := Option.bind_eq_some_iff.mp h
  cases h
  simp [sighting, had, reported]

theorem batch_sublist (readable : List Bool) (pending : List LeAdvReport) :
    ((batch readable pending).filterMap id).Sublist (pending.take readable.length) := by
  induction readable generalizing pending with
  | nil => simp [batch]
  | cons r readable ih =>
    cases pending with
    | nil => simp [batch]
    | cons report pending =>
      have hrest := ih pending
      cases r with
      | false => simpa [batch] using hrest.cons report
      | true => simpa [batch] using hrest

/-- What the scanner reads of what a tag advertises is what the tag meant, if it reads it at all. -/
theorem parse_advData {name : BString 17} {payload : Advertiser.AdvertisementPayload}
    {data : List UInt8} {ad : ParsedAdvertisement} (hdata : advData name.bytes payload = .ok data)
    (hparse : parseManufacturerData data = some ad) : ad = advertisement name payload := by
  rw [advData_eq_ok name.bytes_length] at hdata
  cases hdata
  by_cases hname : name.str = ""
  · have hnil : name.bytes = [] := by
      rw [BString.bytes, hname]
      rfl
    rw [hnil] at hparse
    cases hparse
  · have haccepts : Accepts (structures (AdStructure.decode
        ((advStructures name.bytes payload).flatMap encode))) (advertisement name payload) := by
      rw [structures_decode (advStructures_wellFormed hname payload)]
      have hothers : ∀ a ∈ ([] : List AdStructure), Unrelated a := by simp
      exact accepts_of_perm hothers (by simp)
    rw [(parseManufacturerData_iff _ _).mpr haccepts] at hparse
    exact (Option.some.inj hparse).symm

/-- What is under way from a tag is what it has sent, in the order of the numbers. -/
structure Follows (addr : BdAddr) (name : BString 17) (sent : List Advertised)
    (line : List Sighting) : Prop where
  faithful : ∀ x ∈ line, x.addr = addr → ∃ a ∈ sent, x.ad = advertisement name a.payload
  ordered : sent.length ≤ 2 ^ 32 →
    line.Pairwise fun x y => x.addr = addr → y.addr = addr → x.ad.sequence ≤ y.ad.sequence

variable {w : Surroundings} {addr : BdAddr} {name : BString 17} {sent : List Advertised}
  {line : List Sighting}

theorem devicesStep_beacon (hname : w.tagName addr = some name) {beacons beacons' : BdAddr → Beacon}
    {addr' : BdAddr} {e : BeaconEvent} {obs : List Advertised}
    (h : devicesStep w beacons addr' e = some (beacons', obs)) :
    ∃ es, (beacon w.checks name.bytes).exec (beacons addr) es =
      some (beacons' addr, if addr' = addr then obs else []) := by
  by_cases haddr : addr' = addr
  · rw [haddr, devicesStep, hname] at h
    obtain ⟨r, hr, h⟩ := Option.bind_eq_some_iff.mp h
    cases h
    refine ⟨[e], Lib.Machine.exec_single ?_⟩
    simpa [Advertiser.beacon, haddr] using hr
  · refine ⟨[], ?_⟩
    unfold devicesStep at h
    cases hname' : w.tagName addr' with
    | none =>
      rw [hname'] at h
      cases h
      simp [haddr, Lib.Machine.exec]
    | some name' =>
      rw [hname'] at h
      obtain ⟨r, _, h⟩ := Option.bind_eq_some_iff.mp h
      cases h
      simp [haddr, Function.update_of_ne (Ne.symm haddr), Lib.Machine.exec]

theorem Follows.mono (h : Follows addr name sent line) {sent' : List Advertised}
    {line' : List Sighting} (hsent : sent <:+ sent') (hline : line'.Sublist line) :
    Follows addr name sent' line' where
  faithful := by
    intro x hx haddr
    obtain ⟨a, ha, hsame⟩ := h.faithful x (hline.subset hx) haddr
    exact ⟨a, hsent.subset ha, hsame⟩
  ordered := fun hcount => (h.ordered (hsent.length_le.trans hcount)).sublist hline

theorem sighting_last {beacons : BdAddr → Beacon} (hname : w.tagName addr = some name)
    (hrun : (beacon w.checks name.bytes).Run sent (beacons addr)) {report : LeAdvReport}
    (ha : audible w beacons report = true) {x : Sighting} (hx : sighting report = some x)
    (haddr : x.addr = addr) :
    ∃ a before, sent = a :: before ∧ x.ad = advertisement name a.payload := by
  obtain ⟨ad, hparse, hx⟩ := Option.map_eq_some_iff.mp hx
  have hreport : report.addr = addr := by rw [← haddr, ← hx]
  simp only [audible, hreport, hname, decide_eq_true_eq] at ha
  cases ha with
  | inl hempty =>
    rw [hempty] at hparse
    cases hparse
  | inr hair =>
    obtain ⟨a, before, hsent, hdata⟩ := onAir_run hrun _ hair
    refine ⟨a, before, hsent, ?_⟩
    rw [← hx]
    exact parse_advData hdata hparse

theorem Follows.heard {beacons : BdAddr → Beacon} (hname : w.tagName addr = some name)
    (hrun : (beacon w.checks name.bytes).Run sent (beacons addr)) (h : Follows addr name sent line)
    {report : LeAdvReport} (ha : audible w beacons report = true) :
    Follows addr name sent (line ++ (sighting report).toList) := by
  cases hx : sighting report with
  | none => simpa using h
  | some x =>
    refine ⟨?_, ?_⟩
    · intro y hy haddr
      cases List.mem_append.mp hy with
      | inl hold => exact h.faithful y hold haddr
      | inr hnew =>
        obtain rfl : y = x := by simpa using hnew
        obtain ⟨a, before, hsent, hsame⟩ := sighting_last hname hrun ha hx haddr
        exact ⟨a, by simp [hsent], hsame⟩
    · intro hcount
      rw [List.pairwise_append]
      refine ⟨h.ordered hcount, List.pairwise_singleton _ _, ?_⟩
      intro y hy x' hx' hyaddr hxaddr
      obtain rfl : x' = x := by simpa using hx'
      obtain ⟨a, before, hsent, hsame⟩ := sighting_last hname hrun ha hx hxaddr
      obtain ⟨b, hb, hysame⟩ := h.faithful y hy hyaddr
      rw [hsent] at hrun hb hcount
      rw [hsame, hysame]
      exact sequence_le_last hrun hcount hb

/- A tag named "Cow" under the address CC:DD:EE:33:22:11. -/
def cow : BString 17 := ⟨"Cow", by decide⟩

def pasture : Surroundings :=
  ⟨demoPlatform, true, fun addr => if addr = demoAddr then some cow else none⟩

def demoHeard (sequence channelNumber : UInt8) : LeAdvReport :=
  ⟨demoAddr, -70, [2, 1, 6, 4, 9, 0x43, 0x6F, 0x77, 8, 0xFF, 0xFF, 0xFF, 0, 0, 0, sequence,
    channelNumber]⟩

end AssetTracker.Link.Air

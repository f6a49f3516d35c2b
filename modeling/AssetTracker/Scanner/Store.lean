import AssetTracker.Clock
import AssetTracker.Scanner.Advertisement
import Mathlib.Tactic.Linarith

/-! The scanner's tag store: reports enter the queue in the BLE callback, are dequeued into a map keyed
on half of their address, and leave it when they are old or when the map is full. -/
namespace AssetTracker.Scanner
open Bounded

/-- Least significant byte first. -/
structure BdAddr where
  bytes : List UInt8
  length_bytes : bytes.length = 6
deriving DecidableEq

structure TagPrefix where
  bytes : List UInt8
  length_bytes : bytes.length = 3

/-- What the firmware takes from its platform and configuration: the tick rate of the clock, the
address filter (already reversed) and the case of the hex digits that addresses are printed with. -/
structure Platform where
  tickHz : Nat
  tagPrefix : TagPrefix
  upperHex : Bool

structure LeAdvReport where
  addr : BdAddr
  rssi : Int8
  data : List UInt8

structure TagReport where
  addr : BdAddr
  name : BString tagNameMaxLen
  timestamp : Nat
  rssi : Int8
  sequence : UInt32
  channelNumber : UInt8
deriving DecidableEq

abbrev channelCapacity : Nat := 32

abbrev Queue := BVec TagReport channelCapacity

/-- A full channel refuses the report, which is then dropped. -/
def trySend (q : Queue) (r : TagReport) : Queue := (q.extendFromSlice [r]).getD q

/-- What the callback queues for a report: nothing when the address has another prefix (a suffix of
the address as it is stored) or the data is not in the expected format. -/
def tagReport (tagPrefix : TagPrefix) (instant : Nat) (report : LeAdvReport) : Option TagReport :=
  if tagPrefix.bytes.isSuffixOf report.addr.bytes then do
    let ad ← parseManufacturerData report.data
    pure { addr := report.addr, name := ad.name, timestamp := instant, rssi := report.rssi,
           sequence := ad.sequence, channelNumber := ad.channelNumber }
  else none

/-- The batch is abandoned at the first item that cannot be read (`none`). -/
def onAdvReports (tagPrefix : TagPrefix) (instant : Nat) : List (Option LeAdvReport) → Queue → Queue
  | [], q => q
  | none :: _, q => q
  | some report :: it, q =>
    match tagReport tagPrefix instant report with
    | some r => onAdvReports tagPrefix instant it (trySend q r)
    | none => onAdvReports tagPrefix instant it q

/-- The reports before the first item that cannot be read. -/
def readReports : List (Option LeAdvReport) → List LeAdvReport
  | [] => []
  | none :: _ => []
  | some report :: it => report :: readReports it

abbrev TagStorageMap := IndexMap (List UInt8) TagReport maxSeen

def scanInterval (tickHz : Nat) : Nat := 60 * tickHz

def removeOldEntries (tickHz now : Nat) (seen : TagStorageMap) : Option TagStorageMap :=
  seen.tryRetain fun _ tag =>
    (durationSince now tag.timestamp).map fun d => decide (d < scanInterval tickHz * 10)

def removeOldestEntry (seen : TagStorageMap) : TagStorageMap :=
  match seen.minByKey TagReport.timestamp with
  | some (oldestKey, _) => seen.remove oldestKey
  | none => seen

def tagKey (addr : BdAddr) : List UInt8 := addr.bytes.take 3

/-- Room for the dequeued report: the oldest entry goes when its key is new and the map is full. -/
def makeRoom (seen : TagStorageMap) (key : List UInt8) : TagStorageMap :=
  if seen.isFull && !seen.containsKey key then removeOldestEntry seen else seen

/-- The body of the loop of `receive_tags`; a failed insertion is reported and leaves the map. -/
def receiveTag (value : TagReport) (seen : TagStorageMap) :
    TagStorageMap × Option (List UInt8 × TagReport) :=
  let key := tagKey value.addr
  let seen := makeRoom seen key
  match seen.insert key value with
  | .ok seen => (seen, none)
  | .error e => (seen, some e)

theorem addr_eq_of_key {tagPrefix : TagPrefix} {a b : BdAddr}
    (ha : tagPrefix.bytes <:+ a.bytes) (hb : tagPrefix.bytes <:+ b.bytes)
    (h : tagKey a = tagKey b) : a = b := by
  obtain ⟨u, hu⟩ := ha
  obtain ⟨v, hv⟩ := hb
  have hlu : u.length = 3 := by
    have hl := congrArg List.length hu
    simp only [List.length_append, tagPrefix.length_bytes, a.length_bytes] at hl
    omega
  have hlv : v.length = 3 := by
    have hl := congrArg List.length hv
    simp only [List.length_append, tagPrefix.length_bytes, b.length_bytes] at hl
    omega
  have huv : u = v := by
    rw [tagKey, tagKey, ← hu, ← hv, List.take_left' hlu, List.take_left' hlv] at h
    exact h
  have hbytes : a.bytes = b.bytes := by rw [← hu, ← hv, huv]
  cases a
  cases b
  simpa using hbytes

theorem suffix_drop {tagPrefix : TagPrefix} {a : BdAddr} (h : tagPrefix.bytes <:+ a.bytes) :
    a.bytes.drop 3 = tagPrefix.bytes := by
  obtain ⟨u, hu⟩ := h
  have hl := congrArg List.length hu
  simp only [List.length_append, tagPrefix.length_bytes, a.length_bytes] at hl
  rw [← hu, List.drop_left' (by omega)]

theorem trySend_toList (q : Queue) (r : TagReport) :
    (trySend q r).toList = (q.toList ++ [r]).take channelCapacity := by
  by_cases h : (q.toList ++ [r]).length ≤ channelCapacity
  · rw [List.take_of_length_le h]
    simp only [trySend, BVec.extendFromSlice, dif_pos h, Option.getD_some]
  · have hfull : q.toList.length = channelCapacity := by
      have hfits := q.fits
      rw [List.length_append, List.length_singleton] at h
      omega
    rw [List.take_left' hfull]
    simp only [trySend, BVec.extendFromSlice, dif_neg h, Option.getD_none]

theorem trySend_cases (q : Queue) (r : TagReport) :
    (trySend q r).toList = q.toList ++ [r] ∨ (trySend q r).toList = q.toList := by
  have hfits := q.fits
  rw [trySend_toList]
  by_cases h : q.toList.length = channelCapacity
  · exact .inr (List.take_left' h)
  · left
    refine List.take_of_length_le ?_
    rw [List.length_append, List.length_singleton]
    omega

theorem tagReport_eq_some {tagPrefix : TagPrefix} {instant : Nat} {report : LeAdvReport}
    {r : TagReport} (h : tagReport tagPrefix instant report = some r) :
    r.timestamp = instant ∧ tagPrefix.bytes <:+ r.addr.bytes := by
  by_cases hs : tagPrefix.bytes.isSuffixOf report.addr.bytes
  · simp only [tagReport, if_pos hs, Option.bind_eq_bind, Option.bind_eq_some_iff, Option.pure_def,
      Option.some.injEq] at h
    obtain ⟨ad, -, rfl⟩ := h
    exact ⟨rfl, List.isSuffixOf_iff_suffix.mp hs⟩
  · simp [tagReport, hs] at h

theorem take_append_take {α : Type*} (n : Nat) (l l' : List α) :
    (l.take n ++ l').take n = (l ++ l').take n := by
  by_cases h : l.length ≤ n
  · rw [List.take_of_length_le h]
  · have hlen : (l.take n).length = n := List.length_take_of_le (by omega)
    rw [List.take_left' hlen, List.take_append_of_le_length (by omega)]

/-- A batch queues what it has to queue, in its order, as far as there is room. -/
theorem onAdvReports_toList (tagPrefix : TagPrefix) (instant : Nat)
    (it : List (Option LeAdvReport)) (q : Queue) :
    (onAdvReports tagPrefix instant it q).toList =
      (q.toList ++ (readReports it).filterMap (tagReport tagPrefix instant)).take
        channelCapacity := by
  have hfits : q.toList.take channelCapacity = q.toList := List.take_of_length_le q.fits
  induction it generalizing q with
  | nil => simp only [onAdvReports, readReports, List.filterMap_nil, List.append_nil, hfits]
  | cons item it ih =>
    cases item with
    | none => simp only [onAdvReports, readReports, List.filterMap_nil, List.append_nil, hfits]
    | some report =>
      cases hr : tagReport tagPrefix instant report with
      | none =>
        rw [onAdvReports, hr, readReports, List.filterMap_cons_none hr]
        exact ih q hfits
      | some r =>
        rw [onAdvReports, hr, readReports, List.filterMap_cons_some hr]
        dsimp only
        rw [ih (trySend q r) (List.take_of_length_le (trySend q r).fits), trySend_toList,
          take_append_take, List.append_assoc]
        rfl

theorem onAdvReports_append (tagPrefix : TagPrefix) (instant : Nat) (it : List (Option LeAdvReport))
    (q : Queue) : ∃ added, (onAdvReports tagPrefix instant it q).toList = q.toList ++ added ∧
      added.Sublist ((readReports it).filterMap (tagReport tagPrefix instant)) := by
  refine ⟨_, ?_, List.take_sublist (channelCapacity - q.toList.length) _⟩
  rw [onAdvReports_toList, List.take_append, List.take_of_length_le q.fits]

theorem onAdvReports_passed {tagPrefix : TagPrefix} {instant : Nat}
    {it : List (Option LeAdvReport)} {added : List TagReport}
    (h : added.Sublist ((readReports it).filterMap (tagReport tagPrefix instant))) :
    ∀ r ∈ added, r.timestamp = instant ∧ tagPrefix.bytes <:+ r.addr.bytes := by
  intro r hr
  obtain ⟨report, _, hreport⟩ := List.mem_filterMap.mp (h.subset hr)
  exact tagReport_eq_some hreport

theorem removeOldEntries_eq_some {tickHz now : Nat} {seen : TagStorageMap}
    (h : ∀ e ∈ seen.entries, e.2.timestamp ≤ now) :
    removeOldEntries tickHz now seen = some (seen.retain fun _ tag =>
      decide (now - tag.timestamp < scanInterval tickHz * 10)) := by
  apply IndexMap.tryRetain_eq_some
  intro e he
  rw [durationSince_eq_some (h e he), Option.map_some]

theorem makeRoom_cases (seen : TagStorageMap) (key : List UInt8) :
    (makeRoom seen key = seen ∧ (seen.containsKey key = true ∨ seen.entries.length < maxSeen)) ∨
    (∃ oldest ∈ seen.entries, seen.entries.length = maxSeen ∧ ¬ seen.containsKey key = true ∧
      (∀ e ∈ seen.entries, oldest.2.timestamp ≤ e.2.timestamp) ∧
      makeRoom seen key = seen.remove oldest.1 ∧
      (makeRoom seen key).entries.length < maxSeen) := by
  by_cases hk : seen.containsKey key = true
  · exact Or.inl ⟨by simp [makeRoom, hk], Or.inl hk⟩
  · by_cases hf : seen.entries.length = maxSeen
    · right
      have hne : seen.entries ≠ [] := by
        intro he
        simp [he] at hf
      obtain ⟨oldest, ho⟩ := IndexMap.minByKey_isSome TagReport.timestamp hne
      obtain ⟨hmem, hleast⟩ := IndexMap.minByKey_least ho
      have hroom : makeRoom seen key = seen.remove oldest.1 := by
        simp [makeRoom, IndexMap.isFull, hf, hk, removeOldestEntry, ho]
      have hlen := seen.length_remove (k := oldest.1) (v := oldest.2) hmem
      refine ⟨oldest, hmem, hf, hk, hleast, hroom, ?_⟩
      rw [hroom]
      omega
    · have hlt : seen.entries.length < maxSeen := Nat.lt_of_le_of_ne seen.fits hf
      exact Or.inl ⟨by simp [makeRoom, IndexMap.isFull, hf], Or.inr hlt⟩

theorem makeRoom_subset {seen : TagStorageMap} {key : List UInt8} {e : List UInt8 × TagReport}
    (h : e ∈ (makeRoom seen key).entries) : e ∈ seen.entries := by
  cases makeRoom_cases seen key with
  | inl hsame => rwa [hsame.1] at h
  | inr hevict =>
    obtain ⟨oldest, -, -, -, -, he, -⟩ := hevict
    rw [he, IndexMap.mem_remove] at h
    exact h.1

theorem makeRoom_room (seen : TagStorageMap) (key : List UInt8) :
    (makeRoom seen key).containsKey key = true ∨ (makeRoom seen key).entries.length < maxSeen := by
  cases makeRoom_cases seen key with
  | inl hsame => rw [hsame.1]; exact hsame.2
  | inr hevict =>
    obtain ⟨oldest, -, -, -, -, -, hr⟩ := hevict
    exact Or.inr hr

/-- The insertion never fails: the report is in the map under its key, next to what was left. -/
theorem receiveTag_spec (value : TagReport) (seen : TagStorageMap) :
    (receiveTag value seen).2 = none ∧
    ∀ e, e ∈ (receiveTag value seen).1.entries ↔
      e = (tagKey value.addr, value) ∨
      (e ∈ (makeRoom seen (tagKey value.addr)).entries ∧ e.1 ≠ tagKey value.addr) := by
  obtain ⟨m, hm, hmem⟩ := IndexMap.insert_ok _ (tagKey value.addr) value
    (makeRoom_room seen (tagKey value.addr))
  simp only [receiveTag, hm]
  exact ⟨trivial, hmem⟩

end AssetTracker.Scanner

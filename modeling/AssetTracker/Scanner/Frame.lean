import AssetTracker.Scanner.Store
import AssetTracker.Wire
import Mathlib.Data.String.Basic
import Mathlib.Tactic.IntervalCases

/-! What `send_scan_data` puts in a frame: one tag for every stored report, with the address printed
most significant byte first and the age in whole seconds, saturated. -/
namespace AssetTracker.Scanner
open Bounded Wire

def hexDigit (upper : Bool) (d : Nat) : Char :=
  (if upper then "0123456789ABCDEF" else "0123456789abcdef").toList.getD d '0'

def hexByte (upper : Bool) (b : UInt8) : List Char :=
  [hexDigit upper (b.toNat / 16), hexDigit upper (b.toNat % 16)]

/-- `Display` of `Eui48`: two digits a byte, colons between. -/
def eui48Text (upper : Bool) (bytes : List UInt8) : String :=
  String.ofList (List.intercalate [':'] (bytes.map (hexByte upper)))

def encodeError : BString addrStringLen := ⟨"encode error", by decide⟩

/-- The address text of a report, most significant byte first. -/
def addrText (upper : Bool) (addr : BdAddr) : BString addrStringLen :=
  (BString.ofString (eui48Text upper addr.bytes.reverse)).getD encodeError

def detectedTag (p : Platform) (now : Nat) (report : TagReport) : Option DetectedTag := do
  let age ← ageSecs p.tickHz now report.timestamp
  pure { addr := addrText p.upperHex report.addr, name := report.name, age := age,
         rssi := report.rssi, sequence := report.sequence }

def tagsSeen (p : Platform) (now : Nat) (seen : TagStorageMap) : Option TagsSeen := do
  let tags ← seen.entries.mapM fun e => detectedTag p now e.2
  let tags ← BVec.fromSlice tags
  pure ⟨tags⟩

abbrev serializeBuffer : Nat := 4096

/-- One round of `send_scan_data`: the tags, and the bytes written, or `none` when they do not fit. -/
def sendScanData (p : Platform) (now : Nat) (seen : TagStorageMap) :
    Option (TagsSeen × Option (List UInt8)) := do
  let t ← tagsSeen p now seen
  pure (t, serializeWithFlavor serializeBuffer t)

def tagOf (p : Platform) (now : Nat) (report : TagReport) : DetectedTag where
  addr := addrText p.upperHex report.addr
  name := report.name
  age := saturatedSecs ((now - report.timestamp) / p.tickHz)
  rssi := report.rssi
  sequence := report.sequence

theorem hexDigit_utf8Size (upper : Bool) (d : Nat) (h : d < 16) :
    (hexDigit upper d).utf8Size = 1 := by
  cases upper <;> interval_cases d <;> decide

theorem hexByte_utf8Len (upper : Bool) (b : UInt8) : String.utf8Len (hexByte upper b) = 2 := by
  have h1 := hexDigit_utf8Size upper (b.toNat / 16) (by have hb := b.toNat_lt; omega)
  have h2 := hexDigit_utf8Size upper (b.toNat % 16) (by omega)
  simp [hexByte, h1, h2]

theorem eui48Text_size (upper : Bool) {bytes : List UInt8} (h : bytes.length = 6) :
    (eui48Text upper bytes).utf8ByteSize = addrStringLen := by
  match bytes, h with
  | [a, b, c, d, e, f], _ =>
    have hcolon : ":".utf8ByteSize = 1 := by decide
    simp [eui48Text, List.intercalate, List.intersperse, String.utf8ByteSize_ofList,
      hexByte_utf8Len, hcolon]

/-- Every address text fits, so the placeholder is never sent. -/
theorem addrText_str (upper : Bool) (addr : BdAddr) :
    (addrText upper addr).str = eui48Text upper addr.bytes.reverse := by
  have hlen : addr.bytes.reverse.length = 6 := by simpa using addr.length_bytes
  have h := eui48Text_size upper hlen
  rw [addrText, BString.ofString_eq_some h.le, Option.getD_some]

theorem detectedTag_eq_some {p : Platform} {now : Nat} {report : TagReport}
    (h : report.timestamp ≤ now) : detectedTag p now report = some (tagOf p now report) := by
  simp [detectedTag, ageSecs_eq_some h, tagOf]

def snapshotTags (p : Platform) (now : Nat) (seen : TagStorageMap) : TagsSeen :=
  ⟨⟨seen.entries.map fun e => tagOf p now e.2, by simpa using seen.fits⟩⟩

theorem mem_snapshotTags (p : Platform) (now : Nat) {seen : TagStorageMap}
    {e : List UInt8 × TagReport} (h : e ∈ seen.entries) :
    tagOf p now e.2 ∈ (snapshotTags p now seen).tags.toList :=
  List.mem_map.mpr ⟨e, h, rfl⟩

/-- No stored report is in the future, so every age is computed and the frame fits its buffer. -/
theorem sendScanData_eq_some {p : Platform} {now : Nat} {seen : TagStorageMap}
    (h : ∀ e ∈ seen.entries, e.2.timestamp ≤ now) :
    sendScanData p now seen =
      some (snapshotTags p now seen, some (frame (snapshotTags p now seen))) := by
  have hl : (seen.entries.map fun e => tagOf p now e.2).length ≤ maxSeen := by
    simpa using seen.fits
  have hm : (seen.entries.mapM fun e => detectedTag p now e.2) =
      some (seen.entries.map fun e => tagOf p now e.2) :=
    mapM_eq_some fun e he => detectedTag_eq_some (h e he)
  have ht : tagsSeen p now seen = some (snapshotTags p now seen) := by
    simp [tagsSeen, hm, BVec.fromSlice_eq_some hl, snapshotTags]
  have hs := serializeWithFlavor_eq_some (show 3219 ≤ serializeBuffer by decide)
    (snapshotTags p now seen)
  simp [sendScanData, ht, hs]

end AssetTracker.Scanner

import AssetTracker.CommonTypes
import AssetTracker.Lib.Codec
import AssetTracker.Lib.Cobs

/-! The UART format shared by scanner and gateway: postcard's varints and length prefixes, fields in
declaration order, COBS around them and a 0x00 behind. `usize` is 32 bits on both chips. -/
namespace AssetTracker.Wire
open Lib Bounded

def usize : Codec (Fin ((15 + 1) * 128 ^ 4)) := Codec.varint 4 15 (by decide)

def u16 : Codec UInt16 :=
  (Codec.varint 2 3 (by decide)).convert (fun v => ⟨v.toNat, v.toNat_lt⟩)
    (fun v => some (UInt16.ofNat v)) (by simp)

def u32 : Codec UInt32 :=
  usize.convert (fun v => ⟨v.toNat, v.toNat_lt⟩) (fun v => some (UInt32.ofNat v)) (by simp)

def i8 : Codec Int8 := Codec.byte.convert Int8.toUInt8 (fun b => some b.toInt8) (by simp)

def detectedTag : Codec DetectedTag :=
  ((Codec.text usize (by decide)).pair ((Codec.text usize (by decide)).pair
    (u16.pair (i8.pair u32)))).convert
    (fun t => (t.addr, t.name, t.age, t.rssi, t.sequence))
    (fun (addr, name, age, rssi, sequence) => some ⟨addr, name, age, rssi, sequence⟩)
    (fun _ => rfl)

def tagsSeen : Codec TagsSeen :=
  (Codec.bvec usize detectedTag (by decide)).convert TagsSeen.tags (fun v => some ⟨v⟩) (fun _ => rfl)

theorem usize_within : usize.Within 5 := Codec.varint_within _

theorem detectedTag_within :
    detectedTag.Within ((5 + addrStringLen * 1) + ((5 + tagNameMaxLen * 1) + (3 + (1 + 5)))) :=
  Codec.convert_within (Codec.pair_within (Codec.text_within usize_within)
    (Codec.pair_within (Codec.text_within usize_within)
      (Codec.pair_within (Codec.convert_within (Codec.varint_within _))
        (Codec.pair_within (Codec.convert_within Codec.byte_within)
          (Codec.convert_within usize_within)))))

theorem tagsSeen_within : tagsSeen.Within 3205 :=
  Codec.convert_within (Codec.bvec_within usize_within detectedTag_within)

/-- A frame without its terminator. -/
def body (t : TagsSeen) : List UInt8 := Cobs.encode (tagsSeen.encode t)

/-- Everything a frame puts on the line. -/
def frame (t : TagsSeen) : List UInt8 := body t ++ [0]

/-- Serialisation into a buffer of the given size; it fails when the frame does not fit. -/
def serializeWithFlavor (buffer : Nat) (t : TagsSeen) : Option (List UInt8) :=
  if (frame t).length ≤ buffer then some (frame t) else none

/-- COBS decoding, then the fields; bytes behind the last field are ignored. -/
def fromBytesCobs (packet : List UInt8) : Option TagsSeen := do
  let bytes ← Cobs.decode packet
  let (t, _) ← tagsSeen.decode bytes
  pure t

theorem zero_not_mem_body (t : TagsSeen) : 0 ∉ body t := Cobs.zero_not_mem_encode _

theorem body_length_le (t : TagsSeen) : (body t).length ≤ 3218 := by
  have h1 := tagsSeen_within t
  have h2 := Cobs.length_encode (tagsSeen.encode t)
  rw [body]
  omega

theorem frame_length_le (t : TagsSeen) : (frame t).length ≤ 3219 := by
  have h := body_length_le t
  simp only [frame, List.length_append, List.length_singleton]
  omega

theorem serializeWithFlavor_eq_some {buffer : Nat} (h : 3219 ≤ buffer) (t : TagsSeen) :
    serializeWithFlavor buffer t = some (frame t) :=
  if_pos ((frame_length_le t).trans h)

/-- The gateway's decoder inverts the scanner's encoder. -/
theorem fromBytesCobs_body (t : TagsSeen) : fromBytesCobs (body t) = some t := by
  have h := tagsSeen.decode_encode t []
  simp only [List.append_nil] at h
  simp [fromBytesCobs, body, Cobs.decode_encode, h]

end AssetTracker.Wire

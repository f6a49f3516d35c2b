import AssetTracker.CommonTypes

/-! Advertising data: the AD structures `trouble_host` reads out of a report, and the fields that
`ScanEventHandler::parse_manufacturer_data` takes from them. -/
namespace AssetTracker.Scanner
open Bounded

/-- Structures of any other type are read and ignored. -/
inductive AdStructure where
  | completeLocalName (data : List UInt8)
  | manufacturerSpecificData (companyIdentifier : Nat) (payload : List UInt8)
  | other (ty : UInt8) (data : List UInt8)
deriving DecidableEq

inductive CodecError where
  | invalidValue
  | insufficientSpace
deriving DecidableEq

def AdStructure.ofData (ty : UInt8) (data : List UInt8) : AdStructure :=
  if ty = 0x09 then .completeLocalName data
  else if ty = 0xFF then
    match data with
    | lo :: hi :: payload => .manufacturerSpecificData (lo.toNat + 256 * hi.toNat) payload
    | _ => .other ty data
  else .other ty data

/-- One item of the iterator and the bytes it leaves. A bad length byte is consumed alone, a
truncated structure loses its length and type bytes only. -/
def AdStructure.read : List UInt8 → Except CodecError AdStructure × List UInt8
  | [] => (.error .insufficientSpace, [])
  | len :: rest =>
    if len < 2 then (.error .invalidValue, rest)
    else
      match rest with
      | [] => (.error .insufficientSpace, [])
      | ty :: rest =>
        if rest.length < len.toNat - 1 then (.error .insufficientSpace, rest)
        else (.ok (.ofData ty (rest.take (len.toNat - 1))), rest.drop (len.toNat - 1))

/-- At most `fuel` items; every item consumes at least its length byte. -/
def AdStructure.items : Nat → List UInt8 → List (Except CodecError AdStructure)
  | 0, _ => []
  | _ + 1, [] => []
  | fuel + 1, len :: rest =>
    let (item, rest') := AdStructure.read (len :: rest)
    item :: AdStructure.items fuel rest'

def AdStructure.decode (data : List UInt8) : List (Except CodecError AdStructure) :=
  AdStructure.items data.length data

structure ParsedAdvertisement where
  name : BString tagNameMaxLen
  sequence : UInt32
  channelNumber : UInt8
deriving DecidableEq

structure ParseState where
  sequence : Option UInt32
  name : Option (BString tagNameMaxLen)
  channelNumber : Option UInt8

def u32FromBeBytes (a b c d : UInt8) : UInt32 :=
  UInt32.ofNat (((a.toNat * 256 + b.toNat) * 256 + c.toNat) * 256 + d.toNat)

/-- One turn of the loop; `none` is the early return. -/
def parseItem (s : ParseState) : Except CodecError AdStructure → Option ParseState
  | .ok (.manufacturerSpecificData companyIdentifier payload) =>
    if companyIdentifier ≠ 0xffff then none
    else
      match payload with
      | a :: b :: c :: d :: channel :: _ =>
        some { s with sequence := some (u32FromBeBytes a b c d), channelNumber := some channel }
      | _ => none
  | .ok (.completeLocalName data) =>
    if data.length ≤ tagNameMaxLen then some { s with name := BString.ofBytes data } else none
  | .ok (.other _ _) => some s
  | .error _ => some s

def parseItems (s : ParseState) : List (Except CodecError AdStructure) → Option ParseState
  | [] => some s
  | item :: items => do
    let s ← parseItem s item
    parseItems s items

def parseManufacturerData (data : List UInt8) : Option ParsedAdvertisement := do
  let s ← parseItems ⟨none, none, none⟩ (AdStructure.decode data)
  let name ← s.name
  let sequence ← s.sequence
  let channelNumber ← s.channelNumber
  pure ⟨name, sequence, channelNumber⟩

end AssetTracker.Scanner

import AssetTracker.Lib.Bounded
import Mathlib.Data.Rat.Init
import Mathlib.Data.Rat.Defs

/-! The types the three chips exchange, as `common-types` defines them for the firmware. A name, an
address text or a tag list longer than its bound cannot be built. -/
namespace AssetTracker
open Bounded

abbrev maxSeen : Nat := 32
abbrev tagNameMaxLen : Nat := 64
/- 6 bytes of two characters and 5 colons. -/
abbrev addrStringLen : Nat := 6 * 2 + 5

structure DetectedTag where
  addr : BString addrStringLen
  name : BString tagNameMaxLen
  age : UInt16
  rssi : Int8
  sequence : UInt32
deriving DecidableEq

structure TagsSeen where
  tags : BVec DetectedTag maxSeen
deriving DecidableEq

/-- A 32-bit float: a finite one stands for the exact number it denotes. -/
inductive F32 where
  | finite (value : ℚ)
  | infinite (negative : Bool)
  | nan
deriving DecidableEq

structure Location where
  latitude : F32
  longitude : F32
  altitude : F32
  heading : F32
  horizontalSpeed : F32
  verticalSpeed : F32
  timeOfFix : UInt64
deriving DecidableEq

structure GatewayUpdate where
  gatewayId : BString tagNameMaxLen
  timestamp : UInt64
  detectedTags : BVec DetectedTag maxSeen
  batteryLevel : Option UInt8
  location : Option Location
deriving DecidableEq

structure AdvertisementPayload where
  timestamp : Nat
  snifferId : BString tagNameMaxLen
  mac : BString addrStringLen
  name : BString tagNameMaxLen
  rssi : Int8
  rawRssi : Int8
  sequence : UInt32
  advType : BString tagNameMaxLen
  channel : UInt8
deriving DecidableEq

end AssetTracker

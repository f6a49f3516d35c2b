import AssetTracker.CommonTypes
import Mathlib.Data.List.DropRight

/-! The way of an update over CoAP: the gateway writes every struct as a CBOR array by field index, and
the proxy restores names from positions. -/
namespace AssetTracker.Proxy
open Bounded

/-- CBOR data items, as far as the firmware writes them. -/
inductive Cbor where
  | null
  | int (value : ℤ)
  | float (value : F32)
  | text (value : String)
  | array (items : List Cbor)

/-- A derived array: absent fields at the end are left out, others are written as null. -/
def deriveArray (fields : List (Option Cbor)) : Cbor :=
  .array ((fields.rdropWhile Option.isNone).map fun field => field.getD .null)

def encodeLocation (l : Location) : Cbor :=
  deriveArray [some (.float l.latitude), some (.float l.longitude), some (.float l.altitude),
    some (.float l.heading), some (.float l.horizontalSpeed), some (.float l.verticalSpeed),
    some (.int l.timeOfFix.toNat)]

def encodeDetectedTag (t : DetectedTag) : Cbor :=
  deriveArray [some (.text t.addr.str), some (.text t.name.str), some (.int t.age.toNat),
    some (.int t.rssi.toInt), some (.int t.sequence.toNat)]

def encodeGatewayUpdate (u : GatewayUpdate) : Cbor :=
  deriveArray [some (.text u.gatewayId.str), some (.int u.timestamp.toNat),
    some (.array (u.detectedTags.toList.map encodeDetectedTag)),
    u.batteryLevel.map fun level => .int level.toNat, u.location.map encodeLocation]

inductive PyValue where
  | none
  | int (value : ℤ)
  | float (value : F32)
  | str (value : String)
  | list (items : List PyValue)
  | dict (items : List (String × PyValue))

inductive PyError where
  | indexError
  | keyError
  | typeError

mutual

/-- `cbor2.loads`: arrays become lists, null becomes None. -/
def loads : Cbor → PyValue
  | .null => .none
  | .int value => .int value
  | .float value => .float value
  | .text value => .str value
  | .array items => .list (loadsItems items)

def loadsItems : List Cbor → List PyValue
  | [] => []
  | item :: items => loads item :: loadsItems items

end

namespace PyValue

/-- `v[i]`. -/
def getItem : PyValue → Nat → Except PyError PyValue
  | .list items, i => (items[i]?).elim (.error .indexError) .ok
  | .str value, i => (value.toList[i]?).elim (.error .indexError) fun c => .ok (.str c.toString)
  | .dict _, _ => .error .keyError
  | _, _ => .error .typeError

/-- `len(v)`. -/
def len : PyValue → Except PyError Nat
  | .list items => .ok items.length
  | .str value => .ok value.length
  | .dict items => .ok items.length
  | _ => .error .typeError

/-- What `for x in v` runs through. -/
def iter : PyValue → Except PyError (List PyValue)
  | .list items => .ok items
  | .str value => .ok (value.toList.map fun c => .str c.toString)
  | .dict items => .ok (items.map fun item => .str item.1)
  | _ => .error .typeError

end PyValue
open PyValue

def convertDetectedTag (tagCbor : PyValue) : Except PyError PyValue := do
  let id ← tagCbor.getItem 0
  let age ← tagCbor.getItem 2
  let rssi ← tagCbor.getItem 3
  pure (.dict [("id", id), ("age", age), ("rssi", rssi)])

def convertDetectedTags (cbor : PyValue) : Except PyError PyValue := do
  let tags ← cbor.iter
  let out ← tags.mapM convertDetectedTag
  pure (.list out)

def convertLocation (cbor : PyValue) : Except PyError PyValue := do
  let latitude ← cbor.getItem 0
  let longitude ← cbor.getItem 1
  let altitude ← cbor.getItem 2
  let heading ← cbor.getItem 3
  let horizontalSpeed ← cbor.getItem 4
  let verticalSpeed ← cbor.getItem 5
  let timeOfFix ← cbor.getItem 6
  pure (.dict [("latitude", latitude), ("longitude", longitude), ("altitude", altitude),
    ("heading", heading), ("horizontalSpeed", horizontalSpeed), ("verticalSpeed", verticalSpeed),
    ("timeOfFix", timeOfFix)])

def convertGatewayUpdate (cbor : PyValue) : Except PyError PyValue := do
  let gatewayId ← cbor.getItem 0
  let timestamp ← cbor.getItem 1
  let detectedTags ← convertDetectedTags (← cbor.getItem 2)
  let batteryLevel ← if 4 ≤ (← cbor.len) then cbor.getItem 3 else pure .none
  let location ← if 5 ≤ (← cbor.len) then convertLocation (← cbor.getItem 4) else pure .none
  pure (.dict [("gatewayId", gatewayId), ("timestamp", timestamp), ("detected_tags", detectedTags),
    ("batteryLevel", batteryLevel), ("location", location)])

/-- What the proxy should make of a tag. -/
def tagDict (t : DetectedTag) : PyValue :=
  .dict [("id", .str t.addr.str), ("age", .int t.age.toNat), ("rssi", .int t.rssi.toInt)]

def locationDict (l : Location) : PyValue :=
  .dict [("latitude", .float l.latitude), ("longitude", .float l.longitude),
    ("altitude", .float l.altitude), ("heading", .float l.heading),
    ("horizontalSpeed", .float l.horizontalSpeed), ("verticalSpeed", .float l.verticalSpeed),
    ("timeOfFix", .int l.timeOfFix.toNat)]

theorem convertDetectedTag_loads (t : DetectedTag) :
    convertDetectedTag (loads (encodeDetectedTag t)) = .ok (tagDict t) := rfl

theorem convertLocation_loads (l : Location) :
    convertLocation (loads (encodeLocation l)) = .ok (locationDict l) := rfl

theorem loadsItems_eq_map (items : List Cbor) : loadsItems items = items.map loads := by
  induction items with
  | nil => rfl
  | cons item items ih => rw [loadsItems, List.map_cons, ih]

theorem convertDetectedTags_loads (tags : List DetectedTag) :
    convertDetectedTags (loads (.array (tags.map encodeDetectedTag))) =
      .ok (.list (tags.map tagDict)) := by
  have hm : (loadsItems (tags.map encodeDetectedTag)).mapM convertDetectedTag =
      .ok (tags.map tagDict) := by
    have hf : (convertDetectedTag ∘ loads) ∘ encodeDetectedTag = fun t => .ok (tagDict t) :=
      funext convertDetectedTag_loads
    rw [loadsItems_eq_map, List.mapM_map, List.mapM_map, hf]
    exact List.mapM_pure
  rw [loads, convertDetectedTags]
  change (loadsItems (tags.map encodeDetectedTag)).mapM convertDetectedTag >>= _ = _
  rw [hm]
  rfl

section Shapes
/- The three lengths an update's array can have. -/
variable {a b c d e tags location : PyValue}

theorem convert_short (h : convertDetectedTags c = .ok tags) :
    convertGatewayUpdate (.list [a, b, c]) =
      .ok (.dict [("gatewayId", a), ("timestamp", b), ("detected_tags", tags),
        ("batteryLevel", .none), ("location", .none)]) := by
  change convertDetectedTags c >>= _ = _
  rw [h]
  rfl

theorem convert_level (h : convertDetectedTags c = .ok tags) :
    convertGatewayUpdate (.list [a, b, c, d]) =
      .ok (.dict [("gatewayId", a), ("timestamp", b), ("detected_tags", tags),
        ("batteryLevel", d), ("location", .none)]) := by
  change convertDetectedTags c >>= _ = _
  rw [h]
  rfl

theorem convert_full (h : convertDetectedTags c = .ok tags)
    (hl : convertLocation e = .ok location) :
    convertGatewayUpdate (.list [a, b, c, d, e]) =
      .ok (.dict [("gatewayId", a), ("timestamp", b), ("detected_tags", tags),
        ("batteryLevel", d), ("location", location)]) := by
  change convertDetectedTags c >>= _ = _
  rw [h]
  change convertLocation e >>= _ = _
  rw [hl]
  rfl

end Shapes

/-- What the proxy should make of an update; absent options are None. -/
def updateDict (u : GatewayUpdate) : PyValue :=
  .dict [("gatewayId", .str u.gatewayId.str), ("timestamp", .int u.timestamp.toNat),
    ("detected_tags", .list (u.detectedTags.toList.map tagDict)),
    ("batteryLevel", u.batteryLevel.elim .none fun level => .int level.toNat),
    ("location", u.location.elim .none locationDict)]

theorem convert_encoded (u : GatewayUpdate) :
    convertGatewayUpdate (loads (encodeGatewayUpdate u)) = .ok (updateDict u) := by
  obtain ⟨gatewayId, timestamp, detectedTags, batteryLevel, location⟩ := u
  have htags := convertDetectedTags_loads detectedTags.toList
  cases location with
  | none =>
    cases batteryLevel with
    | none => exact convert_short htags
    | some level => exact convert_level htags
  | some l => cases batteryLevel <;> exact convert_full htags (convertLocation_loads l)

/-- Whichever options are absent, the proxy finds every field in its place: the identifier and the
timestamp, each tag's address, age and signal strength in order, the battery level and the location,
and None for what is absent. -/
theorem convertGatewayUpdate_loads (u : GatewayUpdate) :
    convertGatewayUpdate (loads (encodeGatewayUpdate u)) =
      .ok (.dict [("gatewayId", .str u.gatewayId.str), ("timestamp", .int u.timestamp.toNat),
        ("detected_tags", .list (u.detectedTags.toList.map tagDict)),
        ("batteryLevel", u.batteryLevel.elim .none fun level => .int level.toNat),
        ("location", u.location.elim .none locationDict)]) :=
  convert_encoded u

end AssetTracker.Proxy

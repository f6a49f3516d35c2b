import AssetTracker.Proxy.Convert
import AssetTracker.Gateway.Updates
import AssetTracker.Lib.Json

/-! The two JSON documents the backend may receive for an update, the one the proxy posts and the one
the HTTP and MQTT backends serialise themselves, beside the schema of the report. How a float is
printed is up to the two JSON libraries: `floatText` and `f32Text` give the number that is read back
from the digits. -/
namespace AssetTracker.Proxy
open Bounded Lib Gateway

def tagSchema : Schema :=
  .object [("id", .string), ("age", .number (some 0) none),
    ("rssi", .number (some (-127)) (some 127))] ["age", "id", "rssi"]

def locationSchema : Schema :=
  .object [("timeOfFix", .number none none), ("latitude", .number (some (-90)) (some 90)),
    ("longitude", .number (some (-180)) (some 180)), ("altitude", .number none none),
    ("heading", .number (some 0) (some 360)), ("horizontalSpeed", .number none none),
    ("verticalSpeed", .number none none)]
    ["timeOfFix", "latitude", "longitude", "altitude", "heading", "horizontalSpeed",
      "verticalSpeed"]

/-- `report.schema.json`. -/
def reportSchema : Schema :=
  .object [("gatewayId", .string), ("timestamp", .number none none),
    ("detectedTags", .array tagSchema), ("batteryLevel", .number (some 0) (some 100)),
    ("location", locationSchema)] ["gatewayId", "timestamp", "detectedTags"]

section Proxy
variable (floatText : ℚ → ℚ)

/-- `json.dumps` of a float, which writes words for what is not a number. -/
def dumpsFloat : F32 → Json
  | .finite value => .num (floatText value)
  | .infinite false => .token "Infinity"
  | .infinite true => .token "-Infinity"
  | .nan => .token "NaN"

mutual

/-- `json.dumps`. -/
def dumps : PyValue → Json
  | .none => .null
  | .int value => .num value
  | .float value => dumpsFloat floatText value
  | .str value => .str value
  | .list items => .arr (dumpsItems items)
  | .dict items => .obj (dumpsMembers items)

def dumpsItems : List PyValue → List Json
  | [] => []
  | item :: items => dumps item :: dumpsItems items

def dumpsMembers : List (String × PyValue) → List (String × Json)
  | [] => []
  | (name, item) :: items => (name, dumps item) :: dumpsMembers items

end

def postedBody (u : GatewayUpdate) : Except PyError Json := do
  let body ← convertGatewayUpdate (loads (encodeGatewayUpdate u))
  pure (dumps floatText body)

end Proxy

section Serde
variable (f32Text : ℚ → ℚ)

/-- `serde_json` writes null for what is not a number. -/
def serdeF32 : F32 → Json
  | .finite value => .num (f32Text value)
  | _ => .null

def serdeLocation (l : Location) : Json :=
  .obj [("latitude", serdeF32 f32Text l.latitude), ("longitude", serdeF32 f32Text l.longitude),
    ("altitude", serdeF32 f32Text l.altitude), ("heading", serdeF32 f32Text l.heading),
    ("horizontalSpeed", serdeF32 f32Text l.horizontalSpeed),
    ("verticalSpeed", serdeF32 f32Text l.verticalSpeed), ("timeOfFix", .num l.timeOfFix.toNat)]

def serdeDetectedTag (t : DetectedTag) : Json :=
  .obj [("addr", .str t.addr.str), ("name", .str t.name.str), ("age", .num t.age.toNat),
    ("rssi", .num t.rssi.toInt), ("sequence", .num t.sequence.toNat)]

/-- `serde_json::to_vec(&update)`, the body of the HTTP and MQTT backends. -/
def serdeGatewayUpdate (u : GatewayUpdate) : Json :=
  .obj [("gatewayId", .str u.gatewayId.str), ("timestamp", .num u.timestamp.toNat),
    ("detectedTags", .arr (u.detectedTags.toList.map serdeDetectedTag)),
    ("batteryLevel", u.batteryLevel.elim .null fun level => .num level.toNat),
    ("location", u.location.elim .null (serdeLocation f32Text))]

end Serde

/-- The posted document has no member under the name the schema requires for the tags. -/
theorem postedBody_members (floatText : ℚ → ℚ) (u : GatewayUpdate) :
    ∃ members, postedBody floatText u = .ok (.obj members) ∧
      members.lookup "detectedTags" = none := by
  rw [postedBody, convert_encoded]
  exact ⟨_, rfl, rfl⟩

theorem postedBody_not_accepted {floatText : ℚ → ℚ} {u : GatewayUpdate} {body : Json}
    (h : postedBody floatText u = .ok body) : ¬ reportSchema.accepts body = true := by
  intro hacc
  obtain ⟨members, hbody, hmissing⟩ := postedBody_members floatText u
  rw [h] at hbody
  cases hbody
  obtain ⟨member, hmember⟩ := Schema.accepts_object hacc "detectedTags" (by simp)
  rw [hmissing] at hmember
  cases hmember

theorem postedBody_not_agreeing {floatText : ℚ → ℚ} {u : GatewayUpdate} {body : Json}
    (h : postedBody floatText u = .ok body) (f32Text : ℚ → ℚ) :
    ¬ reportSchema.Agree (serdeGatewayUpdate f32Text u) body := by
  intro hagree
  obtain ⟨members, hbody, hmissing⟩ := postedBody_members floatText u
  rw [h] at hbody
  cases hbody
  rw [serdeGatewayUpdate, reportSchema, Schema.Agree] at hagree
  have hsome := Schema.agreeMembers_lookup hagree "detectedTags" (.array tagSchema) (by simp)
  rw [hmissing] at hsome
  cases hsome

/-- The address of a tag is its `id` in one document and its `addr` in the other. -/
theorem tags_not_agreeing (floatText : ℚ → ℚ) (t : DetectedTag) :
    ¬ tagSchema.Agree (serdeDetectedTag t) (dumps floatText (tagDict t)) := by
  intro hagree
  rw [serdeDetectedTag, tagDict, dumps, tagSchema, Schema.Agree] at hagree
  have hsome := Schema.agreeMembers_lookup hagree "id" .string (by simp)
  cases hsome

/-- A finite float within bounds. -/
def between (lo hi : ℚ) : F32 → Prop
  | .finite value => lo ≤ value ∧ value ≤ hi
  | _ => False

/-- The values an update may carry without leaving the bounds of the schema. -/
structure InRange (u : GatewayUpdate) : Prop where
  rssi : ∀ t ∈ u.detectedTags.toList, -127 ≤ t.rssi.toInt
  batteryLevel : ∀ level ∈ u.batteryLevel, level.toNat ≤ 100
  location : ∀ l ∈ u.location, between (-90) 90 l.latitude ∧ between (-180) 180 l.longitude ∧
    between 0 360 l.heading

/-- No update is posted as a valid report. -/
theorem posted_never_valid (floatText : ℚ → ℚ) (u : GatewayUpdate) :
    ∃ body, postedBody floatText u = .ok body ∧ ¬ reportSchema.accepts body = true := by
  obtain ⟨members, hbody, -⟩ := postedBody_members floatText u
  exact ⟨_, hbody, postedBody_not_accepted hbody⟩

/- Every option present, every value in range. -/
def sampleTag : DetectedTag :=
  ⟨⟨"cc:dd:ee:33:22:11", by decide⟩, ⟨"tag", by decide⟩, 1, -60, 7⟩

def sampleLocation : Location :=
  ⟨.finite 48, .finite 2, .finite 35, .finite 90, .finite 0, .finite 0, 1700000000⟩

def sampleUpdate : GatewayUpdate :=
  ⟨⟨"gateway", by decide⟩, 1700000000, ⟨[sampleTag], by decide⟩, some 100, some sampleLocation⟩

theorem sampleUpdate_inRange : InRange sampleUpdate where
  rssi := by simp [sampleUpdate, sampleTag]
  batteryLevel := by simp [sampleUpdate]
  location := by
    simp only [sampleUpdate, sampleLocation, between, Option.mem_def, Option.some.injEq,
      forall_eq']
    decide

theorem posted_invalid : ¬ ∀ (floatText : ℚ → ℚ) (u : GatewayUpdate), InRange u →
    ∃ body, postedBody floatText u = .ok body ∧ reportSchema.accepts body = true := by
  intro h
  obtain ⟨body, hbody, hacc⟩ := h id sampleUpdate sampleUpdate_inRange
  exact postedBody_not_accepted hbody hacc

/-- The two documents of an update never agree, nor do those of a tag. -/
theorem bodies_never_agree (floatText f32Text : ℚ → ℚ) (u : GatewayUpdate) :
    (∃ body, postedBody floatText u = .ok body ∧
      ¬ reportSchema.Agree (serdeGatewayUpdate f32Text u) body) ∧
    ∀ t ∈ u.detectedTags.toList,
      ¬ tagSchema.Agree (serdeDetectedTag t) (dumps floatText (tagDict t)) := by
  obtain ⟨members, hbody, -⟩ := postedBody_members floatText u
  exact ⟨⟨_, hbody, postedBody_not_agreeing hbody f32Text⟩,
    fun t _ => tags_not_agreeing floatText t⟩

/-- They differ for the first update of a run, with a tag and a position. -/
theorem bodies_differ : ¬ ∀ (floatText f32Text : ℚ → ℚ) (cfg : Updates.Config)
    (trace : List Updates.Obs) (s : Updates.State), (Updates.updates cfg).Run trace s →
    ∀ update, .built update ∈ trace → ∃ body, postedBody floatText update = .ok body ∧
      reportSchema.Agree (serdeGatewayUpdate f32Text update) body := by
  intro h
  have hrun := Lib.Machine.run_of_exec (M := Updates.updates (Updates.sampleConfig .http))
    [.booted, .tick 900, .timer, .reading Updates.sampleReading,
      .decoded ⟨⟨[sampleTag], by decide⟩⟩, .linkUp true] rfl
  obtain ⟨body, hbody, hagree⟩ := h id id (Updates.sampleConfig .http) _ _ hrun _ List.mem_cons_self
  exact postedBody_not_agreeing hbody id hagree

end AssetTracker.Proxy

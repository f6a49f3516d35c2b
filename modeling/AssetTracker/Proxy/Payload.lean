import AssetTracker.Proxy.Server
import AssetTracker.Lib.Cbor

/-! The bytes of a status response, as `minicbor` writes them for an update, and what the proxy makes
of them when they arrive whole and when they are cut off. Floats are written as they are in memory, so
an update is given here with the bit patterns of its location. -/
namespace AssetTracker.Proxy
open Bounded Lib.CborBytes

/-- The number a 32-bit pattern stands for. -/
def f32FromBits (bits : UInt32) : F32 :=
  let negative := decide (2 ^ 31 ≤ bits.toNat)
  let exponent : Nat := bits.toNat / 2 ^ 23 % 256
  let fraction : Nat := bits.toNat % 2 ^ 23
  let sign : ℚ := if negative then -1 else 1
  if exponent = 255 then if fraction = 0 then .infinite negative else .nan
  else if exponent = 0 then .finite (sign * fraction / 2 ^ 149)
  else .finite (sign * (2 ^ 23 + fraction) * 2 ^ exponent / 2 ^ 150)

structure RawLocation where
  latitude : UInt32
  longitude : UInt32
  altitude : UInt32
  heading : UInt32
  horizontalSpeed : UInt32
  verticalSpeed : UInt32
  timeOfFix : UInt64

def RawLocation.value (l : RawLocation) : Location where
  latitude := f32FromBits l.latitude
  longitude := f32FromBits l.longitude
  altitude := f32FromBits l.altitude
  heading := f32FromBits l.heading
  horizontalSpeed := f32FromBits l.horizontalSpeed
  verticalSpeed := f32FromBits l.verticalSpeed
  timeOfFix := l.timeOfFix

structure RawUpdate where
  gatewayId : BString tagNameMaxLen
  timestamp : UInt64
  detectedTags : BVec DetectedTag maxSeen
  batteryLevel : Option UInt8
  location : Option RawLocation

def RawUpdate.value (u : RawUpdate) : GatewayUpdate :=
  ⟨u.gatewayId, u.timestamp, u.detectedTags, u.batteryLevel, u.location.map RawLocation.value⟩

def intItem (v : ℤ) : DataItem := if 0 ≤ v then .unsigned v.toNat else .negative (-1 - v).toNat

/-- The derived array again, now of what is written. -/
def deriveItems (fields : List (Option DataItem)) : DataItem :=
  .array ((fields.rdropWhile Option.isNone).map fun field => field.getD .null)

def locationItem (l : RawLocation) : DataItem :=
  deriveItems [some (.float32 l.latitude), some (.float32 l.longitude), some (.float32 l.altitude),
    some (.float32 l.heading), some (.float32 l.horizontalSpeed), some (.float32 l.verticalSpeed),
    some (.unsigned l.timeOfFix.toNat)]

def detectedTagItem (t : DetectedTag) : DataItem :=
  deriveItems [some (.text t.addr.str), some (.text t.name.str), some (.unsigned t.age.toNat),
    some (intItem t.rssi.toInt), some (.unsigned t.sequence.toNat)]

def updateItem (u : RawUpdate) : DataItem :=
  deriveItems [some (.text u.gatewayId.str), some (.unsigned u.timestamp.toNat),
    some (.array (u.detectedTags.toList.map detectedTagItem)),
    u.batteryLevel.map fun level => .unsigned level.toNat, u.location.map locationItem]

def payload (u : RawUpdate) : List UInt8 := encode (updateItem u)

mutual

def toCbor : DataItem → Cbor
  | .unsigned n => .int n
  | .negative n => .int (-1 - n)
  | .text s => .text s
  | .array items => .array (toCborItems items)
  | .null => .null
  | .float32 bits => .float (f32FromBits bits)

def toCborItems : List DataItem → List Cbor
  | [] => []
  | item :: items => toCbor item :: toCborItems items

end

/-- `cbor2.loads` returns the first item of the bytes, and raises when they end before it does. -/
structure ReadsCbor (cborLoads : List UInt8 → Except PyException Decoded) : Prop where
  item : ∀ {bytes item rest}, decode bytes = .ok (item, rest) →
    cborLoads bytes = .ok (.value (loads (toCbor item)))
  eof : ∀ {bytes}, decode bytes = .error .eof → ∃ e, cborLoads bytes = .error e

/-- The body that is handed to the backend, if `process_update` gets that far. -/
def bodyToPost (ping : Ping) : Option PyValue :=
  if ping.contextSet then
    match ping.response with
    | .error _ => none
    | .ok result =>
      if result.code = codeContent then
        match ping.bearerToken, ping.backendEndpoint, fetchedBody ping result with
        | some _, some _, .ok body => some body
        | _, _, _ => none
      else none
  else none

section Items

theorem toCborItems_eq_map (items : List DataItem) : toCborItems items = items.map toCbor := by
  induction items with
  | nil => rfl
  | cons item items ih => rw [toCborItems, List.map_cons, ih]

theorem rdropWhile_map {α β : Type*} (f : α → β) (p : β → Bool) (l : List α) :
    (l.map f).rdropWhile p = (l.rdropWhile (p ∘ f)).map f := by
  rw [List.rdropWhile, List.rdropWhile, ← List.map_reverse, List.dropWhile_map, List.map_reverse]

theorem toCbor_deriveItems (fields : List (Option DataItem)) :
    toCbor (deriveItems fields) = deriveArray (fields.map (Option.map toCbor)) := by
  have hnone : Option.isNone ∘ Option.map toCbor = Option.isNone := by
    funext field
    cases field <;> rfl
  have hget : toCbor ∘ (fun field : Option DataItem => field.getD .null) =
      (fun field => field.getD .null) ∘ Option.map toCbor := by
    funext field
    cases field <;> rfl
  rw [deriveItems, toCbor, toCborItems_eq_map, deriveArray, rdropWhile_map, hnone, List.map_map,
    List.map_map, hget]

theorem toCbor_intItem (v : ℤ) : toCbor (intItem v) = .int v := by
  unfold intItem
  split_ifs with h
  · rw [toCbor, Int.toNat_of_nonneg h]
  · rw [toCbor, Int.toNat_of_nonneg (by omega)]
    congr 1
    omega

theorem toCbor_detectedTagItem (t : DetectedTag) :
    toCbor (detectedTagItem t) = encodeDetectedTag t := by
  rw [detectedTagItem, toCbor_deriveItems]
  simp only [List.map_cons, List.map_nil, Option.map_some, toCbor_intItem]
  rfl

theorem toCbor_updateItem (u : RawUpdate) : toCbor (updateItem u) = encodeGatewayUpdate u.value := by
  have htags : toCbor (.array (u.detectedTags.toList.map detectedTagItem)) =
      .array (u.detectedTags.toList.map encodeDetectedTag) := by
    rw [toCbor, toCborItems_eq_map, List.map_map]
    congr 2
    funext t
    exact toCbor_detectedTagItem t
  rw [updateItem, toCbor_deriveItems, encodeGatewayUpdate]
  simp only [List.map_cons, List.map_nil, Option.map_some, htags]
  cases hl : u.location <;> cases hb : u.batteryLevel <;> simp [RawUpdate.value, hl, hb, toCbor] <;>
    rfl

theorem fitsItems_iff (items : List DataItem) : FitsItems items ↔ ∀ item ∈ items, Fits item := by
  induction items with
  | nil => simp [FitsItems]
  | cons item items ih => simp [FitsItems, ih]

theorem deriveItems_fits {fields : List (Option DataItem)} (hlen : fields.length < 2 ^ 64)
    (h : ∀ item, some item ∈ fields → Fits item) : Fits (deriveItems fields) := by
  have hsub : (fields.rdropWhile Option.isNone).Sublist fields :=
    (List.rdropWhile_prefix Option.isNone fields).sublist
  have hle := hsub.length_le
  refine ⟨by rw [List.length_map]; omega, ?_⟩
  rw [fitsItems_iff]
  intro item hmem
  obtain ⟨field, hfield, heq⟩ := List.mem_map.mp hmem
  cases field with
  | none =>
    rw [← heq]
    trivial
  | some item' =>
    rw [← heq]
    exact h item' (hsub.subset hfield)

theorem text_fits {n : Nat} (s : BString n) (h : n < 2 ^ 64) : Fits (.text s.str) :=
  s.fits.trans_lt h

theorem detectedTagItem_fits (t : DetectedTag) : Fits (detectedTagItem t) := by
  have hage := t.age.toNat_lt
  have hsequence := t.sequence.toNat_lt
  have hrssi := t.rssi.le_toInt
  have hrssi' := t.rssi.toInt_lt
  have haddr : Fits (.text t.addr.str) := text_fits t.addr (by decide)
  have hname : Fits (.text t.name.str) := text_fits t.name (by decide)
  have hint : Fits (intItem t.rssi.toInt) := by
    unfold intItem
    split_ifs
    · change t.rssi.toInt.toNat < 2 ^ 64
      omega
    · change (-1 - t.rssi.toInt).toNat < 2 ^ 64
      omega
  rw [detectedTagItem]
  refine deriveItems_fits (by simp) ?_
  intro item hmem
  simp only [List.mem_cons, Option.some.injEq, List.not_mem_nil, or_false] at hmem
  obtain h | h | h | h | h := hmem <;> rw [h]
  · exact haddr
  · exact hname
  · exact hage.trans (by decide)
  · exact hint
  · exact hsequence.trans (by decide)

theorem locationItem_fits (l : RawLocation) : Fits (locationItem l) := by
  rw [locationItem]
  refine deriveItems_fits (by simp) ?_
  intro item hmem
  simp only [List.mem_cons, Option.some.injEq, List.not_mem_nil, or_false] at hmem
  obtain h | h | h | h | h | h | h := hmem <;> rw [h]
  · trivial
  · trivial
  · trivial
  · trivial
  · trivial
  · trivial
  · exact l.timeOfFix.toNat_lt

theorem updateItem_fits (u : RawUpdate) : Fits (updateItem u) := by
  have htags : Fits (.array (u.detectedTags.toList.map detectedTagItem)) := by
    refine ⟨?_, ?_⟩
    · rw [List.length_map]
      exact u.detectedTags.fits.trans_lt (by decide)
    rw [fitsItems_iff]
    intro item hmem
    obtain ⟨t, _, heq⟩ := List.mem_map.mp hmem
    rw [← heq]
    exact detectedTagItem_fits t
  rw [updateItem]
  refine deriveItems_fits (by simp) ?_
  intro item hmem
  simp only [List.mem_cons, Option.some.injEq, List.not_mem_nil, or_false] at hmem
  obtain h | h | h | h | h := hmem
  · rw [h]
    exact text_fits u.gatewayId (by decide)
  · rw [h]
    exact u.timestamp.toNat_lt
  · rw [h]
    exact htags
  · obtain ⟨level, _, heq⟩ := Option.map_eq_some_iff.mp h.symm
    rw [← heq]
    exact level.toNat_lt.trans (by decide)
  · obtain ⟨l, _, heq⟩ := Option.map_eq_some_iff.mp h.symm
    rw [← heq]
    exact locationItem_fits l

end Items

variable {ping : Ping}

theorem cborLoads_payload {cborLoads : List UInt8 → Except PyException Decoded}
    (h : ReadsCbor cborLoads) (u : RawUpdate) :
    cborLoads (payload u) = .ok (.value (loads (encodeGatewayUpdate u.value))) := by
  have hread := decode_encode (updateItem_fits u) []
  rw [List.append_nil] at hread
  rw [payload, h.item hread, toCbor_updateItem]

theorem cborLoads_cut {cborLoads : List UInt8 → Except PyException Decoded} (h : ReadsCbor cborLoads)
    {u : RawUpdate} {front back : List UInt8} (hcut : payload u = front ++ back)
    (hback : back ≠ []) : ∃ e, cborLoads front = .error e :=
  h.eof (decode_truncated (updateItem_fits u) hcut hback)

theorem fetchedBody_payload (h : ReadsCbor ping.cborLoads) (u : RawUpdate)
    (hdumps : ping.jsonDumps (updateDict u.value) = .ok ()) (code : Code) :
    fetchedBody ping ⟨code, payload u⟩ = .ok (updateDict u.value) := by
  simp only [fetchedBody, cborLoads_payload h, convert, convert_encoded, bind, Except.bind,
    Except.mapError, hdumps]
  rfl

theorem eq_of_fetchedBody_payload (h : ReadsCbor ping.cborLoads) {u : RawUpdate} {code : Code}
    {body : PyValue} (hbody : fetchedBody ping ⟨code, payload u⟩ = .ok body) :
    body = updateDict u.value := by
  simp only [fetchedBody, cborLoads_payload h, convert, convert_encoded, bind, Except.bind,
    Except.mapError] at hbody
  cases hdumps : ping.jsonDumps (updateDict u.value) with
  | error e =>
    rw [hdumps] at hbody
    cases hbody
  | ok _ =>
    rw [hdumps] at hbody
    exact (Except.ok.inj hbody).symm

theorem bodyToPost_eq_some {body : PyValue} (h : bodyToPost ping = some body) :
    ∃ result, ping.response = .ok result ∧ result.code = codeContent ∧
      fetchedBody ping result = .ok body := by
  unfold bodyToPost at h
  cases hcontext : ping.contextSet with
  | false => simp [hcontext] at h
  | true =>
    cases hresponse : ping.response with
    | error e => simp [hresponse] at h
    | ok result =>
      by_cases hcode : result.code = codeContent
      · simp only [hcontext, hresponse, hcode, if_true] at h
        split at h
        · rename_i hbody
          cases h
          exact ⟨result, rfl, hcode, hbody⟩
        · cases h
      · simp [hresponse, hcode] at h

/-- The backend is called with this body and no other: what it would answer to anything else plays no
role. -/
theorem processUpdate_post (post : String → String → PyValue → Except PyException Nat)
    (h : ∀ body token endpoint, bodyToPost ping = some body → ping.bearerToken = some token →
      ping.backendEndpoint = some endpoint →
        post ("Bearer " ++ token) endpoint body = ping.post ("Bearer " ++ token) endpoint body) :
    processUpdate { ping with post := post } = processUpdate ping := by
  obtain ⟨contextSet, bearerToken, backendEndpoint, response, cborLoads, jsonDumps, post'⟩ := ping
  have hfetched : ∀ result,
      fetchedBody ⟨contextSet, bearerToken, backendEndpoint, response, cborLoads, jsonDumps, post⟩
        result =
      fetchedBody ⟨contextSet, bearerToken, backendEndpoint, response, cborLoads, jsonDumps, post'⟩
        result := fun _ => rfl
  unfold bodyToPost at h
  unfold processUpdate
  cases contextSet with
  | false => rfl
  | true =>
    cases response with
    | error e => rfl
    | ok result =>
      by_cases hcode : result.code = codeContent
      · simp only [hcode, if_true] at h
        simp only [bind, Except.bind, hcode, if_true, hfetched]
        cases hbody : fetchedBody ⟨true, bearerToken, backendEndpoint, .ok result, cborLoads,
            jsonDumps, post'⟩ result with
        | error e => rfl
        | ok body =>
          cases bearerToken with
          | none => rfl
          | some token =>
            cases backendEndpoint with
            | none => rfl
            | some endpoint =>
              have hpost := h body token endpoint (by rw [hbody]) rfl rfl
              simp only [forward, hpost]
      · simp only [bind, Except.bind, if_neg hcode]

section Whole
variable {u : RawUpdate} {token endpoint : String} (h : ReadsCbor ping.cborLoads)
  (hcontext : ping.contextSet = true) (hdumps : ping.jsonDumps (updateDict u.value) = .ok ())
  (htoken : ping.bearerToken = some token) (hendpoint : ping.backendEndpoint = some endpoint)
  (hresponse : ping.response = .ok ⟨codeContent, payload u⟩)
include h hcontext hdumps htoken hendpoint hresponse

theorem bodyToPost_payload : bodyToPost ping = some (updateDict u.value) := by
  simp [bodyToPost, hcontext, hresponse, htoken, hendpoint, fetchedBody_payload h u hdumps]

theorem renderPost_payload : renderPost ping = okReply ↔
    ∃ status, ping.post ("Bearer " ++ token) endpoint (updateDict u.value) = .ok status := by
  rw [renderPost_ok_iff]
  simp only [processUpdate, hcontext, hresponse, bind, Except.bind, if_true,
    fetchedBody_payload h u hdumps, forward, htoken, hendpoint]
  cases ping.post ("Bearer " ++ token) endpoint (updateDict u.value) with
  | error e => simp
  | ok status => simp [pure, Except.pure]

end Whole

/-- A response that arrives whole is posted as the update it was written from; one that was cut off
anywhere is not posted at all, and the gateway is told that it failed. -/
theorem payload_forwarded (h : ReadsCbor ping.cborLoads) (hcontext : ping.contextSet = true)
    (u : RawUpdate) (hdumps : ping.jsonDumps (updateDict u.value) = .ok ()) {token endpoint : String}
    (htoken : ping.bearerToken = some token) (hendpoint : ping.backendEndpoint = some endpoint)
    {bytes : List UInt8} (hresponse : ping.response = .ok ⟨codeContent, bytes⟩) :
    (bytes = payload u → bodyToPost ping = some (updateDict u.value) ∧
      (renderPost ping = okReply ↔
        ∃ status, ping.post ("Bearer " ++ token) endpoint (updateDict u.value) = .ok status)) ∧
    ∀ back, payload u = bytes ++ back → back ≠ [] →
      bodyToPost ping = none ∧ renderPost ping = errorReply := by
  constructor
  · intro hbytes
    rw [hbytes] at hresponse
    exact ⟨bodyToPost_payload h hcontext hdumps htoken hendpoint hresponse,
      renderPost_payload h hcontext hdumps htoken hendpoint hresponse⟩
  · intro back hcut hback
    obtain ⟨e, he⟩ := cborLoads_cut h hcut hback
    have hbody : fetchedBody ping ⟨codeContent, bytes⟩ = .error e := by
      simp only [fetchedBody, he, bind, Except.bind]
    refine ⟨by simp [bodyToPost, hcontext, hresponse, htoken, hendpoint, hbody], ?_⟩
    simp only [renderPost, processUpdate, hcontext, hresponse, bind, Except.bind, if_true, hbody]

/- A reader of CBOR that refuses what the model leaves out, and a gateway without tags or position. -/
def plainLoads (bytes : List UInt8) : Except PyException Decoded :=
  match decode bytes with
  | .ok (item, _) => .ok (.value (loads (toCbor item)))
  | .error _ => .error (.other "CBORDecodeError")

theorem plainLoads_readsCbor : ReadsCbor plainLoads where
  item h := by simp only [plainLoads, h]
  eof h := ⟨_, by rw [plainLoads, h]⟩

def quietUpdate : RawUpdate := ⟨⟨"gw", by decide⟩, 5, .empty, none, none⟩

def quietPing (bytes : List UInt8) : Ping where
  contextSet := true
  bearerToken := some "token"
  backendEndpoint := some "backend"
  response := .ok ⟨codeContent, bytes⟩
  cborLoads := plainLoads
  jsonDumps _ := .ok ()
  post _ _ _ := .ok 200

/- A tag, and a position of 52.52 degrees north and 13.405 degrees east. -/
def fieldUpdate : RawUpdate where
  gatewayId := ⟨"gw", by decide⟩
  timestamp := 1750000000
  detectedTags := ⟨[⟨⟨"aa:bb:cc:dd:ee:ff", by decide⟩, ⟨"B", by decide⟩, 2, -60, 7⟩], by decide⟩
  batteryLevel := some 100
  location := some ⟨0x4252147B, 0x41567AE1, 0x42080000, 0, 0, 0, 1750000000⟩

theorem payload_forwarded_field : (payload fieldUpdate).length = 73 ∧
    renderPost (quietPing (payload fieldUpdate)) = okReply ∧
    bodyToPost (quietPing (payload fieldUpdate)) = some (updateDict fieldUpdate.value) ∧
    renderPost (quietPing ((payload fieldUpdate).take 72)) = errorReply := by
  have hlen : (payload fieldUpdate).length = 73 := by decide +kernel
  have hrest : (payload fieldUpdate).drop 72 ≠ [] := by
    intro hnil
    have hle := List.drop_eq_nil_iff.mp hnil
    omega
  have hwhole := @payload_forwarded (quietPing (payload fieldUpdate)) plainLoads_readsCbor rfl
    fieldUpdate rfl _ _ rfl rfl _ rfl
  have hcut := @payload_forwarded (quietPing ((payload fieldUpdate).take 72))
    plainLoads_readsCbor rfl fieldUpdate rfl _ _ rfl rfl _ rfl
  exact ⟨hlen, (hwhole.1 rfl).2.mpr ⟨200, rfl⟩, (hwhole.1 rfl).1,
    (hcut.2 _ (List.take_append_drop 72 _).symm hrest).2⟩

end AssetTracker.Proxy

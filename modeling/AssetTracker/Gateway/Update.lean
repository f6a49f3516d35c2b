import AssetTracker.CommonTypes
import AssetTracker.Clock

/-! The report `updates` builds from the decoded tags: every age grows by the time that passed since
they were decoded. The sum is a plain `u16` addition, which panics on overflow in a build with overflow
checks and wraps in one without. -/
namespace AssetTracker.Gateway
open Bounded

/-- `a + b`, with overflow checks or without. -/
def addU16 (checks : Bool) (a b : UInt16) : Option UInt16 :=
  if a.toNat + b.toNat < 2 ^ 16 then some (a + b) else if checks then none else some (a + b)

def agedTag (checks : Bool) (decodeAgeSecs : UInt16) (tag : DetectedTag) : Option DetectedTag := do
  let age ← addU16 checks tag.age decodeAgeSecs
  pure { tag with age := age }

def agedTags (checks : Bool) (decodeAgeSecs : UInt16) (detectedTags : TagsSeen) :
    Option (BVec DetectedTag maxSeen) := do
  let tags ← detectedTags.tags.toList.mapM (agedTag checks decodeAgeSecs)
  BVec.fromSlice tags

def gatewayUpdate (checks : Bool) (tickHz : Nat) (deviceId : BString tagNameMaxLen)
    (location : Option Location) (detectedTags : TagsSeen) (decodeInstant now : Nat) :
    Option GatewayUpdate := do
  let decodeAgeSecs ← ageSecs tickHz now decodeInstant
  let tags ← agedTags checks decodeAgeSecs detectedTags
  pure { gatewayId := deviceId, timestamp := (location.map Location.timeOfFix).getD 0,
         detectedTags := tags, batteryLevel := some 100, location := location }

theorem addU16_eq_some {a b : UInt16} (h : a.toNat + b.toNat ≤ 65535) (checks : Bool) :
    addU16 checks a b = some (a + b) := if_pos (by omega)

theorem addU16_saturated_iff {checks : Bool} {a b c : UInt16} (h : addU16 checks a b = some c) :
    c.toNat = min 65535 (a.toNat + b.toNat) ↔ a.toNat + b.toNat ≤ 65535 := by
  have hc : c = a + b := by
    unfold addU16 at h
    split_ifs at h with hlt hchecks
    · exact (Option.some.inj h).symm
    · exact (Option.some.inj h).symm
  have ha := a.toNat_lt
  have hb := b.toNat_lt
  rw [hc, UInt16.toNat_add]
  omega

theorem agedTag_eq_some {secs : UInt16} {tag : DetectedTag}
    (h : tag.age.toNat + secs.toNat ≤ 65535) (checks : Bool) :
    agedTag checks secs tag = some { tag with age := tag.age + secs } := by
  rw [agedTag, addU16_eq_some h]
  rfl

theorem agedTag_saturated_iff {checks : Bool} {secs : UInt16} {tag tag' : DetectedTag}
    (h : agedTag checks secs tag = some tag') :
    tag'.age.toNat = min 65535 (tag.age.toNat + secs.toNat) ↔
      tag.age.toNat + secs.toNat ≤ 65535 := by
  obtain ⟨age, hage, htag⟩ := Option.bind_eq_some_iff.mp h
  cases htag
  exact addU16_saturated_iff hage

theorem aged_saturated {checks : Bool} {secs : UInt16} {tags tags' : List DetectedTag}
    (h : List.Forall₂ (fun tag tag' => agedTag checks secs tag = some tag') tags tags')
    (hages : tags'.map (fun tag => tag.age.toNat) =
      tags.map fun tag => min 65535 (tag.age.toNat + secs.toNat)) :
    ∀ tag ∈ tags, tag.age.toNat + secs.toNat ≤ 65535 := by
  induction h with
  | nil => simp
  | cons htag _ ih =>
    simp only [List.map_cons, List.cons.injEq] at hages
    simp only [List.mem_cons, forall_eq_or_imp]
    exact ⟨(agedTag_saturated_iff htag).mp hages.1, ih hages.2⟩

theorem agedTags_eq_some {secs : UInt16} {t : TagsSeen}
    (h : ∀ tag ∈ t.tags.toList, tag.age.toNat + secs.toNat ≤ 65535) (checks : Bool) :
    ∃ v, agedTags checks secs t = some v ∧
      v.toList = t.tags.toList.map fun tag => { tag with age := tag.age + secs } := by
  have hm : t.tags.toList.mapM (agedTag checks secs) =
      some (t.tags.toList.map fun tag => { tag with age := tag.age + secs }) :=
    mapM_eq_some fun tag htag => agedTag_eq_some (h tag htag) checks
  have hl : (t.tags.toList.map fun tag => { tag with age := tag.age + secs }).length ≤ maxSeen := by
    simpa using t.tags.fits
  exact ⟨_, by rw [agedTags, hm]; exact BVec.fromSlice_eq_some hl, rfl⟩

theorem agedTags_saturated_iff (checks : Bool) (secs : UInt16) (t : TagsSeen) :
    (∃ v, agedTags checks secs t = some v ∧ v.toList.map (fun tag => tag.age.toNat) =
      t.tags.toList.map fun tag => min 65535 (tag.age.toNat + secs.toNat)) ↔
    ∀ tag ∈ t.tags.toList, tag.age.toNat + secs.toNat ≤ 65535 := by
  constructor
  · intro hages
    obtain ⟨v, hv, hages⟩ := hages
    obtain ⟨tags, htags, hfits⟩ := Option.bind_eq_some_iff.mp hv
    rw [BVec.fromSlice_some hfits] at hages
    exact aged_saturated (mapM_eq_some_iff.mp htags) hages
  · intro h
    obtain ⟨v, hv, htags⟩ := agedTags_eq_some h checks
    refine ⟨v, hv, ?_⟩
    rw [htags, List.map_map]
    apply List.map_congr_left
    intro tag htag
    have hle := h tag htag
    simp only [Function.comp_apply, UInt16.toNat_add]
    omega

def reportedAges (update : GatewayUpdate) : List Nat :=
  update.detectedTags.toList.map fun tag => tag.age.toNat

theorem addU16_eq_none_iff (checks : Bool) (a b : UInt16) :
    addU16 checks a b = none ↔ checks = true ∧ 65535 < a.toNat + b.toNat := by
  unfold addU16
  by_cases hlt : a.toNat + b.toNat < 2 ^ 16
  · simp only [if_pos hlt, reduceCtorEq, false_iff, not_and]
    intro _
    omega
  · have hgt : 65535 < a.toNat + b.toNat := by omega
    rw [if_neg hlt]
    cases checks <;> simp only [hgt, and_true] <;> simp

theorem agedTag_eq_none_iff (checks : Bool) (secs : UInt16) (tag : DetectedTag) :
    agedTag checks secs tag = none ↔ checks = true ∧ 65535 < tag.age.toNat + secs.toNat := by
  rw [← addU16_eq_none_iff, agedTag]
  cases addU16 checks tag.age secs <;> simp

theorem agedTags_eq_none_iff (checks : Bool) (secs : UInt16) (t : TagsSeen) :
    agedTags checks secs t = none ↔
      checks = true ∧ ∃ tag ∈ t.tags.toList, 65535 < tag.age.toNat + secs.toNat := by
  have hmap : agedTags checks secs t = none ↔
      t.tags.toList.mapM (agedTag checks secs) = none := by
    cases hm : t.tags.toList.mapM (agedTag checks secs) with
    | none => simp [agedTags, hm]
    | some tags =>
      have hlen := (mapM_eq_some_iff.mp hm).length_eq
      have hfits : tags.length ≤ maxSeen := by
        rw [← hlen]
        exact t.tags.fits
      simp [agedTags, hm, BVec.fromSlice_eq_some hfits]
  rw [hmap, mapM_eq_none_iff]
  simp only [agedTag_eq_none_iff]
  constructor
  · intro h
    obtain ⟨tag, htag, hchecks, hgt⟩ := h
    exact ⟨hchecks, tag, htag, hgt⟩
  · intro h
    obtain ⟨hchecks, tag, htag, hgt⟩ := h
    exact ⟨tag, htag, hchecks, hgt⟩

theorem gatewayUpdate_eq_none_iff (checks : Bool) (tickHz : Nat) (deviceId : BString tagNameMaxLen)
    (location : Option Location) (t : TagsSeen) {decodeInstant now : Nat} (h : decodeInstant ≤ now) :
    gatewayUpdate checks tickHz deviceId location t decodeInstant now = none ↔
      checks = true ∧ ∃ tag ∈ t.tags.toList,
        65535 < tag.age.toNat + min 65535 ((now - decodeInstant) / tickHz) := by
  rw [← saturatedSecs_toNat, ← agedTags_eq_none_iff, gatewayUpdate, ageSecs_eq_some h]
  cases ha : agedTags checks (saturatedSecs ((now - decodeInstant) / tickHz)) t <;> simp [ha]

/-- The tags of an update are those decoded, each with its age increased. -/
theorem gatewayUpdate_aged {checks : Bool} {tickHz decodeInstant now : Nat}
    {deviceId : BString tagNameMaxLen} {location : Option Location} {t : TagsSeen}
    {update : GatewayUpdate}
    (h : gatewayUpdate checks tickHz deviceId location t decodeInstant now = some update) :
    decodeInstant ≤ now ∧ List.Forall₂
      (fun tag tag' => agedTag checks (saturatedSecs ((now - decodeInstant) / tickHz)) tag = some tag')
      t.tags.toList update.detectedTags.toList := by
  obtain ⟨secs, hsecs, h⟩ := Option.bind_eq_some_iff.mp h
  obtain ⟨aged, haged, h⟩ := Option.bind_eq_some_iff.mp h
  cases h
  obtain ⟨tags, htags, hfits⟩ := Option.bind_eq_some_iff.mp haged
  by_cases hle : decodeInstant ≤ now
  · rw [ageSecs_eq_some hle] at hsecs
    cases hsecs
    rw [BVec.fromSlice_some hfits]
    exact ⟨hle, mapM_eq_some_iff.mp htags⟩
  · simp [ageSecs, durationSince, hle] at hsecs

theorem gatewayUpdate_eq_some_iff {checks : Bool} {tickHz decodeInstant now : Nat}
    (h : decodeInstant ≤ now) (deviceId : BString tagNameMaxLen) (location : Option Location)
    (t : TagsSeen) (ages : List Nat) :
    (∃ u, gatewayUpdate checks tickHz deviceId location t decodeInstant now = some u ∧
      reportedAges u = ages) ↔
    ∃ v, agedTags checks (saturatedSecs ((now - decodeInstant) / tickHz)) t = some v ∧
      v.toList.map (fun tag => tag.age.toNat) = ages := by
  simp only [gatewayUpdate, ageSecs_eq_some h, Option.bind_eq_bind, Option.bind_some]
  cases hv : agedTags checks (saturatedSecs ((now - decodeInstant) / tickHz)) t with
  | none => simp
  | some v => simp [reportedAges]

/-- The reported ages are the saturated sums exactly when no sum leaves the range. -/
theorem reportedAges_iff (checks : Bool) (tickHz : Nat) {decodeInstant now : Nat}
    (h : decodeInstant ≤ now) (deviceId : BString tagNameMaxLen) (location : Option Location)
    (t : TagsSeen) :
    (∃ u, gatewayUpdate checks tickHz deviceId location t decodeInstant now = some u ∧
      reportedAges u = t.tags.toList.map fun tag =>
        min 65535 (tag.age.toNat + min 65535 ((now - decodeInstant) / tickHz))) ↔
    ∀ tag ∈ t.tags.toList,
      tag.age.toNat + min 65535 ((now - decodeInstant) / tickHz) ≤ 65535 := by
  rw [gatewayUpdate_eq_some_iff h, ← saturatedSecs_toNat]
  exact agedTags_saturated_iff checks _ t

end AssetTracker.Gateway

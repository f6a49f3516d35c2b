import AssetTracker.CommonTypes
import Mathlib.Data.List.Induction
import Mathlib.Algebra.Field.Rat
import Mathlib.Algebra.Order.Ring.Nat

/-! `get_location`: a location is made from one GNSS reading, and only when the reading has a time of
fix and a valid sample of each coordinate. Floats are the exact numbers they stand for. -/
namespace AssetTracker.Gateway

inductive Label where
  | latitude
  | longitude
  | altitude
  | other
deriving DecidableEq

/-- A value stands for itself times ten to the scaling; the driver's scalings are never positive and
their powers of ten fit an `i32`. -/
structure ReadingChannel where
  label : Label
  scaling : Int
  scaling_range : -9 ≤ scaling ∧ scaling ≤ 0

structure FixTime where
  secs : Int64
  nonneg : 0 ≤ secs

/-- A sample without a value is invalid; the time of fix may be missing. -/
structure Samples where
  timeOfFix : Option FixTime
  samples : List (ReadingChannel × Option Int32)

/-- What `wait_for_reading` returns; the driver's error is only logged. -/
abbrev Reading := Option Samples

inductive UpdateLocationError where
  | readingError
  | invalidFix (location : Location)

/-- `value as f32 / 10i32.pow((-channel.scaling()) as u32) as f32` -/
def scaled (channel : ReadingChannel) (value : Int32) : F32 :=
  .finite ((value.toInt : ℚ) / ((10 : ℚ) ^ (-channel.scaling).toNat))

/-- The variables of the loop over the samples. -/
structure Fix where
  location : Location
  foundAltitude : Bool
  foundLatitude : Bool
  foundLongitude : Bool

def sampleStep (fix : Fix) (sample : ReadingChannel × Option Int32) : Fix :=
  match sample.1.label with
  | .altitude =>
    match sample.2 with
    | some value => { fix with location := { fix.location with altitude := scaled sample.1 value },
                               foundAltitude := true }
    | none => fix
  | .latitude =>
    match sample.2 with
    | some value => { fix with location := { fix.location with latitude := scaled sample.1 value },
                               foundLatitude := true }
    | none => fix
  | .longitude =>
    match sample.2 with
    | some value => { fix with location := { fix.location with longitude := scaled sample.1 value },
                               foundLongitude := true }
    | none => fix
  | .other => fix

def zeroLocation : Location where
  latitude := .finite 0
  longitude := .finite 0
  altitude := .finite 0
  heading := .finite 0
  horizontalSpeed := .finite 0
  verticalSpeed := .finite 0
  timeOfFix := 0

def getLocation : Reading → Except UpdateLocationError Location
  | none => .error .readingError
  | some samples =>
    let location := match samples.timeOfFix with
      | some t => { zeroLocation with timeOfFix := t.secs.toUInt64 }
      | none => zeroLocation
    let fix := samples.samples.foldl sampleStep ⟨location, false, false, false⟩
    if fix.foundAltitude && fix.foundLatitude && fix.foundLongitude && samples.timeOfFix.isSome then
      .ok fix.location
    else .error (.invalidFix fix.location)

/-- The channel and the value of a valid sample of a label. -/
def validSample (label : Label) (sample : ReadingChannel × Option Int32) :
    Option (ReadingChannel × Int32) :=
  if sample.1.label = label then sample.2.map fun value => (sample.1, value) else none

def lastValid (label : Label) (samples : List (ReadingChannel × Option Int32)) :
    Option (ReadingChannel × Int32) :=
  (samples.filterMap (validSample label)).getLast?

theorem FixTime.toNat_toUInt64 (t : FixTime) : (t.secs.toUInt64.toNat : Int) = t.secs.toInt := by
  have h : 0 ≤ t.secs.toInt := by simpa [Int64.le_iff_toInt_le] using t.nonneg
  rw [Int64.toNat_toUInt64_of_le t.nonneg, Int64.toNatClampNeg, Int.toNat_of_nonneg h]

theorem scaled_eq (channel : ReadingChannel) (value : Int32) :
    scaled channel value = .finite ((value.toInt : ℚ) * (10 : ℚ) ^ channel.scaling) := by
  obtain ⟨n, hn⟩ := Int.eq_ofNat_of_zero_le (Int.neg_nonneg_of_nonpos channel.scaling_range.2)
  have hscaling : channel.scaling = -(n : Int) := by omega
  rw [scaled, hn, hscaling, zpow_neg, zpow_natCast, div_eq_mul_inv]
  rfl

theorem lastValid_append (label : Label) (l : List (ReadingChannel × Option Int32))
    (sample : ReadingChannel × Option Int32) :
    lastValid label (l ++ [sample]) =
      match validSample label sample with
      | some x => some x
      | none => lastValid label l := by
  cases h : validSample label sample with
  | none => simp [lastValid, h]
  | some x => simp [lastValid, h]

/-- A coordinate after the samples: that of the last valid one, or the initial one. -/
def coordinate (initial : F32) (last : Option (ReadingChannel × Int32)) : F32 :=
  match last with
  | some x => scaled x.1 x.2
  | none => initial

theorem foldl_sampleStep (location : Location) (l : List (ReadingChannel × Option Int32)) :
    l.foldl sampleStep ⟨location, false, false, false⟩ =
      ⟨{ location with altitude := coordinate location.altitude (lastValid .altitude l),
                       latitude := coordinate location.latitude (lastValid .latitude l),
                       longitude := coordinate location.longitude (lastValid .longitude l) },
        (lastValid .altitude l).isSome, (lastValid .latitude l).isSome,
        (lastValid .longitude l).isSome⟩ := by
  induction l using List.reverseRecOn with
  | nil => rfl
  | append_singleton l sample ih =>
    rw [List.foldl_append, List.foldl_cons, List.foldl_nil, ih]
    simp only [lastValid_append]
    obtain ⟨channel, value⟩ := sample
    cases hlabel : channel.label <;> cases value <;>
      simp [sampleStep, validSample, hlabel, coordinate]

/-- The only way to a location: one reading with all four values. -/
theorem getLocation_ok_iff (reading : Reading) (location : Location) :
    getLocation reading = .ok location ↔
      ∃ samples t alt lat lon, reading = some samples ∧ samples.timeOfFix = some t ∧
        lastValid .altitude samples.samples = some alt ∧
        lastValid .latitude samples.samples = some lat ∧
        lastValid .longitude samples.samples = some lon ∧
        location = { zeroLocation with altitude := scaled alt.1 alt.2, latitude := scaled lat.1 lat.2,
                                       longitude := scaled lon.1 lon.2,
                                       timeOfFix := t.secs.toUInt64 } := by
  cases reading with
  | none => simp [getLocation]
  | some samples =>
    simp only [getLocation, foldl_sampleStep]
    cases ht : samples.timeOfFix with
    | none => simp [ht]
    | some t =>
      cases halt : lastValid .altitude samples.samples with
      | none => simp [halt]
      | some alt =>
        cases hlat : lastValid .latitude samples.samples with
        | none => simp [hlat]
        | some lat =>
          cases hlon : lastValid .longitude samples.samples with
          | none => simp [hlon]
          | some lon =>
            cases alt
            cases lat
            cases lon
            simp [ht, halt, hlat, hlon, coordinate, zeroLocation, eq_comm]

end AssetTracker.Gateway

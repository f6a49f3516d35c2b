import AssetTracker.Gateway.Updates

/-! Where the position in a report comes from: the reading that ended the GNSS loop of its cycle, and no
other. -/
namespace AssetTracker.Gateway.Updates

def cycleReading : List Obs → Option Reading
  | [] => none
  | .started _ :: _ => none
  | .read reading :: _ => some reading
  | _ :: trace => cycleReading trace

/-- A coordinate is measured: it is the last valid sample of its label. -/
def Measured (label : Label) (samples : Samples) (value : F32) : Prop :=
  ∃ channel v, lastValid label samples.samples = some (channel, v) ∧
    value = .finite ((v.toInt : ℚ) * (10 : ℚ) ^ channel.scaling)

/-- The location is that of one reading, with its time of fix. -/
structure MeasuredBy (samples : Samples) (location : Location) : Prop where
  latitude : Measured .latitude samples location.latitude
  longitude : Measured .longitude samples location.longitude
  altitude : Measured .altitude samples location.altitude
  timeOfFix : ∃ t, samples.timeOfFix = some t ∧ (location.timeOfFix.toNat : Int) = t.secs.toInt

/-- A report has the location of the last reading before it, and its time. -/
def Located (before : List Obs) : Obs → Prop
  | .built update => ∃ samples location, cycleReading before = some (some samples) ∧
      update.location = some location ∧ MeasuredBy samples location ∧
      update.timestamp = location.timeOfFix
  | _ => True

/-- Behind the GNSS loop the location is there, and it is the last reading's. -/
def HasLocation (trace : List Obs) (location : Option Location) : Prop :=
  ∃ reading l, cycleReading trace = some reading ∧ getLocation reading = .ok l ∧ location = some l

def PositionInv (trace : List Obs) (s : State) : Prop :=
  match s.phase with
  | .receiving location => HasLocation trace location
  | .connecting location _ _ => HasLocation trace location
  | _ => True

theorem measuredBy_of_getLocation {reading : Reading} {location : Location}
    (h : getLocation reading = .ok location) :
    ∃ samples, reading = some samples ∧ MeasuredBy samples location := by
  obtain ⟨samples, t, alt, lat, lon, hreading, ht, halt, hlat, hlon, rfl⟩ :=
    (getLocation_ok_iff reading location).mp h
  refine ⟨samples, hreading, ⟨lat.1, lat.2, hlat, ?_⟩, ⟨lon.1, lon.2, hlon, ?_⟩,
    ⟨alt.1, alt.2, halt, ?_⟩, t, ht, t.toNat_toUInt64⟩
  · exact scaled_eq lat.1 lat.2
  · exact scaled_eq lon.1 lon.2
  · exact scaled_eq alt.1 alt.2

theorem gatewayUpdate_location {checks : Bool} {tickHz decodeInstant now : Nat}
    {deviceId : Bounded.BString tagNameMaxLen} {location : Option Location}
    {detectedTags : TagsSeen} {update : GatewayUpdate}
    (h : gatewayUpdate checks tickHz deviceId location detectedTags decodeInstant now =
      some update) :
    update.location = location ∧
      update.timestamp = (location.map Location.timeOfFix).getD 0 := by
  obtain ⟨secs, _, h⟩ := Option.bind_eq_some_iff.mp h
  obtain ⟨tags, _, h⟩ := Option.bind_eq_some_iff.mp h
  cases h
  exact ⟨rfl, rfl⟩

theorem located_built {trace : List Obs} {location : Option Location} {update : GatewayUpdate}
    (h : HasLocation trace location) (hloc : update.location = location)
    (htime : update.timestamp = (location.map Location.timeOfFix).getD 0) :
    Located trace (.built update) := by
  obtain ⟨reading, l, hread, hget, rfl⟩ := h
  obtain ⟨samples, rfl, hmeasured⟩ := measuredBy_of_getLocation hget
  exact ⟨samples, l, hread, hloc, hmeasured, htime⟩

variable {cfg : Config} {s s' : State} {obs trace : List Obs}

theorem top_position {tickHz : Nat} (htop : TopEffect tickHz s s' obs)
    (htrace : Lib.Everywhere Located trace) :
    PositionInv (obs ++ trace) s' ∧ Lib.Everywhere Located (obs ++ trace) := by
  cases htop with
  | waiting hlt => exact ⟨trivial, trivial, htrace⟩
  | started hle => exact ⟨trivial, trivial, trivial, trivial, htrace⟩

theorem effect_position (hinv : PositionInv trace s) (htrace : Lib.Everywhere Located trace)
    (heff : Effect cfg s s' obs) :
    PositionInv (obs ++ trace) s' ∧ Lib.Everywhere Located (obs ++ trace) := by
  cases heff with
  | idle => exact ⟨hinv, htrace⟩
  | tick d h => exact ⟨hinv, htrace⟩
  | booted hp htop => exact top_position htop htrace
  | skipped deadline hp h => exact ⟨trivial, trivial, trivial, htrace⟩
  | started deadline hp h => exact ⟨trivial, trivial, trivial, htrace⟩
  | located tries reading location hp hl =>
    exact ⟨⟨reading, location, rfl, hl, rfl⟩, trivial, trivial, htrace⟩
  | failed tries reading phase hp hphase =>
    refine ⟨?_, trivial, trivial, htrace⟩
    cases hphase with
    | inl hphase => simp [PositionInv, hphase]
    | inr hphase => simp [PositionInv, hphase]
  | retried tries deadline hp => exact ⟨trivial, htrace⟩
  | decoded location detectedTags hp =>
    have hloc : HasLocation trace location := by simpa [PositionInv, hp] using hinv
    exact ⟨hloc, trivial, htrace⟩
  | built location detectedTags decodeInstant update hp hu =>
    have hloc : HasLocation trace location := by simpa [PositionInv, hp] using hinv
    obtain ⟨hl, ht⟩ := gatewayUpdate_location hu
    exact ⟨trivial, located_built hloc hl ht, trivial, htrace⟩
  | unserialised location detectedTags decodeInstant update hp hu htop =>
    have hloc : HasLocation trace location := by simpa [PositionInv, hp] using hinv
    obtain ⟨hl, ht⟩ := gatewayUpdate_location hu
    rw [List.append_assoc]
    exact top_position htop ⟨trivial, trivial, located_built hloc hl ht, trivial, htrace⟩
  | sent update hp htop =>
    rw [List.append_assoc]
    exact top_position htop ⟨trivial, htrace⟩
  | ledsStarted ht => exact ⟨hinv, htrace⟩
  | ledsReceived t status ht hc => exact ⟨hinv, htrace⟩
  | ledsTimer => exact ⟨hinv, htrace⟩

theorem position_run (h : (updates cfg).Run trace s) :
    PositionInv trace s ∧ Lib.Everywhere Located trace := by
  have hinit : PositionInv [] (updates cfg).init := trivial
  refine h.invariant (P := fun trace s => PositionInv trace s ∧ Lib.Everywhere Located trace)
    ⟨hinit, trivial⟩ ?_
  intro trace s e s' obs _ ih hstep
  exact effect_position ih.1 ih.2 (effect_of_step hstep)

/-- Every report has a location, whose coordinates and time all come from the last reading of its
cycle. -/
theorem update_measured (h : (updates cfg).Run trace s) :
    ∀ later update before, trace = later ++ .built update :: before →
      ∃ samples location, cycleReading before = some (some samples) ∧
        update.location = some location ∧ MeasuredBy samples location ∧
        update.timestamp = location.timeOfFix := by
  intro later update before htrace
  have hall := (position_run h).2
  rw [htrace] at hall
  exact hall.at_split

/- A reading without an altitude, then one with a fix. -/
def partialReading : Reading := some
  ⟨some ⟨1749999000, by decide⟩,
    [(latitudeChannel, some 1), (longitudeChannel, some 1), (altitudeChannel, none)]⟩

def measuredReport : GatewayUpdate where
  gatewayId := (sampleConfig .coap).deviceId
  timestamp := 1750000000
  detectedTags := .empty
  batteryLevel := some 100
  location := some { zeroLocation with latitude := scaled latitudeChannel 525200000,
                                       longitude := scaled longitudeChannel 134050000,
                                       altitude := scaled altitudeChannel 34000,
                                       timeOfFix := 1750000000 }

def reportTrace : List Obs :=
  [.built measuredReport, .announced .networkCommunication (some .waiting),
    .announced .waitingNetwork (some .waiting), .announced .readingUart (some .waiting),
    .read sampleReading, .announced .gnssWarning (some .waiting), .read partialReading,
    .announced .gnssAcquisition (some .waiting), .started 900, .announced .waiting none]

theorem update_measured_second_reading : ∃ s samples location,
    (updates (sampleConfig .coap)).Run reportTrace s ∧ sampleReading = some samples ∧
      measuredReport.location = some location ∧ MeasuredBy samples location := by
  have hrun : ∃ s, (updates (sampleConfig .coap)).Run reportTrace s :=
    ⟨_, Lib.Machine.run_of_exec [.booted, .tick 900, .timer, .reading partialReading,
      .reading sampleReading, .decoded sampleTags, .linkUp true] rfl⟩
  obtain ⟨s, hrun⟩ := hrun
  obtain ⟨samples, location, hread, hlocation, hmeasured, _⟩ :=
    update_measured hrun [] measuredReport _ rfl
  exact ⟨s, samples, location, hrun, Option.some.inj hread, hlocation, hmeasured⟩

end AssetTracker.Gateway.Updates

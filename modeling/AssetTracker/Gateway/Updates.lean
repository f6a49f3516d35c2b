import AssetTracker.Lib.Machine
import AssetTracker.Gateway.Location
import AssetTracker.Gateway.Mqtt
import AssetTracker.Gateway.Update

/-! The tasks `updates` and `leds` as one machine. What `updates` does between two suspension points
is one step, so its steps are named after what it was waiting for; `leds` and the clock run in
between. A step that makes `updates` panic fails. -/
namespace AssetTracker.Gateway.Updates
open Bounded

inductive LedState where
  | waiting
  | gnssAcquisition
  | gnssWarning
  | readingUart
  | waitingNetwork
  | networkCommunication
deriving DecidableEq

/-- Levels of the red, the green and the blue LED. -/
def LedState.leds : LedState → Bool × Bool × Bool
  | .waiting => (false, false, true)
  | .gnssAcquisition => (false, true, true)
  | .gnssWarning => (true, true, false)
  | .readingUart => (true, false, true)
  | .waitingNetwork => (true, true, true)
  | .networkCommunication => (false, true, false)

def ledOnDuration : Nat := 200

def ledOffDuration : Nat := 2000

/-- The variables of the loop of `leds`, and the levels it set last. -/
structure LedsTask where
  leds : Bool × Bool × Bool
  nextPhase : Bool
  nextWait : Nat
  levels : Bool × Bool × Bool

/-- After the start-up sequence: red, which is on. -/
def LedsTask.start : LedsTask := ⟨(true, false, false), true, ledOnDuration, (false, true, true)⟩

/-- One turn of the loop: a status was received, or the timer ran out. -/
def LedsTask.turn (t : LedsTask) (status : Option LedState) : LedsTask :=
  let leds := match status with
    | some status => status.leds
    | none => t.leds
  let nextPhase := status.isSome || t.nextPhase
  if nextPhase then ⟨leds, !nextPhase, ledOnDuration, leds⟩
  else ⟨leds, !nextPhase, ledOffDuration, (false, false, false)⟩

inductive Backend where
  | coap
  | http
  | mqtt
deriving DecidableEq

/-- What the gateway takes from its platform and configuration. With `instantaneous` scheduling the
clock does not pass the deadline of a timer `updates` waits for before that task has run. -/
structure Config where
  tickHz : Nat
  checks : Bool
  deviceId : BString tagNameMaxLen
  backend : Backend
  ltemAtBoot : Bool
  instantaneous : Bool

def timeBetweenUpdates (tickHz : Nat) : Nat := 15 * 60 * tickHz

def minimumGap (tickHz : Nat) : Nat := 10 * tickHz

def gnssAcquisitionTimeoutSec : Nat := 360

/-- Twelve hours at most. -/
def backoffSecs (tries : Nat) : Nat := gnssAcquisitionTimeoutSec * 2 ^ min tries 7

/-- What `updates` waits for, with the variables it goes on with. -/
inductive Phase where
  | booting
  | waiting (deadline : Nat)
  | acquiring (tries : Nat)
  | backingOff (tries deadline : Nat)
  | receiving (location : Option Location)
  | connecting (location : Option Location) (detectedTags : TagsSeen) (decodeInstant : Nat)
  | sending (update : GatewayUpdate)

structure State where
  clock : Nat
  phase : Phase
  lastUpdateStart : Nat
  ltem : Bool
  uartRequest : Bool
  ledChannel : Option LedState
  ledsTask : Option LedsTask

/-- How sending went, by backend. -/
inductive SendResult where
  | coap
  | http (result : Except Unit Unit)
  | mqtt (outcomes : MqttOutcomes)

/-- What `updates` waits for happens; `serialised` tells whether the update could be serialised. -/
inductive Event where
  | tick (d : Nat)
  | booted
  | buttonLow
  | timer
  | reading (reading : Reading)
  | decoded (detectedTags : TagsSeen)
  | linkUp (serialised : Bool)
  | sent (result : SendResult)
  | ledsStarted
  | ledsReceive
  | ledsTimer

inductive Obs where
  | announced (status : LedState) (found : Option LedState)
  | started (now : Nat)
  | skipped (now : Nat)
  | read (reading : Reading)
  | built (update : GatewayUpdate)
  | unserialised (elapsed : Nat)
  | ended (now : Nat)

/-- `try_send` into the channel; a full channel keeps what it holds. -/
def announce (status : LedState) (s : State) : State :=
  { s with ledChannel := some (s.ledChannel.getD status) }

def announcedObs (status : LedState) (s : State) : Obs := .announced status s.ledChannel

def elapsed (s : State) : Nat := s.clock - s.lastUpdateStart

/-- The start of an update, up to the wait for the first reading. -/
def startUpdate (s : State) : State :=
  announce .gnssAcquisition
    { s with lastUpdateStart := s.clock, ltem := false, phase := .acquiring 0 }

def startObs (s : State) : List Obs := [announcedObs .gnssAcquisition s, .started s.clock]

/-- From the top of the loop to the next wait. Without time left to wait there is none; the `continue`
of the rate limit would then spin, but it is not taken. -/
def topOfLoop (tickHz : Nat) (s : State) : Option (State × List Obs) :=
  let s' := announce .waiting s
  let durationToWait := timeBetweenUpdates tickHz - elapsed s'
  if 0 < durationToWait then
    some ({ s' with phase := .waiting (s'.clock + durationToWait) }, [announcedObs .waiting s])
  else if elapsed s' < minimumGap tickHz then none
  else some (startUpdate s', startObs s' ++ [announcedObs .waiting s])

def andThen (r : Option (State × List Obs)) (earlier : List Obs) : Option (State × List Obs) :=
  r.map fun (s, obs) => (s, obs ++ earlier)

/-- Everything is set up; LTE-M is switched off before the loop. -/
def afterBoot (tickHz : Nat) (s : State) : Option (State × List Obs) :=
  topOfLoop tickHz { s with ltem := false }

def afterWait (tickHz : Nat) (s : State) : Option (State × List Obs) :=
  if elapsed s < minimumGap tickHz then andThen (topOfLoop tickHz s) [.skipped s.clock]
  else some (startUpdate s, startObs s)

def afterReading (tickHz tries : Nat) (reading : Reading) (s : State) : State × List Obs :=
  let location := match getLocation reading with
    | .ok location => some location
    | .error (.invalidFix _) => none
    | .error .readingError => none
  let tries := tries + 1
  if location.isSome then
    (announce .readingUart { s with phase := .receiving location, uartRequest := true },
      [announcedObs .readingUart s, .read reading])
  else
    let phase := if tries > 1 then .backingOff tries (s.clock + backoffSecs tries * tickHz)
      else .acquiring tries
    (announce .gnssWarning { s with phase := phase }, [announcedObs .gnssWarning s, .read reading])

def afterDecoded (location : Option Location) (detectedTags : TagsSeen) (s : State) :
    State × List Obs :=
  (announce .waitingNetwork { s with phase := .connecting location detectedTags s.clock,
                                     uartRequest := false, ltem := true },
    [announcedObs .waitingNetwork s])

def afterSent (tickHz : Nat) (s : State) : Option (State × List Obs) :=
  andThen (topOfLoop tickHz { s with ltem := false }) [.ended s.clock]

/-- The update is built; the backends that post JSON give up on one that cannot be serialised. -/
def afterLinkUp (cfg : Config) (location : Option Location) (detectedTags : TagsSeen)
    (decodeInstant : Nat) (serialised : Bool) (s : State) : Option (State × List Obs) := do
  let update ← gatewayUpdate cfg.checks cfg.tickHz cfg.deviceId location detectedTags decodeInstant
    s.clock
  let s' := announce .networkCommunication s
  let obs := [.built update, announcedObs .networkCommunication s]
  match cfg.backend, serialised with
  | .coap, _ => some ({ s' with phase := .sending update }, obs)
  | _, true => some ({ s' with phase := .sending update }, obs)
  | _, false =>
    andThen (topOfLoop cfg.tickHz s') ([.ended s'.clock, .unserialised (elapsed s')] ++ obs)

/-- The result of sending is only logged, except where the MQTT client's are unwrapped. -/
def afterSending (cfg : Config) (result : SendResult) (s : State) : Option (State × List Obs) :=
  match cfg.backend, result with
  | .coap, .coap => afterSent cfg.tickHz s
  | .http, .http _ => afterSent cfg.tickHz s
  | .mqtt, .mqtt outcomes =>
    match mqttConnectAndPublish outcomes with
    | .returned => afterSent cfg.tickHz s
    | .panicked => none
    | .waiting => some (s, [])
  | _, _ => some (s, [])

def Phase.deadline? : Phase → Option Nat
  | .waiting deadline => some deadline
  | .backingOff _ deadline => some deadline
  | _ => none

def mayTick (cfg : Config) (s : State) (d : Nat) : Bool :=
  match s.phase.deadline? with
  | some deadline => !cfg.instantaneous || s.clock + d ≤ deadline
  | none => true

def step (cfg : Config) (s : State) : Event → Option (State × List Obs)
  | .tick d => if mayTick cfg s d then some ({ s with clock := s.clock + d }, []) else some (s, [])
  | .booted =>
    match s.phase with
    | .booting => afterBoot cfg.tickHz s
    | _ => some (s, [])
  | .buttonLow =>
    match s.phase with
    | .waiting _ => afterWait cfg.tickHz s
    | _ => some (s, [])
  | .timer =>
    match s.phase with
    | .waiting deadline => if deadline ≤ s.clock then afterWait cfg.tickHz s else some (s, [])
    | .backingOff tries deadline =>
      if deadline ≤ s.clock then some ({ s with phase := .acquiring tries }, []) else some (s, [])
    | _ => some (s, [])
  | .reading reading =>
    match s.phase with
    | .acquiring tries => some (afterReading cfg.tickHz tries reading s)
    | _ => some (s, [])
  | .decoded detectedTags =>
    match s.phase with
    | .receiving location => some (afterDecoded location detectedTags s)
    | _ => some (s, [])
  | .linkUp serialised =>
    match s.phase with
    | .connecting location detectedTags decodeInstant =>
      afterLinkUp cfg location detectedTags decodeInstant serialised s
    | _ => some (s, [])
  | .sent result =>
    match s.phase with
    | .sending _ => afterSending cfg result s
    | _ => some (s, [])
  | .ledsStarted =>
    match s.ledsTask with
    | none => some ({ s with ledsTask := some .start }, [])
    | some _ => some (s, [])
  | .ledsReceive =>
    match s.ledsTask, s.ledChannel with
    | some t, some status =>
      some ({ s with ledsTask := some (t.turn (some status)), ledChannel := none }, [])
    | _, _ => some (s, [])
  | .ledsTimer => some ({ s with ledsTask := s.ledsTask.map fun t => t.turn none }, [])

def updates (cfg : Config) : Lib.Machine State Event Obs where
  init := ⟨0, .booting, 0, cfg.ltemAtBoot, false, none, none⟩
  step := step cfg

section Announce
variable (status : LedState) (s : State)

@[simp] theorem announce_phase : (announce status s).phase = s.phase := rfl
@[simp] theorem announce_ltem : (announce status s).ltem = s.ltem := rfl
@[simp] theorem announce_ledChannel :
    (announce status s).ledChannel = some (s.ledChannel.getD status) := rfl
@[simp] theorem elapsed_announce : elapsed (announce status s) = elapsed s := rfl

end Announce

/-- The ways from the top of the loop: to the wait, or straight to the next update. -/
inductive TopEffect (tickHz : Nat) (s : State) : State → List Obs → Prop where
  | waiting (h : elapsed s < timeBetweenUpdates tickHz) :
      TopEffect tickHz s
        { announce .waiting s with
          phase := .waiting (s.clock + (timeBetweenUpdates tickHz - elapsed s)) }
        [announcedObs .waiting s]
  | started (h : timeBetweenUpdates tickHz ≤ elapsed s) :
      TopEffect tickHz s (startUpdate (announce .waiting s))
        (startObs (announce .waiting s) ++ [announcedObs .waiting s])

theorem minimumGap_le (tickHz : Nat) : minimumGap tickHz ≤ timeBetweenUpdates tickHz := by
  unfold minimumGap timeBetweenUpdates
  omega

/-- The loop never spins. -/
theorem topOfLoop_effect (tickHz : Nat) (s : State) :
    ∃ s' obs, topOfLoop tickHz s = some (s', obs) ∧ TopEffect tickHz s s' obs := by
  by_cases h : elapsed s < timeBetweenUpdates tickHz
  · have hpos : 0 < timeBetweenUpdates tickHz - elapsed (announce .waiting s) := by
      rw [elapsed_announce]
      omega
    exact ⟨_, _, if_pos hpos, .waiting h⟩
  · have hzero : ¬ 0 < timeBetweenUpdates tickHz - elapsed (announce .waiting s) := by
      rw [elapsed_announce]
      omega
    have hgap : ¬ elapsed (announce .waiting s) < minimumGap tickHz := by
      have hle := minimumGap_le tickHz
      rw [elapsed_announce]
      omega
    refine ⟨_, _, ?_, .started (Nat.le_of_not_lt h)⟩
    rw [topOfLoop]
    simp only [if_neg hzero, if_neg hgap]

inductive Effect (cfg : Config) (s : State) : State → List Obs → Prop where
  | idle : Effect cfg s s []
  | tick (d : Nat) (h : mayTick cfg s d = true) : Effect cfg s { s with clock := s.clock + d } []
  | booted {s' : State} {obs : List Obs} (hp : s.phase = .booting)
      (htop : TopEffect cfg.tickHz { s with ltem := false } s' obs) : Effect cfg s s' obs
  | skipped (deadline : Nat) (hp : s.phase = .waiting deadline)
      (h : elapsed s < minimumGap cfg.tickHz) :
      Effect cfg s
        { announce .waiting s with
          phase := .waiting (s.clock + (timeBetweenUpdates cfg.tickHz - elapsed s)) }
        [announcedObs .waiting s, .skipped s.clock]
  | started (deadline : Nat) (hp : s.phase = .waiting deadline)
      (h : minimumGap cfg.tickHz ≤ elapsed s) : Effect cfg s (startUpdate s) (startObs s)
  | located (tries : Nat) (reading : Reading) (location : Location)
      (hp : s.phase = .acquiring tries) (hl : getLocation reading = .ok location) :
      Effect cfg s
        (announce .readingUart { s with phase := .receiving (some location), uartRequest := true })
        [announcedObs .readingUart s, .read reading]
  | failed (tries : Nat) (reading : Reading) (phase : Phase) (hp : s.phase = .acquiring tries)
      (hphase : phase = .acquiring (tries + 1) ∨ phase = .backingOff (tries + 1)
        (s.clock + backoffSecs (tries + 1) * cfg.tickHz)) :
      Effect cfg s (announce .gnssWarning { s with phase := phase })
        [announcedObs .gnssWarning s, .read reading]
  | retried (tries deadline : Nat) (hp : s.phase = .backingOff tries deadline) :
      Effect cfg s { s with phase := .acquiring tries } []
  | decoded (location : Option Location) (detectedTags : TagsSeen)
      (hp : s.phase = .receiving location) :
      Effect cfg s
        (announce .waitingNetwork { s with phase := .connecting location detectedTags s.clock,
                                           uartRequest := false, ltem := true })
        [announcedObs .waitingNetwork s]
  | built (location : Option Location) (detectedTags : TagsSeen) (decodeInstant : Nat)
      (update : GatewayUpdate) (hp : s.phase = .connecting location detectedTags decodeInstant)
      (hu : gatewayUpdate cfg.checks cfg.tickHz cfg.deviceId location detectedTags decodeInstant
        s.clock = some update) :
      Effect cfg s { announce .networkCommunication s with phase := .sending update }
        [.built update, announcedObs .networkCommunication s]
  | unserialised {s' : State} {obs : List Obs} (location : Option Location)
      (detectedTags : TagsSeen) (decodeInstant : Nat) (update : GatewayUpdate)
      (hp : s.phase = .connecting location detectedTags decodeInstant)
      (hu : gatewayUpdate cfg.checks cfg.tickHz cfg.deviceId location detectedTags decodeInstant
        s.clock = some update)
      (htop : TopEffect cfg.tickHz (announce .networkCommunication s) s' obs) :
      Effect cfg s s' (obs ++ [.ended s.clock, .unserialised (elapsed s), .built update,
        announcedObs .networkCommunication s])
  | sent {s' : State} {obs : List Obs} (update : GatewayUpdate) (hp : s.phase = .sending update)
      (htop : TopEffect cfg.tickHz { s with ltem := false } s' obs) :
      Effect cfg s s' (obs ++ [.ended s.clock])
  | ledsStarted (ht : s.ledsTask = none) : Effect cfg s { s with ledsTask := some .start } []
  | ledsReceived (t : LedsTask) (status : LedState) (ht : s.ledsTask = some t)
      (hc : s.ledChannel = some status) :
      Effect cfg s { s with ledsTask := some (t.turn (some status)), ledChannel := none } []
  | ledsTimer : Effect cfg s { s with ledsTask := s.ledsTask.map fun t => t.turn none } []

variable {cfg : Config} {s s' : State} {obs : List Obs}

theorem afterWait_effect {deadline : Nat} (hp : s.phase = .waiting deadline)
    (h : afterWait cfg.tickHz s = some (s', obs)) : Effect cfg s s' obs := by
  unfold afterWait at h
  by_cases hgap : elapsed s < minimumGap cfg.tickHz
  · rw [if_pos hgap] at h
    obtain ⟨s₁, obs₁, htop, heff⟩ := topOfLoop_effect cfg.tickHz s
    rw [htop] at h
    cases h
    cases heff with
    | waiting hlt => exact .skipped deadline hp hgap
    | started hle =>
      have hle' := minimumGap_le cfg.tickHz
      omega
  · rw [if_neg hgap] at h
    cases h
    exact .started deadline hp (Nat.le_of_not_lt hgap)

theorem afterReading_effect {tries : Nat} (hp : s.phase = .acquiring tries) (reading : Reading) :
    Effect cfg s (afterReading cfg.tickHz tries reading s).1
      (afterReading cfg.tickHz tries reading s).2 := by
  have hfailed : Effect cfg s _ _ := .failed tries reading (if tries + 1 > 1 then
    .backingOff (tries + 1) (s.clock + backoffSecs (tries + 1) * cfg.tickHz)
    else .acquiring (tries + 1)) hp (by by_cases h : tries + 1 > 1 <;> simp [h])
  cases hl : getLocation reading with
  | ok location =>
    simpa only [afterReading, hl, Option.isSome_some, if_true] using
      Effect.located tries reading location hp hl
  | error e =>
    cases e with
    | readingError =>
      simpa only [afterReading, hl, Option.isSome_none, Bool.false_eq_true, if_false] using hfailed
    | invalidFix location =>
      simpa only [afterReading, hl, Option.isSome_none, Bool.false_eq_true, if_false] using hfailed

theorem afterLinkUp_effect {location : Option Location} {detectedTags : TagsSeen}
    {decodeInstant : Nat} {serialised : Bool}
    (hp : s.phase = .connecting location detectedTags decodeInstant)
    (h : afterLinkUp cfg location detectedTags decodeInstant serialised s = some (s', obs)) :
    Effect cfg s s' obs := by
  obtain ⟨update, hu, h⟩ := Option.bind_eq_some_iff.mp h
  have hbuilt := Effect.built location detectedTags decodeInstant update hp hu
  have hend : andThen (topOfLoop cfg.tickHz (announce .networkCommunication s))
      ([.ended s.clock, .unserialised (elapsed s)] ++
        [.built update, announcedObs .networkCommunication s]) = some (s', obs) →
      Effect cfg s s' obs := by
    intro h
    obtain ⟨s₁, obs₁, htop, heff⟩ := topOfLoop_effect cfg.tickHz (announce .networkCommunication s)
    rw [htop] at h
    cases h
    exact .unserialised location detectedTags decodeInstant update hp hu heff
  cases hb : cfg.backend <;> cases serialised <;> simp only [hb] at h
  · cases h
    exact hbuilt
  · cases h
    exact hbuilt
  · exact hend h
  · cases h
    exact hbuilt
  · exact hend h
  · cases h
    exact hbuilt

theorem afterSent_effect {update : GatewayUpdate} (hp : s.phase = .sending update)
    (h : afterSent cfg.tickHz s = some (s', obs)) : Effect cfg s s' obs := by
  obtain ⟨s₁, obs₁, htop, heff⟩ := topOfLoop_effect cfg.tickHz { s with ltem := false }
  rw [afterSent, htop] at h
  cases h
  exact .sent update hp heff

theorem afterSending_effect {update : GatewayUpdate} {result : SendResult}
    (hp : s.phase = .sending update) (h : afterSending cfg result s = some (s', obs)) :
    Effect cfg s s' obs := by
  unfold afterSending at h
  split at h
  · exact afterSent_effect hp h
  · exact afterSent_effect hp h
  · split at h
    · exact afterSent_effect hp h
    · cases h
    · cases h
      exact .idle
  · cases h
    exact .idle

theorem tick_effect {d : Nat} (h : step cfg s (.tick d) = some (s', obs)) : Effect cfg s s' obs := by
  by_cases hd : mayTick cfg s d = true
  · rw [step, if_pos hd] at h
    cases h
    exact .tick d hd
  · rw [step, if_neg hd] at h
    cases h
    exact .idle

theorem timer_effect (h : step cfg s .timer = some (s', obs)) : Effect cfg s s' obs := by
  cases hp : s.phase <;> simp only [step, hp] at h
  case waiting deadline =>
    by_cases hd : deadline ≤ s.clock
    · exact afterWait_effect hp (by simpa only [if_pos hd] using h)
    · rw [if_neg hd] at h
      cases h
      exact .idle
  case backingOff tries deadline =>
    by_cases hd : deadline ≤ s.clock
    · rw [if_pos hd] at h
      cases h
      exact .retried tries deadline hp
    · rw [if_neg hd] at h
      cases h
      exact .idle
  all_goals
    cases h
    exact .idle

theorem ledsReceive_effect (h : step cfg s .ledsReceive = some (s', obs)) : Effect cfg s s' obs := by
  cases ht : s.ledsTask <;> cases hc : s.ledChannel <;> simp only [step, ht, hc] at h
  case some.some t status =>
    cases h
    exact .ledsReceived t status ht hc
  all_goals
    cases h
    exact .idle

theorem effect_of_step {e : Event} (h : step cfg s e = some (s', obs)) : Effect cfg s s' obs := by
  cases e with
  | tick d => exact tick_effect h
  | booted =>
    cases hp : s.phase <;> simp only [step, hp] at h
    case booting =>
      obtain ⟨s₁, obs₁, htop, heff⟩ := topOfLoop_effect cfg.tickHz { s with ltem := false }
      rw [afterBoot, htop] at h
      cases h
      exact .booted hp heff
    all_goals
      cases h
      exact .idle
  | buttonLow =>
    cases hp : s.phase <;> simp only [step, hp] at h
    case waiting deadline => exact afterWait_effect hp h
    all_goals
      cases h
      exact .idle
  | timer => exact timer_effect h
  | reading reading =>
    cases hp : s.phase <;> simp only [step, hp] at h
    case acquiring tries =>
      have heff : Effect cfg s _ _ := afterReading_effect hp reading
      rw [Option.some.inj h] at heff
      exact heff
    all_goals
      cases h
      exact .idle
  | decoded detectedTags =>
    cases hp : s.phase <;> simp only [step, hp] at h
    case receiving location =>
      cases h
      exact .decoded location detectedTags hp
    all_goals
      cases h
      exact .idle
  | linkUp serialised =>
    cases hp : s.phase <;> simp only [step, hp] at h
    case connecting location detectedTags decodeInstant => exact afterLinkUp_effect hp h
    all_goals
      cases h
      exact .idle
  | sent result =>
    cases hp : s.phase <;> simp only [step, hp] at h
    case sending update => exact afterSending_effect hp h
    all_goals
      cases h
      exact .idle
  | ledsStarted =>
    cases ht : s.ledsTask <;> simp only [step, ht] at h
    case none =>
      cases h
      exact .ledsStarted ht
    case some t =>
      cases h
      exact .idle
  | ledsReceive => exact ledsReceive_effect h
  | ledsTimer =>
    cases h
    exact .ledsTimer

/- A gateway whose clock ticks once a second, a reading with a fix, and a frame without tags. -/
def sampleConfig (backend : Backend) : Config :=
  ⟨1, true, ⟨"02:00:5e:10:00:00", by decide⟩, backend, true, true⟩

def latitudeChannel : ReadingChannel := ⟨.latitude, -7, by decide⟩

def longitudeChannel : ReadingChannel := ⟨.longitude, -7, by decide⟩

def altitudeChannel : ReadingChannel := ⟨.altitude, -3, by decide⟩

def sampleReading : Reading := some
  ⟨some ⟨1750000000, by decide⟩,
    [(latitudeChannel, some 525200000), (longitudeChannel, some 134050000),
      (altitudeChannel, some 34000)]⟩

def sampleTags : TagsSeen := ⟨.empty⟩

end AssetTracker.Gateway.Updates

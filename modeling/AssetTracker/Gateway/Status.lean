import AssetTracker.Gateway.Updates

/-! What the LED shows. Statuses go through a channel with room for one, and an announcement that finds
another status there is lost. -/
namespace AssetTracker.Gateway.Updates

def lastAnnounced : List Obs → Option LedState
  | [] => none
  | .announced status _ :: _ => some status
  | _ :: trace => lastAnnounced trace

/-- The channel holds the last status announced or, when it is empty, the LED shows it. -/
structure ShowsLast (trace : List Obs) (s : State) : Prop where
  channel : ∀ status, s.ledChannel = some status → lastAnnounced trace = some status
  leds : s.ledChannel = none → ∀ status, lastAnnounced trace = some status →
    ∃ t, s.ledsTask = some t ∧ t.leds = status.leds

/-- Whether `leds` has taken its turn since `updates` last announced a status. -/
def watch (turned : Bool) (s : State) (e : Event) (obs : List Obs) : Bool :=
  if (lastAnnounced obs).isSome then false
  else match e with
    | .ledsReceive => turned || s.ledsTask.isSome
    | _ => turned

def watched (cfg : Config) : Lib.Machine (State × Bool) Event Obs := (updates cfg).ghosted true watch

def sendingDone (cfg : Config) (result : SendResult) : Bool :=
  match cfg.backend, result with
  | .coap, .coap => true
  | .http, .http _ => true
  | .mqtt, .mqtt outcomes => decide (mqttConnectAndPublish outcomes = .returned)
  | _, _ => false

/-- `leds` has had its turn before the wait ends with an update, a first reading fails or one has a fix,
the tags arrive, the link comes up, and sending ends; the cycle is not as long as the time between
updates, and its update can be serialised. -/
def timely (cfg : Config) (w : State × Bool) (e : Event) : Bool :=
  match e, w.1.phase with
  | .booted, .booting => w.2 && decide (elapsed w.1 < timeBetweenUpdates cfg.tickHz)
  | .buttonLow, .waiting _ => w.2 || decide (elapsed w.1 < minimumGap cfg.tickHz)
  | .timer, .waiting deadline =>
    w.2 || decide (elapsed w.1 < minimumGap cfg.tickHz) || decide (w.1.clock < deadline)
  | .reading reading, .acquiring tries =>
    w.2 || decide (0 < tries) && !(getLocation reading).isOk
  | .decoded _, .receiving _ => w.2
  | .linkUp serialised, .connecting _ _ _ => w.2 && (decide (cfg.backend = .coap) || serialised)
  | .sent result, .sending _ =>
    !sendingDone cfg result || w.2 && decide (elapsed w.1 < timeBetweenUpdates cfg.tickHz)
  | _, _ => true

/-- What is announced when the phase begins. -/
def Phase.status : Phase → Option LedState
  | .booting => none
  | .waiting _ => some .waiting
  | .acquiring tries => if tries = 0 then some .gnssAcquisition else some .gnssWarning
  | .backingOff tries _ => if tries = 0 then some .gnssAcquisition else some .gnssWarning
  | .receiving _ => some .readingUart
  | .connecting _ _ _ => some .waitingNetwork
  | .sending _ => some .networkCommunication

variable {cfg : Config} {s s' : State} {e : Event} {obs trace : List Obs}

theorem effect_lastAnnounced (hs : lastAnnounced trace = s.phase.status)
    (heff : Effect cfg s s' obs) : lastAnnounced (obs ++ trace) = s'.phase.status := by
  cases heff with
  | idle => exact hs
  | tick d h => exact hs
  | booted hp htop => cases htop <;> rfl
  | skipped deadline hp h => rfl
  | started deadline hp h => rfl
  | located tries reading location hp hl => rfl
  | failed tries reading phase hp hphase =>
    cases hphase with
    | inl hphase => simp [lastAnnounced, announcedObs, hphase, Phase.status]
    | inr hphase => simp [lastAnnounced, announcedObs, hphase, Phase.status]
  | retried tries deadline hp =>
    rw [hp] at hs
    exact hs
  | decoded location detectedTags hp => rfl
  | built location detectedTags decodeInstant update hp hu => rfl
  | unserialised location detectedTags decodeInstant update hp hu htop => cases htop <;> rfl
  | sent update hp htop => cases htop <;> rfl
  | ledsStarted ht => exact hs
  | ledsReceived t status ht hc => exact hs
  | ledsTimer => exact hs

/-- What a step tells `leds`: nothing, or `status`, which is in the channel behind the step if it was
`pushed` into the empty channel; `leds` itself empties the channel. -/
inductive Tell (cfg : Config) (s : State) (e : Event) : State → List Obs → Prop where
  | nothing {s' : State} (hchannel : s'.ledChannel = s.ledChannel)
      (hleds : ∀ t, s.ledsTask = some t → ∃ t', s'.ledsTask = some t' ∧ t'.leds = t.leds)
      (he : e = .ledsReceive → s.ledsTask = none) (htimely : ∀ b, timely cfg (s, b) e = true) :
      Tell cfg s e s' []
  | received {s' : State} (he : e = .ledsReceive) (ht : s.ledsTask.isSome = true)
      (hchannel : s'.ledChannel = none)
      (hsame : s.ledChannel = none → s'.ledsTask = s.ledsTask)
      (hleds : ∀ status, s.ledChannel = some status →
        ∃ t, s'.ledsTask = some t ∧ t.leds = status.leds) : Tell cfg s e s' []
  | told {s' : State} {obs : List Obs} (pushed status : LedState)
      (hlast : ∀ trace, lastAnnounced (obs ++ trace) = some status)
      (hchannel : s'.ledChannel = some (s.ledChannel.getD pushed))
      (htimely : ∀ b, timely cfg (s, b) e = true ↔
        if b then pushed = status else s.phase.status = some status) : Tell cfg s e s' obs

theorem tell_idle (he : e = .ledsReceive → s.ledsTask = none)
    (htimely : ∀ b, timely cfg (s, b) e = true) : Tell cfg s e s [] :=
  .nothing rfl (fun t ht => ⟨t, ht, rfl⟩) he htimely

theorem tell_top (htop : TopEffect cfg.tickHz { s with ltem := false } s' obs)
    (hwaiting : s.phase.status ≠ some .waiting) (hgnss : s.phase.status ≠ some .gnssAcquisition)
    (htimely : ∀ b, timely cfg (s, b) e = true ↔
      b = true ∧ elapsed s < timeBetweenUpdates cfg.tickHz) (earlier : List Obs) :
    Tell cfg s e s' (obs ++ earlier) := by
  cases htop with
  | waiting hlt =>
    refine .told .waiting .waiting (fun _ => rfl) rfl ?_
    intro b
    have hlt' : elapsed s < timeBetweenUpdates cfg.tickHz := hlt
    rw [htimely b]
    cases b <;> simp [hlt', hwaiting]
  | started hle =>
    refine .told .waiting .gnssAcquisition (fun _ => rfl) rfl ?_
    intro b
    have hle' : ¬ elapsed s < timeBetweenUpdates cfg.tickHz := Nat.not_lt.mpr hle
    rw [htimely b]
    cases b <;> simp [hle', hgnss]

theorem tell_booted (h : step cfg s .booted = some (s', obs)) : Tell cfg s .booted s' obs := by
  cases hp : s.phase <;> simp only [step, hp] at h
  case booting =>
    obtain ⟨s₁, obs₁, htop, heff⟩ := topOfLoop_effect cfg.tickHz { s with ltem := false }
    rw [afterBoot, htop] at h
    cases h
    have htell := tell_top (e := .booted) heff (by simp [hp, Phase.status])
      (by simp [hp, Phase.status]) (by simp [timely, hp]) []
    rwa [List.append_nil] at htell
  all_goals
    cases h
    exact tell_idle (by simp) (by simp [timely, hp])

theorem tell_wait {deadline : Nat} (hp : s.phase = .waiting deadline)
    (h : afterWait cfg.tickHz s = some (s', obs))
    (htimely : ∀ b, timely cfg (s, b) e = true ↔ b = true ∨ elapsed s < minimumGap cfg.tickHz) :
    Tell cfg s e s' obs := by
  unfold afterWait at h
  by_cases hgap : elapsed s < minimumGap cfg.tickHz
  · rw [if_pos hgap] at h
    obtain ⟨s₁, obs₁, htop, heff⟩ := topOfLoop_effect cfg.tickHz s
    rw [htop] at h
    cases h
    cases heff with
    | waiting hlt =>
      refine .told .waiting .waiting (fun _ => rfl) rfl ?_
      intro b
      rw [htimely b]
      cases b <;> simp [hgap, hp, Phase.status]
    | started hle =>
      have hle' := minimumGap_le cfg.tickHz
      omega
  · rw [if_neg hgap] at h
    cases h
    refine .told .gnssAcquisition .gnssAcquisition (fun _ => rfl) rfl ?_
    intro b
    rw [htimely b]
    cases b <;> simp [hgap, hp, Phase.status]

theorem tell_timer (h : step cfg s .timer = some (s', obs)) : Tell cfg s .timer s' obs := by
  cases hp : s.phase <;> simp only [step, hp] at h
  case waiting deadline =>
    by_cases hd : deadline ≤ s.clock
    · rw [if_pos hd] at h
      refine tell_wait hp h ?_
      intro b
      simp [timely, hp, Nat.not_lt.mpr hd]
    · rw [if_neg hd] at h
      cases h
      exact tell_idle (by simp) (by simp [timely, hp, Nat.lt_of_not_le hd])
  case backingOff tries deadline =>
    by_cases hd : deadline ≤ s.clock
    · rw [if_pos hd] at h
      cases h
      exact .nothing rfl (fun t ht => ⟨t, ht, rfl⟩) (by simp) (by simp [timely, hp])
    · rw [if_neg hd] at h
      cases h
      exact tell_idle (by simp) (by simp [timely, hp])
  all_goals
    cases h
    exact tell_idle (by simp) (by simp [timely, hp])

theorem tell_failed {tries : Nat} {reading : Reading} {failure : UpdateLocationError}
    (hp : s.phase = .acquiring tries) (hl : getLocation reading = .error failure) (phase : Phase) :
    Tell cfg s (.reading reading) (announce .gnssWarning { s with phase := phase })
      [announcedObs .gnssWarning s, .read reading] := by
  refine .told .gnssWarning .gnssWarning (fun _ => rfl) rfl ?_
  intro b
  by_cases hzero : tries = 0
  · cases b <;> simp [timely, hp, hl, Except.isOk, Except.toBool, Phase.status, hzero]
  · have hpos : 0 < tries := Nat.pos_of_ne_zero hzero
    cases b <;> simp [timely, hp, hl, Except.isOk, Except.toBool, Phase.status, hzero, hpos]

theorem tell_reading {reading : Reading} (h : step cfg s (.reading reading) = some (s', obs)) :
    Tell cfg s (.reading reading) s' obs := by
  cases hp : s.phase <;> simp only [step, hp] at h
  case acquiring tries =>
    cases hl : getLocation reading with
    | ok location =>
      simp only [afterReading, hl, Option.isSome_some, if_true] at h
      cases h
      refine .told .readingUart .readingUart (fun _ => rfl) rfl ?_
      intro b
      by_cases hzero : tries = 0 <;> cases b <;>
        simp [timely, hp, hl, Except.isOk, Except.toBool, Phase.status, hzero]
    | error failure =>
      have hfailed : ∃ phase, (announce .gnssWarning { s with phase := phase },
          [announcedObs .gnssWarning s, .read reading]) = (s', obs) := by
        cases failure with
        | readingError =>
          simp only [afterReading, hl, Option.isSome_none, Bool.false_eq_true, if_false] at h
          exact ⟨_, Option.some.inj h⟩
        | invalidFix location =>
          simp only [afterReading, hl, Option.isSome_none, Bool.false_eq_true, if_false] at h
          exact ⟨_, Option.some.inj h⟩
      obtain ⟨phase, hfailed⟩ := hfailed
      cases hfailed
      exact tell_failed hp hl phase
  all_goals
    cases h
    exact tell_idle (by simp) (by simp [timely, hp])

theorem tell_decoded {tags : TagsSeen} (h : step cfg s (.decoded tags) = some (s', obs)) :
    Tell cfg s (.decoded tags) s' obs := by
  cases hp : s.phase <;> simp only [step, hp] at h
  case receiving location =>
    cases h
    refine .told .waitingNetwork .waitingNetwork (fun _ => rfl) rfl ?_
    intro b
    cases b <;> simp [timely, hp, Phase.status]
  all_goals
    cases h
    exact tell_idle (by simp) (by simp [timely, hp])

theorem tell_linkUp {serialised : Bool} (h : step cfg s (.linkUp serialised) = some (s', obs)) :
    Tell cfg s (.linkUp serialised) s' obs := by
  cases hp : s.phase <;> simp only [step, hp] at h
  case connecting location detectedTags decodeInstant =>
    obtain ⟨update, hu, h⟩ := Option.bind_eq_some_iff.mp h
    by_cases hsent : cfg.backend = .coap ∨ serialised = true
    · have hbuilt : some ({ announce .networkCommunication s with phase := .sending update },
          [.built update, announcedObs .networkCommunication s]) = some (s', obs) := by
        cases hsent with
        | inl hcoap => simpa only [hcoap] using h
        | inr htrue =>
          rw [htrue] at h
          cases hb : cfg.backend <;> simpa only [hb] using h
      cases hbuilt
      refine .told .networkCommunication .networkCommunication (fun _ => rfl) rfl ?_
      intro b
      cases b <;> simp [timely, hp, Phase.status, hsent]
    · have hfalse : serialised = false := by simpa using (not_or.mp hsent).2
      have hjson : cfg.backend ≠ .coap := (not_or.mp hsent).1
      obtain ⟨s₁, obs₁, htop, heff⟩ :=
        topOfLoop_effect cfg.tickHz (announce .networkCommunication s)
      have hend : some (s₁, obs₁ ++ ([.ended s.clock, .unserialised (elapsed s)] ++
          [.built update, announcedObs .networkCommunication s])) = some (s', obs) := by
        rw [hfalse] at h
        cases hb : cfg.backend with
        | coap => exact absurd hb hjson
        | http =>
          simp only [hb, htop, andThen, Option.map_some] at h
          exact h
        | mqtt =>
          simp only [hb, htop, andThen, Option.map_some] at h
          exact h
      cases hend
      cases heff with
      | waiting hlt =>
        refine .told .networkCommunication .waiting (fun _ => rfl) (by simp) ?_
        intro b
        cases b <;> simp [timely, hp, Phase.status, hfalse, hjson]
      | started hle =>
        refine .told .networkCommunication .gnssAcquisition (fun _ => rfl) (by simp [startUpdate]) ?_
        intro b
        cases b <;> simp [timely, hp, Phase.status, hfalse, hjson]
  all_goals
    cases h
    exact tell_idle (by simp) (by simp [timely, hp])

theorem afterSending_done {result : SendResult}
    (h : afterSending cfg result s = some (s', obs)) :
    if sendingDone cfg result then afterSent cfg.tickHz s = some (s', obs)
    else s' = s ∧ obs = [] := by
  cases hb : cfg.backend <;> cases result <;> simp only [afterSending, sendingDone, hb] at h ⊢
  case mqtt.mqtt outcomes =>
    cases hm : mqttConnectAndPublish outcomes <;> simp only [hm] at h ⊢
    case returned => simpa using h
    case waiting =>
      cases h
      simp
    case panicked => cases h
  all_goals
    first
    | simpa using h
    | cases h
      simp

theorem tell_sent {result : SendResult} (h : step cfg s (.sent result) = some (s', obs)) :
    Tell cfg s (.sent result) s' obs := by
  cases hp : s.phase <;> simp only [step, hp] at h
  case sending update =>
    have hsent := afterSending_done h
    by_cases hc : sendingDone cfg result = true
    · rw [if_pos hc] at hsent
      obtain ⟨s₁, obs₁, htop, heff⟩ := topOfLoop_effect cfg.tickHz { s with ltem := false }
      rw [afterSent, htop] at hsent
      cases hsent
      exact tell_top heff (by simp [hp, Phase.status]) (by simp [hp, Phase.status])
        (by simp [timely, hp, hc]) _
    · rw [if_neg hc] at hsent
      rw [hsent.1, hsent.2]
      exact tell_idle (by simp) (by simp [timely, hp, hc])
  all_goals
    cases h
    exact tell_idle (by simp) (by simp [timely, hp])

theorem tell_ledsReceive (h : step cfg s .ledsReceive = some (s', obs)) :
    Tell cfg s .ledsReceive s' obs := by
  cases ht : s.ledsTask <;> cases hc : s.ledChannel <;> simp only [step, ht, hc] at h
  case some.some t status =>
    cases h
    refine .received rfl (by simp [ht]) rfl (by simp [hc]) ?_
    intro status' hstatus
    rw [hc] at hstatus
    cases hstatus
    exact ⟨_, rfl, by simp [LedsTask.turn]⟩
  case some.none t =>
    cases h
    exact .received rfl (by simp [ht]) hc (fun _ => rfl) (by simp [hc])
  all_goals
    cases h
    exact tell_idle (fun _ => ht) (fun _ => rfl)

theorem tell_ledsTimer (h : step cfg s .ledsTimer = some (s', obs)) :
    Tell cfg s .ledsTimer s' obs := by
  cases h
  refine .nothing rfl ?_ (by simp) (fun _ => rfl)
  intro t ht
  refine ⟨t.turn none, by simp [ht], ?_⟩
  cases hn : t.nextPhase <;> simp [LedsTask.turn, hn]

theorem tell_of_step (h : step cfg s e = some (s', obs)) : Tell cfg s e s' obs := by
  cases e with
  | tick d =>
    by_cases hd : mayTick cfg s d = true
    · rw [step, if_pos hd] at h
      cases h
      exact .nothing rfl (fun t ht => ⟨t, ht, rfl⟩) (by simp) (fun _ => rfl)
    · rw [step, if_neg hd] at h
      cases h
      exact tell_idle (by simp) (fun _ => rfl)
  | booted => exact tell_booted h
  | buttonLow =>
    cases hp : s.phase <;> simp only [step, hp] at h
    case waiting deadline => exact tell_wait hp h (by simp [timely, hp])
    all_goals
      cases h
      exact tell_idle (by simp) (by simp [timely, hp])
  | timer => exact tell_timer h
  | reading reading => exact tell_reading h
  | decoded tags => exact tell_decoded h
  | linkUp serialised => exact tell_linkUp h
  | sent result => exact tell_sent h
  | ledsStarted =>
    cases ht : s.ledsTask <;> simp only [step, ht] at h
    case none =>
      cases h
      exact .nothing rfl (by simp [ht]) (by simp) (fun _ => rfl)
    case some t =>
      cases h
      exact tell_idle (by simp) (fun _ => rfl)
  | ledsReceive => exact tell_ledsReceive h
  | ledsTimer => exact tell_ledsTimer h

/-- While announcements are timely the LED shows what left the channel last, and the channel is empty
exactly when `leds` has had its turn. -/
structure WatchInv (trace : List Obs) (w : State × Bool) : Prop where
  shows : ShowsLast trace w.1
  turned : w.2 = true ↔ w.1.ledChannel = none
  last : lastAnnounced trace = w.1.phase.status

/-- What an announcement leaves in the channel, told without a look at the channel. -/
theorem WatchInv.pushed_iff {w : State × Bool} (hs : WatchInv trace w) (pushed status : LedState) :
    w.1.ledChannel.getD pushed = status ↔
      if w.2 then pushed = status else w.1.phase.status = some status := by
  cases hc : w.1.ledChannel with
  | none => simp [hs.turned.mpr hc]
  | some found =>
    have hfound := hs.shows.channel found hc
    have hturned : w.2 = false := by
      cases ht : w.2 with
      | false => rfl
      | true =>
        rw [hs.turned.mp ht] at hc
        cases hc
    rw [hs.last] at hfound
    simp [hturned, hfound]

/-- A step leaves the last status in sight exactly when it is timely. -/
theorem Tell.showsLast_iff {w : State × Bool} (hs : WatchInv trace w)
    (h : Tell cfg w.1 e s' obs) : ShowsLast (obs ++ trace) s' ↔ timely cfg w e = true := by
  cases h with
  | nothing hchannel hleds he htimely =>
    refine iff_of_true ⟨?_, ?_⟩ (htimely w.2)
    · intro status hstatus
      exact hs.shows.channel status (hchannel ▸ hstatus)
    · intro hnone status hlast
      obtain ⟨t, ht, hstatus⟩ := hs.shows.leds (hchannel ▸ hnone) status hlast
      obtain ⟨t', ht', hsame⟩ := hleds t ht
      exact ⟨t', ht', hsame.trans hstatus⟩
  | received he ht hchannel hsame hleds =>
    have htimely : timely cfg w e = true := by
      rw [he]
      rfl
    refine iff_of_true ⟨by simp [hchannel], ?_⟩ htimely
    intro _ status hlast
    cases hc : w.1.ledChannel with
    | none =>
      rw [hsame hc]
      exact hs.shows.leds hc status hlast
    | some found =>
      rw [List.nil_append, hs.shows.channel found hc] at hlast
      cases hlast
      exact hleds _ hc
  | told pushed status hlast hchannel htimely =>
    rw [htimely w.2, ← hs.pushed_iff pushed status]
    constructor
    · intro hs'
      have hfound := hs'.channel _ hchannel
      rw [hlast trace] at hfound
      exact (Option.some.inj hfound).symm
    · intro hpushed
      rw [hpushed] at hchannel
      refine ⟨?_, by simp [hchannel]⟩
      intro status' hstatus
      rw [hlast trace, ← hstatus, hchannel]

theorem Tell.turned_iff {turned : Bool} (hs : turned = true ↔ s.ledChannel = none)
    (h : Tell cfg s e s' obs) : watch turned s e obs = true ↔ s'.ledChannel = none := by
  cases h with
  | nothing hchannel hleds he htimely =>
    rw [hchannel, ← hs]
    cases e with
    | ledsReceive => simp [watch, lastAnnounced, he rfl]
    | _ => rfl
  | received he ht hchannel hsame hleds =>
    rw [he]
    simp [watch, lastAnnounced, ht, hchannel]
  | told pushed status hlast hchannel htimely =>
    have hsome : lastAnnounced obs = some status := by simpa using hlast []
    simp [watch, hsome, hchannel]

theorem run_watchInv {w : State × Bool}
    (h : ((watched cfg).guarded (timely cfg)).Run trace w) : WatchInv trace w := by
  have hinit : WatchInv [] ((watched cfg).guarded (timely cfg)).init :=
    ⟨⟨by simp [Lib.Machine.guarded, watched, Lib.Machine.ghosted, updates],
      by simp [lastAnnounced]⟩, iff_of_true rfl rfl, rfl⟩
  refine h.invariant (P := WatchInv) hinit ?_
  intro trace w e w' obs _ hs hstep
  obtain ⟨htimely, hwatched⟩ := Lib.Machine.guarded_step hstep
  obtain ⟨hstep, hturned⟩ := Lib.Machine.ghosted_step hwatched
  have htell := tell_of_step hstep
  refine ⟨(htell.showsLast_iff hs).mpr htimely, ?_, ?_⟩
  · rw [hturned]
    exact htell.turned_iff hs.turned
  · exact effect_lastAnnounced hs.last (effect_of_step hstep)

/-- The LED shows the last status that has left the channel in every run whose steps are timely; the
first one that is not leaves an older status in the place of the last. -/
theorem showsLast_run {w : State × Bool} (h : ((watched cfg).guarded (timely cfg)).Run trace w) :
    (updates cfg).Run trace w.1 ∧ ShowsLast trace w.1 ∧
      ∀ e w' obs, (watched cfg).step w e = some (w', obs) → timely cfg w e = false →
        ¬ ShowsLast (obs ++ trace) w'.1 := by
  have hs := run_watchInv h
  refine ⟨Lib.Machine.run_ghosted_iff.mpr ⟨w.2, h.unguarded⟩, hs.shows, ?_⟩
  intro e w' obs hstep hlate hs'
  have htimely := ((tell_of_step (Lib.Machine.ghosted_step hstep).1).showsLast_iff hs).mp hs'
  rw [hlate] at htimely
  cases htimely

/- The start of the first update, while the LED is blue. -/
theorem showsLast_acquiring : ∃ w, ((watched (sampleConfig .coap)).guarded
    (timely (sampleConfig .coap))).Run
      [.announced .gnssAcquisition none, .started 900, .announced .waiting none] w ∧
    w.1.ledChannel = some .gnssAcquisition ∧
    ShowsLast [.announced .gnssAcquisition none, .started 900, .announced .waiting none] w.1 := by
  have hrun : ∃ w, ((watched (sampleConfig .coap)).guarded (timely (sampleConfig .coap))).Run
      [.announced .gnssAcquisition none, .started 900, .announced .waiting none] w ∧
      w.1.ledChannel = some .gnssAcquisition :=
    ⟨_, Lib.Machine.run_of_exec [.booted, .ledsStarted, .ledsReceive, .tick 900, .timer] rfl, rfl⟩
  obtain ⟨w, hrun, hchannel⟩ := hrun
  exact ⟨w, hrun, hchannel, (showsLast_run hrun).2.1⟩

/-- When the link comes up 900 s after the tags arrived, the LED stays blue while the next position is
acquired: at the end of the cycle both statuses are announced before `leds` can run. -/
theorem acquisition_shown_as_waiting : ¬ ∀ (cfg : Config) (trace : List Obs) (s : State),
    (updates cfg).Run trace s → s.ledChannel = none → ∀ status, lastAnnounced trace = some status →
      ∃ t, s.ledsTask = some t ∧ t.leds = status.leds := by
  intro h
  have hs := h (sampleConfig .coap) _ _ (Lib.Machine.run_of_exec
    [.booted, .ledsStarted, .ledsReceive, .tick 900, .timer, .ledsReceive, .reading sampleReading,
      .ledsReceive, .decoded sampleTags, .ledsReceive, .tick 900, .linkUp true, .ledsReceive,
      .tick 2, .sent .coap, .ledsReceive] rfl) rfl .gnssAcquisition rfl
  obtain ⟨t, ht, hleds⟩ := hs
  have hblue : t.leds = (false, false, true) := by
    cases ht
    rfl
  rw [hblue] at hleds
  cases hleds

end AssetTracker.Gateway.Updates

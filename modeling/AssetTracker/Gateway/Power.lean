import AssetTracker.Gateway.Updates

/-! When LTE-M is on. It is enabled once the tags are received and disabled after sending; what is
left of that when an update cannot be serialised, or when the MQTT client fails. -/
namespace AssetTracker.Gateway.Updates

/-- On while `updates` connects or sends, off while it does anything else; before the set-up is done it
is as the platform leaves it. -/
def LtemDisciplined (cfg : Config) (s : State) : Prop :=
  match s.phase with
  | .booting => s.ltem = cfg.ltemAtBoot
  | .waiting _ => s.ltem = false
  | .acquiring _ => s.ltem = false
  | .backingOff _ _ => s.ltem = false
  | .receiving _ => s.ltem = false
  | .connecting _ _ _ => s.ltem = true
  | .sending _ => s.ltem = true

/-- Serialising only ever failed once it was time for the next update. -/
def SerialisedInTime (cfg : Config) (trace : List Obs) : Prop :=
  ∀ d, .unserialised d ∈ trace → timeBetweenUpdates cfg.tickHz ≤ d

variable {cfg : Config} {s s' : State} {obs trace : List Obs}

theorem top_ltemDisciplined (htop : TopEffect cfg.tickHz s s' obs)
    (h : s.ltem = false ∨ timeBetweenUpdates cfg.tickHz ≤ elapsed s) : LtemDisciplined cfg s' := by
  cases htop with
  | waiting hlt =>
    cases h with
    | inl hoff => exact hoff
    | inr hle => omega
  | started hle => rfl

theorem effect_ltemDisciplined (hs : LtemDisciplined cfg s) (heff : Effect cfg s s' obs)
    (htime : SerialisedInTime cfg obs) : LtemDisciplined cfg s' := by
  cases heff with
  | idle => exact hs
  | tick d h => exact hs
  | booted hp htop => exact top_ltemDisciplined htop (.inl rfl)
  | skipped deadline hp h => simpa [LtemDisciplined, hp] using hs
  | started deadline hp h => rfl
  | located tries reading location hp hl => simpa [LtemDisciplined, hp] using hs
  | failed tries reading phase hp hphase =>
    cases hphase with
    | inl hphase => simpa [LtemDisciplined, hp, hphase] using hs
    | inr hphase => simpa [LtemDisciplined, hp, hphase] using hs
  | retried tries deadline hp => simpa [LtemDisciplined, hp] using hs
  | decoded location detectedTags hp => rfl
  | built location detectedTags decodeInstant update hp hu =>
    simpa [LtemDisciplined, hp] using hs
  | unserialised location detectedTags decodeInstant update hp hu htop =>
    exact top_ltemDisciplined htop (.inr (htime (elapsed s) (by simp)))
  | sent update hp htop => exact top_ltemDisciplined htop (.inl rfl)
  | ledsStarted ht => exact hs
  | ledsReceived t status ht hc => exact hs
  | ledsTimer => exact hs

theorem SerialisedInTime.append_left (h : SerialisedInTime cfg (obs ++ trace)) :
    SerialisedInTime cfg obs :=
  fun d hd => h d (List.mem_append_left trace hd)

theorem SerialisedInTime.append_right (h : SerialisedInTime cfg (obs ++ trace)) :
    SerialisedInTime cfg trace :=
  fun d hd => h d (List.mem_append_right obs hd)

theorem run_ltemDisciplined (h : (updates cfg).Run trace s) (htime : SerialisedInTime cfg trace) :
    LtemDisciplined cfg s := by
  have hinit : LtemDisciplined cfg (updates cfg).init := rfl
  exact h.invariant_while (P := fun _ s => LtemDisciplined cfg s) SerialisedInTime.append_left
    SerialisedInTime.append_right hinit
    (fun _ hs hstep htime => effect_ltemDisciplined hs (effect_of_step hstep) htime) htime

/-- A failure before that leaves LTE-M on for the wait that follows. -/
theorem unserialised_not_ltemDisciplined (hs : LtemDisciplined cfg s) (heff : Effect cfg s s' obs)
    (hfail : ¬ SerialisedInTime cfg obs) : ¬ LtemDisciplined cfg s' := by
  have hnone : (∀ d, .unserialised d ∉ obs) → ¬ LtemDisciplined cfg s' := by
    intro h
    exact absurd (fun d hd => absurd hd (h d)) hfail
  have htopObs : ∀ {s₁ s₂ : State} {obs₁ : List Obs}, TopEffect cfg.tickHz s₁ s₂ obs₁ →
      ∀ d, .unserialised d ∉ obs₁ := by
    intro s₁ s₂ obs₁ htop d
    cases htop <;> simp [announcedObs, startObs]
  cases heff with
  | booted hp htop => exact hnone (htopObs htop)
  | sent update hp htop => exact hnone fun d => by simpa using htopObs htop d
  | unserialised location detectedTags decodeInstant update hp hu htop =>
    have hon : s.ltem = true := by simpa [LtemDisciplined, hp] using hs
    cases htop with
    | waiting hlt =>
      intro hs'
      have hoff : s.ltem = false := hs'
      rw [hon] at hoff
      cases hoff
    | started hle =>
      apply absurd _ hfail
      intro d hd
      have hd : d = elapsed s := by simpa [announcedObs, startObs] using hd
      rw [hd]
      exact hle
  | _ => exact hnone (by simp [announcedObs, startObs])

/-- LTE-M is off whenever it should be, in every run in which serialising only fails when the next
update is due; the first failure before that ends this. -/
theorem ltem_disciplined_run (h : (updates cfg).Run trace s)
    (htime : SerialisedInTime cfg trace) :
    LtemDisciplined cfg s ∧ ∀ e s' obs, (updates cfg).step s e = some (s', obs) →
      ¬ SerialisedInTime cfg obs → ¬ LtemDisciplined cfg s' := by
  have hs := run_ltemDisciplined h htime
  refine ⟨hs, ?_⟩
  intro e s' obs hstep hfail
  exact unserialised_not_ltemDisciplined hs (effect_of_step hstep) hfail

/- The first cycle, up to the wait for the network. -/
def connectingTrace : List Obs :=
  [.announced .waitingNetwork (some .waiting), .announced .readingUart (some .waiting),
    .read sampleReading, .announced .gnssAcquisition (some .waiting), .started 900,
    .announced .waiting none]

theorem ltem_disciplined_connecting : ∃ s, (updates (sampleConfig .http)).Run connectingTrace s ∧
    LtemDisciplined (sampleConfig .http) s := by
  have hrun : ∃ s, (updates (sampleConfig .http)).Run connectingTrace s :=
    ⟨_, Lib.Machine.run_of_exec
      [.booted, .tick 900, .timer, .reading sampleReading, .decoded sampleTags] rfl⟩
  obtain ⟨s, hrun⟩ := hrun
  have htime : SerialisedInTime (sampleConfig .http) connectingTrace := by
    simp [SerialisedInTime, connectingTrace]
  exact ⟨s, hrun, (ltem_disciplined_run hrun htime).1⟩

/-- An update that cannot be serialised leaves LTE-M on while waiting for the next one. -/
theorem ltem_left_on : ¬ ∀ (cfg : Config) (trace : List Obs) (s : State),
    (updates cfg).Run trace s → LtemDisciplined cfg s := by
  intro h
  have hs := h (sampleConfig .http) _ _ (Lib.Machine.run_of_exec
    [.booted, .tick 900, .timer, .reading sampleReading, .decoded sampleTags, .linkUp false] rfl)
  have hoff : true = false := hs
  cases hoff

/-- The call to the MQTT client ends by returning, if it ends, and then LTE-M is switched off and the
next update awaited or begun. -/
def Recovers (cfg : Config) (s : State) (outcomes : MqttOutcomes) : Prop :=
  mqttConnectAndPublish outcomes ≠ .panicked ∧
    (mqttConnectAndPublish outcomes = .returned →
      ∃ s' obs, (updates cfg).step s (.sent (.mqtt outcomes)) = some (s', obs) ∧ s'.ltem = false ∧
        ((∃ deadline, s'.phase = .waiting deadline) ∨ s'.phase = .acquiring 0))

theorem top_recovers {tickHz : Nat} {s s' : State} {obs : List Obs}
    (htop : TopEffect tickHz s s' obs) (hoff : s.ltem = false) :
    s'.ltem = false ∧ ((∃ deadline, s'.phase = .waiting deadline) ∨ s'.phase = .acquiring 0) := by
  cases htop with
  | waiting hlt => exact ⟨hoff, .inl ⟨_, rfl⟩⟩
  | started hle => exact ⟨rfl, .inr rfl⟩

theorem sent_returned {cfg : Config} {s : State} {update : GatewayUpdate}
    {outcomes : MqttOutcomes} (hb : cfg.backend = .mqtt) (hp : s.phase = .sending update)
    (hr : mqttConnectAndPublish outcomes = .returned) :
    ∃ s' obs, (updates cfg).step s (.sent (.mqtt outcomes)) = some (s', obs) ∧ s'.ltem = false ∧
      ((∃ deadline, s'.phase = .waiting deadline) ∨ s'.phase = .acquiring 0) := by
  obtain ⟨s', obs, htop, heff⟩ := topOfLoop_effect cfg.tickHz { s with ltem := false }
  refine ⟨s', obs ++ [.ended s.clock], ?_, top_recovers heff rfl⟩
  change step cfg s (.sent (.mqtt outcomes)) = _
  simp only [step, hp, afterSending, hb, hr]
  rw [afterSent, htop]
  rfl

/-- The gateway survives exactly when the network fails early or the broker accepts everything. -/
theorem mqtt_recovers_iff {cfg : Config} {s : State} {update : GatewayUpdate}
    (hb : cfg.backend = .mqtt) (hp : s.phase = .sending update) (outcomes : MqttOutcomes) :
    Recovers cfg s outcomes ↔ Accepted outcomes := by
  constructor
  · intro h
    by_contra hno
    exact h.1 ((mqttConnectAndPublish_panicked_iff outcomes).mpr hno)
  · intro h
    refine ⟨?_, sent_returned hb hp⟩
    intro hpanic
    exact (mqttConnectAndPublish_panicked_iff outcomes).mp hpanic h

/- Everything accepted, and a broker that refuses the credentials. -/
def acceptedOutcomes : MqttOutcomes :=
  ⟨.ok (), .ok (), .ok (), .ok (some 1), [.ok .other, .ok (.publishComplete 1)], .ok ()⟩

def refusedOutcomes : MqttOutcomes := { acceptedOutcomes with connect := .error () }

theorem mqtt_recovers_accepted :
    Recovers (sampleConfig .mqtt)
      { (updates (sampleConfig .mqtt)).init with
        phase := .sending ⟨⟨"sent", by decide⟩, 0, .empty, none, none⟩ } acceptedOutcomes :=
  (mqtt_recovers_iff rfl rfl acceptedOutcomes).mpr
    (.inr (.inr ⟨⟨(), rfl⟩, ⟨1, rfl⟩, fun _ => ⟨(), rfl⟩⟩))

theorem mqtt_refused_not_recovers : ¬ ∀ trace s update outcomes,
    (updates (sampleConfig .mqtt)).Run trace s → s.phase = .sending update →
      Recovers (sampleConfig .mqtt) s outcomes := by
  intro h
  have hs := h _ _ _ refusedOutcomes (Lib.Machine.run_of_exec
    [.booted, .tick 900, .timer, .reading sampleReading, .decoded sampleTags, .linkUp true] rfl) rfl
  exact hs.1 rfl

end AssetTracker.Gateway.Updates

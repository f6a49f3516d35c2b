import AssetTracker.Gateway.Updates

/-! The cycle of `updates` as a whole: one update is built in every cycle, the scanner is asked for tags
exactly while they are waited for, and what can make the task panic. -/
namespace AssetTracker.Gateway.Updates

/-- What counts the cycles. -/
inductive Mark where
  | started
  | built
  | ended
deriving DecidableEq

def mark : Obs → Option Mark
  | .started _ => some .started
  | .built _ => some .built
  | .ended _ => some .ended
  | _ => none

/-- What there is of the running cycle, newest first. -/
def Phase.marks : Phase → List Mark
  | .booting => []
  | .waiting _ => []
  | .sending _ => [.built, .started]
  | _ => [.started]

def cycles (n : Nat) : List Mark := (List.replicate n [Mark.ended, .built, .started]).flatten

structure CycleInv (trace : List Obs) (s : State) : Prop where
  marks : ∃ n, trace.filterMap mark = s.phase.marks ++ cycles n
  request : s.uartRequest = true ↔ ∃ location, s.phase = .receiving location
  decoded : ∀ location tags instant, s.phase = .connecting location tags instant → instant ≤ s.clock

variable {cfg : Config} {s s' : State} {obs trace : List Obs}

theorem cycles_succ (n : Nat) : cycles (n + 1) = [.ended, .built, .started] ++ cycles n := by
  rw [cycles, List.replicate_succ, List.flatten_cons, cycles]

theorem top_cycleInv {tickHz n : Nat} (htop : TopEffect tickHz s s' obs)
    (hmarks : trace.filterMap mark = cycles n) (hrequest : s.uartRequest = false) :
    CycleInv (obs ++ trace) s' := by
  cases htop with
  | waiting hlt =>
    exact ⟨⟨n, hmarks⟩, by simp [announce, hrequest], by simp⟩
  | started hle =>
    have hstarted := congrArg (List.cons Mark.started) hmarks
    exact ⟨⟨n, hstarted⟩, by simp [startUpdate, announce, hrequest], by simp [startUpdate]⟩

theorem CycleInv.request_low (hs : CycleInv trace s) (h : ∀ location, s.phase ≠ .receiving location) :
    s.uartRequest = false := by
  cases hr : s.uartRequest with
  | false => rfl
  | true =>
    obtain ⟨location, hp⟩ := hs.request.mp hr
    exact absurd hp (h location)

theorem CycleInv.keep (hs : CycleInv trace s) (hobs : obs.filterMap mark = [])
    (hmarks : s'.phase.marks = s.phase.marks)
    (hrequest : s'.uartRequest = true ↔ ∃ location, s'.phase = .receiving location)
    (hdecoded : ∀ location tags instant, s'.phase = .connecting location tags instant →
      instant ≤ s'.clock) : CycleInv (obs ++ trace) s' := by
  obtain ⟨n, hn⟩ := hs.marks
  refine ⟨⟨n, ?_⟩, hrequest, hdecoded⟩
  rw [List.filterMap_append, hobs, hmarks, List.nil_append, hn]

theorem effect_cycleInv (hs : CycleInv trace s) (heff : Effect cfg s s' obs) :
    CycleInv (obs ++ trace) s' := by
  obtain ⟨n, hn⟩ := hs.marks
  cases heff with
  | idle => exact hs
  | tick d h =>
    refine hs.keep rfl rfl hs.request ?_
    intro location tags instant hp
    exact (hs.decoded location tags instant hp).trans (Nat.le_add_right _ d)
  | booted hp htop =>
    rw [hp] at hn
    exact top_cycleInv htop hn (hs.request_low (by simp [hp]))
  | skipped deadline hp h =>
    have hlow := hs.request_low (by simp [hp])
    exact hs.keep rfl (by simp [hp, Phase.marks]) (by simp [announce, hlow]) (by simp)
  | started deadline hp h =>
    have hlow := hs.request_low (by simp [hp])
    rw [hp] at hn
    have hstarted := congrArg (List.cons Mark.started) hn
    exact ⟨⟨n, hstarted⟩, by simp [startUpdate, announce, hlow], by simp [startUpdate]⟩
  | located tries reading location hp hl =>
    exact hs.keep rfl (by simp [hp, Phase.marks]) (by simp [announce]) (by simp)
  | failed tries reading phase hp hphase =>
    have hlow := hs.request_low (by simp [hp])
    cases hphase with
    | inl hphase =>
      rw [hphase]
      exact hs.keep rfl (by simp [hp, Phase.marks]) (by simp [announce, hlow]) (by simp)
    | inr hphase =>
      rw [hphase]
      exact hs.keep rfl (by simp [hp, Phase.marks]) (by simp [announce, hlow]) (by simp)
  | retried tries deadline hp =>
    have hlow := hs.request_low (by simp [hp])
    have hkeep : CycleInv ([] ++ trace) { s with phase := .acquiring tries } :=
      hs.keep rfl (by simp [hp, Phase.marks]) (by simp [hlow]) (by simp)
    exact hkeep
  | decoded location detectedTags hp =>
    refine hs.keep rfl (by simp [hp, Phase.marks]) (by simp [announce]) ?_
    intro location' tags instant hphase
    cases hphase
    exact le_refl s.clock
  | built location detectedTags decodeInstant update hp hu =>
    have hlow := hs.request_low (by simp [hp])
    rw [hp] at hn
    have hbuilt := congrArg (List.cons Mark.built) hn
    exact ⟨⟨n, hbuilt⟩, by simp [announce, hlow], by simp⟩
  | unserialised location detectedTags decodeInstant update hp hu htop =>
    rw [hp] at hn
    rw [List.append_assoc]
    refine top_cycleInv (n := n + 1) htop ?_ (hs.request_low (by simp [hp]))
    rw [cycles_succ]
    exact congrArg (fun marks => Mark.ended :: .built :: marks) hn
  | sent update hp htop =>
    rw [hp] at hn
    rw [List.append_assoc]
    refine top_cycleInv (n := n + 1) htop ?_ (hs.request_low (by simp [hp]))
    rw [cycles_succ]
    exact congrArg (List.cons Mark.ended) hn
  | ledsStarted ht => exact hs.keep rfl rfl hs.request hs.decoded
  | ledsReceived t status ht hc => exact hs.keep rfl rfl hs.request hs.decoded
  | ledsTimer => exact hs.keep rfl rfl hs.request hs.decoded

theorem cycleInv_run (h : (updates cfg).Run trace s) : CycleInv trace s := by
  refine h.invariant ⟨⟨0, rfl⟩, by simp [updates], by simp [updates]⟩ ?_
  intro trace s e s' obs _ hs hstep
  exact effect_cycleInv hs (effect_of_step hstep)

/-- Cycles do not overlap, and each one builds an update exactly once, before it ends; and the scanner
is asked for tags exactly while the task waits for them. -/
theorem one_update_per_cycle (h : (updates cfg).Run trace s) :
    (∃ n, trace.filterMap mark = s.phase.marks ++ cycles n) ∧
      (s.uartRequest = true ↔ ∃ location, s.phase = .receiving location) :=
  ⟨(cycleInv_run h).marks, (cycleInv_run h).request⟩

def firstCycle : List Event :=
  [.booted, .tick 900, .timer, .reading sampleReading, .decoded sampleTags, .linkUp true]

/-- Behind the first cycle. -/
theorem one_update_per_cycle_first : ∃ trace s n, (updates (sampleConfig .coap)).Run trace s ∧
    trace.filterMap mark = [.ended, .built, .started] ∧ trace.filterMap mark = cycles n := by
  have hrun : ∃ trace s, (updates (sampleConfig .coap)).Run trace s ∧
      trace.filterMap mark = [.ended, .built, .started] ∧ s.phase = .waiting 1800 :=
    ⟨_, _, Lib.Machine.run_of_exec (firstCycle ++ [.sent .coap]) rfl, rfl, rfl⟩
  obtain ⟨trace, s, hrun, hended, hp⟩ := hrun
  obtain ⟨⟨n, hn⟩, _⟩ := one_update_per_cycle hrun
  rw [hp] at hn
  exact ⟨trace, s, n, hrun, hended, hn⟩

/-- The age of some tag leaves its range in a build that checks for it. -/
def Overflows (cfg : Config) (s : State) (tags : TagsSeen) (instant : Nat) : Prop :=
  cfg.checks = true ∧ ∃ tag ∈ tags.tags.toList,
    65535 < tag.age.toNat + min 65535 ((s.clock - instant) / cfg.tickHz)

/-- The two ways the task can be made to panic. -/
inductive Panics (cfg : Config) (s : State) : Event → Prop where
  | linkUp {location : Option Location} {tags : TagsSeen} {instant : Nat} (serialised : Bool)
      (hp : s.phase = .connecting location tags instant) (h : Overflows cfg s tags instant) :
      Panics cfg s (.linkUp serialised)
  | sent {update : GatewayUpdate} (outcomes : MqttOutcomes) (hp : s.phase = .sending update)
      (hb : cfg.backend = .mqtt) (h : ¬ Accepted outcomes) : Panics cfg s (.sent (.mqtt outcomes))

theorem topOfLoop_ne_none (tickHz : Nat) (s : State) : topOfLoop tickHz s ≠ none := by
  obtain ⟨s', obs, htop, _⟩ := topOfLoop_effect tickHz s
  simp [htop]

theorem andThen_topOfLoop_ne_none (tickHz : Nat) (s : State) (earlier : List Obs) :
    andThen (topOfLoop tickHz s) earlier ≠ none := by
  simpa [andThen] using topOfLoop_ne_none tickHz s

theorem afterWait_ne_none (tickHz : Nat) (s : State) : afterWait tickHz s ≠ none := by
  unfold afterWait
  split_ifs
  · exact andThen_topOfLoop_ne_none tickHz s _
  · simp

theorem afterLinkUp_none_iff {location : Option Location} {tags : TagsSeen} {instant : Nat}
    (hle : instant ≤ s.clock) (serialised : Bool) :
    afterLinkUp cfg location tags instant serialised s = none ↔ Overflows cfg s tags instant := by
  rw [Overflows, ← gatewayUpdate_eq_none_iff cfg.checks cfg.tickHz cfg.deviceId location tags hle,
    afterLinkUp]
  cases hu : gatewayUpdate cfg.checks cfg.tickHz cfg.deviceId location tags instant s.clock with
  | none => simp
  | some update =>
    cases cfg.backend <;> cases serialised <;> simp [andThen_topOfLoop_ne_none]

theorem afterSending_none_iff {result : SendResult} : afterSending cfg result s = none ↔
    ∃ outcomes, result = .mqtt outcomes ∧ cfg.backend = .mqtt ∧ ¬ Accepted outcomes := by
  have hsent : afterSent cfg.tickHz s ≠ none :=
    andThen_topOfLoop_ne_none cfg.tickHz { s with ltem := false } [.ended s.clock]
  unfold afterSending
  cases result with
  | coap => cases hb : cfg.backend <;> simp [hsent]
  | http result => cases hb : cfg.backend <;> simp [hsent]
  | mqtt outcomes =>
    cases hb : cfg.backend with
    | mqtt =>
      simp only [SendResult.mqtt.injEq, exists_eq_left', true_and,
        ← mqttConnectAndPublish_panicked_iff]
      cases mqttConnectAndPublish outcomes <;> simp [hsent]
    | _ => simp

/-- Of what can happen to the task in the model, only an age that overflows and a broker that refuses
something make it panic. -/
theorem updates_panics_iff (h : (updates cfg).Run trace s) (e : Event) :
    (updates cfg).step s e = none ↔ Panics cfg s e := by
  have hs := cycleInv_run h
  change step cfg s e = none ↔ Panics cfg s e
  constructor
  · intro hnone
    cases e with
    | linkUp serialised =>
      cases hp : s.phase with
      | connecting location tags instant =>
        simp only [step, hp] at hnone
        exact .linkUp serialised hp
          ((afterLinkUp_none_iff (hs.decoded location tags instant hp) serialised).mp hnone)
      | _ => simp [step, hp] at hnone
    | sent result =>
      cases hp : s.phase with
      | sending update =>
        simp only [step, hp] at hnone
        obtain ⟨outcomes, rfl, hb, hrefused⟩ := afterSending_none_iff.mp hnone
        exact .sent outcomes hp hb hrefused
      | _ => simp [step, hp] at hnone
    | booted =>
      cases hp : s.phase <;> simp [step, hp, afterBoot, topOfLoop_ne_none] at hnone
    | buttonLow => cases hp : s.phase <;> simp [step, hp, afterWait_ne_none] at hnone
    | timer =>
      cases hp : s.phase <;> simp only [step, hp, reduceCtorEq] at hnone <;> split_ifs at hnone
      exact absurd hnone (afterWait_ne_none cfg.tickHz s)
    | tick d =>
      simp only [step] at hnone
      split_ifs at hnone
    | reading reading => cases hp : s.phase <;> simp [step, hp] at hnone
    | decoded tags => cases hp : s.phase <;> simp [step, hp] at hnone
    | ledsStarted => cases ht : s.ledsTask <;> simp [step, ht] at hnone
    | ledsReceive => cases ht : s.ledsTask <;> cases hc : s.ledChannel <;> simp [step, ht, hc] at hnone
    | ledsTimer => simp [step] at hnone
  · intro hpanics
    cases hpanics with
    | linkUp serialised hp hoverflow =>
      simp only [step, hp]
      exact (afterLinkUp_none_iff (hs.decoded _ _ _ hp) serialised).mpr hoverflow
    | sent outcomes hp hb hrefused =>
      simp only [step, hp]
      exact afterSending_none_iff.mpr ⟨outcomes, rfl, hb, hrefused⟩

/- A tag of the greatest age, one second before the link comes up. -/
def oldTag : DetectedTag := ⟨⟨"old", by decide⟩, ⟨"forgotten", by decide⟩, 65535, -60, 7⟩

def oldTags : TagsSeen := ⟨⟨[oldTag], by decide⟩⟩

theorem updates_panics_overflow : ∃ trace s, (updates (sampleConfig .coap)).Run trace s ∧
    (updates (sampleConfig .coap)).step s (.linkUp true) = none := by
  have hrun : ∃ trace s, (updates (sampleConfig .coap)).Run trace s ∧ s.clock = 901 ∧
      ∃ location, s.phase = .connecting location oldTags 900 :=
    ⟨_, _, Lib.Machine.run_of_exec [.booted, .tick 900, .timer, .reading sampleReading,
      .decoded oldTags, .tick 1] rfl, rfl, _, rfl⟩
  obtain ⟨trace, s, hrun, hclock, location, hp⟩ := hrun
  have hoverflow : Overflows (sampleConfig .coap) s oldTags 900 := by
    rw [Overflows, hclock]
    decide
  exact ⟨trace, s, hrun, (updates_panics_iff hrun _).mpr (.linkUp true hp hoverflow)⟩

end AssetTracker.Gateway.Updates

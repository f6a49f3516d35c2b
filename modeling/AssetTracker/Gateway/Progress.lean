import AssetTracker.Gateway.Cycle

/-! That `updates` goes on: what it takes for the task to ask for tags again, and the one state from
which it never will. -/
namespace AssetTracker.Gateway.Updates

/-- What happens to the task while nothing goes wrong: time passes, a reading has a fix, an update can
be serialised and is accepted. -/
def Event.Smooth : Event → Prop
  | .tick _ => True
  | .booted => True
  | .timer => True
  | .reading r => ∃ location, getLocation r = .ok location
  | .linkUp serialised => serialised = true
  | .sent (.mqtt outcomes) => Accepted outcomes
  | .sent _ => True
  | _ => False

def Asking (s : State) : Prop := ∃ location, s.phase = .receiving location

structure WaitInv (tickHz : Nat) (s : State) : Prop where
  past : s.lastUpdateStart ≤ s.clock
  deadline : ∀ deadline, s.phase = .waiting deadline →
    deadline = s.lastUpdateStart + timeBetweenUpdates tickHz

variable {cfg : Config} {s s' : State} {obs trace : List Obs}

theorem top_waitInv {tickHz : Nat} (htop : TopEffect tickHz s s' obs)
    (hpast : s.lastUpdateStart ≤ s.clock) : WaitInv tickHz s' := by
  cases htop with
  | waiting hlt =>
    refine ⟨hpast, ?_⟩
    intro deadline hp
    cases hp
    unfold elapsed at hlt ⊢
    dsimp only [announce]
    omega
  | started hle => exact ⟨le_refl _, by simp [startUpdate]⟩

theorem effect_waitInv (hs : WaitInv cfg.tickHz s) (heff : Effect cfg s s' obs) :
    WaitInv cfg.tickHz s' := by
  cases heff with
  | idle => exact hs
  | tick d h => exact ⟨hs.past.trans (Nat.le_add_right _ d), hs.deadline⟩
  | booted hp htop => exact top_waitInv htop hs.past
  | skipped deadline hp h =>
    refine ⟨hs.past, ?_⟩
    intro deadline' hp'
    cases hp'
    have hpast := hs.past
    have hle := minimumGap_le cfg.tickHz
    unfold elapsed at h ⊢
    dsimp only [announce]
    omega
  | started deadline hp h => exact ⟨le_refl _, by simp [startUpdate]⟩
  | located tries reading location hp hl => exact ⟨hs.past, by simp⟩
  | failed tries reading phase hp hphase =>
    cases hphase with
    | inl hphase => exact ⟨hs.past, by simp [hphase]⟩
    | inr hphase => exact ⟨hs.past, by simp [hphase]⟩
  | retried tries deadline hp => exact ⟨hs.past, by simp⟩
  | decoded location detectedTags hp => exact ⟨hs.past, by simp⟩
  | built location detectedTags decodeInstant update hp hu => exact ⟨hs.past, by simp⟩
  | unserialised location detectedTags decodeInstant update hp hu htop =>
    exact top_waitInv htop hs.past
  | sent update hp htop => exact top_waitInv htop hs.past
  | ledsStarted ht => exact ⟨hs.past, hs.deadline⟩
  | ledsReceived t status ht hc => exact ⟨hs.past, hs.deadline⟩
  | ledsTimer => exact ⟨hs.past, hs.deadline⟩

theorem waitInv_run (h : (updates cfg).Run trace s) : WaitInv cfg.tickHz s := by
  refine h.invariant (P := fun _ s => WaitInv cfg.tickHz s) ⟨le_refl _, by simp [updates]⟩ ?_
  intro trace s e s' obs _ hs hstep
  exact effect_waitInv hs (effect_of_step hstep)

theorem tick_to {deadline : Nat} (h : s.phase.deadline? = some deadline) :
    (updates cfg).step s (.tick (deadline - s.clock)) =
      some ({ s with clock := max s.clock deadline }, []) := by
  change step cfg s (.tick (deadline - s.clock)) = _
  by_cases hle : s.clock ≤ deadline
  · have hmay : mayTick cfg s (deadline - s.clock) = true := by
      simp [mayTick, h, Nat.add_sub_cancel' hle]
    rw [step, if_pos hmay, Nat.add_sub_cancel' hle, Nat.max_eq_right hle]
  · have hzero : deadline - s.clock = 0 := by omega
    have hmax : max s.clock deadline = s.clock := by omega
    rw [step, hzero, hmax]
    split_ifs <;> rfl

theorem acquiring_asks {tries : Nat} (hp : s.phase = .acquiring tries) :
    (updates cfg).Reaches Event.Smooth (fun s' _ => Asking s') s := by
  have hstep : (updates cfg).step s (.reading sampleReading) =
      some (afterReading cfg.tickHz tries sampleReading s) := by
    simp only [updates, step, hp]
  have hfix : ∃ location, getLocation sampleReading = .ok location := ⟨_, rfl⟩
  exact Lib.Machine.Reaches.step (.done ⟨_, rfl⟩) hstep hfix

theorem backingOff_asks {tries deadline : Nat} (hp : s.phase = .backingOff tries deadline) :
    (updates cfg).Reaches Event.Smooth (fun s' _ => Asking s') s := by
  have hdeadline : s.phase.deadline? = some deadline := by rw [hp]; rfl
  have hstep : (updates cfg).step { s with clock := max s.clock deadline } .timer =
      some ({ s with clock := max s.clock deadline, phase := .acquiring tries }, []) := by
    simp only [updates, step, hp, if_pos (Nat.le_max_right _ _)]
  have hnext : (updates cfg).Reaches Event.Smooth (fun s' _ => Asking s')
      { s with clock := max s.clock deadline, phase := .acquiring tries } :=
    acquiring_asks rfl
  exact (hnext.step hstep trivial).step (tick_to hdeadline) trivial

theorem waiting_asks (h : (updates cfg).Run trace s) {deadline : Nat}
    (hp : s.phase = .waiting deadline) :
    (updates cfg).Reaches Event.Smooth (fun s' _ => Asking s') s := by
  have hd := (waitInv_run h).deadline deadline hp
  have hdeadline : s.phase.deadline? = some deadline := by rw [hp]; rfl
  have hgap : ¬ elapsed { s with clock := max s.clock deadline } < minimumGap cfg.tickHz := by
    have hle := minimumGap_le cfg.tickHz
    unfold elapsed
    dsimp only
    omega
  have hstep : (updates cfg).step { s with clock := max s.clock deadline } .timer =
      some (startUpdate { s with clock := max s.clock deadline },
        startObs { s with clock := max s.clock deadline }) := by
    simp only [updates, step, hp, if_pos (Nat.le_max_right _ _), afterWait]
    exact if_neg hgap
  have hnext : (updates cfg).Reaches Event.Smooth (fun s' _ => Asking s')
      (startUpdate { s with clock := max s.clock deadline }) := acquiring_asks rfl
  exact (hnext.step hstep trivial).step (tick_to hdeadline) trivial

theorem top_asks (h : (updates cfg).Run trace s') (htop : TopEffect cfg.tickHz s s' obs) :
    (updates cfg).Reaches Event.Smooth (fun s' _ => Asking s') s' := by
  cases htop with
  | waiting hlt => exact waiting_asks h rfl
  | started hle => exact acquiring_asks rfl

/-- What the backend answers when it has accepted an update. -/
def accepted : Backend → SendResult
  | .coap => .coap
  | .http => .http (.ok ())
  | .mqtt => .mqtt ⟨.ok (), .ok (), .ok (), .ok (some 0), [.ok (.publishComplete 0)], .ok ()⟩

theorem accepted_smooth (backend : Backend) : (Event.sent (accepted backend)).Smooth := by
  cases backend with
  | coap => trivial
  | http => trivial
  | mqtt => exact .inr (.inr ⟨⟨_, rfl⟩, ⟨_, rfl⟩, fun _ => ⟨_, rfl⟩⟩)

theorem afterSending_accepted (s : State) :
    afterSending cfg (accepted cfg.backend) s = afterSent cfg.tickHz s := by
  unfold afterSending
  cases cfg.backend <;> rfl

theorem sending_asks (h : (updates cfg).Run trace s) {update : GatewayUpdate}
    (hp : s.phase = .sending update) :
    (updates cfg).Reaches Event.Smooth (fun s' _ => Asking s') s := by
  obtain ⟨s₁, obs, htop, heff⟩ := topOfLoop_effect cfg.tickHz { s with ltem := false }
  have hstep : (updates cfg).step s (.sent (accepted cfg.backend)) =
      some (s₁, obs ++ [.ended s.clock]) := by
    simp only [updates, step, hp, afterSending_accepted]
    rw [afterSent, htop]
    rfl
  exact (top_asks (h.next hstep) heff).step hstep (accepted_smooth cfg.backend)

theorem booting_asks (h : (updates cfg).Run trace s) (hp : s.phase = .booting) :
    (updates cfg).Reaches Event.Smooth (fun s' _ => Asking s') s := by
  obtain ⟨s₁, obs, htop, heff⟩ := topOfLoop_effect cfg.tickHz { s with ltem := false }
  have hstep : (updates cfg).step s .booted = some (s₁, obs) := by
    simp only [updates, step, hp]
    rw [afterBoot, htop]
  exact (top_asks (h.next hstep) heff).step hstep trivial

/-- Unless it already has tags in hand the task comes to ask for them, from every reachable state. -/
theorem asks_again (h : (updates cfg).Run trace s)
    (hp : ∀ location tags instant, s.phase ≠ .connecting location tags instant) :
    (updates cfg).Reaches Event.Smooth (fun s' _ => Asking s') s := by
  cases hphase : s.phase with
  | booting => exact booting_asks h hphase
  | waiting deadline => exact waiting_asks h hphase
  | acquiring tries => exact acquiring_asks hphase
  | backingOff tries deadline => exact backingOff_asks hphase
  | receiving location => exact .done ⟨location, hphase⟩
  | connecting location tags instant => exact absurd hphase (hp location tags instant)
  | sending update => exact sending_asks h hphase

/-- The task has tags in hand of which one has become too old. -/
def Doomed (cfg : Config) (s : State) : Prop :=
  ∃ location tags instant, s.phase = .connecting location tags instant ∧ Overflows cfg s tags instant

/-- Then every way to build the update panics, and waiting makes it no better. -/
theorem doomed_step (h : (updates cfg).Run trace s) (hd : Doomed cfg s) {e : Event}
    (hstep : (updates cfg).step s e = some (s', obs)) :
    Doomed cfg s' ∧ ∀ o ∈ obs, ∀ update, o ≠ .built update := by
  obtain ⟨location, tags, instant, hp, hchecks, hold⟩ := hd
  have hle := (cycleInv_run h).decoded location tags instant hp
  have hnone := (gatewayUpdate_eq_none_iff cfg.checks cfg.tickHz cfg.deviceId location tags hle).mpr
    ⟨hchecks, hold⟩
  cases effect_of_step hstep with
  | idle => exact ⟨⟨location, tags, instant, hp, hchecks, hold⟩, by simp⟩
  | tick d _ =>
    obtain ⟨tag, htag, hlt⟩ := hold
    have hdiv : (s.clock - instant) / cfg.tickHz ≤ (s.clock + d - instant) / cfg.tickHz :=
      Nat.div_le_div_right (by omega)
    refine ⟨⟨location, tags, instant, hp, hchecks, tag, htag, ?_⟩, by simp⟩
    dsimp only
    omega
  | built _ _ _ update hp' hu =>
    cases hp.symm.trans hp'
    cases hnone.symm.trans hu
  | unserialised _ _ _ update hp' hu _ =>
    cases hp.symm.trans hp'
    cases hnone.symm.trans hu
  | ledsStarted ht => exact ⟨⟨location, tags, instant, hp, hchecks, hold⟩, by simp⟩
  | ledsReceived t status ht hc => exact ⟨⟨location, tags, instant, hp, hchecks, hold⟩, by simp⟩
  | ledsTimer => exact ⟨⟨location, tags, instant, hp, hchecks, hold⟩, by simp⟩
  | booted hp' _ => cases hp.symm.trans hp'
  | skipped _ hp' _ => cases hp.symm.trans hp'
  | started _ hp' _ => cases hp.symm.trans hp'
  | located _ _ _ hp' _ => cases hp.symm.trans hp'
  | failed _ _ _ hp' _ => cases hp.symm.trans hp'
  | retried _ _ hp' => cases hp.symm.trans hp'
  | decoded _ _ hp' => cases hp.symm.trans hp'
  | sent _ hp' _ => cases hp.symm.trans hp'

theorem linkUp_builds {location : Option Location} {tags : TagsSeen} {instant : Nat}
    (hp : s.phase = .connecting location tags instant) (hle : instant ≤ s.clock)
    (hok : ¬ Overflows cfg s tags instant) : ∃ update, step cfg s (.linkUp true) =
      some ({ announce .networkCommunication s with phase := .sending update },
        [.built update, announcedObs .networkCommunication s]) := by
  have hsome := mt (gatewayUpdate_eq_none_iff cfg.checks cfg.tickHz cfg.deviceId location tags hle).mp hok
  obtain ⟨update, hu⟩ := Option.ne_none_iff_exists'.mp hsome
  refine ⟨update, ?_⟩
  cases hb : cfg.backend <;> simp [step, hp, afterLinkUp, hu, hb]

end AssetTracker.Gateway.Updates

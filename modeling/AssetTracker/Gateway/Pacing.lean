import AssetTracker.Gateway.Updates

/-! When updates start: never too soon after another, and when the time between updates has passed or
the last cycle has ended, whichever is later. -/
namespace AssetTracker.Gateway.Updates

def lastStart : List Obs → Nat
  | [] => 0
  | .started now :: _ => now
  | _ :: trace => lastStart trace

/-- When the last cycle ended, if none was started since. -/
def idleSince : List Obs → Option Nat
  | [] => none
  | .started _ :: _ => none
  | .ended now :: _ => some now
  | _ :: trace => idleSince trace

def Paced (tickHz : Nat) (before : List Obs) : Obs → Prop
  | .started now => lastStart before + minimumGap tickHz ≤ now ∧
      ∀ e, idleSince before = some e → now ≤ max e (lastStart before + timeBetweenUpdates tickHz)
  | _ => True

/-- The deadline of the wait depends on the last start only, and is not passed. -/
structure PacingInv (tickHz : Nat) (trace : List Obs) (s : State) : Prop where
  start : s.lastUpdateStart = lastStart trace
  clock : s.lastUpdateStart ≤ s.clock
  deadline : ∀ deadline, s.phase = .waiting deadline →
    deadline = s.lastUpdateStart + timeBetweenUpdates tickHz ∧ s.clock ≤ deadline
  idle : ∀ e, idleSince trace = some e → ∃ deadline, s.phase = .waiting deadline

variable {cfg : Config} {s s' : State} {obs trace : List Obs}

theorem startUpdate_pacingInv (tickHz : Nat) (s : State) (trace : List Obs) :
    PacingInv tickHz (startObs s ++ trace) (startUpdate s) := by
  refine ⟨rfl, le_refl s.clock, ?_, ?_⟩
  · intro deadline hp
    cases hp
  · intro e he
    cases he

theorem top_pacingInv {tickHz : Nat} (htop : TopEffect tickHz s s' obs)
    (hstart : s.lastUpdateStart = lastStart trace) (hclock : s.lastUpdateStart ≤ s.clock) :
    PacingInv tickHz (obs ++ trace) s' := by
  cases htop with
  | waiting hlt =>
    refine ⟨hstart, hclock, ?_, fun e he => ⟨_, rfl⟩⟩
    intro deadline hp
    cases hp
    unfold elapsed at hlt ⊢
    dsimp only [announce]
    omega
  | started hle => exact startUpdate_pacingInv tickHz (announce .waiting s) _

theorem top_paced {tickHz : Nat} (htop : TopEffect tickHz s s' obs)
    (hstart : s.lastUpdateStart = lastStart trace) (hclock : s.lastUpdateStart ≤ s.clock)
    (hidle : ∀ e, idleSince trace = some e → s.clock ≤ e)
    (htrace : Lib.Everywhere (Paced tickHz) trace) :
    Lib.Everywhere (Paced tickHz) (obs ++ trace) := by
  cases htop with
  | waiting hlt => exact ⟨trivial, htrace⟩
  | started hle =>
    have hgap := minimumGap_le tickHz
    refine ⟨trivial, ⟨?_, ?_⟩, trivial, htrace⟩
    · change lastStart trace + minimumGap tickHz ≤ s.clock
      unfold elapsed at hle
      omega
    · intro e he
      exact (hidle e he).trans (le_max_left _ _)

theorem top_pacing {tickHz : Nat} (htop : TopEffect tickHz s s' obs)
    (hstart : s.lastUpdateStart = lastStart trace) (hclock : s.lastUpdateStart ≤ s.clock)
    (hidle : ∀ e, idleSince trace = some e → s.clock ≤ e)
    (htrace : Lib.Everywhere (Paced tickHz) trace) :
    PacingInv tickHz (obs ++ trace) s' ∧ Lib.Everywhere (Paced tickHz) (obs ++ trace) :=
  ⟨top_pacingInv htop hstart hclock, top_paced htop hstart hclock hidle htrace⟩

theorem ended_pacing {tickHz now : Nat} (htop : TopEffect tickHz s s' obs) (hnow : s.clock = now)
    (hstart : s.lastUpdateStart = lastStart trace) (hclock : s.lastUpdateStart ≤ s.clock)
    (htrace : Lib.Everywhere (Paced tickHz) trace) :
    PacingInv tickHz (obs ++ .ended now :: trace) s' ∧
      Lib.Everywhere (Paced tickHz) (obs ++ .ended now :: trace) := by
  have hidle : ∀ e, idleSince (.ended now :: trace) = some e → s.clock ≤ e := by
    intro e he
    exact (hnow.trans (Option.some.inj he)).le
  exact top_pacing htop hstart hclock hidle ⟨trivial, htrace⟩

theorem PacingInv.keep {tickHz : Nat} (hinv : PacingInv tickHz trace s)
    (hstart : lastStart (obs ++ trace) = lastStart trace)
    (hidle : idleSince (obs ++ trace) = idleSince trace) (hclock : s'.clock = s.clock)
    (hlast : s'.lastUpdateStart = s.lastUpdateStart) (hold : ∀ d, s.phase ≠ .waiting d)
    (hnew : ∀ d, s'.phase ≠ .waiting d) : PacingInv tickHz (obs ++ trace) s' := by
  refine ⟨by rw [hlast, hstart, hinv.start], by rw [hlast, hclock]; exact hinv.clock, ?_, ?_⟩
  · intro d hp
    exact absurd hp (hnew d)
  · intro e he
    obtain ⟨d, hd⟩ := hinv.idle e (hidle ▸ he)
    exact absurd hd (hold d)

theorem PacingInv.tick (hi : cfg.instantaneous = true) (hinv : PacingInv cfg.tickHz trace s) {d : Nat}
    (h : mayTick cfg s d = true) : PacingInv cfg.tickHz trace { s with clock := s.clock + d } := by
  refine ⟨hinv.start, hinv.clock.trans (Nat.le_add_right _ d), ?_, hinv.idle⟩
  intro deadline hp
  have hp' : s.phase = .waiting deadline := hp
  have hd : s.clock + d ≤ deadline := by simpa [mayTick, hp', Phase.deadline?, hi] using h
  exact ⟨(hinv.deadline deadline hp').1, hd⟩

theorem PacingInv.skipped {tickHz deadline : Nat} (hinv : PacingInv tickHz trace s)
    (hp : s.phase = .waiting deadline) :
    PacingInv tickHz (announcedObs .waiting s :: .skipped s.clock :: trace)
      { announce .waiting s with
        phase := .waiting (s.clock + (timeBetweenUpdates tickHz - elapsed s)) } := by
  refine ⟨hinv.start, hinv.clock, ?_, fun e he => ⟨_, rfl⟩⟩
  intro deadline' hp'
  cases hp'
  have hd := hinv.deadline deadline hp
  have hclock := hinv.clock
  unfold elapsed
  dsimp only [announce]
  omega

theorem PacingInv.paced_started {tickHz deadline : Nat} (hinv : PacingInv tickHz trace s)
    (hp : s.phase = .waiting deadline) (h : minimumGap tickHz ≤ elapsed s) :
    Paced tickHz trace (.started s.clock) := by
  have hd := hinv.deadline deadline hp
  have hclock := hinv.clock
  have hstart := hinv.start
  refine ⟨?_, ?_⟩
  · unfold elapsed at h
    omega
  · intro e _
    have hle : s.clock ≤ lastStart trace + timeBetweenUpdates tickHz := by omega
    exact hle.trans (le_max_right _ _)

theorem effect_pacing (hi : cfg.instantaneous = true) (hinv : PacingInv cfg.tickHz trace s)
    (htrace : Lib.Everywhere (Paced cfg.tickHz) trace) (heff : Effect cfg s s' obs) :
    PacingInv cfg.tickHz (obs ++ trace) s' ∧ Lib.Everywhere (Paced cfg.tickHz) (obs ++ trace) := by
  cases heff with
  | idle => exact ⟨hinv, htrace⟩
  | tick d h => exact ⟨hinv.tick hi h, htrace⟩
  | booted hp htop =>
    have hidle : ∀ e, idleSince trace = some e → s.clock ≤ e := by
      intro e he
      obtain ⟨d, hd⟩ := hinv.idle e he
      rw [hp] at hd
      cases hd
    exact top_pacing htop hinv.start hinv.clock hidle htrace
  | skipped deadline hp h => exact ⟨hinv.skipped hp, trivial, trivial, htrace⟩
  | started deadline hp h =>
    exact ⟨startUpdate_pacingInv _ s trace, trivial, hinv.paced_started hp h, htrace⟩
  | located tries reading location hp hl =>
    exact ⟨hinv.keep rfl rfl rfl rfl (by simp [hp]) (by simp), trivial, trivial, htrace⟩
  | failed tries reading phase hp hphase =>
    have hnew : ∀ d, phase ≠ .waiting d := by
      cases hphase with
      | inl hphase => simp [hphase]
      | inr hphase => simp [hphase]
    exact ⟨hinv.keep rfl rfl rfl rfl (by simp [hp]) hnew, trivial, trivial, htrace⟩
  | retried tries deadline hp =>
    have hkeep : PacingInv cfg.tickHz ([] ++ trace) { s with phase := .acquiring tries } :=
      hinv.keep rfl rfl rfl rfl (by simp [hp]) (by simp)
    exact ⟨hkeep, htrace⟩
  | decoded location detectedTags hp =>
    exact ⟨hinv.keep rfl rfl rfl rfl (by simp [hp]) (by simp), trivial, htrace⟩
  | built location detectedTags decodeInstant update hp hu =>
    exact ⟨hinv.keep rfl rfl rfl rfl (by simp [hp]) (by simp), trivial, trivial, htrace⟩
  | unserialised location detectedTags decodeInstant update hp hu htop =>
    rw [List.append_assoc]
    exact ended_pacing htop rfl hinv.start hinv.clock ⟨trivial, trivial, trivial, htrace⟩
  | sent update hp htop =>
    rw [List.append_assoc]
    exact ended_pacing htop rfl hinv.start hinv.clock htrace
  | ledsStarted ht => exact ⟨⟨hinv.start, hinv.clock, hinv.deadline, hinv.idle⟩, htrace⟩
  | ledsReceived t status ht hc =>
    exact ⟨⟨hinv.start, hinv.clock, hinv.deadline, hinv.idle⟩, htrace⟩
  | ledsTimer => exact ⟨⟨hinv.start, hinv.clock, hinv.deadline, hinv.idle⟩, htrace⟩

theorem pacing_run (hi : cfg.instantaneous = true) (h : (updates cfg).Run trace s) :
    PacingInv cfg.tickHz trace s ∧ Lib.Everywhere (Paced cfg.tickHz) trace := by
  have hinit : PacingInv cfg.tickHz [] (updates cfg).init :=
    ⟨rfl, le_refl _, by simp [updates], by simp [idleSince]⟩
  refine h.invariant (P := fun trace s =>
    PacingInv cfg.tickHz trace s ∧ Lib.Everywhere (Paced cfg.tickHz) trace) ⟨hinit, trivial⟩ ?_
  intro trace s e s' obs _ ih hstep
  exact effect_pacing hi ih.1 ih.2 (effect_of_step hstep)

/-- When its timer runs out the wait ends with an update, never with a skip. -/
theorem timer_starts {deadline : Nat} (hp : s.phase = .waiting deadline)
    (hd : deadline = s.lastUpdateStart + timeBetweenUpdates cfg.tickHz)
    (hclock : deadline ≤ s.clock) :
    ∃ s' obs, (updates cfg).step s .timer = some (s', obs) ∧ .started s.clock ∈ obs := by
  have hgap : ¬ elapsed s < minimumGap cfg.tickHz := by
    have hle := minimumGap_le cfg.tickHz
    unfold elapsed
    omega
  refine ⟨startUpdate s, startObs s, ?_, by simp [startObs]⟩
  change step cfg s .timer = _
  simp only [step, hp, if_pos hclock, afterWait, if_neg hgap]

/-- Starts are ten seconds apart and none is late: what a wait waits for is fixed by the last start, a
skipped press changes nothing, and after a cycle nothing but the wait comes before the next start. -/
theorem updates_paced (hi : cfg.instantaneous = true) (h : (updates cfg).Run trace s) :
    (∀ later now before, trace = later ++ .started now :: before →
      lastStart before + minimumGap cfg.tickHz ≤ now ∧
        ∀ e, idleSince before = some e →
          now ≤ max e (lastStart before + timeBetweenUpdates cfg.tickHz)) ∧
    (∀ deadline, s.phase = .waiting deadline →
      deadline = lastStart trace + timeBetweenUpdates cfg.tickHz ∧ s.clock ≤ deadline ∧
        (deadline ≤ s.clock →
          ∃ s' obs, (updates cfg).step s .timer = some (s', obs) ∧ .started s.clock ∈ obs)) ∧
    ∀ e, idleSince trace = some e → ∃ deadline, s.phase = .waiting deadline := by
  obtain ⟨hinv, hall⟩ := pacing_run hi h
  refine ⟨?_, ?_, hinv.idle⟩
  · intro later now before htrace
    rw [htrace] at hall
    exact hall.at_split
  · intro deadline hp
    obtain ⟨hd, hle⟩ := hinv.deadline deadline hp
    exact ⟨by rw [hd, hinv.start], hle, timer_starts hp hd⟩

/- A cycle of two seconds, and the start of the next update. -/
theorem updates_paced_next : ∃ trace s,
    (updates (sampleConfig .coap)).Run (.announced .gnssAcquisition none :: .started 1800 :: trace) s ∧
      lastStart trace = 900 ∧ idleSince trace = some 902 ∧
      lastStart trace + minimumGap 1 ≤ 1800 ∧
      1800 ≤ max 902 (lastStart trace + timeBetweenUpdates 1) := by
  have hrun : ∃ trace s, (updates (sampleConfig .coap)).Run
      (.announced .gnssAcquisition none :: .started 1800 :: trace) s ∧
        lastStart trace = 900 ∧ idleSince trace = some 902 :=
    ⟨_, _, Lib.Machine.run_of_exec [.booted, .ledsStarted, .ledsReceive, .tick 900, .timer,
      .ledsReceive, .reading sampleReading, .ledsReceive, .decoded sampleTags, .ledsReceive,
      .linkUp true, .ledsReceive, .tick 2, .sent .coap, .ledsReceive, .tick 898, .timer] rfl,
      rfl, rfl⟩
  obtain ⟨trace, s, hrun, hstart, hidle⟩ := hrun
  obtain ⟨hgap, hwait⟩ := (updates_paced rfl hrun).1 [.announced .gnssAcquisition none] 1800 trace rfl
  exact ⟨trace, s, hrun, hstart, hidle, hgap, hwait 902 hidle⟩

end AssetTracker.Gateway.Updates

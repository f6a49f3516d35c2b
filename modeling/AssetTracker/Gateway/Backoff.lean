import AssetTracker.Gateway.Updates

/-! How far apart the readings of the GNSS loop are: the second comes at once, each later one waits for
a time that doubles with every failure up to the seventh. The times are the stamps of the
observations. -/
namespace AssetTracker.Gateway.Updates

/-- The readings of the running cycle, newest first, and its start. -/
def readingTimes : List (Obs × Nat) → List Nat
  | [] => []
  | (.started _, _) :: _ => []
  | (.read _, t) :: trace => t :: readingTimes trace
  | _ :: trace => readingTimes trace

def cycleStart : List (Obs × Nat) → Nat
  | [] => 0
  | (.started _, t) :: _ => t
  | _ :: trace => cycleStart trace

/-- The seconds behind a failed reading, and those behind all of the first ones. -/
def waitAfter (tries : Nat) : Nat := if tries > 1 then backoffSecs tries else 0

def waited : Nat → Nat
  | 0 => 0
  | tries + 1 => waited tries + waitAfter (tries + 1)

/-- So many readings have failed, and the waits behind them are over at an instant. -/
structure BackedOff (tickHz : Nat) (trace : List (Obs × Nat)) (tries instant : Nat) : Prop where
  failures : (readingTimes trace).length = tries
  last : ∀ t, (readingTimes trace).head? = some t → t + waitAfter tries * tickHz ≤ instant
  start : cycleStart trace + waited tries * tickHz ≤ instant

def BackoffInv (tickHz : Nat) (trace : List (Obs × Nat)) (s : State) : Prop :=
  match s.phase with
  | .acquiring tries => BackedOff tickHz trace tries s.clock
  | .backingOff tries deadline => BackedOff tickHz trace tries deadline
  | _ => True

/-- A reading is taken when the waits behind the failed ones before it are over. -/
def Spaced (tickHz : Nat) (before : List (Obs × Nat)) : Obs × Nat → Prop
  | (.read _, t) => BackedOff tickHz before (readingTimes before).length t
  | _ => True

/-- The product of the source is taken in 16 bits, where it fits. -/
theorem backoffSecs_le (tries : Nat) : backoffSecs tries ≤ 46080 := by
  have hpow : 2 ^ min tries 7 ≤ 2 ^ 7 := Nat.pow_le_pow_right (by decide) (min_le_right tries 7)
  unfold backoffSecs gnssAcquisitionTimeoutSec
  omega

variable {cfg : Config} {s s' : State} {obs : List Obs} {trace : List (Obs × Nat)}

theorem BackedOff.later {tickHz tries instant later : Nat} (h : BackedOff tickHz trace tries instant)
    (hle : instant ≤ later) : BackedOff tickHz trace tries later :=
  ⟨h.failures, fun t ht => (h.last t ht).trans hle, h.start.trans hle⟩

theorem acquiring_step {e : Event} {tries : Nat} (hp : s.phase = .acquiring tries)
    (h : step cfg s e = some (s', obs)) :
    (s'.phase = s.phase ∧ s.clock ≤ s'.clock ∧ obs = []) ∨
      ∃ reading, (s', obs) = afterReading cfg.tickHz tries reading s := by
  cases e with
  | reading reading =>
    simp only [step, hp] at h
    exact .inr ⟨reading, (Option.some.inj h).symm⟩
  | tick d =>
    simp only [step] at h
    split_ifs at h <;> cases h
    · exact .inl ⟨rfl, Nat.le_add_right _ d, rfl⟩
    · exact .inl ⟨rfl, le_refl _, rfl⟩
  | ledsStarted =>
    cases ht : s.ledsTask <;> simp only [step, ht] at h <;> cases h <;>
      exact .inl ⟨rfl, le_refl _, rfl⟩
  | ledsReceive =>
    cases ht : s.ledsTask <;> cases hc : s.ledChannel <;> simp only [step, ht, hc] at h <;>
      cases h <;> exact .inl ⟨rfl, le_refl _, rfl⟩
  | ledsTimer =>
    cases h
    exact .inl ⟨rfl, le_refl _, rfl⟩
  | _ =>
    simp only [step, hp] at h
    cases h
    exact .inl ⟨rfl, le_refl _, rfl⟩

theorem backingOff_step {e : Event} {tries deadline : Nat} (hp : s.phase = .backingOff tries deadline)
    (h : step cfg s e = some (s', obs)) :
    (s'.phase = s.phase ∧ obs = []) ∨
      s'.phase = .acquiring tries ∧ deadline ≤ s'.clock ∧ obs = [] := by
  cases e with
  | timer =>
    simp only [step, hp] at h
    split_ifs at h with hd <;> cases h
    · exact .inr ⟨rfl, hd, rfl⟩
    · exact .inl ⟨rfl, rfl⟩
  | tick d =>
    simp only [step] at h
    split_ifs at h <;> cases h <;> exact .inl ⟨rfl, rfl⟩
  | ledsStarted =>
    cases ht : s.ledsTask <;> simp only [step, ht] at h <;> cases h <;> exact .inl ⟨rfl, rfl⟩
  | ledsReceive =>
    cases ht : s.ledsTask <;> cases hc : s.ledChannel <;> simp only [step, ht, hc] at h <;>
      cases h <;> exact .inl ⟨rfl, rfl⟩
  | ledsTimer =>
    cases h
    exact .inl ⟨rfl, rfl⟩
  | _ =>
    simp only [step, hp] at h
    cases h
    exact .inl ⟨rfl, rfl⟩

theorem BackedOff.failed {tickHz tries : Nat} (h : BackedOff tickHz trace tries s.clock)
    (reading : Reading) (status : LedState) :
    BackedOff tickHz ((announcedObs status s, s.clock) :: (.read reading, s.clock) :: trace)
      (tries + 1) (s.clock + waitAfter (tries + 1) * tickHz) := by
  refine ⟨?_, ?_, ?_⟩
  · exact congrArg (· + 1) h.failures
  · intro t ht
    cases ht
    exact le_refl _
  · have hstart := h.start
    change cycleStart trace + waited (tries + 1) * tickHz ≤ _
    rw [waited, Nat.add_mul]
    omega

theorem afterReading_backoff {tries : Nat} (hs : BackedOff cfg.tickHz trace tries s.clock)
    (reading : Reading) :
    BackoffInv cfg.tickHz
      ((afterReading cfg.tickHz tries reading s).2.map (fun o => (o, s.clock)) ++ trace)
      (afterReading cfg.tickHz tries reading s).1 := by
  have hfailed := hs.failed reading .gnssWarning
  unfold afterReading
  cases hl : getLocation reading with
  | ok location => trivial
  | error e =>
    have hphase : BackoffInv cfg.tickHz
        ((announcedObs .gnssWarning s, s.clock) :: (.read reading, s.clock) :: trace)
        (announce .gnssWarning { s with
          phase := if tries + 1 > 1 then
              .backingOff (tries + 1) (s.clock + backoffSecs (tries + 1) * cfg.tickHz)
            else .acquiring (tries + 1) }) := by
      by_cases hwait : tries + 1 > 1
      · simpa [BackoffInv, hwait, waitAfter] using hfailed
      · simpa [BackoffInv, hwait, waitAfter, announce] using hfailed
    cases e with
    | invalidFix location => exact hphase
    | readingError => exact hphase

theorem startUpdate_backoff (tickHz : Nat) (s : State) (clock : Nat) (hclock : s.clock = clock) :
    BackoffInv tickHz ((startObs s).map (fun o => (o, clock)) ++ trace) (startUpdate s) := by
  refine ⟨rfl, by simp [startObs, announcedObs, readingTimes], ?_⟩
  change clock + waited 0 * tickHz ≤ s.clock
  simp [waited, hclock]

theorem top_backoff {tickHz clock : Nat} (htop : TopEffect tickHz s s' obs) (hclock : s.clock = clock) :
    BackoffInv tickHz (obs.map (fun o => (o, clock)) ++ trace) s' := by
  cases htop with
  | waiting hlt => trivial
  | started hle =>
    rw [List.map_append, List.append_assoc]
    exact startUpdate_backoff tickHz (announce .waiting s) clock hclock

theorem top_unread {tickHz : Nat} (htop : TopEffect tickHz s s' obs) (reading : Reading) :
    .read reading ∉ obs := by
  cases htop with
  | waiting hlt => simp [announcedObs]
  | started hle => simp [startObs, announcedObs]

theorem afterReading_obs (tickHz tries : Nat) (reading : Reading) (s : State) :
    ∃ status, (afterReading tickHz tries reading s).2 = [announcedObs status s, .read reading] := by
  unfold afterReading
  dsimp only
  split_ifs <;> exact ⟨_, rfl⟩

theorem everywhere_spaced {tickHz clock : Nat} {obs : List Obs}
    (htrace : Lib.Everywhere (Spaced tickHz) trace) (h : ∀ reading, .read reading ∉ obs) :
    Lib.Everywhere (Spaced tickHz) (obs.map (fun o => (o, clock)) ++ trace) := by
  refine htrace.append ?_
  intro o ho before
  obtain ⟨o', ho', rfl⟩ := List.mem_map.mp ho
  cases o' with
  | read reading => exact absurd ho' (h reading)
  | _ => trivial

theorem effect_backoff (hacquiring : ∀ tries, s.phase ≠ .acquiring tries)
    (hbacking : ∀ tries deadline, s.phase ≠ .backingOff tries deadline) (heff : Effect cfg s s' obs) :
    BackoffInv cfg.tickHz (obs.map (fun o => (o, s.clock)) ++ trace) s' ∧
      ∀ reading, .read reading ∉ obs := by
  have hsame : ∀ {s₁ : State}, s₁.phase = s.phase → BackoffInv cfg.tickHz trace s₁ := by
    intro s₁ hphase
    unfold BackoffInv
    rw [hphase]
    cases hp : s.phase with
    | acquiring tries => exact absurd hp (hacquiring tries)
    | backingOff tries deadline => exact absurd hp (hbacking tries deadline)
    | _ => trivial
  cases heff with
  | idle => exact ⟨hsame rfl, by simp⟩
  | tick d h => exact ⟨hsame rfl, by simp⟩
  | booted hp htop => exact ⟨top_backoff htop rfl, top_unread htop⟩
  | skipped deadline hp h => exact ⟨trivial, by simp [announcedObs]⟩
  | started deadline hp h =>
    exact ⟨startUpdate_backoff cfg.tickHz s s.clock rfl, by simp [startObs, announcedObs]⟩
  | located tries reading location hp hl => exact absurd hp (hacquiring tries)
  | failed tries reading phase hp hphase => exact absurd hp (hacquiring tries)
  | retried tries deadline hp => exact absurd hp (hbacking tries deadline)
  | decoded location detectedTags hp => exact ⟨trivial, by simp [announcedObs]⟩
  | built location detectedTags decodeInstant update hp hu =>
    exact ⟨trivial, by simp [announcedObs]⟩
  | unserialised location detectedTags decodeInstant update hp hu htop =>
    rw [List.map_append, List.append_assoc]
    exact ⟨top_backoff htop rfl, by simp [top_unread htop, announcedObs]⟩
  | sent update hp htop =>
    rw [List.map_append, List.append_assoc]
    exact ⟨top_backoff htop rfl, by simp [top_unread htop]⟩
  | ledsStarted ht => exact ⟨hsame rfl, by simp⟩
  | ledsReceived t status ht hc => exact ⟨hsame rfl, by simp⟩
  | ledsTimer => exact ⟨hsame rfl, by simp⟩

theorem step_backoff {e : Event} (hinv : BackoffInv cfg.tickHz trace s)
    (htrace : Lib.Everywhere (Spaced cfg.tickHz) trace) (h : step cfg s e = some (s', obs)) :
    BackoffInv cfg.tickHz (obs.map (fun o => (o, s.clock)) ++ trace) s' ∧
      Lib.Everywhere (Spaced cfg.tickHz) (obs.map (fun o => (o, s.clock)) ++ trace) := by
  cases hp : s.phase with
  | acquiring tries =>
    rw [BackoffInv, hp] at hinv
    cases acquiring_step hp h with
    | inl hkept =>
      obtain ⟨hphase, hclock, rfl⟩ := hkept
      rw [hp] at hphase
      refine ⟨?_, htrace⟩
      rw [BackoffInv, hphase]
      exact hinv.later hclock
    | inr hread =>
      obtain ⟨reading, heq⟩ := hread
      obtain ⟨status, hobs⟩ := afterReading_obs cfg.tickHz tries reading s
      have hnext := afterReading_backoff hinv reading
      rw [← heq] at hnext hobs
      dsimp only at hnext hobs
      refine ⟨hnext, ?_⟩
      rw [hobs]
      refine ⟨trivial, ?_, htrace⟩
      rw [← hinv.failures] at hinv
      exact hinv
  | backingOff tries deadline =>
    rw [BackoffInv, hp] at hinv
    cases backingOff_step hp h with
    | inl hkept =>
      obtain ⟨hphase, rfl⟩ := hkept
      rw [hp] at hphase
      refine ⟨?_, htrace⟩
      rw [BackoffInv, hphase]
      exact hinv
    | inr hover =>
      obtain ⟨hphase, hdeadline, rfl⟩ := hover
      refine ⟨?_, htrace⟩
      rw [BackoffInv, hphase]
      exact hinv.later hdeadline
  | _ =>
    have hnext : BackoffInv cfg.tickHz (obs.map (fun o => (o, s.clock)) ++ trace) s' ∧
        ∀ reading, .read reading ∉ obs :=
      effect_backoff (by simp [hp]) (by simp [hp]) (effect_of_step h)
    exact ⟨hnext.1, everywhere_spaced htrace hnext.2⟩

theorem backoff_run (h : ((updates cfg).stamped State.clock).Run trace s) :
    BackoffInv cfg.tickHz trace s ∧ Lib.Everywhere (Spaced cfg.tickHz) trace := by
  have hinit : BackoffInv cfg.tickHz [] (updates cfg).init := trivial
  refine h.invariant (P := fun trace s =>
    BackoffInv cfg.tickHz trace s ∧ Lib.Everywhere (Spaced cfg.tickHz) trace) ⟨hinit, trivial⟩ ?_
  intro trace s e s' obs _ ih hstep
  obtain ⟨obs', hstep', hobs⟩ := Lib.Machine.stamped_step hstep
  rw [hobs]
  exact step_backoff ih.1 ih.2 hstep'

/-- In every run, with its times, a reading that follows some failed ones of its cycle is taken no sooner
than the wait behind the last of them is over, and no sooner after the start of the cycle than all
their waits take together; and the product of the source never leaves its 16 bits. -/
theorem readings_back_off (h : ((updates cfg).stamped State.clock).Run trace s) :
    (updates cfg).Run (trace.map Prod.fst) s ∧
    (∀ later reading t before, trace = later ++ (.read reading, t) :: before →
      BackedOff cfg.tickHz before (readingTimes before).length t) ∧
    ∀ tries, backoffSecs tries < 2 ^ 16 := by
  refine ⟨Lib.Machine.run_stamped_iff.mpr ⟨trace, h, rfl⟩, ?_, ?_⟩
  · intro later reading t before htrace
    have hall := (backoff_run h).2
    rw [htrace] at hall
    exact hall.at_split
  · intro tries
    have hle := backoffSecs_le tries
    omega

/- Two readings without a fix, the third after twenty-four minutes. -/
def failingEvents : List Event :=
  [.booted, .tick 900, .timer, .reading none, .reading none, .tick 1440, .timer, .reading none]

theorem readings_back_off_twice : ∃ trace s,
    ((updates (sampleConfig .coap)).stamped State.clock).Run
      ((.announced .gnssWarning (some .waiting), 2340) :: (.read none, 2340) :: trace) s ∧
    readingTimes trace = [900, 900] ∧ 900 + waitAfter 2 * (sampleConfig .coap).tickHz ≤ 2340 := by
  have hrun : ∃ trace s, ((updates (sampleConfig .coap)).stamped State.clock).Run
      ((.announced .gnssWarning (some .waiting), 2340) :: (.read none, 2340) :: trace) s ∧
      readingTimes trace = [900, 900] :=
    ⟨_, _, Lib.Machine.run_of_exec failingEvents rfl, rfl⟩
  obtain ⟨trace, s, hrun, htimes⟩ := hrun
  have hspaced := (readings_back_off hrun).2.1 [_] none 2340 trace rfl
  rw [htimes] at hspaced
  exact ⟨trace, s, hrun, htimes, hspaced.last 900 (by rw [htimes]; rfl)⟩

end AssetTracker.Gateway.Updates

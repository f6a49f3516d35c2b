import AssetTracker.Clock
import AssetTracker.Lib.Machine

/-! `TagScanner::run`: the timing it gives the controller, and the loop that stops the scan between two
windows when the interval is long. A step that panics fails: an overflow, a refused scan. -/
namespace AssetTracker.Scanner.TagScanner

/-- Durations are scaled by this for `bt-hci`. -/
def btHciDurationCompensation : Nat := 16

/-- The PHY the scanner asks for. -/
inductive PhySet where
  | m1
deriving DecidableEq

structure ScanConfig where
  active : Bool
  phys : PhySet
  interval : Duration
  window : Duration

/-- What the scanner is built and called with. -/
structure Params where
  rate : TickRate
  interval : Duration
  window : Duration

def tenSecs (rate : TickRate) : Duration := .fromSecs rate 10 (by decide)

/-- Ten seconds, compensated. -/
def maxInterval (rate : TickRate) : Duration :=
  .fromSecs rate (10 * btHciDurationCompensation) (by decide)

def configInterval (p : Params) : Option Duration :=
  if p.interval ≤ tenSecs p.rate then p.interval.mul btHciDurationCompensation
  else some (maxInterval p.rate)

def scanConfig (p : Params) : Option ScanConfig := do
  let interval ← configInterval p
  let window ← p.window.mul btHciDurationCompensation
  pure { active := true, phys := .m1, interval := interval, window := window }

inductive Phase where
  | starting
  | commanding (config : ScanConfig)
  | scanning (config : ScanConfig) (deadline : Nat)
  | pausing (config : ScanConfig) (deadline : Nat)

structure State where
  clock : Nat
  phase : Phase

inductive Event where
  | tick (d : Nat)
  | started
  | answered (accepted : Bool)
  | timer

/-- The scan command, and the end of the session when it is dropped. -/
inductive Obs where
  | command (config : ScanConfig)
  | stopped

/-- The controller has answered; up to ten seconds the scan goes on for ever. -/
def afterAnswer (p : Params) (config : ScanConfig) (accepted : Bool) (s : State) :
    Option (State × List Obs) :=
  if accepted then do
    let wait := if p.interval ≤ tenSecs p.rate then .fromSecs p.rate 1000 (by decide) else p.window
    let deadline ← timerAfter s.clock wait
    pure ({ s with phase := .scanning config deadline }, [])
  else none

/-- The timer of a session has run out. -/
def afterScan (p : Params) (config : ScanConfig) (s : State) : Option (State × List Obs) :=
  if p.interval ≤ tenSecs p.rate then do
    let deadline ← timerAfter s.clock (.fromSecs p.rate 1000 (by decide))
    pure ({ s with phase := .scanning config deadline }, [])
  else do
    let pause ← p.interval.sub p.window
    let deadline ← timerAfter s.clock pause
    pure ({ s with phase := .pausing config deadline }, [.stopped])

def step (p : Params) (s : State) : Event → Option (State × List Obs)
  | .tick d => some ({ s with clock := s.clock + d }, [])
  | .started =>
    match s.phase with
    | .starting => do
      let config ← scanConfig p
      pure ({ s with phase := .commanding config }, [.command config])
    | _ => some (s, [])
  | .answered accepted =>
    match s.phase with
    | .commanding config => afterAnswer p config accepted s
    | _ => some (s, [])
  | .timer =>
    match s.phase with
    | .scanning config deadline =>
      if deadline ≤ s.clock then afterScan p config s else some (s, [])
    | .pausing config deadline =>
      if deadline ≤ s.clock then
        some ({ s with phase := .commanding config }, [.command config])
      else some (s, [])
    | _ => some (s, [])

def run (p : Params) : Lib.Machine State Event Obs where
  init := ⟨0, .starting⟩
  step := step p

/-- The controller does not refuse the command. -/
structure ValidTiming (rate : TickRate) (config : ScanConfig) : Prop where
  window_le : config.window ≤ config.interval
  interval_le : config.interval ≤ maxInterval rate

/-- Nothing about the timing makes the scanner panic: it can be computed, no scan command of any run is
refused for it, and the pause can be computed. -/
structure TimingValid (p : Params) : Prop where
  configured : ∃ config, scanConfig p = some config
  commands : ∀ trace s, (run p).Run trace s → ∀ config, .command config ∈ trace →
    ValidTiming p.rate config
  pause : ∃ pause, p.interval.sub p.window = some pause

variable {p : Params}

theorem maxInterval_ticks (rate : TickRate) :
    (maxInterval rate).ticks = (tenSecs rate).ticks * btHciDurationCompensation :=
  Nat.mul_right_comm 10 btHciDurationCompensation rate.hz

/-- In both modes the interval is the smaller of the caller's and ten seconds. -/
theorem configInterval_spec (p : Params) : ∃ interval, configInterval p = some interval ∧
    interval.ticks = min p.interval.ticks (tenSecs p.rate).ticks * btHciDurationCompensation := by
  have hfits := p.rate.fits
  by_cases h : p.interval ≤ tenSecs p.rate
  · have hle : p.interval.ticks ≤ 10 * p.rate.hz := h
    have hmul : p.interval.ticks * btHciDurationCompensation < 2 ^ 64 := by
      unfold btHciDurationCompensation
      omega
    refine ⟨_, by rw [configInterval, if_pos h, Duration.mul_eq_some hmul], ?_⟩
    rw [Nat.min_eq_left h]
  · have hge := Nat.le_of_not_le (mt Duration.le_def.mpr h)
    refine ⟨_, by rw [configInterval, if_neg h], ?_⟩
    rw [Nat.min_eq_right hge, maxInterval_ticks]

theorem scanConfig_ticks {config : ScanConfig} (h : scanConfig p = some config) :
    config.interval.ticks =
        min p.interval.ticks (tenSecs p.rate).ticks * btHciDurationCompensation ∧
      config.window.ticks = p.window.ticks * btHciDurationCompensation := by
  obtain ⟨interval, hinterval, h⟩ := Option.bind_eq_some_iff.mp h
  obtain ⟨window, hwindow, h⟩ := Option.bind_eq_some_iff.mp h
  cases h
  obtain ⟨interval', hinterval', hticks⟩ := configInterval_spec p
  rw [hinterval] at hinterval'
  cases hinterval'
  exact ⟨hticks, Duration.mul_ticks hwindow⟩

theorem scanConfig_isSome (h : p.window ≤ tenSecs p.rate) :
    ∃ config, scanConfig p = some config := by
  have hfits := p.rate.fits
  have hle : p.window.ticks ≤ 10 * p.rate.hz := h
  have hmul : p.window.ticks * btHciDurationCompensation < 2 ^ 64 := by
    unfold btHciDurationCompensation
    omega
  obtain ⟨interval, hinterval, _⟩ := configInterval_spec p
  exact ⟨_, by rw [scanConfig, hinterval, Duration.mul_eq_some hmul]; rfl⟩

theorem validTiming_iff {config : ScanConfig} (h : scanConfig p = some config)
    (hle : p.window ≤ p.interval) : ValidTiming p.rate config ↔ p.window ≤ tenSecs p.rate := by
  obtain ⟨hinterval, hwindow⟩ := scanConfig_ticks h
  have hpos : 0 < btHciDurationCompensation := by decide
  rw [Duration.le_def] at hle ⊢
  constructor
  · intro hv
    have hw := hv.window_le
    rw [Duration.le_def, hinterval, hwindow] at hw
    exact (Nat.le_of_mul_le_mul_right hw hpos).trans (Nat.min_le_right _ _)
  · intro hten
    refine ⟨?_, ?_⟩
    · rw [Duration.le_def, hinterval, hwindow]
      exact Nat.mul_le_mul_right _ (Nat.le_min.mpr ⟨hle, hten⟩)
    · rw [Duration.le_def, hinterval, maxInterval_ticks]
      exact Nat.mul_le_mul_right _ (Nat.min_le_right _ _)

theorem pause_eq_some (hle : p.window ≤ p.interval) :
    ∃ pause, p.interval.sub p.window = some pause :=
  ⟨_, if_pos hle⟩

def Phase.config? : Phase → Option ScanConfig
  | .starting => none
  | .commanding config => some config
  | .scanning config _ => some config
  | .pausing config _ => some config

variable {s s' : State} {obs trace : List Obs}

inductive Effect (p : Params) (s : State) : State → List Obs → Prop where
  | kept {s' : State} {obs : List Obs} (hphase : s'.phase.config? = s.phase.config?)
      (hobs : ∀ config, .command config ∉ obs) : Effect p s s' obs
  | commanded {s' : State} (config : ScanConfig) (hphase : s'.phase = .commanding config)
      (hconfig : scanConfig p = some config ∨ s.phase.config? = some config) :
      Effect p s s' [.command config]

theorem afterAnswer_effect {config : ScanConfig} {accepted : Bool}
    (hp : s.phase = .commanding config) (h : afterAnswer p config accepted s = some (s', obs)) :
    Effect p s s' obs := by
  cases accepted with
  | false => cases h
  | true =>
    obtain ⟨deadline, _, h⟩ := Option.bind_eq_some_iff.mp h
    cases h
    exact .kept (by rw [hp]; rfl) (by simp)

theorem afterScan_effect {config : ScanConfig} {deadline : Nat}
    (hp : s.phase = .scanning config deadline) (h : afterScan p config s = some (s', obs)) :
    Effect p s s' obs := by
  by_cases hten : p.interval ≤ tenSecs p.rate
  · rw [afterScan, if_pos hten] at h
    obtain ⟨next, _, h⟩ := Option.bind_eq_some_iff.mp h
    cases h
    exact .kept (by rw [hp]; rfl) (by simp)
  · rw [afterScan, if_neg hten] at h
    obtain ⟨pause, _, h⟩ := Option.bind_eq_some_iff.mp h
    obtain ⟨next, _, h⟩ := Option.bind_eq_some_iff.mp h
    cases h
    exact .kept (by rw [hp]; rfl) (by simp)

theorem effect_of_step {e : Event} (h : step p s e = some (s', obs)) : Effect p s s' obs := by
  have hidle : ∀ {r : State × List Obs}, some (s, []) = some r → Effect p s r.1 r.2 := by
    intro r hr
    cases hr
    exact .kept rfl (by simp)
  cases e with
  | tick d =>
    cases h
    exact .kept rfl (by simp)
  | started =>
    cases hp : s.phase <;> simp only [step, hp] at h
    case starting =>
      obtain ⟨config, hconfig, h⟩ := Option.bind_eq_some_iff.mp h
      cases h
      exact .commanded config rfl (.inl hconfig)
    all_goals exact hidle h
  | answered accepted =>
    cases hp : s.phase <;> simp only [step, hp] at h
    case commanding config => exact afterAnswer_effect hp h
    all_goals exact hidle h
  | timer =>
    cases hp : s.phase <;> simp only [step, hp] at h
    case scanning config deadline =>
      by_cases hd : deadline ≤ s.clock
      · exact afterScan_effect hp (by simpa only [if_pos hd] using h)
      · exact hidle (by simpa only [if_neg hd] using h)
    case pausing config deadline =>
      by_cases hd : deadline ≤ s.clock
      · rw [if_pos hd] at h
        cases h
        exact .commanded config rfl (.inr (by rw [hp]; rfl))
      · exact hidle (by simpa only [if_neg hd] using h)
    all_goals exact hidle h

/-- Every scan of a run is commanded with the one configuration computed at its start. -/
structure Configured (p : Params) (trace : List Obs) (s : State) : Prop where
  commands : ∀ config, .command config ∈ trace → scanConfig p = some config
  phase : ∀ config, s.phase.config? = some config → scanConfig p = some config

theorem effect_configured (hs : Configured p trace s) (heff : Effect p s s' obs) :
    Configured p (obs ++ trace) s' := by
  cases heff with
  | kept hphase hobs =>
    refine ⟨?_, ?_⟩
    · intro config hmem
      exact hs.commands config ((List.mem_append.mp hmem).resolve_left (hobs config))
    · intro config hc
      exact hs.phase config (hphase ▸ hc)
  | commanded config hphase hconfig =>
    have hcomputed : scanConfig p = some config := by
      cases hconfig with
      | inl h => exact h
      | inr h => exact hs.phase config h
    refine ⟨?_, ?_⟩
    · intro config' hmem
      cases List.mem_cons.mp hmem with
      | inl h =>
        cases h
        exact hcomputed
      | inr h => exact hs.commands config' h
    · intro config' hc
      rw [hphase] at hc
      cases hc
      exact hcomputed

theorem run_configured (h : (run p).Run trace s) : Configured p trace s := by
  have hinit : Configured p [] (run p).init := ⟨by simp, by simp [run, Phase.config?]⟩
  exact h.invariant hinit fun _ hs hstep => effect_configured hs (effect_of_step hstep)

theorem started_run {config : ScanConfig} (h : scanConfig p = some config) :
    ∃ s, (run p).Run [.command config] s := by
  refine ⟨⟨0, .commanding config⟩, Lib.Machine.run_of_exec [.started] ?_⟩
  simp [Lib.Machine.exec, run, step, h]

/-- The timing is valid exactly for windows of at most ten seconds, whatever the interval. -/
theorem timingValid_iff (hle : p.window ≤ p.interval) :
    TimingValid p ↔ p.window ≤ tenSecs p.rate := by
  constructor
  · intro hv
    obtain ⟨config, hconfig⟩ := hv.configured
    obtain ⟨s, hrun⟩ := started_run hconfig
    exact (validTiming_iff hconfig hle).mp (hv.commands _ s hrun config List.mem_cons_self)
  · intro hten
    refine ⟨scanConfig_isSome hten, ?_, pause_eq_some hle⟩
    intro trace s hrun config hmem
    exact (validTiming_iff ((run_configured hrun).commands config hmem) hle).mpr hten

/- A scan of so many seconds every minute, at 32768 ticks a second. -/
def rtcRate : TickRate := ⟨32768, by decide⟩

def everyMinute (window : Nat) (h : window ≤ 1000) : Params :=
  ⟨rtcRate, .fromSecs rtcRate 60 (by decide), .fromSecs rtcRate window h⟩

theorem timingValid_two_seconds : TimingValid (everyMinute 2 (by decide)) :=
  (timingValid_iff (by decide)).mpr (by decide)

def wideConfig : ScanConfig := ⟨true, .m1, ⟨160 * 32768, by decide⟩, ⟨240 * 32768, by decide⟩⟩

/-- With a window of fifteen seconds the command has a window of 240 in an interval of 160. -/
theorem wide_window_invalid : ¬ ∀ p : Params, 0 < p.window.ticks → p.window ≤ p.interval →
    TimingValid p := by
  intro h
  have hv := h (everyMinute 15 (by decide)) (by decide) (by decide)
  have hconfig : scanConfig (everyMinute 15 (by decide)) = some wideConfig := rfl
  obtain ⟨s, hrun⟩ := started_run hconfig
  have hle := (hv.commands _ s hrun wideConfig List.mem_cons_self).window_le
  exact absurd hle (by decide)

end AssetTracker.Scanner.TagScanner

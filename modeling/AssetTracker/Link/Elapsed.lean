import AssetTracker.Link.Traced
import AssetTracker.Link.Age

/-! The two programs of the board in the same time: both chips are powered together and count the same
ticks. The age an update reports for a tag is compared with the time since the tag was heard. -/
namespace AssetTracker.Link.Elapsed
open Bounded Gateway Scanner

def sameRate (p : Platform) (cfg : Updates.Config) : Updates.Config :=
  { cfg with tickHz := p.tickHz }

inductive Event where
  | tick (d : Nat)
  | board (e : Tracker.Event)

def isTick : Tracker.Event → Bool
  | .scanner (.tick _) => true
  | .gateway (.tick _) => true
  | _ => false

/-- The clocks only advance together. -/
def step (p : Platform) (cfg : Updates.Config) (s : Tracker.State) :
    Event → Option (Tracker.State × List Tracker.Obs)
  | .tick d =>
    if Updates.mayTick cfg s.gateway d then
      (Tracker.tracker p cfg).exec s [.scanner (.tick d), .gateway (.tick d)]
    else some (s, [])
  | .board e => if isTick e then some (s, []) else Tracker.step p cfg s e

def timed (p : Platform) (cfg : Updates.Config) : Lib.Machine Tracker.State Event Tracker.Obs where
  init := (Tracker.tracker p (sameRate p cfg)).init
  step := step p (sameRate p cfg)

/-- When something was observed, by the clock of the program it happened in. -/
def time : Tracker.Obs → Option Nat
  | .scanner (.frame now _ _) => some now
  | .gateway clock _ => some clock
  | .decoded clock _ => some clock
  | _ => none

variable {p : Platform} {cfg : Updates.Config} {s s' : Tracker.State} {obs trace : List Tracker.Obs}

section Gateway
variable {g g' : Updates.State} {o : List Updates.Obs} {e : Updates.Event}

theorem top_clock {tickHz : Nat} (h : Updates.topOfLoop tickHz g = some (g', o)) :
    g'.clock = g.clock := by
  obtain ⟨s, obs, htop, heff⟩ := Updates.topOfLoop_effect tickHz g
  rw [h] at htop
  cases htop
  cases heff with
  | waiting hlt => rfl
  | started hle => rfl

theorem andThen_clock {tickHz : Nat} {earlier : List Updates.Obs}
    (h : Updates.andThen (Updates.topOfLoop tickHz g) earlier = some (g', o)) :
    g'.clock = g.clock := by
  obtain ⟨r, hr, h⟩ := Option.map_eq_some_iff.mp h
  cases h
  exact top_clock hr

theorem wait_clock {tickHz : Nat} (h : Updates.afterWait tickHz g = some (g', o)) :
    g'.clock = g.clock := by
  unfold Updates.afterWait at h
  split_ifs at h
  · exact andThen_clock h
  · cases h
    rfl

theorem sending_clock {result : Updates.SendResult}
    (h : Updates.afterSending cfg result g = some (g', o)) : g'.clock = g.clock := by
  have hsent : Updates.afterSent cfg.tickHz g = some (g', o) → g'.clock = g.clock := by
    intro h
    obtain ⟨r, hr, h⟩ := Option.map_eq_some_iff.mp h
    cases h
    have hclock := top_clock hr
    exact hclock
  unfold Updates.afterSending at h
  split at h
  · exact hsent h
  · exact hsent h
  · split at h
    · exact hsent h
    · cases h
    · cases h
      rfl
  · cases h
    rfl

theorem linkUp_clock {location : Option Location} {tags : TagsSeen} {decoded : Nat}
    {serialised : Bool}
    (h : Updates.afterLinkUp cfg location tags decoded serialised g = some (g', o)) :
    g'.clock = g.clock := by
  obtain ⟨update, _, h⟩ := Option.bind_eq_some_iff.mp h
  dsimp only at h
  split at h
  · cases h
    rfl
  · cases h
    rfl
  · have hclock := andThen_clock h
    exact hclock

theorem gateway_clock (he : ∀ d, e ≠ .tick d) (h : Updates.step cfg g e = some (g', o)) :
    g'.clock = g.clock := by
  have hidle : some (g, []) = some (g', o) → g'.clock = g.clock := by
    intro h
    cases h
    rfl
  cases e with
  | tick d => exact absurd rfl (he d)
  | booted =>
    cases hp : g.phase <;> simp only [Updates.step, hp] at h
    case booting =>
      rw [Updates.afterBoot] at h
      have hclock := top_clock h
      exact hclock
    all_goals exact hidle h
  | buttonLow =>
    cases hp : g.phase <;> simp only [Updates.step, hp] at h
    case waiting deadline => exact wait_clock h
    all_goals exact hidle h
  | timer =>
    cases hp : g.phase <;> simp only [Updates.step, hp] at h
    case waiting deadline =>
      split_ifs at h
      · exact wait_clock h
      · exact hidle h
    case backingOff tries deadline =>
      split_ifs at h <;> cases h <;> rfl
    all_goals exact hidle h
  | reading reading =>
    cases hp : g.phase <;> simp only [Updates.step, hp] at h
    case acquiring tries =>
      dsimp only [Updates.afterReading] at h
      split_ifs at h <;> cases h <;> rfl
    all_goals exact hidle h
  | decoded tags =>
    cases hp : g.phase <;> simp only [Updates.step, hp] at h
    case receiving location =>
      cases h
      rfl
    all_goals exact hidle h
  | linkUp serialised =>
    cases hp : g.phase <;> simp only [Updates.step, hp] at h
    case connecting location tags decoded => exact linkUp_clock h
    all_goals exact hidle h
  | sent result =>
    cases hp : g.phase <;> simp only [Updates.step, hp] at h
    case sending update => exact sending_clock h
    all_goals exact hidle h
  | ledsStarted => cases ht : g.ledsTask <;> simp only [Updates.step, ht] at h <;> cases h <;> rfl
  | ledsReceive =>
    cases ht : g.ledsTask <;> cases hc : g.ledChannel <;> simp only [Updates.step, ht, hc] at h <;>
      cases h <;> rfl
  | ledsTimer =>
    cases h
    rfl

end Gateway

theorem scanner_clock {sc sc' : Scanner.State} {o : List Scanner.Obs} {e : Scanner.Event}
    (he : ∀ d, e ≠ .tick d) (h : Scanner.step p sc e = some (sc', o)) : sc'.clock = sc.clock := by
  cases e with
  | tick d => exact absurd rfl (he d)
  | onAdvReports it =>
    cases h
    rfl
  | receiveTags =>
    cases hq : sc.queue.popFront <;> simp only [Scanner.step, receiveStep, hq] at h <;> cases h <;> rfl
  | automaticCleanup =>
    obtain ⟨seen, _, h⟩ := Option.bind_eq_some_iff.mp h
    cases h
    rfl
  | sendScanData =>
    obtain ⟨r, _, h⟩ := Option.bind_eq_some_iff.mp h
    cases h
    rfl

theorem effect_clocks {e : Tracker.Event} (he : isTick e = false)
    (heff : Tracker.Effect p cfg s e s' obs) :
    s'.scanner.clock = s.scanner.clock ∧ s'.gateway.clock = s.gateway.clock := by
  have hgateway : ∀ {e : Updates.Event}, isTick (.gateway e) = false → ∀ d, e ≠ .tick d := by
    intro e he d heq
    rw [heq] at he
    cases he
  cases heff with
  | scanned e hframe h =>
    refine ⟨scanner_clock ?_ h, rfl⟩
    intro d heq
    rw [heq] at he
    cases he
  | wrote rest n hw =>
    rw [(Tracker.writeStep_programs s n).1, (Tracker.writeStep_programs s n).2]
    exact ⟨rfl, rfl⟩
  | gateway e hne h hr => exact ⟨rfl, gateway_clock (hgateway he) h⟩
  | listening e hne h hr hr' => exact ⟨rfl, gateway_clock (hgateway he) h⟩
  | decoded n read tags hr hread hi h => exact ⟨rfl, gateway_clock (by simp) h⟩
  | _ => exact ⟨rfl, rfl⟩

theorem scanner_times {sc sc' : Scanner.State} {o : List Scanner.Obs} {e : Scanner.Event}
    (h : Scanner.step p sc e = some (sc', o)) :
    ∀ t ∈ (o.map Tracker.Obs.scanner).filterMap time, t = sc.clock := by
  cases e with
  | sendScanData =>
    obtain ⟨r, _, h⟩ := Option.bind_eq_some_iff.mp h
    cases h
    simp [time]
  | receiveTags =>
    cases hq : sc.queue.popFront with
    | none =>
      simp only [Scanner.step, receiveStep, hq] at h
      cases h
      simp
    | some front =>
      rw [Scanner.step, receiveStep_some hq] at h
      cases h
      simp [time]
  | automaticCleanup =>
    obtain ⟨seen, _, h⟩ := Option.bind_eq_some_iff.mp h
    cases h
    simp [time]
  | _ =>
    cases h
    simp

theorem gateway_times (clock : Nat) (o : List Updates.Obs) :
    ∀ t ∈ (o.map (Tracker.Obs.gateway clock)).filterMap time, t = clock := by
  intro t ht
  rw [List.filterMap_map] at ht
  obtain ⟨_, _, htime⟩ := List.mem_filterMap.mp ht
  exact (Option.some.inj htime).symm

theorem effect_times {e : Tracker.Event} (hclocks : s.gateway.clock = s.scanner.clock)
    (heff : Tracker.Effect p cfg s e s' obs) : ∀ t ∈ obs.filterMap time, t = s.scanner.clock := by
  cases heff with
  | scanned e hframe h => exact scanner_times h
  | framed tags data hw hr h => simp [time]
  | gateway e hne h hr =>
    rw [hclocks]
    exact gateway_times _ _
  | listening e hne h hr hr' =>
    rw [List.filterMap_cons_none rfl, hclocks]
    exact gateway_times _ _
  | decoded n read tags hr hread hi h =>
    rw [List.filterMap_append, hclocks]
    intro t ht
    cases List.mem_append.mp ht with
    | inl hold => exact gateway_times _ _ t hold
    | inr hnew => simpa [time] using hnew
  | _ => simp [time]

theorem exec_tick {d : Nat} (hmay : Updates.mayTick cfg s.gateway d = true) :
    (Tracker.tracker p cfg).exec s [.scanner (.tick d), .gateway (.tick d)] =
      some ({ s with scanner := { s.scanner with clock := s.scanner.clock + d },
                     gateway := { s.gateway with clock := s.gateway.clock + d } }, []) := by
  simp [Lib.Machine.exec, Tracker.tracker, Tracker.step, Tracker.scannerStep, Tracker.gatewayStep,
    Scanner.step, Updates.step, hmay]

theorem step_clocks {e : Event} (hclocks : s.gateway.clock = s.scanner.clock)
    (h : step p cfg s e = some (s', obs)) :
    s'.gateway.clock = s'.scanner.clock ∧ s.scanner.clock ≤ s'.scanner.clock ∧
      ∀ t ∈ obs.filterMap time, t = s.scanner.clock := by
  cases e with
  | tick d =>
    cases hmay : Updates.mayTick cfg s.gateway d with
    | true =>
      rw [step, if_pos hmay, exec_tick hmay] at h
      cases h
      exact ⟨congrArg (· + d) hclocks, Nat.le_add_right _ d, by simp⟩
    | false =>
      rw [step, hmay] at h
      cases h
      exact ⟨hclocks, le_refl _, by simp⟩
  | board e =>
    cases he : isTick e with
    | true =>
      rw [step, if_pos he] at h
      cases h
      exact ⟨hclocks, le_refl _, by simp⟩
    | false =>
      rw [step, he] at h
      have heff := Tracker.effect_of_step h
      obtain ⟨hscanner, hgateway⟩ := effect_clocks he heff
      exact ⟨by rw [hscanner, hgateway, hclocks], hscanner.ge, effect_times hclocks heff⟩

theorem step_exec {e : Event} (h : step p cfg s e = some (s', obs)) :
    ∃ es, (Tracker.tracker p cfg).exec s es = some (s', obs) := by
  cases e with
  | tick d =>
    cases hmay : Updates.mayTick cfg s.gateway d with
    | true =>
      rw [step, if_pos hmay] at h
      exact ⟨_, h⟩
    | false =>
      rw [step, hmay] at h
      exact ⟨[], h⟩
  | board e =>
    cases he : isTick e with
    | true =>
      rw [step, if_pos he] at h
      exact ⟨[], h⟩
    | false =>
      rw [step, he] at h
      exact ⟨[e], Lib.Machine.exec_single h⟩

theorem run_tracker (h : (timed p cfg).Run trace s) :
    (Tracker.tracker p (sameRate p cfg)).Run trace s := by
  have hrun : (Tracker.tracker p (sameRate p cfg)).Run trace (id s) :=
    Lib.Machine.Run.simulated (M := timed p cfg) (N := Tracker.tracker p (sameRate p cfg)) (f := id)
      rfl (fun hstep => step_exec hstep) h
  exact hrun

theorem clocks_run (h : (timed p cfg).Run trace s) : s.gateway.clock = s.scanner.clock :=
  h.invariant (P := fun _ s => s.gateway.clock = s.scanner.clock) rfl
    fun _ hclocks hstep => (step_clocks hclocks hstep).1

theorem times_run (h : (timed p cfg).Run trace s) :
    (trace.filterMap time).Pairwise fun t t' => t' ≤ t := by
  have htimed : ((trace.filterMap time).Pairwise fun t t' => t' ≤ t) ∧
      ∀ t ∈ trace.filterMap time, t ≤ s.scanner.clock :=
    Lib.Machine.Run.timed (fun hr hstep => (step_clocks (clocks_run hr) hstep).2) h
  exact htimed.1

/-- What a reported age says of something that happened `ticks` ago and was on the line for `onLine` of
them. Below the end of the range it lags by the two fractions of a second and the time on the line. -/
structure Accurate (tickHz age ticks onLine : Nat) : Prop where
  notOlder : age * tickHz ≤ ticks
  notMuchYounger : ticks < 2 ^ 16 * tickHz → ticks < (age + 2) * tickHz + onLine

theorem accurate_sum {tickHz heard sent decoded built age : Nat} (hsent : heard ≤ sent)
    (hdecoded : sent ≤ decoded) (hbuilt : decoded ≤ built)
    (hage : age = (min 65535 ((sent - heard) / tickHz) +
      min 65535 ((built - decoded) / tickHz)) % 2 ^ 16) :
    Accurate tickHz age (built - heard) (decoded - sent) := by
  have hfirst := Nat.div_mul_le_self (sent - heard) tickHz
  have hsecond := Nat.div_mul_le_self (built - decoded) tickHz
  have hheard : 0 < tickHz → sent - heard < (sent - heard) / tickHz * tickHz + tickHz :=
    fun hpos => Nat.lt_div_mul_add hpos
  have hwait : 0 < tickHz → built - decoded < (built - decoded) / tickHz * tickHz + tickHz :=
    fun hpos => Nat.lt_div_mul_add hpos
  generalize (sent - heard) / tickHz = i at *
  generalize (built - decoded) / tickHz = j at *
  refine ⟨?_, ?_⟩
  · have hle : age ≤ i + j := by
      have hmod := Nat.mod_le (min 65535 i + min 65535 j) (2 ^ 16)
      omega
    calc
      age * tickHz ≤ (i + j) * tickHz := Nat.mul_le_mul_right tickHz hle
      _ = i * tickHz + j * tickHz := Nat.add_mul i j tickHz
      _ ≤ built - heard := by omega
  · intro hlt
    have hpos : 0 < tickHz := by
      by_contra hzero
      simp [Nat.eq_zero_of_not_pos hzero] at hlt
    have hsum : i + j < 2 ^ 16 := by
      by_contra hge
      have hmul := Nat.mul_le_mul_right tickHz (Nat.le_of_not_lt hge)
      rw [Nat.add_mul] at hmul
      omega
    have hexact : age = i + j := by
      rw [hage, Nat.min_eq_right (by omega), Nat.min_eq_right (by omega), Nat.mod_eq_of_lt hsum]
    have hheard' := hheard hpos
    have hwait' := hwait hpos
    calc
      built - heard = (sent - heard) + (built - decoded) + (decoded - sent) := by omega
      _ < (i * tickHz + tickHz) + (j * tickHz + tickHz) + (decoded - sent) := by omega
      _ = (age + 2) * tickHz + (decoded - sent) := by
        rw [hexact]
        ring

/-- What a tag of an update says of the last report of it that the scanner had when it sent the frame. -/
structure Aged (p : Platform) (older : List Tracker.Obs) (sentAt decodedAt builtAt : Nat)
    (t : DetectedTag) (r : TagReport) : Prop where
  last : lastDequeued (older.filterMap Tracker.scannerObs) r.addr = some r
  same : t = { addr := addrText p.upperHex r.addr, name := r.name, age := t.age, rssi := r.rssi,
               sequence := r.sequence }
  heard : r.timestamp ≤ sentAt
  accurate : Accurate p.tickHz t.age.toNat (builtAt - r.timestamp) (decodedAt - sentAt)

/-- What becomes of a report on its way into an update. -/
def reported (p : Platform) (sentAt decodedAt builtAt : Nat) (r : TagReport) : DetectedTag :=
  { tagOf p sentAt r with
    age := (tagOf p sentAt r).age + saturatedSecs ((builtAt - decodedAt) / p.tickHz) }

theorem agedTag_age {checks : Bool} {secs : UInt16} {tag tag' : DetectedTag}
    (h : agedTag checks secs tag = some tag') : tag' = { tag with age := tag.age + secs } := by
  obtain ⟨age, hage, htag⟩ := Option.bind_eq_some_iff.mp h
  cases htag
  unfold addU16 at hage
  split_ifs at hage <;> cases hage <;> rfl

theorem update_tags {checks : Bool} {deviceId : BString tagNameMaxLen} {location : Option Location}
    {seen : TagStorageMap} {sentAt decodedAt builtAt : Nat} {update : GatewayUpdate}
    (h : gatewayUpdate checks p.tickHz deviceId location (snapshotTags p sentAt seen) decodedAt builtAt =
      some update) :
    update.detectedTags.toList = seen.entries.map fun e => reported p sentAt decodedAt builtAt e.2 := by
  have hmap : ∀ {tags tags' : List DetectedTag} {secs : UInt16},
      List.Forall₂ (fun tag tag' => agedTag checks secs tag = some tag') tags tags' →
        tags' = tags.map fun tag => { tag with age := tag.age + secs } := by
    intro tags tags' secs h
    induction h with
    | nil => rfl
    | cons htag _ ih => rw [List.map_cons, ← ih, ← agedTag_age htag]
  rw [hmap (gatewayUpdate_aged h).2, snapshotTags, List.map_map]
  rfl

theorem aged_stored {older : List Tracker.Obs} {sc : Scanner.State}
    (h : (scanner p).Run (older.filterMap Tracker.scannerObs) sc) {decodedAt builtAt : Nat}
    (hsent : sc.clock ≤ decodedAt) (hbuilt : decodedAt ≤ builtAt) {e : List UInt8 × TagReport}
    (he : e ∈ sc.seen.entries) :
    Aged p older sc.clock decodedAt builtAt (reported p sc.clock decodedAt builtAt e.2) e.2 := by
  have hinv := storeInv_run h
  have hpast := hinv.seenPast e he
  refine ⟨hinv.seenLast e he, rfl, hpast, accurate_sum hpast hsent hbuilt ?_⟩
  simp only [reported, tagOf, UInt16.toNat_add, saturatedSecs_toNat]

/-- Where an update comes from, with the times on the way. -/
theorem update_origin (h : (timed p cfg).Run trace s) (hline : Tracker.Undisturbed trace)
    {builtAt : Nat} {update : GatewayUpdate} {later before : List Tracker.Obs}
    (htrace : trace = later ++ .gateway builtAt (.built update) :: before) :
    ∃ location decodedAt sc connecting frames older,
      before = connecting ++ .decoded decodedAt (snapshotTags p sc.clock sc.seen) ::
        (frames ++ .scanner (.frame sc.clock (snapshotTags p sc.clock sc.seen)
          (some (Wire.frame (snapshotTags p sc.clock sc.seen)))) :: older) ∧
      Tracker.SameWait (connecting ++ frames) ∧ sc.clock ≤ decodedAt ∧ decodedAt ≤ builtAt ∧
      (scanner p).Run (older.filterMap Tracker.scannerObs) sc ∧
      gatewayUpdate cfg.checks p.tickHz cfg.deviceId location (snapshotTags p sc.clock sc.seen)
        decodedAt builtAt = some update := by
  obtain ⟨location, decodedAt, sc, connecting, frames, idle, older, hbefore, hwait, _, hsc, hupdate⟩ :=
    Tracker.justified_split (Tracker.traced_run (run_tracker h) hline).2 hline htrace
  have hsorted := times_run h
  rw [htrace, hbefore] at hsorted
  have htimes : (Tracker.Obs.gateway builtAt (.built update) :: (connecting ++
      .decoded decodedAt (snapshotTags p sc.clock sc.seen) :: (frames ++
        .scanner (.frame sc.clock (snapshotTags p sc.clock sc.seen)
          (some (Wire.frame (snapshotTags p sc.clock sc.seen)))) ::
            (idle ++ .listening true :: older)))).filterMap time =
      builtAt :: (connecting.filterMap time ++ decodedAt :: (frames.filterMap time ++
        sc.clock :: (idle ++ .listening true :: older).filterMap time)) := by
    simp only [List.filterMap_append, List.filterMap_cons, time]
  rw [List.filterMap_append, htimes] at hsorted
  have hboth := (List.pairwise_append.mp hsorted).2.1
  have hdecoded := (List.pairwise_append.mp (List.pairwise_cons.mp hboth).2).2.1
  have hsent : sc.clock ≤ decodedAt := (List.pairwise_cons.mp hdecoded).1 _ (by simp)
  have hbuilt : decodedAt ≤ builtAt := (List.pairwise_cons.mp hboth).1 _ (by simp)
  refine ⟨location, decodedAt, sc, connecting, frames, _, hbefore, ?_, hsent, hbuilt, hsc, hupdate⟩
  intro o ho
  refine hwait o ?_
  rw [← List.append_assoc]
  exact List.mem_append_left idle ho

/-- On an undisturbed line an update makes no tag older than it is, and none younger by two seconds and
the time the frame took: its age is counted from the last report of the tag the scanner had when it sent
the frame, to the moment the update is built. -/
theorem ages_accurate (h : (timed p cfg).Run trace s) (hline : Tracker.Undisturbed trace)
    {builtAt : Nat} {update : GatewayUpdate} {later before : List Tracker.Obs}
    (htrace : trace = later ++ .gateway builtAt (.built update) :: before) :
    ∃ sentAt decodedAt tags data connecting frames older,
      before = connecting ++ .decoded decodedAt tags ::
        (frames ++ .scanner (.frame sentAt tags data) :: older) ∧
      Tracker.SameWait (connecting ++ frames) ∧ sentAt ≤ decodedAt ∧ decodedAt ≤ builtAt ∧
      ∀ t ∈ update.detectedTags.toList, ∃ r, Aged p older sentAt decodedAt builtAt t r := by
  obtain ⟨location, decodedAt, sc, connecting, frames, older, hbefore, hwait, hsent, hbuilt, hsc,
    hupdate⟩ := update_origin h hline htrace
  refine ⟨sc.clock, decodedAt, _, _, connecting, frames, older, hbefore, hwait, hsent, hbuilt, ?_⟩
  intro t ht
  rw [update_tags hupdate] at ht
  obtain ⟨e, he, ht⟩ := List.mem_map.mp ht
  rw [← ht]
  exact ⟨e.2, aged_stored hsc hsent hbuilt he⟩

/- A tag heard at the start is sent a quarter of an hour later, and is a minute older when the network
is up. -/
def laterEvents : List Event :=
  [.board (.scanner (.onAdvReports [some demoReport])), .board (.scanner .receiveTags),
    .board (.gateway .booted), .tick (900 * 32768), .board (.gateway .timer),
    .board (.gateway (.reading Updates.sampleReading)), .board (.scanner .sendScanData),
    .board (.write 4096), .board (.fillBuf (some 27)), .tick (60 * 32768),
    .board (.gateway (.linkUp true))]

def laterTags : TagsSeen := snapshotTags demoPlatform (900 * 32768) demoState.seen

def laterTrace : List Tracker.Obs :=
  [.gateway (960 * 32768) (.announced .networkCommunication (some .waiting)),
    .gateway (900 * 32768) (.announced .waitingNetwork (some .waiting)),
    .decoded (900 * 32768) laterTags,
    .scanner (.frame (900 * 32768) laterTags (some (Wire.frame laterTags))), .listening true,
    .gateway (900 * 32768) (.announced .readingUart (some .waiting)),
    .gateway (900 * 32768) (.read Updates.sampleReading),
    .gateway (900 * 32768) (.announced .gnssAcquisition (some .waiting)),
    .gateway (900 * 32768) (.started (900 * 32768)), .gateway 0 (.announced .waiting none),
    .scanner (.dequeued demoTag)]

theorem laterRun : ∃ s update, (timed demoPlatform (Updates.sampleConfig .coap)).Run
    (.gateway (960 * 32768) (.built update) :: laterTrace) s ∧
      Tracker.Undisturbed (.gateway (960 * 32768) (.built update) :: laterTrace) ∧
        update.detectedTags.toList.map (fun t => t.age) = [960] := by
  have hline : ∀ update,
      Tracker.Undisturbed (.gateway (960 * 32768) (.built update) :: laterTrace) := by
    intro update
    simp [Tracker.Undisturbed, laterTrace]
  exact ⟨_, _, Lib.Machine.run_of_exec laterEvents rfl, hline _, rfl⟩

theorem ages_accurate_later : ∃ update : GatewayUpdate,
    update.detectedTags.toList.map (fun t => t.age) = [960] ∧
      ∃ older sentAt decodedAt, ∀ t ∈ update.detectedTags.toList,
        ∃ r, Aged demoPlatform older sentAt decodedAt (960 * 32768) t r := by
  obtain ⟨s, update, hrun, hline, hages⟩ := laterRun
  have htrace : Tracker.Obs.gateway (960 * 32768) (.built update) :: laterTrace =
      [] ++ .gateway (960 * 32768) (.built update) :: laterTrace := rfl
  obtain ⟨sentAt, decodedAt, _, _, _, _, older, _, _, _, _, haged⟩ := ages_accurate hrun hline htrace
  exact ⟨update, hages, older, sentAt, decodedAt, haged⟩

end AssetTracker.Link.Elapsed

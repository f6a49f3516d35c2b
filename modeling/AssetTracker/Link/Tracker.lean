import AssetTracker.Link.Resync
import AssetTracker.Gateway.Updates

/-! Scanner and gateway on one board. The gateway raises the request line while it waits for tags; the
scanner, which looks at the line only between two frames, writes a frame and pauses, again and again.
Bytes reach a UART that is listening and are lost otherwise. The two clocks run on their own. -/
namespace AssetTracker.Link.Tracker
open Bounded Gateway Wire

/-- Where `send_scan_data` is: it waits for the request, has the rest of a frame to write, or waits
for the 10 ms behind it. -/
inductive Writer where
  | waiting
  | writing (rest : List UInt8)
  | pausing

def Writer.rest : Writer → List UInt8
  | .writing rest => rest
  | _ => []

def Writer.quiet : Writer → Bool
  | .writing _ => false
  | _ => true

/-- `line` holds what the listening UART has taken and the driver has not handed out. -/
structure State where
  scanner : Scanner.State
  gateway : Updates.State
  writer : Writer
  line : List UInt8
  packetBuffer : PacketBuffer

/-- The events of the two programs, less those they cause in each other. `disturb` is anything that
happens to the bytes on the line; `none` is a UART error reported to the gateway. -/
inductive Event where
  | scanner (e : Scanner.Event)
  | write (n : Nat)
  | writeError
  | paused
  | disturb (line : List UInt8)
  | gateway (e : Updates.Event)
  | fillBuf (n : Option Nat)

/-- The gateway's observations with its clock; `quiet` tells whether nothing was being written. -/
inductive Obs where
  | scanner (o : Scanner.Obs)
  | disturbed
  | gateway (clock : Nat) (o : Updates.Obs)
  | listening (quiet : Bool)
  | decoded (clock : Nat) (tags : TagsSeen)

def written : Option (List UInt8) → Writer
  | some data => .writing data
  | none => .pausing

def scannerStep (p : Scanner.Platform) (s : State) : Scanner.Event → Option (State × List Obs)
  | .sendScanData =>
    match s.writer, s.gateway.uartRequest with
    | .waiting, true => do
      let (tags, data) ← Scanner.sendScanData p s.scanner.clock s.scanner.seen
      pure ({ s with writer := written data }, [.scanner (.frame s.scanner.clock tags data)])
    | _, _ => some (s, [])
  | e => do
    let (scanner, obs) ← Scanner.step p s.scanner e
    pure ({ s with scanner := scanner }, obs.map .scanner)

def writeStep (s : State) (n : Nat) : State :=
  match s.writer with
  | .writing rest =>
    { s with line := if s.gateway.uartRequest then s.line ++ rest.take n else s.line,
             writer := if rest.length ≤ n then .pausing else .writing (rest.drop n) }
  | _ => s

/-- The UART and the buffer for packets are made when the request is raised. -/
def gatewayStep (cfg : Updates.Config) (s : State) (e : Updates.Event) :
    Option (State × List Obs) := do
  let (gateway, obs) ← Updates.step cfg s.gateway e
  let obs := obs.map (.gateway s.gateway.clock)
  if !s.gateway.uartRequest && gateway.uartRequest then
    pure ({ s with gateway := gateway, line := [], packetBuffer := .empty },
      .listening s.writer.quiet :: obs)
  else pure ({ s with gateway := gateway }, obs)

def available (line : List UInt8) (n : Nat) : Option Read :=
  if h : 0 < n ∧ n ≤ rxBufLen ∧ n ≤ line.length then
    some ⟨line.take n, by
      intro hnil
      have hlen := congrArg List.length hnil
      rw [List.length_take, List.length_nil] at hlen
      omega, by
      rw [List.length_take]
      omega⟩
  else none

/-- An iteration of `wait_for_decoded_message`. -/
def fillBufStep (cfg : Updates.Config) (s : State) (n : Nat) : Option (State × List Obs) :=
  match s.gateway.uartRequest, available s.line n with
  | true, some read =>
    match iteration s.packetBuffer read with
    | .retry packetBuffer => some ({ s with packetBuffer := packetBuffer }, [])
    | .next packetBuffer =>
      some ({ s with packetBuffer := packetBuffer, line := s.line.drop n }, [])
    | .decoded tags => do
      let (gateway, obs) ← Updates.step cfg s.gateway (.decoded tags)
      pure ({ s with gateway := gateway },
        obs.map (.gateway s.gateway.clock) ++ [.decoded s.gateway.clock tags])
    | .panicked => none
  | _, _ => some (s, [])

def step (p : Scanner.Platform) (cfg : Updates.Config) (s : State) :
    Event → Option (State × List Obs)
  | .scanner e => scannerStep p s e
  | .write n => some (writeStep s n, [])
  | .writeError =>
    match s.writer with
    | .writing _ => some ({ s with writer := .pausing }, [.disturbed])
    | _ => some (s, [])
  | .paused =>
    match s.writer with
    | .pausing => some ({ s with writer := .waiting }, [])
    | _ => some (s, [])
  | .disturb line => some ({ s with line := line }, [.disturbed])
  | .gateway (.decoded _) => some (s, [])
  | .gateway e => gatewayStep cfg s e
  | .fillBuf none => some (s, [])
  | .fillBuf (some n) => fillBufStep cfg s n

def tracker (p : Scanner.Platform) (cfg : Updates.Config) : Lib.Machine State Event Obs where
  init := ⟨(Scanner.scanner p).init, (Updates.updates cfg).init, .waiting, [], .empty⟩
  step := step p cfg

inductive Effect (p : Scanner.Platform) (cfg : Updates.Config) (s : State) :
    Event → State → List Obs → Prop where
  | idle (e : Event) : Effect p cfg s e s []
  | scanned {scanner : Scanner.State} {obs : List Scanner.Obs} (e : Scanner.Event)
      (he : e ≠ .sendScanData) (h : Scanner.step p s.scanner e = some (scanner, obs)) :
      Effect p cfg s (.scanner e) { s with scanner := scanner } (obs.map .scanner)
  | framed (tags : TagsSeen) (data : Option (List UInt8)) (hw : s.writer = .waiting)
      (hr : s.gateway.uartRequest = true)
      (h : Scanner.sendScanData p s.scanner.clock s.scanner.seen = some (tags, data)) :
      Effect p cfg s (.scanner .sendScanData) { s with writer := written data }
        [.scanner (.frame s.scanner.clock tags data)]
  | wrote (rest : List UInt8) (n : Nat) (hw : s.writer = .writing rest) :
      Effect p cfg s (.write n) (writeStep s n) []
  | paused (hw : s.writer = .pausing) : Effect p cfg s .paused { s with writer := .waiting } []
  | failed (rest : List UInt8) (hw : s.writer = .writing rest) :
      Effect p cfg s .writeError { s with writer := .pausing } [.disturbed]
  | disturbed (line : List UInt8) : Effect p cfg s (.disturb line) { s with line := line } [.disturbed]
  | gateway {gateway : Updates.State} {obs : List Updates.Obs} (e : Updates.Event)
      (he : ∀ tags, e ≠ .decoded tags) (h : Updates.step cfg s.gateway e = some (gateway, obs))
      (hr : s.gateway.uartRequest = false → gateway.uartRequest = false) :
      Effect p cfg s (.gateway e) { s with gateway := gateway }
        (obs.map (.gateway s.gateway.clock))
  | listening {gateway : Updates.State} {obs : List Updates.Obs} (e : Updates.Event)
      (he : ∀ tags, e ≠ .decoded tags) (h : Updates.step cfg s.gateway e = some (gateway, obs))
      (hr : s.gateway.uartRequest = false) (hr' : gateway.uartRequest = true) :
      Effect p cfg s (.gateway e) { s with gateway := gateway, line := [], packetBuffer := .empty }
        (.listening s.writer.quiet :: obs.map (.gateway s.gateway.clock))
  | retried (n : Nat) (read : Read) (packetBuffer : PacketBuffer)
      (hr : s.gateway.uartRequest = true) (hread : available s.line n = some read)
      (hi : iteration s.packetBuffer read = .retry packetBuffer) :
      Effect p cfg s (.fillBuf (some n)) { s with packetBuffer := packetBuffer } []
  | kept (n : Nat) (read : Read) (packetBuffer : PacketBuffer) (hr : s.gateway.uartRequest = true)
      (hread : available s.line n = some read)
      (hi : iteration s.packetBuffer read = .next packetBuffer) :
      Effect p cfg s (.fillBuf (some n))
        { s with packetBuffer := packetBuffer, line := s.line.drop n } []
  | decoded {gateway : Updates.State} {obs : List Updates.Obs} (n : Nat) (read : Read)
      (tags : TagsSeen) (hr : s.gateway.uartRequest = true) (hread : available s.line n = some read)
      (hi : iteration s.packetBuffer read = .decoded tags)
      (h : Updates.step cfg s.gateway (.decoded tags) = some (gateway, obs)) :
      Effect p cfg s (.fillBuf (some n)) { s with gateway := gateway }
        (obs.map (.gateway s.gateway.clock) ++ [.decoded s.gateway.clock tags])

variable {p : Scanner.Platform} {cfg : Updates.Config} {s s' : State} {obs trace : List Obs}

theorem scannerStep_effect {e : Scanner.Event} (h : scannerStep p s e = some (s', obs)) :
    Effect p cfg s (.scanner e) s' obs := by
  cases e with
  | sendScanData =>
    cases hw : s.writer with
    | waiting =>
      cases hr : s.gateway.uartRequest with
      | false =>
        rw [scannerStep, hw, hr] at h
        cases h
        exact .idle _
      | true =>
        rw [scannerStep, hw, hr] at h
        obtain ⟨r, hsend, h⟩ := Option.bind_eq_some_iff.mp h
        cases h
        exact .framed r.1 r.2 hw hr hsend
    | _ =>
      rw [scannerStep, hw] at h
      cases h
      exact .idle _
  | _ =>
    simp only [scannerStep, Option.bind_eq_bind] at h
    obtain ⟨r, hstep, h⟩ := Option.bind_eq_some_iff.mp h
    cases h
    exact .scanned _ (by simp) hstep

theorem gatewayStep_effect {e : Updates.Event} (he : ∀ tags, e ≠ .decoded tags)
    (h : gatewayStep cfg s e = some (s', obs)) : Effect p cfg s (.gateway e) s' obs := by
  obtain ⟨r, hstep, h⟩ := Option.bind_eq_some_iff.mp h
  dsimp only at h
  by_cases hr : (!s.gateway.uartRequest && r.1.uartRequest) = true
  · rw [if_pos hr] at h
    cases h
    simp only [Bool.and_eq_true, Bool.not_eq_true'] at hr
    exact .listening e he hstep hr.1 hr.2
  · rw [if_neg hr] at h
    cases h
    refine .gateway e he hstep ?_
    intro hlow
    simpa [hlow] using hr

theorem fillBufStep_effect {n : Nat} (h : fillBufStep cfg s n = some (s', obs)) :
    Effect p cfg s (.fillBuf (some n)) s' obs := by
  cases hr : s.gateway.uartRequest with
  | false =>
    rw [fillBufStep, hr] at h
    cases h
    exact .idle _
  | true =>
    cases hread : available s.line n with
    | none =>
      rw [fillBufStep, hr, hread] at h
      cases h
      exact .idle _
    | some read =>
      simp only [fillBufStep, hr, hread] at h
      cases hi : iteration s.packetBuffer read with
      | retry packetBuffer =>
        rw [hi] at h
        cases h
        exact .retried n read packetBuffer hr hread hi
      | next packetBuffer =>
        rw [hi] at h
        cases h
        exact .kept n read packetBuffer hr hread hi
      | decoded tags =>
        rw [hi] at h
        obtain ⟨r, hstep, h⟩ := Option.bind_eq_some_iff.mp h
        cases h
        exact .decoded n read tags hr hread hi hstep
      | panicked =>
        rw [hi] at h
        cases h

theorem effect_of_step {e : Event} (h : step p cfg s e = some (s', obs)) :
    Effect p cfg s e s' obs := by
  cases e with
  | scanner e => exact scannerStep_effect h
  | write n =>
    cases h
    cases hw : s.writer with
    | writing rest => exact .wrote rest n hw
    | _ => simpa only [writeStep, hw] using Effect.idle (.write n)
  | writeError =>
    cases hw : s.writer <;> rw [step, hw] at h <;> cases h
    · exact .idle _
    · exact .failed _ hw
    · exact .idle _
  | paused =>
    cases hw : s.writer <;> rw [step, hw] at h <;> cases h
    · exact .idle _
    · exact .idle _
    · exact .paused hw
  | disturb line =>
    cases h
    exact .disturbed line
  | gateway e =>
    cases e with
    | decoded tags =>
      cases h
      exact .idle _
    | _ => exact gatewayStep_effect (by simp) h
  | fillBuf n =>
    cases n with
    | none =>
      cases h
      exact .idle _
    | some n => exact fillBufStep_effect h

def scannerObs : Obs → Option Scanner.Obs
  | .scanner o => some o
  | _ => none

def gatewayObs : Obs → Option Updates.Obs
  | .gateway _ o => some o
  | _ => none

theorem scannerObs_scanner (obs : List Scanner.Obs) :
    (obs.map Obs.scanner).filterMap scannerObs = obs := by
  rw [List.filterMap_map]
  exact List.filterMap_some

theorem scannerObs_gateway (clock : Nat) (obs : List Updates.Obs) :
    (obs.map (Obs.gateway clock)).filterMap scannerObs = [] := by
  simp [scannerObs, List.filterMap_map]

theorem gatewayObs_gateway (clock : Nat) (obs : List Updates.Obs) :
    (obs.map (Obs.gateway clock)).filterMap gatewayObs = obs := by
  rw [List.filterMap_map]
  exact List.filterMap_some

theorem gatewayObs_scanner (obs : List Scanner.Obs) :
    (obs.map Obs.scanner).filterMap gatewayObs = [] := by
  simp [gatewayObs, List.filterMap_map]

theorem writeStep_programs (s : State) (n : Nat) :
    (writeStep s n).scanner = s.scanner ∧ (writeStep s n).gateway = s.gateway := by
  unfold writeStep
  split <;> exact ⟨rfl, rfl⟩

theorem effect_scanner {e : Event} (heff : Effect p cfg s e s' obs) :
    ∃ es, (Scanner.scanner p).exec s.scanner es = some (s'.scanner, obs.filterMap scannerObs) := by
  cases heff with
  | scanned e he h =>
    rw [scannerObs_scanner]
    exact ⟨[e], Lib.Machine.exec_single h⟩
  | framed tags data hw hr h =>
    refine ⟨[.sendScanData], Lib.Machine.exec_single ?_⟩
    simp [Scanner.scanner, Scanner.step, h, scannerObs]
  | wrote rest n hw =>
    rw [(writeStep_programs s n).1]
    exact ⟨[], rfl⟩
  | gateway e he h hr => exact ⟨[], by rw [scannerObs_gateway]; rfl⟩
  | listening e he h hr hr' =>
    refine ⟨[], ?_⟩
    simp [scannerObs, Lib.Machine.exec]
  | decoded n read tags hr hread hi h =>
    refine ⟨[], ?_⟩
    simp [scannerObs, Lib.Machine.exec]
  | _ => exact ⟨[], rfl⟩

theorem effect_gateway {e : Event} (heff : Effect p cfg s e s' obs) :
    ∃ es, (Updates.updates cfg).exec s.gateway es = some (s'.gateway, obs.filterMap gatewayObs) := by
  cases heff with
  | scanned e he h => exact ⟨[], by rw [gatewayObs_scanner]; rfl⟩
  | wrote rest n hw =>
    rw [(writeStep_programs s n).2]
    exact ⟨[], rfl⟩
  | gateway e he h hr =>
    rw [gatewayObs_gateway]
    exact ⟨[e], Lib.Machine.exec_single h⟩
  | listening e he h hr hr' =>
    refine ⟨[e], Lib.Machine.exec_single ?_⟩
    rw [List.filterMap_cons_none rfl, gatewayObs_gateway]
    exact h
  | decoded n read tags hr hread hi h =>
    refine ⟨[.decoded tags], Lib.Machine.exec_single ?_⟩
    rw [List.filterMap_append, gatewayObs_gateway, List.filterMap_cons_none rfl, List.filterMap_nil,
      List.append_nil]
    exact h
  | _ => exact ⟨[], rfl⟩

/-- Each program's part of a run is a run of that program alone. -/
theorem run_scanner (h : (tracker p cfg).Run trace s) :
    (Scanner.scanner p).Run (trace.filterMap scannerObs) s.scanner :=
  Lib.Machine.Run.projected (M := tracker p cfg) (f := State.scanner) rfl
    (fun hstep => effect_scanner (effect_of_step hstep)) h

theorem run_gateway (h : (tracker p cfg).Run trace s) :
    (Updates.updates cfg).Run (trace.filterMap gatewayObs) s.gateway :=
  Lib.Machine.Run.projected (M := tracker p cfg) (f := State.gateway) rfl
    (fun hstep => effect_gateway (effect_of_step hstep)) h

end AssetTracker.Link.Tracker

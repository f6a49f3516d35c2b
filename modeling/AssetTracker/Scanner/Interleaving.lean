import AssetTracker.Scanner.Run

/-! The scanner program operation by operation. Taking the lock of the map, each operation on the map or
the queue and each look at the clock is a step of its own, and between any two of them the clock may
advance and the other tasks may take steps. The steps of `scanner` are sequences of these. -/
namespace AssetTracker.Scanner.Interleaving
open Bounded

/-- `on_adv_reports`, with the instant it has read and what is left of its batch. -/
inductive Callback where
  | idle
  | reporting (instant : Nat) (it : List (Option LeAdvReport))

inductive Receiver where
  | waiting
  | received (value : TagReport)
  | locked (value : TagReport)
  | inserting (value : TagReport)

inductive Cleanup where
  | sleeping
  | locked
  | retaining (now : Nat)

inductive Sender where
  | idle
  | locked
  | cloned (seen : TagStorageMap)
  | converting (now : Nat) (seen : TagStorageMap)

/-- `locked` is the state of the mutex around the map. -/
structure State where
  clock : Nat
  queue : Queue
  seen : TagStorageMap
  locked : Bool
  callback : Callback
  receiver : Receiver
  cleanup : Cleanup
  sender : Sender

/-- A batch arrives, or one of the tasks takes the step it is at. -/
inductive Event where
  | tick (d : Nat)
  | onAdvReports (it : List (Option LeAdvReport))
  | report
  | receiveTags
  | automaticCleanup
  | sendScanData

def callbackStep (p : Platform) (s : State) : State :=
  match s.callback with
  | .idle => s
  | .reporting _ [] => { s with callback := .idle }
  | .reporting _ (none :: _) => { s with callback := .idle }
  | .reporting instant (some report :: it) =>
    match tagReport p.tagPrefix instant report with
    | some r => { s with queue := trySend s.queue r, callback := .reporting instant it }
    | none => { s with callback := .reporting instant it }

def receiverStep (s : State) : State × List Obs :=
  match s.receiver with
  | .waiting =>
    match s.queue.popFront with
    | none => (s, [])
    | some (value, queue) =>
      ({ s with queue := queue, receiver := .received value }, [.dequeued value])
  | .received value =>
    if s.locked then (s, []) else ({ s with locked := true, receiver := .locked value }, [])
  | .locked value =>
    ({ s with seen := makeRoom s.seen (tagKey value.addr), receiver := .inserting value }, [])
  | .inserting value =>
    match s.seen.insert (tagKey value.addr) value with
    | .ok seen => ({ s with seen := seen, locked := false, receiver := .waiting }, [])
    | .error (key, value) =>
      ({ s with locked := false, receiver := .waiting }, [.insertFailed key value])

def cleanupStep (p : Platform) (s : State) : Option (State × List Obs) :=
  match s.cleanup with
  | .sleeping =>
    if s.locked then some (s, []) else some ({ s with locked := true, cleanup := .locked }, [])
  | .locked => some ({ s with cleanup := .retaining s.clock }, [])
  | .retaining now => do
    let seen ← removeOldEntries p.tickHz now s.seen
    pure ({ s with seen := seen, locked := false, cleanup := .sleeping }, [.cleanup now])

def senderStep (p : Platform) (s : State) : Option (State × List Obs) :=
  match s.sender with
  | .idle =>
    if s.locked then some (s, []) else some ({ s with locked := true, sender := .locked }, [])
  | .locked => some ({ s with locked := false, sender := .cloned s.seen }, [])
  | .cloned seen => some ({ s with sender := .converting s.clock seen }, [])
  | .converting now seen => do
    let (tags, data) ← sendScanData p now seen
    pure ({ s with sender := .idle }, [.frame now tags data])

/-- The callback is called again only when it has returned, and reads the clock first. -/
def step (p : Platform) (s : State) : Event → Option (State × List Obs)
  | .tick d => some ({ s with clock := s.clock + d }, [])
  | .onAdvReports it =>
    match s.callback with
    | .idle => some ({ s with callback := .reporting s.clock it }, [])
    | .reporting _ _ => some (s, [])
  | .report => some (callbackStep p s, [])
  | .receiveTags => some (receiverStep s)
  | .automaticCleanup => cleanupStep p s
  | .sendScanData => senderStep p s

/-- The tasks are all at the top of their loops. -/
def atRest (s : Scanner.State) : State :=
  ⟨s.clock, s.queue, s.seen, false, .idle, .waiting, .sleeping, .idle⟩

def interleaving (p : Platform) : Lib.Machine State Event Obs where
  init := atRest (scanner p).init
  step := step p

inductive Effect (p : Platform) (s : State) : State → List Obs → Prop where
  | idle : Effect p s s []
  | tick (d : Nat) : Effect p s { s with clock := s.clock + d } []
  | begun (it : List (Option LeAdvReport)) (hc : s.callback = .idle) :
      Effect p s { s with callback := .reporting s.clock it } []
  | queued (instant : Nat) (it it' : List (Option LeAdvReport)) (r : TagReport)
      (hc : s.callback = .reporting instant it) (hr : r.timestamp = instant) :
      Effect p s { s with queue := trySend s.queue r, callback := .reporting instant it' } []
  | passed (instant : Nat) (it it' : List (Option LeAdvReport))
      (hc : s.callback = .reporting instant it) :
      Effect p s { s with callback := .reporting instant it' } []
  | returned : Effect p s { s with callback := .idle } []
  | dequeued (value : TagReport) (queue : Queue) (hr : s.receiver = .waiting)
      (hq : s.queue.toList = value :: queue.toList) :
      Effect p s { s with queue := queue, receiver := .received value } [.dequeued value]
  | receiverLocked (value : TagReport) (hr : s.receiver = .received value)
      (hl : s.locked = false) :
      Effect p s { s with locked := true, receiver := .locked value } []
  | roomMade (value : TagReport) (hr : s.receiver = .locked value) :
      Effect p s
        { s with seen := makeRoom s.seen (tagKey value.addr), receiver := .inserting value } []
  | inserted (value : TagReport) (seen : TagStorageMap) (hr : s.receiver = .inserting value)
      (hseen : ∀ e, e ∈ seen.entries ↔ e = (tagKey value.addr, value) ∨
        (e ∈ s.seen.entries ∧ e.1 ≠ tagKey value.addr)) :
      Effect p s { s with seen := seen, locked := false, receiver := .waiting } []
  | insertFailed (value value' : TagReport) (key : List UInt8) (hr : s.receiver = .inserting value) :
      Effect p s { s with locked := false, receiver := .waiting } [.insertFailed key value']
  | cleanupLocked (hc : s.cleanup = .sleeping) (hl : s.locked = false) :
      Effect p s { s with locked := true, cleanup := .locked } []
  | cleanupRead (hc : s.cleanup = .locked) :
      Effect p s { s with cleanup := .retaining s.clock } []
  | retained (now : Nat) (seen : TagStorageMap) (hc : s.cleanup = .retaining now)
      (hseen : removeOldEntries p.tickHz now s.seen = some seen) :
      Effect p s { s with seen := seen, locked := false, cleanup := .sleeping } [.cleanup now]
  | senderLocked (hs : s.sender = .idle) (hl : s.locked = false) :
      Effect p s { s with locked := true, sender := .locked } []
  | cloned (hs : s.sender = .locked) :
      Effect p s { s with locked := false, sender := .cloned s.seen } []
  | senderRead (seen : TagStorageMap) (hs : s.sender = .cloned seen) :
      Effect p s { s with sender := .converting s.clock seen } []
  | converted (now : Nat) (seen : TagStorageMap) (tags : TagsSeen) (data : Option (List UInt8))
      (hs : s.sender = .converting now seen) :
      Effect p s { s with sender := .idle } [.frame now tags data]

section Step
variable {p : Platform} {s s' : State} {obs : List Obs}

theorem callbackStep_effect (p : Platform) (s : State) : Effect p s (callbackStep p s) [] := by
  cases hc : s.callback with
  | idle => simpa only [callbackStep, hc] using Effect.idle
  | reporting instant it =>
    cases it with
    | nil => simpa only [callbackStep, hc] using Effect.returned
    | cons item it =>
      cases item with
      | none => simpa only [callbackStep, hc] using Effect.returned
      | some report =>
        cases hr : tagReport p.tagPrefix instant report with
        | none => simpa only [callbackStep, hc, hr] using Effect.passed instant _ it hc
        | some r =>
          simpa only [callbackStep, hc, hr] using
            Effect.queued instant _ it r hc (tagReport_eq_some hr).1

theorem receiverStep_effect (p : Platform) (s : State) :
    Effect p s (receiverStep s).1 (receiverStep s).2 := by
  cases hr : s.receiver with
  | waiting =>
    cases hq : s.queue.popFront with
    | none => simpa only [receiverStep, hr, hq] using Effect.idle
    | some front =>
      simpa only [receiverStep, hr, hq] using
        Effect.dequeued front.1 front.2 hr (BVec.popFront_some hq)
  | received value =>
    cases hl : s.locked with
    | false => simpa [receiverStep, hr, hl] using Effect.receiverLocked value hr hl
    | true => simpa [receiverStep, hr, hl] using Effect.idle
  | locked value => simpa only [receiverStep, hr] using Effect.roomMade value hr
  | inserting value =>
    cases hins : s.seen.insert (tagKey value.addr) value with
    | ok seen =>
      simpa only [receiverStep, hr, hins] using
        Effect.inserted value seen hr (IndexMap.mem_insert hins)
    | error e =>
      simpa only [receiverStep, hr, hins] using Effect.insertFailed value e.2 e.1 hr

theorem cleanupStep_effect (h : cleanupStep p s = some (s', obs)) : Effect p s s' obs := by
  cases hc : s.cleanup <;> simp only [cleanupStep, hc] at h
  case sleeping =>
    cases hl : s.locked <;> simp only [hl] at h
    case false =>
      cases h
      exact .cleanupLocked hc hl
    case true =>
      cases h
      exact .idle
  case locked =>
    cases h
    exact .cleanupRead hc
  case retaining now =>
    obtain ⟨seen, hseen, h⟩ := Option.bind_eq_some_iff.mp h
    cases h
    exact .retained now seen hc hseen

theorem senderStep_effect (h : senderStep p s = some (s', obs)) : Effect p s s' obs := by
  cases hs : s.sender <;> simp only [senderStep, hs] at h
  case idle =>
    cases hl : s.locked <;> simp only [hl] at h
    case false =>
      cases h
      exact .senderLocked hs hl
    case true =>
      cases h
      exact .idle
  case locked =>
    cases h
    exact .cloned hs
  case cloned seen =>
    cases h
    exact .senderRead seen hs
  case converting now seen =>
    obtain ⟨r, _, h⟩ := Option.bind_eq_some_iff.mp h
    cases h
    exact .converted now seen r.1 r.2 hs

theorem effect_of_step {e : Event} (h : step p s e = some (s', obs)) : Effect p s s' obs := by
  cases e with
  | tick d =>
    cases h
    exact .tick d
  | onAdvReports it =>
    cases hc : s.callback <;> simp only [step, hc] at h
    case idle =>
      cases h
      exact .begun it hc
    case reporting instant it' =>
      cases h
      exact .idle
  | report =>
    cases h
    exact callbackStep_effect p s
  | receiveTags =>
    have heff := receiverStep_effect p s
    rw [show receiverStep s = (s', obs) from Option.some.inj h] at heff
    exact heff
  | automaticCleanup => exact cleanupStep_effect h
  | sendScanData => exact senderStep_effect h

end Step

variable {p : Platform}

theorem exec_report (instant : Nat) (it : List (Option LeAdvReport)) (s : Scanner.State) :
    ∃ es, (interleaving p).exec { atRest s with callback := .reporting instant it } es =
      some (atRest { s with queue := onAdvReports p.tagPrefix instant it s.queue }, []) := by
  induction it generalizing s with
  | nil => exact ⟨[.report], rfl⟩
  | cons item it ih =>
    cases item with
    | none => exact ⟨[.report], rfl⟩
    | some report =>
      cases hr : tagReport p.tagPrefix instant report with
      | none =>
        obtain ⟨es, hes⟩ := ih s
        refine ⟨.report :: es, ?_⟩
        simp only [onAdvReports, hr]
        refine Lib.Machine.exec_cons ?_ hes
        simp [interleaving, step, callbackStep, hr]
      | some r =>
        obtain ⟨es, hes⟩ := ih { s with queue := trySend s.queue r }
        refine ⟨.report :: es, ?_⟩
        simp only [onAdvReports, hr]
        refine Lib.Machine.exec_cons ?_ hes
        simp [interleaving, step, callbackStep, hr, atRest]

theorem exec_onAdvReports (it : List (Option LeAdvReport)) (s : Scanner.State) :
    ∃ es, (interleaving p).exec (atRest s) es =
      some (atRest { s with queue := onAdvReports p.tagPrefix s.clock it s.queue }, []) := by
  obtain ⟨es, hes⟩ := exec_report (p := p) s.clock it s
  exact ⟨.onAdvReports it :: es, Lib.Machine.exec_cons rfl hes⟩

theorem exec_receiveTags (s : Scanner.State) :
    ∃ es, (interleaving p).exec (atRest s) es =
      some (atRest (receiveStep s).1, (receiveStep s).2) := by
  cases hq : s.queue.popFront with
  | none =>
    refine ⟨[], ?_⟩
    simp [Lib.Machine.exec, receiveStep, hq]
  | some front =>
    refine ⟨List.replicate 4 .receiveTags, ?_⟩
    cases hins : (makeRoom s.seen (tagKey front.1.addr)).insert (tagKey front.1.addr) front.1 with
    | ok seen =>
      simp [List.replicate, Lib.Machine.exec, interleaving, step, receiverStep, atRest, hq,
        receiveStep, receiveTag, hins]
    | error e =>
      simp [List.replicate, Lib.Machine.exec, interleaving, step, receiverStep, atRest, hq,
        receiveStep, receiveTag, hins]

theorem exec_automaticCleanup {s : Scanner.State} {seen : TagStorageMap}
    (h : removeOldEntries p.tickHz s.clock s.seen = some seen) :
    (interleaving p).exec (atRest s) (List.replicate 3 .automaticCleanup) =
      some (atRest { s with seen := seen }, [.cleanup s.clock]) := by
  simp [List.replicate, Lib.Machine.exec, interleaving, step, cleanupStep, atRest, h]

theorem exec_sendScanData {s : Scanner.State} {tags : TagsSeen} {data : Option (List UInt8)}
    (h : sendScanData p s.clock s.seen = some (tags, data)) :
    (interleaving p).exec (atRest s) (List.replicate 4 .sendScanData) =
      some (atRest s, [.frame s.clock tags data]) := by
  simp [List.replicate, Lib.Machine.exec, interleaving, step, senderStep, atRest, h]

/-- Each step of the scanner is a sequence of operations that no other task comes between. -/
theorem exec_of_step {s s' : Scanner.State} {e : Scanner.Event} {obs : List Obs}
    (h : Scanner.step p s e = some (s', obs)) :
    ∃ es, (interleaving p).exec (atRest s) es = some (atRest s', obs) := by
  cases e with
  | tick d =>
    cases h
    exact ⟨[.tick d], rfl⟩
  | onAdvReports it =>
    cases h
    exact exec_onAdvReports it s
  | receiveTags =>
    have heq : receiveStep s = (s', obs) := Option.some.inj h
    simpa only [heq] using exec_receiveTags (p := p) s
  | automaticCleanup =>
    obtain ⟨seen, hseen, h⟩ := Option.bind_eq_some_iff.mp h
    cases h
    exact ⟨_, exec_automaticCleanup hseen⟩
  | sendScanData =>
    obtain ⟨r, hr, h⟩ := Option.bind_eq_some_iff.mp h
    cases h
    exact ⟨_, exec_sendScanData hr⟩

/-- The runs of the scanner are those in which no task is interrupted. -/
theorem run_of_scanner {trace : List Obs} {s : Scanner.State} (h : (scanner p).Run trace s) :
    (interleaving p).Run trace (atRest s) :=
  h.simulated (f := atRest) rfl exec_of_step

end AssetTracker.Scanner.Interleaving

import AssetTracker.Scanner.Frame
import AssetTracker.Lib.Machine

/-! The scanner program as a machine. Its tasks share one cooperative executor and none of them holds
the map across a suspension point, so a dequeue with its insertion, a cleanup, and a snapshot with
its frame are one step each; the BLE callback never suspends. Between any two steps the clock may
advance. The callback, the three tasks and the clock are interleaved arbitrarily. -/
namespace AssetTracker.Scanner
open Bounded

structure State where
  clock : Nat
  queue : Queue
  seen : TagStorageMap

inductive Event where
  | tick (d : Nat)
  | onAdvReports (it : List (Option LeAdvReport))
  | receiveTags
  | automaticCleanup
  | sendScanData

inductive Obs where
  | dequeued (value : TagReport)
  | insertFailed (key : List UInt8) (value : TagReport)
  | cleanup (now : Nat)
  | frame (now : Nat) (tags : TagsSeen) (data : Option (List UInt8))

def receiveStep (s : State) : State × List Obs :=
  match s.queue.popFront with
  | none => (s, [])
  | some (value, queue) =>
    let (seen, failed) := receiveTag value s.seen
    ({ s with queue := queue, seen := seen },
      (failed.map fun (key, value) => Obs.insertFailed key value).toList ++ [.dequeued value])

def step (p : Platform) (s : State) : Event → Option (State × List Obs)
  | .tick d => some ({ s with clock := s.clock + d }, [])
  | .onAdvReports it =>
    some ({ s with queue := onAdvReports p.tagPrefix s.clock it s.queue }, [])
  | .receiveTags => some (receiveStep s)
  | .automaticCleanup => do
    let seen ← removeOldEntries p.tickHz s.clock s.seen
    pure ({ s with seen := seen }, [.cleanup s.clock])
  | .sendScanData => do
    let (tags, data) ← sendScanData p s.clock s.seen
    pure (s, [.frame s.clock tags data])

def scanner (p : Platform) : Lib.Machine State Event Obs where
  init := ⟨0, .empty, .empty⟩
  step := step p

def dequeued : List Obs → List TagReport
  | [] => []
  | .dequeued value :: trace => value :: dequeued trace
  | .insertFailed _ _ :: trace => dequeued trace
  | .cleanup _ :: trace => dequeued trace
  | .frame _ _ _ :: trace => dequeued trace

def lastDequeued (trace : List Obs) (addr : BdAddr) : Option TagReport :=
  (dequeued trace).find? fun r => r.addr = addr

inductive Effect (p : Platform) (s : State) : State → List Obs → Prop where
  | tick (d : Nat) : Effect p s { s with clock := s.clock + d } []
  | queued (queue : Queue) (added : List TagReport) (happ : queue.toList = s.queue.toList ++ added)
      (hall : ∀ r ∈ added, r.timestamp = s.clock ∧ p.tagPrefix.bytes <:+ r.addr.bytes) :
      Effect p s { s with queue := queue } []
  | received (value : TagReport) (queue : Queue) (seen : TagStorageMap)
      (hq : s.queue.toList = value :: queue.toList)
      (hseen : ∀ e, e ∈ seen.entries ↔ e = (tagKey value.addr, value) ∨
        (e ∈ (makeRoom s.seen (tagKey value.addr)).entries ∧ e.1 ≠ tagKey value.addr)) :
      Effect p s { s with queue := queue, seen := seen } [.dequeued value]
  | idle : Effect p s s []
  | cleaned : Effect p s
      { s with seen := s.seen.retain fun _ tag =>
          decide (s.clock - tag.timestamp < scanInterval p.tickHz * 10) } [.cleanup s.clock]
  | sent : Effect p s s [.frame s.clock (snapshotTags p s.clock s.seen)
      (some (Wire.frame (snapshotTags p s.clock s.seen)))]

theorem receiveStep_some {s : State} {value : TagReport} {queue : Queue}
    (h : s.queue.popFront = some (value, queue)) :
    receiveStep s = ({ s with queue := queue, seen := (receiveTag value s.seen).1 },
      [.dequeued value]) := by
  simp only [receiveStep, h, (receiveTag_spec value s.seen).1, Option.map_none, Option.toList_none,
    List.nil_append]

theorem step_sendScanData {p : Platform} {s : State}
    (hpast : ∀ e ∈ s.seen.entries, e.2.timestamp ≤ s.clock) :
    step p s .sendScanData = some (s, [.frame s.clock (snapshotTags p s.clock s.seen)
      (some (Wire.frame (snapshotTags p s.clock s.seen)))]) := by
  simp only [step, sendScanData_eq_some hpast, Option.bind_eq_bind, Option.bind_some,
    Option.pure_def]

/-- While no stored report is in the future every step succeeds, with one of these effects. -/
theorem step_effect {p : Platform} {s : State} (hpast : ∀ e ∈ s.seen.entries, e.2.timestamp ≤ s.clock)
    (e : Event) : ∃ s' obs, step p s e = some (s', obs) ∧ Effect p s s' obs := by
  cases e with
  | tick d => exact ⟨_, _, rfl, .tick d⟩
  | onAdvReports it =>
    obtain ⟨added, happ, hsub⟩ := onAdvReports_append p.tagPrefix s.clock it s.queue
    exact ⟨_, _, rfl, .queued _ added happ (onAdvReports_passed hsub)⟩
  | receiveTags =>
    cases hq : s.queue.popFront with
    | none => exact ⟨s, [], by simp [step, receiveStep, hq], .idle⟩
    | some front =>
      refine ⟨_, _, by rw [step, receiveStep_some hq], .received front.1 front.2 _ ?_ ?_⟩
      · exact BVec.popFront_some hq
      · exact (receiveTag_spec front.1 s.seen).2
  | automaticCleanup =>
    exact ⟨_, _, by rw [step, removeOldEntries_eq_some hpast]; rfl, .cleaned⟩
  | sendScanData =>
    exact ⟨_, _, step_sendScanData hpast, .sent⟩

theorem effect_of_step {p : Platform} {s s' : State} {e : Event} {obs : List Obs}
    (hpast : ∀ e ∈ s.seen.entries, e.2.timestamp ≤ s.clock)
    (h : step p s e = some (s', obs)) : Effect p s s' obs := by
  obtain ⟨s₁, obs₁, hstep, heff⟩ := step_effect (p := p) hpast e
  rw [h] at hstep
  obtain ⟨rfl, rfl⟩ := Prod.mk.inj (Option.some.inj hstep)
  exact heff

end AssetTracker.Scanner

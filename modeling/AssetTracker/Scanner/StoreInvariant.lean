import AssetTracker.Scanner.Run

/-! The invariant of the tag store over whole runs: timestamps are ordered through the queue, the map
holds the last dequeued report of every address it knows, and an address is known by half of it. -/
namespace AssetTracker.Scanner
open Bounded

structure StoreInv (p : Platform) (trace : List Obs) (s : State) : Prop where
  queueSorted : s.queue.toList.Pairwise fun r r' => r.timestamp ≤ r'.timestamp
  queuePast : ∀ r ∈ s.queue.toList, r.timestamp ≤ s.clock
  queuePrefix : ∀ r ∈ s.queue.toList, p.tagPrefix.bytes <:+ r.addr.bytes
  dequeuedFirst : ∀ d ∈ dequeued trace, ∀ r ∈ s.queue.toList, d.timestamp ≤ r.timestamp
  dequeuedPast : ∀ d ∈ dequeued trace, d.timestamp ≤ s.clock
  dequeuedPrefix : ∀ d ∈ dequeued trace, p.tagPrefix.bytes <:+ d.addr.bytes
  seenKey : ∀ e ∈ s.seen.entries, e.1 = tagKey e.2.addr
  seenLast : ∀ e ∈ s.seen.entries, lastDequeued trace e.2.addr = some e.2

theorem lastDequeued_mem {trace : List Obs} {addr : BdAddr} {r : TagReport}
    (h : lastDequeued trace addr = some r) : r ∈ dequeued trace ∧ r.addr = addr := by
  have ha := List.find?_some h
  exact ⟨List.mem_of_find?_eq_some h, by simpa using ha⟩

theorem lastDequeued_self (value : TagReport) (trace : List Obs) :
    lastDequeued (.dequeued value :: trace) value.addr = some value := by
  simp [lastDequeued, dequeued]

theorem lastDequeued_other {value : TagReport} {addr : BdAddr} (h : value.addr ≠ addr)
    (trace : List Obs) : lastDequeued (.dequeued value :: trace) addr = lastDequeued trace addr := by
  simp [lastDequeued, dequeued, h]

theorem StoreInv.seen_mem {p : Platform} {trace : List Obs} {s : State} (hi : StoreInv p trace s)
    {e : List UInt8 × TagReport} (he : e ∈ s.seen.entries) : e.2 ∈ dequeued trace :=
  (lastDequeued_mem (hi.seenLast e he)).1

/-- No stored report is in the future, so no age underflows. -/
theorem StoreInv.seenPast {p : Platform} {trace : List Obs} {s : State} (hi : StoreInv p trace s) :
    ∀ e ∈ s.seen.entries, e.2.timestamp ≤ s.clock :=
  fun _ he => hi.dequeuedPast _ (hi.seen_mem he)

theorem StoreInv.addr_eq {p : Platform} {trace : List Obs} {s : State} (hi : StoreInv p trace s)
    {r r' : TagReport} (hr : r ∈ dequeued trace) (hr' : r' ∈ dequeued trace)
    (h : tagKey r.addr = tagKey r'.addr) : r.addr = r'.addr :=
  addr_eq_of_key (hi.dequeuedPrefix r hr) (hi.dequeuedPrefix r' hr') h

theorem storeInv_init (p : Platform) : StoreInv p [] (scanner p).init where
  queueSorted := List.Pairwise.nil
  queuePast := by simp [scanner]
  queuePrefix := by simp [scanner]
  dequeuedFirst := by simp [dequeued]
  dequeuedPast := by simp [dequeued]
  dequeuedPrefix := by simp [dequeued]
  seenKey := by simp [scanner]
  seenLast := by simp [scanner]

theorem StoreInv.queued {p : Platform} {trace : List Obs} {s : State} (hi : StoreInv p trace s)
    {queue : Queue} {added : List TagReport} (happ : queue.toList = s.queue.toList ++ added)
    (hall : ∀ r ∈ added, r.timestamp = s.clock ∧ p.tagPrefix.bytes <:+ r.addr.bytes) :
    StoreInv p trace { s with queue := queue } where
  queueSorted := by
    rw [happ, List.pairwise_append]
    refine ⟨hi.queueSorted, ?_, ?_⟩
    · exact List.pairwise_of_forall_mem_list fun r hr r' hr' => by
        rw [(hall r hr).1, (hall r' hr').1]
    · intro r hr r' hr'
      rw [(hall r' hr').1]
      exact hi.queuePast r hr
  queuePast := by
    intro r hr
    rw [happ, List.mem_append] at hr
    cases hr with
    | inl hr => exact hi.queuePast r hr
    | inr hr => exact (hall r hr).1.le
  queuePrefix := by
    intro r hr
    rw [happ, List.mem_append] at hr
    cases hr with
    | inl hr => exact hi.queuePrefix r hr
    | inr hr => exact (hall r hr).2
  dequeuedFirst := by
    intro d hd r hr
    rw [happ, List.mem_append] at hr
    cases hr with
    | inl hr => exact hi.dequeuedFirst d hd r hr
    | inr hr =>
      rw [(hall r hr).1]
      exact hi.dequeuedPast d hd
  dequeuedPast := hi.dequeuedPast
  dequeuedPrefix := hi.dequeuedPrefix
  seenKey := hi.seenKey
  seenLast := hi.seenLast

theorem StoreInv.received {p : Platform} {trace : List Obs} {s : State} (hi : StoreInv p trace s)
    {value : TagReport} {queue : Queue} {seen : TagStorageMap}
    (hq : s.queue.toList = value :: queue.toList)
    (hseen : ∀ e, e ∈ seen.entries ↔ e = (tagKey value.addr, value) ∨
      (e ∈ (makeRoom s.seen (tagKey value.addr)).entries ∧ e.1 ≠ tagKey value.addr)) :
    StoreInv p (.dequeued value :: trace) { s with queue := queue, seen := seen } := by
  have hmem : ∀ r ∈ queue.toList, r ∈ s.queue.toList := fun r hr => by simp [hq, hr]
  have hval : value ∈ s.queue.toList := by simp [hq]
  have hsorted := hi.queueSorted
  rw [hq, List.pairwise_cons] at hsorted
  refine
    { queueSorted := hsorted.2
      queuePast := fun r hr => hi.queuePast r (hmem r hr)
      queuePrefix := fun r hr => hi.queuePrefix r (hmem r hr)
      dequeuedFirst := ?_
      dequeuedPast := ?_
      dequeuedPrefix := ?_
      seenKey := ?_
      seenLast := ?_ }
  · intro d hd r hr
    cases hd with
    | head => exact hsorted.1 r hr
    | tail _ hd => exact hi.dequeuedFirst d hd r (hmem r hr)
  · intro d hd
    cases hd with
    | head => exact hi.queuePast value hval
    | tail _ hd => exact hi.dequeuedPast d hd
  · intro d hd
    cases hd with
    | head => exact hi.queuePrefix value hval
    | tail _ hd => exact hi.dequeuedPrefix d hd
  · intro e he
    cases (hseen e).mp he with
    | inl h => rw [h]
    | inr h => exact hi.seenKey e (makeRoom_subset h.1)
  · intro e he
    cases (hseen e).mp he with
    | inl h =>
      rw [h]
      exact lastDequeued_self value trace
    | inr h =>
      have hold := makeRoom_subset h.1
      have hne : value.addr ≠ e.2.addr := by
        intro ha
        apply h.2
        rw [hi.seenKey e hold, ha]
      rw [lastDequeued_other hne]
      exact hi.seenLast e hold

theorem StoreInv.effect {p : Platform} {trace obs : List Obs} {s s' : State}
    (hi : StoreInv p trace s) (h : Effect p s s' obs) : StoreInv p (obs ++ trace) s' := by
  cases h with
  | tick d =>
    exact { hi with
      queuePast := fun r hr => (hi.queuePast r hr).trans (Nat.le_add_right _ d)
      dequeuedPast := fun r hr => (hi.dequeuedPast r hr).trans (Nat.le_add_right _ d) }
  | queued queue added happ hall => exact hi.queued happ hall
  | received value queue seen hq hseen => exact hi.received hq hseen
  | idle => exact hi
  | cleaned =>
    exact { hi with
      seenKey := fun e he => hi.seenKey e ((IndexMap.mem_retain _ _ _).mp he).1
      seenLast := fun e he => hi.seenLast e ((IndexMap.mem_retain _ _ _).mp he).1 }
  | sent => exact { hi with }

theorem storeInv_run {p : Platform} {trace : List Obs} {s : State}
    (h : (scanner p).Run trace s) : StoreInv p trace s := by
  refine h.invariant (P := StoreInv p) (storeInv_init p) ?_
  intro trace s e s' obs _ hi hs
  exact hi.effect (effect_of_step hi.seenPast hs)

/-- No step of a reachable scanner panics. -/
theorem scanner_never_panics {p : Platform} {trace : List Obs} {s : State}
    (h : (scanner p).Run trace s) (e : Event) : ∃ s' obs, step p s e = some (s', obs) := by
  obtain ⟨s', obs, hs, -⟩ := step_effect (p := p) (storeInv_run h).seenPast e
  exact ⟨s', obs, hs⟩

theorem Effect.insertFailed_not_mem {p : Platform} {s s' : State} {obs : List Obs}
    (h : Effect p s s' obs) (key : List UInt8) (value : TagReport) :
    Obs.insertFailed key value ∉ obs := by
  cases h <;> simp

theorem insertFailed_not_mem {p : Platform} {trace : List Obs} {s : State}
    (h : (scanner p).Run trace s) (key : List UInt8) (value : TagReport) :
    Obs.insertFailed key value ∉ trace := by
  refine h.invariant (P := fun trace _ => Obs.insertFailed key value ∉ trace) (by simp) ?_
  intro trace s e s' obs hr hi hs
  have he := (effect_of_step (storeInv_run hr).seenPast hs).insertFailed_not_mem key value
  simp [hi, he]

/-- Dequeuing puts the report in the map, under a key that no entry of another address has. -/
theorem StoreInv.receive {p : Platform} {trace : List Obs} {s : State} (hi : StoreInv p trace s)
    {value : TagReport} {queue : Queue} (h : s.queue.popFront = some (value, queue)) :
    ∃ seen, (makeRoom s.seen (tagKey value.addr)).insert (tagKey value.addr) value = .ok seen ∧
      step p s .receiveTags = some ({ s with queue := queue, seen := seen }, [.dequeued value]) ∧
      seen.get (tagKey value.addr) = some value ∧
      ∀ e ∈ s.seen.entries, e.2.addr ≠ value.addr → e.1 ≠ tagKey value.addr := by
  obtain ⟨seen, hins, hmem⟩ := IndexMap.insert_ok _ (tagKey value.addr) value
    (makeRoom_room s.seen (tagKey value.addr))
  refine ⟨seen, hins, ?_, ?_, ?_⟩
  · rw [step, receiveStep_some h, receiveTag]
    simp only [hins]
  · exact (IndexMap.get_eq_some _ _ _).mpr ((hmem _).mpr (Or.inl rfl))
  · intro e he hne hk
    have hval : value ∈ s.queue.toList := by simp [BVec.popFront_some h]
    apply hne
    exact addr_eq_of_key (hi.dequeuedPrefix _ (hi.seen_mem he)) (hi.queuePrefix _ hval)
      ((hi.seenKey e he).symm.trans hk)

/-- The store in every reachable state: bounded, keyed without collisions on half of the address,
holding the last dequeued report of each address it knows; and the insertion never fails. -/
theorem store_correct (p : Platform) {trace : List Obs} {s : State}
    (h : (scanner p).Run trace s) :
    s.seen.entries.length ≤ maxSeen ∧
    (∀ e ∈ s.seen.entries, e.1 = e.2.addr.bytes.take 3 ∧
      e.2.addr.bytes.drop 3 = p.tagPrefix.bytes) ∧
    (∀ r ∈ dequeued trace, ∀ r' ∈ dequeued trace, r.addr ≠ r'.addr →
      tagKey r.addr ≠ tagKey r'.addr) ∧
    (∀ e ∈ s.seen.entries, lastDequeued trace e.2.addr = some e.2) ∧
    (∀ key value, Obs.insertFailed key value ∉ trace) ∧
    (∀ value queue, s.queue.popFront = some (value, queue) →
      ∃ seen, (makeRoom s.seen (tagKey value.addr)).insert (tagKey value.addr) value = .ok seen ∧
        step p s .receiveTags = some ({ s with queue := queue, seen := seen }, [.dequeued value]) ∧
        seen.get (tagKey value.addr) = some value ∧
        ∀ e ∈ s.seen.entries, e.2.addr ≠ value.addr → e.1 ≠ tagKey value.addr) := by
  have hi := storeInv_run h
  refine ⟨s.seen.fits, ?_, ?_, hi.seenLast, insertFailed_not_mem h, ?_⟩
  · intro e he
    exact ⟨hi.seenKey e he, suffix_drop (hi.dequeuedPrefix _ (hi.seen_mem he))⟩
  · intro r hr r' hr' hne hk
    exact hne (hi.addr_eq hr hr' hk)
  · intro value queue hq
    exact hi.receive hq

/- One tag heard as CC:DD:EE:33:22:11, named "T", with sequence 7 on channel 37. -/
def demoPlatform : Platform := ⟨32768, ⟨[0xEE, 0xDD, 0xCC], rfl⟩, false⟩

def demoAddr : BdAddr := ⟨[0x11, 0x22, 0x33, 0xEE, 0xDD, 0xCC], rfl⟩

def demoReport : LeAdvReport :=
  ⟨demoAddr, -60, [2, 1, 6, 2, 9, 0x54, 8, 0xFF, 0xFF, 0xFF, 0, 0, 0, 7, 37]⟩

def demoTag : TagReport := ⟨demoAddr, ⟨"T", by decide⟩, 0, -60, 7, 37⟩

def demoState : State := ⟨0, .empty, ⟨[([0x11, 0x22, 0x33], demoTag)], by simp, by simp⟩⟩

theorem demoRun : (scanner demoPlatform).Run [.dequeued demoTag] demoState :=
  Lib.Machine.run_of_exec [.onAdvReports [some demoReport], .receiveTags] rfl

/- One device more than the map holds, a second after the others. -/
def herdReport (i : Nat) : LeAdvReport :=
  { demoReport with addr := ⟨[UInt8.ofNat i, 0x22, 0x33, 0xEE, 0xDD, 0xCC], rfl⟩ }

def herdEvents : List Event :=
  .onAdvReports ((List.range 32).map fun i => some (herdReport i)) ::
    List.replicate 32 .receiveTags ++
      [.tick 32768, .onAdvReports [some (herdReport 32)], .receiveTags]

theorem store_correct_demo : ∃ trace s, (scanner demoPlatform).Run trace s ∧
    (dequeued trace).length = 33 ∧ s.seen.entries.length = maxSeen ∧
    s.seen.containsKey [0, 0x22, 0x33] = false ∧
    ∀ e ∈ s.seen.entries, lastDequeued trace e.2.addr = some e.2 := by
  have hherd : ((scanner demoPlatform).exec (scanner demoPlatform).init herdEvents).any
      (fun r => decide ((dequeued r.2).length = 33 ∧ r.1.seen.entries.length = maxSeen ∧
        r.1.seen.containsKey [0, 0x22, 0x33] = false)) = true := by decide +kernel
  obtain ⟨⟨s, trace⟩, hexec, hr⟩ := (Option.any_eq_true _ _).mp hherd
  obtain ⟨hlen, hfull, hevicted⟩ := of_decide_eq_true hr
  have hrun := Lib.Machine.run_of_exec herdEvents hexec
  exact ⟨trace, s, hrun, hlen, hfull, hevicted, (store_correct demoPlatform hrun).2.2.2.1⟩

end AssetTracker.Scanner

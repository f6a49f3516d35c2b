import AssetTracker.Scanner.Interleaving
import AssetTracker.Scanner.StoreInvariant

/-! The order of timestamps while the tasks of the scanner interleave. From the map to the report taken
out of the queue, through the queue, to the instant of the callback and to the clock they only grow;
the clock is read where nothing can overtake it. -/
namespace AssetTracker.Scanner.Interleaving
open Bounded

/-- The report between the queue and the map. -/
def Receiver.held : Receiver → List TagReport
  | .waiting => []
  | .received value => [value]
  | .locked value => [value]
  | .inserting value => [value]

def Callback.instants : Callback → List Nat
  | .idle => []
  | .reporting instant _ => [instant]

/-- The timestamps that are not in the map yet, in the order they get there. -/
def underway (s : State) : List Nat :=
  (s.receiver.held ++ s.queue.toList).map TagReport.timestamp ++ s.callback.instants

structure Ordered (s : State) : Prop where
  sorted : (underway s).Pairwise fun t t' => t ≤ t'
  past : ∀ t ∈ underway s, t ≤ s.clock
  seenFirst : ∀ e ∈ s.seen.entries, ∀ t ∈ underway s, e.2.timestamp ≤ t
  seenPast : ∀ e ∈ s.seen.entries, e.2.timestamp ≤ s.clock

def Receiver.holdsLock : Receiver → Bool
  | .locked _ => true
  | .inserting _ => true
  | _ => false

def Cleanup.holdsLock : Cleanup → Bool
  | .sleeping => false
  | _ => true

def Sender.holdsLock : Sender → Bool
  | .locked => true
  | _ => false

/-- The mutex is locked by one task, or free. -/
def Exclusive (s : State) : Prop :=
  s.receiver.holdsLock.toNat + s.cleanup.holdsLock.toNat + s.sender.holdsLock.toNat =
    s.locked.toNat

/-- What the cleanup compares with is in the past of the instant it has read. -/
def CleanupPast (s : State) : Prop :=
  ∀ now, s.cleanup = .retaining now → ∀ e ∈ s.seen.entries, e.2.timestamp ≤ now

structure SnapshotPast (s : State) : Prop where
  cloned : ∀ seen, s.sender = .cloned seen → ∀ e ∈ seen.entries, e.2.timestamp ≤ s.clock
  converting : ∀ now seen, s.sender = .converting now seen →
    ∀ e ∈ seen.entries, e.2.timestamp ≤ now

variable {p : Platform} {s s' : State} {obs trace : List Obs}

theorem effect_exclusive (hs : Exclusive s) (heff : Effect p s s' obs) : Exclusive s' := by
  unfold Exclusive at hs ⊢
  have hle := s.locked.toNat_le
  cases heff with
  | idle => exact hs
  | tick d => exact hs
  | begun it hc => exact hs
  | queued instant it it' r hc hr => exact hs
  | passed instant it it' hc => exact hs
  | returned => exact hs
  | dequeued value queue hr hq => simpa only [hr, Receiver.holdsLock] using hs
  | receiverLocked value hr hl =>
    simp only [hr, hl, Receiver.holdsLock, Bool.toNat_false, Bool.toNat_true] at hs ⊢
    omega
  | roomMade value hr => simpa only [hr, Receiver.holdsLock] using hs
  | inserted value seen hr hseen =>
    simp only [hr, Receiver.holdsLock, Bool.toNat_false, Bool.toNat_true] at hs ⊢
    omega
  | insertFailed value value' key hr =>
    simp only [hr, Receiver.holdsLock, Bool.toNat_false, Bool.toNat_true] at hs ⊢
    omega
  | cleanupLocked hc hl =>
    simp only [hc, hl, Cleanup.holdsLock, Bool.toNat_false, Bool.toNat_true] at hs ⊢
    omega
  | cleanupRead hc => simpa only [hc, Cleanup.holdsLock] using hs
  | retained now seen hc hseen =>
    simp only [hc, Cleanup.holdsLock, Bool.toNat_false, Bool.toNat_true] at hs ⊢
    omega
  | senderLocked hs' hl =>
    simp only [hs', hl, Sender.holdsLock, Bool.toNat_false, Bool.toNat_true] at hs ⊢
    omega
  | cloned hs' =>
    simp only [hs', Sender.holdsLock, Bool.toNat_false, Bool.toNat_true] at hs ⊢
    omega
  | senderRead seen hs' => simpa only [hs', Sender.holdsLock] using hs
  | converted now seen tags data hs' => simpa only [hs', Sender.holdsLock] using hs

theorem Exclusive.no_cleanup (hs : Exclusive s) {value : TagReport}
    (hr : s.receiver = .inserting value) (now : Nat) : s.cleanup ≠ .retaining now := by
  intro hc
  have hle := s.locked.toNat_le
  unfold Exclusive at hs
  simp only [hr, hc, Receiver.holdsLock, Cleanup.holdsLock, Bool.toNat_true] at hs
  omega

theorem Ordered.mono (h : Ordered s) (hline : (underway s').Sublist (underway s))
    (hseen : ∀ e ∈ s'.seen.entries, e ∈ s.seen.entries) (hclock : s.clock ≤ s'.clock) :
    Ordered s' where
  sorted := h.sorted.sublist hline
  past t ht := (h.past t (hline.subset ht)).trans hclock
  seenFirst e he t ht := h.seenFirst e (hseen e he) t (hline.subset ht)
  seenPast e he := (h.seenPast e (hseen e he)).trans hclock

theorem Ordered.push (h : Ordered s) {t : Nat} (hline : underway s' = underway s ++ [t])
    (hlast : ∀ t' ∈ underway s, t' ≤ t) (hseen : ∀ e ∈ s.seen.entries, e.2.timestamp ≤ t)
    (hpast : t ≤ s.clock) (hsame : s'.seen = s.seen) (hclock : s'.clock = s.clock) :
    Ordered s' := by
  refine ⟨?_, ?_, ?_, ?_⟩
  · rw [hline, List.pairwise_append]
    exact ⟨h.sorted, List.pairwise_singleton _ t, by simpa using hlast⟩
  · intro t' ht'
    rw [hline] at ht'
    rw [hclock]
    cases List.mem_append.mp ht' with
    | inl hold => exact h.past t' hold
    | inr hnew => rwa [List.mem_singleton.mp hnew]
  · intro e he t' ht'
    rw [hsame] at he
    rw [hline] at ht'
    cases List.mem_append.mp ht' with
    | inl hold => exact h.seenFirst e he t' hold
    | inr hnew =>
      rw [List.mem_singleton.mp hnew]
      exact hseen e he
  · intro e he
    rw [hsame] at he
    rw [hclock]
    exact h.seenPast e he

theorem Ordered.begun (h : Ordered s) (hc : s.callback = .idle) (it : List (Option LeAdvReport)) :
    Ordered { s with callback := .reporting s.clock it } := by
  refine h.push ?_ h.past h.seenPast (le_refl s.clock) rfl rfl
  simp [underway, hc, Callback.instants]

theorem instant_mem {instant : Nat} {it : List (Option LeAdvReport)}
    (hc : s.callback = .reporting instant it) : instant ∈ underway s := by
  simp [underway, hc, Callback.instants]

theorem Ordered.instant_last (h : Ordered s) {instant : Nat} {it : List (Option LeAdvReport)}
    (hc : s.callback = .reporting instant it) : ∀ t ∈ underway s, t ≤ instant := by
  intro t ht
  have hsorted := h.sorted
  simp only [underway, hc, Callback.instants] at hsorted ht
  cases List.mem_append.mp ht with
  | inl hold => exact (List.pairwise_append.mp hsorted).2.2 t hold instant List.mem_cons_self
  | inr hnew => exact (List.mem_singleton.mp hnew).le

theorem Ordered.queued (h : Ordered s) {instant : Nat} {it : List (Option LeAdvReport)}
    (hc : s.callback = .reporting instant it) {r : TagReport} (hr : r.timestamp = instant)
    (it' : List (Option LeAdvReport)) :
    Ordered { s with queue := trySend s.queue r, callback := .reporting instant it' } := by
  have hmem := instant_mem hc
  cases trySend_cases s.queue r with
  | inl hq =>
    refine h.push ?_ (h.instant_last hc) (fun e he => h.seenFirst e he instant hmem)
      (h.past instant hmem) rfl rfl
    simp [underway, hc, Callback.instants, hq, hr]
  | inr hq =>
    refine h.mono ?_ (fun e he => he) (le_refl s.clock)
    simp [underway, hc, Callback.instants, hq]

theorem Ordered.inserted (h : Ordered s) {value : TagReport} {seen : TagStorageMap}
    (hr : s.receiver = .inserting value)
    (hseen : ∀ e, e ∈ seen.entries ↔ e = (tagKey value.addr, value) ∨
      (e ∈ s.seen.entries ∧ e.1 ≠ tagKey value.addr)) :
    Ordered { s with seen := seen, locked := false, receiver := .waiting } := by
  have hline : underway s = value.timestamp ::
      underway { s with seen := seen, locked := false, receiver := .waiting } := by
    simp [underway, hr, Receiver.held]
  have hsorted := h.sorted
  rw [hline, List.pairwise_cons] at hsorted
  have hsub : ∀ t ∈ underway { s with seen := seen, locked := false, receiver := .waiting },
      t ∈ underway s := fun t ht => hline ▸ List.mem_cons_of_mem _ ht
  refine ⟨hsorted.2, fun t ht => h.past t (hsub t ht), ?_, ?_⟩
  · intro e he t ht
    cases (hseen e).mp he with
    | inl hnew =>
      rw [hnew]
      exact hsorted.1 t ht
    | inr hold => exact h.seenFirst e hold.1 t (hsub t ht)
  · intro e he
    cases (hseen e).mp he with
    | inl hnew =>
      rw [hnew]
      exact h.past _ (hline ▸ List.mem_cons_self)
    | inr hold => exact h.seenPast e hold.1

theorem retained_subset {now : Nat} {seen : TagStorageMap} (hpast : CleanupPast s)
    (hc : s.cleanup = .retaining now) (h : removeOldEntries p.tickHz now s.seen = some seen) :
    ∀ e ∈ seen.entries, e ∈ s.seen.entries := by
  intro e he
  rw [removeOldEntries_eq_some (hpast now hc)] at h
  cases h
  exact ((IndexMap.mem_retain _ _ _).mp he).1

theorem effect_ordered (hs : Ordered s) (hpast : CleanupPast s) (heff : Effect p s s' obs) :
    Ordered s' := by
  have hsame : ∀ e ∈ s.seen.entries, e ∈ s.seen.entries := fun e he => he
  cases heff with
  | idle => exact hs
  | tick d => exact hs.mono (.refl _) hsame (Nat.le_add_right _ d)
  | begun it hc => exact hs.begun hc it
  | queued instant it it' r hc hr => exact hs.queued hc hr it'
  | passed instant it it' hc =>
    refine hs.mono ?_ hsame (le_refl s.clock)
    simp [underway, hc, Callback.instants]
  | returned =>
    refine hs.mono ?_ hsame (le_refl s.clock)
    simp [underway, Callback.instants]
  | dequeued value queue hr hq =>
    refine hs.mono ?_ hsame (le_refl s.clock)
    simp [underway, hr, hq, Receiver.held]
  | receiverLocked value hr hl =>
    refine hs.mono ?_ hsame (le_refl s.clock)
    simp [underway, hr, Receiver.held]
  | roomMade value hr =>
    refine hs.mono ?_ (fun e he => makeRoom_subset he) (le_refl s.clock)
    simp [underway, hr, Receiver.held]
  | inserted value seen hr hseen => exact hs.inserted hr hseen
  | insertFailed value value' key hr =>
    refine hs.mono ?_ hsame (le_refl s.clock)
    simp [underway, hr, Receiver.held]
  | retained now seen hc hseen =>
    exact hs.mono (.refl _) (retained_subset hpast hc hseen) (le_refl s.clock)
  | _ => exact hs.mono (.refl _) hsame (le_refl s.clock)

theorem effect_cleanupPast (hexcl : Exclusive s) (hord : Ordered s) (hs : CleanupPast s)
    (heff : Effect p s s' obs) : CleanupPast s' := by
  cases heff with
  | roomMade value hr => exact fun now hc e he => hs now hc e (makeRoom_subset he)
  | inserted value seen hr hseen => exact fun now hc => absurd hc (hexcl.no_cleanup hr now)
  | cleanupLocked hc hl =>
    intro now hc'
    cases hc'
  | cleanupRead hc =>
    intro now hc'
    cases hc'
    exact hord.seenPast
  | retained now seen hc hseen =>
    intro now' hc'
    cases hc'
  | _ => exact hs

theorem effect_snapshotPast (hord : Ordered s) (hs : SnapshotPast s) (heff : Effect p s s' obs) :
    SnapshotPast s' := by
  cases heff with
  | tick d =>
    refine ⟨?_, hs.converting⟩
    intro seen hseen e he
    exact (hs.cloned seen hseen e he).trans (Nat.le_add_right _ d)
  | senderLocked hs' hl => exact ⟨by simp, by simp⟩
  | cloned hs' =>
    refine ⟨?_, by simp⟩
    intro seen hseen
    cases hseen
    exact hord.seenPast
  | senderRead seen hs' =>
    refine ⟨by simp, ?_⟩
    intro now seen' hseen
    cases hseen
    exact hs.cloned seen hs'
  | converted now seen tags data hs' => exact ⟨by simp, by simp⟩
  | _ => exact ⟨hs.cloned, hs.converting⟩

/-- What holds of the clock, the queue, the map and the snapshot, whichever step comes next. -/
structure TimeInv (s : State) : Prop where
  exclusive : Exclusive s
  ordered : Ordered s
  cleanup : CleanupPast s
  snapshot : SnapshotPast s

theorem effect_timeInv (hs : TimeInv s) (heff : Effect p s s' obs) : TimeInv s' where
  exclusive := effect_exclusive hs.exclusive heff
  ordered := effect_ordered hs.ordered hs.cleanup heff
  cleanup := effect_cleanupPast hs.exclusive hs.ordered hs.cleanup heff
  snapshot := effect_snapshotPast hs.ordered hs.snapshot heff

theorem timeInv_init (p : Platform) : TimeInv (interleaving p).init where
  exclusive := rfl
  ordered := ⟨.nil, by simp [interleaving, atRest, underway, scanner, Receiver.held,
    Callback.instants], by simp [interleaving, atRest, scanner], by simp [interleaving, atRest,
    scanner]⟩
  cleanup := by
    intro now hc
    cases hc
  snapshot := ⟨by simp [interleaving, atRest], by simp [interleaving, atRest]⟩

theorem run_timeInv (h : (interleaving p).Run trace s) : TimeInv s :=
  h.invariant (P := fun _ s => TimeInv s) (timeInv_init p)
    fun _ hs hstep => effect_timeInv hs (effect_of_step hstep)

/-- A step that changes the report under a key puts a later one there. -/
theorem effect_replaces (hs : TimeInv s) (heff : Effect p s s' obs) {key : List UInt8}
    {old new : TagReport} (hold : s.seen.get key = some old) (hnew : s'.seen.get key = some new) :
    old.timestamp ≤ new.timestamp := by
  rw [IndexMap.get_eq_some] at hold hnew
  have hkept : (key, new) ∈ s.seen.entries → old.timestamp ≤ new.timestamp := by
    intro hmem
    rw [s.seen.value_unique hold hmem]
  cases heff with
  | roomMade value hr => exact hkept (makeRoom_subset hnew)
  | inserted value seen hr hseen =>
    cases (hseen _).mp hnew with
    | inl heq =>
      cases heq
      have hmem : new.timestamp ∈ underway s := by simp [underway, hr, Receiver.held]
      exact hs.ordered.seenFirst _ hold _ hmem
    | inr hmem => exact hkept hmem.1
  | retained now seen hc hseen => exact hkept (retained_subset hs.cleanup hc hseen _ hnew)
  | _ => exact hkept hnew

theorem cleanupStep_succeeds (hs : TimeInv s) : ∃ s' obs, cleanupStep p s = some (s', obs) := by
  cases hc : s.cleanup with
  | sleeping => cases hl : s.locked <;> simp [cleanupStep, hc, hl]
  | locked => simp [cleanupStep, hc]
  | retaining now => simp [cleanupStep, hc, removeOldEntries_eq_some (hs.cleanup now hc)]

theorem senderStep_succeeds (hs : TimeInv s) : ∃ s' obs, senderStep p s = some (s', obs) := by
  cases hs' : s.sender with
  | idle => cases hl : s.locked <;> simp [senderStep, hs', hl]
  | locked => simp [senderStep, hs']
  | cloned seen => simp [senderStep, hs']
  | converting now seen =>
    simp [senderStep, hs', sendScanData_eq_some (hs.snapshot.converting now seen hs')]

theorem step_succeeds (hs : TimeInv s) (e : Event) : ∃ s' obs, step p s e = some (s', obs) := by
  cases e with
  | tick d => exact ⟨_, _, rfl⟩
  | onAdvReports it => cases hc : s.callback <;> simp [step, hc]
  | report => exact ⟨_, _, rfl⟩
  | receiveTags => exact ⟨_, _, rfl⟩
  | automaticCleanup => exact cleanupStep_succeeds hs
  | sendScanData => exact senderStep_succeeds hs

theorem TimeInv.queue_sorted (hs : TimeInv s) :
    s.queue.toList.Pairwise fun r r' => r.timestamp ≤ r'.timestamp := by
  have hsorted := hs.ordered.sorted
  rw [underway, List.map_append, List.append_assoc] at hsorted
  exact List.pairwise_map.mp (List.pairwise_append.mp (List.pairwise_append.mp hsorted).2.1).1

theorem queue_underway {r : TagReport} (h : r ∈ s.queue.toList) : r.timestamp ∈ underway s := by
  simp only [underway, List.map_append, List.mem_append]
  exact .inl (.inr (List.mem_map_of_mem h))

/-- The order of timestamps in every reachable state: along the queue, from the map to the queue, and up
to the clock. So no step puts an older report in the place of another, no age or difference underflows
where it is computed, and no step panics. -/
theorem timestamps_ordered (h : (interleaving p).Run trace s) :
    (s.queue.toList.Pairwise fun r r' => r.timestamp ≤ r'.timestamp) ∧
    (∀ e ∈ s.seen.entries, ∀ r ∈ s.queue.toList, e.2.timestamp ≤ r.timestamp) ∧
    (∀ e ∈ s.seen.entries, e.2.timestamp ≤ s.clock) ∧
    (∀ r ∈ s.queue.toList, r.timestamp ≤ s.clock) ∧
    (∀ e s' obs, (interleaving p).step s e = some (s', obs) → ∀ key old new,
      s.seen.get key = some old → s'.seen.get key = some new → old.timestamp ≤ new.timestamp) ∧
    (∀ now, s.cleanup = .retaining now → ∀ e ∈ s.seen.entries,
      ∃ d, durationSince now e.2.timestamp = some d) ∧
    (∀ now seen, s.sender = .converting now seen → ∀ e ∈ seen.entries,
      ∃ d, durationSince now e.2.timestamp = some d) ∧
    ∀ e, ∃ s' obs, (interleaving p).step s e = some (s', obs) := by
  have hs := run_timeInv h
  refine ⟨hs.queue_sorted, ?_, hs.ordered.seenPast, ?_, ?_, ?_, ?_, step_succeeds hs⟩
  · intro e he r hr
    exact hs.ordered.seenFirst e he _ (queue_underway hr)
  · intro r hr
    exact hs.ordered.past _ (queue_underway hr)
  · intro e s' obs hstep key old new hold hnew
    exact effect_replaces hs (effect_of_step hstep) hold hnew
  · intro now hc e he
    exact ⟨_, durationSince_eq_some (hs.cleanup now hc e he)⟩
  · intro now seen hs' e he
    exact ⟨_, durationSince_eq_some (hs.snapshot.converting now seen hs' e he)⟩

/- The cleanup looks at the clock between the clone and the sender's own look. -/
theorem timestamps_ordered_cleanup_between_clone : ∃ s,
    (interleaving demoPlatform).Run [.dequeued demoTag] s ∧ s.cleanup = .retaining 1 ∧
      s.sender = .converting 2 s.seen ∧
        ∀ e ∈ s.seen.entries, ∃ d, durationSince 1 e.2.timestamp = some d := by
  have hrun : ∃ s, (interleaving demoPlatform).Run [.dequeued demoTag] s ∧
      s.cleanup = .retaining 1 ∧ s.sender = .converting 2 s.seen :=
    ⟨_, Lib.Machine.run_of_exec [.onAdvReports [some demoReport], .report, .receiveTags,
      .receiveTags, .receiveTags, .receiveTags, .sendScanData, .sendScanData, .tick 1,
      .automaticCleanup, .automaticCleanup, .tick 1, .sendScanData] rfl, rfl, rfl⟩
  obtain ⟨s, hrun, hcleanup, hsender⟩ := hrun
  obtain ⟨_, _, _, _, _, hretaining, _⟩ := timestamps_ordered hrun
  exact ⟨s, hrun, hcleanup, hsender, hretaining 1 hcleanup⟩

end AssetTracker.Scanner.Interleaving

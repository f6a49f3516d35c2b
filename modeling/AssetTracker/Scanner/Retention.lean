import AssetTracker.Scanner.StoreInvariant
import Mathlib.Data.Finset.Card

/-! What the store may forget: a last report is missing only after a cleanup that found it old, or when
as many other devices as there are slots were heard no earlier. -/
namespace AssetTracker.Scanner
open Bounded

/-- A cleanup ran at least ten scan intervals after the report. -/
def Expired (p : Platform) (trace : List Obs) (r : TagReport) : Prop :=
  ∃ t, Obs.cleanup t ∈ trace ∧ r.timestamp + scanInterval p.tickHz * 10 ≤ t

/-- Enough other devices were last heard no earlier than the report. -/
def Crowded (trace : List Obs) (addr : BdAddr) (r : TagReport) : Prop :=
  ∃ others : Finset BdAddr, maxSeen ≤ others.card ∧ addr ∉ others ∧
    ∀ b ∈ others, ∃ r', lastDequeued trace b = some r' ∧ r.timestamp ≤ r'.timestamp

def Stored (s : State) (r : TagReport) : Prop := ∃ e ∈ s.seen.entries, e.2 = r

structure RetentionInv (p : Platform) (trace : List Obs) (s : State) : Prop where
  cleanupPast : ∀ t, Obs.cleanup t ∈ trace → t ≤ s.clock
  accounted : ∀ addr r, lastDequeued trace addr = some r →
    Stored s r ∨ Expired p trace r ∨ Crowded trace addr r

theorem Expired.mono {p : Platform} {trace : List Obs} {r : TagReport} (h : Expired p trace r)
    (obs : List Obs) : Expired p (obs ++ trace) r := by
  obtain ⟨t, ht, hle⟩ := h
  exact ⟨t, List.mem_append_right obs ht, hle⟩

theorem Crowded.received {p : Platform} {trace : List Obs} {s : State} (hi : StoreInv p trace s)
    {addr : BdAddr} {r value : TagReport} (hr : r ∈ dequeued trace) (hv : value ∈ s.queue.toList)
    (h : Crowded trace addr r) : Crowded (.dequeued value :: trace) addr r := by
  obtain ⟨others, hcard, hnot, hall⟩ := h
  refine ⟨others, hcard, hnot, ?_⟩
  intro b hb
  by_cases hvb : value.addr = b
  · subst hvb
    exact ⟨value, lastDequeued_self value trace, hi.dequeuedFirst r hr value hv⟩
  · rw [lastDequeued_other hvb]
    exact hall b hb

theorem addr_nodup {p : Platform} {trace : List Obs} {s : State} (hi : StoreInv p trace s) :
    (s.seen.entries.map fun e => e.2.addr).Nodup := by
  have hk : s.seen.entries.map Prod.fst =
      (s.seen.entries.map fun e => e.2.addr).map tagKey := by
    rw [List.map_map]
    exact List.map_congr_left fun e he => hi.seenKey e he
  have hn := s.seen.nodup
  rw [hk] at hn
  exact List.Nodup.of_map tagKey hn

/-- When the oldest entry makes room, the other entries and the newcomer are its crowd. -/
theorem crowded_of_evicted {p : Platform} {trace : List Obs} {s : State} (hi : StoreInv p trace s)
    {value : TagReport} (hv : value ∈ s.queue.toList) {oldest : List UInt8 × TagReport}
    (hmem : oldest ∈ s.seen.entries) (hfull : s.seen.entries.length = maxSeen)
    (hnew : ¬ s.seen.containsKey (tagKey value.addr) = true)
    (hleast : ∀ e ∈ s.seen.entries, oldest.2.timestamp ≤ e.2.timestamp) :
    Crowded (.dequeued value :: trace) oldest.2.addr oldest.2 := by
  have hfresh : ∀ e ∈ s.seen.entries, e.2.addr ≠ value.addr := by
    intro e he ha
    apply hnew
    rw [IndexMap.containsKey_iff]
    refine ⟨e.2, ?_⟩
    rw [← ha, ← hi.seenKey e he]
    exact he
  let addrs := (s.seen.entries.map fun e => e.2.addr).toFinset
  have hcard : addrs.card = maxSeen := by
    rw [List.toFinset_card_of_nodup (addr_nodup hi), List.length_map, hfull]
  have hold : oldest.2.addr ∈ addrs :=
    List.mem_toFinset.mpr (List.mem_map_of_mem (f := fun e => e.2.addr) hmem)
  have hval : value.addr ∉ addrs.erase oldest.2.addr := by
    intro h
    obtain ⟨e, he, ha⟩ := List.mem_map.mp (List.mem_toFinset.mp (Finset.mem_of_mem_erase h))
    exact hfresh e he ha
  refine ⟨insert value.addr (addrs.erase oldest.2.addr), ?_, ?_, ?_⟩
  · rw [Finset.card_insert_of_notMem hval, Finset.card_erase_of_mem hold, hcard]
    decide
  · rw [Finset.mem_insert, not_or]
    exact ⟨hfresh oldest hmem, Finset.notMem_erase _ _⟩
  · intro b hb
    cases Finset.mem_insert.mp hb with
    | inl h =>
      subst h
      exact ⟨value, lastDequeued_self value trace,
        hi.dequeuedFirst _ (hi.seen_mem hmem) value hv⟩
    | inr h =>
      obtain ⟨e, he, ha⟩ := List.mem_map.mp (List.mem_toFinset.mp (Finset.mem_of_mem_erase h))
      subst ha
      rw [lastDequeued_other (Ne.symm (hfresh e he))]
      exact ⟨e.2, hi.seenLast e he, hleast e he⟩

theorem stored_received {p : Platform} {trace : List Obs} {s : State} (hi : StoreInv p trace s)
    {value : TagReport} {queue : Queue} {seen : TagStorageMap}
    (hq : s.queue.toList = value :: queue.toList)
    (hseen : ∀ e, e ∈ seen.entries ↔ e = (tagKey value.addr, value) ∨
      (e ∈ (makeRoom s.seen (tagKey value.addr)).entries ∧ e.1 ≠ tagKey value.addr))
    {e : List UInt8 × TagReport} (he : e ∈ s.seen.entries) (hne : value.addr ≠ e.2.addr) :
    e ∈ seen.entries ∨ Crowded (.dequeued value :: trace) e.2.addr e.2 := by
  have hv : value ∈ s.queue.toList := by simp [hq]
  have hk : e.1 ≠ tagKey value.addr := by
    intro hk
    apply hne
    exact addr_eq_of_key (hi.queuePrefix _ hv) (hi.dequeuedPrefix _ (hi.seen_mem he))
      (hk.symm.trans (hi.seenKey e he))
  cases makeRoom_cases s.seen (tagKey value.addr) with
  | inl hsame =>
    left
    rw [hseen, hsame.1]
    exact Or.inr ⟨he, hk⟩
  | inr hevict =>
    obtain ⟨oldest, hmem, hfull, hnew, hleast, hroom, -⟩ := hevict
    by_cases heo : e.1 = oldest.1
    · right
      have he' : (oldest.1, e.2) ∈ s.seen.entries := by
        rw [← heo]
        exact he
      rw [s.seen.value_unique he' hmem]
      exact crowded_of_evicted hi hv hmem hfull hnew hleast
    · left
      rw [hseen, hroom, IndexMap.mem_remove]
      exact Or.inr ⟨⟨he, heo⟩, hk⟩

theorem RetentionInv.received {p : Platform} {trace : List Obs} {s : State}
    (hs : StoreInv p trace s) (hi : RetentionInv p trace s)
    {value : TagReport} {queue : Queue} {seen : TagStorageMap}
    (hq : s.queue.toList = value :: queue.toList)
    (hseen : ∀ e, e ∈ seen.entries ↔ e = (tagKey value.addr, value) ∨
      (e ∈ (makeRoom s.seen (tagKey value.addr)).entries ∧ e.1 ≠ tagKey value.addr)) :
    RetentionInv p (.dequeued value :: trace) { s with queue := queue, seen := seen } where
  cleanupPast := fun t ht => hi.cleanupPast t (by simpa using ht)
  accounted := by
    intro addr r hlast
    have hv : value ∈ s.queue.toList := by simp [hq]
    by_cases ha : value.addr = addr
    · subst ha
      rw [lastDequeued_self] at hlast
      left
      exact ⟨(tagKey value.addr, value), (hseen _).mpr (Or.inl rfl), Option.some.inj hlast⟩
    · rw [lastDequeued_other ha] at hlast
      obtain ⟨hr, haddr⟩ := lastDequeued_mem hlast
      cases hi.accounted addr r hlast with
      | inl hst =>
        obtain ⟨e, he, hev⟩ := hst
        subst hev
        rw [← haddr] at ha ⊢
        cases stored_received hs hq hseen he ha with
        | inl hkept => exact Or.inl ⟨e, hkept, rfl⟩
        | inr hcr => exact Or.inr (Or.inr hcr)
      | inr hcause =>
        cases hcause with
        | inl hex => exact Or.inr (Or.inl (hex.mono [.dequeued value]))
        | inr hcr => exact Or.inr (Or.inr (hcr.received hs hr hv))

theorem RetentionInv.cleaned {p : Platform} {trace : List Obs} {s : State}
    (hs : StoreInv p trace s) (hi : RetentionInv p trace s) :
    RetentionInv p (.cleanup s.clock :: trace)
      { s with seen := s.seen.retain fun _ tag =>
          decide (s.clock - tag.timestamp < scanInterval p.tickHz * 10) } where
  cleanupPast := by
    intro t ht
    cases ht with
    | head => exact Nat.le_refl _
    | tail _ ht => exact hi.cleanupPast t ht
  accounted := by
    intro addr r hlast
    change lastDequeued trace addr = some r at hlast
    cases hi.accounted addr r hlast with
    | inl hst =>
      obtain ⟨e, he, hev⟩ := hst
      subst hev
      by_cases hy : s.clock - e.2.timestamp < scanInterval p.tickHz * 10
      · left
        exact ⟨e, (IndexMap.mem_retain _ _ _).mpr ⟨he, decide_eq_true hy⟩, rfl⟩
      · right; left
        have hp := hs.seenPast e he
        exact ⟨s.clock, List.mem_cons_self, by omega⟩
    | inr hcause =>
      cases hcause with
      | inl hex => exact Or.inr (Or.inl (hex.mono [.cleanup s.clock]))
      | inr hcr => exact Or.inr (Or.inr hcr)

theorem RetentionInv.effect {p : Platform} {trace obs : List Obs} {s s' : State}
    (hs : StoreInv p trace s) (hi : RetentionInv p trace s) (h : Effect p s s' obs) :
    RetentionInv p (obs ++ trace) s' := by
  cases h with
  | tick d =>
    exact ⟨fun t ht => (hi.cleanupPast t ht).trans (Nat.le_add_right _ d), hi.accounted⟩
  | queued queue added happ hall => exact ⟨hi.cleanupPast, hi.accounted⟩
  | received value queue seen hq hseen => exact hi.received hs hq hseen
  | idle => exact hi
  | cleaned => exact hi.cleaned hs
  | sent =>
    refine ⟨fun t ht => hi.cleanupPast t (by simpa using ht), ?_⟩
    intro addr r hlast
    cases hi.accounted addr r hlast with
    | inl hst => exact Or.inl hst
    | inr hcause =>
      cases hcause with
      | inl hex => exact Or.inr (Or.inl (hex.mono [_]))
      | inr hcr => exact Or.inr (Or.inr hcr)

theorem retentionInv_run {p : Platform} {trace : List Obs} {s : State}
    (h : (scanner p).Run trace s) : RetentionInv p trace s := by
  refine h.invariant (P := RetentionInv p) ⟨by simp, by simp [lastDequeued, dequeued]⟩ ?_
  intro trace s e s' obs hr hi hs
  have hinv := storeInv_run hr
  exact hi.effect hinv (effect_of_step hinv.seenPast hs)

def devices (trace : List Obs) : Finset BdAddr := ((dequeued trace).map TagReport.addr).toFinset

theorem mem_devices {trace : List Obs} {addr : BdAddr} {r : TagReport}
    (h : lastDequeued trace addr = some r) : addr ∈ devices trace := by
  obtain ⟨hr, ha⟩ := lastDequeued_mem h
  rw [devices, List.mem_toFinset, ← ha]
  exact List.mem_map_of_mem hr

theorem Crowded.devices {trace : List Obs} {addr : BdAddr} {r : TagReport}
    (h : Crowded trace addr r) (hr : lastDequeued trace addr = some r) :
    maxSeen < (devices trace).card := by
  obtain ⟨others, hcard, hnot, hall⟩ := h
  have hsub : insert addr others ⊆ Scanner.devices trace := by
    intro b hb
    cases Finset.mem_insert.mp hb with
    | inl hb => exact hb ▸ mem_devices hr
    | inr hb =>
      obtain ⟨r', hr', -⟩ := hall b hb
      exact mem_devices hr'
  have hle := Finset.card_le_card hsub
  rw [Finset.card_insert_of_notMem hnot] at hle
  omega

theorem stored_of_young {p : Platform} {trace : List Obs} {s : State}
    (h : (scanner p).Run trace s) (hfew : (devices trace).card ≤ maxSeen) {addr : BdAddr}
    {r : TagReport} (hlast : lastDequeued trace addr = some r)
    (hyoung : s.clock - r.timestamp < scanInterval p.tickHz * 10) : Stored s r := by
  have hi := retentionInv_run h
  cases hi.accounted addr r hlast with
  | inl hst => exact hst
  | inr hcause =>
    cases hcause with
    | inl hex =>
      obtain ⟨t, ht, hle⟩ := hex
      have hc := hi.cleanupPast t ht
      omega
    | inr hcr =>
      have hd := hcr.devices hlast
      omega

/-- Nothing is forgotten without cause, and while the devices fit every young one is in the frame
that is built. -/
theorem forgotten_only_for_cause (p : Platform) {trace : List Obs} {s : State}
    (h : (scanner p).Run trace s) :
    (∀ addr r, lastDequeued trace addr = some r → (¬ ∃ e ∈ s.seen.entries, e.2 = r) →
      (∃ t, Obs.cleanup t ∈ trace ∧ r.timestamp + scanInterval p.tickHz * 10 ≤ t) ∨
      (∃ others : Finset BdAddr, maxSeen ≤ others.card ∧ addr ∉ others ∧
        ∀ b ∈ others, ∃ r', lastDequeued trace b = some r' ∧ r.timestamp ≤ r'.timestamp)) ∧
    ((devices trace).card ≤ maxSeen →
      ∃ tags data, step p s .sendScanData = some (s, [.frame s.clock tags data]) ∧
        ∀ addr r, lastDequeued trace addr = some r →
          s.clock - r.timestamp < scanInterval p.tickHz * 10 →
          tagOf p s.clock r ∈ tags.tags.toList) := by
  constructor
  · intro addr r hlast hgone
    cases (retentionInv_run h).accounted addr r hlast with
    | inl hst => exact absurd hst hgone
    | inr hcause => exact hcause
  · intro hfew
    refine ⟨_, _, step_sendScanData (storeInv_run h).seenPast, ?_⟩
    intro addr r hlast hyoung
    obtain ⟨e, he, hev⟩ := stored_of_young h hfew hlast hyoung
    subst hev
    exact mem_snapshotTags p s.clock he

theorem forgotten_only_for_cause_demo : ∃ tags data,
    step demoPlatform demoState .sendScanData = some (demoState, [.frame 0 tags data]) ∧
    tagOf demoPlatform 0 demoTag ∈ tags.tags.toList := by
  obtain ⟨tags, data, hstep, hall⟩ := (forgotten_only_for_cause demoPlatform demoRun).2 (by decide)
  have hlast : lastDequeued [.dequeued demoTag] demoAddr = some demoTag := lastDequeued_self demoTag []
  exact ⟨tags, data, hstep, hall demoAddr demoTag hlast
    (by simp [demoState, demoTag, demoPlatform, scanInterval])⟩

end AssetTracker.Scanner

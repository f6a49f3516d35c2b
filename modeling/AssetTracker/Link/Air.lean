import AssetTracker.Link.Sighting

/-! The scanner of the board among the tags. What it stores, and sends in its frames, are sightings in
the order in which the tags were on the air. -/
namespace AssetTracker.Link.Air
open Bounded Scanner Advertiser

structure State where
  beacons : BdAddr → Beacon
  pending : List LeAdvReport
  scanner : Scanner.State

/-- `deliver` calls back with the first pending reports, as readable or not. -/
inductive Event where
  | beacon (addr : BdAddr) (e : BeaconEvent)
  | hear (report : LeAdvReport)
  | deliver (readable : List Bool)
  | scanner (e : Scanner.Event)

inductive Obs where
  | advertised (addr : BdAddr) (a : Advertised)
  | scanner (o : Scanner.Obs)

def step (w : Surroundings) (s : State) : Event → Option (State × List Obs)
  | .beacon addr e => do
    let (beacons, obs) ← devicesStep w s.beacons addr e
    pure ({ s with beacons := beacons }, obs.map (.advertised addr))
  | .hear report =>
    if audible w s.beacons report then some ({ s with pending := s.pending ++ [report] }, [])
    else some (s, [])
  | .deliver readable => do
    let (scanner, obs) ← Scanner.step w.platform s.scanner (.onAdvReports (batch readable s.pending))
    pure ({ s with pending := s.pending.drop readable.length, scanner := scanner },
      obs.map .scanner)
  | .scanner (.onAdvReports _) => some (s, [])
  | .scanner e => do
    let (scanner, obs) ← Scanner.step w.platform s.scanner e
    pure ({ s with scanner := scanner }, obs.map .scanner)

def air (w : Surroundings) : Lib.Machine State Event Obs where
  init := ⟨fun _ => ⟨0, 37, false, none⟩, [], (Scanner.scanner w.platform).init⟩
  step := step w

inductive Effect (w : Surroundings) (s : State) : Event → State → List Obs → Prop where
  | idle (e : Event) : Effect w s e s []
  | beacon {beacons : BdAddr → Beacon} {obs : List Advertised} (addr : BdAddr) (e : BeaconEvent)
      (h : devicesStep w s.beacons addr e = some (beacons, obs)) :
      Effect w s (.beacon addr e) { s with beacons := beacons } (obs.map (.advertised addr))
  | heard (report : LeAdvReport) (h : audible w s.beacons report = true) :
      Effect w s (.hear report) { s with pending := s.pending ++ [report] } []
  | delivered {scanner : Scanner.State} {obs : List Scanner.Obs} (readable : List Bool)
      (h : Scanner.step w.platform s.scanner (.onAdvReports (batch readable s.pending)) =
        some (scanner, obs)) :
      Effect w s (.deliver readable)
        { s with pending := s.pending.drop readable.length, scanner := scanner } (obs.map .scanner)
  | scanned {scanner : Scanner.State} {obs : List Scanner.Obs} (e : Scanner.Event)
      (he : ∀ it, e ≠ .onAdvReports it)
      (h : Scanner.step w.platform s.scanner e = some (scanner, obs)) :
      Effect w s (.scanner e) { s with scanner := scanner } (obs.map .scanner)

variable {w : Surroundings} {s s' : State} {obs trace : List Obs}

theorem effect_of_step {e : Event} (h : step w s e = some (s', obs)) : Effect w s e s' obs := by
  cases e with
  | beacon addr e =>
    obtain ⟨r, hr, h⟩ := Option.bind_eq_some_iff.mp h
    cases h
    exact .beacon addr e hr
  | hear report =>
    by_cases ha : audible w s.beacons report = true
    · rw [step, if_pos ha] at h
      cases h
      exact .heard report ha
    · rw [step, if_neg ha] at h
      cases h
      exact .idle _
  | deliver readable =>
    simp only [step, Option.bind_eq_bind] at h
    obtain ⟨r, hr, h⟩ := Option.bind_eq_some_iff.mp h
    cases h
    exact .delivered readable hr
  | scanner e =>
    cases e with
    | onAdvReports it =>
      cases h
      exact .idle _
    | _ =>
      simp only [step, Option.bind_eq_bind] at h
      obtain ⟨r, hr, h⟩ := Option.bind_eq_some_iff.mp h
      cases h
      exact .scanned _ (by simp) hr

def scannerObs : Obs → Option Scanner.Obs
  | .scanner o => some o
  | .advertised _ _ => none

def advertisedBy (addr : BdAddr) : Obs → Option Advertised
  | .advertised addr' a => if addr' = addr then some a else none
  | .scanner _ => none

/-- What a device has advertised, newest first. -/
def advertisements (addr : BdAddr) (trace : List Obs) : List Advertised :=
  trace.filterMap (advertisedBy addr)

theorem scannerObs_scanner (obs : List Scanner.Obs) :
    (obs.map Obs.scanner).filterMap scannerObs = obs := by
  rw [List.filterMap_map]
  exact List.filterMap_some

theorem scannerObs_advertised (addr : BdAddr) (obs : List Advertised) :
    (obs.map (Obs.advertised addr)).filterMap scannerObs = [] := by
  simp [scannerObs, List.filterMap_map]

theorem advertisedBy_scanner (addr : BdAddr) (obs : List Scanner.Obs) :
    (obs.map Obs.scanner).filterMap (advertisedBy addr) = [] := by
  simp [advertisedBy, List.filterMap_map]

theorem advertisedBy_advertised (addr addr' : BdAddr) (obs : List Advertised) :
    (obs.map (Obs.advertised addr')).filterMap (advertisedBy addr) =
      if addr' = addr then obs else [] := by
  rw [List.filterMap_map]
  by_cases h : addr' = addr
  · have hsome : advertisedBy addr ∘ Obs.advertised addr' = some := by
      funext a
      simp [advertisedBy, h]
    rw [if_pos h, hsome, List.filterMap_some]
  · simp [advertisedBy, h]

theorem run_scanner (h : (air w).Run trace s) :
    (Scanner.scanner w.platform).Run (trace.filterMap scannerObs) s.scanner := by
  refine Lib.Machine.Run.projected (M := air w) (f := State.scanner) rfl ?_ h
  intro s e s' obs hstep
  cases effect_of_step hstep with
  | idle e => exact ⟨[], rfl⟩
  | beacon addr e h => exact ⟨[], by rw [scannerObs_advertised]; rfl⟩
  | heard report h => exact ⟨[], rfl⟩
  | delivered readable h =>
    rw [scannerObs_scanner]
    exact ⟨[.onAdvReports (batch readable s.pending)], Lib.Machine.exec_single h⟩
  | scanned e he h =>
    rw [scannerObs_scanner]
    exact ⟨[e], Lib.Machine.exec_single h⟩

theorem run_beacon {addr : BdAddr} {name : BString 17} (hname : w.tagName addr = some name)
    (h : (air w).Run trace s) :
    (beacon w.checks name.bytes).Run (advertisements addr trace) (s.beacons addr) := by
  refine Lib.Machine.Run.projected (M := air w) (f := fun s => s.beacons addr) rfl ?_ h
  intro s e s' obs hstep
  cases effect_of_step hstep with
  | idle e => exact ⟨[], rfl⟩
  | beacon addr' e h =>
    rw [advertisedBy_advertised]
    exact devicesStep_beacon hname h
  | heard report h => exact ⟨[], rfl⟩
  | delivered readable h => exact ⟨[], by rw [advertisedBy_scanner]; rfl⟩
  | scanned e he h => exact ⟨[], by rw [advertisedBy_scanner]; rfl⟩

/-- The sightings from the oldest dequeued to the last one pending. -/
def line (trace : List Obs) (s : State) : List Sighting :=
  ((dequeued (trace.filterMap scannerObs)).reverse ++ s.scanner.queue.toList).map reported ++
    s.pending.filterMap sighting

theorem readReports_sublist (it : List (Option LeAdvReport)) :
    (readReports it).Sublist (it.filterMap id) := by
  induction it with
  | nil => exact .slnil
  | cons item it ih =>
    cases item with
    | none => exact List.nil_sublist _
    | some report => exact ih.cons_cons report

theorem filterMap_tagReport_sublist (tagPrefix : TagPrefix) (instant : Nat)
    (l : List LeAdvReport) :
    ((l.filterMap (tagReport tagPrefix instant)).map reported).Sublist (l.filterMap sighting) := by
  induction l with
  | nil => exact .slnil
  | cons report l ih =>
    cases hr : tagReport tagPrefix instant report with
    | none =>
      rw [List.filterMap_cons_none hr]
      exact ih.trans ((List.sublist_cons_self report l).filterMap sighting)
    | some r =>
      rw [List.filterMap_cons_some hr, List.filterMap_cons_some (tagReport_sighting hr)]
      exact ih.cons_cons (reported r)

theorem onAdvReports_sublist (tagPrefix : TagPrefix) (instant : Nat)
    (it : List (Option LeAdvReport)) (q : Queue) :
    ∃ added, (onAdvReports tagPrefix instant it q).toList = q.toList ++ added ∧
      (added.map reported).Sublist ((it.filterMap id).filterMap sighting) := by
  obtain ⟨added, hadd, hsub⟩ := onAdvReports_append tagPrefix instant it q
  refine ⟨added, hadd, (hsub.map reported).trans ?_⟩
  exact (filterMap_tagReport_sublist tagPrefix instant _).trans
    ((readReports_sublist it).filterMap sighting)

def LineInv (addr : BdAddr) (name : BString 17) (trace : List Obs) (s : State) : Prop :=
  Follows addr name (advertisements addr trace) (line trace s)

theorem advertisements_append (addr : BdAddr) (obs trace : List Obs) :
    advertisements addr (obs ++ trace) = advertisements addr obs ++ advertisements addr trace :=
  List.filterMap_append

variable {addr : BdAddr} {name : BString 17}

theorem advertisements_suffix (obs trace : List Obs) :
    advertisements addr trace <:+ advertisements addr (obs ++ trace) := by
  rw [advertisements_append]
  exact List.suffix_append _ _

theorem LineInv.mono (hs : LineInv addr name trace s)
    (hline : (line (obs ++ trace) s').Sublist (line trace s)) :
    LineInv addr name (obs ++ trace) s' :=
  Follows.mono hs (advertisements_suffix obs trace) hline

theorem LineInv.heard (hname : w.tagName addr = some name) (hr : (air w).Run trace s)
    (hs : LineInv addr name trace s) {report : LeAdvReport}
    (ha : audible w s.beacons report = true) :
    LineInv addr name trace { s with pending := s.pending ++ [report] } := by
  have hline : line trace { s with pending := s.pending ++ [report] } =
      line trace s ++ (sighting report).toList := by
    cases h : sighting report with
    | none => simp [line, h]
    | some x => simp [line, h]
  rw [LineInv, hline]
  exact Follows.heard hname (run_beacon hname hr) hs ha

theorem line_scanned {scanner : Scanner.State} {o : List Scanner.Obs} {e : Scanner.Event}
    (hr : (air w).Run trace s) (he : ∀ it, e ≠ .onAdvReports it)
    (h : Scanner.step w.platform s.scanner e = some (scanner, o)) :
    line (o.map .scanner ++ trace) { s with scanner := scanner } = line trace s := by
  have hpast := (storeInv_run (run_scanner hr)).seenPast
  cases e with
  | tick d =>
    cases h
    rfl
  | onAdvReports it => exact absurd rfl (he it)
  | receiveTags =>
    cases hq : s.scanner.queue.popFront with
    | none =>
      simp only [Scanner.step, receiveStep, hq] at h
      cases h
      rfl
    | some front =>
      rw [Scanner.step, receiveStep_some hq] at h
      cases h
      simp [line, scannerObs, dequeued, BVec.popFront_some hq]
  | automaticCleanup =>
    rw [Scanner.step, removeOldEntries_eq_some hpast] at h
    cases h
    rfl
  | sendScanData =>
    rw [step_sendScanData hpast] at h
    cases h
    rfl

theorem LineInv.delivered (hs : LineInv addr name trace s) {scanner : Scanner.State}
    {o : List Scanner.Obs} {readable : List Bool}
    (h : Scanner.step w.platform s.scanner (.onAdvReports (batch readable s.pending)) =
      some (scanner, o)) :
    LineInv addr name (o.map .scanner ++ trace)
      { s with pending := s.pending.drop readable.length, scanner := scanner } := by
  cases h
  refine hs.mono ?_
  obtain ⟨added, hadd, hsub⟩ := onAdvReports_sublist w.platform.tagPrefix s.scanner.clock
    (batch readable s.pending) s.scanner.queue
  have hfirst : (added.map reported).Sublist
      ((s.pending.take readable.length).filterMap sighting) :=
    hsub.trans ((batch_sublist readable s.pending).filterMap sighting)
  have hpending : s.pending.filterMap sighting =
      (s.pending.take readable.length).filterMap sighting ++
        (s.pending.drop readable.length).filterMap sighting := by
    rw [← List.filterMap_append, List.take_append_drop]
  simp only [line, hadd, hpending, List.map_append, List.append_assoc, List.map_nil,
    List.nil_append]
  exact ((hfirst.append_right _).append_left _).append_left _

theorem lineInv_run (hname : w.tagName addr = some name) (h : (air w).Run trace s) :
    LineInv addr name trace s := by
  have hinit : LineInv addr name [] (air w).init :=
    ⟨by simp [line, air, Scanner.scanner, dequeued], by simp [line, air, Scanner.scanner, dequeued]⟩
  refine h.invariant (P := LineInv addr name) hinit ?_
  intro trace s e s' obs hr hi hs
  cases effect_of_step hs with
  | idle e => exact hi
  | beacon addr' e hbeacon =>
    refine hi.mono ?_
    simp only [line, List.filterMap_append, scannerObs_advertised, List.nil_append]
    exact List.Sublist.refl _
  | heard report ha => exact hi.heard hname hr ha
  | delivered readable hdeliver => exact hi.delivered hdeliver
  | scanned e he hscan =>
    refine hi.mono ?_
    rw [line_scanned hr he hscan]

theorem dequeued_append (trace trace' : List Scanner.Obs) :
    dequeued (trace ++ trace') = dequeued trace ++ dequeued trace' := by
  induction trace with
  | nil => rfl
  | cons o trace ih => cases o <;> simp [dequeued, ih]

/-- Each tag of a frame is the last dequeued report of its device. -/
def Stored (p : Platform) (before : List Scanner.Obs) : Scanner.Obs → Prop
  | .frame now tags _ => ∀ t ∈ tags.tags.toList, ∃ r, lastDequeued before r.addr = some r ∧
      t = tagOf p now r
  | _ => True

theorem stored_run {p : Platform} {trace : List Scanner.Obs} {s : Scanner.State}
    (h : (Scanner.scanner p).Run trace s) : Lib.Everywhere (Stored p) trace := by
  refine h.invariant (P := fun trace _ => Lib.Everywhere (Stored p) trace) trivial ?_
  intro trace s e s' obs hr hi hs
  have hstore := storeInv_run hr
  cases Scanner.effect_of_step hstore.seenPast hs with
  | tick d => exact hi
  | queued queue added happ hall => exact hi
  | received value queue seen hq hseen => exact ⟨trivial, hi⟩
  | idle => exact hi
  | cleaned => exact ⟨trivial, hi⟩
  | sent =>
    refine ⟨?_, hi⟩
    intro t ht
    obtain ⟨entry, hentry, rfl⟩ := List.mem_map.mp ht
    exact ⟨entry.2, hstore.seenLast entry hentry, rfl⟩

/-- The last sighting of a device has the greatest number. -/
theorem LineInv.last_greatest (hs : LineInv addr name trace s)
    (hcount : (advertisements addr trace).length ≤ 2 ^ 32) {r r' : TagReport}
    (hlast : lastDequeued (trace.filterMap scannerObs) addr = some r')
    (hr : r ∈ dequeued (trace.filterMap scannerObs)) (haddr : r.addr = addr) :
    r.sequence ≤ r'.sequence := by
  have hordered := hs.ordered hcount
  unfold line at hordered
  have hdequeued := (List.pairwise_append.mp (List.pairwise_map.mp
    (List.pairwise_append.mp hordered).1)).1
  obtain ⟨haddr', later, before, hsplit, hlater⟩ := List.find?_eq_some_iff_append.mp hlast
  have haddr' : r'.addr = addr := by simpa using haddr'
  rw [hsplit] at hr hdequeued
  cases List.mem_append.mp hr with
  | inl hmem =>
    have hne := hlater r hmem
    simp [haddr] at hne
  | inr hmem =>
    cases hmem with
    | head => exact UInt32.le_refl r.sequence
    | tail _ hmem =>
      have hle := (List.pairwise_append.mp (List.pairwise_reverse.mp hdequeued)).2.1
      exact (List.pairwise_cons.mp hle).1 r hmem haddr haddr'

/-- What is said under an address has been advertised with that name. -/
def Advertises (upper : Bool) (addr : BdAddr) (name : BString 17) (sent : List Advertised)
    (tags : List DetectedTag) : Prop :=
  ∀ t ∈ tags, t.addr = addrText upper addr →
    ∃ a ∈ sent, t.name.str = name.str ∧ t.sequence = a.payload.sequence

/-- The number said under an address does not go back. -/
def NotBack (upper : Bool) (addr : BdAddr) (earlier tags : List DetectedTag) : Prop :=
  ∀ t ∈ earlier, ∀ t' ∈ tags, t.addr = addrText upper addr → t'.addr = addrText upper addr →
    t.sequence ≤ t'.sequence

/-- What a frame says of a tag, given what was observed before it. -/
structure Sighted (w : Surroundings) (addr : BdAddr) (name : BString 17) (before : List Obs)
    (tags : TagsSeen) : Prop where
  advertised : Advertises w.platform.upperHex addr name (advertisements addr before) tags.tags.toList
  ordered : (advertisements addr before).length ≤ 2 ^ 32 →
    ∀ now earlier data, .scanner (.frame now earlier data) ∈ before →
      NotBack w.platform.upperHex addr earlier.tags.toList tags.tags.toList
  same : NotBack w.platform.upperHex addr tags.tags.toList tags.tags.toList

theorem frame_sighted (hname : w.tagName addr = some name) (hr : (air w).Run trace s)
    {now : Nat} {tags : TagsSeen} {data : Option (List UInt8)}
    (hstored : Stored w.platform (trace.filterMap scannerObs) (.frame now tags data)) :
    Sighted w addr name trace tags := by
  have hline := lineInv_run hname hr
  have hinj : ∀ {r : TagReport} {now : Nat},
      (tagOf w.platform now r).addr = addrText w.platform.upperHex addr → r.addr = addr :=
    fun h => addrText_inj w.platform.upperHex h
  refine ⟨?_, ?_, ?_⟩
  · intro t ht haddr
    obtain ⟨r, hlast, rfl⟩ := hstored t ht
    have hmem := (lastDequeued_mem hlast).1
    have hinline : reported r ∈ line trace s := by
      simp only [line, List.map_append, List.mem_append, List.mem_map, List.mem_reverse]
      exact .inl (.inl ⟨r, hmem, rfl⟩)
    obtain ⟨a, ha, hsame⟩ := hline.faithful _ hinline (hinj haddr)
    refine ⟨a, ha, ?_, ?_⟩
    · exact congrArg (fun ad : ParsedAdvertisement => ad.name.str) hsame
    · exact congrArg ParsedAdvertisement.sequence hsame
  · intro hcount now' earlier data' hframe t ht t' ht' haddr haddr'
    obtain ⟨r', hlast, rfl⟩ := hstored t' ht'
    have hscanner : .frame now' earlier data' ∈ trace.filterMap scannerObs :=
      List.mem_filterMap.mpr ⟨_, hframe, rfl⟩
    obtain ⟨later, before, hsplit⟩ := List.append_of_mem hscanner
    have hearlier := stored_run (run_scanner hr)
    rw [hsplit] at hearlier
    obtain ⟨r, hlastr, rfl⟩ := hearlier.at_split t ht
    have hmem : r ∈ dequeued (trace.filterMap scannerObs) := by
      rw [hsplit, dequeued_append]
      exact List.mem_append_right _ (lastDequeued_mem hlastr).1
    rw [hinj haddr'] at hlast
    exact hline.last_greatest hcount hlast hmem (hinj haddr)
  · intro t ht t' ht' haddr haddr'
    obtain ⟨r, hlast, rfl⟩ := hstored t ht
    obtain ⟨r', hlast', rfl⟩ := hstored t' ht'
    rw [hinj haddr] at hlast
    rw [hinj haddr', hlast] at hlast'
    cases hlast'
    exact UInt32.le_refl _

theorem sighted_run (hname : w.tagName addr = some name) (h : (air w).Run trace s) :
    Lib.Everywhere (fun before o => ∀ now tags data, o = .scanner (.frame now tags data) →
      Sighted w addr name before tags) trace := by
  refine h.invariant (P := fun trace _ => Lib.Everywhere _ trace) trivial ?_
  intro trace s e s' obs hr hi hs
  have hstored := stored_run (run_scanner (hr.next hs))
  cases effect_of_step hs with
  | idle e => exact hi
  | beacon addr' e hbeacon =>
    refine hi.append ?_
    intro o ho before now tags data heq
    obtain ⟨a, _, rfl⟩ := List.mem_map.mp ho
    cases heq
  | heard report ha => exact hi
  | delivered readable hdeliver =>
    cases hdeliver
    exact hi
  | scanned e he hscan =>
    have hpast := (storeInv_run (run_scanner hr)).seenPast
    rw [List.filterMap_append, scannerObs_scanner] at hstored
    cases Scanner.effect_of_step hpast hscan with
    | tick d => exact hi
    | queued queue added happ hall => exact hi
    | received value queue seen hq hseen => exact ⟨by simp, hi⟩
    | idle => exact hi
    | cleaned => exact ⟨by simp, hi⟩
    | sent =>
      refine ⟨?_, hi⟩
      intro now tags data heq
      cases heq
      exact frame_sighted hname hr hstored.1

/-- Whatever is missed, and whoever else is in the air under another address: what a frame says under
the address of a tag the tag has advertised before, and from frame to frame its number does not go back
until it wraps. -/
theorem sightings_ordered (hname : w.tagName addr = some name) (h : (air w).Run trace s)
    {later before : List Obs} {now : Nat} {tags : TagsSeen} {data : Option (List UInt8)}
    (htrace : trace = later ++ .scanner (.frame now tags data) :: before) :
    Sighted w addr name before tags := by
  have hall := sighted_run hname h
  rw [htrace] at hall
  exact hall.at_split now tags data rfl

/- The cow is heard in its first round and in its second. -/
def demoRounds : List Event :=
  [.beacon demoAddr (.advertise true), .hear (demoHeard 0 37), .deliver [true],
    .scanner .receiveTags, .scanner .sendScanData, .beacon demoAddr .timer,
    .beacon demoAddr (.advertise true), .hear (demoHeard 1 38), .deliver [true],
    .scanner .receiveTags, .scanner .sendScanData]

theorem sightings_ordered_twice : ∃ before tags,
    Sighted pasture demoAddr cow before tags ∧
      tags.tags.toList.map DetectedTag.sequence = [1] :=
  ⟨_, _, @sightings_ordered pasture _ _ demoAddr cow rfl
    (Lib.Machine.run_of_exec demoRounds rfl) [] _ _ _ _ rfl, rfl⟩

end AssetTracker.Link.Air

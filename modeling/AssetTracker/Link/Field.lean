import AssetTracker.Link.Air
import AssetTracker.Link.Traced

/-! The board in the field, with the tags around it. What an update says of a tag can be followed over the
serial line and the scanner to what the tag advertised. -/
namespace AssetTracker.Link.Field
open Bounded Scanner Advertiser Gateway

structure State where
  beacons : BdAddr → Beacon
  pending : List LeAdvReport
  board : Tracker.State

inductive Event where
  | air (e : Air.Event)
  | board (e : Tracker.Event)

inductive Obs where
  | advertised (addr : BdAddr) (a : Advertised)
  | board (o : Tracker.Obs)

def State.air (s : State) : Air.State := ⟨s.beacons, s.pending, s.board.scanner⟩

def ofAir : Air.Obs → Obs
  | .advertised addr a => .advertised addr a
  | .scanner o => .board (.scanner o)

/-- The scanner's own steps are steps of the board; it is called back for what is in the air. -/
def ofScanner : Air.Event → Bool
  | .scanner _ => true
  | _ => false

def ofCallback : Tracker.Event → Bool
  | .scanner (.onAdvReports _) => true
  | _ => false

def step (w : Air.Surroundings) (cfg : Updates.Config) (s : State) :
    Event → Option (State × List Obs)
  | .air e =>
    if ofScanner e then some (s, [])
    else do
      let (air, obs) ← Air.step w s.air e
      pure (⟨air.beacons, air.pending, { s.board with scanner := air.scanner }⟩, obs.map ofAir)
  | .board e =>
    if ofCallback e then some (s, [])
    else do
      let (board, obs) ← Tracker.step w.platform cfg s.board e
      pure ({ s with board := board }, obs.map .board)

def field (w : Air.Surroundings) (cfg : Updates.Config) : Lib.Machine State Event Obs where
  init := ⟨(Air.air w).init.beacons, [], (Tracker.tracker w.platform cfg).init⟩
  step := step w cfg

def airObs : Obs → Option Air.Obs
  | .advertised addr a => some (.advertised addr a)
  | .board (.scanner o) => some (.scanner o)
  | .board _ => none

def boardObs : Obs → Option Tracker.Obs
  | .board o => some o
  | .advertised _ _ => none

/-- What a device has advertised, newest first. -/
def advertisements (addr : BdAddr) (trace : List Obs) : List Advertised :=
  Air.advertisements addr (trace.filterMap airObs)

variable {w : Air.Surroundings} {cfg : Updates.Config} {s s' : State} {obs trace : List Obs}

theorem airObs_ofAir (obs : List Air.Obs) : (obs.map ofAir).filterMap airObs = obs := by
  induction obs with
  | nil => rfl
  | cons o obs ih => cases o <;> exact congrArg (List.cons _) ih

theorem boardObs_ofAir (obs : List Air.Obs) :
    (obs.map ofAir).filterMap boardObs = (obs.filterMap Air.scannerObs).map .scanner := by
  induction obs with
  | nil => rfl
  | cons o obs ih =>
    cases o with
    | advertised addr a => exact ih
    | scanner o => exact congrArg (List.cons _) ih

theorem airObs_board (obs : List Tracker.Obs) :
    (obs.map Obs.board).filterMap airObs = (obs.filterMap Tracker.scannerObs).map .scanner := by
  induction obs with
  | nil => rfl
  | cons o obs ih =>
    cases o with
    | scanner o => exact congrArg (List.cons _) ih
    | _ => exact ih

theorem boardObs_board (obs : List Tracker.Obs) : (obs.map Obs.board).filterMap boardObs = obs := by
  rw [List.filterMap_map]
  exact List.filterMap_some

inductive Effect (w : Air.Surroundings) (cfg : Updates.Config) (s : State) :
    Event → State → List Obs → Prop where
  | idle (e : Event) : Effect w cfg s e s []
  | air {air : Air.State} {obs : List Air.Obs} (e : Air.Event) (he : ofScanner e = false)
      (h : Air.step w s.air e = some (air, obs)) :
      Effect w cfg s (.air e) ⟨air.beacons, air.pending, { s.board with scanner := air.scanner }⟩
        (obs.map ofAir)
  | board {board : Tracker.State} {obs : List Tracker.Obs} (e : Tracker.Event)
      (he : ofCallback e = false) (h : Tracker.step w.platform cfg s.board e = some (board, obs)) :
      Effect w cfg s (.board e) { s with board := board } (obs.map .board)

theorem effect_of_step {e : Event} (h : step w cfg s e = some (s', obs)) :
    Effect w cfg s e s' obs := by
  cases e with
  | air e =>
    cases he : ofScanner e with
    | true =>
      rw [step, if_pos he] at h
      cases h
      exact .idle _
    | false =>
      rw [step, he] at h
      obtain ⟨r, hr, h⟩ := Option.bind_eq_some_iff.mp h
      cases h
      exact .air e he hr
  | board e =>
    cases he : ofCallback e with
    | true =>
      rw [step, if_pos he] at h
      cases h
      exact .idle _
    | false =>
      rw [step, he] at h
      obtain ⟨r, hr, h⟩ := Option.bind_eq_some_iff.mp h
      cases h
      exact .board e he hr

theorem exec_air {e : Air.Event} (he : ofScanner e = false) {air : Air.State} {o : List Air.Obs}
    (h : Air.step w s.air e = some (air, o)) :
    ∃ es, (Tracker.tracker w.platform cfg).exec s.board es =
      some ({ s.board with scanner := air.scanner }, (o.filterMap Air.scannerObs).map .scanner) := by
  cases Air.effect_of_step h with
  | idle e => exact ⟨[], rfl⟩
  | beacon addr e hbeacon =>
    refine ⟨[], ?_⟩
    rw [Air.scannerObs_advertised]
    rfl
  | heard report ha => exact ⟨[], rfl⟩
  | @delivered scanner o readable hdeliver =>
    refine ⟨[.scanner (.onAdvReports (Air.batch readable s.pending))], Lib.Machine.exec_single ?_⟩
    have hstep : Scanner.step w.platform s.board.scanner
        (.onAdvReports (Air.batch readable s.pending)) = some (scanner, o) := hdeliver
    rw [Air.scannerObs_scanner]
    simp [Tracker.tracker, Tracker.step, Tracker.scannerStep, hstep]
  | scanned e hreports hscan => cases he

theorem exec_board {e : Tracker.Event} (he : ofCallback e = false) {board : Tracker.State}
    {o : List Tracker.Obs} (h : Tracker.step w.platform cfg s.board e = some (board, o)) :
    ∃ es, (Air.air w).exec s.air es =
      some (State.air { s with board := board }, (o.filterMap Tracker.scannerObs).map .scanner) := by
  cases Tracker.effect_of_step h with
  | @scanned scanner o e hframe hscan =>
    have hreports : ∀ it, e ≠ .onAdvReports it := by
      intro it heq
      rw [heq] at he
      cases he
    refine ⟨[.scanner e], Lib.Machine.exec_single ?_⟩
    have hstep : Scanner.step w.platform s.air.scanner e = some (scanner, o) := hscan
    rw [Tracker.scannerObs_scanner]
    cases e with
    | onAdvReports it => exact absurd rfl (hreports it)
    | _ =>
      simp only [Air.air, Air.step, hstep]
      rfl
  | framed tags data hw hr hsend =>
    refine ⟨[.scanner .sendScanData], Lib.Machine.exec_single ?_⟩
    have hstep : Scanner.step w.platform s.air.scanner .sendScanData =
        some (s.air.scanner, [.frame s.board.scanner.clock tags data]) := by
      simp [Scanner.step, State.air, hsend]
    simp only [Air.air, Air.step, hstep]
    rfl
  | wrote rest n hw =>
    refine ⟨[], ?_⟩
    simp [Lib.Machine.exec, State.air, (Tracker.writeStep_programs s.board n).1]
  | gateway e hne hgateway hr =>
    refine ⟨[], ?_⟩
    rw [Tracker.scannerObs_gateway]
    rfl
  | listening e hne hgateway hr hr' =>
    refine ⟨[], ?_⟩
    simp [Tracker.scannerObs, Lib.Machine.exec, State.air]
  | decoded n read tags hr hread hi hgateway =>
    refine ⟨[], ?_⟩
    simp [Tracker.scannerObs, Lib.Machine.exec, State.air]
  | _ => exact ⟨[], rfl⟩

theorem run_air (h : (field w cfg).Run trace s) : (Air.air w).Run (trace.filterMap airObs) s.air := by
  refine Lib.Machine.Run.projected (M := field w cfg) (f := State.air) rfl ?_ h
  intro s e s' obs hstep
  cases effect_of_step hstep with
  | idle e => exact ⟨[], rfl⟩
  | air e he h =>
    rw [airObs_ofAir]
    exact ⟨[e], Lib.Machine.exec_single h⟩
  | board e he h =>
    rw [airObs_board]
    exact exec_board he h

theorem run_board (h : (field w cfg).Run trace s) :
    (Tracker.tracker w.platform cfg).Run (trace.filterMap boardObs) s.board := by
  refine Lib.Machine.Run.projected (M := field w cfg) (f := State.board) rfl ?_ h
  intro s e s' obs hstep
  cases effect_of_step hstep with
  | idle e => exact ⟨[], rfl⟩
  | air e he h =>
    rw [boardObs_ofAir]
    exact exec_air he h
  | board e he h =>
    rw [boardObs_board]
    exact ⟨[e], Lib.Machine.exec_single h⟩

def unaged (t : DetectedTag) : DetectedTag := { t with age := 0 }

theorem agedTag_unaged {checks : Bool} {secs : UInt16} {tags tags' : List DetectedTag}
    (h : List.Forall₂ (fun tag tag' => agedTag checks secs tag = some tag') tags tags') :
    tags'.map unaged = tags.map unaged := by
  induction h with
  | nil => rfl
  | cons htag _ ih =>
    obtain ⟨age, _, htag⟩ := Option.bind_eq_some_iff.mp htag
    cases htag
    exact congrArg (List.cons _) ih

theorem gatewayUpdate_unaged {location : Option Location} {tags : TagsSeen} {instant now : Nat}
    {update : GatewayUpdate}
    (h : gatewayUpdate cfg.checks cfg.tickHz cfg.deviceId location tags instant now = some update) :
    update.detectedTags.toList.map unaged = tags.tags.toList.map unaged :=
  agedTag_unaged (gatewayUpdate_aged h).2

theorem unaged_mem {tags tags' : List DetectedTag} (h : tags.map unaged = tags'.map unaged)
    {t : DetectedTag} (ht : t ∈ tags) :
    ∃ t' ∈ tags', t'.addr = t.addr ∧ t'.name = t.name ∧ t'.sequence = t.sequence := by
  have hmem := List.mem_map_of_mem (f := unaged) ht
  rw [h] at hmem
  obtain ⟨t', ht', heq⟩ := List.mem_map.mp hmem
  simp only [unaged, DetectedTag.mk.injEq] at heq
  exact ⟨t', ht', heq.1, heq.2.1, heq.2.2.2.2⟩

theorem built_from_frame (h : (field w cfg).Run trace s)
    (hline : Tracker.Undisturbed (trace.filterMap boardObs)) {builtAt : Nat}
    {update : GatewayUpdate} {later before : List Obs}
    (htrace : trace = later ++ .board (.gateway builtAt (.built update)) :: before) :
    ∃ behind now tags data older,
      before = behind ++ .board (.scanner (.frame now tags data)) :: older ∧
      (∀ clock u, .board (.gateway clock (.built u)) ∉ behind) ∧
      update.detectedTags.toList.map unaged = tags.tags.toList.map unaged := by
  have hboard : trace.filterMap boardObs = later.filterMap boardObs ++
      .gateway builtAt (.built update) :: before.filterMap boardObs := by
    rw [htrace, List.filterMap_append]
    rfl
  obtain ⟨location, decodedAt, sc, connecting, frames, idle, older, hbefore, hwait, _, _, hupdate⟩ :=
    Tracker.justified_split (Tracker.traced_run (run_board h) hline).2 hline hboard
  rw [← List.cons_append, ← List.append_assoc] at hbefore
  obtain ⟨behind, rest, hsplit, hbehind, hrest⟩ := List.filterMap_eq_append_iff.mp hbefore
  obtain ⟨skipped, y, older', hrest', hskipped, hy, _⟩ := List.filterMap_eq_cons_iff.mp hrest
  have hframe : y = .board (.scanner (.frame sc.clock (snapshotTags w.platform sc.clock sc.seen)
      (some (Wire.frame (snapshotTags w.platform sc.clock sc.seen))))) := by
    cases y with
    | advertised addr a => cases hy
    | board o => exact congrArg Obs.board (Option.some.inj hy)
  rw [hrest', hframe, ← List.append_assoc] at hsplit
  refine ⟨behind ++ skipped, _, _, _, older', hsplit, ?_, gatewayUpdate_unaged hupdate⟩
  intro clock u hmem
  cases List.mem_append.mp hmem with
  | inl hmem =>
    have hbuilt : .gateway clock (.built u) ∈ behind.filterMap boardObs :=
      List.mem_filterMap.mpr ⟨_, hmem, rfl⟩
    rw [hbehind] at hbuilt
    have hin : .gateway clock (.built u) ∈ connecting ++ (frames ++ idle) := by
      simp only [List.mem_append, List.mem_cons, reduceCtorEq, false_or] at hbuilt ⊢
      tauto
    cases hwait _ hin
  | inr hmem =>
    cases hskipped _ hmem

theorem behind_of_split {mid behind before older : List Obs} {mark mark' : Obs}
    (h : mid ++ mark :: before = behind ++ mark' :: older) (hmark : mark ∉ behind)
    (hne : mark ≠ mark') : mark :: before <:+ older := by
  induction behind generalizing mid with
  | nil =>
    cases mid with
    | nil => exact absurd (List.cons.inj h).1 hne
    | cons o mid => exact ⟨mid, (List.cons.inj h).2⟩
  | cons b behind ih =>
    cases mid with
    | nil => exact absurd (by rw [(List.cons.inj h).1]; exact List.mem_cons_self) hmark
    | cons o mid => exact ih (List.cons.inj h).2 fun hmem => hmark (List.mem_cons_of_mem b hmem)

theorem advertisements_suffix {addr : BdAddr} {older trace : List Obs} (h : older <:+ trace) :
    advertisements addr older <:+ advertisements addr trace :=
  (h.filterMap airObs).filterMap (Air.advertisedBy addr)

structure Sighted (w : Air.Surroundings) (addr : BdAddr) (name : BString 17) (before : List Obs)
    (update : GatewayUpdate) : Prop where
  advertised : Air.Advertises w.platform.upperHex addr name (advertisements addr before)
    update.detectedTags.toList
  ordered : (advertisements addr before).length ≤ 2 ^ 32 → ∀ builtAt earlier,
    .board (.gateway builtAt (.built earlier)) ∈ before →
      Air.NotBack w.platform.upperHex addr earlier.detectedTags.toList update.detectedTags.toList
  same : Air.NotBack w.platform.upperHex addr update.detectedTags.toList update.detectedTags.toList

theorem notBack_unaged {upper : Bool} {addr : BdAddr} {earlier earlier' tags tags' : List DetectedTag}
    (hearlier : earlier.map unaged = earlier'.map unaged) (htags : tags.map unaged = tags'.map unaged)
    (h : Air.NotBack upper addr earlier' tags') : Air.NotBack upper addr earlier tags := by
  intro t ht t' ht' haddr haddr'
  obtain ⟨t₁, ht₁, haddr₁, _, hsequence₁⟩ := unaged_mem hearlier ht
  obtain ⟨t₂, ht₂, haddr₂, _, hsequence₂⟩ := unaged_mem htags ht'
  rw [← hsequence₁, ← hsequence₂]
  exact h t₁ ht₁ t₂ ht₂ (haddr₁.trans haddr) (haddr₂.trans haddr')

theorem sighted_run {addr : BdAddr} {name : BString 17} (hname : w.tagName addr = some name)
    (h : (field w cfg).Run trace s) (hline : Tracker.Undisturbed (trace.filterMap boardObs)) :
    Lib.Everywhere (fun before o => ∀ builtAt update, o = .board (.gateway builtAt (.built update)) →
      Sighted w addr name before update) trace := by
  refine .of_splits ?_
  intro later before o htrace builtAt update ho
  rw [ho] at htrace
  obtain ⟨behind, now, tags, data, older, hbefore, hbehind, htags⟩ := built_from_frame h hline htrace
  have hair : trace.filterMap airObs =
      (later ++ .board (.gateway builtAt (.built update)) :: behind).filterMap airObs ++
        .scanner (.frame now tags data) :: older.filterMap airObs := by
    rw [htrace, hbefore, ← List.cons_append, ← List.append_assoc, List.filterMap_append]
    rfl
  have hall := Air.sighted_run hname (run_air h)
  rw [hair] at hall
  have hsighted := hall.at_split now tags data rfl
  have hsuffix : advertisements addr older <:+ advertisements addr before := by
    refine advertisements_suffix ?_
    rw [hbefore]
    exact (List.suffix_cons _ _).trans (List.suffix_append _ _)
  refine ⟨?_, ?_, notBack_unaged htags htags hsighted.same⟩
  · intro t ht haddr
    obtain ⟨t', ht', haddr', hname', hsequence⟩ := unaged_mem htags ht
    obtain ⟨a, ha, hsaid, hnumber⟩ := hsighted.advertised t' ht' (haddr'.trans haddr)
    exact ⟨a, hsuffix.subset ha, by rw [← hname', hsaid], by rw [← hsequence, hnumber]⟩
  · intro hcount builtAt' earlier hearlier
    obtain ⟨mid, before', hmid⟩ := List.append_of_mem hearlier
    have hsplit : trace = (later ++ .board (.gateway builtAt (.built update)) :: mid) ++
        .board (.gateway builtAt' (.built earlier)) :: before' := by
      rw [htrace, hmid]
      simp
    obtain ⟨_, now₀, tags₀, data₀, older₀, hbefore', _, htags₀⟩ := built_from_frame h hline hsplit
    have hbehind' := behind_of_split (hmid.symm.trans hbefore) (hbehind builtAt' earlier) (by simp)
    have hframe : .board (.scanner (.frame now₀ tags₀ data₀)) ∈ older := by
      refine hbehind'.subset (List.mem_cons_of_mem _ ?_)
      rw [hbefore']
      exact List.mem_append_right _ List.mem_cons_self
    have hle := hsuffix.length_le
    have hordered := hsighted.ordered (hle.trans hcount) now₀ tags₀ data₀
      (List.mem_filterMap.mpr ⟨_, hframe, rfl⟩)
    exact notBack_unaged htags₀ htags hordered

/-- While the serial line is undisturbed, and whoever else is in the air under another address: what an
update says under the address of a tag the tag has advertised before, and from update to update its
number does not go back until it wraps. -/
theorem updates_sighted {addr : BdAddr} {name : BString 17} (hname : w.tagName addr = some name)
    (h : (field w cfg).Run trace s) (hline : Tracker.Undisturbed (trace.filterMap boardObs))
    {builtAt : Nat} {update : GatewayUpdate} {later before : List Obs}
    (htrace : trace = later ++ .board (.gateway builtAt (.built update)) :: before) :
    Sighted w addr name before update := by
  have hall := sighted_run hname h hline
  rw [htrace] at hall
  exact hall.at_split builtAt update rfl

/- The first round of a tag is heard and reported in the first cycle. -/
def grazingTag : TagReport := ⟨demoAddr, ⟨"Cow", by decide⟩, 0, -70, 0, 37⟩

def grazingTags : TagsSeen := ⟨⟨[tagOf demoPlatform 0 grazingTag], by simp⟩⟩

def grazingEvents : List Event :=
  [.air (.beacon demoAddr (.advertise true)), .air (.hear (Air.demoHeard 0 37)),
    .air (.deliver [true]), .board (.scanner .receiveTags), .board (.gateway .booted),
    .board (.gateway (.tick 900)), .board (.gateway .timer),
    .board (.gateway (.reading Updates.sampleReading)), .board (.scanner .sendScanData),
    .board (.write 4096), .board (.fillBuf (some 28)), .board (.gateway (.linkUp true))]

def grazingTrace : List Obs :=
  [.board (.gateway 900 (.announced .networkCommunication (some .waiting))),
    .board (.gateway 900 (.announced .waitingNetwork (some .waiting))),
    .board (.decoded 900 grazingTags),
    .board (.scanner (.frame 0 grazingTags (some (Wire.frame grazingTags)))),
    .board (.listening true), .board (.gateway 900 (.announced .readingUart (some .waiting))),
    .board (.gateway 900 (.read Updates.sampleReading)),
    .board (.gateway 900 (.announced .gnssAcquisition (some .waiting))),
    .board (.gateway 900 (.started 900)), .board (.gateway 0 (.announced .waiting none)),
    .board (.scanner (.dequeued grazingTag)),
    .advertised demoAddr ⟨⟨0, 37⟩, ⟨true, false, false⟩, true⟩]

theorem updates_sighted_grazing : ∃ update : GatewayUpdate,
    update.detectedTags.toList.map DetectedTag.sequence = [0] ∧
    Air.Advertises false demoAddr Air.cow (advertisements demoAddr grazingTrace)
      update.detectedTags.toList := by
  have hrun : ∃ s update, (field Air.pasture (Updates.sampleConfig .coap)).Run
      (.board (.gateway 900 (.built update)) :: grazingTrace) s ∧
      update.detectedTags.toList.map DetectedTag.sequence = [0] :=
    ⟨_, _, Lib.Machine.run_of_exec grazingEvents rfl, rfl⟩
  obtain ⟨s, update, hrun, hsequence⟩ := hrun
  have hline : Tracker.Undisturbed
      ((.board (.gateway 900 (.built update)) :: grazingTrace).filterMap boardObs) := by
    simp [Tracker.Undisturbed, grazingTrace, boardObs]
  have htrace : .board (.gateway 900 (.built update)) :: grazingTrace =
      [] ++ .board (.gateway 900 (.built update)) :: grazingTrace := rfl
  exact ⟨update, hsequence, (updates_sighted rfl hrun hline htrace).advertised⟩

end AssetTracker.Link.Field

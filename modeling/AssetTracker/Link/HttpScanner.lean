import AssetTracker.Link.Sighting
import AssetTracker.Scanner.Posting

/-! The scanner that posts every report, among the tags: what its posts say of a tag, and in which order.
-/
namespace AssetTracker.Link.HttpScanner
open Bounded Scanner Advertiser
open Scanner.Interleaving (Callback)
open Air (Surroundings Sighting Follows sighting reported batch audible devicesStep)

structure Settings where
  surroundings : Surroundings
  snifferId : Option String
  interfaceEui48 : Option Posting.Eui48

def Settings.config (c : Settings) : Posting.Config :=
  ⟨c.surroundings.platform, c.snifferId, c.interfaceEui48⟩

structure State where
  beacons : BdAddr → Beacon
  pending : List LeAdvReport
  posting : Posting.State

inductive Event where
  | beacon (addr : BdAddr) (e : BeaconEvent)
  | hear (report : LeAdvReport)
  | deliver (readable : List Bool)
  | posting (e : Posting.Event)

inductive Obs where
  | advertised (addr : BdAddr) (a : Advertised)
  | posting (o : Posting.Obs)

/-- The controller calls back when the last callback has returned. -/
def step (c : Settings) (s : State) : Event → Option (State × List Obs)
  | .beacon addr e => do
    let (beacons, obs) ← devicesStep c.surroundings s.beacons addr e
    pure ({ s with beacons := beacons }, obs.map (.advertised addr))
  | .hear report =>
    if audible c.surroundings s.beacons report then
      some ({ s with pending := s.pending ++ [report] }, [])
    else some (s, [])
  | .deliver readable =>
    match s.posting.callback with
    | .idle =>
      some ({ s with pending := s.pending.drop readable.length,
                     posting := { s.posting with
                       callback := .reporting s.posting.clock (batch readable s.pending) } }, [])
    | .reporting _ _ => some (s, [])
  | .posting (.onAdvReports _) => some (s, [])
  | .posting e => do
    let (posting, obs) ← Posting.step c.config s.posting e
    pure ({ s with posting := posting }, obs.map .posting)

def httpScanner (c : Settings) : Lib.Machine State Event Obs where
  init := ⟨fun _ => ⟨0, 37, false, none⟩, [], (Posting.posting c.config).init⟩
  step := step c

inductive Effect (c : Settings) (s : State) : State → List Obs → Prop where
  | idle : Effect c s s []
  | beacon {beacons : BdAddr → Beacon} {obs : List Advertised} (addr : BdAddr) (e : BeaconEvent)
      (h : devicesStep c.surroundings s.beacons addr e = some (beacons, obs)) :
      Effect c s { s with beacons := beacons } (obs.map (.advertised addr))
  | heard (report : LeAdvReport) (h : audible c.surroundings s.beacons report = true) :
      Effect c s { s with pending := s.pending ++ [report] } []
  | delivered (readable : List Bool) (hc : s.posting.callback = .idle) :
      Effect c s
        { s with pending := s.pending.drop readable.length,
                 posting := { s.posting with
                   callback := .reporting s.posting.clock (batch readable s.pending) } } []
  | posted {posting : Posting.State} {obs : List Posting.Obs} (e : Posting.Event)
      (he : ∀ it, e ≠ .onAdvReports it) (h : Posting.step c.config s.posting e = some (posting, obs)) :
      Effect c s { s with posting := posting } (obs.map .posting)

variable {c : Settings} {s s' : State} {obs trace : List Obs}

theorem effect_of_step {e : Event} (h : step c s e = some (s', obs)) : Effect c s s' obs := by
  cases e with
  | beacon addr e =>
    obtain ⟨r, hr, h⟩ := Option.bind_eq_some_iff.mp h
    cases h
    exact .beacon addr e hr
  | hear report =>
    by_cases ha : audible c.surroundings s.beacons report = true
    · rw [step, if_pos ha] at h
      cases h
      exact .heard report ha
    · rw [step, if_neg ha] at h
      cases h
      exact .idle
  | deliver readable =>
    cases hc : s.posting.callback <;> simp only [step, hc] at h <;> cases h
    · exact .delivered readable hc
    · exact .idle
  | posting e =>
    cases e with
    | onAdvReports it =>
      cases h
      exact .idle
    | _ =>
      simp only [step, Option.bind_eq_bind] at h
      obtain ⟨r, hr, h⟩ := Option.bind_eq_some_iff.mp h
      cases h
      exact .posted _ (by simp) hr

def postingObs : Obs → Option Posting.Obs
  | .posting o => some o
  | .advertised _ _ => none

def advertisedBy (addr : BdAddr) : Obs → Option Advertised
  | .advertised addr' a => if addr' = addr then some a else none
  | .posting _ => none

def advertisements (addr : BdAddr) (trace : List Obs) : List Advertised :=
  trace.filterMap (advertisedBy addr)

theorem postingObs_posting (obs : List Posting.Obs) :
    (obs.map Obs.posting).filterMap postingObs = obs := by
  rw [List.filterMap_map]
  exact List.filterMap_some

theorem postingObs_advertised (addr : BdAddr) (obs : List Advertised) :
    (obs.map (Obs.advertised addr)).filterMap postingObs = [] := by
  simp [postingObs, List.filterMap_map]

theorem advertisedBy_posting (addr : BdAddr) (obs : List Posting.Obs) :
    (obs.map Obs.posting).filterMap (advertisedBy addr) = [] := by
  simp [advertisedBy, List.filterMap_map]

theorem advertisedBy_advertised (addr addr' : BdAddr) (obs : List Advertised) :
    (obs.map (Obs.advertised addr')).filterMap (advertisedBy addr) =
      if addr' = addr then obs else [] := by
  rw [List.filterMap_map]
  by_cases h : addr' = addr
  · have hsome : advertisedBy addr ∘ Obs.advertised addr' = some := by
      funext a
      simp [advertisedBy, h]
    rw [if_pos h, hsome, List.filterMap_some]
  · simp [advertisedBy, h]

theorem run_posting (h : (httpScanner c).Run trace s) :
    (Posting.posting c.config).Run (trace.filterMap postingObs) s.posting := by
  refine Lib.Machine.Run.projected (M := httpScanner c) (f := State.posting) rfl ?_ h
  intro s e s' obs hstep
  cases effect_of_step hstep with
  | idle => exact ⟨[], rfl⟩
  | beacon addr e h => exact ⟨[], by rw [postingObs_advertised]; rfl⟩
  | heard report h => exact ⟨[], rfl⟩
  | delivered readable hc =>
    refine ⟨[.onAdvReports (batch readable s.pending)], Lib.Machine.exec_single ?_⟩
    simp [Posting.posting, Posting.step, hc]
  | posted e he h =>
    rw [postingObs_posting]
    exact ⟨[e], Lib.Machine.exec_single h⟩

theorem run_beacon {addr : BdAddr} {name : BString 17}
    (hname : c.surroundings.tagName addr = some name) (h : (httpScanner c).Run trace s) :
    (beacon c.surroundings.checks name.bytes).Run (advertisements addr trace) (s.beacons addr) := by
  refine Lib.Machine.Run.projected (M := httpScanner c) (f := fun s => s.beacons addr) rfl ?_ h
  intro s e s' obs hstep
  cases effect_of_step hstep with
  | idle => exact ⟨[], rfl⟩
  | beacon addr' e h =>
    rw [advertisedBy_advertised]
    exact Air.devicesStep_beacon hname h
  | heard report h => exact ⟨[], rfl⟩
  | delivered readable hc => exact ⟨[], rfl⟩
  | posted e he h => exact ⟨[], by rw [advertisedBy_posting]; rfl⟩

/-- What the callback has not looked at yet. -/
def unread : Callback → List LeAdvReport
  | .idle => []
  | .reporting _ it => it.filterMap id

/-- The sightings from the first report queued to the last one pending. -/
def line (trace : List Obs) (s : State) : List Sighting :=
  (Posting.reports (trace.filterMap postingObs)).map reported ++
    (unread s.posting.callback ++ s.pending).filterMap sighting

def LineInv (addr : BdAddr) (name : BString 17) (trace : List Obs) (s : State) : Prop :=
  Follows addr name (advertisements addr trace) (line trace s)

variable {addr : BdAddr} {name : BString 17}

theorem LineInv.mono (hs : LineInv addr name trace s)
    (hline : (line (obs ++ trace) s').Sublist (line trace s)) :
    LineInv addr name (obs ++ trace) s' := by
  refine Follows.mono hs ?_ hline
  rw [advertisements, advertisements, List.filterMap_append]
  exact List.suffix_append _ _

theorem line_append (posting : Posting.State) (o : List Posting.Obs) :
    line (o.map .posting ++ trace) { s with posting := posting } =
      (Posting.reports (trace.filterMap postingObs)).map reported ++
        ((Posting.reports o).map reported ++
          (unread posting.callback ++ s.pending).filterMap sighting) := by
  rw [line, List.filterMap_append, postingObs_posting, Posting.reports_append, List.map_append,
    List.append_assoc]

theorem line_posted {posting : Posting.State} {o : List Posting.Obs} {e : Posting.Event}
    (he : ∀ it, e ≠ .onAdvReports it) (h : Posting.step c.config s.posting e = some (posting, o)) :
    (line (o.map .posting ++ trace) { s with posting := posting }).Sublist (line trace s) := by
  rw [line_append, line]
  refine List.Sublist.append_left ?_ _
  cases Posting.effect_of_step h with
  | begun it hc => exact absurd rfl (he it)
  | queued instant report it r queue hc hr hq =>
    simp [hc, unread, Posting.reports, Posting.queued?, Air.tagReport_sighting hr]
  | dropped instant report it r hc hr hfull =>
    simp [hc, unread, Posting.reports, Posting.queued?, Air.tagReport_sighting hr]
  | passed instant report it hc =>
    simp only [hc, unread, Posting.reports, List.filterMap_nil, List.reverse_nil, List.map_nil,
      List.nil_append, List.filterMap_cons_some (f := id) rfl, List.cons_append]
    exact (List.sublist_cons_self report _).filterMap sighting
  | returned =>
    simp only [unread, Posting.reports, List.filterMap_nil, List.reverse_nil, List.map_nil,
      List.nil_append, List.filterMap_append]
    exact List.sublist_append_right _ _
  | ended id ok ht =>
    cases ok with
    | true => exact List.Sublist.refl _
    | false => exact List.Sublist.refl _
  | _ => exact List.Sublist.refl _

theorem line_delivered {readable : List Bool} (hc : s.posting.callback = .idle) :
    (line trace { s with pending := s.pending.drop readable.length,
                         posting := { s.posting with
                           callback := .reporting s.posting.clock (batch readable s.pending) } }).Sublist
      (line trace s) := by
  have hpending : s.pending = s.pending.take readable.length ++ s.pending.drop readable.length :=
    (List.take_append_drop _ _).symm
  refine List.Sublist.append_left (List.Sublist.filterMap sighting ?_) _
  rw [hc]
  simp only [unread, List.nil_append]
  calc
    ((batch readable s.pending).filterMap id ++ s.pending.drop readable.length).Sublist
        (s.pending.take readable.length ++ s.pending.drop readable.length) :=
      (Air.batch_sublist readable s.pending).append_right _
    _ = s.pending := hpending.symm

theorem lineInv_run (hname : c.surroundings.tagName addr = some name)
    (h : (httpScanner c).Run trace s) : LineInv addr name trace s := by
  have hinit : LineInv addr name [] (httpScanner c).init :=
    ⟨by simp [line, httpScanner, Posting.posting, Posting.reports, unread],
      by simp [line, httpScanner, Posting.posting, Posting.reports, unread]⟩
  refine h.invariant (P := LineInv addr name) hinit ?_
  intro trace s e s' obs hr hi hs
  cases effect_of_step hs with
  | idle => exact hi
  | beacon addr' e hbeacon =>
    refine hi.mono ?_
    simp only [line, List.filterMap_append, postingObs_advertised, List.nil_append]
    exact List.Sublist.refl _
  | heard report ha =>
    have hline : line trace { s with pending := s.pending ++ [report] } =
        line trace s ++ (sighting report).toList := by
      cases h : sighting report with
      | none => simp [line, h]
      | some x => simp [line, h]
    have hheard := Follows.heard hname (run_beacon hname hr) hi ha
    rw [← hline] at hheard
    exact hheard
  | delivered readable hc => exact LineInv.mono hi (line_delivered hc)
  | posted e he hpost => exact hi.mono (line_posted he hpost)

theorem describes_fields {r : TagReport} {payload : AdvertisementPayload}
    (h : Posting.Describes c.config r payload) :
    payload.mac = addrText c.surroundings.platform.upperHex r.addr ∧ payload.name = r.name ∧
      payload.sequence = r.sequence ∧ payload.channel = r.channelNumber := by
  obtain ⟨id, _, hp⟩ := h
  obtain ⟨payload', hp', hmac⟩ :=
    aioPayload_mac c.config.platform.upperHex c.config.platform.tickHz id r
  rw [hp] at hp'
  cases hp'
  obtain ⟨mac, _, hp⟩ := Option.bind_eq_some_iff.mp hp
  cases hp
  exact ⟨hmac, rfl, rfl, rfl⟩

def said (upper : Bool) (addr : BdAddr) (posts : List AdvertisementPayload) :
    List ParsedAdvertisement :=
  (posts.filter fun p => p.mac = addrText upper addr).map fun p => ⟨p.name, p.sequence, p.channel⟩

theorem said_eq {taken : List TagReport} {posts : List AdvertisementPayload}
    (h : List.Forall₂ (Posting.Describes c.config) taken posts) :
    said c.surroundings.platform.upperHex addr posts =
      ((taken.map reported).filter fun x => x.addr = addr).map Sighting.ad := by
  induction h with
  | nil => rfl
  | @cons r p taken posts hd hrest ih =>
    obtain ⟨hmac, hname, hsequence, hchannel⟩ := describes_fields hd
    by_cases haddr : r.addr = addr
    · have hsame : p.mac = addrText c.surroundings.platform.upperHex addr := by rw [hmac, haddr]
      simp only [said] at ih
      simp [said, hsame, reported, haddr, hname, hsequence, hchannel, ih]
    · have hother : p.mac ≠ addrText c.surroundings.platform.upperHex addr := by
        rw [hmac]
        exact fun heq => haddr (addrText_inj _ heq)
      simp only [said] at ih
      simp [said, hother, reported, haddr, ih]

/-- Whatever is missed or dropped, and whoever else is in the air under another address: what a request
is attempted for under the address of a tag the tag has advertised, and from one to the next its number
does not go back until it wraps. -/
theorem posts_sighted (hname : c.surroundings.tagName addr = some name)
    (h : (httpScanner c).Run trace s) :
    (∀ ad ∈ said c.surroundings.platform.upperHex addr (Posting.posts (trace.filterMap postingObs)),
      ∃ a ∈ advertisements addr trace, ad = advertisement name a.payload) ∧
    ((advertisements addr trace).length ≤ 2 ^ 32 →
      (said c.surroundings.platform.upperHex addr
        (Posting.posts (trace.filterMap postingObs))).Pairwise fun ad ad' =>
          ad.sequence ≤ ad'.sequence) := by
  have hline := lineInv_run hname h
  obtain ⟨taken, htaken, hdescribes⟩ := (Posting.posting_inv (run_posting h)).1.line
  have hsub : (taken.map reported).Sublist (line trace s) := by
    rw [line, htaken, List.map_append, List.append_assoc]
    exact List.sublist_append_left _ _
  rw [said_eq hdescribes]
  refine ⟨?_, ?_⟩
  · intro ad had
    obtain ⟨x, hx, hsame⟩ := List.mem_map.mp had
    obtain ⟨hmem, haddr⟩ := List.mem_filter.mp hx
    rw [← hsame]
    exact hline.faithful x (hsub.subset hmem) (by simpa using haddr)
  · intro hcount
    have hordered := (hline.ordered hcount).sublist hsub
    refine List.pairwise_map.mpr (List.Pairwise.imp_of_mem ?_ (hordered.sublist List.filter_sublist))
    intro x y hx hy hle
    exact hle (by simpa using (List.mem_filter.mp hx).2) (by simpa using (List.mem_filter.mp hy).2)

/- The cow's first two rounds are posted. -/
def grazing : Settings := ⟨Air.pasture, none, none⟩

def grazingEvents : List Event :=
  [.beacon demoAddr (.advertise true), .hear (Air.demoHeard 0 37), .beacon demoAddr .timer,
    .beacon demoAddr (.advertise true), .hear (Air.demoHeard 1 38), .deliver [true, true],
    .posting .report, .posting .report, .posting .configUp, .posting .receive,
    .posting (.ended true), .posting .receive]

theorem posts_sighted_grazing : ∃ posts : List AdvertisementPayload,
    posts.map AdvertisementPayload.sequence = [0, 1] ∧
      (said false demoAddr posts).Pairwise fun ad ad' => ad.sequence ≤ ad'.sequence := by
  have hrun : ∃ trace s, (httpScanner grazing).Run trace s ∧
      (advertisements demoAddr trace).length = 2 ∧
        (Posting.posts (trace.filterMap postingObs)).map AdvertisementPayload.sequence = [0, 1] :=
    ⟨_, _, Lib.Machine.run_of_exec grazingEvents rfl, rfl, rfl⟩
  obtain ⟨trace, s, hrun, hcount, hposts⟩ := hrun
  exact ⟨_, hposts, (@posts_sighted grazing _ _ demoAddr Air.cow rfl hrun).2 (by omega)⟩

end AssetTracker.Link.HttpScanner

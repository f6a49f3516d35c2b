import AssetTracker.Gateway.Progress
import AssetTracker.Link.Arrival

/-! That the board goes on building updates, whatever has happened to it before: when there is a fix, a
network and a backend again, it needs nobody else. -/
namespace AssetTracker.Link.Tracker
open Bounded Lib Gateway Wire

variable {p : Scanner.Platform} {cfg : Updates.Config} {s s' : State} {obs trace : List Obs}

/-- The steps of the board while nothing goes wrong; no tag need be heard. -/
def Event.Smooth : Event → Prop
  | .gateway e => e.Smooth
  | e => e.Own

def Builds (_ : State) (obs : List Obs) : Prop :=
  ∃ clock update, .gateway clock (.built update) ∈ obs

theorem Builds.after {earlier obs : List Obs} (h : Builds s obs) : Builds s (obs ++ earlier) := by
  obtain ⟨clock, update, hmem⟩ := h
  exact ⟨clock, update, List.mem_append_left _ hmem⟩

theorem gateway_step {e : Updates.Event} (he : e.Smooth) {gateway : Updates.State}
    {obs : List Updates.Obs} (h : Updates.step cfg s.gateway e = some (gateway, obs)) :
    ∃ s' obs', (tracker p cfg).step s (.gateway e) = some (s', obs') ∧ s'.gateway = gateway ∧
      obs'.filterMap gatewayObs = obs := by
  have hgateway : (tracker p cfg).step s (.gateway e) = gatewayStep cfg s e := by
    cases e with
    | decoded tags => exact absurd he id
    | _ => rfl
  rw [hgateway, gatewayStep, h]
  by_cases hr : (!s.gateway.uartRequest && gateway.uartRequest) = true
  · refine ⟨_, _, if_pos hr, rfl, ?_⟩
    rw [List.filterMap_cons_none rfl, gatewayObs_gateway]
  · exact ⟨_, _, if_neg hr, rfl, gatewayObs_gateway s.gateway.clock obs⟩

theorem mem_gatewayObs {obs : List Obs} {update : GatewayUpdate}
    (h : .built update ∈ obs.filterMap gatewayObs) : Builds s obs := by
  obtain ⟨o, hmem, ho⟩ := List.mem_filterMap.mp h
  cases o with
  | gateway clock o =>
    cases ho
    exact ⟨clock, update, hmem⟩
  | _ => cases ho

theorem board_asks (h : (tracker p cfg).Run trace s)
    (hp : ∀ location tags instant, s.gateway.phase ≠ .connecting location tags instant) :
    (tracker p cfg).Reaches Event.Smooth (fun s' _ => Updates.Asking s'.gateway) s := by
  refine Machine.Reaches.lifted (f := State.gateway) (g := gatewayObs) ?_
    (Updates.asks_again (run_gateway h) hp)
  intro s e gateway obs he hstep
  obtain ⟨s', obs', hboard, hgateway⟩ := gateway_step (p := p) he hstep
  exact ⟨.gateway e, s', obs', hboard, he, hgateway⟩

theorem connecting_builds {location : Option Location} {tags : TagsSeen} {instant : Nat}
    (hp : s.gateway.phase = .connecting location tags instant) (hle : instant ≤ s.gateway.clock)
    (hok : ¬ Updates.Overflows cfg s.gateway tags instant) :
    (tracker p cfg).Reaches Event.Smooth Builds s := by
  have hsmooth : (Updates.Event.linkUp true).Smooth := rfl
  obtain ⟨update, hlink⟩ := Updates.linkUp_builds hp hle hok
  obtain ⟨s', obs, hstep, _, hobs⟩ := gateway_step (p := p) hsmooth hlink
  have hbuilt : .built update ∈ obs.filterMap gatewayObs := hobs ▸ List.mem_cons_self
  exact Machine.Reaches.step (.done (mem_gatewayObs hbuilt)) hstep hsmooth

/-- Tags that have just arrived are not too old, however old they are. -/
theorem asking_builds (h : (tracker p cfg).Run trace s) (ha : Updates.Asking s.gateway) :
    (tracker p cfg).Reaches Event.Smooth Builds s := by
  obtain ⟨location, hp⟩ := ha
  have harrives : (tracker p cfg).Reaches Event.Smooth
      (fun s' _ => ∃ tags, s'.gateway = (Updates.afterDecoded location tags s.gateway).1) s := by
    refine (tags_arrive h hp).mono ?_ fun _ _ hgoal => hgoal
    intro e he
    cases e with
    | gateway e => exact absurd he id
    | _ => exact he
  refine harrives.andThen ?_ Builds.after
  intro s₁ obs hs
  obtain ⟨tags, hs⟩ := hs
  have hp₁ : s₁.gateway.phase = .connecting location tags s.gateway.clock := by
    rw [hs]
    rfl
  have hclock : s₁.gateway.clock = s.gateway.clock := by
    rw [hs]
    rfl
  have hok : ¬ Updates.Overflows cfg s₁.gateway tags s.gateway.clock := by
    intro hover
    obtain ⟨_, tag, _, hlt⟩ := hover
    have hage := tag.age.toNat_lt
    rw [hclock, Nat.sub_self, Nat.zero_div] at hlt
    omega
  exact connecting_builds hp₁ hclock.ge hok

theorem builds_again (h : (tracker p cfg).Run trace s) (hok : ¬ Updates.Doomed cfg s.gateway) :
    (tracker p cfg).Reaches Event.Smooth Builds s := by
  by_cases hp : ∃ location tags instant, s.gateway.phase = .connecting location tags instant
  · obtain ⟨location, tags, instant, hp⟩ := hp
    have hle := (Updates.cycleInv_run (run_gateway h)).decoded location tags instant hp
    refine connecting_builds hp hle ?_
    intro hover
    exact hok ⟨location, tags, instant, hp, hover⟩
  · have hp' : ∀ location tags instant, s.gateway.phase ≠ .connecting location tags instant := by
      intro location tags instant hc
      exact hp ⟨location, tags, instant, hc⟩
    exact ((board_asks h hp').reachable h).andThen (fun _ _ hs => asking_builds hs.2 hs.1)
      Builds.after

/-- Nothing at all can make a doomed board build another update. -/
theorem doomed_step (h : (tracker p cfg).Run trace s) (hd : Updates.Doomed cfg s.gateway) {e : Event}
    (hstep : (tracker p cfg).step s e = some (s', obs)) :
    Updates.Doomed cfg s'.gateway ∧
      ∀ o ∈ obs, ∀ clock update, o ≠ .gateway clock (.built update) := by
  obtain ⟨es, hes⟩ := effect_gateway (effect_of_step hstep)
  obtain ⟨hd', hobs⟩ := Machine.exec_invariant (P := Updates.Doomed cfg)
    (Q := fun o => ∀ update, o ≠ .built update)
    (fun h hd hstep => Updates.doomed_step h hd hstep) (run_gateway h) hd hes
  refine ⟨hd', ?_⟩
  intro o ho clock update heq
  rw [heq] at ho
  exact hobs _ (List.mem_filterMap.mpr ⟨_, ho, rfl⟩) update rfl

/-- The board never wedges but in one way: from a reachable state it can go on to build another update,
given a fix, a network and a backend, exactly when it has no tags in hand of which one became too old
for a build that checks for it. -/
theorem builds_again_iff (h : (tracker p cfg).Run trace s) :
    (tracker p cfg).Reaches Event.Smooth Builds s ↔ ¬ Updates.Doomed cfg s.gateway := by
  constructor
  · intro hreaches hd
    obtain ⟨es, s', obs, hexec, _, clock, update, hmem⟩ := hreaches
    have hnone := (Machine.exec_invariant (P := fun s => Updates.Doomed cfg s.gateway)
      (Q := fun o => ∀ clock update, o ≠ .gateway clock (.built update))
      (fun h hd hstep => doomed_step h hd hstep) h hd hexec).2
    exact hnone _ hmem clock update rfl
  · exact builds_again h

/- The gateway listens, finds noise on the line, and builds an update all the same. -/
theorem builds_again_noise : ∃ trace s,
    (tracker Scanner.demoPlatform (Updates.sampleConfig .mqtt)).Run (.disturbed :: trace) s ∧
    (tracker Scanner.demoPlatform (Updates.sampleConfig .mqtt)).Reaches Event.Smooth Builds s := by
  have hrun : ∃ trace s location,
      (tracker Scanner.demoPlatform (Updates.sampleConfig .mqtt)).Run (.disturbed :: trace) s ∧
        s.gateway.phase = .receiving location :=
    ⟨_, _, _, Machine.run_of_exec [.gateway .booted, .gateway (.tick 900), .gateway .timer,
      .gateway (.reading Updates.sampleReading), .disturb [7, 0, 9]] rfl, rfl⟩
  obtain ⟨trace, s, location, hrun, hp⟩ := hrun
  refine ⟨trace, s, hrun, (builds_again_iff hrun).mpr ?_⟩
  intro hd
  obtain ⟨_, _, _, hconnecting, _⟩ := hd
  cases hp.symm.trans hconnecting

end AssetTracker.Link.Tracker

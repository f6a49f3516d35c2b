import AssetTracker.Link.Field
import AssetTracker.Link.Freshness

/-! All parties of the CoAP deployment: the tags in the air, the board, and the proxy in front of the
backend. The task of the gateway that builds an update calls `send_update` with it, and goes on when the
call returns. -/
namespace AssetTracker.Link.Deployment
open Bounded Scanner Advertiser Gateway Proxy

structure Settings where
  surroundings : Air.Surroundings
  gateway : Updates.Config
  proxy : CoapExchange.Settings

def Settings.coap (c : Settings) : Updates.Config := { c.gateway with backend := .coap }

structure State where
  field : Field.State
  exchange : CoapExchange.State

/-- An update without its coordinates: how they are rounded is left open. -/
def placeless (update : GatewayUpdate) : GatewayUpdate :=
  { update with location := update.location.map fun l => { zeroLocation with timeOfFix := l.timeOfFix } }

/-- `update` is what the gateway builds in the step, if it builds an update, as it is in memory. -/
inductive Event where
  | field (e : Field.Event) (update : RawUpdate)
  | exchange (e : CoapExchange.Event)

inductive Obs where
  | field (o : Field.Obs)
  | exchange (o : CoapExchange.Obs)

def gatewayObs : Field.Obs → Option Updates.Obs
  | .board (.gateway _ o) => some o
  | _ => none

def built? : Updates.Obs → Option GatewayUpdate
  | .built update => some update
  | _ => none

def builds (obs : List Field.Obs) : List GatewayUpdate := (obs.filterMap gatewayObs).filterMap built?

def ofReturn : Field.Event → Bool
  | .board (.gateway (.sent _)) => true
  | _ => false

def ofCall : CoapExchange.Event → Bool
  | .sender (.sendUpdate _) => true
  | _ => false

def returned : Coap.Sender RawUpdate → Bool
  | .idle => true
  | _ => false

def fieldStep (c : Settings) (s : State) (e : Field.Event) (update : RawUpdate) :
    Option (State × List Obs) := do
  let (field, obs) ← Field.step c.surroundings c.coap s.field e
  match builds obs with
  | [] => pure ({ s with field := field }, obs.map .field)
  | u :: _ =>
    if placeless u = placeless update.value then
      let (exchange, obs') := CoapExchange.senderStep s.exchange (.sendUpdate update)
      pure (⟨field, exchange⟩, obs'.map .exchange ++ obs.map .field)
    else pure (s, [])

def step (c : Settings) (s : State) : Event → Option (State × List Obs)
  | .field e update =>
    if ofReturn e && !returned s.exchange.coap.sender then some (s, [])
    else fieldStep c s e update
  | .exchange e =>
    if ofCall e then some (s, [])
    else
      let (exchange, obs) := CoapExchange.step c.proxy s.exchange e
      some ({ s with exchange := exchange }, obs.map .exchange)

def deployment (c : Settings) : Lib.Machine State Event Obs where
  init := ⟨(Field.field c.surroundings c.coap).init, (CoapExchange.exchange c.proxy).init⟩
  step := step c

def fieldObs : Obs → Option Field.Obs
  | .field o => some o
  | .exchange _ => none

def exchangeObs : Obs → Option CoapExchange.Obs
  | .exchange o => some o
  | .field _ => none

def advertisements (addr : BdAddr) (trace : List Obs) : List Advertised :=
  Field.advertisements addr (trace.filterMap fieldObs)

inductive Effect (c : Settings) (s : State) : State → List Obs → Prop where
  | idle : Effect c s s []
  | moved {field : Field.State} {obs : List Field.Obs} (e : Field.Event)
      (hreturn : ofReturn e = true → s.exchange.coap.sender = .idle)
      (h : Field.step c.surroundings c.coap s.field e = some (field, obs))
      (hbuilt : builds obs = []) :
      Effect c s { s with field := field } (obs.map .field)
  | built {field : Field.State} {obs : List Field.Obs} (e : Field.Event) (u : GatewayUpdate)
      (others : List GatewayUpdate) (update : RawUpdate)
      (h : Field.step c.surroundings c.coap s.field e = some (field, obs))
      (hbuilt : builds obs = u :: others) (hu : placeless u = placeless update.value) :
      Effect c s ⟨field, (CoapExchange.senderStep s.exchange (.sendUpdate update)).1⟩
        ((CoapExchange.senderStep s.exchange (.sendUpdate update)).2.map .exchange ++
          obs.map .field)
  | exchanged {exchange : CoapExchange.State} {obs : List CoapExchange.Obs} (e : CoapExchange.Event)
      (he : ofCall e = false) (h : CoapExchange.step c.proxy s.exchange e = (exchange, obs)) :
      Effect c s { s with exchange := exchange } (obs.map .exchange)

variable {c : Settings} {s s' : State} {obs trace : List Obs}

theorem fieldStep_effect {e : Field.Event} {update : RawUpdate}
    (hreturn : ofReturn e = true → s.exchange.coap.sender = .idle)
    (h : fieldStep c s e update = some (s', obs)) : Effect c s s' obs := by
  obtain ⟨r, hr, h⟩ := Option.bind_eq_some_iff.mp h
  cases hbuilt : builds r.2 with
  | nil =>
    simp only [hbuilt] at h
    cases h
    exact .moved e hreturn hr hbuilt
  | cons u others =>
    simp only [hbuilt] at h
    by_cases hu : placeless u = placeless update.value
    · rw [if_pos hu] at h
      cases h
      exact .built e u others update hr hbuilt hu
    · rw [if_neg hu] at h
      cases h
      exact .idle

theorem effect_of_step {e : Event} (h : step c s e = some (s', obs)) : Effect c s s' obs := by
  cases e with
  | field e update =>
    by_cases hwait : (ofReturn e && !returned s.exchange.coap.sender) = true
    · rw [step, if_pos hwait] at h
      cases h
      exact .idle
    · rw [step, if_neg hwait] at h
      refine fieldStep_effect ?_ h
      intro hreturn
      cases hs : s.exchange.coap.sender with
      | idle => rfl
      | _ => simp [hreturn, hs, returned] at hwait
  | exchange e =>
    cases he : ofCall e with
    | true =>
      rw [step, if_pos he] at h
      cases h
      exact .idle
    | false =>
      rw [step, he] at h
      cases h
      exact .exchanged e he rfl

theorem fieldObs_field (obs : List Field.Obs) : (obs.map Obs.field).filterMap fieldObs = obs := by
  rw [List.filterMap_map]
  exact List.filterMap_some

theorem fieldObs_exchange (obs : List CoapExchange.Obs) :
    (obs.map Obs.exchange).filterMap fieldObs = [] := by
  simp [fieldObs, List.filterMap_map]

theorem run_field (h : (deployment c).Run trace s) :
    (Field.field c.surroundings c.coap).Run (trace.filterMap fieldObs) s.field := by
  refine Lib.Machine.Run.projected (M := deployment c) (f := State.field) rfl ?_ h
  intro s e s' obs hstep
  cases effect_of_step hstep with
  | idle => exact ⟨[], rfl⟩
  | moved e hreturn h hbuilt =>
    rw [fieldObs_field]
    exact ⟨[e], Lib.Machine.exec_single h⟩
  | built e u others update h hbuilt hu =>
    rw [List.filterMap_append, fieldObs_exchange, fieldObs_field, List.nil_append]
    exact ⟨[e], Lib.Machine.exec_single h⟩
  | exchanged e he h =>
    rw [fieldObs_exchange]
    exact ⟨[], rfl⟩

section Gateway
variable {cfg : Updates.Config} {g g' : Updates.State} {o : List Updates.Obs} {e : Updates.Event}

end Gateway

theorem gatewayObs_gateway (clock : Nat) (o : List Updates.Obs) :
    ((o.map (Tracker.Obs.gateway clock)).map Field.Obs.board).filterMap gatewayObs = o := by
  rw [List.map_map, List.filterMap_map]
  exact List.filterMap_some

theorem gatewayObs_scanner (o : List Scanner.Obs) :
    ((o.map Tracker.Obs.scanner).map Field.Obs.board).filterMap gatewayObs = [] := by
  simp [gatewayObs, List.filterMap_map]

theorem gatewayObs_ofAir (o : List Air.Obs) : (o.map Field.ofAir).filterMap gatewayObs = [] := by
  induction o with
  | nil => rfl
  | cons o os ih => cases o <;> exact ih

theorem field_gateway {f f' : Field.State} {o : List Field.Obs} {e : Field.Event}
    {w : Air.Surroundings} {cfg : Updates.Config} (h : Field.step w cfg f e = some (f', o)) :
    (f'.board.gateway = f.board.gateway ∧ o.filterMap gatewayObs = []) ∨
      ∃ e', (ofReturn e = false → ∀ result, e' ≠ .sent result) ∧
        Updates.step cfg f.board.gateway e' = some (f'.board.gateway, o.filterMap gatewayObs) := by
  cases Field.effect_of_step h with
  | idle e => exact .inl ⟨rfl, rfl⟩
  | air e he h => exact .inl ⟨rfl, gatewayObs_ofAir _⟩
  | board e he hboard =>
    cases Tracker.effect_of_step hboard with
    | scanned e hframe h => exact .inl ⟨rfl, gatewayObs_scanner _⟩
    | wrote rest n hw => exact .inl ⟨(Tracker.writeStep_programs f.board n).2, rfl⟩
    | gateway e hne hgateway hr =>
      refine .inr ⟨e, ?_, ?_⟩
      · intro hreturn result heq
        rw [heq] at hreturn
        cases hreturn
      · rw [gatewayObs_gateway]
        exact hgateway
    | listening e hne hgateway hr hr' =>
      refine .inr ⟨e, ?_, ?_⟩
      · intro hreturn result heq
        rw [heq] at hreturn
        cases hreturn
      · rw [List.map_cons, List.filterMap_cons_none rfl, gatewayObs_gateway]
        exact hgateway
    | decoded n read tags hr hread hi hgateway =>
      refine .inr ⟨.decoded tags, by simp, ?_⟩
      rw [List.map_append, List.filterMap_append, gatewayObs_gateway, List.map_cons,
        List.filterMap_cons_none rfl]
      simpa using hgateway
    | _ => exact .inl ⟨rfl, rfl⟩

theorem uncalled_obs {x : CoapExchange.State} {e : CoapExchange.Event} (he : ofCall e = false)
    (update : RawUpdate) : .gateway (.stored update) ∉ (CoapExchange.step c.proxy x e).2 := by
  cases e with
  | sender e =>
    cases e with
    | sendUpdate update => cases he
    | read =>
      cases hw : x.coap.updateRead.wait <;> cases hs : x.coap.sender <;>
        simp [CoapExchange.step, CoapExchange.senderStep, Coap.senderStep, hs, hw]
    | _ =>
      cases hs : x.coap.sender <;>
        simp [CoapExchange.step, CoapExchange.senderStep, Coap.senderStep, hs]
  | reply ping reply =>
    simp only [CoapExchange.step]
    split_ifs
    · cases hs : x.coap.sender <;> simp [CoapExchange.replyStep, hs]
    · simp
  | get handler =>
    simp only [CoapExchange.step]
    split_ifs
    · cases hs : x.coap.handlers handler <;> simp [CoapExchange.getStep, Coap.getStep, hs]
    · simp
  | post ping contextSet =>
    simp only [CoapExchange.step]
    split_ifs
    · cases contextSet <;> simp [CoapExchange.postStep]
    · simp
  | finish session backend =>
    cases hs : x.sessions session <;> simp [CoapExchange.step, CoapExchange.finishStep, hs]
  | raised session e => simp [CoapExchange.step]
  | _ =>
    simp only [CoapExchange.step]
    split_ifs <;> simp

def stored (trace : List Obs) : List RawUpdate :=
  CoapExchange.history (trace.filterMap exchangeObs)

theorem builds_mem {o : List Field.Obs} {update : GatewayUpdate} (h : update ∈ builds o) :
    ∃ clock, .board (.gateway clock (.built update)) ∈ o := by
  obtain ⟨u, hu, hbuilt⟩ := List.mem_filterMap.mp h
  obtain ⟨o', ho', hgateway⟩ := List.mem_filterMap.mp hu
  cases u with
  | built u =>
    cases hbuilt
    cases o' with
    | advertised addr a => cases hgateway
    | board o' =>
      cases o' with
      | gateway clock o' =>
        cases hgateway
        exact ⟨clock, ho'⟩
      | _ => cases hgateway
  | _ => cases hbuilt

/- The cow of the pasture, from its first round to the POST. -/
def grazingUpdate : RawUpdate where
  gatewayId := (Updates.sampleConfig .coap).deviceId
  timestamp := 1750000000
  detectedTags := Field.grazingTags.tags
  batteryLevel := some 100
  location := some ⟨0, 0, 0, 0, 0, 0, 1750000000⟩

def grazing : Settings := ⟨Air.pasture, Updates.sampleConfig .coap, CoapExchange.quietSettings⟩

def grazingEvents : List Event :=
  (Field.grazingEvents.map fun e => .field e grazingUpdate) ++
    [.exchange (.sender .reset), .exchange (.post 1 true), .exchange (.getStatus 0),
      .exchange (.get 0), .exchange (.get 0),
      .exchange (.status 0 ⟨codeContent, payload grazingUpdate⟩),
      .exchange (.finish 0 CoapExchange.acceptingBackend)]

def grazingTrace (u : GatewayUpdate) : List Obs :=
  [.exchange (.gateway (.responded 0 (.ok grazingUpdate))), .exchange (.gateway (.signalled 0)),
    .exchange (.rendered 0 1 true), .exchange (.gateway (.stored grazingUpdate)),
    .field (.board (.gateway 900 (.built u)))] ++ Field.grazingTrace.map .field

section Exchange
variable {before older : List CoapExchange.Obs} {update update' : RawUpdate} {m m' : Nat}

end Exchange

variable {addr : BdAddr} {name : BString 17}

theorem advertisements_suffix {older : List Obs} (h : older <:+ trace) :
    advertisements addr older <:+ advertisements addr trace :=
  Field.advertisements_suffix (h.filterMap fieldObs)

/-- The undisturbed serial line of the board. -/
def Undisturbed (trace : List Obs) : Prop :=
  Tracker.Undisturbed ((trace.filterMap fieldObs).filterMap Field.boardObs)

end AssetTracker.Link.Deployment

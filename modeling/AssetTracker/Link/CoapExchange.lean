import AssetTracker.Gateway.Coap
import AssetTracker.Proxy.Payload

/-! The way of an update over CoAP. The gateway stores it and pings the proxy; the proxy asks for the
status of the gateway that pinged it, posts what it gets to the backend, and only then answers the ping.
A message, once sent, may arrive at any time, more than once, or never, and any number of pings are
handled at once. The gateway's own steps are those of `coap`. -/
namespace AssetTracker.Link.CoapExchange
open Gateway Proxy

/- 5.03. -/
def codeServiceUnavailable : Code := 163

deriving instance DecidableEq for CoapResponse

/-- Pings are numbered by the call of `send_update` that sends them, requests for the status by the
session that waits for the response. -/
inductive Message where
  | post (ping : Nat)
  | getStatus (session : Nat)
  | status (session : Nat) (response : CoapResponse)
  | reply (ping : Nat) (reply : Reply)
deriving DecidableEq

/-- The handling of one ping, in `render_post`. -/
inductive Session where
  | unused
  | requesting (ping : Nat)
  | answered (ping : Nat) (response : Except PyException CoapResponse)
  | done

/-- The settings of the proxy, and its reader of CBOR. -/
structure Settings where
  bearerToken : Option String
  backendEndpoint : Option String
  cborLoads : List UInt8 → Except PyException Decoded

/-- What a session meets behind the response: the log and the backend. -/
structure Backend where
  jsonDumps : PyValue → Except PyException Unit
  post : String → String → PyValue → Except PyException Nat

/-- `sent` holds every message ever sent; `origin` is the session whose request a handler serves, and
`pingOf` the ping a session handles. -/
structure State where
  coap : Coap.State RawUpdate
  ping : Nat
  sent : List Message
  begun : Nat
  origin : Nat → Nat
  opened : Nat
  pingOf : Nat → Nat
  sessions : Nat → Session

/-- The steps of the sender, with `registered` for a registration that ends without a reply, and the
arrival of messages and the steps of what handles them. -/
inductive Event where
  | sender (e : Coap.SenderEvent RawUpdate)
  | reply (ping : Nat) (reply : Reply)
  | getStatus (session : Nat)
  | get (handler : Nat)
  | post (ping : Nat) (contextSet : Bool)
  | status (session : Nat) (response : CoapResponse)
  | raised (session : Nat) (e : PyException)
  | finish (session : Nat) (backend : Backend)

inductive Obs where
  | gateway (o : Coap.Obs RawUpdate)
  | registered (ping : Nat) (reply : Reply)
  | rendered (session ping : Nat) (contextSet : Bool)
  | posted (session ping : Nat) (body : PyValue)

def statusResponse : Except Coap.Error RawUpdate → CoapResponse
  | .ok update => ⟨codeContent, payload update⟩
  | .error .serviceUnavailable => ⟨codeServiceUnavailable, []⟩

def pingRecord (settings : Settings) (response : Except PyException CoapResponse) (b : Backend) :
    Ping where
  contextSet := true
  bearerToken := settings.bearerToken
  backendEndpoint := settings.backendEndpoint
  response := response
  cborLoads := settings.cborLoads
  jsonDumps := b.jsonDumps
  post := b.post

/-- The POST is sent as soon as the signal is reset. -/
def senderStep (s : State) (e : Coap.SenderEvent RawUpdate) : State × List Obs :=
  let r := Coap.senderStep s.coap e
  match e, s.coap.sender with
  | .sendUpdate _, .idle => ({ s with coap := r.1, ping := s.ping + 1 }, r.2.map .gateway)
  | .reset, .stored _ => ({ s with coap := r.1, sent := .post s.ping :: s.sent }, r.2.map .gateway)
  | _, _ => ({ s with coap := r.1 }, r.2.map .gateway)

/-- The request of a call that is over has been dropped, so only the reply to the running one counts. -/
def replyStep (s : State) (reply : Reply) : State × List Obs :=
  match s.coap.sender with
  | .registering _ =>
    ({ s with coap := (Coap.senderStep s.coap .registered).1 }, [.registered s.ping reply])
  | _ => (s, [])

/-- The response of a handler goes to the session it serves. -/
def getStep (s : State) (handler : Nat) : State × List Obs :=
  let r := Coap.getStep s.coap handler
  match s.coap.handlers handler with
  | .signalled =>
    ({ s with coap := r.1,
              sent := .status (s.origin handler)
                (statusResponse (Coap.okOr s.coap.lastUpdate .serviceUnavailable)) :: s.sent },
      r.2.map .gateway)
  | _ => ({ s with coap := r.1 }, r.2.map .gateway)

/-- Without a context nothing is requested, and the ping is answered at once. -/
def postStep (s : State) (ping : Nat) (contextSet : Bool) : State × List Obs :=
  let s' := { s with opened := s.opened + 1, pingOf := Function.update s.pingOf s.opened ping }
  if contextSet then
    ({ s' with sessions := Function.update s.sessions s.opened (.requesting ping),
               sent := .getStatus s.opened :: s.sent }, [.rendered s.opened ping true])
  else
    ({ s' with sessions := Function.update s.sessions s.opened .done,
               sent := .reply ping okReply :: s.sent }, [.rendered s.opened ping false])

def answerStep (s : State) (session : Nat) (response : Except PyException CoapResponse) : State :=
  match s.sessions session with
  | .requesting ping =>
    { s with sessions := Function.update s.sessions session (.answered ping response) }
  | _ => s

def finishStep (settings : Settings) (s : State) (session : Nat) (backend : Backend) :
    State × List Obs :=
  match s.sessions session with
  | .answered ping response =>
    let record := pingRecord settings response backend
    ({ s with sessions := Function.update s.sessions session .done,
              sent := .reply ping (renderPost record) :: s.sent },
      ((bodyToPost record).map fun body => .posted session ping body).toList)
  | _ => (s, [])

/-- Only what was sent arrives. -/
def step (settings : Settings) (s : State) : Event → State × List Obs
  | .sender e => senderStep s e
  | .reply ping reply =>
    if .reply ping reply ∈ s.sent ∧ ping = s.ping then replyStep s reply else (s, [])
  | .getStatus session =>
    if .getStatus session ∈ s.sent then
      ({ s with begun := s.begun + 1, origin := Function.update s.origin s.begun session }, [])
    else (s, [])
  | .get handler => if handler < s.begun then getStep s handler else (s, [])
  | .post ping contextSet =>
    if .post ping ∈ s.sent then postStep s ping contextSet else (s, [])
  | .status session response =>
    if .status session response ∈ s.sent then (answerStep s session (.ok response), []) else (s, [])
  | .raised session e => (answerStep s session (.error e), [])
  | .finish session backend => finishStep settings s session backend

def exchange (settings : Settings) : Lib.Machine State Event Obs where
  init := ⟨(Coap.coap RawUpdate).init, 0, [], 0, fun _ => 0, 0, fun _ => 0, fun _ => .unused⟩
  step s e := some (step settings s e)

inductive Effect (settings : Settings) (s : State) : State → List Obs → Prop where
  | idle : Effect settings s s []
  | stored (update : RawUpdate) (hs : s.coap.sender = .idle) :
      Effect settings s
        { s with coap := { s.coap with lastUpdate := some update, sender := .stored update },
                 ping := s.ping + 1 } [.gateway (.stored update)]
  | reset (update : RawUpdate) (hs : s.coap.sender = .stored update) :
      Effect settings s
        { s with coap := { s.coap with updateRead := s.coap.updateRead.reset,
                                       sender := .registering update },
                 sent := .post s.ping :: s.sent } []
  | timedOut (update : RawUpdate) (hs : s.coap.sender = .registering update) :
      Effect settings s { s with coap := { s.coap with sender := .waiting update } } []
  | registered (update : RawUpdate) (reply : Reply) (hs : s.coap.sender = .registering update)
      (hm : .reply s.ping reply ∈ s.sent) :
      Effect settings s { s with coap := { s.coap with sender := .waiting update } }
        [.registered s.ping reply]
  | waited (update : RawUpdate) (coap : Coap.State RawUpdate) (o : Coap.Obs RawUpdate)
      (ho : o = .read update ∨ o = .timedOut update) (hlast : coap.lastUpdate = s.coap.lastUpdate)
      (hhandlers : coap.handlers = s.coap.handlers) (hs : s.coap.sender = .waiting update)
      (hs' : coap.sender = .transferring update) :
      Effect settings s { s with coap := coap } [.gateway o]
  | transferred : Effect settings s { s with coap := { s.coap with sender := .idle } } []
  | begun (session : Nat) (hm : .getStatus session ∈ s.sent) :
      Effect settings s
        { s with begun := s.begun + 1, origin := Function.update s.origin s.begun session } []
  | signalled (handler : Nat) (hh : handler < s.begun) :
      Effect settings s
        { s with coap := { s.coap with
            updateRead := s.coap.updateRead.signal true,
            handlers := Function.update s.coap.handlers handler .signalled } }
        [.gateway (.signalled handler)]
  | responded (handler : Nat) (hh : handler < s.begun) (hs : s.coap.handlers handler = .signalled) :
      Effect settings s
        { s with coap := { s.coap with
                   handlers := Function.update s.coap.handlers handler .done },
                 sent := .status (s.origin handler)
                   (statusResponse (Coap.okOr s.coap.lastUpdate .serviceUnavailable)) :: s.sent }
        [.gateway (.responded handler (Coap.okOr s.coap.lastUpdate .serviceUnavailable))]
  | rendered (ping : Nat) (hm : .post ping ∈ s.sent) :
      Effect settings s
        { s with opened := s.opened + 1, pingOf := Function.update s.pingOf s.opened ping,
                 sessions := Function.update s.sessions s.opened (.requesting ping),
                 sent := .getStatus s.opened :: s.sent } [.rendered s.opened ping true]
  | unset (ping : Nat) (hm : .post ping ∈ s.sent) :
      Effect settings s
        { s with opened := s.opened + 1, pingOf := Function.update s.pingOf s.opened ping,
                 sessions := Function.update s.sessions s.opened .done,
                 sent := .reply ping okReply :: s.sent } [.rendered s.opened ping false]
  | answered (session ping : Nat) (response : Except PyException CoapResponse)
      (hs : s.sessions session = .requesting ping)
      (hm : ∀ r, response = .ok r → .status session r ∈ s.sent) :
      Effect settings s
        { s with sessions := Function.update s.sessions session (.answered ping response) } []
  | finished (session ping : Nat) (response : Except PyException CoapResponse) (backend : Backend)
      (hs : s.sessions session = .answered ping response) :
      Effect settings s
        { s with sessions := Function.update s.sessions session .done,
                 sent := .reply ping (renderPost (pingRecord settings response backend)) ::
                   s.sent }
        ((bodyToPost (pingRecord settings response backend)).map
          fun body => .posted session ping body).toList

variable {settings : Settings} {s s' : State} {obs trace : List Obs}

theorem senderStep_effect (s : State) (e : Coap.SenderEvent RawUpdate) :
    Effect settings s (senderStep s e).1 (senderStep s e).2 := by
  cases e with
  | sendUpdate update =>
    cases hs : s.coap.sender with
    | idle => simpa [senderStep, Coap.senderStep, hs] using Effect.stored update hs
    | _ => simpa [senderStep, Coap.senderStep, hs] using Effect.idle
  | reset =>
    cases hs : s.coap.sender with
    | stored update => simpa [senderStep, Coap.senderStep, hs] using Effect.reset update hs
    | _ => simpa [senderStep, Coap.senderStep, hs] using Effect.idle
  | registered =>
    cases hs : s.coap.sender with
    | registering update => simpa [senderStep, Coap.senderStep, hs] using Effect.timedOut update hs
    | _ => simpa [senderStep, Coap.senderStep, hs] using Effect.idle
  | read =>
    cases hw : s.coap.updateRead.wait with
    | none => cases hs : s.coap.sender <;>
        simpa [senderStep, Coap.senderStep, hs, hw] using Effect.idle
    | some r =>
      cases hs : s.coap.sender with
      | waiting update =>
        simpa [senderStep, Coap.senderStep, hs, hw] using Effect.waited update
          { s.coap with updateRead := r.2, sender := .transferring update } (.read update) (.inl rfl)
          rfl rfl hs rfl
      | _ => simpa [senderStep, Coap.senderStep, hs, hw] using Effect.idle
  | timeout =>
    cases hs : s.coap.sender with
    | waiting update =>
      simpa [senderStep, Coap.senderStep, hs] using Effect.waited update
        { s.coap with sender := .transferring update } (.timedOut update) (.inr rfl) rfl rfl hs rfl
    | _ => simpa [senderStep, Coap.senderStep, hs] using Effect.idle
  | transferred =>
    cases hs : s.coap.sender with
    | transferring update => simpa [senderStep, Coap.senderStep, hs] using Effect.transferred
    | _ => simpa [senderStep, Coap.senderStep, hs] using Effect.idle

theorem replyStep_effect {reply : Reply} (hm : .reply s.ping reply ∈ s.sent) :
    Effect settings s (replyStep s reply).1 (replyStep s reply).2 := by
  cases hs : s.coap.sender with
  | registering update =>
    simpa [replyStep, Coap.senderStep, hs] using Effect.registered update reply hs hm
  | _ => simpa [replyStep, hs] using Effect.idle

theorem getStep_effect {handler : Nat} (hh : handler < s.begun) :
    Effect settings s (getStep s handler).1 (getStep s handler).2 := by
  cases hs : s.coap.handlers handler with
  | fresh => simpa [getStep, Coap.getStep, hs] using Effect.signalled handler hh
  | signalled => simpa [getStep, Coap.getStep, hs] using Effect.responded handler hh hs
  | done => simpa [getStep, Coap.getStep, hs] using Effect.idle

theorem answerStep_effect {session : Nat} {response : Except PyException CoapResponse}
    (hm : ∀ r, response = .ok r → .status session r ∈ s.sent) :
    Effect settings s (answerStep s session response) [] := by
  cases hs : s.sessions session with
  | requesting ping => simpa only [answerStep, hs] using Effect.answered session ping response hs hm
  | _ => simpa only [answerStep, hs] using Effect.idle

theorem step_effect (s : State) (e : Event) :
    Effect settings s (step settings s e).1 (step settings s e).2 := by
  cases e with
  | sender e => exact senderStep_effect s e
  | reply ping reply =>
    by_cases h : .reply ping reply ∈ s.sent ∧ ping = s.ping
    · obtain ⟨hm, rfl⟩ := h
      simpa only [step, hm, and_self, if_true] using replyStep_effect hm
    · simpa only [step, if_neg h] using Effect.idle
  | getStatus session =>
    by_cases h : .getStatus session ∈ s.sent
    · simpa only [step, if_pos h] using Effect.begun session h
    · simpa only [step, if_neg h] using Effect.idle
  | get handler =>
    by_cases h : handler < s.begun
    · simpa only [step, if_pos h] using getStep_effect h
    · simpa only [step, if_neg h] using Effect.idle
  | post ping contextSet =>
    by_cases h : .post ping ∈ s.sent
    · cases contextSet with
      | false => simpa [step, h, postStep] using Effect.unset ping h
      | true => simpa [step, h, postStep] using Effect.rendered ping h
    · simpa only [step, if_neg h] using Effect.idle
  | status session response =>
    by_cases h : .status session response ∈ s.sent
    · have hm : ∀ r, Except.ok (ε := PyException) response = .ok r → .status session r ∈ s.sent := by
        intro r hr
        cases hr
        exact h
      simpa only [step, if_pos h] using answerStep_effect hm
    · simpa only [step, if_neg h] using Effect.idle
  | raised session e =>
    exact answerStep_effect (by simp)
  | finish session backend =>
    cases hs : s.sessions session with
    | answered ping response =>
      simpa only [step, finishStep, hs] using Effect.finished session ping response backend hs
    | _ => simpa only [step, finishStep, hs] using Effect.idle

theorem effect_of_step {e : Event} (h : (exchange settings).step s e = some (s', obs)) :
    Effect settings s s' obs := by
  have heff : Effect settings s _ _ := step_effect s e
  rw [show step settings s e = (s', obs) from Option.some.inj h] at heff
  exact heff

def gatewayObs : Obs → Option (Coap.Obs RawUpdate)
  | .gateway o => some o
  | _ => none

theorem filterMap_gateway (obs : List (Coap.Obs RawUpdate)) :
    (obs.map Obs.gateway).filterMap gatewayObs = obs := by
  rw [List.filterMap_map]
  exact List.filterMap_some

theorem exec_senderStep (s : State) (e : Coap.SenderEvent RawUpdate) :
    ∃ es, (Coap.coap RawUpdate).exec s.coap es =
      some ((senderStep s e).1.coap, (senderStep s e).2.filterMap gatewayObs) := by
  have hsame : (senderStep s e).1.coap = (Coap.senderStep s.coap e).1 ∧
      (senderStep s e).2 = (Coap.senderStep s.coap e).2.map .gateway := by
    unfold senderStep
    split <;> exact ⟨rfl, rfl⟩
  rw [hsame.1, hsame.2, filterMap_gateway]
  exact ⟨[.sender e], Lib.Machine.exec_single rfl⟩

theorem exec_getStep (s : State) (handler : Nat) :
    ∃ es, (Coap.coap RawUpdate).exec s.coap es =
      some ((getStep s handler).1.coap, (getStep s handler).2.filterMap gatewayObs) := by
  have hsame : (getStep s handler).1.coap = (Coap.getStep s.coap handler).1 ∧
      (getStep s handler).2 = (Coap.getStep s.coap handler).2.map .gateway := by
    unfold getStep
    split <;> exact ⟨rfl, rfl⟩
  rw [hsame.1, hsame.2, filterMap_gateway]
  exact ⟨[.get handler], Lib.Machine.exec_single rfl⟩

theorem exec_replyStep (s : State) (reply : Reply) :
    ∃ es, (Coap.coap RawUpdate).exec s.coap es =
      some ((replyStep s reply).1.coap, (replyStep s reply).2.filterMap gatewayObs) := by
  cases hs : s.coap.sender with
  | registering update =>
    refine ⟨[.sender .registered], Lib.Machine.exec_single ?_⟩
    simp [Coap.coap, Coap.step, replyStep, Coap.senderStep, hs, gatewayObs]
  | _ => exact ⟨[], by simp [Lib.Machine.exec, replyStep, hs]⟩

theorem answerStep_coap (s : State) (session : Nat) (response : Except PyException CoapResponse) :
    (answerStep s session response).coap = s.coap := by
  unfold answerStep
  split <;> rfl

theorem exec_of_step (s : State) (e : Event) : ∃ es, (Coap.coap RawUpdate).exec s.coap es =
    some ((step settings s e).1.coap, (step settings s e).2.filterMap gatewayObs) := by
  cases e with
  | sender e => exact exec_senderStep s e
  | reply ping reply =>
    by_cases h : .reply ping reply ∈ s.sent ∧ ping = s.ping
    · simpa only [step, if_pos h] using exec_replyStep s reply
    · simp only [step, if_neg h]
      exact ⟨[], rfl⟩
  | getStatus session =>
    by_cases h : .getStatus session ∈ s.sent
    · simp only [step, if_pos h]
      exact ⟨[], rfl⟩
    · simp only [step, if_neg h]
      exact ⟨[], rfl⟩
  | get handler =>
    by_cases h : handler < s.begun
    · simpa only [step, if_pos h] using exec_getStep s handler
    · simp only [step, if_neg h]
      exact ⟨[], rfl⟩
  | post ping contextSet =>
    by_cases h : .post ping ∈ s.sent
    · cases contextSet with
      | false =>
        simp only [step, if_pos h]
        exact ⟨[], rfl⟩
      | true =>
        simp only [step, if_pos h]
        exact ⟨[], rfl⟩
    · simp only [step, if_neg h]
      exact ⟨[], rfl⟩
  | status session response =>
    by_cases h : .status session response ∈ s.sent
    · simp only [step, if_pos h, answerStep_coap]
      exact ⟨[], rfl⟩
    · simp only [step, if_neg h]
      exact ⟨[], rfl⟩
  | raised session e =>
    simp only [step, answerStep_coap]
    exact ⟨[], rfl⟩
  | finish session backend =>
    cases hs : s.sessions session with
    | answered ping response =>
      cases hb : bodyToPost (pingRecord settings response backend) <;>
      · simp only [step, finishStep, hs, hb]
        exact ⟨[], rfl⟩
    | _ =>
      simp only [step, finishStep, hs]
      exact ⟨[], rfl⟩

/-- Whatever the network and the proxy do, the gateway's part of a run is one of the gateway alone. -/
theorem run_coap (h : (exchange settings).Run trace s) :
    (Coap.coap RawUpdate).Run (trace.filterMap gatewayObs) s.coap := by
  refine Lib.Machine.Run.projected (M := exchange settings) (f := State.coap) rfl ?_ h
  intro s e s' obs hstep
  have hexec : ∃ es, (Coap.coap RawUpdate).exec s.coap es = some ((step settings s e).1.coap,
      (step settings s e).2.filterMap gatewayObs) := exec_of_step s e
  rw [show step settings s e = (s', obs) from Option.some.inj hstep] at hexec
  exact hexec

end AssetTracker.Link.CoapExchange

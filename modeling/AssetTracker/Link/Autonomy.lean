import AssetTracker.Link.Deployment
import AssetTracker.Link.Recovery

/-! That the gateway stores another update for CoAP by itself: neither the proxy nor any message under
way to or from it keeps the board from going on. -/
namespace AssetTracker.Link.Deployment
open Bounded Lib Gateway Proxy

variable {c : Settings} {s s' : State} {obs trace : List Obs}

/-- The steps of the board while nothing goes wrong, and those of its call of `send_update`, timers
included. -/
def Event.Board : Event → Prop
  | .field (.board e) _ => e.Smooth
  | .exchange (.sender e) => ofCall (.sender e) = false
  | _ => False

/-- `send_update` has been called and has just stored an update. -/
def Stores (s : State) (obs : List Obs) : Prop :=
  ∃ update, s.exchange.coap.sender = .stored update ∧ .exchange (.gateway (.stored update)) ∈ obs

theorem Stores.after {obs earlier : List Obs} (h : Stores s obs) : Stores s (obs ++ earlier) := by
  obtain ⟨update, hs, hmem⟩ := h
  exact ⟨update, hs, List.mem_append_left _ hmem⟩

/-- The call can return on its own, while the rest of the board stays as it is. -/
def Returns (c : Settings) (s : State) : Prop :=
  (deployment c).Reaches Event.Board
    (fun s' _ => s'.field = s.field ∧ s'.exchange.coap.sender = .idle) s

theorem Returns.step {e : Coap.SenderEvent RawUpdate} (he : ofCall (.sender e) = false)
    (h : Returns c { s with exchange := (CoapExchange.senderStep s.exchange e).1 }) : Returns c s := by
  have hstep : (deployment c).step s (.exchange (.sender e)) =
      some ({ s with exchange := (CoapExchange.senderStep s.exchange e).1 },
        (CoapExchange.senderStep s.exchange e).2.map .exchange) := by
    simp [deployment, Deployment.step, he, CoapExchange.step]
  exact Machine.Reaches.step h hstep he

/-- Nobody can make a doomed gateway store another update. -/
theorem doomed_step (h : (deployment c).Run trace s)
    (hd : Updates.Doomed c.coap s.field.board.gateway) {e : Event}
    (hstep : (deployment c).step s e = some (s', obs)) :
    Updates.Doomed c.coap s'.field.board.gateway ∧
      ∀ o ∈ obs, ∀ update, o ≠ .exchange (.gateway (.stored update)) := by
  have hrun := Tracker.run_gateway (Field.run_board (run_field h))
  cases effect_of_step hstep with
  | idle => exact ⟨hd, by simp⟩
  | moved e hreturn hf hbuilt =>
    refine ⟨?_, by simp⟩
    cases field_gateway hf with
    | inl hidle =>
      dsimp only
      rwa [hidle.1]
    | inr hgateway =>
      obtain ⟨e', _, hgateway⟩ := hgateway
      exact (Updates.doomed_step hrun hd hgateway).1
  | built e u others update hf hbuilt hu =>
    obtain ⟨clock, hmem⟩ := builds_mem (hbuilt ▸ List.mem_cons_self : u ∈ builds _)
    have hgateway := List.mem_filterMap.mpr ⟨_, hmem, (rfl : gatewayObs _ = some (.built u))⟩
    cases field_gateway hf with
    | inl hidle =>
      rw [hidle.2] at hgateway
      cases hgateway
    | inr hstep' =>
      obtain ⟨e', _, hstep'⟩ := hstep'
      exact absurd rfl ((Updates.doomed_step hrun hd hstep').2 _ hgateway u)
  | exchanged e he hx =>
    refine ⟨hd, ?_⟩
    intro o ho update heq
    have hobs := uncalled_obs (c := c) (x := s.exchange) he
    rw [hx] at hobs
    rw [heq] at ho
    exact absurd (by simpa using ho) (hobs update)

end AssetTracker.Link.Deployment

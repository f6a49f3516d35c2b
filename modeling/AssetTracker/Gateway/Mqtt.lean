import Mathlib.Tactic.Common

/-! `mqtt_connect_and_publish`, by the outcomes of its steps. TCP and TLS failures end it early; the
MQTT client's results are unwrapped. Errors are at most logged, so they carry nothing here; the
configured strings are taken to be valid. -/
namespace AssetTracker.Gateway

/-- What the MQTT client can report while it is polled. -/
inductive MqttEvent where
  | publishComplete (packetIdentifier : UInt16)
  | other
deriving DecidableEq

/-- What each step gives if it is reached. The events are polled in order; the peer may stay silent
behind the last of them. -/
structure MqttOutcomes where
  tcpConnect : Except Unit Unit
  tlsOpen : Except Unit Unit
  connect : Except Unit Unit
  publish : Except Unit (Option UInt16)
  events : List (Except Unit MqttEvent)
  disconnect : Except Unit Unit

/-- How a call stands: it has returned, it has panicked, or it waits for another event. -/
inductive Call where
  | returned
  | panicked
  | waiting
deriving DecidableEq

/-- `while let Ok(event) = client.poll().await` -/
def pollLoop (disconnect : Except Unit Unit) : List (Except Unit MqttEvent) → Call
  | [] => .waiting
  | .error _ :: _ => .returned
  | .ok (.publishComplete _) :: _ =>
    match disconnect with
    | .ok _ => .returned
    | .error _ => .panicked
  | .ok .other :: events => pollLoop disconnect events

def mqttConnectAndPublish (o : MqttOutcomes) : Call :=
  match o.tcpConnect, o.tlsOpen with
  | .error _, _ => .returned
  | _, .error _ => .returned
  | .ok _, .ok _ =>
    match o.connect with
    | .error _ => .panicked
    | .ok _ =>
      match o.publish with
      | .ok (some _) => pollLoop o.disconnect o.events
      | _ => .panicked

/-- The publication is reported complete before any polling error. -/
def completes : List (Except Unit MqttEvent) → Bool
  | [] => false
  | .error _ :: _ => false
  | .ok (.publishComplete _) :: _ => true
  | .ok .other :: events => completes events

/-- The network fails before MQTT is reached, or the broker accepts everything asked of it. -/
def Accepted (o : MqttOutcomes) : Prop :=
  (∃ e, o.tcpConnect = .error e) ∨ (∃ e, o.tlsOpen = .error e) ∨
    (∃ a, o.connect = .ok a) ∧ (∃ id, o.publish = .ok (some id)) ∧
      (completes o.events = true → ∃ a, o.disconnect = .ok a)

theorem pollLoop_panicked_iff (disconnect : Except Unit Unit)
    (events : List (Except Unit MqttEvent)) :
    pollLoop disconnect events = .panicked ↔
      completes events = true ∧ ∃ e, disconnect = .error e := by
  induction events with
  | nil => simp [pollLoop, completes]
  | cons event events ih =>
    cases event with
    | error e => simp [pollLoop, completes]
    | ok event =>
      cases event with
      | publishComplete id => cases disconnect <;> simp [pollLoop, completes]
      | other => simpa [pollLoop, completes] using ih

theorem mqttConnectAndPublish_panicked_iff (o : MqttOutcomes) :
    mqttConnectAndPublish o = .panicked ↔ ¬ Accepted o := by
  unfold mqttConnectAndPublish Accepted
  cases o.tcpConnect with
  | error e => simp
  | ok _ =>
    cases o.tlsOpen with
    | error e => simp
    | ok _ =>
      cases o.connect with
      | error e => simp
      | ok _ =>
        cases o.publish with
        | error e => simp
        | ok id =>
          cases id with
          | none => simp
          | some id =>
            rw [pollLoop_panicked_iff]
            cases o.disconnect <;> simp

end AssetTracker.Gateway

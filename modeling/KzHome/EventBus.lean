import KzHome.Basic
import KzHome.Lib.Call

/-!
# KzHome.EventBus

`EventBus`: events, and their sequential delivery to subscribers.

A subscriber is a call on whatever it works with: it can change it, and it can
raise. `publish` awaits the subscribers one after the other and lets the first
exception through, so the subscribers behind it never see the event.
-/

namespace KzHome

/-- `EventType` -/
inductive EventType
  | deviceStateChanged
  | deviceOnline
  | deviceOffline
  | deviceAckReceived
  | deviceTelemetryReceived
  | deviceStatusChanged
  | mqttConnected
  | mqttDisconnected
  | sceneStarted
  | automationTriggered
  | automationCompleted
  | automationFailed
  | authLoginSucceeded
  | authLoginFailed
  | authRefreshSucceeded
  | authRefreshFailed
  | authLogout
  | authorizationDenied
  deriving DecidableEq, Repr

/-- `Event` -/
structure BusEvent where
  type : EventType
  data : List (String × Json)
  correlationId : String
  depth : Nat

/-- `EventHandler`, on the objects it works with. -/
abbrev EventHandler (τ : Type) := BusEvent → Call τ Error Unit

/-- `EventBus` -/
structure EventBus (τ : Type) where
  subscribers : List (EventHandler τ)

namespace BusEvent

/-- A string of the event's data. -/
def text? (e : BusEvent) (key : String) : Option String :=
  match Json.member e.data key with
  | some (.str s) => some s
  | _ => none

/-- `event.data["state"]` -/
def state (e : BusEvent) : List (String × Json) :=
  match Json.member e.data "state" with
  | some (.obj members) => members
  | _ => []

/-- The event of a change, with the house the device is read to be in. -/
def change (device : String) (house : Option String) (changed : List (String × Json))
    (correlationId : String) (depth : Nat) : BusEvent where
  type := .deviceStateChanged
  data := [("device_id", .str device), ("house_id", (house.map Json.str).getD .null),
    ("state", .obj changed)]
  correlationId
  depth

end BusEvent

namespace EventBus

variable {τ : Type}

/-- The bus without subscribers. -/
def silent : EventBus τ := ⟨[]⟩

/-- The loop of `publish`. -/
def deliver : List (EventHandler τ) → BusEvent → Call τ Error Unit
  | [], _ => pure ()
  | handler :: rest, event => do
    handler event
    deliver rest event

/-- `publish` -/
def publish (bus : EventBus τ) (event : BusEvent) : Call τ Error Unit :=
  deliver bus.subscribers event

end EventBus

end KzHome

import KzHome.Basic
import KzHome.Lib.Dict
import KzHome.Lib.PyValues

/-!
# KzHome.Relay

`Relay.handle`: what the relay does with a message on its command topic.

A message is decoded, which depends on nothing but the message. After that the entries of the
cache that have expired are dropped; a command whose id is still cached is answered with the ACK
that it got, if its content is the same, and any other command is judged. What is done with it,
its ACK included, is cached for 300 seconds after the later of its timestamp and the reading of
the clock.

What `handle` publishes is listed in order. A publish that raises ends it there; by then nothing
of the relay is left to change.
-/

namespace KzHome.Simulator

open JsonGrammar
open PyValues

/-! ### Datetimes -/

/-- A `datetime`: what its own clock shows, and the offset of that clock. -/
structure Stamp where
  wall : Int
  offset : Option Int
  deriving DecidableEq, Repr

/-- The instant of an aware datetime. -/
def Stamp.instant (t : Stamp) : Int := t.wall - t.offset.getD 0

def Stamp.aware (t : Stamp) : Bool := t.offset.isSome

/-! ### Commands -/

/-- `CommandEnvelope` -/
structure Command where
  commandId : String
  correlationId : String
  timestamp : Stamp
  expiresAt : Option Stamp
  state : List (List Nat × Value)

/-- `a == b` of two datetimes. -/
def Stamp.same (a b : Stamp) : Bool := a.instant = b.instant && a.aware = b.aware

/-- `command == original` -/
def Command.same (c c' : Command) : Bool :=
  c.commandId = c'.commandId && c.correlationId = c'.correlationId &&
    c.timestamp.same c'.timestamp &&
    (match c.expiresAt, c'.expiresAt with
      | some e, some e' => e.same e'
      | none, none => true
      | _, _ => false) &&
    pyEq (.obj c.state) (.obj c'.state)

/-- A message as the broker delivers it. -/
structure Message where
  topic : String
  payload : ByteArray
  retained : Bool

/-- What `handle` raises, and what it raises it with. -/
inductive RelayError
  /-- "Unexpected or retained command" -/
  | unexpected
  /-- "Oversized command" -/
  | oversized
  /-- no UTF-8, or no JSON -/
  | json
  /-- `RecursionError` -/
  | recursion
  /-- what `validate_json_bounds` raises -/
  | bounds
  /-- the `ValidationError` of the model -/
  | envelope
  /-- "Oversized identifier" -/
  | identifier
  /-- "Command timestamp must have a timezone" -/
  | timezone
  /-- "Command ID reused with different content" -/
  | reused
  /-- "Command cache capacity reached" -/
  | capacity
  /-- `OverflowError` -/
  | overflow
  deriving DecidableEq, Repr

/-- The relay's own topic, how deep the interpreter's stack is, and how pydantic reads a datetime. -/
structure Config where
  houseId : String
  deviceId : String
  levels : Nat
  datetime : Value → Option Stamp

/-- `self.topic(TopicKind.SET)` -/
def Config.topic (cfg : Config) : String :=
  "kzhome/v1/" ++ cfg.houseId ++ "/" ++ cfg.deviceId ++ "/set"

/-! ### Decoding -/

mutual

/-- `json_depth(value, current)` -/
def jsonDepth (current : Nat) : Value → Nat
  | .arr items => depthItems current items
  | .obj members => depthMembers current members
  | _ => current

def depthItems (current : Nat) : List Value → Nat
  | [] => current
  | v :: vs => max (jsonDepth (current + 1) v) (depthItems current vs)

def depthMembers (current : Nat) : List (List Nat × Value) → Nat
  | [] => current
  | (_, v) :: ms => max (jsonDepth (current + 1) v) (depthMembers current ms)

end

mutual

/-- The scalars of a value and the names of its members. -/
def leaves : Value → List Value
  | .arr items => leavesItems items
  | .obj members => leavesMembers members
  | v => [v]

def leavesItems : List Value → List Value
  | [] => []
  | v :: vs => leaves v ++ leavesItems vs

def leavesMembers : List (List Nat × Value) → List Value
  | [] => []
  | (k, v) :: ms => .str k :: leaves v ++ leavesMembers ms

end

/-- `int` refuses the texts of numbers with more digits. -/
def intFits : Value → Bool
  | .int n => n.natAbs < 10 ^ 4300
  | _ => true

/-- A text of at most so many bytes. -/
def textWithin (bytes : Nat) (s : List Nat) : Bool :=
  match text? s with
  | some t => t.utf8ByteSize ≤ bytes
  | none => false

/-- `validate_json_bounds` -/
def validateJsonBounds (v : Value) : Bool :=
  jsonDepth 1 v ≤ 8 && (leaves v).all fun
    | .str s => textWithin 1024 s
    | _ => true

/-- A `str` of 1 to 128 characters. -/
def identifierField (members : List (List Nat × Value)) (name : String) : Option String :=
  match lookup members (points name) with
  | some (.str s) => (text? s).filter fun t => 1 ≤ t.length && t.length ≤ 128
  | _ => none

/-- `Literal["v1"]`, with itself as the default. -/
def protocolVersion (members : List (List Nat × Value)) : Bool :=
  match lookup members (points "protocol_version") with
  | none => true
  | some (.str s) => s = points "v1"
  | some _ => false

/-- `datetime | None`, with `None` as the default. -/
def expiresField (cfg : Config) (members : List (List Nat × Value)) : Option (Option Stamp) :=
  match lookup members (points "expires_at") with
  | none => some none
  | some .null => some none
  | some v => (cfg.datetime v).map some

/-- `CommandEnvelope.model_validate` -/
def validateEnvelope (cfg : Config) : Value → Option Command
  | .obj members => do
    guard (protocolVersion members)
    let commandId ← identifierField members "command_id"
    let correlationId ← identifierField members "correlation_id"
    let timestamp ← (lookup members (points "timestamp")).bind cfg.datetime
    let expiresAt ← expiresField cfg members
    match lookup members (points "state") with
    | some (.obj state) =>
      if 1 ≤ state.length ∧ state.length ≤ 64 then
        some ⟨commandId, correlationId, timestamp, expiresAt, state⟩
      else none
    | _ => none
  | _ => none

/-- The command that a text stands for. -/
def decodeText (cfg : Config) (text : List Char) : Except RelayError Command :=
  match parse (fun _ => true) cfg.levels text with
  | .error .nested => .error .recursion
  | .error _ => .error .json
  | .ok v =>
    if !(leaves v).all intFits then .error .json
    else if !validateJsonBounds (loads v) then .error .bounds
    else match validateEnvelope cfg (loads v) with
      | none => .error .envelope
      | some command =>
        if 128 < command.commandId.utf8ByteSize ∨ 128 < command.correlationId.utf8ByteSize then
          .error .identifier
        else if !command.timestamp.aware then .error .timezone
        else .ok command

/-- `handle` up to the cache: none of it depends on the relay. -/
def decode (cfg : Config) (m : Message) : Except RelayError Command :=
  if m.topic ≠ cfg.topic ∨ m.retained then .error .unexpected
  else if 16 * 1024 < m.payload.size then .error .oversized
  else match String.fromUTF8? m.payload with
    | none => .error .json
    | some text => decodeText cfg text.toList

/-! ### The relay -/

inductive AckStatus
  | applied
  | rejected
  deriving DecidableEq, Repr

/-- `AckEnvelope` -/
structure Ack where
  commandId : String
  correlationId : String
  timestamp : Int
  status : AckStatus
  errorCode : Option String
  deriving DecidableEq, Repr

/-- What the relay publishes. -/
inductive Published
  | ack (a : Ack)
  | state (timestamp : Int) (correlationId : String) (on : Bool)
  deriving DecidableEq, Repr

/-- An item of the cache. -/
structure Entry where
  expires : Int
  command : Command
  ack : Ack

structure Relay where
  on : Bool
  seen : Dict String Entry

/-- `Relay(...)` -/
def Relay.start : Relay := ⟨false, .empty⟩

/-- `COMMAND_WINDOW` -/
def commandWindow : Int := 300 * second

/-- What is decided about a command that is not cached. -/
inductive Verdict
  | applied (on : Bool)
  | rejected (code : String)
  deriving DecidableEq, Repr

/-- The checks of `expires_at`. -/
def lifetimeError (now : Int) (c : Command) : Option String :=
  match c.expiresAt with
  | none => none
  | some e =>
    if !e.aware || !(0 < e.instant - c.timestamp.instant &&
        e.instant - c.timestamp.instant ≤ 30 * second) then some "protocol_error"
    else if e.instant ≤ now then some "timeout"
    else none

/-- `not now - COMMAND_WINDOW <= timestamp <= now + timedelta(seconds=30)` -/
def outsideWindow (now timestamp : Int) : Except RelayError Bool :=
  if now - commandWindow < datetimeMin then .error .overflow
  else if timestamp < now - commandWindow then .ok true
  else if datetimeMax < now + 30 * second then .error .overflow
  else .ok (now + 30 * second < timestamp)

/-- The checks of the fields of `state`. -/
def stateVerdict (c : Command) : Verdict :=
  if !c.state.all fun m => m.1 = points "on" then .rejected "unsupported_capability"
  else match lookup c.state (points "on") with
    | some (.bool on) => .applied on
    | some _ => .rejected "invalid_value"
    | none => .rejected "unsupported_capability"

def verdict (now : Int) (c : Command) : Except RelayError Verdict :=
  match lifetimeError now c with
  | some code => .ok (.rejected code)
  | none =>
    match outsideWindow now c.timestamp.instant with
    | .error e => .error e
    | .ok true => .ok (.rejected "timeout")
    | .ok false => .ok (stateVerdict c)

/-- `max(now, command.timestamp) + COMMAND_WINDOW` -/
def retention (now : Int) (c : Command) : Except RelayError Int :=
  if now < c.timestamp.instant then
    if datetimeMax < c.timestamp.wall + commandWindow then .error .overflow
    else .ok (c.timestamp.instant + commandWindow)
  else if datetimeMax < now + commandWindow then .error .overflow
  else .ok (now + commandWindow)

/-- `{key: item for key, item in self.seen.items() if item[0] >= now}` -/
def Relay.purge (s : Relay) (now : Int) : Relay :=
  { s with seen := s.seen.filter fun _ e => now ≤ e.expires }

/-- `self.on = command.state["on"]`, if there is no error. -/
def Relay.apply (s : Relay) : Verdict → Relay
  | .applied on => { s with on := on }
  | .rejected _ => s

/-- The ACK of a verdict. -/
def acknowledge (now : Int) (c : Command) : Verdict → Ack
  | .applied _ => ⟨c.commandId, c.correlationId, now, .applied, none⟩
  | .rejected code => ⟨c.commandId, c.correlationId, now, .rejected, some code⟩

/-- What follows the ACK. -/
def announce (later : Int) (c : Command) : Verdict → List Published
  | .applied on => [.state later c.correlationId on]
  | .rejected _ => []

/-- `handle` from the cache on; `later` is the reading of the clock for the state message. -/
def Relay.accept (s : Relay) (now later : Int) (c : Command) :
    Relay × Except RelayError (List Published) :=
  let s := s.purge now
  match s.seen.get? c.commandId with
  | some entry =>
    if c.same entry.command then (s, .ok [.ack entry.ack]) else (s, .error .reused)
  | none =>
    match verdict now c with
    | .error e => (s, .error e)
    | .ok v =>
      if 4096 ≤ s.seen.size then (s, .error .capacity)
      else
        let s := s.apply v
        match retention now c with
        | .error e => (s, .error e)
        | .ok expires =>
          ({ s with seen := s.seen.set c.commandId ⟨expires, c, acknowledge now c v⟩ },
            .ok (.ack (acknowledge now c v) :: announce later c v))

/-- A message and the readings of the clock while it is handled. -/
structure Delivery where
  message : Message
  now : Int
  later : Int

/-- `handle` -/
def Relay.handle (cfg : Config) (s : Relay) (d : Delivery) :
    Relay × Except RelayError (List Published) :=
  match decode cfg d.message with
  | .error e => (s, .error e)
  | .ok c => s.accept d.now d.later c

/-- The relay after messages. -/
def Relay.run (cfg : Config) (s : Relay) (ds : List Delivery) : Relay :=
  ds.foldl (fun s d => (s.handle cfg d).1) s

end KzHome.Simulator

import KzHome.EventBus
import KzHome.Lib.PyText
import KzHome.Lib.SqlRules
import KzHome.RefreshTokens
import KzHome.Tables

/-!
# KzHome.LiveUpdates

Who is let in, and who gets the events: `AuthenticationService` statement by statement,
`websocket_endpoint`, and `ConnectionManager`.

`KzHome.RefreshTokens` has every request as one step; here each is a program of statements, and
any number of them are under way together: two `refresh` calls with one token can both read the
session before either revokes it. The dict of connections belongs to the process, and is read and
written like a table. An exception that the code does not handle, a cancellation and a crash are
the end of a request between two statements.

Every statement that a decision rests on is noted with what it has seen, and when.
-/

namespace KzHome

open Sql
open Session (Prog)

/-! ### Events -/

/-- The text of an event type. -/
def EventType.value : EventType → String
  | .deviceStateChanged => "device_state_changed"
  | .deviceOnline => "device_online"
  | .deviceOffline => "device_offline"
  | .deviceAckReceived => "device_ack_received"
  | .deviceTelemetryReceived => "device_telemetry_received"
  | .deviceStatusChanged => "device_status_changed"
  | .mqttConnected => "mqtt_connected"
  | .mqttDisconnected => "mqtt_disconnected"
  | .sceneStarted => "scene_started"
  | .automationTriggered => "automation_triggered"
  | .automationCompleted => "automation_completed"
  | .automationFailed => "automation_failed"
  | .authLoginSucceeded => "auth_login_succeeded"
  | .authLoginFailed => "auth_login_failed"
  | .authRefreshSucceeded => "auth_refresh_succeeded"
  | .authRefreshFailed => "auth_refresh_failed"
  | .authLogout => "auth_logout"
  | .authorizationDenied => "authorization_denied"

namespace BusEvent

/-- `event.data.get("house_id")`: a text, where there is one. -/
def houseId (e : BusEvent) : Option String :=
  match (Dict.ofList e.data).get? "house_id" with
  | some (.str house) => some house
  | _ => none

/-- `message`; what the data has under a key overrides the type, and the identifier overrides
both. -/
def message (e : BusEvent) : Dict String Json :=
  (e.data.foldl (fun d m => d.set m.1 m.2) (Dict.ofList [("type", Json.str e.type.value)])).set
    "correlation_id" (.str e.correlationId)

/-- A message names the house of its event. -/
theorem message_houseId {e : BusEvent} {house : String} (h : e.houseId = some house) :
    e.message.get? "house_id" = some (.str house) := by
  have hdata : (Dict.ofList e.data).get? "house_id" = some (.str house) := by
    unfold houseId at h
    split at h
    · rename_i hget
      rw [hget, Option.some.inj h]
    · cases h
  rw [message, Dict.get?_set_eq, if_neg (by decide), Dict.get?_foldl_set, hdata]
  rfl

end BusEvent

namespace Live

/-! ### What requests work with -/

/-- The tables that requests go by, with the time, and the connections of the process: each
websocket, numbered by its request, with the user of its `authorizes_house`. -/
structure Platform where
  store : Auth.Store
  memberships : Dict String MembershipRow
  now : Instant
  connections : Dict Nat String

/-- What requests write. -/
inductive Write
  /-- `UPDATE refresh_sessions SET revoked_at` -/
  | revoke (hash : String)
  /-- `INSERT INTO refresh_sessions` -/
  | insert (hash : String) (row : RefreshSession)
  /-- `self._connections[websocket] = authorizes_house` -/
  | register (conn : Nat) (user : String)
  /-- `self._connections.pop(websocket, None)` -/
  | unregister (conn : Nat)

/-- How a pair of tokens came about. -/
inductive Source
  | password (email password : String)
  /-- By `refresh`, of the session with the hash. -/
  | rotated (hash : String)
  deriving DecidableEq, Repr

/-- A pair of tokens, and whose it is. -/
structure Issue where
  user : String
  access : Claims
  refresh : Claims
  source : Source
  deriving DecidableEq, Repr

/-- What statements are noted as. -/
inductive Note
  /-- `users.by_email` -/
  | byEmail (email : String)
  /-- `codec.decode` has looked at the clock. -/
  | decoded (token : String)
  /-- `sessions.active` has read a session. -/
  | session (hash : String)
  /-- `session.get(UserORM, …)` -/
  | user (id : String)
  | revoked (hash : String)
  | issued (issue : Issue)
  /-- A request was let in by its access token. -/
  | admitted (token user : String)
  /-- A websocket was let in by its access token. -/
  | connected (conn : Nat) (token user : String)
  | disconnected (conn : Nat)
  /-- `handle_event` has taken the connections. -/
  | published (event : BusEvent)
  /-- `authorizes_house` of a websocket has read its user. -/
  | active (conn : Nat) (user : String)
  /-- It has read the user's membership. -/
  | member (conn : Nat) (user house : String)
  | sent (conn : Nat) (message : Dict String Json)
  /-- Sending raised a `RuntimeError`. -/
  | broken (conn : Nat)
  /-- `handle_event` has returned. -/
  | handled (event : BusEvent)

namespace Platform

variable (p : Platform)

/-- `user is not None and user.is_active` -/
def isActive (user : String) : Bool := (p.store.accounts.get? user).any (·.isActive)

/-- `MembershipRepository.for_house` -/
def forHouse (user house : String) : Option (String × MembershipRow) :=
  p.memberships.find? fun _ row => row.userId = user ∧ row.houseId = house

/-- `has_permission` of the membership of a user. -/
def permits (user house : String) (permission : Permission) : Bool :=
  (p.forHouse user house).any fun m => m.2.role.permits permission

/-- One write; a second session with one hash is an `IntegrityError`. -/
def write : Write → Except Error Platform
  | .revoke hash => .ok { p with store := Auth.revoke p.store p.now hash }
  | .insert hash row =>
    if (p.store.sessions.get? hash).isSome then
      .error (.conflict "Entity already exists or conflicts with related data")
    else .ok { p with store := { p.store with sessions := p.store.sessions.set hash row } }
  | .register conn user => .ok { p with connections := p.connections.set conn user }
  | .unregister conn => .ok { p with connections := p.connections.pop conn }

/-- What others may do meanwhile: time passes, and accounts and memberships change. -/
def mayBecome (q : Platform) : Bool :=
  p.now ≤ q.now ∧ q.store.sessions.entries = p.store.sessions.entries ∧
    q.connections.entries = p.connections.entries

end Platform

/-- The tables as rows to lock and to write; a session is locked by its `UPDATE`. -/
def schema : Schema Platform String Write Error where
  has p hash := (p.store.sessions.get? hash).isSome
  targets _
    | .revoke hash => [hash]
    | _ => []
  apply p writes := writes.foldlM Platform.write p

/-- Programs of requests. -/
abbrev Request (α : Type) := Query Platform String Write Error Note RouteError α

/-! ### `AuthenticationService` -/

section

variable (service : Auth.Service)

/-- `AuthenticationError`, as routes raise it. -/
def unauthorized (message : String) : RouteError := .http 401 message

/-- `raise AuthenticationError` unless the condition holds. -/
def require (condition : Bool) (message : String) : Except RouteError Unit :=
  if condition then .ok () else .error (unauthorized message)

/-- The claims of a token, or an `AuthenticationError`. -/
def decode (token : String) (type : TokenType) (now : Instant) (message : String) :
    Except RouteError Claims :=
  (service.codec.decode token type now).elim (.error (unauthorized message)) .ok

/-- The checks of `login`: the user whose password it is. -/
def authenticate (store : Auth.Store) (email password : String) : Except RouteError String :=
  let user := service.byEmail store email
  let hash := (user.map (·.2.passwordHash)).getD service.passwords.dummyHash
  let valid := service.passwords.verify hash password
  match user with
  | none => .error (unauthorized "Invalid email or password")
  | some user =>
    if !user.2.isActive || !valid then .error (unauthorized "Invalid email or password")
    else .ok user.1

/-- `_issue_pair` -/
def issuePair (user : String) (source : Source) : Request TokenPair := do
  let p ← Sql.read none
  let jti ← Sql.input
  let access := service.codec.issue user .access p.now jti
  let p ← Sql.read none
  let jti ← Sql.input
  let refresh := service.codec.issue user .refresh p.now jti
  let stored ← Sql.commit [.insert (service.hashJti refresh.2.jti) ⟨user, refresh.2.exp, none⟩]
    (some (.issued ⟨user, access.2, refresh.2, source⟩))
  let _ ← Prog.lift (stored.mapError .service)
  return ⟨access.1, refresh.1, service.codec.accessMinutes * 60⟩

/-- `login` -/
def login (email password : String) : Request TokenPair := do
  let p ← Sql.read (some (.byEmail email))
  let user ← Prog.lift (authenticate service p.store email password)
  issuePair service user (.password email password)

/-- `RefreshSessionRepository.active`; the clock is looked at after the session. -/
def active (hash : String) : Request (Option RefreshSession) := do
  let p ← Sql.read (some (.session hash))
  let later ← Sql.read none
  return Auth.active p.store later.now hash

/-- `refresh` -/
def refresh (token : String) : Request TokenPair := do
  let p ← Sql.read (some (.decoded token))
  let claims ← Prog.lift (decode service token .refresh p.now "Invalid refresh token")
  let session ← active (service.hashJti claims.jti)
  let p ← Sql.read (some (.user claims.sub))
  let _ ← Prog.lift (require
    (session.any (·.userId = claims.sub) && p.isActive claims.sub) "Invalid refresh token")
  let _ ← Sql.commit [.revoke (service.hashJti claims.jti)]
    (some (.revoked (service.hashJti claims.jti)))
  issuePair service claims.sub (.rotated (service.hashJti claims.jti))

/-- `logout` -/
def logout (token : String) : Request Unit := do
  let p ← Sql.read (some (.decoded token))
  let claims ← Prog.lift (decode service token .refresh p.now "Invalid refresh token")
  let session ← active (service.hashJti claims.jti)
  let _ ← Prog.lift (require session.isSome "Invalid refresh token")
  let _ ← Sql.commit [.revoke (service.hashJti claims.jti)]
    (some (.revoked (service.hashJti claims.jti)))
  return ()

/-- `access_user`: its identifier. -/
def accessUser (token : String) : Request String := do
  let p ← Sql.read (some (.decoded token))
  let claims ← Prog.lift (decode service token .access p.now "Invalid access token")
  let p ← Sql.read (some (.user claims.sub))
  let _ ← Prog.lift (require (p.isActive claims.sub) "Invalid access token")
  return claims.sub

/-- `text.split()` -/
def words (text : String) : List String :=
  ((text.toList.splitOnP PyText.isSpace).filter (· ≠ [])).map String.ofList

/-- `bearer_token`; a missing header is an empty one. -/
def bearerToken (authorization : String) : Option String :=
  match words authorization with
  | [scheme, token] => if scheme.toLower = "bearer" then some token else none
  | _ => none

/-- `get_current_user` -/
def getCurrentUser (authorization : String) : Request String := do
  let token ← Prog.lift ((bearerToken authorization).elim
    (.error (unauthorized "Valid Bearer authentication is required")) .ok)
  let user ← accessUser service token
  let _ ← Sql.read (some (.admitted token user))
  return user

/-! ### Websockets -/

/-- `websocket_endpoint`; a websocket that is not let in is closed with code 4401. The client
sends nothing that is read, until it is gone. -/
def websocketEndpoint (conn : Nat) (authorization : String) : Request Unit :=
  match bearerToken authorization with
  | none => return ()
  | some token => do
    match ← (accessUser service token).attempt with
    | .error _ => return ()
    | .ok user =>
      let _ ← Sql.input -- `websocket.accept()`
      let _ ← Sql.commit [.register conn user] (some (.connected conn token user))
      let _ ← Sql.input -- `websocket.receive_text()` raises `WebSocketDisconnect`
      let _ ← Sql.commit [.unregister conn] (some (.disconnected conn))
      return ()

end

/-- `authorizes_house` of a websocket. -/
def authorizesHouse (conn : Nat) (user house : String) : Request Bool := do
  let p ← Sql.read (some (.active conn user))
  if !p.isActive user then return false
  else
    let p ← Sql.read (some (.member conn user house))
    return p.permits user house .houseRead

/-- The loop of `handle_event`. -/
def deliver (event : BusEvent) (house : String) : List (Nat × String) → Request Unit
  | [] => do
    let _ ← Sql.read (some (.handled event))
    return ()
  | (conn, user) :: rest => do
    if ← authorizesHouse conn user house then
      let outcome ← Sql.input -- of `connection.send_json(event.message())`
      if outcome = "RuntimeError" then
        let _ ← Sql.commit [.unregister conn] (some (.broken conn))
        deliver event house rest
      else
        let _ ← Sql.read (some (.sent conn event.message))
        deliver event house rest
    else deliver event house rest

/-- `ConnectionManager.handle_event` -/
def handleEvent (event : BusEvent) : Request Unit :=
  match event.houseId with
  | none => return ()
  | some house => do
    let p ← Sql.read (some (.published event))
    deliver event house p.connections.entries

/-! ### Requests side by side -/

inductive Call
  | login (email password : String)
  | refresh (token : String)
  | logout (token : String)
  | authenticated (authorization : String)
  | websocket (authorization : String)
  | event (event : BusEvent)

/-- The program of a call; a websocket is known by the number of its request. -/
def program (service : Auth.Service) (s : Nat) (_ : Unit) : Call → Request Unit
  | .login email password => do
    let _ ← login service email password
  | .refresh token => do
    let _ ← refresh service token
  | .logout token => logout service token
  | .authenticated authorization => do
    let _ ← getCurrentUser service authorization
  | .websocket authorization => websocketEndpoint service s authorization
  | .event event => handleEvent event

abbrev Trace := List (Entry Platform Note Unit)

/-- What can happen next. -/
abbrev Label := Session.Label Unit Call String (Outside Platform)

/-- The requests as a transition system. -/
def requests (service : Auth.Service) : Transition.System
    (Session.State (interface Platform String Write Error Note)
      (Sql.Store Platform String Note Unit) Unit RouteError) Label :=
  Session.system (machine schema Platform.mayBecome) (program service)

/-- What was noted in a run from a platform. -/
def trace (service : Auth.Service) (p : Platform) (labels : List Label) : Trace :=
  ((requests service).run (.init (.init p 0)) labels).shared.trace

end Live

end KzHome

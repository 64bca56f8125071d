import KzHome.Operations
import KzHome.StateValidator

/-!
# KzHome.Services

The service calls of Core, as programs over the operations of
`KzHome.Operations`: `CommandService`, `DeviceService.update_state`, the
database side of `ControlAuthority`, and the publishing half of `MQTTGateway`.

Every program follows the statements of its method in order. Where the source
opens a session of its own for a guard or a handler, the program ends that
transaction with `rollback`. A scene, an automation and the `on`/`off` routes
reach the broker through `update_state` and have no program of their own.
-/

namespace KzHome

open Session

/-- A program over the operations of Core. -/
abbrev Program (α : Type) : Type := Prog sql Error α

/-- The settings that commands depend on. -/
structure Config where
  sha : Sha256
  /-- `settings.mqtt_software_devices` -/
  softwareDevices : List (String × String)

namespace Program

/-! ### Operations as programs -/

/-- Ask for one operation. -/
def ask (op : Op) : Program op.Ans := .call op .ret

def registry (locks : Registry → List Lock) (note : Registry → List Event) : Program Registry :=
  ask (.registry locks note)

def query (note : Ledger → List Event) : Program Ledger := ask (.query note)

def find (sel : Selector) : Program (Option DeviceCommand) := ask (.find sel)

def lockControl (id : String) : Program (Option ControlCommand) :=
  ask (.lockControl id)

def flush (w : Ledger.Write) : Program Bool := ask (.flush w)

def commit (w : Ledger.Write) (note : List Event) : Program (Option Refusal) :=
  ask (.commit w note)

def rollback : Program Unit := ask .rollback

def uuid : Program String := ask .uuid

def publish (e : Event) : Program Bool := ask (.publish e)

/-- What is noted of a call that returned. -/
def noteOk {α : Type} (c : Call Port Error α) (note : Port → α → List Event) (p : Port) :
    List Event :=
  match (c.run p).1 with
  | .ok a => note p a
  | .error _ => []

/-- Run code of the process, and note what it returned. -/
def computeNote {α : Type} (c : Call Port Error α) (note : Port → α → List Event) :
    Program (Port × α) := do
  let port ← ask (.atomic (fun p => (c.run p).2) (noteOk c note))
  match (c.run port).1 with
  | .ok a => return (port, a)
  | .error e => .raise e

/-- Run code of the process. -/
def compute {α : Type} (c : Call Port Error α) : Program (Port × α) := computeNote c fun _ _ => []

/-- Note an event. -/
def note (e : Event) : Program Unit := do
  let _ ← computeNote (pure () : Call Port Error Unit) fun _ _ => [e]

end Program

namespace Services

open Program

/-- The unlocked statements of the guards. -/
def noLocks : Registry → List Lock := fun _ => []

/-- The row lock of a physical device, if it has a row. -/
def physicalLock (device : String) : Registry → List Lock := fun r =>
  if (r.byDevice device).isSome then [.physical device] else []

/-! ### Guards -/

/-- `DeviceService.require_house`: the registry its last statement read. -/
def requireHouse (house device : String) : Program Registry := do
  let r ← registry noLocks fun _ => []
  Prog.lift (r.requireActive device)
  let r ← registry noLocks fun _ => []
  let _ ← Prog.lift (r.getDevice device)
  let r ← registry noLocks fun r => [.guarded r]
  match r.houseId device with
  | .error e => .raise e
  | .ok actual =>
    if actual ≠ some house then
      .raise (.invalidReference "Device does not belong to MQTT topic house")
    else return r

/-- `authorize_command` of `create_app`: the two registries it read. -/
def authorizeCommand (cfg : Config) (house device : String) : Program (Registry × Registry) := do
  let housed ← requireHouse house device
  let unbound ← registry noLocks fun r => [.guarded r]
  match unbound.requireCommandContract device with
  | .error e => .raise e
  | .ok () =>
    if (house, device) ∉ cfg.softwareDevices then
      .raise (.conflict "MQTT command destination is not approved software")
    else return (housed, unbound)

/-! ### `MQTTGateway.send_command` -/

/-- `COMMAND_LIFETIME` -/
def commandLifetime : Int := 30 * second

/-- The field constraints of `CommandEnvelope`, and of the topic. -/
def validFrame (f : SetFrame) : Bool :=
  1 ≤ f.commandId.length && f.commandId.length ≤ 128 && 1 ≤ f.correlationId.length &&
    f.correlationId.length ≤ 128 && !f.state.isEmpty && f.state.length ≤ 64 &&
    validIdentifier f.house && validIdentifier f.device

/-- `value or str(uuid4())` -/
def orUuid (value : String) : Program String := if value = "" then uuid else pure value

/-- `send_command`; `row` is the ledger row the message is for. -/
def sendCommand (cfg : Config) (row : Option String) (frame : SetFrame) : Program String := do
  let (housed, unbound) ← authorizeCommand cfg frame.house frame.device
  let lifetime := frame.expiresAt - frame.timestamp
  if ¬ (0 < lifetime ∧ lifetime ≤ commandLifetime) then
    .raise (.invalidReference "A valid original command deadline is required")
  else
    let correlationId ← orUuid frame.correlationId
    let commandId ← orUuid frame.commandId
    let frame := { frame with correlationId, commandId }
    if !validFrame frame then .raise (.other "CommandEnvelope")
    else
      let (_, now) ← compute CommandService.now
      if ¬ (frame.timestamp ≤ now ∧ now < frame.expiresAt) then
        .raise (.conflict "Command is outside its original validity interval")
      else
        let sent ← publish (.dispatched { row, frame, now, housed, unbound })
        if sent then return commandId
        else .raise (.other "MQTT publish")

/-! ### `CommandService` -/

/-- `session.get(ControlCommandORM, command_id)` -/
def getControl (id : String) : Program (Option ControlCommand) := do
  let db ← query fun _ => []
  return db.control? id

/-- Decide a job on a row that is locked, and commit the result. -/
def process (job : Job) (sub : Option Submission) (row : DeviceCommand) :
    Program DeviceCommand := do
  let control ← getControl row.commandId
  let (port, result) ← compute (job.decide row control)
  let refused ← commit { update := some result }
    [.processed { job, row, control, port, result, submission := sub }]
  match refused with
  | none => return result
  | some _ => .raise (.conflict "Command conflicts with an existing request")

/-- `get` -/
def get (sub : Option Submission) (house id : String) : Program DeviceCommand := do
  match ← find (.inHouse house id) with
  | none => .raise (.notFound "Resource not found")
  | some row => process .read sub row

/-- `ack` -/
def ack (house device : String) (envelope : AckEnvelope) (retained : Bool) : Program Unit := do
  match ← find (.acked house device envelope.commandId envelope.correlationId) with
  | none => rollback
  | some row =>
    let _ ← process (.ack house device envelope retained) none row

/-- `state` -/
def state (house device : String) (envelope : StateEnvelope) (retained : Bool) :
    Program Unit := do
  match ← find (.reported house device envelope.correlationId) with
  | none => rollback
  | some row =>
    let _ ← process (.state house device envelope retained) none row

/-- The end of `submit`: read the row again after the publication, settle it, and
reply with what `get` returns. -/
def settle (sub : Submission) (id : String) (published : Bool) : Program Unit := do
  match ← find (.byId id) with
  | none => .raise (.other "AttributeError")
  | some row =>
    let _ ← process (.settle published) (some sub) row
    let row ← get (some sub) sub.house id
    note (.reply sub row.commandId)

/-- The arguments of `transport.send_command` for a new row. -/
def frameOf (sub : Submission) (row : DeviceCommand) : SetFrame where
  house := sub.house
  device := sub.device
  commandId := row.commandId
  correlationId := row.correlationId
  timestamp := row.createdAt
  expiresAt := row.expiresAt
  state := [("on", .bool sub.on)]

/-- `submit`, after the new row was committed. -/
def dispatch (cfg : Config) (sub : Submission) (row : DeviceCommand) : Program Unit := do
  note (.sendCall sub row.commandId)
  let outcome ← (sendCommand cfg (some row.commandId) (frameOf sub row)).attempt
  settle sub row.commandId outcome.isOk

/-- The new row of a submission. -/
def newRow (sub : Submission) (commandId correlationId : String) (now : Instant) :
    DeviceCommand where
  commandId
  correlationId
  houseId := sub.house
  deviceId := sub.device
  requestedBy := sub.user
  idempotencyHash := sub.hash
  requestedOn := sub.on
  status := .queued
  ackStatus := none
  reportedOn := none
  failureCode := none
  createdAt := now
  updatedAt := now
  expiresAt := now + commandLifetime
  dispatchStartedAt := some now
  dispatchedAt := none
  ackReceivedAt := none
  stateReceivedAt := none
  completedAt := none

/-- `submit`, from the check of the transport on: `freed` is the previous attempt
on the device that was found expired, flushed but not committed. -/
def create (cfg : Config) (session : Nat) (sub : Submission) (freed : Option Processed) :
    Program Unit := do
  let (_, connected) ← compute do
    let p ← Call.self
    return p.proc.connected
  if !connected then .raise (.unavailable "MQTT transport is unavailable")
  else
    let _ ← authorizeCommand cfg sub.house sub.device
    let (_, now) ← compute CommandService.now
    let commandId ← uuid
    let correlationId ← uuid
    let row := newRow sub commandId correlationId now
    let refused ← commit { update := freed.map (·.result), insert := some row }
      ((freed.map Event.processed).toList ++ [.created session sub row])
    match refused with
    | some _ => .raise (.conflict "Command conflicts with an existing request")
    | none => dispatch cfg sub row

/-- `submit`, once the previous attempt on the device is out of the way. -/
def submitFree (cfg : Config) (session : Nat) (sub : Submission) (device : Device)
    (freed : Option Processed) : Program Unit :=
  if !device.online then .raise (.conflict "Device is reported offline")
  else create cfg session sub freed

/-- `submit` of a key that was not used before. -/
def submitNew (cfg : Config) (session : Nat) (sub : Submission) (device : Device) :
    Program Unit := do
  let r ← registry noLocks fun _ => []
  Prog.lift (r.requireCommandContract sub.device)
  if device.type ≠ "relay" ∨ "on_off" ∉ device.capabilities then
    .raise (.invalidReference "Only relay on_off commands are supported")
  else
    Prog.lift (StateValidator.validateCommand device.capabilities [("on", .bool sub.on)])
    match ← find (.pending sub.device) with
    | none => submitFree cfg session sub device none
    | some row =>
      let control ← getControl row.commandId
      let (port, result) ← compute (Job.read.decide row control)
      if result.status.pending then
        .raise (.conflict "A command is already pending for this device")
      else
        -- Release the partial unique index inside this transaction.
        let accepted ← flush { update := some result }
        if !accepted then .raise (.other "IntegrityError")
        else
          submitFree cfg session sub device
            (some { job := .read, row, control, port, result, submission := some sub })

/-- `submit` of a key that was used before. -/
def submitReplay (sub : Submission) (previous : DeviceCommand) : Program Unit :=
  if previous.deviceId ≠ sub.device ∨ previous.requestedOn ≠ sub.on then
    .raise (.conflict "Idempotency key was used for another intent")
  else do
    let row ← process .read (some sub) previous
    note (.reply sub row.commandId)

/-- `submit`, from the lookup of the key on. -/
def submitKeyed (cfg : Config) (session : Nat) (sub : Submission) (device : Device) :
    Program Unit := do
  match ← find (.key sub.house sub.user sub.hash) with
  | some previous => submitReplay sub previous
  | none => submitNew cfg session sub device

/-- `submit` -/
def submit (cfg : Config) (session : Nat) (house device user key : String) (on : Bool) :
    Program Unit := do
  let r ← registry (physicalLock device) fun _ => []
  Prog.lift (r.requireActive device)
  let r ← registry (fun r => if (r.device? device).isSome then [.device device] else [])
    fun _ => []
  match r.device? device with
  | none => .raise (.notFound "Resource not found")
  | some entity =>
    let r ← registry noLocks fun _ => []
    let actual ← Prog.lift (r.houseId device)
    if actual ≠ some house then
      .raise (.conflict "Device location changed; retry authorization")
    else
      submitKeyed cfg session { house, device, user, hash := cfg.sha.hex key, on } entity

/-! ### `DeviceService.update_state` -/

/-- `update_state` with a transport. -/
def updateState (cfg : Config) (device : String) (patch : List (String × Json))
    (correlationId : String) : Program Unit := do
  let r ← registry noLocks fun _ => []
  Prog.lift (r.requireActive device)
  let r ← registry noLocks fun _ => []
  Prog.lift (r.requireCommandContract device)
  let r ← registry noLocks fun _ => []
  let entity ← Prog.lift (r.getDevice device)
  Prog.lift (StateValidator.validateCommand entity.capabilities patch)
  let (_, timestamp) ← compute CommandService.now
  let r ← registry noLocks fun _ => []
  match ← Prog.lift (r.houseId device) with
  | none => .raise (.conflict "MQTT command destination is not approved software")
  | some house =>
    let _ ← sendCommand cfg none
      { house, device, commandId := "", correlationId, timestamp
        expiresAt := timestamp + commandLifetime, state := patch }

/-! ### `ControlAuthority` -/

/-- `physical`, on the authority's gate. -/
def physical (house device : String) : Program Unit := do
  let r ← registry (physicalLock device) fun _ => []
  let item ← Prog.lift (r.forHouse house device)
  if item.status ≠ .active then .raise (.conflict "Physical control binding is not active")
  else
    let r ← registry noLocks fun _ => []
    let actual ← Prog.lift (r.houseId device)
    if actual ≠ some house then .raise (.conflict "Physical control binding is not active")
    else
      let r ← registry noLocks fun _ => []
      let (_, a) ← compute ControlAuthority.authority
      Prog.lift (a.gate r house device)

/-- `initialize` -/
def initializeAuthority (pid : Nat) : Program Unit := do
  let (_, a) ← compute ControlAuthority.authority
  if a.recoveryInitialized then return
  else
    let db ← query fun db => [.snapshot pid (ControlAuthority.snapshotIds db a.clock.epoch)]
    let _ ← compute (ControlAuthority.startFence (ControlAuthority.snapshotIds db a.clock.epoch))

/-- A new control intent, as its caller builds the row: identity, intent, deadline
and the two columns that `prepare` checks. -/
structure Intent where
  commandId : String
  correlationId : String
  house : String
  device : String
  user : String
  hash : String
  on : Bool
  status : CommandStatus
  createdAt : Instant
  expiresAt : Instant
  dispatchStartedAt : Option Instant

/-- The transient row of an intent. -/
def Intent.row (i : Intent) : DeviceCommand where
  commandId := i.commandId
  correlationId := i.correlationId
  houseId := i.house
  deviceId := i.device
  requestedBy := i.user
  idempotencyHash := i.hash
  requestedOn := i.on
  status := i.status
  ackStatus := none
  reportedOn := none
  failureCode := none
  createdAt := i.createdAt
  updatedAt := i.createdAt
  expiresAt := i.expiresAt
  dispatchStartedAt := i.dispatchStartedAt
  dispatchedAt := none
  ackReceivedAt := none
  stateReceivedAt := none
  completedAt := none

/-- Make room among the windows: forget those of terminal rows. -/
def makeRoom : Program Unit := do
  let (_, a) ← compute ControlAuthority.authority
  if a.windows.size < ControlAuthority.maxWindows then return
  else
    let db ← query fun _ => []
    let _ ← compute (ControlAuthority.modify
      (ControlAuthority.popWindows (ControlAuthority.terminalIds db a)))
    let (_, a) ← compute ControlAuthority.authority
    if a.windows.size < ControlAuthority.maxWindows then return
    else .raise (.unavailable "Control authority capacity reached")

/-- `prepare` -/
def prepare (cfg : Config) (pid : Nat) (row : DeviceCommand) : Program Unit := do
  physical row.houseId row.deviceId
  let (port, now, tick) ← compute ControlAuthority.prepareSample
  let found ← find (.byId row.commandId)
  Prog.lift (ControlAuthority.prepareCheck row found.isSome now)
  makeRoom
  let record := ControlAuthority.candidate cfg.sha port.proc.authority.clock.epoch row
  let window := ControlAuthority.windowOf row record now tick
  let accepted ← flush { insert := some row }
  if !accepted then .raise (.conflict "Control intent conflicts with existing data")
  else
    let refused ← commit { insert := some row, control := some record }
      [.prepared pid row record window]
    match refused with
    | some _ => .raise (.conflict "Command conflicts with an existing request")
    | none =>
      let _ ← compute (ControlAuthority.modify fun a =>
        { a with windows := a.windows.set row.commandId window })

/-- `stage` -/
def stage (cfg : Config) (house device id : String) : Program ControlDelivery := do
  physical house device
  let (_, now, tick) ← compute (ControlAuthority.clocked ControlClock.sample)
  let row ← find (.routed house device id)
  let record ← getControl id
  let (_, result, delivery) ← compute
    (ControlAuthority.stageDecide cfg.sha id row record now tick)
  -- A cancelled publish must not make explicit replay possible.
  let refused ← commit { update := some result } (row.map (Event.staged · result)).toList
  match refused with
  | none => return delivery
  | some _ => .raise (.conflict "Command conflicts with an existing request")

/-- `request` of a grant that has been decided: bind it, remember the reply and
return it. -/
def bindGrant (session pid : Nat) (grant : ControlAuthority.Grant) : Program ControlDelivery := do
  let refused ← commit { bind := some (grant.row.commandId, grant.binding) }
    [.bound session pid grant]
  match refused with
  | some .integrity => .raise (.conflict "Control nonce was already used")
  | some .missed => .raise (.conflict "A permit attempt was already consumed")
  | none =>
    let _ ← computeNote (ControlAuthority.modify (ControlAuthority.storeReply grant)) fun _ _ =>
      [.granted (grant.permit session pid)]
    return grant.delivery

/-- What `request` returns at once: a cached reply. -/
def cachedNote (session pid : Nat) (house device : String) (request : PermitRequest) (port : Port) :
    ControlAuthority.Decision → List Event
  | .cached row record delivery =>
    match port.proc.authority.windows.get? request.commandId with
    | some window =>
      [.granted { session, pid, house, device, request, row, record, window, delivery }]
    | none => []
  | .fresh _ => []

/-- `request` -/
def request (cfg : Config) (session pid : Nat) (house device : String) (request : PermitRequest) :
    Program ControlDelivery := do
  physical house device
  let (_, now, tick) ← compute (ControlAuthority.clocked ControlClock.sample)
  let row ← find (.routed house device request.commandId)
  let record ← lockControl request.commandId
  let (_, decision) ← computeNote
    (ControlAuthority.requestDecide cfg.sha house device request row record now tick)
    (cachedNote session pid house device request)
  match decision with
  | .cached _ _ delivery => return delivery
  | .fresh grant => bindGrant session pid grant

/-! ### The control half of `MQTTGateway` -/

/-- The checks between a delivery and its publication. -/
def validateDelivery (delivery : ControlDelivery) : Program Unit := do
  let (_, up) ← compute do
    let p ← Call.self
    return p.proc.connected && p.proc.controlSubscribed
  if !up then .raise (.unavailable "Control transport subscription is unavailable")
  else
    let _ ← compute (ControlAuthority.validateDelivery delivery)

/-- `send_control_command` -/
def sendControlCommand (cfg : Config) (house device id : String) : Program Unit := do
  let delivery ← stage cfg house device id
  rollback
  validateDelivery delivery
  let _ ← publish (.published .controlCommand house device delivery.payload)

/-- The bytes of a denial. -/
def deniedPayload (request : PermitRequest) : String :=
  JsonText.dumps (request.dump "permit_denied" ++ [("reason", .text "unavailable")])

/-- A denial is not a grant. -/
theorem denied_ne_grant (request request' : PermitRequest) (now expires : Instant)
    (remaining : Int) :
    deniedPayload request ≠ ControlAuthority.grantPayload request' now expires remaining := by
  intro h
  have := JsonText.dumps_second_inj (k := "control_version") (v := .number 1) h
  revert this
  decide

/-- `except (ConflictError, UnavailableError)` -/
def denies : Error → Bool
  | .conflict _ | .unavailable _ => true
  | _ => false

/-- `_control_request`, for a request that was decoded and not rate limited. -/
def controlRequest (cfg : Config) (session pid : Nat) (house device : String)
    (req : PermitRequest) : Program Unit := do
  let _ ← requireHouse house device
  let outcome ← Prog.attempt (do
    let delivery ← request cfg session pid house device req
    rollback
    validateDelivery delivery
    return delivery.payload)
  rollback
  match outcome with
  | .ok payload =>
    let _ ← publish (.published .controlReply house device payload)
  | .error e =>
    if denies e then
      let _ ← publish (.published .controlReply house device (deniedPayload req))
    else .raise e

end Services

/-- A call of a service. -/
inductive ServiceCall
  | submit (house device user key : String) (on : Bool)
  | get (house commandId : String)
  | ack (house device : String) (envelope : AckEnvelope) (retained : Bool)
  | state (house device : String) (envelope : StateEnvelope) (retained : Bool)
  | updateState (device : String) (patch : List (String × Json)) (correlationId : String)
  | initializeAuthority
  | prepare (intent : Services.Intent)
  | sendControlCommand (house device commandId : String)
  | controlRequest (house device : String) (request : PermitRequest)

/-- The program of a call. -/
def ServiceCall.program (cfg : Config) (session pid : Nat) : ServiceCall → Program Unit
  | .submit house device user key on => Services.submit cfg session house device user key on
  | .get house id => do
    let _ ← Services.get none house id
  | .ack house device envelope retained => Services.ack house device envelope retained
  | .state house device envelope retained => Services.state house device envelope retained
  | .updateState device patch correlationId =>
    Services.updateState cfg device patch correlationId
  | .initializeAuthority => Services.initializeAuthority pid
  | .prepare intent => Services.prepare cfg pid intent.row
  | .sendControlCommand house device id => Services.sendControlCommand cfg house device id
  | .controlRequest house device request =>
    Services.controlRequest cfg session pid house device request

/-- A label of a run of Core. -/
abbrev Label : Type := Session.Label Nat ServiceCall Input Action

/-- A state of Core. -/
abbrev World : Type := Session.State sql Shared Nat Error

/-- The Core processes, their sessions and their database. -/
def coreSystem (cfg : Config) : Transition.System World Label :=
  Session.system core (fun s p call => call.program cfg s p)

/-- The state after a run that starts with empty ledger tables. -/
def after (cfg : Config) (registry : Registry) (labels : List Label) : World :=
  (coreSystem cfg).run (State.init (Shared.empty registry)) labels

end KzHome

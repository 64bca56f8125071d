import KzHome.Authorization
import KzHome.Layout
import KzHome.Services

/-!
# KzHome.Structure

The requests that change the structure of houses, and those that rely on it: `PATCH` and
`DELETE` of floors, rooms and devices, the deletion of a house, the creation of a device,
the claim and the lifecycle of a physical device, and the submission of a command.

Each is a program of statements at READ COMMITTED, from its authorization to its commit.
All mutations of the structure go through `PhysicalBindingGuard.structure_mutation`:
it reads the house of the place, locks that house and the target house, and reads again.
-/

namespace KzHome

open Session Sql StateValidator

/-- What a submission meets outside the tables: the clocks and the authority at each
consultation, the connection, `authorize_command`, and how the publication ends. -/
structure Surroundings where
  port : Nat → Port
  connected : Bool
  authorized : Except Error Unit
  published : Bool

/-- The requests. -/
inductive HomeRequest
  | updateFloor (id : String) (patch : FloorPatch)
  | deleteFloor (id : String)
  | updateRoom (id : String) (patch : RoomPatch)
  | deleteRoom (id : String)
  /-- `fields` are the `model_fields_set` of the body. -/
  | updateDevice (id : String) (patch : DevicePatch) (fields : List String)
  | deleteDevice (id : String)
  | deleteHouse (id : String)
  | createDevice (id : String) (row : DeviceRow)
  /-- `digest` is `claim_digest` of the claim code. -/
  | claim (house hardware : String) (digest : Except Error String) (room name : String)
  /-- `activate`, `deactivate` and `revoke`. -/
  | transition (house device : String) (target : PhysicalStatus)
  /-- `hash` is the digest of the idempotency key. -/
  | submit (device hash : String) (on : Bool) (env : Surroundings)

/-- What is noted at commits: a claim, a change of a place with the tables in which its guard
has found it, a command with the house that it was authorized in. -/
inductive HomeNote
  | claimed (device house : String)
  | changed (place : Place) (permission : Permission) (found : Tables)
  | submitted (device home : String)

namespace Place

/-- What `house_for` calls a place. -/
def kind : Place → Kind
  | .house _ => .house
  | .floor _ => .floor
  | .room _ => .room
  | .device _ => .device

def id : Place → String
  | .house id | .floor id | .room id | .device id => id

def row : Place → TableRow
  | .house id => .house id
  | .floor id => .floor id
  | .room id => .room id
  | .device id => .device id

end Place

namespace Tables

variable (t : Tables)

/-- The query of `structure_house`. -/
def structureHouse? : Place → Option String
  | .house id => (t.houses.get? id).map fun _ => id
  | .floor id => t.floorHouse? id
  | .room id => t.roomHouse? id
  | .device id => t.deviceHouse? id

/-- `structure_house` -/
def structureHouse (place : Place) : Except RouteError String :=
  match t.structureHouse? place with
  | some house => .ok house
  | none => .error (.service (.notFound "Resource not found"))

/-- `bound_in_structure` -/
def boundInStructure (place : Place) : Bool :=
  t.physical.entries.any fun e =>
    e.2.houseId.isSome &&
      match place with
      | .house id => e.2.houseId = some id
      | .floor id => e.2.boundDeviceId.any fun device =>
        (t.devices.get? device).any fun d => (t.rooms.get? d.roomId).any fun r => r.floorId = id
      | .room id => e.2.boundDeviceId.any fun device =>
        (t.devices.get? device).any fun d => d.roomId = id
      | .device id => e.2.boundDeviceId.any fun device =>
        device = id && (t.devices.get? device).isSome

/-- The house that a device is bound to. -/
def boundHouse? (device : String) : Option String :=
  (t.physical.find? fun _ p => p.boundDeviceId = some device).bind (·.2.houseId)

end Tables

/-- `Repository.get` and others, for a row that was looked up. -/
def found {α : Type} (error : Error) : Option α → Except RouteError α
  | some row => .ok row
  | none => .error (.service error)

/-- A check of a service. -/
def ensure (condition : Bool) (error : Error) : Except RouteError Unit :=
  if condition then .ok () else .error (.service error)

/-- The errors of a service, raised in a route. -/
def raised {α : Type} : Except Error α → Except RouteError α
  | .ok a => .ok a
  | .error e => .error (.service e)

/-- What a failed commit raises: the message for an `IntegrityError`, and the error for a row
count. -/
def committed (message : String) (missed : Error) : Except Violation Unit → Except RouteError Unit
  | .ok () => .ok ()
  | .error .integrity => .error (.service (.conflict message))
  | .error .rowcount => .error (.service missed)

theorem structureHouse_ok {t : Tables} {place : Place} {house : String}
    (h : t.structureHouse place = .ok house) : t.structureHouse? place = some house := by
  unfold Tables.structureHouse at h
  split at h
  · obtain rfl := Except.ok.inj h
    assumption
  · cases h

theorem found_ok {α : Type} {e : Error} {o : Option α} {a : α} (h : found e o = .ok a) :
    o = some a := by
  cases o with
  | none => cases h
  | some b => rw [Except.ok.inj h]

theorem raised_ok {α : Type} {x : Except Error α} {a : α} (h : raised x = .ok a) : x = .ok a := by
  cases x with
  | error e => cases h
  | ok b => exact congrArg _ (Except.ok.inj h)

theorem ensure_ok {c : Bool} {e : Error} {u : Unit} (h : ensure c e = .ok u) : c = true := by
  cases c with
  | false => cases h
  | true => rfl

/-- The columns of a patch that differ from the row: the others are not written. -/
def FloorPatch.changes (p : FloorPatch) (row : FloorRow) : FloorPatch where
  houseId := p.houseId.filter (· ≠ row.houseId)
  name := p.name.filter (· ≠ row.name)
  order := p.order.filter (· ≠ row.order)

def RoomPatch.changes (p : RoomPatch) (row : RoomRow) : RoomPatch where
  floorId := p.floorId.filter (· ≠ row.floorId)
  name := p.name.filter (· ≠ row.name)
  icon := p.icon.filter fun icon => some icon ≠ row.icon

def DevicePatch.changes (p : DevicePatch) (row : DeviceRow) : DevicePatch where
  name := p.name.filter (· ≠ row.name)
  roomId := p.roomId.filter (· ≠ row.roomId)
  type := p.type.filter (· ≠ row.type)
  state := p.state.filter fun state => !Json.pyEq (.obj row.state) (.obj state)
  online := p.online.filter (· ≠ row.online)
  capabilities := p.capabilities.filter (· ≠ row.capabilities)
  metadata := p.metadata.filter fun metadata => !Json.pyEq (.obj row.metadata) (.obj metadata)

def FloorPatch.isEmpty (p : FloorPatch) : Bool := p = ⟨none, none, none⟩

def RoomPatch.isEmpty (p : RoomPatch) : Bool := p = ⟨none, none, none⟩

def DevicePatch.isEmpty (p : DevicePatch) : Bool :=
  p.name.isNone && p.roomId.isNone && p.type.isNone && p.state.isNone && p.online.isNone &&
    p.capabilities.isNone && p.metadata.isNone

namespace Structure

/-- Programs of a request. -/
abbrev Request (α : Type) := Query Tables TableRow Statement Violation HomeNote RouteError α

/-- `Repository._commit` -/
def saved : Except Violation Unit → Except RouteError Unit :=
  committed "Entity already exists or conflicts with related data" (.other "StaleDataError")

/-! ### Authorization -/

/-- `house_for` of a device. -/
def deviceHouse (device : String) : Request String := do
  let t ← Sql.read none
  match Tables.boundHouse? t device with
  | some house => return house
  | none => do
    let t ← Sql.read none
    Prog.lift (found (.notFound "DeviceORM not found") (Tables.deviceHouse? t device))

/-- `house_for` -/
def houseFor (kind : Kind) (id : String) : Request String :=
  match kind with
  | .device => deviceHouse id
  | kind => do
    let t ← Sql.read none
    Prog.lift (Tables.houseFor t kind id)

/-- `require` -/
def require (user house : String) (permission : Permission) : Request Unit := do
  let t ← Sql.read none
  let _ ← Prog.lift (Tables.require t user house permission)

/-- What a route asks for before it changes a place: the house that it finds the user entitled
in. -/
def authorize (user : String) (kind : Kind) (id : String) (permission : Permission) :
    Request String := do
  let house ← houseFor kind id
  require user house permission
  return house

/-! ### `PhysicalBindingGuard` -/

/-- The houses to lock, in their order. -/
def lockOrder (source target : String) : List TableRow :=
  if source = target then [.house source]
  else if source ≤ target then [.house source, .house target]
  else [.house target, .house source]

/-- `structure_mutation`; returns the tables in which it has found the place. -/
def structureMutation (place : Place) (target : Option String) (deleting : Bool) :
    Request Tables := do
  let t ← Sql.read none
  let source ← Prog.lift (Tables.structureHouse t place)
  Sql.lockAll (lockOrder source (target.getD source))
  let t' ← Sql.read none
  let again ← Prog.lift (Tables.structureHouse t' place)
  Prog.lift (ensure (again = source) (.conflict "Location changed concurrently; retry"))
  if deleting || (target != none && target != some source) then
    let t' ← Sql.read none
    Prog.lift (ensure (!Tables.boundInStructure t' place)
      (.conflict "Physical device bindings cannot be deleted or transferred"))
    return t
  else return t

/-- `require_active` with the lock of the inventory row. -/
def requireActive (device : String) : Request Unit := do
  let t ← Sql.lock (.physical device)
  match (Tables.physical t).get? device with
  | none => return ()
  | some item =>
    Prog.lift (ensure (item.status = .active) (.conflict "Physical device is not active"))
    let t ← Sql.read none
    let house ← Prog.lift (Tables.structureHouse t (.device device))
    Prog.lift (ensure (some house = item.houseId)
      (.conflict "Physical device binding is inconsistent"))

/-! ### Floors, rooms and devices -/

/-- `Repository.update` of a row that was loaded: without a changed column there is no
statement. -/
def flush (unchanged : Bool) (statement : Statement) (note : HomeNote) : Request Unit := do
  let result ← if unchanged then Sql.commit [] none else Sql.commit [statement] (some note)
  Prog.lift (saved result)

/-- What the route and `_validate_parents` ask of the new house of a floor. -/
def newHouse (user : String) : Option String → Request Unit
  | none => .ret ()
  | some house => do
    require user house .houseManage
    let t ← Sql.read none
    Prog.lift (ensure ((Tables.houses t).get? house).isSome
      (.invalidReference "Parent entity for house_id does not exist"))

/-- `PATCH /floors/{entity_id}` -/
def updateFloor (user id : String) (patch : FloorPatch) : Request Unit := do
  let _ ← authorize user .floor id .houseManage
  newHouse user patch.houseId
  let place ← structureMutation (.floor id) patch.houseId false
  let t ← Sql.read none
  let row ← Prog.lift (found (.notFound "FloorORM not found") ((Tables.floors t).get? id))
  flush (patch.changes row).isEmpty (.updateFloor id (patch.changes row))
    (.changed (.floor id) .houseManage place)

/-- The second look at the house of the target of a move. -/
def sameTarget (error : Error) (house? : Tables → String → Option String) (target : Option String) :
    Option String → Request Unit
  | none => .ret ()
  | some parent => do
    let t ← Sql.read none
    let again ← Prog.lift (found error (house? t parent))
    Prog.lift (ensure (some again = target)
      (.conflict "Target location changed concurrently; retry"))

/-- What the route and `_validate_parents` ask of the new floor of a room, and its house. -/
def newFloor (user : String) : Option String → Request (Option String)
  | none => .ret none
  | some floor => do
    let _ ← authorize user .floor floor .houseManage
    let t ← Sql.read none
    Prog.lift (ensure ((Tables.floors t).get? floor).isSome
      (.invalidReference "Parent entity for floor_id does not exist"))
    let t ← Sql.read none
    let house ← Prog.lift (found (.notFound "Resource not found") (Tables.floorHouse? t floor))
    return some house

/-- `PATCH /rooms/{entity_id}` -/
def updateRoom (user id : String) (patch : RoomPatch) : Request Unit := do
  let _ ← authorize user .room id .houseManage
  let target ← newFloor user patch.floorId
  let place ← structureMutation (.room id) target false
  sameTarget (.notFound "Resource not found") Tables.floorHouse? target patch.floorId
  let t ← Sql.read none
  let row ← Prog.lift (found (.notFound "RoomORM not found") ((Tables.rooms t).get? id))
  flush (patch.changes row).isEmpty (.updateRoom id (patch.changes row))
    (.changed (.room id) .houseManage place)

/-- What the route asks of the new room of a device, and its house. -/
def newRoom (user : String) : Option String → Request (Option String)
  | none => .ret none
  | some room => do
    let _ ← authorize user .room room .deviceManage
    let t ← Sql.read none
    let house ← Prog.lift (found (.notFound "RoomORM not found") (Tables.roomHouse? t room))
    return some house

/-- `_validate_room` of a new room. -/
def checkRoom : Option String → Request Unit
  | none => .ret ()
  | some room => do
    let t ← Sql.read none
    Prog.lift (ensure ((Tables.rooms t).get? room).isSome
      (.invalidReference "Room does not exist"))

/-- The check of a new state or new capabilities. -/
def checkState (id : String) (patch : DevicePatch) : Request Unit :=
  if patch.state.isNone && patch.capabilities.isNone then .ret ()
  else do
    let t ← Sql.read none
    let current ← Prog.lift (found (.notFound "DeviceORM not found") ((Tables.devices t).get? id))
    Prog.lift (raised (StateValidator.validateCapabilities
      (patch.capabilities.getD current.capabilities) (patch.state.getD current.state)))

/-- `PATCH /devices/{entity_id}` -/
def updateDevice (user id : String) (patch : DevicePatch) (fields : List String) :
    Request Unit := do
  let _ ← authorize user .device id .deviceManage
  let target ← newRoom user patch.roomId
  let place ← structureMutation (.device id) target false
  sameTarget (.notFound "RoomORM not found") Tables.roomHouse? target patch.roomId
  let t ← Sql.lock (.physical id)
  Prog.lift (ensure (((Tables.physical t).get? id).isNone ||
      fields.all fun field => ["name", "room_id"].contains field)
    (.conflict "Physical devices allow only name and room edits"))
  checkRoom patch.roomId
  checkState id patch
  let t ← Sql.read none
  let row ← Prog.lift (found (.notFound "DeviceORM not found") ((Tables.devices t).get? id))
  flush (patch.changes row).isEmpty (.updateDevice id (patch.changes row))
    (.changed (.device id) .deviceManage place)

/-- The three `DELETE` routes below a house. -/
def delete (user : String) (place : Place) (permission : Permission) (statement : Statement) :
    Request Unit := do
  let _ ← authorize user place.kind place.id permission
  let seen ← structureMutation place none true
  let t ← Sql.read none
  Prog.lift (ensure (Tables.has t place.row) (.notFound (place.kind.model ++ " not found")))
  let result ← Sql.commit [statement] (some (.changed place permission seen))
  Prog.lift (saved result)

/-- `DELETE /floors/{entity_id}` -/
def deleteFloor (user id : String) : Request Unit :=
  delete user (.floor id) .houseManage (.deleteFloor id)

/-- `DELETE /rooms/{entity_id}` -/
def deleteRoom (user id : String) : Request Unit :=
  delete user (.room id) .houseManage (.deleteRoom id)

/-- `DELETE /devices/{entity_id}` -/
def deleteDevice (user id : String) : Request Unit :=
  delete user (.device id) .deviceManage (.deleteDevice id)

/-- `DELETE /houses/{entity_id}` -/
def deleteHouse (user id : String) : Request Unit := do
  require user id .houseManage
  let _ ← structureMutation (.house id) none true
  let t ← Sql.read none
  Prog.lift (ensure (Tables.has t (.house id)) (.notFound "HouseORM not found"))
  let result ← Sql.commit [.deleteHouse id] none
  Prog.lift (saved result)

/-- `POST /devices` -/
def createDevice (user id : String) (row : DeviceRow) : Request Unit := do
  let _ ← authorize user .room row.roomId .deviceManage
  let t ← Sql.lock (.physical id)
  Prog.lift (ensure ((Tables.physical t).get? id).isNone
    (.conflict "Physical identity is reserved; use device claiming"))
  let t ← Sql.read none
  Prog.lift (ensure ((Tables.rooms t).get? row.roomId).isSome
    (.invalidReference "Room does not exist"))
  Prog.lift (raised (StateValidator.validateCapabilities row.capabilities row.state))
  let result ← Sql.commit [.insertDevice id row] none
  Prog.lift (saved result)

/-! ### Physical devices -/

/-- `PROFILES` -/
def profiles : List (String × String × List String) :=
  [("esp32-c6-relay-v1", "relay", ["on_off"]), ("esp32-relay-v1", "relay", ["on_off"])]

/-- `by_hardware`: the row is found by its hardware, and locked. -/
def byHardware (hardware : String) : Request (String × PhysicalRow) := do
  let t ← Sql.read none
  let e ← Prog.lift (found (.notFound "Resource not found")
    ((Tables.physical t).find? fun _ item => item.hardwareId = hardware))
  let t ← Sql.lock (.physical e.1)
  let item ← Prog.lift (found (.notFound "Resource not found") ((Tables.physical t).get? e.1))
  return (e.1, item)

/-- `POST /houses/{house_id}/device-claims` -/
def claim (user house hardware : String) (digest : Except Error String) (room name : String) :
    Request Unit := do
  require user house .deviceOnboard
  Sql.lockAll [.house house]
  let (device, item) ← byHardware hardware
  Prog.lift (ensure (item.houseId = none || item.houseId = some house)
    (.notFound "Resource not found"))
  Prog.lift (ensure (item.status = .unprovisioned)
    (.conflict "Physical device is already claimed"))
  let digest ← Prog.lift (raised digest)
  Prog.lift (ensure (item.claimCodeHash.getD "" = digest) (.notFound "Resource not found"))
  let t ← Sql.read none
  let actual ← Prog.lift (Tables.structureHouse t (.room room))
  Prog.lift (ensure (actual = house) (.notFound "Resource not found"))
  let profile ← Prog.lift (found (.other "KeyError")
    (profiles.find? fun profile => profile.1 = item.hardwareModel))
  let result ← Sql.commit
    [.insertDevice device ⟨name, room, profile.2.1, [], profile.2.2, [], false⟩,
      .bind device house]
    (some (.claimed device house))
  Prog.lift (committed "Physical device operation conflicts with existing data"
    (.conflict "Physical device is already claimed") result)

/-- The lifecycle of a bound device. -/
def lifecycle : PhysicalStatus → List PhysicalStatus
  | .provisioning => [.active, .inactive, .revoked]
  | .active => [.inactive, .revoked]
  | .inactive => [.active, .revoked]
  | .revoked | .unprovisioned => []

/-- `OnboardingService.transition` -/
def transition (user house device : String) (target : PhysicalStatus) : Request Unit := do
  require user house .deviceOnboard
  Sql.lockAll [.house house]
  let t ← Sql.lock (.physical device)
  let item ← Prog.lift (found (.notFound "Resource not found")
    (((Tables.physical t).get? device).filter (·.houseId = some house)))
  if item.status = target then
    let result ← Sql.commit [] none
    Prog.lift (saved result)
  else
    Prog.lift (ensure ((lifecycle item.status).contains target)
      (.conflict "Physical device lifecycle transition is not allowed"))
    let t ← Sql.read none
    let actual ← Prog.lift (Tables.structureHouse t (.device device))
    Prog.lift (ensure (actual = house) (.conflict "Physical device binding is inconsistent"))
    let result ← Sql.commit [.setStatus device item.status target] none
    Prog.lift (committed "Physical device operation conflicts with existing data"
      (.conflict "Physical lifecycle changed concurrently; retry") result)

/-! ### Commands -/

/-- The decision on a row of the ledger that was read, and its commit. -/
def process (job : Job) (port : Port) (id : String) : Request Unit := do
  let t ← Sql.lock (.command id)
  let row ← Prog.lift (found (.notFound "Resource not found") ((Tables.ledger t).command? id))
  let result ← Prog.lift (raised
    (((job.decide row ((Tables.ledger t).control? id)).run port).1))
  let written ← if result = row then Sql.commit [] none
    else Sql.commit [.ledger { update := some result }] none
  Prog.lift (saved written)

/-- `submit`, from the check of the device on; `freed` is the expired previous command. -/
def create (sub : Submission) (env : Surroundings) (freed : Option DeviceCommand) :
    Request Unit := do
  Prog.lift (ensure env.connected (.unavailable "MQTT transport is unavailable"))
  Prog.lift (raised env.authorized)
  let now ← Prog.lift (raised (CommandService.now.run (env.port 1)).1)
  let commandId ← Sql.input
  let correlationId ← Sql.input
  let row := Services.newRow sub commandId correlationId now
  let result ← Sql.commit [.ledger { update := freed, insert := some row }]
    (some (.submitted sub.device sub.house))
  Prog.lift (committed "Command conflicts with an existing request" (.other "StaleDataError")
    result)
  process (.settle env.published) (env.port 2) commandId
  process .read (env.port 3) commandId

/-- `submit` of a key that was not used before. -/
def submitNew (sub : Submission) (env : Surroundings) (device : DeviceRow) : Request Unit := do
  let t ← Sql.read none
  Prog.lift (ensure ((Tables.physical t).get? sub.device).isNone
    (.conflict "Physical command expiry contract is not verified"))
  Prog.lift (ensure (device.type = "relay" && device.capabilities.contains "on_off")
    (.invalidReference "Only relay on_off commands are supported"))
  Prog.lift (raised (StateValidator.validateCommand device.capabilities [("on", .bool sub.on)]))
  let t ← Sql.read none
  match (Tables.ledger t).commands.find? fun row =>
      row.deviceId = sub.device && row.status.pending with
  | none =>
    Prog.lift (ensure device.online (.conflict "Device is reported offline"))
    create sub env none
  | some pending =>
    let t ← Sql.lock (.command pending.commandId)
    let row ← Prog.lift (found (.notFound "Resource not found")
      ((Tables.ledger t).command? pending.commandId))
    let result ← Prog.lift (raised
      (((Job.read.decide row ((Tables.ledger t).control? row.commandId)).run (env.port 0)).1))
    Prog.lift (ensure (!result.status.pending)
      (.conflict "A command is already pending for this device"))
    Prog.lift (ensure device.online (.conflict "Device is reported offline"))
    create sub env (some result)

/-- `POST /v1/devices/{device_id}/commands` -/
def submit (user device hash : String) (on : Bool) (env : Surroundings) : Request Unit := do
  let home ← authorize user .device device .deviceControl
  requireActive device
  let t ← Sql.lock (.device device)
  let row ← Prog.lift (found (.notFound "Resource not found") ((Tables.devices t).get? device))
  let actual ← deviceHouse device
  Prog.lift (ensure (actual = home) (.conflict "Device location changed; retry authorization"))
  let t ← Sql.read none
  match (Tables.ledger t).commands.find? fun row => row.key = (home, user, hash) with
  | some previous =>
    Prog.lift (ensure (previous.deviceId = device && previous.requestedOn = on)
      (.conflict "Idempotency key was used for another intent"))
    process .read (env.port 0) previous.commandId
  | none => submitNew { house := home, device, user, hash, on } env row

/-! ### Requests -/

/-- The program of a request of a user. -/
def program (_ : Nat) (user : String) : HomeRequest → Request Unit
  | .updateFloor id patch => updateFloor user id patch
  | .deleteFloor id => deleteFloor user id
  | .updateRoom id patch => updateRoom user id patch
  | .deleteRoom id => deleteRoom user id
  | .updateDevice id patch fields => updateDevice user id patch fields
  | .deleteDevice id => deleteDevice user id
  | .deleteHouse id => deleteHouse user id
  | .createDevice id row => createDevice user id row
  | .claim house hardware digest room name => claim user house hardware digest room name
  | .transition house device target => transition user house device target
  | .submit device hash on env => submit user device hash on env

/-- Requests side by side. -/
def requests : Transition.System
    (Session.State (interface Tables TableRow Statement Violation HomeNote)
      (Store Tables TableRow HomeNote String) String RouteError)
    (Session.Label String HomeRequest String (Outside Tables)) :=
  system (machine schema undisturbed) program

end Structure

end KzHome

import KzHome.Automations
import KzHome.Ledger
import KzHome.Lib.Dict
import KzHome.Lib.Sql
import KzHome.Permissions

/-!
# KzHome.Tables

The tables of the database, with the statements that services write to them.

A `Statement` is an `INSERT`, an `UPDATE` of some columns or a `DELETE`; it fails where a
constraint of the schema is violated (`IntegrityError`) or where it has to change a row
that is not there. Deletions go down the structure, from a house to its floors, their
rooms and their devices, and are refused as a whole where a removed row is still
referenced by a key without cascade.

`Tables.registry` is the view of the tables that `PhysicalBindingGuard` and
`DeviceRepository` read: what they compute is in `KzHome.Registry`.
-/

namespace KzHome

open StateValidator

/-! ### Rows -/

structure HouseRow where
  name : String
  deriving DecidableEq, Repr

structure FloorRow where
  houseId : String
  name : String
  order : Int
  deriving DecidableEq, Repr

structure RoomRow where
  floorId : String
  name : String
  icon : Option String
  deriving DecidableEq, Repr

structure DeviceRow where
  name : String
  roomId : String
  type : String
  state : DeviceState
  capabilities : List String
  metadata : List (String × Json)
  online : Bool

/-- A row of `physical_devices`. -/
structure PhysicalRow where
  hardwareId : String
  hardwareModel : String
  status : PhysicalStatus
  claimCodeHash : Option String
  houseId : Option String
  boundDeviceId : Option String
  deriving DecidableEq, Repr

structure MembershipRow where
  userId : String
  houseId : String
  role : Role
  deriving DecidableEq, Repr

structure UserRow where
  isActive : Bool
  deriving DecidableEq, Repr

structure SceneRow where
  name : String
  houseId : String
  /-- Device actions. -/
  actions : List (String × DeviceState)

/-- `provisioning_sessions.status` -/
inductive AttemptStatus
  | discovered
  | cancelled
  | expired
  deriving DecidableEq, Repr

/-- A row of `provisioning_sessions`. -/
structure AttemptRow where
  houseId : String
  roomId : String
  deviceId : String
  actorId : String
  name : String
  status : AttemptStatus
  revision : Nat
  createdAt : Instant
  expiresAt : Instant
  challengeHash : String
  tokenHash : String
  createKeyHash : String
  requestHash : String
  cancelKeyHash : Option String
  cancelActorId : Option String
  cancelRevision : Option Nat
  deriving DecidableEq, Repr

/-- The committed database. `issued` are the identifiers that `uuid4` has issued for rows so
far; it does not issue one twice. -/
structure Tables where
  houses : Dict String HouseRow
  floors : Dict String FloorRow
  rooms : Dict String RoomRow
  devices : Dict String DeviceRow
  physical : Dict String PhysicalRow
  memberships : Dict String MembershipRow
  users : Dict String UserRow
  scenes : Dict String SceneRow
  automations : Dict String AutomationRule
  attempts : Dict String AttemptRow
  ledger : Ledger
  issued : List String

/-- The rows that are locked, by table and key. -/
inductive TableRow
  | house (id : String)
  | floor (id : String)
  | room (id : String)
  | device (id : String)
  | physical (device : String)
  | membership (id : String)
  | attempt (id : String)
  | command (id : String)
  deriving DecidableEq, Repr

/-! ### Statements -/

/-- The columns of an `UPDATE floors`. -/
structure FloorPatch where
  houseId : Option String
  name : Option String
  order : Option Int
  deriving DecidableEq, Repr

/-- The columns of an `UPDATE rooms`. -/
structure RoomPatch where
  floorId : Option String
  name : Option String
  icon : Option String
  deriving DecidableEq, Repr

/-- The columns of an `UPDATE devices`. -/
structure DevicePatch where
  name : Option String
  roomId : Option String
  type : Option String
  state : Option DeviceState
  online : Option Bool
  capabilities : Option (List String)
  metadata : Option (List (String × Json))

def FloorPatch.apply (p : FloorPatch) (row : FloorRow) : FloorRow where
  houseId := p.houseId.getD row.houseId
  name := p.name.getD row.name
  order := p.order.getD row.order

def RoomPatch.apply (p : RoomPatch) (row : RoomRow) : RoomRow where
  floorId := p.floorId.getD row.floorId
  name := p.name.getD row.name
  icon := if p.icon.isSome then p.icon else row.icon

def DevicePatch.apply (p : DevicePatch) (row : DeviceRow) : DeviceRow where
  name := p.name.getD row.name
  roomId := p.roomId.getD row.roomId
  type := p.type.getD row.type
  state := p.state.getD row.state
  capabilities := p.capabilities.getD row.capabilities
  metadata := p.metadata.getD row.metadata
  online := p.online.getD row.online

/-- The cancellation columns of `provisioning_sessions`. -/
structure Cancellation where
  keyHash : String
  actorId : String
  revision : Nat
  deriving DecidableEq, Repr

/-- What a transaction writes. -/
inductive Statement
  | deleteHouse (id : String)
  | updateFloor (id : String) (patch : FloorPatch)
  | deleteFloor (id : String)
  | updateRoom (id : String) (patch : RoomPatch)
  | deleteRoom (id : String)
  | insertDevice (id : String) (row : DeviceRow)
  | updateDevice (id : String) (patch : DevicePatch)
  | deleteDevice (id : String)
  /-- `PhysicalDeviceRepository.claim` -/
  | bind (device house : String)
  /-- `PhysicalDeviceRepository.set_status` -/
  | setStatus (device : String) (previous status : PhysicalStatus)
  | insertMembership (id : String) (row : MembershipRow)
  | setRole (id : String) (role : Role)
  | deleteMembership (id : String)
  | insertAttempt (id : String) (row : AttemptRow)
  /-- `ProvisioningService._apply`: the row is updated if it has the status and the
  revision it was read with. -/
  | settle (id : String) (revision : Nat) (status target : AttemptStatus)
      (cancellation : Option Cancellation)
  | ledger (write : Ledger.Write)

/-- Why a statement fails. -/
inductive Violation
  /-- `IntegrityError` -/
  | integrity
  /-- The statement changed no row where it had to change one. -/
  | rowcount
  deriving DecidableEq, Repr

namespace Tables

variable (t : Tables)

/-- The view of the tables that guards read. -/
def registry : Registry where
  devices := t.devices.entries.map fun e =>
    ⟨e.1, e.2.roomId, e.2.type, e.2.capabilities, e.2.online⟩
  physical := t.physical.entries.map fun e => ⟨e.1, e.2.houseId, e.2.boundDeviceId, e.2.status⟩
  rooms := t.rooms.entries.map fun e => ⟨e.1, e.2.floorId⟩
  floors := t.floors.entries.map fun e => ⟨e.1, e.2.houseId⟩

/-! ### Structure -/

def floorHouse? (floor : String) : Option String := (t.floors.get? floor).map (·.houseId)

def roomHouse? (room : String) : Option String :=
  (t.rooms.get? room).bind fun row => t.floorHouse? row.floorId

def deviceHouse? (device : String) : Option String :=
  (t.devices.get? device).bind fun row => t.roomHouse? row.roomId

/-- A foreign key without cascade keeps a removed row: a binding or a command of a device, or
a provisioning session of a room. -/
def referenced (devices rooms : String → Bool) : Bool :=
  t.physical.entries.any (fun e => e.2.boundDeviceId.any devices) ||
    t.ledger.commands.any (fun row => devices row.deviceId) ||
    t.attempts.entries.any (fun e => rooms e.2.roomId)

/-- `DELETE` of floors, rooms and devices, if nothing refers to them. -/
def remove (floors rooms devices : String → Bool) : Except Violation Tables :=
  if t.referenced devices rooms then .error .integrity
  else .ok { t with
    floors := t.floors.filter fun id _ => !floors id
    rooms := t.rooms.filter fun id _ => !rooms id
    devices := t.devices.filter fun id _ => !devices id }

/-- The rooms of some floors. -/
def roomsOf (floors : String → Bool) (room : String) : Bool :=
  (t.rooms.get? room).any fun row => floors row.floorId

/-- The devices of some rooms. -/
def devicesOf (rooms : String → Bool) (device : String) : Bool :=
  (t.devices.get? device).any fun row => rooms row.roomId

/-- `DELETE` of floors with everything on them. -/
def removeFloors (floors : String → Bool) : Except Violation Tables :=
  t.remove floors (t.roomsOf floors) (t.devicesOf (t.roomsOf floors))

/-- A statement. -/
def write : Statement → Except Violation Tables
  | .deleteHouse id =>
    if t.physical.entries.any (fun e => e.2.houseId = some id) ||
        t.ledger.commands.any (fun row => row.houseId = id) ||
        t.attempts.entries.any (fun e => e.2.houseId = id) then .error .integrity
    else
      (t.removeFloors fun floor => t.floorHouse? floor = some id).map fun t' =>
        { t' with
          houses := t.houses.pop id
          memberships := t.memberships.filter fun _ row => row.houseId ≠ id
          scenes := t.scenes.filter fun _ row => row.houseId ≠ id
          automations := t.automations.filter fun _ row => row.houseId ≠ id }
  | .updateFloor id patch =>
    if (t.floors.get? id).isNone then .error .rowcount
    else if patch.houseId.all fun house => (t.houses.get? house).isSome then
      .ok { t with floors := t.floors.modify id patch.apply }
    else .error .integrity
  | .deleteFloor id => t.removeFloors fun floor => floor = id
  | .updateRoom id patch =>
    if (t.rooms.get? id).isNone then .error .rowcount
    else if patch.floorId.all fun floor => (t.floors.get? floor).isSome then
      .ok { t with rooms := t.rooms.modify id patch.apply }
    else .error .integrity
  | .deleteRoom id => t.remove (fun _ => false) (fun room => room = id)
      (t.devicesOf fun room => room = id)
  | .insertDevice id row =>
    if (t.devices.get? id).isNone && (t.rooms.get? row.roomId).isSome then
      .ok { t with devices := t.devices.set id row }
    else .error .integrity
  | .updateDevice id patch =>
    if (t.devices.get? id).isNone then .error .rowcount
    else if patch.roomId.all fun room => (t.rooms.get? room).isSome then
      .ok { t with devices := t.devices.modify id patch.apply }
    else .error .integrity
  | .deleteDevice id => t.remove (fun _ => false) (fun _ => false) fun device => device = id
  | .bind device house =>
    match t.physical.get? device with
    | some row =>
      if row.status ≠ .unprovisioned ∨ row.houseId ≠ none then .error .rowcount
      else if (t.houses.get? house).isSome && (t.devices.get? device).isSome then
        .ok { t with
          physical := t.physical.set device { row with
            houseId := some house
            boundDeviceId := some device
            claimCodeHash := none
            status := .provisioning } }
      else .error .integrity
    | none => .error .rowcount
  | .setStatus device previous status =>
    match t.physical.get? device with
    | some row =>
      if row.status ≠ previous then .error .rowcount
      else .ok { t with
        physical := t.physical.modify device fun row => { row with status }
        devices := t.devices.modify device fun row => { row with online := false } }
    | none => .error .rowcount
  | .insertMembership id row =>
    if id ∈ t.issued then .error .integrity
    else if (t.memberships.find? fun _ r => r.userId = row.userId ∧ r.houseId = row.houseId).isNone
        && (t.users.get? row.userId).isSome && (t.houses.get? row.houseId).isSome then
      .ok { t with memberships := t.memberships.set id row, issued := id :: t.issued }
    else .error .integrity
  | .setRole id role =>
    if (t.memberships.get? id).isNone then .error .rowcount
    else .ok { t with memberships := t.memberships.modify id fun row => { row with role } }
  | .deleteMembership id => .ok { t with memberships := t.memberships.pop id }
  | .insertAttempt id row =>
    if id ∈ t.issued then .error .integrity
    else if (t.attempts.find? fun _ r => r.houseId = row.houseId ∧ r.actorId = row.actorId ∧
          r.createKeyHash = row.createKeyHash).isNone &&
        (row.status ≠ .discovered ||
          (t.attempts.find? fun _ r => r.deviceId = row.deviceId ∧ r.status = .discovered).isNone) &&
        row.createdAt < row.expiresAt && (t.houses.get? row.houseId).isSome &&
        (t.rooms.get? row.roomId).isSome && (t.physical.get? row.deviceId).isSome &&
        (t.users.get? row.actorId).isSome then
      .ok { t with attempts := t.attempts.set id row, issued := id :: t.issued }
    else .error .integrity
  | .settle id revision status target cancellation =>
    match t.attempts.get? id with
    | some row =>
      if row.revision ≠ revision ∨ row.status ≠ status then .error .rowcount
      else if cancellation.all fun c => (t.users.get? c.actorId).isSome then
        .ok { t with
          attempts := t.attempts.modify id fun row => { row with
            status := target
            revision := revision + 1
            cancelKeyHash := (cancellation.map (·.keyHash)).or row.cancelKeyHash
            cancelActorId := (cancellation.map (·.actorId)).or row.cancelActorId
            cancelRevision := (cancellation.map (·.revision)).or row.cancelRevision } }
      else .error .integrity
    | none => .error .rowcount
  | .ledger write =>
    if write.insert.all fun row => (t.houses.get? row.houseId).isSome &&
        (t.devices.get? row.deviceId).isSome && (t.users.get? row.requestedBy).isSome then
      match t.ledger.apply write with
      | some ledger => .ok { t with ledger }
      | none => .error .integrity
    else .error .integrity

/-- The statements of a transaction, in their order. -/
def writes (t : Tables) : List Statement → Except Violation Tables
  | [] => .ok t
  | s :: rest => (t.write s).bind fun t' => writes t' rest

/-- Is a row there? -/
def has : TableRow → Bool
  | .house id => (t.houses.get? id).isSome
  | .floor id => (t.floors.get? id).isSome
  | .room id => (t.rooms.get? id).isSome
  | .device id => (t.devices.get? id).isSome
  | .physical device => (t.physical.get? device).isSome
  | .membership id => (t.memberships.get? id).isSome
  | .attempt id => (t.attempts.get? id).isSome
  | .command id => (t.ledger.command? id).isSome

end Tables

/-- The rows of some floors with everything on them. -/
def Tables.below (t : Tables) (floors rooms devices : String → Bool) : List TableRow :=
  (t.floors.entries.filter fun e => floors e.1).map (fun e => .floor e.1) ++
    (t.rooms.entries.filter fun e => rooms e.1).map (fun e => .room e.1) ++
    (t.devices.entries.filter fun e => devices e.1).map fun e => .device e.1

/-- The rows that a statement updates or deletes. -/
def Statement.targets (t : Tables) : Statement → List TableRow
  | .deleteHouse id =>
    let floors := fun floor => t.floorHouse? floor = some id
    .house id :: t.below floors (t.roomsOf floors) (t.devicesOf (t.roomsOf floors)) ++
      (t.memberships.entries.filter fun e => e.2.houseId = id).map fun e => .membership e.1
  | .updateFloor id _ => [.floor id]
  | .deleteFloor id =>
    let floors := fun floor => floor = id
    t.below floors (t.roomsOf floors) (t.devicesOf (t.roomsOf floors))
  | .updateRoom id _ => [.room id]
  | .deleteRoom id =>
    let rooms := fun room => room = id
    t.below (fun _ => false) rooms (t.devicesOf rooms)
  | .insertDevice _ _ => []
  | .updateDevice id _ => [.device id]
  | .deleteDevice id => [.device id]
  | .bind device _ => [.physical device]
  | .setStatus device _ _ => [.physical device, .device device]
  | .insertMembership _ _ => []
  | .setRole id _ => [.membership id]
  | .deleteMembership id => [.membership id]
  | .insertAttempt _ _ => []
  | .settle id _ _ _ _ => [.attempt id]
  | .ledger write => write.update.toList.map fun row => .command row.commandId

@[simp] theorem Tables.writes_nil (t : Tables) : t.writes [] = .ok t := rfl

@[simp] theorem Tables.writes_singleton (t : Tables) (s : Statement) : t.writes [s] = t.write s := by
  rw [Tables.writes]
  cases t.write s <;> rfl

/-- The schema of the database. -/
def schema : Sql.Schema Tables TableRow Statement Violation where
  has := Tables.has
  targets := Statement.targets
  apply := Tables.writes

/-- Nothing but the sessions changes the database. -/
def undisturbed : Tables → Tables → Bool := fun _ _ => false

@[simp] theorem schema_apply_nil (t : Tables) : schema.apply t [] = .ok t := rfl

@[simp] theorem schema_apply_singleton (t : Tables) (s : Statement) :
    schema.apply t [s] = t.write s := Tables.writes_singleton t s

end KzHome

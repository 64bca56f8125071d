import KzHome.Locations
import KzHome.ProvisioningState

/-!
# KzHome.Inventory

The inventory of physical devices and its services: `register_inventory`, the creation of
an ordinary device, the claim and the lifecycle of a physical one with their audit events,
and the state and status reports of a device.

A `SELECT … FOR UPDATE` looks a row up, and locks it when it is there: of a row that is
not there, nothing is locked (`byDevice`).
-/

namespace KzHome

open Session Sql StateValidator

/-- A row of `event_logs` that `_audit` adds, with the members of its payload. -/
structure AuditRow where
  houseId : String
  eventType : String
  entityId : String
  deviceId : String
  actorId : String
  status : PhysicalStatus
  correlationId : String
  deriving DecidableEq, Repr

/-- The tables, with the audit events by their identifiers. -/
structure Estate where
  tables : Tables
  audits : Dict String AuditRow

/-- What the services write. -/
inductive EstateStatement
  | table (statement : Statement)
  /-- `add_inventory` -/
  | insertPhysical (device : String) (row : PhysicalRow)
  /-- `audit` -/
  | insertAudit (id : String) (row : AuditRow)

/-- What is noted: what a check for absence was made for, and what a commit commits. -/
inductive EstateNote
  /-- A registration looks for a device. -/
  | unused (device : String)
  /-- A creation looks for a physical device. -/
  | unreserved (device : String)
  | registered (device : String)
  | created (device : String)
  | claimed (device : String)
  | moved (device : String) (target : PhysicalStatus)
  | reported (device : String)
  deriving DecidableEq, Repr

namespace Estate

variable (est : Estate)

/-- A statement. -/
def write : EstateStatement → Except Violation Estate
  | .table statement => (est.tables.write statement).map fun tables => { est with tables }
  | .insertPhysical device row =>
    if (est.tables.physical.get? device).isNone &&
        (est.tables.physical.find? fun _ r => r.hardwareId = row.hardwareId).isNone then
      .ok { est with tables := { est.tables with
        physical := est.tables.physical.set device row } }
    else .error .integrity
  | .insertAudit id row =>
    if (est.audits.get? id).isNone then .ok { est with audits := est.audits.set id row }
    else .error .integrity

/-- The statements of a transaction, in their order. -/
def writes (est : Estate) : List EstateStatement → Except Violation Estate
  | [] => .ok est
  | s :: rest => (est.write s).bind fun est' => writes est' rest

theorem writes_cons {est est' : Estate} {s : EstateStatement} {rest : List EstateStatement} :
    est.writes (s :: rest) = .ok est' ↔
      ∃ mid, est.write s = .ok mid ∧ mid.writes rest = .ok est' := by
  rw [writes]
  cases est.write s with
  | error e => exact iff_of_false (fun h => nomatch h) fun ⟨_, h, _⟩ => nomatch h
  | ok mid => simp [Except.bind]

theorem writes_singleton {est : Estate} {s : EstateStatement} : est.writes [s] = est.write s := by
  rw [writes]
  cases est.write s <;> rfl

theorem write_table {est est' : Estate} {s : Statement} :
    est.write (.table s) = .ok est' ↔
      ∃ tables, est.tables.write s = .ok tables ∧ est' = { est with tables } := by
  rw [write]
  cases est.tables.write s with
  | error e => exact iff_of_false (fun h => nomatch h) fun ⟨_, h, _⟩ => nomatch h
  | ok tables => simp [Except.map, eq_comm]

theorem write_insertPhysical {est est' : Estate} {device : String} {row : PhysicalRow}
    (h : est.write (.insertPhysical device row) = .ok est') :
    est.tables.physical.get? device = none ∧
      est' = { est with tables := { est.tables with
        physical := est.tables.physical.set device row } } := by
  simp only [write] at h
  split at h
  · rename_i hnew
    simp only [Bool.and_eq_true, Option.isNone_iff_eq_none] at hnew
    exact ⟨hnew.1, (Except.ok.inj h).symm⟩
  · cases h

theorem write_insertAudit {est est' : Estate} {id : String} {row : AuditRow}
    (h : est.write (.insertAudit id row) = .ok est') :
    est.audits.get? id = none ∧ est' = { est with audits := est.audits.set id row } := by
  simp only [write] at h
  split at h
  · rename_i hnew
    exact ⟨by simpa using hnew, (Except.ok.inj h).symm⟩
  · cases h

/-- The status of a physical identity. -/
def status? (device : String) : Option PhysicalStatus :=
  (est.tables.physical.get? device).map (·.status)

theorem status?_set {est est' : Estate} {device : String} {row : PhysicalRow}
    (h : est'.tables.physical = est.tables.physical.set device row) (d : String) :
    est'.status? d = if d = device then some row.status else est.status? d := by
  rw [Estate.status?, h, Dict.get?_set_eq]
  split <;> rfl

/-- The statements of a claim: an unprovisioned identity gets its device and starts its
lifecycle. -/
theorem writes_claim {est est' : Estate} {device house id : String} {row : DeviceRow}
    {event : AuditRow}
    (h : est.writes [.table (.insertDevice device row), .table (.bind device house),
      .insertAudit id event] = .ok est') :
    est.tables.devices.get? device = none ∧ est.status? device = some .unprovisioned ∧
      est.audits.get? id = none ∧ est'.tables.devices = est.tables.devices.set device row ∧
      (∀ d, est'.status? d = if d = device then some .provisioning else est.status? d) ∧
      est'.audits = est.audits.set id event := by
  obtain ⟨est₁, h₁, h⟩ := writes_cons.mp h
  obtain ⟨est₂, h₂, h⟩ := writes_cons.mp h
  rw [writes_singleton] at h
  obtain ⟨tables, htables, rfl⟩ := write_table.mp h₁
  obtain ⟨hnew, rfl⟩ := Tables.write_insertDevice htables
  obtain ⟨tables, htables, rfl⟩ := write_table.mp h₂
  obtain ⟨item, hitem, hstatus, -, rfl⟩ := Tables.write_bind htables
  obtain ⟨hid, rfl⟩ := write_insertAudit h
  have hbefore : est.status? device = some .unprovisioned := by
    rw [status?, show est.tables.physical.get? device = some item from hitem, Option.map_some,
      hstatus]
  refine ⟨hnew, hbefore, hid, rfl, fun d => ?_, rfl⟩
  show ((est.tables.physical.set device _).get? d).map _ = _
  rw [Dict.get?_set_eq]
  split <;> rfl

/-- The statements of a transition: the status moves on from the one it was read with, and
the device goes offline. -/
theorem writes_transition {est est' : Estate} {device id : String}
    {previous target : PhysicalStatus} {event : AuditRow}
    (h : est.writes [.table (.setStatus device previous target), .insertAudit id event] =
      .ok est') :
    est.status? device = some previous ∧ est.audits.get? id = none ∧
      est'.tables.devices = (est.tables.devices.modify device fun row =>
        { row with online := false }) ∧
      (∀ d, est'.status? d = if d = device then some target else est.status? d) ∧
      est'.audits = est.audits.set id event := by
  obtain ⟨est₁, h₁, h⟩ := writes_cons.mp h
  rw [writes_singleton] at h
  obtain ⟨tables, htables, rfl⟩ := write_table.mp h₁
  obtain ⟨item, hitem, rfl, rfl⟩ := Tables.write_setStatus htables
  obtain ⟨hid, rfl⟩ := write_insertAudit h
  refine ⟨by rw [status?, hitem, Option.map_some], hid, rfl, fun d => ?_, rfl⟩
  show ((est.tables.physical.modify device _).get? d).map _ = _
  rw [Dict.get?_modify]
  split
  · rename_i hd
    rw [hd, hitem]
    rfl
  · rfl

end Estate

/-- The schema of the database with its audit events. -/
def estateSchema : Schema Estate TableRow EstateStatement Violation where
  has est row := est.tables.has row
  targets est
    | .table statement => statement.targets est.tables
    | .insertPhysical _ _ => []
    | .insertAudit _ _ => []
  apply := Estate.writes

namespace Inventory

/-- Programs of the services. -/
abbrev Request (α : Type) :=
  Query Estate TableRow EstateStatement Violation EstateNote RouteError α

/-- What a commit of `atomic` raises when it fails. -/
def settled (missed : Error) : Except Violation Unit → Except RouteError Unit :=
  committed "Physical device operation conflicts with existing data" missed

/-- The row of `by_device` with its lock; the note goes with the look. -/
def byDevice (device : String) (note : Option EstateNote) : Request (Option PhysicalRow) := do
  let est ← Sql.read note
  match (Tables.physical (Estate.tables est)).get? device with
  | none => return none
  | some _ => do
    let est ← Sql.lock (.physical device)
    return (Tables.physical (Estate.tables est)).get? device

/-- The query of `structure_house`. -/
def structureHouse (place : Place) : Request String := do
  let est ← Sql.read none
  Prog.lift (Tables.structureHouse (Estate.tables est) place)

/-! ### Identities -/

/-- `register_inventory`; `digest` is `claim_digest` of the claim code. -/
def registerInventory (device hardware model : String) (digest : Except Error String) :
    Request Unit := do
  let digest ← Prog.lift (raised digest)
  let est ← Sql.read (some (.unused device))
  Prog.lift (ensure ((Tables.devices (Estate.tables est)).get? device).isNone
    (.conflict "Device identity is already in use"))
  let result ← Sql.commit [.insertPhysical device ⟨hardware, model, .unprovisioned, some digest,
    none, none⟩] (some (.registered device))
  Prog.lift (settled (.other "StaleDataError") result)

/-- `DeviceService.create` -/
def createDevice (device : String) (row : DeviceRow) : Request Unit := do
  let item ← byDevice device (some (.unreserved device))
  Prog.lift (ensure item.isNone (.conflict "Physical identity is reserved; use device claiming"))
  let est ← Sql.read none
  Prog.lift (ensure ((Tables.rooms (Estate.tables est)).get? row.roomId).isSome
    (.invalidReference "Room does not exist"))
  Prog.lift (raised (StateValidator.validateCapabilities row.capabilities row.state))
  let result ← Sql.commit [.table (.insertDevice device row)] (some (.created device))
  Prog.lift (Structure.saved result)

/-- `_audit`, with the two identifiers that it draws. -/
def audit (device house actor : String) (status : PhysicalStatus) :
    Request EstateStatement := do
  let id ← Sql.input
  let correlationId ← Sql.input
  return .insertAudit id ⟨house, "device_onboarding_changed", device, device, actor, status,
    correlationId⟩

/-- `by_hardware` -/
def byHardware (hardware : String) : Request (Option (String × PhysicalRow)) := do
  let est ← Sql.read none
  match (Tables.physical (Estate.tables est)).find? fun _ item => item.hardwareId = hardware with
  | none => return none
  | some (device, _) => do
    let est ← Sql.lock (.physical device)
    return ((Tables.physical (Estate.tables est)).get? device).map fun item => (device, item)

/-- `OnboardingService.claim` -/
def claim (actor house hardware : String) (digest : Except Error String) (room name : String) :
    Request Unit := do
  Prog.lift (ensure (topicId house) (.other "ValidationError"))
  let _ ← Sql.lock (.house house)
  let found? ← byHardware hardware
  let (device, item) ← Prog.lift (found (.notFound "Resource not found") found?)
  Prog.lift (ensure (item.houseId = none || item.houseId = some house)
    (.notFound "Resource not found"))
  Prog.lift (ensure (item.status = .unprovisioned)
    (.conflict "Physical device is already claimed"))
  let digest ← Prog.lift (raised digest)
  Prog.lift (ensure (item.claimCodeHash.getD "" = digest) (.notFound "Resource not found"))
  let actual ← structureHouse (.room room)
  Prog.lift (ensure (actual = house) (.notFound "Resource not found"))
  let profile ← Prog.lift (found (.other "KeyError")
    (Structure.profiles.find? fun profile => profile.1 = item.hardwareModel))
  let event ← audit device house actor .provisioning
  let result ← Sql.commit
    [.table (.insertDevice device ⟨name, room, profile.2.1, [], profile.2.2, [], false⟩),
      .table (.bind device house), event]
    (some (.claimed device))
  Prog.lift (settled (.conflict "Physical device is already claimed") result)

/-- `OnboardingService.transition` -/
def transition (actor house device : String) (target : PhysicalStatus) : Request Unit := do
  let _ ← Sql.lock (.house house)
  let item? ← byDevice device none
  let item ← Prog.lift (found (.notFound "Resource not found")
    (item?.filter fun item => item.houseId = some house))
  if item.status = target then
    let result ← Sql.commit [] (some (.moved device target))
    Prog.lift (settled (.other "StaleDataError") result)
  else
    Prog.lift (ensure ((Structure.lifecycle item.status).contains target)
      (.conflict "Physical device lifecycle transition is not allowed"))
    let actual ← structureHouse (.device device)
    Prog.lift (ensure (actual = house) (.conflict "Physical device binding is inconsistent"))
    let event ← audit device house actor target
    let result ← Sql.commit [.table (.setStatus device item.status target), event]
      (some (.moved device target))
    Prog.lift (settled (.conflict "Physical lifecycle changed concurrently; retry") result)

/-! ### Reports -/

/-- `require_active` with a lock. -/
def requireActive (device : String) : Request Unit := do
  let item? ← byDevice device none
  match item? with
  | none => return ()
  | some item =>
    Prog.lift (ensure (item.status = .active) (.conflict "Physical device is not active"))
    let house ← structureHouse (.device device)
    Prog.lift (ensure (some house = item.houseId)
      (.conflict "Physical device binding is inconsistent"))

/-- `DeviceRepository.house_id` -/
def deviceHouse (device : String) : Request String := do
  let est ← Sql.read none
  match Tables.boundHouse? (Estate.tables est) device with
  | some house => return house
  | none => do
    let est ← Sql.read none
    Prog.lift (found (.notFound "DeviceORM not found")
      (Tables.deviceHouse? (Estate.tables est) device))

/-- `DeviceRepository.get`: no variable holds the row that `get_current` has loaded, so that it is
read again. -/
def get (device : String) : Request DeviceRow := do
  let est ← Sql.read none
  Prog.lift (found (.notFound "DeviceORM not found")
    ((Tables.devices (Estate.tables est)).get? device))

/-- `require_house` with a lock: the row of the device as it is then. -/
def requireHouse (house device : String) : Request DeviceRow := do
  requireActive device
  let row ← get device
  let actual ← deviceHouse device
  Prog.lift (ensure (actual = house)
    (.invalidReference "Device does not belong to MQTT topic house"))
  return row

/-- `Repository.update` of a device that was loaded: the columns that differ are written. -/
def update (device : String) (row : DeviceRow) (patch : DevicePatch) : Request Unit := do
  let writes := if (patch.changes row).isEmpty then []
    else [.table (.updateDevice device (patch.changes row))]
  let result ← Sql.commit writes (some (.reported device))
  Prog.lift (Structure.saved result)

/-- `report_state` -/
def reportState (house device : String) (patch : DeviceState) : Request Unit := do
  let _ ← requireHouse house device
  let row ← get device
  Prog.lift (raised (StateValidator.validateReport row.capabilities patch))
  let changed := Json.changes row.state patch
  if changed.isEmpty then return ()
  else
    update device row
      ⟨none, none, none, some (Json.merge row.state changed), none, none, none⟩

/-- `update_status`; `lastSeen` is `last_seen.isoformat()`. -/
def updateStatus (house device : String) (online : Bool) (lastSeen : String) : Request Unit := do
  let current ← requireHouse house device
  let row ← get device
  update device row ⟨none, none, none, none, some online, none,
    some (Json.merge current.metadata [("last_seen", .str lastSeen)])⟩

end Inventory

end KzHome

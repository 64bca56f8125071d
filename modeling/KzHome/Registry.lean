import KzHome.Basic

/-!
# KzHome.Registry

The tables a command is checked against: devices, their place in a house, and
the physical inventory, with the reads of `DeviceRepository` and
`PhysicalDeviceRepository` and the guards of `PhysicalBindingGuard` on them.

A physical binding is the authority on a device's house: `houseId` looks at the
inventory first and at the room only when the device is not bound.
-/

namespace KzHome

/-- The columns of `devices` that commands read. -/
structure Device where
  id : String
  roomId : String
  type : String
  capabilities : List String
  online : Bool
  deriving DecidableEq, Repr

/-- The lifecycle of a physical identity. -/
inductive PhysicalStatus
  | unprovisioned
  | provisioning
  | active
  | inactive
  | revoked
  deriving DecidableEq, Repr

/-- The columns of `physical_devices` that commands read. -/
structure PhysicalDevice where
  deviceId : String
  houseId : Option String
  boundDeviceId : Option String
  status : PhysicalStatus
  deriving DecidableEq, Repr

structure Room where
  id : String
  floorId : String
  deriving DecidableEq, Repr

structure Floor where
  id : String
  houseId : String
  deriving DecidableEq, Repr

/-- The tables that other services own and commands only read. -/
structure Registry where
  devices : List Device
  physical : List PhysicalDevice
  rooms : List Room
  floors : List Floor

namespace Registry

variable (r : Registry)

/-- `select(DeviceORM).where(DeviceORM.id == device_id)`. -/
def device? (device : String) : Option Device := r.devices.find? (fun d => d.id = device)

/-- `PhysicalDeviceRepository.by_device`. -/
def byDevice (device : String) : Option PhysicalDevice :=
  r.physical.find? (fun p => p.deviceId = device)

/-- The house reached through device, room and floor. -/
def location? (device : String) : Option String := do
  let d ← r.device? device
  let room ← r.rooms.find? (fun room => room.id = d.roomId)
  let floor ← r.floors.find? (fun floor => floor.id = room.floorId)
  return floor.houseId

/-- `PhysicalDeviceRepository.structure_house("device", device_id)`. -/
def structureHouse (device : String) : Except Error String :=
  match r.location? device with
  | some house => .ok house
  | none => .error (.notFound "Resource not found")

/-- `DeviceRepository.get`. -/
def getDevice (device : String) : Except Error Device :=
  match r.device? device with
  | some d => .ok d
  | none => .error (.notFound "DeviceORM not found")

/-- `DeviceRepository.house_id`: the bound house if there is one, else the
location; `none` is Python's `None` for a device without a location. -/
def houseId (device : String) : Except Error (Option String) :=
  match (r.physical.find? (fun p => p.boundDeviceId = some device)).bind (·.houseId) with
  | some house => .ok (some house)
  | none =>
    match r.location? device with
    | some house => .ok (some house)
    | none => (r.getDevice device).map fun _ => none

/-- `PhysicalDeviceRepository.for_house`. -/
def forHouse (house device : String) : Except Error PhysicalDevice :=
  match r.byDevice device with
  | some item =>
    if item.houseId = some house then .ok item else .error (.notFound "Resource not found")
  | none => .error (.notFound "Resource not found")

/-- `PhysicalBindingGuard.require_active`. -/
def requireActive (device : String) : Except Error Unit :=
  match r.byDevice device with
  | none => .ok ()
  | some item =>
    if item.status ≠ .active then .error (.conflict "Physical device is not active")
    else do
      let house ← r.structureHouse device
      if some house ≠ item.houseId then
        .error (.conflict "Physical device binding is inconsistent")
      else .ok ()

/-- `PhysicalBindingGuard.require_command_contract`. -/
def requireCommandContract (device : String) : Except Error Unit :=
  match r.byDevice device with
  | none => .ok ()
  | some _ => .error (.conflict "Physical command expiry contract is not verified")

/-- `DeviceService.require_house`: the device row it read. -/
def requireHouse (house device : String) : Except Error Device := do
  r.requireActive device
  let entity ← r.getDevice device
  let actual ← r.houseId device
  if actual ≠ some house then
    .error (.invalidReference "Device does not belong to MQTT topic house")
  else .ok entity

variable {r}

theorem requireCommandContract_ok {device : String} {u : Unit} :
    r.requireCommandContract device = .ok u ↔ r.byDevice device = none := by
  unfold requireCommandContract
  cases r.byDevice device <;> simp

/-- `require_house` returns the row of a device whose house is the one it was asked for. -/
theorem requireHouse_ok {house device : String} {entity : Device}
    (h : r.requireHouse house device = .ok entity) :
    r.device? device = some entity ∧ r.houseId device = .ok (some house) := by
  unfold requireHouse at h
  cases ha : r.requireActive device with
  | error e => rw [ha] at h; cases h
  | ok u =>
      rw [ha] at h
      cases hd : r.device? device with
      | none => simp only [getDevice, hd] at h; cases h
      | some d =>
          have hg : r.getDevice device = .ok d := by simp only [getDevice, hd]
          rw [hg] at h
          cases hh : r.houseId device with
          | error e => rw [hh] at h; cases h
          | ok actual =>
              rw [hh] at h
              by_cases hne : actual = some house
              · subst hne
                have h : (if some house ≠ some house then
                    Except.error (Error.invalidReference
                      "Device does not belong to MQTT topic house")
                  else .ok d) = Except.ok entity := h
                rw [if_neg (by simp)] at h
                cases h
                exact ⟨rfl, rfl⟩
              · have h : (if actual ≠ some house then
                    Except.error (Error.invalidReference
                      "Device does not belong to MQTT topic house")
                  else .ok d) = Except.ok entity := h
                rw [if_pos hne] at h
                cases h

end Registry

end KzHome

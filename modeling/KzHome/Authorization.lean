import KzHome.Tables

/-!
# KzHome.Authorization

Who may do what: `require` and `house_for`, which every route on a house or on a
resource by its identifier goes through.

The house of a resource is resolved by the repository of its kind: floors, scenes and
automations carry it in a column, rooms and devices get it from what they are in, and a
physical binding comes before the location of a device.
-/

namespace KzHome

/-- The kinds of resources that routes address by an identifier. -/
inductive Kind
  | house
  | floor
  | room
  | device
  | scene
  | automation
  deriving DecidableEq, Repr

/-- The name of the ORM class, as `Repository.get` reports it. -/
def Kind.model : Kind → String
  | .house => "HouseORM"
  | .floor => "FloorORM"
  | .room => "RoomORM"
  | .device => "DeviceORM"
  | .scene => "SceneORM"
  | .automation => "AutomationORM"

/-- `EntityNotFoundError(f"{self.model.__name__} not found")` of `Repository.get`. -/
def Kind.missing (kind : Kind) : RouteError := .service (.notFound (kind.model ++ " not found"))

namespace Tables

variable (t : Tables)

/-- `MembershipRepository.for_house`: the membership with its identifier. -/
def forHouse (user house : String) : Option (String × MembershipRow) :=
  t.memberships.find? fun _ row => row.userId = user ∧ row.houseId = house

/-- `AuthorizationService.has_permission` of the membership of a user. -/
def permits (user house : String) (permission : Permission) : Bool :=
  (t.forHouse user house).any fun m => m.2.role.permits permission

/-- `require` -/
def require (user house : String) (permission : Permission) :
    Except RouteError (String × MembershipRow) :=
  match t.forHouse user house with
  | none => .error .hidden
  | some membership =>
    if membership.2.role.permits permission then .ok membership else .error .forbidden

/-- `house_for`; `None` for a device or a room without a location does not come up, its
foreign keys are not nullable. -/
def houseFor (kind : Kind) (id : String) : Except RouteError String :=
  let found : Option String :=
    match kind with
    | .house => (t.houses.get? id).map fun _ => id
    | .floor => t.floorHouse? id
    | .room => t.roomHouse? id
    | .device => ((t.physical.find? fun _ p => p.boundDeviceId = some id).bind (·.2.houseId)).or
        (t.deviceHouse? id)
    | .scene => (t.scenes.get? id).map (·.houseId)
    | .automation => (t.automations.get? id).map (·.houseId)
  match found with
  | some house => .ok house
  | none => .error kind.missing

variable {t}

theorem require_ok {user house : String} {permission : Permission} {m : String × MembershipRow}
    (h : t.require user house permission = .ok m) :
    t.forHouse user house = some m ∧ m.2.role.permits permission = true := by
  unfold require at h
  cases hm : t.forHouse user house with
  | none => rw [hm] at h; cases h
  | some m' =>
      rw [hm] at h
      dsimp only at h
      split at h
      · rename_i hp
        obtain rfl := Except.ok.inj h
        exact ⟨rfl, hp⟩
      · cases h

/-- The membership that `for_house` finds. -/
theorem forHouse_some {user house : String} {m : String × MembershipRow}
    (h : t.forHouse user house = some m) :
    t.memberships.get? m.1 = some m.2 ∧ m.2.userId = user ∧ m.2.houseId = house := by
  obtain ⟨hget, hp⟩ := Dict.find?_eq_some h
  exact ⟨hget, by simpa using hp⟩

end Tables

end KzHome

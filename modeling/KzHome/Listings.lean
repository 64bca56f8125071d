import KzHome.Authorization
import Mathlib

/-!
# KzHome.Listings

What users see: the list endpoints, and the `GET` of one entity by its identifier.

A list is one query over the houses in which the roles of a user carry the
permission; a `GET` resolves the house of its entity and asks for the membership there.
Under the constraints of the schema both show the same entities: a list is the stored
table, filtered by what `GET` answers (`lists_agree`).
-/

namespace KzHome

/-- The constraints of the schema that queries rest on. -/
structure SchemaConstraints (t : Tables) : Prop where
  /-- A user has one membership in a house. -/
  memberships : ∀ m ∈ t.memberships.entries, ∀ m' ∈ t.memberships.entries,
    m.2.userId = m'.2.userId → m.2.houseId = m'.2.houseId → m = m'
  /-- `physical_devices.bound_device_id` is unique. -/
  bound : ∀ p ∈ t.physical.entries, ∀ p' ∈ t.physical.entries, ∀ device,
    p.2.boundDeviceId = some device → p'.2.boundDeviceId = some device → p = p'
  /-- `devices.room_id` -/
  rooms : ∀ d ∈ t.devices.entries, (t.rooms.get? d.2.roomId).isSome
  /-- `rooms.floor_id` -/
  floors : ∀ r ∈ t.rooms.entries, (t.floors.get? r.2.floorId).isSome

/-- The query parameters of `GET /devices`. -/
structure DeviceFilter where
  house : Option String
  room : Option String
  type : Option String
  online : Option Bool
  deriving DecidableEq, Repr

/-- The columns that `filtered_for_houses` compares. -/
def DeviceFilter.columns (f : DeviceFilter) (row : DeviceRow) : Bool :=
  f.room.all (row.roomId = ·) && f.type.all (row.type = ·) && f.online.all (row.online = ·)

namespace Tables

variable (t : Tables)

/-! ### Queries -/

/-- `accessible_house_ids` -/
def accessibleHouseIds (user : String) (permission : Permission) : List String :=
  (t.memberships.entries.filter fun m => m.2.userId = user && m.2.role.permits permission).map
    (·.2.houseId)

/-- The rows of a table whose house is one of `houses`; without houses there is no query. -/
def forHouses {α : Type} (rows : Dict String α) (house : α → String) (houses : List String) :
    List (String × α) :=
  if houses.isEmpty then [] else rows.entries.filter fun e => houses.contains (house e.2)

/-- `RoomRepository.for_houses` -/
def roomsForHouses (houses : List String) : List (String × RoomRow) :=
  if houses.isEmpty then []
  else t.rooms.entries.flatMap fun r =>
    (t.floors.entries.filter fun f => f.1 = r.2.floorId && houses.contains f.2.houseId).map
      fun _ => r

/-- The rows of a left join: what is joined, or a single row of nulls. -/
def outer {α : Type} : List α → List (Option α)
  | [] => [none]
  | rows => rows.map some

/-- `coalesce(PhysicalDeviceORM.house_id, FloorORM.house_id)` in the rows that a device is
joined to. -/
def joinedHouses (d : String × DeviceRow) : List String :=
  (t.rooms.entries.filter fun r => r.1 = d.2.roomId).flatMap fun r =>
    (t.floors.entries.filter fun f => f.1 = r.2.floorId).flatMap fun f =>
      (outer (t.physical.entries.filter fun p => p.2.boundDeviceId = some d.1)).map fun p =>
        (p.bind (·.2.houseId)).getD f.2.houseId

/-- `filtered_for_houses` -/
def filteredForHouses (houses : List String) (f : DeviceFilter) : List (String × DeviceRow) :=
  if houses.isEmpty then []
  else (t.devices.entries.flatMap fun d =>
      ((t.joinedHouses d).filter houses.contains).map fun _ => d).filter
    fun d => DeviceFilter.columns f d.2

/-! ### Lists -/

/-- `GET /houses` -/
def listHouses (user : String) : List (String × HouseRow) :=
  let houses := t.accessibleHouseIds user .houseRead
  if houses.isEmpty then [] else t.houses.entries.filter fun e => houses.contains e.1

/-- `GET /floors` -/
def listFloors (user : String) : List (String × FloorRow) :=
  forHouses t.floors (·.houseId) (t.accessibleHouseIds user .houseRead)

/-- `GET /rooms` -/
def listRooms (user : String) : List (String × RoomRow) :=
  t.roomsForHouses (t.accessibleHouseIds user .houseRead)

/-- `GET /scenes` -/
def listScenes (user : String) : List (String × SceneRow) :=
  forHouses t.scenes (·.houseId) (t.accessibleHouseIds user .sceneRead)

/-- `GET /automations` -/
def listAutomations (user : String) : List (String × AutomationRule) :=
  forHouses t.automations (·.houseId) (t.accessibleHouseIds user .automationRead)

/-- The houses of `GET /devices`: a house that is asked for has to be readable. -/
def deviceHouses (user : String) : Option String → Except RouteError (List String)
  | none => .ok (t.accessibleHouseIds user .deviceRead)
  | some house => do
    let _ ← t.require user house .deviceRead
    return [house]

/-- `GET /devices` -/
def listDevices (user : String) (f : DeviceFilter) :
    Except RouteError (List (String × DeviceRow)) := do
  let houses ← t.deviceHouses user f.house
  match f.room with
  | none => return t.filteredForHouses houses f
  | some room => do
    let house ← t.houseFor .room room
    let _ ← t.require user house .deviceRead
    return t.filteredForHouses houses f

/-! ### By identifier -/

/-- `Repository.get` -/
def fetch {α : Type} (kind : Kind) (rows : Dict String α) (id : String) : Except RouteError α :=
  match rows.get? id with
  | some row => .ok row
  | none => .error kind.missing

/-- `GET /houses/{entity_id}`: the house is asked for after the membership. -/
def houseById (user id : String) : Except RouteError HouseRow := do
  let _ ← t.require user id .houseRead
  fetch .house t.houses id

/-- The other `GET`s by identifier. -/
def getById {α : Type} (kind : Kind) (permission : Permission) (rows : Dict String α)
    (user id : String) : Except RouteError α := do
  let house ← t.houseFor kind id
  let _ ← t.require user house permission
  fetch kind rows id

/-- `GET /floors/{entity_id}` -/
def floorById (user id : String) : Except RouteError FloorRow :=
  t.getById .floor .houseRead t.floors user id

/-- `GET /rooms/{entity_id}` -/
def roomById (user id : String) : Except RouteError RoomRow :=
  t.getById .room .houseRead t.rooms user id

/-- `GET /devices/{entity_id}` -/
def deviceById (user id : String) : Except RouteError DeviceRow :=
  t.getById .device .deviceRead t.devices user id

/-- `GET /scenes/{entity_id}` -/
def sceneById (user id : String) : Except RouteError SceneRow :=
  t.getById .scene .sceneRead t.scenes user id

/-- `GET /automations/{entity_id}` -/
def automationById (user id : String) : Except RouteError AutomationRule :=
  t.getById .automation .automationRead t.automations user id

/-! ### Readable houses -/

variable {t}

/-- `require` passes exactly for those who have the permission. -/
theorem require_eq (user house : String) (permission : Permission) :
    (t.require user house permission).isOk = t.permits user house permission := by
  unfold require permits
  cases t.forHouse user house with
  | none => rfl
  | some m =>
      show Except.isOk (if m.2.role.permits permission = true then _ else _) = _
      split
      · rename_i h
        exact h.symm
      · rename_i h
        exact (Bool.eq_false_iff.mpr h).symm

/-- **Role-derived houses.** The houses that a list is taken over are those in which `require`
passes. -/
theorem mem_accessibleHouseIds (h : SchemaConstraints t) {user house : String}
    {permission : Permission} :
    house ∈ t.accessibleHouseIds user permission ↔ t.permits user house permission = true := by
  simp only [accessibleHouseIds, permits, List.mem_map, List.mem_filter, Bool.and_eq_true,
    decide_eq_true_eq, Option.any_eq_true]
  constructor
  · rintro ⟨m, ⟨hm, huser, hrole⟩, rfl⟩
    -- the membership that is found is this one
    cases hfound : t.forHouse user m.2.houseId with
    | none =>
        have := Dict.find?_eq_none.mp hfound m hm
        simp [huser] at this
    | some m' =>
        obtain ⟨hget, huser', hhouse'⟩ := forHouse_some hfound
        obtain rfl := h.memberships m hm m' (Dict.get?_eq_some.mp hget) (huser.trans huser'.symm)
          hhouse'.symm
        exact ⟨m, rfl, hrole⟩
  · rintro ⟨m, hfound, hrole⟩
    obtain ⟨hget, huser, hhouse⟩ := forHouse_some hfound
    exact ⟨m, ⟨Dict.get?_eq_some.mp hget, huser, hrole⟩, hhouse⟩

theorem contains_accessibleHouseIds (h : SchemaConstraints t) (user house : String)
    (permission : Permission) :
    (t.accessibleHouseIds user permission).contains house = t.permits user house permission := by
  rw [Bool.eq_iff_iff, List.contains_iff_mem]
  exact mem_accessibleHouseIds h

/-! ### Entities by identifier -/

section

variable {α : Type} {kind : Kind} {permission : Permission} {rows : Dict String α}
  {user house id : String} {row : α}

/-- A stored entity is shown where its house is readable, as it is stored. -/
theorem getById_eq (hrow : rows.get? id = some row) (hhouse : t.houseFor kind id = .ok house) :
    t.getById kind permission rows user id =
      (t.require user house permission).map fun _ => row := by
  unfold getById
  rw [hhouse]
  show (do let _ ← t.require user house permission; fetch kind rows id) = _
  rw [show fetch kind rows id = .ok row by unfold fetch; rw [hrow]]
  cases t.require user house permission <;> rfl

theorem map_isOk {β : Type} (x : Except RouteError β) (f : β → α) :
    (x.map f).isOk = x.isOk := by
  cases x <;> rfl

theorem getById_isOk (hrow : rows.get? id = some row) (hhouse : t.houseFor kind id = .ok house) :
    (t.getById kind permission rows user id).isOk = t.permits user house permission := by
  rw [getById_eq hrow hhouse, map_isOk, require_eq]

/-- Where a `GET` answers, it answers the stored row. -/
theorem getById_ok (hrow : rows.get? id = some row) (hhouse : t.houseFor kind id = .ok house)
    (h : (t.getById kind permission rows user id).isOk = true) :
    t.getById kind permission rows user id = .ok row := by
  rw [getById_eq hrow hhouse] at h ⊢
  cases hrequire : t.require user house permission with
  | error e => rw [hrequire] at h; cases h
  | ok m => rfl

end

end Tables

/-! ### Agreement -/

/-- A list shows the selected entities of a table that `get` shows, each once and as it shows
them. -/
def Agrees {α : Type} (rows : Dict String α) (listed : List (String × α))
    (get : String → Except RouteError α) (selected : String × α → Bool) : Prop :=
  listed = rows.entries.filter (fun e => selected e && (get e.1).isOk) ∧
    ∀ e ∈ listed, get e.1 = .ok e.2

namespace Tables

/-- The house of a device is the one that `house_for` resolves. -/
def inHouse (t : Tables) (id house : String) : Bool :=
  (t.houseFor .device id).toOption = some house

/-- A filter selects a device. -/
def selects (t : Tables) (f : DeviceFilter) (d : String × DeviceRow) : Bool :=
  f.house.all (t.inHouse d.1) && f.columns d.2

section

variable {t : Tables} {user : String}

/-- A query over houses shows what `get` shows, if both find the same house of each entity. -/
theorem agrees_of_house {α : Type} {kind : Kind} {permission : Permission}
    {rows : Dict String α} {listed : List (String × α)} {selected : String × α → Bool}
    {house : String × α → String}
    (hlisted : listed = rows.entries.filter fun e =>
      selected e && t.permits user (house e) permission)
    (hhouse : ∀ e ∈ rows.entries, t.houseFor kind e.1 = .ok (house e)) :
    Agrees rows listed (t.getById kind permission rows user) selected := by
  have hshown : ∀ e ∈ rows.entries, (t.getById kind permission rows user e.1).isOk =
      t.permits user (house e) permission :=
    fun e he => getById_isOk (Dict.get?_eq_some.mpr he) (hhouse e he)
  have hfilter : listed = rows.entries.filter fun e =>
      selected e && (t.getById kind permission rows user e.1).isOk := by
    rw [hlisted]
    exact List.filter_congr fun e he => by rw [hshown e he]
  refine ⟨hfilter, fun e he => ?_⟩
  rw [hfilter, List.mem_filter, Bool.and_eq_true] at he
  exact getById_ok (Dict.get?_eq_some.mpr he.1) (hhouse e he.1) he.2.2

/-- Leaving out the query without houses changes nothing. -/
theorem forHouses_eq (h : SchemaConstraints t) {α : Type} {permission : Permission}
    (rows : Dict String α) (house : α → String) :
    forHouses rows house (t.accessibleHouseIds user permission) =
      rows.entries.filter fun e => true && t.permits user (house e.2) permission := by
  unfold forHouses
  split
  · rename_i hempty
    refine (List.filter_eq_nil_iff.mpr fun e _ hp => ?_).symm
    rw [Bool.true_and, ← contains_accessibleHouseIds h, List.isEmpty_iff.mp hempty] at hp
    cases hp
  · exact List.filter_congr fun e _ => by rw [contains_accessibleHouseIds h, Bool.true_and]

theorem floors_agree (h : SchemaConstraints t) :
    Agrees t.floors (t.listFloors user) (t.floorById user) fun _ => true := by
  refine agrees_of_house (forHouses_eq h t.floors (·.houseId)) fun e he => ?_
  simp [houseFor, floorHouse?, Dict.get?_eq_some.mpr he]

theorem scenes_agree (h : SchemaConstraints t) :
    Agrees t.scenes (t.listScenes user) (t.sceneById user) fun _ => true := by
  refine agrees_of_house (forHouses_eq h t.scenes (·.houseId)) fun e he => ?_
  simp [houseFor, Dict.get?_eq_some.mpr he]

theorem automations_agree (h : SchemaConstraints t) :
    Agrees t.automations (t.listAutomations user) (t.automationById user) fun _ => true := by
  refine agrees_of_house (forHouses_eq h t.automations (·.houseId)) fun e he => ?_
  simp [houseFor, Dict.get?_eq_some.mpr he]

/-- The houses: here the membership comes first. -/
theorem houses_agree (h : SchemaConstraints t) :
    Agrees t.houses (t.listHouses user) (t.houseById user) fun _ => true := by
  have hget : ∀ e ∈ t.houses.entries,
      t.houseById user e.1 = (t.require user e.1 .houseRead).map fun _ => e.2 := by
    intro e he
    unfold houseById fetch
    rw [Dict.get?_eq_some.mpr he]
    cases t.require user e.1 .houseRead <;> rfl
  have hfilter : t.listHouses user =
      t.houses.entries.filter fun e => true && (t.houseById user e.1).isOk := by
    have hshown : ∀ e ∈ t.houses.entries,
        (true && (t.houseById user e.1).isOk) = t.permits user e.1 .houseRead := by
      intro e he
      rw [Bool.true_and, hget e he, map_isOk, require_eq]
    rw [List.filter_congr hshown]
    unfold listHouses
    dsimp only
    split
    · rename_i hempty
      refine (List.filter_eq_nil_iff.mpr fun e _ hp => ?_).symm
      rw [← contains_accessibleHouseIds h, List.isEmpty_iff.mp hempty] at hp
      cases hp
    · exact List.filter_congr fun e _ => contains_accessibleHouseIds h user e.1 .houseRead
  refine ⟨hfilter, fun e he => ?_⟩
  rw [hfilter, List.mem_filter, Bool.true_and] at he
  have hok := he.2
  rw [hget e he.1] at hok ⊢
  cases hrequire : t.require user e.1 .houseRead with
  | error e => rw [hrequire] at hok; cases hok
  | ok m => rfl

/-! ### Joins -/

theorem flatMap_filter {α : Type} (l : List α) (p : α → Bool) {f : α → List α}
    (hf : ∀ a ∈ l, f a = if p a then [a] else []) : l.flatMap f = l.filter p := by
  induction l with
  | nil => rfl
  | cons a l ih =>
      rw [List.flatMap_cons, hf a List.mem_cons_self,
        ih fun b hb => hf b (List.mem_cons_of_mem _ hb), List.filter_cons]
      split <;> rfl

/-- A room is joined to its one floor. -/
theorem rooms_agree (h : SchemaConstraints t) :
    Agrees t.rooms (t.listRooms user) (t.roomById user) fun _ => true := by
  have hfloor : ∀ r ∈ t.rooms.entries, ∃ f, t.floors.get? r.2.floorId = some f :=
    fun r hr => Option.isSome_iff_exists.mp (h.floors r hr)
  refine @agrees_of_house t user _ _ _ _ _ _
    (fun r => ((t.floors.get? r.2.floorId).map (·.houseId)).getD "")
    ?_ fun r hr => ?_
  · unfold listRooms roomsForHouses
    have hjoin : ∀ r ∈ t.rooms.entries,
        ((t.floors.entries.filter fun f => decide (f.1 = r.2.floorId) &&
          (t.accessibleHouseIds user .houseRead).contains f.2.houseId).map fun _ => r) =
        if true && t.permits user (((t.floors.get? r.2.floorId).map (·.houseId)).getD "")
          .houseRead then [r] else [] := by
      intro r hr
      obtain ⟨f, hf⟩ := hfloor r hr
      rw [Dict.filter_key_and, hf]
      simp only [Option.toList_some, List.map_cons, List.map_nil, Option.map_some,
        Option.getD_some, Bool.true_and, contains_accessibleHouseIds h]
      by_cases hp : t.permits user f.houseId .houseRead = true <;> simp [hp]
    split
    · rename_i hempty
      refine (List.filter_eq_nil_iff.mpr fun e _ hp => ?_).symm
      rw [Bool.true_and, ← contains_accessibleHouseIds h, List.isEmpty_iff.mp hempty] at hp
      cases hp
    · exact flatMap_filter _ _ hjoin
  · obtain ⟨f, hf⟩ := hfloor r hr
    simp [houseFor, roomHouse?, floorHouse?, Dict.get?_eq_some.mpr hr, hf]

/-- A device is joined to one room, one floor and at most one binding: **`coalesce`** is the house
that `DeviceRepository.house_id` resolves. -/
theorem joinedHouses_eq (h : SchemaConstraints t) {d : String × DeviceRow}
    (hd : d ∈ t.devices.entries) :
    ∃ house, t.joinedHouses d = [house] ∧ t.houseFor .device d.1 = .ok house := by
  obtain ⟨r, hr⟩ := Option.isSome_iff_exists.mp (h.rooms d hd)
  obtain ⟨f, hf⟩ := Option.isSome_iff_exists.mp (h.floors _ (Dict.get?_eq_some.mp hr))
  -- at most one row of the inventory is bound to the device
  have hbinding : (t.physical.entries.filter fun p => p.2.boundDeviceId = some d.1) =
      (t.physical.find? fun _ p => p.boundDeviceId = some d.1).toList := by
    refine Dict.filter_unique
      (p := fun _ (row : PhysicalRow) => decide (row.boundDeviceId = some d.1))
      fun p hp p' hp' hbound hbound' => ?_
    exact h.bound p hp p' hp' d.1 (of_decide_eq_true hbound) (of_decide_eq_true hbound')
  have hlocated : t.deviceHouse? d.1 = some f.houseId := by
    simp [deviceHouse?, roomHouse?, floorHouse?, Dict.get?_eq_some.mpr hd, hr, hf]
  unfold joinedHouses
  rw [Dict.filter_key, hr, hbinding]
  simp only [Option.toList_some, List.map_cons, List.map_nil, List.flatMap_cons, List.flatMap_nil,
    List.append_nil]
  rw [Dict.filter_key, hf]
  simp only [Option.toList_some, List.map_cons, List.map_nil, List.flatMap_cons, List.flatMap_nil,
    List.append_nil]
  unfold houseFor
  dsimp only
  rw [hlocated]
  cases t.physical.find? fun _ p => p.boundDeviceId = some d.1 with
  | none => exact ⟨f.houseId, rfl, rfl⟩
  | some p =>
      cases hhouse : p.2.houseId with
      | none => exact ⟨f.houseId, by simp [outer, hhouse], by simp [hhouse]⟩
      | some house => exact ⟨house, by simp [outer, hhouse], by simp [hhouse]⟩

/-- The query of `GET /devices` over some houses. -/
theorem filteredForHouses_eq (h : SchemaConstraints t) (houses : List String) (f : DeviceFilter) :
    t.filteredForHouses houses f = t.devices.entries.filter fun d =>
      houses.any (t.inHouse d.1) && f.columns d.2 := by
  have hjoin : ∀ d ∈ t.devices.entries,
      ((t.joinedHouses d).filter houses.contains).map (fun _ => d) =
        if houses.any (t.inHouse d.1) then [d] else [] := by
    intro d hd
    obtain ⟨house, hjoined, hhouse⟩ := joinedHouses_eq h hd
    have hany : houses.any (t.inHouse d.1) = houses.contains house := by
      rw [List.contains_eq_any_beq]
      refine congrArg houses.any (funext fun house' => ?_)
      simp only [inHouse, hhouse, Except.toOption, Option.some.injEq]
      rfl
    rw [hjoined, hany, List.filter_cons, List.filter_nil]
    cases houses.contains house <;> rfl
  unfold filteredForHouses
  split
  · rename_i hempty
    simp [List.isEmpty_iff.mp hempty]
  · rw [flatMap_filter _ _ hjoin, List.filter_filter]
    exact List.filter_congr fun d _ => Bool.and_comm _ _

/-- The devices, with every combination of filters that is not refused. -/
theorem devices_agree (h : SchemaConstraints t) {f : DeviceFilter}
    {listed : List (String × DeviceRow)} (hlisted : t.listDevices user f = .ok listed) :
    Agrees t.devices listed (t.deviceById user) (t.selects f) := by
  obtain ⟨houses, hhouses, rfl⟩ : ∃ houses, t.deviceHouses user f.house = .ok houses ∧
      listed = t.filteredForHouses houses f := by
    unfold listDevices at hlisted
    cases hhouses : t.deviceHouses user f.house with
    | error e => rw [hhouses] at hlisted; cases hlisted
    | ok houses =>
        rw [hhouses] at hlisted
        refine ⟨houses, rfl, ?_⟩
        cases hroom : f.room with
        | none =>
            rw [hroom] at hlisted
            exact (Except.ok.inj hlisted).symm
        | some room =>
            rw [hroom] at hlisted
            change (do let house ← t.houseFor .room room
                       let _ ← t.require user house .deviceRead
                       return t.filteredForHouses houses f) = _ at hlisted
            cases hhouse : t.houseFor .room room with
            | error e => rw [hhouse] at hlisted; cases hlisted
            | ok house =>
                rw [hhouse] at hlisted
                cases hrequire : t.require user house .deviceRead with
                | error e =>
                    change (t.require user house .deviceRead >>= _) = _ at hlisted
                    rw [hrequire] at hlisted
                    cases hlisted
                | ok m =>
                    change (t.require user house .deviceRead >>= _) = _ at hlisted
                    rw [hrequire] at hlisted
                    exact (Except.ok.inj hlisted).symm
  have hhouse : ∀ d ∈ t.devices.entries,
      t.houseFor .device d.1 = .ok ((t.houseFor .device d.1).toOption.getD "") := by
    intro d hd
    obtain ⟨house, -, hhouse⟩ := joinedHouses_eq h hd
    rw [hhouse]
    rfl
  refine agrees_of_house ?_ hhouse
  rw [filteredForHouses_eq h]
  refine List.filter_congr fun d hd => ?_
  obtain ⟨home, -, hhome⟩ := joinedHouses_eq h hd
  have hin : ∀ house, t.inHouse d.1 house = decide (home = house) := by
    intro house
    simp [inHouse, hhome, Except.toOption]
  have hgetD : (t.houseFor .device d.1).toOption.getD "" = home := by
    rw [hhome]
    rfl
  unfold selects
  rw [hgetD]
  cases hf : f.house with
  | none =>
      rw [hf] at hhouses
      obtain rfl := Except.ok.inj hhouses
      have hany : (t.accessibleHouseIds user .deviceRead).any (t.inHouse d.1) =
          t.permits user home .deviceRead := by
        rw [← contains_accessibleHouseIds h, List.contains_eq_any_beq]
        refine congrArg _ (funext fun house => ?_)
        rw [hin]
        rfl
      rw [hany, Option.all_none, Bool.true_and, Bool.and_comm]
  | some house =>
      rw [hf] at hhouses
      -- the house that is asked for is readable
      have hpermits : t.permits user house .deviceRead = true ∧ houses = [house] := by
        unfold deviceHouses at hhouses
        cases hrequire : t.require user house .deviceRead with
        | error e =>
            dsimp only at hhouses
            rw [hrequire] at hhouses
            cases hhouses
        | ok m =>
            dsimp only at hhouses
            rw [hrequire] at hhouses
            refine ⟨?_, (Except.ok.inj hhouses).symm⟩
            rw [← require_eq, hrequire]
            rfl
      obtain ⟨hpermits, rfl⟩ := hpermits
      rw [Option.all_some, List.any_cons, List.any_nil, Bool.or_false, hin]
      by_cases heq : home = house
      · subst heq
        rw [hpermits, Bool.and_true]
      · simp [heq]

end

end Tables

/-- **Lists and `GET`s agree**: every list endpoint shows the stored entities that its filters
select and that the user can `GET`, each once and as `GET` shows it; and the house that the
device list joins is the one that `house_id` resolves. -/
theorem lists_agree (t : Tables) (user : String) (h : SchemaConstraints t) :
    Agrees t.houses (t.listHouses user) (t.houseById user) (fun _ => true) ∧
      Agrees t.floors (t.listFloors user) (t.floorById user) (fun _ => true) ∧
      Agrees t.rooms (t.listRooms user) (t.roomById user) (fun _ => true) ∧
      Agrees t.scenes (t.listScenes user) (t.sceneById user) (fun _ => true) ∧
      Agrees t.automations (t.listAutomations user) (t.automationById user) (fun _ => true) ∧
      (∀ f listed, t.listDevices user f = .ok listed →
        Agrees t.devices listed (t.deviceById user) (t.selects f)) ∧
      ∀ d ∈ t.devices.entries, ∃ house, t.joinedHouses d = [house] ∧
        t.houseFor .device d.1 = .ok house :=
  ⟨Tables.houses_agree h, Tables.floors_agree h, Tables.rooms_agree h, Tables.scenes_agree h,
    Tables.automations_agree h, fun _ _ hlisted => Tables.devices_agree h hlisted,
    fun _ hd => Tables.joinedHouses_eq h hd⟩

/-- A relay of the house that has been left in the shop. -/
def astray : Tables where
  houses := .ofList [("home", ⟨"Home"⟩), ("shop", ⟨"Shop"⟩)]
  floors := .ofList [("counter", ⟨"shop", "Counter", 0⟩)]
  rooms := .ofList [("store", ⟨"counter", "Store", none⟩)]
  devices := .ofList [("relay", ⟨"Relay", "store", "relay", [], ["on_off"], [], true⟩)]
  physical := .ofList [("relay", ⟨"hw", "esp32-relay-v1", .active, none, some "home", some "relay"⟩)]
  memberships := .ofList [("m1", ⟨"ann", "home", .owner⟩), ("m2", ⟨"bea", "shop", .technician⟩)]
  users := .ofList [("ann", ⟨true⟩), ("bea", ⟨true⟩)]
  scenes := .empty
  automations := .empty
  attempts := .empty
  ledger := ⟨[], []⟩
  issued := ["m1", "m2"]

theorem astray_constraints : SchemaConstraints astray where
  memberships := by decide
  bound p hp p' hp' _ _ _ := (List.mem_singleton.mp hp).trans (List.mem_singleton.mp hp').symm
  rooms := by decide
  floors := by decide

/-- Ann sees the relay, Bea does not. -/
theorem lists_agree_astray :
    SchemaConstraints astray ∧
      ((∃ d, astray.listDevices "ann" ⟨none, none, none, none⟩ = .ok [d]) ∧
        astray.listDevices "bea" ⟨none, none, none, none⟩ = .ok []) ∧
      Agrees astray.floors (astray.listFloors "bea") (astray.floorById "bea") (fun _ => true) :=
  ⟨astray_constraints, ⟨⟨_, rfl⟩, rfl⟩, (lists_agree astray "bea" astray_constraints).2.1⟩

end KzHome

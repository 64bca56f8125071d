import KzHome.Structure

/-!
# KzHome.Locations

What the statements of the structure's requests make of the layout of houses.

`Tables.layout` is the layout that the tables describe. Each lemma below says for one
kind of statement that, with what its program has made sure of, its effect is a
`Layout.Change`; the memberships stay what they are, but for those of a deleted house.
-/

namespace KzHome

open Forest

namespace Tables

variable (t : Tables)

/-- What a place is in. -/
def up : Place → Option Place
  | .house _ => none
  | .floor id => (t.floors.get? id).map fun row => .house row.houseId
  | .room id => (t.rooms.get? id).map fun row => .floor row.floorId
  | .device id => (t.devices.get? id).map fun row => .room row.roomId

theorem up_descends (x y : Place) (h : t.up x = some y) : y.rank < x.rank := by
  cases x with
  | house id => cases h
  | floor id =>
      obtain ⟨row, -, rfl⟩ := Option.map_eq_some_iff.mp h
      exact Nat.zero_lt_one
  | room id =>
      obtain ⟨row, -, rfl⟩ := Option.map_eq_some_iff.mp h
      exact Nat.one_lt_two
  | device id =>
      obtain ⟨row, -, rfl⟩ := Option.map_eq_some_iff.mp h
      exact room_rank_lt _ _

/-- The house that a device is bound to by its own inventory row. -/
def bound (device : String) : Option String :=
  (t.physical.get? device).bind fun row =>
    if row.boundDeviceId = some device then row.houseId else none

/-- The layout that the tables describe. -/
def layout : Layout := ⟨t.up, t.up_descends, t.bound⟩

variable {t}

theorem bound_eq_some {device house : String} :
    t.bound device = some house ↔ ∃ row, t.physical.get? device = some row ∧
      row.boundDeviceId = some device ∧ row.houseId = some house := by
  unfold bound
  constructor
  · intro h
    obtain ⟨row, hrow, h⟩ := Option.bind_eq_some_iff.mp h
    split at h
    · exact ⟨row, hrow, ‹_›, h⟩
    · cases h
  · rintro ⟨row, hrow, hbound, hhouse⟩
    rw [hrow, Option.bind_some, if_pos hbound, hhouse]

/-! ### Places and their houses -/

theorem up_floor {floor : String} {row : FloorRow} (h : t.floors.get? floor = some row) :
    t.up (.floor floor) = some (.house row.houseId) := by
  rw [up, h, Option.map_some]

theorem up_room {room : String} {row : RoomRow} (h : t.rooms.get? room = some row) :
    t.up (.room room) = some (.floor row.floorId) := by
  rw [up, h, Option.map_some]

theorem up_device {device : String} {row : DeviceRow} (h : t.devices.get? device = some row) :
    t.up (.device device) = some (.room row.roomId) := by
  rw [up, h, Option.map_some]

theorem in_of_floorHouse? {floor house : String} (h : t.floorHouse? floor = some house) :
    t.layout.In (.floor floor) house := by
  obtain ⟨row, hrow, rfl⟩ := Option.map_eq_some_iff.mp h
  exact under_of_up (up_floor hrow)

theorem in_of_roomHouse? {room house : String} (h : t.roomHouse? room = some house) :
    t.layout.In (.room room) house := by
  obtain ⟨row, hrow, hfloor⟩ := Option.bind_eq_some_iff.mp h
  exact (in_of_floorHouse? hfloor).step (up_room hrow)

theorem in_of_deviceHouse? {device house : String} (h : t.deviceHouse? device = some house) :
    t.layout.In (.device device) house := by
  obtain ⟨row, hrow, hroom⟩ := Option.bind_eq_some_iff.mp h
  exact (in_of_roomHouse? hroom).step (up_device hrow)

/-- `structure_house` finds the house that a place is in. -/
theorem in_of_structureHouse? {place : Place} {house : String}
    (h : t.structureHouse? place = some house) : t.layout.In place house := by
  cases place with
  | house id =>
      obtain ⟨row, -, rfl⟩ := Option.map_eq_some_iff.mp h
      exact Under.refl _ _
  | floor id => exact in_of_floorHouse? h
  | room id => exact in_of_roomHouse? h
  | device id => exact in_of_deviceHouse? h

theorem floorHouse?_of_in {floor house : String} (h : t.layout.In (.floor floor) house) :
    t.floorHouse? floor = some house := by
  rcases h.cases_up with h | ⟨y, hy, h⟩
  · cases h
  · obtain ⟨row, hrow, rfl⟩ := Option.map_eq_some_iff.mp hy
    have heq := h.eq_of_root (t.layout.up_house _)
    rw [floorHouse?, hrow, Option.map_some, Place.house.inj heq]

theorem roomHouse?_of_in {room house : String} (h : t.layout.In (.room room) house) :
    t.roomHouse? room = some house := by
  rcases h.cases_up with h | ⟨y, hy, h⟩
  · cases h
  · obtain ⟨row, hrow, rfl⟩ := Option.map_eq_some_iff.mp hy
    rw [roomHouse?, hrow, Option.bind_some]
    exact floorHouse?_of_in h

theorem deviceHouse?_of_in {device house : String} (h : t.layout.In (.device device) house) :
    t.deviceHouse? device = some house := by
  rcases h.cases_up with h | ⟨y, hy, h⟩
  · cases h
  · obtain ⟨row, hrow, rfl⟩ := Option.map_eq_some_iff.mp hy
    rw [deviceHouse?, hrow, Option.bind_some]
    exact roomHouse?_of_in h

/-- Below a house, it finds nothing else. -/
theorem structureHouse?_of_in {place : Place} {house : String} (hrank : 0 < place.rank)
    (h : t.layout.In place house) : t.structureHouse? place = some house := by
  cases place with
  | house id => exact absurd hrank (Nat.lt_irrefl 0)
  | floor id => exact floorHouse?_of_in h
  | room id => exact roomHouse?_of_in h
  | device id => exact deviceHouse?_of_in h

/-! ### Bound devices below a place -/

/-- What is below a room is the room or a device in it. -/
theorem under_room {x : Place} {room : String} (h : Under t.up x (.room room)) (hx : x ≠ .room room) :
    ∃ device row, x = .device device ∧ t.devices.get? device = some row ∧ row.roomId = room := by
  rcases h.cases_up with h | ⟨y, hy, h⟩
  · exact absurd h hx
  · have hlt := t.up_descends _ _ hy
    have hle := h.rank_le t.up_descends
    cases x with
    | device device =>
        obtain ⟨row, hrow, rfl⟩ := Option.map_eq_some_iff.mp hy
        exact ⟨device, row, rfl, hrow, Place.room.inj (h.eq_of_rank t.up_descends rfl)⟩
    | _ => simp only [Place.rank] at hlt hle; omega

/-- `bound_in_structure` finds every bound device below a floor, a room or a device. -/
theorem vacant_of_boundInStructure {place : Place} (hrank : 0 < place.rank)
    (hattached : t.layout.Attached) (h : t.boundInStructure place = false) :
    t.layout.Vacant place := by
  intro device house hbound hunder
  obtain ⟨row, hrow, hself, hhouse⟩ := bound_eq_some.mp hbound
  have hmem := Dict.get?_eq_some.mp hrow
  have hfalse := List.any_eq_false.mp h _ hmem
  refine hfalse ?_
  obtain ⟨d, hd, hup⟩ : ∃ d, t.devices.get? device = some d ∧
      t.up (.device device) = some (.room d.roomId) := by
    obtain ⟨y, hy⟩ := Option.ne_none_iff_exists'.mp (hattached device house hbound)
    obtain ⟨d, hd, -⟩ := Option.map_eq_some_iff.mp hy
    exact ⟨d, hd, up_device hd⟩
  cases place with
  | house id => exact absurd hrank (Nat.lt_irrefl 0)
  | device id =>
      have heq : Place.device device = .device id := hunder.eq_of_rank t.up_descends rfl
      obtain rfl := Place.device.inj heq
      simp [hhouse, hself, hd]
  | room id =>
      obtain ⟨device', d', heq, hd', hroom⟩ := under_room hunder (by simp)
      obtain rfl := Place.device.inj heq
      simp [hhouse, hself, hd', hroom]
  | floor id =>
      rcases hunder.cases_up with heq | ⟨y, hy, hunder⟩
      · cases heq
      · obtain rfl := Option.some.inj (hup.symm.trans hy)
        rcases hunder.cases_up with heq | ⟨z, hz, hunder⟩
        · cases heq
        · obtain ⟨r, hr, rfl⟩ := Option.map_eq_some_iff.mp hz
          have hfloor := Place.floor.inj (hunder.eq_of_rank t.up_descends rfl)
          simp [hhouse, hself, hd, hr, hfloor]

/-! ### Effects of statements -/

/-- The foreign key of floors. -/
def Keyed (t : Tables) : Prop :=
  ∀ floor row, t.floors.get? floor = some row → (t.houses.get? row.houseId).isSome

/-- What a commit of a session does that holds the houses that satisfy `holds`. No house is
added, and no membership. -/
structure Step (holds : String → Prop) (t t' : Tables) : Prop where
  change : Layout.Change holds t.layout t'.layout
  houses : ∀ id, (t'.houses.get? id).isSome → (t.houses.get? id).isSome
  keyed : t.Keyed → t'.Keyed
  members : ∀ user house m, t'.forHouse user house = some m → t.forHouse user house = some m

variable {t' : Tables} {holds : String → Prop}

/-- A statement that leaves houses and memberships alone. -/
theorem Step.of_change (hchange : Layout.Change holds t.layout t'.layout)
    (hhouses : t'.houses = t.houses) (hkeyed : t.Keyed → t'.Keyed)
    (hmembers : t'.memberships = t.memberships) : Step holds t t' where
  change := hchange
  houses id h := by rwa [hhouses] at h
  keyed := hkeyed
  members user house m h := by
    unfold forHouse at h ⊢
    rwa [hmembers] at h

/-- A statement that leaves floors alone as well. -/
theorem keyed_of_eq (hhouses : t'.houses = t.houses) (hfloors : t'.floors = t.floors)
    (h : t.Keyed) : t'.Keyed := by
  intro floor row hrow
  rw [hfloors] at hrow
  rw [hhouses]
  exact h floor row hrow

theorem write_updateFloor {id : String} {patch : FloorPatch}
    (h : t.write (.updateFloor id patch) = .ok t') :
    (∃ row, t.floors.get? id = some row) ∧
      (∀ house, patch.houseId = some house → (t.houses.get? house).isSome) ∧
        t' = { t with floors := t.floors.modify id patch.apply } := by
  simp only [write] at h
  split at h
  · cases h
  · rename_i hrow
    split at h
    · rename_i hhouse
      refine ⟨Option.ne_none_iff_exists'.mp (by simpa using hrow), fun house hpatch => ?_,
        (Except.ok.inj h).symm⟩
      simpa [hpatch] using hhouse
    · cases h

theorem write_updateRoom {id : String} {patch : RoomPatch}
    (h : t.write (.updateRoom id patch) = .ok t') :
    (∃ row, t.rooms.get? id = some row) ∧
      t' = { t with rooms := t.rooms.modify id patch.apply } := by
  simp only [write] at h
  split at h
  · cases h
  · rename_i hrow
    split at h
    · exact ⟨Option.ne_none_iff_exists'.mp (by simpa using hrow), (Except.ok.inj h).symm⟩
    · cases h

theorem write_updateDevice {id : String} {patch : DevicePatch}
    (h : t.write (.updateDevice id patch) = .ok t') :
    (∃ row, t.devices.get? id = some row) ∧
      t' = { t with devices := t.devices.modify id patch.apply } := by
  simp only [write] at h
  split at h
  · cases h
  · rename_i hrow
    split at h
    · exact ⟨Option.ne_none_iff_exists'.mp (by simpa using hrow), (Except.ok.inj h).symm⟩
    · cases h

/-- The parents after an `UPDATE` of one row: the new parent, if it has one. -/
theorem up_update {up up' : Place → Option Place} {n : Place} {parent : Option Place}
    (hn : up n ≠ none) (hself : up' n = (up n).map fun old => parent.getD old)
    (hother : ∀ x, x ≠ n → up' x = up x) :
    up' = if parent.isSome then Function.update up n parent else up := by
  funext x
  by_cases hx : x = n
  · subst hx
    obtain ⟨old, hold⟩ := Option.ne_none_iff_exists'.mp hn
    cases parent with
    | none => simpa [hold] using hself
    | some p => simpa [hold] using hself
  · rw [hother x hx]
    cases parent with
    | none => rfl
    | some p => exact (Function.update_of_ne hx _ _).symm

/-- A move that its program has made sure of. -/
theorem change_of_move (n : Place) (parent : Option Place) {source : String} (hn : t.up n ≠ none)
    (hself : t'.up n = (t.up n).map fun old => parent.getD old)
    (hother : ∀ x, x ≠ n → t'.up x = t.up x)
    (hsource : t.layout.In n source) (hs : holds source)
    (htarget : ∀ p, parent = some p → p.rank < n.rank ∧ ∃ target, t.layout.In p target ∧
      holds target ∧ (source = target ∨ t.layout.Vacant n))
    (hbound : t'.bound = t.bound) : Layout.Change holds t.layout t'.layout := by
  have hup := up_update hn hself hother
  cases parent with
  | none => exact .none (Layout.ext' hup hbound)
  | some p =>
      obtain ⟨hrank, target, hp, ht, hout⟩ := htarget p rfl
      exact .move n p source target hrank hn hsource hs hp ht hout hup hbound

theorem step_updateFloor {id source : String} {patch : FloorPatch}
    (h : t.write (.updateFloor id patch) = .ok t') (hsource : t.layout.In (.floor id) source)
    (hs : holds source)
    (htarget : ∀ house, patch.houseId = some house → (t.houses.get? house).isSome →
      holds house ∧ (source = house ∨ t.layout.Vacant (.floor id))) : Step holds t t' := by
  obtain ⟨⟨row, hrow⟩, hhouses, rfl⟩ := write_updateFloor h
  refine Step.of_change ?_ rfl ?_ rfl
  · refine change_of_move (.floor id) (patch.houseId.map .house)
      ?_ ?_ ?_ hsource hs ?_ rfl
    · rw [up_floor hrow]
      exact Option.some_ne_none _
    · simp only [up, Dict.get?_modify, if_pos, hrow, Option.map_some, FloorPatch.apply]
      cases patch.houseId <;> rfl
    · intro x hx
      cases x with
      | floor floor =>
          have hne : floor ≠ id := fun heq => hx (heq ▸ rfl)
          simp only [up, Dict.get?_modify, if_neg hne]
      | _ => rfl
    · intro p hp
      obtain ⟨house, hhouse, rfl⟩ := Option.map_eq_some_iff.mp hp
      obtain ⟨ht, hout⟩ := htarget house hhouse (hhouses house hhouse)
      exact ⟨Nat.zero_lt_one, house, Under.refl _ _, ht, hout⟩
  · -- the new house is checked by the constraint
    intro hkeyed floor row' hrow'
    simp only [Dict.get?_modify] at hrow'
    split at hrow'
    · obtain ⟨old, hold, rfl⟩ := Option.map_eq_some_iff.mp hrow'
      cases hpatch : patch.houseId with
      | none =>
          simp only [FloorPatch.apply, hpatch, Option.getD_none]
          exact hkeyed floor old hold
      | some house =>
          simp only [FloorPatch.apply, hpatch, Option.getD_some]
          exact hhouses house hpatch
    · exact hkeyed floor row' hrow'

theorem step_updateRoom {id source : String} {patch : RoomPatch}
    (h : t.write (.updateRoom id patch) = .ok t') (hsource : t.layout.In (.room id) source)
    (hs : holds source)
    (htarget : ∀ floor, patch.floorId = some floor → ∃ house, t.layout.In (.floor floor) house ∧
      holds house ∧ (source = house ∨ t.layout.Vacant (.room id))) : Step holds t t' := by
  obtain ⟨⟨row, hrow⟩, rfl⟩ := write_updateRoom h
  refine Step.of_change ?_ rfl (keyed_of_eq rfl rfl) rfl
  refine change_of_move (.room id) (patch.floorId.map .floor)
    ?_ ?_ ?_ hsource hs ?_ rfl
  · rw [up_room hrow]
    exact Option.some_ne_none _
  · simp only [up, Dict.get?_modify, if_pos, hrow, Option.map_some, RoomPatch.apply]
    cases patch.floorId <;> rfl
  · intro x hx
    cases x with
    | room room =>
        have hne : room ≠ id := fun heq => hx (heq ▸ rfl)
        simp only [up, Dict.get?_modify, if_neg hne]
    | _ => rfl
  · intro p hp
    obtain ⟨floor, hfloor, rfl⟩ := Option.map_eq_some_iff.mp hp
    exact ⟨Nat.one_lt_two, htarget floor hfloor⟩

theorem step_updateDevice {id source : String} {patch : DevicePatch}
    (h : t.write (.updateDevice id patch) = .ok t') (hsource : t.layout.In (.device id) source)
    (hs : holds source)
    (htarget : ∀ room, patch.roomId = some room → ∃ house, t.layout.In (.room room) house ∧
      holds house ∧ (source = house ∨ t.layout.Vacant (.device id))) : Step holds t t' := by
  obtain ⟨⟨row, hrow⟩, rfl⟩ := write_updateDevice h
  refine Step.of_change ?_ rfl (keyed_of_eq rfl rfl) rfl
  refine change_of_move (.device id) (patch.roomId.map .room)
    ?_ ?_ ?_ hsource hs ?_ rfl
  · rw [up_device hrow]
    exact Option.some_ne_none _
  · simp only [up, Dict.get?_modify, if_pos, hrow, Option.map_some, DevicePatch.apply]
    cases patch.roomId <;> rfl
  · intro x hx
    cases x with
    | device device =>
        have hne : device ≠ id := fun heq => hx (heq ▸ rfl)
        simp only [up, Dict.get?_modify, if_neg hne]
    | _ => rfl
  · intro p hp
    obtain ⟨room, hroom, rfl⟩ := Option.map_eq_some_iff.mp hp
    exact ⟨room_rank_lt _ _, htarget room hroom⟩

/-! ### Removals -/

/-- The removed places. -/
def removes (floors rooms devices : String → Bool) : Place → Bool
  | .house _ => false
  | .floor id => floors id
  | .room id => rooms id
  | .device id => devices id

theorem map_filter_not {α β : Type} (o : Option α) (b : Bool) (f : α → β) :
    (o.filter fun _ => !b).map f = if b = true then none else o.map f := by
  cases o <;> cases b <;> rfl

theorem remove_ok {floors rooms devices : String → Bool} {t₁ : Tables}
    (h : t.remove floors rooms devices = .ok t₁) :
    t.referenced devices rooms = false ∧ t₁ = { t with
      floors := t.floors.filter fun id _ => !floors id
      rooms := t.rooms.filter fun id _ => !rooms id
      devices := t.devices.filter fun id _ => !devices id } := by
  unfold remove at h
  split at h
  · cases h
  · rename_i hreferenced
    exact ⟨by simpa using hreferenced, (Except.ok.inj h).symm⟩

/-- **`DELETE`** of places of which everything below goes with them. -/
theorem change_remove {floors rooms devices : String → Bool} {t₁ : Tables}
    (h : t.remove floors rooms devices = .ok t₁)
    (hrooms : ∀ room row, t.rooms.get? room = some row → floors row.floorId = true →
      rooms room = true)
    (hdevices : ∀ device row, t.devices.get? device = some row → rooms row.roomId = true →
      devices device = true)
    (hheld : ∀ x, removes floors rooms devices x = true → ∀ house, t.layout.In x house →
      holds house) : Layout.Change holds t.layout t₁.layout := by
  obtain ⟨hreferenced, rfl⟩ := remove_ok h
  refine .remove (removes floors rooms devices) ?_ hheld ?_ ?_ rfl
  · intro a b hup hb
    cases a with
    | house id => cases hup
    | floor id =>
        obtain ⟨row, -, rfl⟩ := Option.map_eq_some_iff.mp hup
        cases hb
    | room id =>
        obtain ⟨row, hrow, rfl⟩ := Option.map_eq_some_iff.mp hup
        exact hrooms id row hrow hb
    | device id =>
        obtain ⟨row, hrow, rfl⟩ := Option.map_eq_some_iff.mp hup
        exact hdevices id row hrow hb
  · -- a binding keeps its device
    intro device house hbound
    obtain ⟨row, hrow, hself, -⟩ := bound_eq_some.mp hbound
    have hmem := Dict.get?_eq_some.mp hrow
    simp only [referenced, Bool.or_eq_false_iff] at hreferenced
    have hkept := List.any_eq_false.mp hreferenced.1.1 _ hmem
    simpa [hself, removes] using hkept
  · funext x
    cases x with
    | house id => rfl
    | floor id =>
        show ((t.floors.filter fun id _ => !floors id).get? id).map _ = _
        rw [Dict.get?_filter_eq]
        exact map_filter_not _ _ _
    | room id =>
        show ((t.rooms.filter fun id _ => !rooms id).get? id).map _ = _
        rw [Dict.get?_filter_eq]
        exact map_filter_not _ _ _
    | device id =>
        show ((t.devices.filter fun id _ => !devices id).get? id).map _ = _
        rw [Dict.get?_filter_eq]
        exact map_filter_not _ _ _

/-- What is removed leaves the foreign key of floors intact. -/
theorem step_remove {floors rooms devices : String → Bool}
    (h : t.remove floors rooms devices = .ok t')
    (hchange : Layout.Change holds t.layout t'.layout) : Step holds t t' := by
  obtain ⟨-, rfl⟩ := remove_ok h
  refine Step.of_change hchange rfl (fun hkeyed floor row hrow => ?_) rfl
  exact hkeyed floor row (Dict.get?_filter.mp hrow).1

theorem roomsOf_eq_true {floors : String → Bool} {room : String} :
    t.roomsOf floors room = true ↔ ∃ row, t.rooms.get? room = some row ∧ floors row.floorId := by
  simp [roomsOf, Option.any_eq_true]

theorem devicesOf_eq_true {rooms : String → Bool} {device : String} :
    t.devicesOf rooms device = true ↔ ∃ row, t.devices.get? device = some row ∧ rooms row.roomId := by
  simp [devicesOf, Option.any_eq_true]

/-- Floors of one house, with everything on them. -/
theorem change_removeFloors {floors : String → Bool} {source : String} {t₁ : Tables}
    (h : t.removeFloors floors = .ok t₁)
    (hfloors : ∀ floor, floors floor = true → t.layout.In (.floor floor) source)
    (hs : holds source) : Layout.Change holds t.layout t₁.layout := by
  refine change_remove h (fun room row hrow hfloor => roomsOf_eq_true.mpr ⟨row, hrow, hfloor⟩)
    (fun device row hrow hroom => devicesOf_eq_true.mpr ⟨row, hrow, hroom⟩) ?_
  have hroom : ∀ room, t.roomsOf floors room = true → t.layout.In (.room room) source := by
    intro room hroom
    obtain ⟨row, hrow, hfloor⟩ := roomsOf_eq_true.mp hroom
    exact (hfloors _ hfloor).step (up_room hrow)
  intro x hx house hin
  cases x with
  | house id => cases hx
  | floor id => exact (hfloors id hx).unique hin ▸ hs
  | room id => exact (hroom id hx).unique hin ▸ hs
  | device id =>
      obtain ⟨row, hrow, hdevice⟩ := devicesOf_eq_true.mp hx
      have hdown : t.layout.In (.device id) source := (hroom _ hdevice).step (up_device hrow)
      exact hdown.unique hin ▸ hs

theorem step_deleteFloor {id source : String} (h : t.write (.deleteFloor id) = .ok t')
    (hsource : t.layout.In (.floor id) source) (hs : holds source) : Step holds t t' := by
  refine step_remove h (change_removeFloors h (fun floor hfloor => ?_) hs)
  obtain rfl := of_decide_eq_true hfloor
  exact hsource

theorem step_deleteRoom {id source : String} (h : t.write (.deleteRoom id) = .ok t')
    (hsource : t.layout.In (.room id) source) (hs : holds source) : Step holds t t' := by
  refine step_remove h (change_remove h (fun _ _ _ h => by cases h)
    (fun device row hrow hroom => devicesOf_eq_true.mpr ⟨row, hrow, hroom⟩) ?_)
  intro x hx house hin
  cases x with
  | house id => cases hx
  | floor id => cases hx
  | room room =>
      obtain rfl := of_decide_eq_true hx
      exact hsource.unique hin ▸ hs
  | device device =>
      have hdevice : t.devicesOf (fun room => room = id) device = true := hx
      obtain ⟨row, hrow, hroom⟩ := devicesOf_eq_true.mp hdevice
      obtain rfl := of_decide_eq_true hroom
      have hdown : t.layout.In (.device device) source := hsource.step (up_device hrow)
      exact hdown.unique hin ▸ hs

theorem step_deleteDevice {id source : String} (h : t.write (.deleteDevice id) = .ok t')
    (hsource : t.layout.In (.device id) source) (hs : holds source) : Step holds t t' := by
  refine step_remove h (change_remove h (fun _ _ _ h => by cases h)
    (fun _ _ _ h => by cases h) ?_)
  intro x hx house hin
  cases x with
  | device device =>
      obtain rfl := of_decide_eq_true hx
      exact hsource.unique hin ▸ hs
  | _ => cases hx

theorem write_deleteHouse {id : String} (h : t.write (.deleteHouse id) = .ok t') :
    ∃ t₁, t.removeFloors (fun floor => t.floorHouse? floor = some id) = .ok t₁ ∧
      t' = { t₁ with
        houses := t.houses.pop id
        memberships := t.memberships.filter fun _ row => row.houseId ≠ id
        scenes := t.scenes.filter fun _ row => row.houseId ≠ id
        automations := t.automations.filter fun _ row => row.houseId ≠ id } := by
  simp only [write] at h
  split at h
  · cases h
  · cases ht₁ : t.removeFloors fun floor => t.floorHouse? floor = some id with
    | error e =>
        rw [ht₁] at h
        cases h
    | ok t₁ =>
        rw [ht₁] at h
        exact ⟨t₁, rfl, (Except.ok.inj h).symm⟩

theorem step_deleteHouse {id : String} (h : t.write (.deleteHouse id) = .ok t') (hs : holds id) :
    Step holds t t' := by
  obtain ⟨t₁, ht₁, rfl⟩ := write_deleteHouse h
  have hchange : Layout.Change holds t.layout t₁.layout :=
    change_removeFloors ht₁ (fun floor hfloor => in_of_floorHouse? (of_decide_eq_true hfloor)) hs
  refine ⟨hchange, fun house hhouse => ?_, fun hkeyed floor row hrow => ?_, fun user house m hm => ?_⟩
  · obtain ⟨row, hrow⟩ := Option.isSome_iff_exists.mp hhouse
    rw [(Dict.get?_pop.mp hrow).2]
    rfl
  · -- a floor that is left is in another house
    obtain ⟨-, rfl⟩ := remove_ok ht₁
    obtain ⟨hget, hkept⟩ := Dict.get?_filter.mp hrow
    have hne : row.houseId ≠ id := by
      intro heq
      simp [floorHouse?, hget, heq] at hkept
    rw [Dict.get?_pop_eq, if_neg hne]
    exact hkeyed floor row hget
  · -- the memberships of other houses are still there, and in their order
    have hne : house ≠ id := by
      obtain ⟨hget, -, hhouse⟩ := forHouse_some hm
      have hkept := (Dict.get?_filter.mp hget).2
      simp only [decide_eq_true_eq] at hkept
      exact hhouse ▸ hkept
    have hfind := Dict.find?_filter_of_imp (d := t.memberships)
      (p := fun _ row => row.userId = user ∧ row.houseId = house)
      (q := fun _ row => row.houseId ≠ id) fun _ row hp => by
        simp only [decide_eq_true_eq] at hp ⊢
        exact hp.2 ▸ hne
    exact hfind.symm.trans hm

/-! ### Devices that are added -/

theorem write_insertDevice {id : String} {row : DeviceRow}
    (h : t.write (.insertDevice id row) = .ok t') :
    t.devices.get? id = none ∧ t' = { t with devices := t.devices.set id row } := by
  simp only [write] at h
  split at h
  · rename_i hnew
    simp only [Bool.and_eq_true, Option.isNone_iff_eq_none] at hnew
    exact ⟨hnew.1, (Except.ok.inj h).symm⟩
  · cases h

/-- The parents after an added device. -/
theorem up_insertDevice (t : Tables) (id : String) (row : DeviceRow) :
    ({ t with devices := t.devices.set id row } : Tables).up =
      Function.update t.up (.device id) (some (.room row.roomId)) := by
  funext x
  by_cases hx : x = .device id
  · subst hx
    rw [Function.update_self]
    simp only [up, Dict.get?_set_eq, if_pos, Option.map_some]
  · rw [Function.update_of_ne hx]
    cases x with
    | device device =>
        have hne : device ≠ id := fun heq => hx (heq ▸ rfl)
        simp only [up, Dict.get?_set_eq, if_neg hne]
    | _ => rfl

theorem step_insertDevice {id : String} {row : DeviceRow}
    (h : t.write (.insertDevice id row) = .ok t') : Step holds t t' := by
  obtain ⟨hnew, rfl⟩ := write_insertDevice h
  refine Step.of_change (.add id row.roomId ?_ (up_insertDevice t id row) rfl) rfl (keyed_of_eq rfl rfl) rfl
  show t.up (.device id) = none
  rw [up, hnew, Option.map_none]

theorem write_bind {device house : String} (h : t.write (.bind device house) = .ok t') :
    ∃ item, t.physical.get? device = some item ∧ item.status = .unprovisioned ∧
      item.houseId = none ∧ t' = { t with physical := t.physical.set device { item with
        houseId := some house
        boundDeviceId := some device
        claimCodeHash := none
        status := .provisioning } } := by
  simp only [write] at h
  split at h
  · rename_i item hitem
    split at h
    · cases h
    · rename_i hfree
      rw [not_or, not_not, not_not] at hfree
      split at h
      · exact ⟨item, hitem, hfree.1, hfree.2, (Except.ok.inj h).symm⟩
      · cases h
  · cases h

theorem write_setStatus {device : String} {previous status : PhysicalStatus}
    (h : t.write (.setStatus device previous status) = .ok t') :
    ∃ item, t.physical.get? device = some item ∧ item.status = previous ∧
      t' = { t with
        physical := t.physical.modify device fun row => { row with status }
        devices := t.devices.modify device fun row => { row with online := false } } := by
  simp only [write] at h
  split at h
  · rename_i item hitem
    split at h
    · cases h
    · rename_i hprevious
      exact ⟨item, hitem, not_not.mp hprevious, (Except.ok.inj h).symm⟩
  · cases h

theorem bound_bind (t : Tables) (device house : String) (item : PhysicalRow) :
    ({ t with physical := t.physical.set device { item with
        houseId := some house
        boundDeviceId := some device
        claimCodeHash := none
        status := .provisioning } } : Tables).bound =
      Function.update t.bound device (some house) := by
  funext x
  by_cases hx : x = device
  · subst hx
    rw [Function.update_self]
    simp only [bound, Dict.get?_set_eq, if_pos, Option.bind_some]
  · rw [Function.update_of_ne hx]
    simp only [bound, Dict.get?_set_eq, if_neg hx]

/-- **A claim**, in a room of a held house. -/
theorem step_claim {device house : String} {row : DeviceRow}
    (h : t.writes [.insertDevice device row, .bind device house] = .ok t')
    (hroom : t.layout.In (.room row.roomId) house) (hh : holds house) :
    Step holds t t' ∧ t'.layout.Anchored device house := by
  simp only [writes] at h
  cases h₁ : t.write (.insertDevice device row) with
  | error e =>
      rw [h₁] at h
      cases h
  | ok t₁ =>
      rw [h₁] at h
      have h₂ : t₁.write (.bind device house) = .ok t' := by
        cases h₂ : t₁.write (.bind device house) with
        | error e =>
            rw [Except.bind, h₂] at h
            cases h
        | ok t₂ =>
            rw [Except.bind, h₂] at h
            exact h
      obtain ⟨hnew, rfl⟩ := write_insertDevice h₁
      obtain ⟨item, hitem, -, hfree, rfl⟩ := write_bind h₂
      have hup : Tables.up _ = _ := up_insertDevice t device row
      have hbound : Tables.bound _ = _ := bound_bind { t with devices := t.devices.set device row } device
        house item
      have habsent : t.layout.up (.device device) = none := by
        show t.up (.device device) = none
        rw [up, hnew, Option.map_none]
      have hunbound : t.layout.bound device = none := by
        show (t.physical.get? device).bind _ = none
        rw [show t.physical.get? device = some item from hitem, Option.bind_some, hfree, ite_self]
      refine ⟨Step.of_change ?_ rfl (keyed_of_eq rfl rfl) rfl, ?_⟩
      · exact .bind device row.roomId house habsent hunbound hroom hh hup hbound
      · exact Layout.Change.anchored_bind hroom hup hbound

/-! ### Statements beside the structure -/

theorem step_setStatus {device : String} {previous status : PhysicalStatus}
    (h : t.write (.setStatus device previous status) = .ok t') : Step holds t t' := by
  simp only [write] at h
  split at h
  · split at h
    · cases h
    · obtain rfl := Except.ok.inj h
      refine Step.of_change (.none (Layout.ext' ?_ ?_)) rfl (keyed_of_eq rfl rfl) rfl
      · show Tables.up _ = t.up
        funext x
        cases x with
        | device id =>
            simp only [up, Dict.get?_modify]
            split
            · rw [Option.map_map]
              rfl
            · rfl
        | _ => rfl
      · show Tables.bound _ = t.bound
        funext d
        simp only [bound, Dict.get?_modify]
        split
        · rw [Option.bind_map]
          rfl
        · rfl
  · cases h

theorem step_ledger {w : Ledger.Write} (h : t.write (.ledger w) = .ok t') : Step holds t t' := by
  simp only [write] at h
  split at h
  · split at h
    · obtain rfl := Except.ok.inj h
      exact Step.of_change (.none rfl) rfl (keyed_of_eq rfl rfl) rfl
    · cases h
  · cases h

theorem step_nil (h : t.writes [] = .ok t') : Step holds t t' := by
  obtain rfl := Except.ok.inj h
  exact Step.of_change (.none rfl) rfl id rfl

end Tables

end KzHome

import KzHome.JsonValues
import KzHome.Lib.Call
import KzHome.Structure

/-!
# KzHome.DeviceStates

The methods of `DeviceService` that write devices, one after another on one database.

A state is `Declared` when every field of it is known and backed by a capability of its device.
The methods check different things: a new device its own state, a `PATCH` what the row would
have of state and capabilities together, a state write and a report the fields of their patch
alone. Each time it is enough (`Kept`): what is not checked is declared already, and the
capabilities of the row are the ones that the check was made with.
-/

namespace KzHome.DeviceService

open StateValidator (DeviceState)

/-! ### The methods -/

/-- A method on the tables of the database. One that raises leaves what it has committed. -/
abbrev Method (α : Type) : Type := Call Tables RouteError α

/-- `Repository._commit` of a statement. -/
def commit (statement : Statement) : Method Unit := do
  let t ← Call.self
  match t.write statement with
  | .ok t' => Call.update fun _ => t'
  | .error violation => Call.lift (Structure.saved (.error violation))

/-- `Repository.update` -/
def repositoryUpdate (id : String) (values : DevicePatch) : Method Unit := do
  let t ← Call.self
  let row ← Call.lift (found (.notFound "DeviceORM not found") (t.devices.get? id))
  if (values.changes row).isEmpty then return ()
  else commit (.updateDevice id (values.changes row))

/-- `_validate_room` -/
def validateRoom (t : Tables) (room : String) : Except RouteError Unit :=
  ensure (t.rooms.get? room).isSome (.invalidReference "Room does not exist")

/-- `create` -/
def create (id : String) (data : DeviceRow) : Method Unit := do
  let t ← Call.self
  Call.lift (ensure (t.physical.get? id).isNone
    (.conflict "Physical identity is reserved; use device claiming"))
  Call.lift (validateRoom t data.roomId)
  Call.lift (raised (StateValidator.validateCapabilities data.capabilities data.state))
  commit (.insertDevice id data)

/-- `RoomRepository.house_id` of a new room. -/
def targetHouse (t : Tables) : Option String → Except RouteError (Option String)
  | none => .ok none
  | some room => (found (.notFound "RoomORM not found") (t.roomHouse? room)).map some

/-- `structure_mutation` of a device. -/
def structureMutation (t : Tables) (id : String) (target : Option String) :
    Except RouteError Unit := do
  let source ← t.structureHouse (.device id)
  let again ← t.structureHouse (.device id)
  ensure (again = source) (.conflict "Location changed concurrently; retry")
  ensure (!(target != none && target != some source && t.boundInStructure (.device id)))
    (.conflict "Physical device bindings cannot be deleted or transferred")

/-- The check of `update` on the state and the capabilities that the device would have. -/
def checkState (t : Tables) (id : String) (values : DevicePatch) : Except RouteError Unit :=
  if values.state.isNone && values.capabilities.isNone then .ok ()
  else do
    let current ← found (.notFound "DeviceORM not found") (t.devices.get? id)
    raised (StateValidator.validateCapabilities (values.capabilities.getD current.capabilities)
      (values.state.getD current.state))

/-- `update`; `fields` are the `model_fields_set`, and `values` those that are not null. -/
def update (id : String) (values : DevicePatch) (fields : List String) : Method Unit := do
  let t ← Call.self
  let target ← Call.lift (targetHouse t values.roomId)
  Call.lift (structureMutation t id target)
  let again ← Call.lift (targetHouse t values.roomId)
  Call.lift (ensure (again = target) (.conflict "Target location changed concurrently; retry"))
  Call.lift (ensure ((t.physical.get? id).isNone ||
      fields.all fun field => ["name", "room_id"].contains field)
    (.conflict "Physical devices allow only name and room edits"))
  Call.lift (match values.roomId with
    | none => .ok ()
    | some room => validateRoom t room)
  Call.lift (checkState t id values)
  repositoryUpdate id values

/-- The values `{"state": state}`. -/
def stateValues (state : DeviceState) : DevicePatch :=
  ⟨none, none, none, some state, none, none, none⟩

/-- `_persist_state`; `published` is how the subscribers of the event end. -/
def persistState (id : String) (entity : DeviceRow) (patch : DeviceState)
    (published : Except RouteError Unit) : Method Unit := do
  let changed := Json.changes entity.state patch
  if changed.isEmpty then return ()
  else
    repositoryUpdate id (stateValues (Json.merge entity.state changed))
    let t ← Call.self
    let _ ← Call.lift (raised (t.registry.houseId id))
    Call.lift published

/-- `update_state`; `sent` is how `send_command` ends, if there is a transport. -/
def updateState (id : String) (patch : DeviceState) (sent : Option (Except RouteError Unit))
    (published : Except RouteError Unit) : Method Unit := do
  let t ← Call.self
  Call.lift (raised (t.registry.requireActive id))
  Call.lift (raised (t.registry.requireCommandContract id))
  let entity ← Call.lift (found (.notFound "DeviceORM not found") (t.devices.get? id))
  match sent with
  | some sent =>
    Call.lift (raised (StateValidator.validateCommand entity.capabilities patch))
    let _ ← Call.lift (raised (t.registry.houseId id))
    Call.lift sent
  | none =>
    Call.lift (raised (StateValidator.validateCapabilities entity.capabilities patch))
    persistState id entity patch published

/-- `report_state` -/
def reportState (house id : String) (patch : DeviceState) (published : Except RouteError Unit) :
    Method Unit := do
  let t ← Call.self
  let _ ← Call.lift (raised (t.registry.requireHouse house id))
  let entity ← Call.lift (found (.notFound "DeviceORM not found") (t.devices.get? id))
  Call.lift (raised (StateValidator.validateReport entity.capabilities patch))
  persistState id entity patch published

/-- The operations on devices. -/
inductive Operation
  | create (id : String) (data : DeviceRow)
  | update (id : String) (values : DevicePatch) (fields : List String)
  | updateState (id : String) (patch : DeviceState) (sent : Option (Except RouteError Unit))
      (published : Except RouteError Unit)
  | reportState (house id : String) (patch : DeviceState) (published : Except RouteError Unit)

def Operation.method : Operation → Method Unit
  | .create id data => DeviceService.create id data
  | .update id values fields => DeviceService.update id values fields
  | .updateState id patch sent published => DeviceService.updateState id patch sent published
  | .reportState house id patch published => DeviceService.reportState house id patch published

/-- The tables after operations one after another, whether they return or raise. -/
def perform (t : Tables) (ops : List Operation) : Tables :=
  ops.foldl (fun t op => (op.method.run t).2) t

/-! ### Declared states -/

/-- Every field is known, and its capability is there. -/
def Declared (capabilities : List String) (state : DeviceState) : Prop :=
  ∀ field ∈ state.map Prod.fst,
    ∃ capability ∈ capabilities, (field, capability) ∈ StateValidator.fieldCapabilities

section

variable {capabilities : List String} {state patch : DeviceState}

/-- **What `validate_capabilities` lets through is declared.** -/
theorem declared_of_validate
    (h : StateValidator.validateCapabilities capabilities state = .ok ()) :
    Declared capabilities state := by
  intro field hfield
  unfold StateValidator.validateCapabilities at h
  dsimp only at h
  split at h
  · rename_i hnone
    rw [List.isEmpty_iff, List.filter_eq_nil_iff] at hnone
    have hbacked := hnone field hfield
    simp only [Bool.not_eq_true, StateValidator.backed] at hbacked
    split at hbacked
    · rename_i f hf
      have hkey : f.1 = field := by simpa using List.find?_some hf
      refine ⟨f.2, by simpa using hbacked, ?_⟩
      rw [← hkey]
      exact List.mem_of_find?_eq_some hf
    · simp at hbacked
  · cases h

theorem declared_of_report (h : StateValidator.validateReport capabilities state = .ok ()) :
    Declared capabilities state := by
  unfold StateValidator.validateReport at h
  cases hv : StateValidator.validateCapabilities capabilities state with
  | error e =>
      rw [hv] at h
      cases h
  | ok u => exact declared_of_validate hv

/-- A state with fewer fields. -/
theorem Declared.of_keys {state' : DeviceState} (h : Declared capabilities state)
    (hkeys : ∀ k ∈ state'.map Prod.fst, k ∈ state.map Prod.fst) : Declared capabilities state' :=
  fun field hfield => h field (hkeys field hfield)

/-- **A merge has the fields of both.** -/
theorem Declared.merge (h : Declared capabilities state) (hpatch : Declared capabilities patch) :
    Declared capabilities (Json.merge state (Json.changes state patch)) := by
  intro field hfield
  unfold Json.merge at hfield
  rw [List.map_append, List.map_map, List.mem_append] at hfield
  rcases hfield with hold | hnew
  · exact h field hold
  · refine hpatch field ?_
    obtain ⟨m, hm, rfl⟩ := List.mem_map.mp hnew
    exact List.mem_map_of_mem (List.mem_of_mem_filter (List.mem_of_mem_filter hm))

/-- Objects that are equal to Python have the same fields. -/
theorem keys_of_pyEq {state' : DeviceState}
    (h : Json.pyEq (.obj state) (.obj state') = true) :
    ∀ k ∈ state.map Prod.fst, k ∈ state'.map Prod.fst := by
  rw [Json.pyEq, Bool.and_eq_true] at h
  have hmembers := h.2
  clear h
  induction state with
  | nil => simp
  | cons m rest ih =>
      obtain ⟨k, v⟩ := m
      rw [Json.pyEqMembers, Bool.and_eq_true] at hmembers
      intro k' hk'
      rcases List.mem_cons.mp hk' with heq | hrest
      · rw [heq]
        have hmember := hmembers.1
        cases hv : Json.member state' k with
        | none =>
            rw [hv] at hmember
            cases hmember
        | some v' => exact List.mem_map.mpr ⟨(k, v'), Json.mem_of_member hv, rfl⟩
      · exact ih hmembers.2 k' hrest

end

/-- **What is written of checked values is declared.** A column whose value is the same already
is not written, and then its fields are the same too. -/
theorem declared_changes {values : DevicePatch} {row : DeviceRow}
    (h : Declared (values.capabilities.getD row.capabilities) (values.state.getD row.state)) :
    Declared ((values.changes row).apply row).capabilities
      ((values.changes row).apply row).state := by
  have hcapabilities : ((values.changes row).apply row).capabilities =
      values.capabilities.getD row.capabilities := by
    unfold DevicePatch.changes DevicePatch.apply
    dsimp only
    cases values.capabilities with
    | none => rfl
    | some capabilities =>
        rw [Option.filter_some]
        split
        · rfl
        · rename_i hsame
          have hsame : capabilities = row.capabilities := by simpa using hsame
          exact hsame.symm
  rw [hcapabilities]
  refine h.of_keys ?_
  unfold DevicePatch.changes DevicePatch.apply
  dsimp only
  cases values.state with
  | none => exact fun _ hk => hk
  | some state =>
      rw [Option.filter_some]
      split
      · exact fun _ hk => hk
      · rename_i hsame
        exact keys_of_pyEq (by simpa using hsame)

/-! ### Every operation keeps states declared -/

/-- The stored states of a device are declared afterwards if they were before. -/
def Kept (t t' : Tables) : Prop :=
  ∀ id, (∀ row, t.devices.get? id = some row → Declared row.capabilities row.state) →
    ∀ row, t'.devices.get? id = some row → Declared row.capabilities row.state

namespace Kept

variable {t t' t'' : Tables} {id : String}

theorem refl (t : Tables) : Kept t t := fun _ h => h

theorem trans (h : Kept t t') (k : Kept t' t'') : Kept t t'' := fun id h0 => k id (h id h0)

/-- A new device. -/
theorem insert {data : DeviceRow} (h : t.write (.insertDevice id data) = .ok t')
    (hdata : Declared data.capabilities data.state) : Kept t t' := by
  intro id' h0 row hrow
  simp only [Tables.write] at h
  split at h
  · obtain rfl := Except.ok.inj h
    rcases Dict.get?_set.mp hrow with ⟨-, rfl⟩ | ⟨-, hold⟩
    · exact hdata
    · exact h0 row hold
  · cases h

/-- Other columns of a device. -/
theorem update {values : DevicePatch} (h : t.write (.updateDevice id values) = .ok t')
    (hrow : ∀ row, t.devices.get? id = some row → Declared row.capabilities row.state →
      Declared (values.apply row).capabilities (values.apply row).state) : Kept t t' := by
  intro id' h0 row hget
  simp only [Tables.write] at h
  split at h
  · cases h
  · split at h
    · obtain rfl := Except.ok.inj h
      rw [Dict.get?_modify] at hget
      split at hget
      · rename_i hid
        subst hid
        obtain ⟨old, hold, rfl⟩ := Option.map_eq_some_iff.mp hget
        exact hrow old hold (h0 old hold)
      · exact h0 row hget
    · cases h

end Kept

section

variable {t : Tables} {α β : Type} {id : String}

/-- A check does nothing to the tables. -/
theorem kept_lift {x : Except RouteError α} {f : α → Method β}
    (h : ∀ a, x = .ok a → Kept t ((f a).run t).2) : Kept t ((Call.lift x >>= f).run t).2 := by
  rw [Call.run_bind, Call.run_lift]
  cases x with
  | error e => exact .refl t
  | ok a => exact h a rfl

/-- A commit that fails changes nothing. -/
theorem kept_commit {statement : Statement} (h : ∀ t', t.write statement = .ok t' → Kept t t') :
    Kept t ((commit statement).run t).2 := by
  unfold commit
  rw [Call.run_bind_self]
  cases hw : t.write statement with
  | error violation => exact .refl t
  | ok t' => exact h t' hw

/-- **`Repository.update` of values that are declared with what the row has.** -/
theorem kept_repositoryUpdate {values : DevicePatch}
    (h : ∀ row, t.devices.get? id = some row → Declared row.capabilities row.state →
      Declared (values.capabilities.getD row.capabilities) (values.state.getD row.state)) :
    Kept t ((repositoryUpdate id values).run t).2 := by
  unfold repositoryUpdate
  rw [Call.run_bind_self]
  refine kept_lift fun row hrow => ?_
  split
  · exact .refl t
  · refine kept_commit fun t' hwrite => Kept.update hwrite fun old hold hdeclared => ?_
    -- the row that is compared is the row that is written
    obtain rfl : old = row := Option.some.inj (hold.symm.trans (found_ok hrow))
    exact declared_changes (h old hold hdeclared)

theorem kept_create (id : String) (data : DeviceRow) : Kept t ((create id data).run t).2 := by
  unfold create
  rw [Call.run_bind_self]
  refine kept_lift fun _ _ => kept_lift fun _ _ => kept_lift fun u hvalid => ?_
  exact kept_commit fun t' hwrite => Kept.insert hwrite (declared_of_validate (raised_ok hvalid))

theorem kept_update (id : String) (values : DevicePatch) (fields : List String) :
    Kept t ((update id values fields).run t).2 := by
  unfold update
  rw [Call.run_bind_self]
  refine kept_lift fun target _ => kept_lift fun _ _ => kept_lift fun again _ => ?_
  refine kept_lift fun _ _ => kept_lift fun _ _ => kept_lift fun _ _ => kept_lift fun u hcheck => ?_
  refine kept_repositoryUpdate fun row hrow hdeclared => ?_
  unfold checkState at hcheck
  split at hcheck
  · -- neither the state nor the capabilities are among the values
    rename_i hneither
    rw [Bool.and_eq_true, Option.isNone_iff_eq_none, Option.isNone_iff_eq_none] at hneither
    rw [hneither.1, hneither.2]
    exact hdeclared
  · rw [hrow] at hcheck
    exact declared_of_validate (raised_ok hcheck)

/-- **A state that is merged.** The patch is declared for the capabilities of the row. -/
theorem kept_persistState {entity : DeviceRow} {patch : DeviceState}
    {published : Except RouteError Unit} (hentity : t.devices.get? id = some entity)
    (hpatch : Declared entity.capabilities patch) :
    Kept t ((persistState id entity patch published).run t).2 := by
  unfold persistState
  dsimp only
  split
  · exact .refl t
  · have hupdate : Kept t ((repositoryUpdate id (stateValues
        (Json.merge entity.state (Json.changes entity.state patch)))).run t).2 := by
      refine kept_repositoryUpdate fun row hrow hdeclared => ?_
      obtain rfl : entity = row := Option.some.inj (hentity.symm.trans hrow)
      exact hdeclared.merge hpatch
    rw [Call.run_bind]
    cases hrun : (repositoryUpdate id (stateValues
        (Json.merge entity.state (Json.changes entity.state patch)))).run t with
    | mk outcome t' =>
        rw [hrun] at hupdate
        cases outcome with
        | error e => exact hupdate
        | ok u =>
            -- the event is published after the commit, and the state stays
            refine hupdate.trans ?_
            dsimp only
            rw [Call.run_bind_self]
            exact kept_lift fun _ _ => .refl t'

theorem kept_updateState (id : String) (patch : DeviceState)
    (sent : Option (Except RouteError Unit)) (published : Except RouteError Unit) :
    Kept t ((updateState id patch sent published).run t).2 := by
  unfold updateState
  rw [Call.run_bind_self]
  refine kept_lift fun _ _ => kept_lift fun _ _ => kept_lift fun entity hentity => ?_
  cases sent with
  | some sent => exact kept_lift fun _ _ => kept_lift fun _ _ => .refl t
  | none =>
      refine kept_lift fun u hvalid => ?_
      exact kept_persistState (found_ok hentity) (declared_of_validate (raised_ok hvalid))

theorem kept_reportState (house id : String) (patch : DeviceState)
    (published : Except RouteError Unit) :
    Kept t ((reportState house id patch published).run t).2 := by
  unfold reportState
  rw [Call.run_bind_self]
  refine kept_lift fun _ _ => kept_lift fun entity hentity => kept_lift fun u hvalid => ?_
  exact kept_persistState (found_ok hentity) (declared_of_report (raised_ok hvalid))

/-- **One operation**, however it ends. -/
theorem kept_operation (op : Operation) : Kept t (op.method.run t).2 := by
  cases op with
  | create id data => exact kept_create id data
  | update id values fields => exact kept_update id values fields
  | updateState id patch sent published => exact kept_updateState id patch sent published
  | reportState house id patch published => exact kept_reportState house id patch published

end

theorem kept_perform (t : Tables) (ops : List Operation) : Kept t (perform t ops) := by
  induction ops generalizing t with
  | nil => exact .refl t
  | cons op ops ih => exact (kept_operation op).trans (ih _)

/-- **A stored state only uses declared capabilities**, whatever is done to the device, as long
as it is not there at first, or has a declared state. -/
theorem stored_declared {t : Tables} {id : String}
    (h : ∀ row, t.devices.get? id = some row → Declared row.capabilities row.state)
    (ops : List Operation) {row : DeviceRow} (hrow : (perform t ops).devices.get? id = some row) :
    ∀ field ∈ row.state.map Prod.fst, ∃ capability ∈ row.capabilities,
      (field, capability) ∈ StateValidator.fieldCapabilities :=
  kept_perform t ops id h row hrow

/-- One room, and nothing in it. -/
def oneRoom : Tables where
  houses := Dict.empty.set "h" ⟨"House"⟩
  floors := Dict.empty.set "f" ⟨"h", "Floor", 0⟩
  rooms := Dict.empty.set "r" ⟨"f", "Room", none⟩
  devices := .empty
  physical := .empty
  memberships := .empty
  users := .empty
  scenes := .empty
  automations := .empty
  attempts := .empty
  ledger := ⟨[], []⟩
  issued := []

/-- A lamp is created, set, and refused the loss of a capability that its state uses. -/
theorem stored_declared_lamp :
    let ops : List Operation := [
      .create "lamp" ⟨"Lamp", "r", "light", [], ["on_off", "brightness"], [], true⟩,
      .updateState "lamp" [("brightness", .int 40)] none (.ok ()),
      .update "lamp" ⟨none, none, none, none, none, some ["on_off"], none⟩ ["capabilities"]]
    ∃ row, (perform oneRoom ops).devices.get? "lamp" = some row ∧
      row.state.map Prod.fst = ["brightness"] ∧ Declared row.capabilities row.state := by
  intro ops
  have hrow : (perform oneRoom ops).devices.get? "lamp" =
      some ⟨"Lamp", "r", "light", [("brightness", .int 40)], ["on_off", "brightness"], [], true⟩ :=
    rfl
  have habsent : oneRoom.devices.get? "lamp" = none := rfl
  refine ⟨_, hrow, rfl, stored_declared (fun row h => ?_) ops hrow⟩
  rw [habsent] at h
  cases h

end KzHome.DeviceService

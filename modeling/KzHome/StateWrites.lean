import KzHome.JsonValues
import KzHome.Lib.Effects
import KzHome.StateValidator
import Mathlib.Data.List.Permutation

/-!
# KzHome.StateWrites

The writers of the state of a virtual device.

A report and a direct state `PATCH` load the row, merge their fields into the state they
loaded, and write the whole state back; a device `PATCH` replaces the state. A virtual
device has no row in `physical_devices`, so nothing is locked between the load and the
commit of a merge: only device `PATCH`es are kept apart, by the lock of the house. The
unit of work writes the columns whose value differs from the one that was loaded. A row that
no variable holds any more is read again: the one that a report merges into is that of its own
`get`, after `require_house`.

**Serial order** (`serialized`): as long as no operation commits at a moment at which it
would decide otherwise than on the row it loaded, the operations are as good as executed
one after another, in the order in which they take effect.
-/

namespace KzHome

open Session Sql
open StateValidator (DeviceState)

namespace StateWrites

/-- The columns of the device that the operations read or write. -/
structure StoredDevice where
  roomId : String
  capabilities : List String
  state : DeviceState

/-- The operations on the device. -/
inductive Operation
  /-- `report_state` -/
  | report (house : String) (patch : DeviceState)
  /-- `update_state` without a transport. -/
  | direct (patch : DeviceState)
  /-- `update`, of a body with a `state`. -/
  | replace (state : DeviceState) (capabilities : Option (List String)) (roomId : Option String)

/-- The columns that an `UPDATE` sets. -/
structure Columns where
  roomId : Option String := none
  capabilities : Option (List String) := none
  state : Option DeviceState := none

/-- No column differs from what was loaded, so there is no `UPDATE`. -/
def Columns.isEmpty (c : Columns) : Bool :=
  c.roomId.isNone && c.capabilities.isNone && c.state.isNone

/-- The row after an `UPDATE`. -/
def StoredDevice.set (row : StoredDevice) (c : Columns) : StoredDevice where
  roomId := c.roomId.getD row.roomId
  capabilities := c.capabilities.getD row.capabilities
  state := c.state.getD row.state

/-- `_persist_state` -/
def persisted (row : StoredDevice) (patch : DeviceState) : Columns :=
  let changed := Json.changes row.state patch
  { state := if changed.isEmpty then none else some (Json.merge row.state changed) }

namespace Operation

/-- What the operation makes of the row it has loaded: the checks of the state validator,
and the columns that are set. -/
def columns (row : StoredDevice) : Operation → Except Error Columns
  | .report _ patch => do
    StateValidator.validateReport row.capabilities patch
    return persisted row patch
  | .direct patch => do
    StateValidator.validateCapabilities row.capabilities patch
    return persisted row patch
  | .replace state capabilities roomId => do
    StateValidator.validateCapabilities (capabilities.getD row.capabilities) state
    return {
      roomId := roomId.filter (· ≠ row.roomId)
      capabilities := capabilities.filter (· ≠ row.capabilities)
      state := if Json.pyEq (.obj row.state) (.obj state) then none else some state }

/-- The checks on the place of the device, where `place` is the house of a room:
`require_house`, and for a device `PATCH` that the source and the target exist. -/
def checks (place : String → Option String) (row : StoredDevice) : Operation → Except Error Unit
  | .report house _ =>
    if place row.roomId = some house then .ok ()
    else .error (.invalidReference "Device does not belong to MQTT topic house")
  | .direct _ => .ok ()
  | .replace _ _ roomId =>
    if (place row.roomId).isSome ∧ ((place (roomId.getD row.roomId)).isSome) then .ok ()
    else .error (.notFound "Resource not found")

/-- The operation on its own, with nothing else going on. -/
def exec (place : String → Option String) (row : StoredDevice) (op : Operation) : StoredDevice :=
  match op.checks place row, op.columns row with
  | .ok (), .ok columns => row.set columns
  | _, _ => row

end Operation

/-- The operations one after another. -/
def serial (place : String → Option String) (row : StoredDevice) (ops : List Operation) :
    StoredDevice := ops.foldl (Operation.exec place) row

/-- The notes: the load of the row, and the commit of the columns. -/
inductive Note
  | loaded
  | written
  deriving DecidableEq

/-- The device as a database: the rows that are locked are those of houses. -/
def schema : Schema StoredDevice String Columns Empty where
  has _ _ := true
  targets _ _ := []
  apply row writes := .ok (writes.foldl StoredDevice.set row)

abbrev Statements (α : Type) := Query StoredDevice String Columns Empty Note Error α

/-- The checks on the loaded row, and the commit. -/
def finish (op : Operation) (row : StoredDevice) : Statements Unit := do
  let columns ← Prog.lift (op.columns row)
  if columns.isEmpty then return ()
  else
    let _ ← Sql.commit [columns] (some .written)
    return ()

/-- `structure_house`, on a row that was read. -/
def structureHouse (place : String → Option String) (roomId : String) : Except Error String :=
  match place roomId with
  | some house => .ok house
  | none => .error (.notFound "Resource not found")

/-- The second look of `structure_mutation`. -/
def unmoved (place : String → Option String) (source : String) (row : StoredDevice) :
    Except Error Unit :=
  if place row.roomId = some source then .ok ()
  else .error (.conflict "Location changed concurrently; retry")

/-- The houses that `lock_houses` locks, in its order. -/
def lockedHouses (source target : String) : List String :=
  if target = source then [source] else if source < target then [source, target]
  else [target, source]

/-- The statements of an operation on the device, of which nothing is physical. A report goes
through `require_house` first: `get_current`, and `house_id`. -/
def program (place : String → Option String) : Operation → Statements Unit
  | .report house patch => do
    let _ ← Sql.read none
    let here ← Sql.read none
    Prog.lift ((Operation.report house patch).checks place here)
    let row ← Sql.read (some .loaded)
    finish (.report house patch) row
  | .direct patch => do
    let row ← Sql.read (some .loaded)
    finish (.direct patch) row
  | .replace state capabilities roomId => do
    let here ← Sql.read none
    let source ← Prog.lift (structureHouse place here.roomId)
    let target ← Prog.lift (structureHouse place (roomId.getD here.roomId))
    Sql.lockAll (lockedHouses source target)
    let here ← Sql.read none
    Prog.lift (unmoved place source here)
    let row ← Sql.read (some .loaded)
    finish (.replace state capabilities roomId) row

/-- Sessions that execute operations, in any interleaving of their statements. -/
def sessions (place : String → Option String) :
    Transition.System (State (interface StoredDevice String Columns Empty Note)
      (Store StoredDevice String Note Operation) Operation Error)
      (Session.Label Operation Unit String (Outside StoredDevice)) :=
  Session.system (machine schema fun _ _ => false) fun _ op _ => program place op

/-- An operation takes effect when it commits; one that has nothing to write, when it loads
the row. -/
def effect (op : Operation) (row : StoredDevice) : Note → Bool
  | .written => true
  | .loaded => match op.columns row with
    | .ok columns => columns.isEmpty
    | .error _ => false

/-! ### The statements keep to a protocol -/

/-- A session commits the columns that its operation makes of the row it has loaded. -/
def protocol : Protocol StoredDevice String Columns Note Operation where
  inv _ := True
  commits s op st writes note :=
    note = some .written ∧ ∃ row columns, writes = [columns] ∧
      ⟨s, op, row, .loaded⟩ ∈ st.trace ∧ op.columns row = .ok columns
  notes _ _ _ note := note = .loaded

theorem keeps : protocol.Keeps schema (fun _ _ => false) :=
  ⟨fun _ _ _ => trivial, fun _ _ _ _ => trivial, fun _ _ => trivial, fun _ _ _ _ _ _ => trivial,
    fun _ _ _ _ _ _ _ _ _ _ => trivial, fun _ _ _ _ => trivial⟩

section Outlines

variable {place : String → Option String} {s : Nat} {op : Operation}

abbrev contract := Protocol.contract protocol schema (fun _ _ => false)

theorem outline_finish (op : Operation) (row : StoredDevice) :
    contract.Outline (machine schema fun _ _ => false) s op (finish op row)
      (fun st => ⟨s, op, row, .loaded⟩ ∈ st.trace) (Contract.returns fun _ _ => True) := by
  refine Protocol.outline_lift fun columns hcolumns => ?_
  by_cases hempty : columns.isEmpty = true
  · rw [if_pos hempty]
    exact fun _ _ _ => trivial
  · rw [if_neg hempty]
    refine Protocol.outline_commit (R := fun _ _ => True) (fun _ => Contract.Stable.const True)
      (fun st _ h => ⟨rfl, row, columns, rfl, h, hcolumns⟩) (fun _ _ _ _ _ => trivial)
      (fun _ _ _ _ => trivial) fun _ _ _ _ => trivial

/-- The load of the row, and what follows it. -/
theorem outline_load {A : Store StoredDevice String Note Operation → Prop}
    {f : StoredDevice → Statements Unit}
    (hf : ∀ row, contract.Outline (machine schema fun _ _ => false) s op (f row)
      (fun st => ⟨s, op, row, .loaded⟩ ∈ st.trace) (Contract.returns fun _ _ => True)) :
    contract.Outline (machine schema fun _ _ => false) s op (Sql.read (some .loaded) >>= f) A
      (Contract.returns fun _ _ => True) :=
  Protocol.outline_read (fun _ => Protocol.stable_traced)
    (fun _ _ _ _ h => (Option.some.inj h).symm) (fun _ _ _ => List.mem_cons_self) hf

theorem outline_program (op : Operation) :
    contract.Outline (machine schema fun _ _ => false) s op (program place op) (fun _ => True)
      (fun _ _ => True) := by
  have htrue : contract.Stable s op fun _ => True := Contract.Stable.const True
  suffices h : contract.Outline (machine schema fun _ _ => false) s op (program place op)
      (fun _ => True) (Contract.returns fun _ _ => True) from h.post fun _ _ _ _ => trivial
  cases op with
  | report house patch =>
      refine Protocol.outline_peek htrue fun current => ?_
      refine Protocol.outline_peek htrue fun here => ?_
      refine Protocol.outline_lift fun _ _ => ?_
      exact outline_load fun row => outline_finish _ row
  | direct patch => exact outline_load fun row => outline_finish _ row
  | replace state capabilities roomId =>
      refine Protocol.outline_peek htrue fun here => ?_
      refine Protocol.outline_lift fun source _ => ?_
      refine Protocol.outline_lift fun target _ => ?_
      refine Protocol.outline_lockAll (fun _ _ => Protocol.stable_locked
        (fun _ _ _ _ _ _ _ _ _ _ => rfl) (fun _ _ _ _ _ => rfl)) htrue (fun _ _ _ => trivial) ?_
      refine Contract.Outline.pre ?_ fun _ _ _ => trivial
      refine Protocol.outline_peek htrue fun again => ?_
      refine Protocol.outline_lift fun _ _ => ?_
      exact outline_load fun row => outline_finish _ row

/-- Every operation takes effect once, at the latest when it returns. -/
theorem marked_program (op : Operation) :
    Marked effect op false (program place op) := by
  have hfinish : ∀ row, Marked effect op (effect op row .loaded) (finish op row) := by
    intro row
    refine marked_lift fun columns hcolumns => ?_
    have heffect : effect op row .loaded = columns.isEmpty := by simp only [effect, hcolumns]
    rw [heffect]
    cases hempty : columns.isEmpty with
    | true => rfl
    | false => exact marked_commit (fun _ => rfl) rfl fun e => nomatch e
  cases op with
  | report house patch =>
      refine marked_peek fun current => ?_
      refine marked_peek fun here => ?_
      refine marked_lift fun _ _ => ?_
      exact marked_read fun row => ⟨fun _ => rfl, hfinish row⟩
  | direct patch => exact marked_read fun row => ⟨fun _ => rfl, hfinish row⟩
  | replace state capabilities roomId =>
      refine marked_peek fun here => ?_
      refine marked_lift fun source _ => ?_
      refine marked_lift fun target _ => ?_
      refine marked_lockAll ?_
      refine marked_peek fun again => ?_
      refine marked_lift fun _ _ => ?_
      exact marked_read fun row => ⟨fun _ => rfl, hfinish row⟩

end Outlines

/-! ### Serial order -/

/-- The run so far is as good as a serial one: no operation has had its effect twice, every
operation that has returned has had it, and the stored state is what the operations make
of the first row one after another, in some order. -/
structure Serialized (place : String → Option String) (row : StoredDevice)
    (st : State (interface StoredDevice String Columns Empty Note)
      (Store StoredDevice String Note Operation) Operation Error) : Prop where
  once : ((st.shared.effects effect).map (·.session)).Nodup
  all : ∀ s op, st.sessions s = some (op, .ret ()) →
    ∃ e ∈ st.shared.effects effect, e.session = s ∧ e.owner = op
  order : ∃ ops, ops.Perm ((st.shared.effects effect).map (·.owner)) ∧
    (serial place row ops).state = st.shared.db.state

/-- A step that does not commit an operation at a moment at which it would decide otherwise:
the device is still where the operation may find it, and the operation sets the same
columns on the row that is stored as on the row that it has loaded. -/
def Steady (place : String → Option String)
    (st : State (interface StoredDevice String Columns Empty Note)
      (Store StoredDevice String Note Operation) Operation Error)
    (l : Session.Label Operation Unit String (Outside StoredDevice)) : Prop :=
  ∀ e, ((sessions place).next st l).shared.trace = e :: st.shared.trace → e.note = .written →
    e.owner.checks place st.shared.db = .ok () ∧
      ∀ row, ⟨e.session, e.owner, row, .loaded⟩ ∈ st.shared.trace →
        e.owner.columns st.shared.db = e.owner.columns row

/-- The operations in the order in which they took effect. -/
def history (st : Store StoredDevice String Note Operation) : List Operation :=
  (st.effects effect).reverse.map (·.owner)

section History

variable {place : String → Option String} {row : StoredDevice} {s : Nat} {op : Operation}
  {a b : Store StoredDevice String Note Operation}

theorem set_of_isEmpty {columns : Columns} (h : columns.isEmpty = true) (row : StoredDevice) :
    row.set columns = row := by
  obtain ⟨roomId, capabilities, state⟩ := columns
  simp only [Columns.isEmpty, Bool.and_eq_true, Option.isNone_iff_eq_none] at h
  obtain ⟨⟨rfl, rfl⟩, rfl⟩ := h
  rfl

/-- An operation with nothing to write does nothing. -/
theorem exec_of_effect (h : effect op row .loaded = true) : op.exec place row = row := by
  unfold effect at h
  unfold Operation.exec
  cases hcolumns : op.columns row with
  | error e => rw [hcolumns] at h; cases h
  | ok columns =>
      rw [hcolumns] at h
      cases op.checks place row with
      | error e => rfl
      | ok u => exact set_of_isEmpty h row

theorem serial_snoc (ops : List Operation) (op : Operation) :
    serial place row (ops ++ [op]) = op.exec place (serial place row ops) := by
  rw [serial, List.foldl_append]
  rfl

theorem history_record (a : Store StoredDevice String Note Operation) (s : Nat) (op : Operation)
    (note : Note) :
    history (a.record s op (some note)) =
      history a ++ if effect op a.db note then [op] else [] := by
  unfold history Store.effects
  rw [Store.record, List.filter_cons]
  by_cases h : effect op a.db note = true
  · rw [if_pos h, if_pos h, List.reverse_cons, List.map_append]
    rfl
  · rw [if_neg h, if_neg h, List.append_nil]

/-- **One statement**: the stored row stays the serial one. -/
theorem serial_does (hserial : serial place row (history a) = a.db)
    (hd : Protocol.Does protocol schema s op a b)
    (hsteady : ∀ e, b.trace = e :: a.trace → e.note = .written →
      e.owner.checks place a.db = .ok () ∧ ∀ row, ⟨e.session, e.owner, row, .loaded⟩ ∈ a.trace →
        e.owner.columns a.db = e.owner.columns row) :
    serial place row (history b) = b.db := by
  cases hd with
  | none => exact hserial
  | locked lockedRow h =>
      unfold Store.take
      split <;> exact hserial
  | released => exact hserial
  | reading => exact hserial
  | noted note h =>
      obtain rfl : note = .loaded := h
      show serial place row (history (a.record s op (some .loaded))) = a.db
      rw [history_record]
      by_cases heffect : effect op a.db .loaded = true
      · rw [if_pos heffect, serial_snoc, hserial]
        exact exec_of_effect heffect
      · rw [if_neg heffect, List.append_nil]
        exact hserial
  | committed writes note db h hfree hdb =>
      obtain ⟨rfl, loaded, columns, rfl, hloaded, hcolumns⟩ := h
      obtain ⟨hchecks, hsame⟩ := hsteady ⟨s, op, a.db, .written⟩ rfl rfl
      have hnow : op.columns a.db = .ok columns := (hsame loaded hloaded).trans hcolumns
      have hexec : op.exec place a.db = a.db.set columns := by
        simp only [Operation.exec, hchecks, hnow]
      show serial place row (history (a.record s op (some .written))) = db
      have hyes : effect op a.db .written = true := rfl
      rw [history_record, if_pos hyes, serial_snoc, hserial, hexec]
      exact Except.ok.inj hdb

end History

/-- **No lost update.** In every run in which no operation commits at a moment at which it
would decide otherwise than on the row it loaded, the state that is stored is that of a
serial execution of the operations. -/
theorem no_lost_update (place : String → Option String) (row : StoredDevice)
    (labels : List (Session.Label Operation Unit String (Outside StoredDevice)))
    (h : (sessions place).Along (Steady place) (State.init (Store.init row 0)) labels) :
    Serialized place row ((sessions place).run (State.init (Store.init row 0)) labels) := by
  have hprog : ∀ s op (call : Unit), contract.Outline (machine schema fun _ _ => false) s op
      (program place op) (fun _ => True) (fun _ _ => True) := fun _ op _ => outline_program op
  have hO := keeps.obligations hprog
  have hinv := h.invariant (P := fun st => Sound contract (machine schema fun _ _ => false) st ∧
      serial place row (history st.shared) = st.shared.db) ?_ ⟨Sound.init trivial, rfl⟩
  · have htally : Tally effect ((sessions place).run (State.init (Store.init row 0)) labels) :=
      run_tally (fun _ op (_ : Unit) => marked_program op) rfl labels
    refine ⟨htally.once, fun s op hs => htally.returned hs, _, ?_, congrArg _ hinv.2⟩
    rw [history, List.map_reverse]
    exact List.reverse_perm _
  · intro st l st' ⟨hs, hserial⟩ hsteady hstep
    refine ⟨hs.step hO hstep, ?_⟩
    have hnext : (sessions place).next st l = st' := Transition.System.next_of_step hstep
    unfold Steady at hsteady
    rw [hnext] at hsteady
    have hstep : Session.step (machine schema fun _ _ => false) (fun _ op _ => program place op)
        st l = some st' := hstep
    obtain h | ⟨s, op, input, m, -, -, hd⟩ | ⟨ended, h⟩ | ⟨x, b, -, hx, h⟩ := shared_cases hs hstep
    · rw [h]
      exact hserial
    · exact serial_does hserial hd hsteady
    · rw [h]
      exact hserial
    · rw [h]
      cases x with
      | clock t =>
          simp only [machine, act] at hx
          split at hx
          · obtain rfl := Option.some.inj hx
            exact hserial
          · cases hx
      | change db => simp [machine, act] at hx

/-! ### A lamp with two writers -/

namespace Household

def place (roomId : String) : Option String := if roomId = "hall" then some "home" else none

/-- The lamp is off. -/
def lamp : StoredDevice where
  roomId := "hall"
  capabilities := ["on_off", "brightness"]
  state := [("on", .bool false), ("brightness", .int 10)]

/-- The lamp reports that it is on. -/
def on : Operation := .report "home" [("on", .bool true)]

/-- An administrator sets the brightness in the stored state. -/
def brighter : Operation := .replace [("on", .bool false), ("brightness", .int 80)] none none

/-- The `PATCH` has checked the place of the lamp when the report begins, and commits before the
report loads the row. -/
def overlapping : List (Session.Label Operation Unit String (Outside StoredDevice)) :=
  [.start brighter (), .exec 0 "", .start on (), .exec 1 "", .exec 0 "", .exec 0 "", .exec 1 "",
    .exec 0 "", .exec 0 "", .exec 1 "", .exec 1 ""]

/-- The `PATCH` comes between the load and the commit of the report. -/
def between : List (Session.Label Operation Unit String (Outside StoredDevice)) :=
  [.start on (), .exec 0 "", .exec 0 "", .exec 0 "", .start brighter (), .exec 1 "", .exec 1 "",
    .exec 1 "", .exec 1 "", .exec 1 "", .exec 0 ""]

theorem overlapping_steady :
    (sessions place).Along (Steady place) (State.init (Store.init lamp 0)) overlapping := by
  -- only a commit has to be steady, and each finds its load in the trace
  refine ⟨?_, ?_, ?_, ?_, ?_, ?_, ?_, ?_, ?_, ?_, ?_, trivial⟩
  on_goal 9 =>
    rintro e he -
    cases he
    refine ⟨rfl, fun row hrow => ?_⟩
    obtain h := List.mem_singleton.mp hrow
    cases h
    rfl
  on_goal 10 =>
    rintro e he -
    cases he
    refine ⟨rfl, fun row hrow => ?_⟩
    obtain h | h := List.mem_cons.mp hrow
    · cases h
      rfl
    · obtain h | h := List.mem_cons.mp h
      · cases h
      · cases List.mem_singleton.mp h
  all_goals
    intro e he hn
    cases he
    try cases hn

end Household

open StateWrites.Household in
/-- Both writes are there. -/
theorem no_lost_update_lamp :
    Serialized place lamp ((sessions place).run (State.init (Store.init lamp 0)) overlapping) ∧
      ((sessions place).run (State.init (Store.init lamp 0)) overlapping).shared.db.state =
        [("on", .bool true), ("brightness", .int 80)] :=
  ⟨no_lost_update place lamp overlapping overlapping_steady, rfl⟩

open StateWrites.Household in
/-- The report writes back the brightness that it loaded: the `PATCH` is lost. -/
theorem lost_update_lamp :
    ¬ Serialized place lamp
      ((sessions place).run (State.init (Store.init lamp 0)) between) := by
  intro h
  obtain ⟨ops, hperm, hstate⟩ := h.order
  have hops : ((((sessions place).run (State.init (Store.init lamp 0)) between).shared.effects
      effect).map (·.owner)) = [on, brighter] := rfl
  have hstored : ((sessions place).run (State.init (Store.init lamp 0)) between).shared.db.state =
      [("on", .bool true), ("brightness", .int 10)] := rfl
  rw [hops] at hperm
  rw [hstored] at hstate
  have hmem := List.mem_permutations'.mpr hperm
  have hall : [on, brighter].permutations' = [[on, brighter], [brighter, on]] := rfl
  rw [hall, List.mem_cons, List.mem_singleton] at hmem
  obtain rfl | rfl := hmem
  · cases hstate
  · cases hstate

end StateWrites

end KzHome

import KzHome.Basic
import KzHome.Lib.Table

/-!
# KzHome.Ledger

The two tables of the command ledger, `device_commands` and `command_control`,
with their constraints, and what one commit can do to them.

A commit is a `Write`: at most one row overwritten, one row inserted, one
control record inserted and one permit binding stored. `Ledger.apply` takes
effect only if every constraint holds afterwards, so `Ledger.Valid` is true of
every committed ledger by construction (`apply_valid`), and the few other facts
about a commit that later proofs use are the membership lemmas below.
-/

namespace KzHome

/-- `device_commands.status`. -/
inductive CommandStatus
  | queued
  | dispatched
  | applied
  | failed
  | timedOut
  deriving DecidableEq, Repr

/-- Membership in `PENDING = ("queued", "dispatched")`. -/
def CommandStatus.pending : CommandStatus → Bool
  | .queued | .dispatched => true
  | _ => false

/-- `device_commands.ack_status`, and the status of an acknowledgement. -/
inductive AckStatus
  | accepted
  | applied
  | rejected
  | failed
  deriving DecidableEq, Repr

/-- `envelope.status in ("rejected", "failed")`. -/
def AckStatus.negative : AckStatus → Bool
  | .rejected | .failed => true
  | _ => false

/-- `device_commands.failure_code`. -/
inductive FailureCode
  | deviceRejected
  | deviceFailed
  | publishUnconfirmed
  | deadlineExceeded
  deriving DecidableEq, Repr

/-- `"device_" + envelope.status` for a negative status. -/
def FailureCode.device : AckStatus → FailureCode
  | .rejected => .deviceRejected
  | _ => .deviceFailed

/-- A row of `device_commands` (`DeviceCommandORM`). -/
structure DeviceCommand where
  commandId : String
  correlationId : String
  houseId : String
  deviceId : String
  requestedBy : String
  idempotencyHash : String
  requestedOn : Bool
  status : CommandStatus
  ackStatus : Option AckStatus
  reportedOn : Option Bool
  failureCode : Option FailureCode
  createdAt : Instant
  updatedAt : Instant
  expiresAt : Instant
  dispatchStartedAt : Option Instant
  dispatchedAt : Option Instant
  ackReceivedAt : Option Instant
  stateReceivedAt : Option Instant
  completedAt : Option Instant
  deriving DecidableEq, Repr

/-- `PROFILE` -/
def controlProfile : String := "deadline-permit-v1"

/-- A row of `command_control` (`ControlCommandORM`). -/
structure ControlCommand where
  commandId : String
  executionProfile : String
  authorityEpoch : String
  wirePayload : String
  wireSha256 : String
  permitBindingSha256 : Option String
  deriving DecidableEq, Repr

namespace DeviceCommand

/-- The columns of `uq_command_idempotency`. -/
def key (row : DeviceCommand) : String × String × String :=
  (row.houseId, row.requestedBy, row.idempotencyHash)

/-- Identity, intent and deadline of a command: the columns fixed when the row is
inserted. -/
def fixedColumns (row : DeviceCommand) :
    String × String × String × String × String × String × Bool × Instant × Instant :=
  (row.commandId, row.correlationId, row.houseId, row.deviceId, row.requestedBy,
    row.idempotencyHash, row.requestedOn, row.createdAt, row.expiresAt)

end DeviceCommand

/-- The committed ledger. -/
structure Ledger where
  commands : List DeviceCommand
  controls : List ControlCommand

namespace Ledger

/-- The row of a command. -/
def command? (l : Ledger) (id : String) : Option DeviceCommand :=
  l.commands.find? (fun row => row.commandId = id)

/-- `session.get(ControlCommandORM, command_id)`. -/
def control? (l : Ledger) (id : String) : Option ControlCommand :=
  l.controls.find? (fun record => record.commandId = id)

/-- The pending rows. -/
def pendingRows (l : Ledger) : List DeviceCommand := l.commands.filter (·.status.pending)

/-- The control record of a command has this permit binding. -/
def BoundTo (l : Ledger) (id binding : String) : Prop :=
  ∃ record, l.control? id = some record ∧ record.permitBindingSha256 = some binding

/-! ### Constraints -/

/-- A text has no more characters than bytes. -/
theorem length_le_utf8ByteSize (s : String) : s.length ≤ s.utf8ByteSize := by
  have h : ∀ cs : List Char, cs.length ≤ (String.ofList cs).utf8ByteSize := by
    intro cs
    induction cs with
    | nil => exact Nat.zero_le _
    | cons c cs ih =>
        have hc : 1 ≤ c.utf8Size := c.utf8Size_pos
        rw [← List.singleton_append, String.ofList_append, String.utf8ByteSize_append,
          ← String.singleton_eq_ofList, String.utf8ByteSize_singleton, List.length_append,
          List.length_singleton]
        omega
  have h := h s.toList
  rwa [String.ofList_toList, String.length_toList] at h

/-- `length(s) <= n`. The bytes are counted first, as they need no decoding. -/
def fits (n : Nat) (s : String) : Bool := s.utf8ByteSize ≤ n || s.length ≤ n

theorem fits_iff {n : Nat} {s : String} : fits n s = true ↔ s.length ≤ n := by
  rw [fits, Bool.or_eq_true, decide_eq_true_eq, decide_eq_true_eq]
  constructor
  · rintro (h | h)
    · exact (length_le_utf8ByteSize s).trans h
    · exact h
  · exact Or.inr

/-- The constraints of the two tables that the migrations declare. -/
structure Valid (l : Ledger) : Prop where
  /-- Primary key of `device_commands`. -/
  commandIds : (l.commands.map (·.commandId)).Nodup
  /-- `correlation_id` is unique. -/
  correlationIds : (l.commands.map (·.correlationId)).Nodup
  /-- `uq_command_idempotency` -/
  keys : (l.commands.map (·.key)).Nodup
  /-- `uq_command_pending_device` -/
  pendingDevices : (l.pendingRows.map (·.deviceId)).Nodup
  /-- `ck_command_deadline` -/
  deadlines : ∀ row ∈ l.commands, row.createdAt < row.expiresAt
  /-- Primary key of `command_control`. -/
  controlIds : (l.controls.map (·.commandId)).Nodup
  /-- Foreign key of `command_control`. -/
  controlCommands : ∀ record ∈ l.controls, record.commandId ∈ l.commands.map (·.commandId)
  /-- `uq_control_permit_binding` -/
  bindings : (l.controls.filterMap (·.permitBindingSha256)).Nodup
  /-- The column checks of `command_control`. -/
  controlChecks : ∀ record ∈ l.controls, record.authorityEpoch.length = 36 ∧
    record.executionProfile = controlProfile ∧ record.wireSha256.length = 64 ∧
    record.wirePayload.length ≤ 4096 ∧
    ∀ b ∈ record.permitBindingSha256, b.length = 64

/-- The database's own test of its constraints. -/
def check (l : Ledger) : Bool :=
  decide (l.commands.map (·.commandId)).Nodup
    && decide (l.commands.map (·.correlationId)).Nodup
    && decide (l.commands.map (·.key)).Nodup
    && decide (l.pendingRows.map (·.deviceId)).Nodup
    && l.commands.all (fun row => row.createdAt < row.expiresAt)
    && decide (l.controls.map (·.commandId)).Nodup
    && l.controls.all (fun record => decide (record.commandId ∈ l.commands.map (·.commandId)))
    && decide (l.controls.filterMap (·.permitBindingSha256)).Nodup
    && l.controls.all (fun record => record.authorityEpoch.length = 36 ∧
        record.executionProfile = controlProfile ∧ record.wireSha256.length = 64 ∧
        fits 4096 record.wirePayload ∧
        ∀ b ∈ record.permitBindingSha256, b.length = 64)

theorem check_iff {l : Ledger} : l.check = true ↔ l.Valid := by
  simp only [check, Bool.and_eq_true, decide_eq_true_eq, List.all_eq_true, fits_iff]
  constructor
  · rintro ⟨⟨⟨⟨⟨⟨⟨⟨h1, h2⟩, h3⟩, h4⟩, h5⟩, h6⟩, h7⟩, h8⟩, h9⟩
    exact ⟨h1, h2, h3, h4, h5, h6, h7, h8, h9⟩
  · rintro ⟨h1, h2, h3, h4, h5, h6, h7, h8, h9⟩
    exact ⟨⟨⟨⟨⟨⟨⟨⟨h1, h2⟩, h3⟩, h4⟩, h5⟩, h6⟩, h7⟩, h8⟩, h9⟩

/-! ### Commits -/

/-- What one transaction writes. -/
structure Write where
  /-- The row whose changed columns are flushed. -/
  update : Option DeviceCommand := none
  /-- A new ledger row. -/
  insert : Option DeviceCommand := none
  /-- A new control record. -/
  control : Option ControlCommand := none
  /-- `UPDATE command_control SET permit_binding_sha256 = … WHERE command_id = …
  AND permit_binding_sha256 IS NULL`. -/
  bind : Option (String × String) := none

/-- The conditional update of a permit binding; `none` unless it changed exactly
one row. -/
def casBinding (controls : List ControlCommand) (id binding : String) :
    Option (List ControlCommand) :=
  match controls.find? (fun record => record.commandId = id) with
  | some record =>
    if record.permitBindingSha256 = none then
      some (Table.replace (·.commandId) controls
        { record with permitBindingSha256 := some binding })
    else none
  | none => none

/-- The rows after a commit. -/
def commandsAfter (l : Ledger) (w : Write) : List DeviceCommand :=
  (match w.update with
    | some row => Table.replace (·.commandId) l.commands row
    | none => l.commands) ++ w.insert.toList

/-- The control records after a commit, unless the conditional update missed. -/
def controlsAfter (l : Ledger) (w : Write) : Option (List ControlCommand) :=
  (match w.bind with
    | some (id, binding) => casBinding l.controls id binding
    | none => some l.controls).map (· ++ w.control.toList)

/-- Commit a write: `none` when the conditional update changed no row or a
constraint fails (`IntegrityError`), and the transaction is rolled back. -/
def apply (l : Ledger) (w : Write) : Option Ledger :=
  match l.controlsAfter w with
  | some controls =>
    let l' : Ledger := ⟨l.commandsAfter w, controls⟩
    if l'.check then some l' else none
  | none => none

section Apply

variable {l l' : Ledger} {w : Write}

/-- Inverting a commit that went through. -/
theorem apply_inv (h : l.apply w = some l') :
    l'.Valid ∧ l'.commands = l.commandsAfter w ∧ l.controlsAfter w = some l'.controls := by
  unfold apply at h
  cases hc : l.controlsAfter w with
  | none => rw [hc] at h; cases h
  | some controls =>
      rw [hc] at h
      dsimp only at h
      split at h
      · rename_i hk
        obtain rfl := Option.some.inj h
        exact ⟨check_iff.mp hk, rfl, rfl⟩
      · cases h

theorem apply_valid (h : l.apply w = some l') : l'.Valid := (apply_inv h).1

/-- The rows after a commit: the updated row, the inserted row, and every other
row as it was. -/
theorem mem_commands_apply (h : l.apply w = some l') {row : DeviceCommand} :
    row ∈ l'.commands ↔
      (w.update = some row ∧ ∃ r₀ ∈ l.commands, r₀.commandId = row.commandId) ∨
      w.insert = some row ∨
      (row ∈ l.commands ∧ ∀ u ∈ w.update, row.commandId ≠ u.commandId) := by
  rw [(apply_inv h).2.1, commandsAfter, List.mem_append]
  cases hu : w.update with
  | none => simp [Option.mem_toList]; tauto
  | some u =>
      simp only [Table.mem_replace, Option.mem_toList, Option.mem_def, Option.some.injEq,
        forall_eq']
      constructor
      · rintro ((⟨rfl, hx⟩ | hx) | hx)
        · exact Or.inl ⟨rfl, hx⟩
        · exact Or.inr (Or.inr hx)
        · exact Or.inr (Or.inl hx)
      · rintro (⟨rfl, hx⟩ | hx | hx)
        · exact Or.inl (Or.inl ⟨rfl, hx⟩)
        · exact Or.inr hx
        · exact Or.inl (Or.inr hx)

/-- The control records after a commit: the inserted one, the one that got its
binding, and every other record as it was. -/
theorem mem_controls_apply (h : l.apply w = some l') (hv : l.Valid) {record : ControlCommand} :
    record ∈ l'.controls ↔
      w.control = some record ∨
      (∃ id b r₀, w.bind = some (id, b) ∧ r₀ ∈ l.controls ∧ r₀.commandId = id ∧
        r₀.permitBindingSha256 = none ∧ record = { r₀ with permitBindingSha256 := some b }) ∨
      (record ∈ l.controls ∧ ∀ p ∈ w.bind, record.commandId ≠ p.1) := by
  have hc := (apply_inv h).2.2
  unfold controlsAfter at hc
  cases hb : w.bind with
  | none =>
      rw [hb] at hc
      simp only [Option.map_some, Option.some.injEq] at hc
      rw [← hc, List.mem_append]
      simp [Option.mem_toList]; tauto
  | some p =>
      obtain ⟨id, b⟩ := p
      rw [hb] at hc
      simp only [casBinding] at hc
      cases hf : l.controls.find? (fun record => record.commandId = id) with
      | none => simp [hf] at hc
      | some r₀ =>
          obtain ⟨hr₀, hid⟩ := (Table.find?_key_eq_some hv.controlIds).mp hf
          simp only [hf] at hc
          split at hc
          · rename_i hnone
            simp only [Option.map_some, Option.some.injEq] at hc
            rw [← hc, List.mem_append, Table.mem_replace]
            simp only [Option.mem_toList, Option.mem_def, Option.some.injEq, forall_eq',
              Prod.mk.injEq]
            constructor
            · rintro ((⟨rfl, -⟩ | ⟨hx, hne⟩) | hx)
              · exact Or.inr (Or.inl ⟨id, b, r₀, ⟨rfl, rfl⟩, hr₀, hid, hnone, rfl⟩)
              · exact Or.inr (Or.inr ⟨hx, by rw [← hid]; exact hne⟩)
              · exact Or.inl hx
            · rintro (hx | ⟨id', b', r₁, ⟨rfl, rfl⟩, hr₁, hid₁, -, rfl⟩ | ⟨hx, hne⟩)
              · exact Or.inr hx
              · obtain rfl := Table.eq_of_key hv.controlIds hr₁ hr₀ (hid₁.trans hid.symm)
                exact Or.inl (Or.inl ⟨rfl, r₁, hr₁, rfl⟩)
              · exact Or.inl (Or.inr ⟨hx, by rw [hid]; exact hne⟩)
          · simp at hc

/-- A conditional update that went through found its record unbound. -/
theorem bind_of_apply (h : l.apply w = some l') {id b : String} (hb : w.bind = some (id, b)) :
    ∃ r₀ ∈ l.controls, r₀.commandId = id ∧ r₀.permitBindingSha256 = none := by
  have hc := (apply_inv h).2.2
  unfold controlsAfter at hc
  rw [hb] at hc
  simp only [casBinding] at hc
  cases hf : l.controls.find? (fun record => record.commandId = id) with
  | none => simp [hf] at hc
  | some r₀ =>
      simp only [hf] at hc
      split at hc
      · exact ⟨r₀, List.mem_of_find?_eq_some hf, by simpa using List.find?_some hf, ‹_›⟩
      · simp at hc

/-- An inserted row has a command id that no row had. -/
theorem insert_fresh (h : l.apply w = some l') {row : DeviceCommand} (hi : w.insert = some row) :
    ∀ r ∈ l.commands, r.commandId ≠ row.commandId := by
  have hnd := (apply_valid h).commandIds
  rw [(apply_inv h).2.1, commandsAfter, List.map_append, hi] at hnd
  intro r hr heq
  have hmem : r.commandId ∈ l.commands.map (·.commandId) := List.mem_map_of_mem hr
  rw [heq] at hmem
  have hdis := List.disjoint_of_nodup_append hnd
  refine hdis ?_ (List.mem_map_of_mem (List.mem_singleton.mpr rfl))
  cases w.update with
  | none => exact hmem
  | some u => simpa using hmem

end Apply

/-! ### Rows by key -/

theorem command?_eq_some {l : Ledger} (hv : l.Valid) {id : String} {row : DeviceCommand} :
    l.command? id = some row ↔ row ∈ l.commands ∧ row.commandId = id :=
  Table.find?_key_eq_some hv.commandIds

theorem control?_eq_some {l : Ledger} (hv : l.Valid) {id : String} {record : ControlCommand} :
    l.control? id = some record ↔ record ∈ l.controls ∧ record.commandId = id :=
  Table.find?_key_eq_some hv.controlIds

theorem commandId_of_control? {l : Ledger} {id : String} {record : ControlCommand}
    (h : l.control? id = some record) : record.commandId = id := by
  simpa using List.find?_some h

/-- A commit leaves the row of a command alone unless it writes that row. -/
theorem command?_apply {l l' : Ledger} {w : Write} (h : l.apply w = some l') (hv : l.Valid)
    {id : String} (hu : ∀ row, w.update = some row → row.commandId ≠ id)
    (hi : ∀ row, w.insert = some row → row.commandId ≠ id) : l'.command? id = l.command? id := by
  refine Option.ext fun row => ?_
  rw [command?_eq_some (apply_valid h), command?_eq_some hv, mem_commands_apply h]
  constructor
  · rintro ⟨⟨hrow, -⟩ | hrow | ⟨hrow, -⟩, hid⟩
    · exact absurd hid (hu row hrow)
    · exact absurd hid (hi row hrow)
    · exact ⟨hrow, hid⟩
  · rintro ⟨hrow, hid⟩
    exact ⟨Or.inr (Or.inr ⟨hrow, fun u hw heq => hu u hw (heq ▸ hid)⟩), hid⟩

/-- A commit leaves the control record of a command alone unless it binds or
inserts that record. -/
theorem control?_apply {l l' : Ledger} {w : Write} (h : l.apply w = some l') (hv : l.Valid)
    {id : String} (hb : ∀ id' b, w.bind = some (id', b) → id' ≠ id)
    (hc : ∀ record, w.control = some record → record.commandId ≠ id) :
    l'.control? id = l.control? id := by
  refine Option.ext fun record => ?_
  rw [control?_eq_some (apply_valid h), control?_eq_some hv, mem_controls_apply h hv]
  constructor
  · rintro ⟨hrec | ⟨id', b, r₀, hw, -, hid₀, -, rfl⟩ | ⟨hrec, -⟩, hid⟩
    · exact absurd hid (hc record hrec)
    · exact absurd (hid₀.symm.trans hid) (hb id' b hw)
    · exact ⟨hrec, hid⟩
  · rintro ⟨hrec, hid⟩
    exact ⟨Or.inr (Or.inr ⟨hrec, fun p hw heq => hb p.1 p.2 hw (heq ▸ hid)⟩), hid⟩

end Ledger

end KzHome
